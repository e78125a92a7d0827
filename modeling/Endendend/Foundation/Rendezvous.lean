/-
**Choosing one of many by weight, everywhere the same.**

Every node gets a weight for a key, and the heaviest node is chosen, the least one of equally heavy
ones.  Nodes that know the same others choose the same without exchanging a message, and a choice
changes only if the chosen node is gone or the newly chosen one has come.

Main definitions:

* `Rendezvous.winner` — the choice among some nodes.

Main results:

* `Rendezvous.winner_eq_some_iff` — what is chosen, whatever the order in which nodes are listed;
* `Rendezvous.eq_of_winner` — **two choices from which the other's choice was not missing agree.**
-/
import Mathlib.Data.List.MinMax
import Mathlib.Data.List.Pairwise
import Mathlib.Data.List.Sort

set_option relaxedAutoImplicit false
set_option autoImplicit false

namespace Rendezvous

variable {N W : Type*} [LinearOrder N] [LinearOrder W] {weight : N → W}

/-- The heaviest node, and of equally heavy ones the least. -/
def winner (weight : N → W) (nodes : List N) : Option N := (nodes.mergeSort (· ≤ ·)).argmax weight

/-- Is a node preferred to another one, or the same? -/
def Beats (weight : N → W) (a b : N) : Prop := weight b < weight a ∨ weight b = weight a ∧ a ≤ b

instance (a b : N) : Decidable (Beats weight a b) :=
  inferInstanceAs (Decidable (weight b < weight a ∨ weight b = weight a ∧ a ≤ b))

theorem Beats.antisymm {a b : N} (hab : Beats weight a b) (hba : Beats weight b a) : a = b := by
  rcases hab with hab | ⟨hab, hle⟩
  · rcases hba with hba | ⟨hba, -⟩
    · exact absurd hba hab.asymm
    · exact absurd hba hab.ne'
  · rcases hba with hba | ⟨-, hle'⟩
    · exact absurd hab hba.ne'
    · exact le_antisymm hle hle'

/-- In a sorted list, of equally heavy nodes the least one comes first. -/
theorem beats_of_argmax {nodes : List N} (hsorted : nodes.Pairwise (· ≤ ·)) {a b : N}
    (ha : nodes.argmax weight = some a) (hb : b ∈ nodes) : Beats weight a b := by
  obtain ⟨hmem, hle, hfirst⟩ := List.argmax_eq_some_iff.1 ha
  rcases (hle b hb).lt_or_eq with hlt | heq
  · exact Or.inl hlt
  · refine Or.inr ⟨heq, ?_⟩
    have hidx := hfirst b hb heq.ge
    have hget := hsorted.rel_get_of_le (a := ⟨nodes.idxOf a, List.idxOf_lt_length_iff.2 hmem⟩)
      (b := ⟨nodes.idxOf b, List.idxOf_lt_length_iff.2 hb⟩) hidx
    simpa using hget

theorem winner_eq_some_iff {nodes : List N} {a : N} :
    winner weight nodes = some a ↔ a ∈ nodes ∧ ∀ b ∈ nodes, Beats weight a b := by
  have hsorted : (nodes.mergeSort (· ≤ ·)).Pairwise (· ≤ ·) := List.pairwise_mergeSort' _ nodes
  have hchosen : ∀ {a}, winner weight nodes = some a →
      a ∈ nodes ∧ ∀ b ∈ nodes, Beats weight a b := by
    intro a ha
    exact ⟨List.mem_mergeSort.1 (List.argmax_mem ha),
      fun b hb => beats_of_argmax hsorted ha (List.mem_mergeSort.2 hb)⟩
  refine ⟨hchosen, fun ⟨hmem, hbeats⟩ => ?_⟩
  cases hwin : winner weight nodes with
  | none =>
      have hnil := List.argmax_eq_none.1 hwin
      exact absurd (List.mem_mergeSort.2 hmem) (hnil ▸ List.not_mem_nil)
  | some a' =>
      obtain ⟨hmem', hbeats'⟩ := hchosen hwin
      exact congrArg some ((hbeats' a hmem).antisymm (hbeats a' hmem'))

/-- **Two choices agree**, if neither was made without the node that the other one chose. -/
theorem eq_of_winner {nodes nodes' : List N} {a b : N} (ha : winner weight nodes = some a)
    (hb : winner weight nodes' = some b) (hab : a ∈ nodes') (hba : b ∈ nodes) : a = b :=
  ((winner_eq_some_iff.1 ha).2 b hba).antisymm ((winner_eq_some_iff.1 hb).2 a hab)

end Rendezvous
