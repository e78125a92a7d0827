/-
**Counters as lengths of chains.**

A counter that goes one above the greatest counter known before says how long the longest chain is
that leads up to its event, where in a chain every event is known to the next one.  So the events
with the greatest counters are those at the ends of the longest chains.

Main definitions:

* `LongestChain.Behind` — a chain, read backwards from its last element;
* `LongestChain.Foremost` — an element with as long a chain behind it as any other;
* `LongestChain.Counts` — a counter that goes one above the greatest that is known.

Main results:

* `LongestChain.Counts.length_le`, `LongestChain.Counts.exists_behind` — **a counter is the length
  of the longest chain**;
* `LongestChain.Counts.foremost_iff` — the foremost elements are those with the greatest counter.
-/
import Mathlib.Data.List.Chain
import Mathlib.Data.Set.Basic
import Mathlib.Data.Int.Order.Basic

set_option relaxedAutoImplicit false
set_option autoImplicit false

namespace LongestChain

variable {α : Type*} (R : α → α → Prop)

/-- The elements of a chain behind its last one, the nearest first. -/
def Behind (a : α) (l : List α) : Prop := (a :: l).IsChain fun b a => R a b

/-- No element of the set has a longer chain behind it. -/
def Foremost (S : Set α) (a : α) : Prop :=
  a ∈ S ∧ ∃ l, Behind R a l ∧ ∀ b ∈ S, ∀ l', Behind R b l' → l'.length ≤ l.length

/-- A counter of the elements of a set, which goes one above the greatest counter that is known. -/
structure Counts (S : Set α) (count : α → ℤ) : Prop where
  pos : ∀ a ∈ S, 0 < count a
  source : ∀ a b, b ∈ S → R a b → a ∈ S
  above : ∀ a b, b ∈ S → R a b → count a < count b
  next : ∀ b ∈ S, count b = 1 ∨ ∃ a, R a b ∧ count b = count a + 1

namespace Counts

variable {R} {S : Set α} {count : α → ℤ}

/-- A chain is at most as long as its last element counts. -/
theorem length_le (h : Counts R S count) {a : α} {l : List α} (ha : a ∈ S) (hl : Behind R a l) :
    (l.length : ℤ) + 1 ≤ count a := by
  induction l generalizing a with
  | nil =>
      have hpos := h.pos a ha
      simp only [List.length_nil]
      omega
  | cons b l ih =>
      obtain ⟨hR, hl⟩ := List.isChain_cons_cons.1 hl
      have hb := ih (h.source b a ha hR) hl
      have hlt := h.above b a ha hR
      rw [List.length_cons]
      push_cast
      omega

/-- **A counter is the length of a chain.** -/
theorem exists_behind (h : Counts R S count) {a : α} (ha : a ∈ S) :
    ∃ l, Behind R a l ∧ (l.length : ℤ) + 1 = count a := by
  obtain ⟨n, hn⟩ : ∃ n : ℕ, count a = n + 1 := ⟨(count a).toNat - 1, by
    have hpos := h.pos a ha
    omega⟩
  induction n generalizing a with
  | zero => exact ⟨[], List.isChain_singleton a, hn.symm⟩
  | succ n ih =>
      obtain hone | ⟨b, hR, hb⟩ := h.next a ha
      · omega
      · obtain ⟨l, hl, hlen⟩ := ih (h.source b a ha hR) (by omega)
        refine ⟨b :: l, List.isChain_cons_cons.2 ⟨hR, hl⟩, ?_⟩
        rw [List.length_cons]
        push_cast
        omega

/-- **The foremost elements are those with the greatest counter.** -/
theorem foremost_iff (h : Counts R S count) (a : α) :
    Foremost R S a ↔ a ∈ S ∧ ∀ b ∈ S, count b ≤ count a := by
  constructor
  · rintro ⟨ha, l, hl, hlongest⟩
    refine ⟨ha, fun b hb => ?_⟩
    obtain ⟨l', hl', hlen'⟩ := h.exists_behind hb
    have hle := hlongest b hb l' hl'
    have hlen := h.length_le ha hl
    omega
  · rintro ⟨ha, hgreatest⟩
    obtain ⟨l, hl, hlen⟩ := h.exists_behind ha
    refine ⟨ha, l, hl, fun b hb l' hl' => ?_⟩
    have hle := hgreatest b hb
    have hlen' := h.length_le hb hl'
    omega

end Counts

end LongestChain
