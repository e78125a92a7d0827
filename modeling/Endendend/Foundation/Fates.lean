/-
**Numbered items that are always somewhere.**

Items get the numbers `0, 1, …` when they are taken in, and from then on each of them has a fate: it
waits, it is being handled, it has left in one way or another.  A system keeps its items if the
fates account for every number once.

Main definitions:

* `Fates.Accounted` — the fates account for the numbers below `n`.

Main results:

* `Fates.Accounted.existsUnique` — **every item has exactly one fate**;
* `Fates.Accounted.nodup` — and has it once;
* `Fates.Accounted.move`, `Fates.Accounted.issue` — moving items, and taking one in.
-/
import Mathlib.Algebra.BigOperators.Fin
import Mathlib.Algebra.Order.BigOperators.Group.Finset

set_option relaxedAutoImplicit false
set_option autoImplicit false

namespace Fates

variable {F : Type*} [Fintype F]

/-- Every number below `n` is listed once under the fates, and no other number is. -/
def Accounted (ids : F → List ℕ) (n : ℕ) : Prop :=
  ∀ x, ∑ f, (ids f).count x = if x < n then 1 else 0

namespace Accounted

variable {ids ids' : F → List ℕ} {n x : ℕ} {f : F}

theorem start (h : ∀ f, ids f = []) : Accounted ids 0 := by
  intro x
  simp [h]

/-- Items move from one fate to another: each number is listed as often as before. -/
theorem move (h : Accounted ids n) (hmove : ∀ x, ∑ f, (ids' f).count x = ∑ f, (ids f).count x) :
    Accounted ids' n := fun x => (hmove x).trans (h x)

/-- An item is taken in and gets the next number. -/
theorem issue (h : Accounted ids n)
    (hissue : ∀ x, ∑ f, (ids' f).count x = ∑ f, (ids f).count x + if x = n then 1 else 0) :
    Accounted ids' (n + 1) := by
  intro x
  rw [hissue, h x]
  split_ifs <;> omega

theorem count_le (h : Accounted ids n) (f : F) (x : ℕ) :
    (ids f).count x ≤ if x < n then 1 else 0 := by
  rw [← h x]
  exact Finset.single_le_sum (f := fun f => (ids f).count x) (fun _ _ => Nat.zero_le _)
    (Finset.mem_univ f)

/-- Only numbers that were issued have a fate. -/
theorem lt (h : Accounted ids n) (hx : x ∈ ids f) : x < n := by
  by_contra hn
  have hle := h.count_le f x
  rw [if_neg hn] at hle
  exact absurd (List.count_pos_iff.2 hx) (by omega)

/-- An item has its fate once. -/
theorem nodup (h : Accounted ids n) (f : F) : (ids f).Nodup := by
  refine List.nodup_iff_count_le_one.2 fun x => (h.count_le f x).trans ?_
  split_ifs <;> omega

/-- An item has no second fate. -/
theorem unique (h : Accounted ids n) {g : F} (hf : x ∈ ids f) (hg : x ∈ ids g) : f = g := by
  classical
  by_contra hne
  have hpair : ∑ k ∈ {f, g}, (ids k).count x ≤ ∑ k, (ids k).count x :=
    Finset.sum_le_sum_of_subset (Finset.subset_univ _)
  rw [Finset.sum_pair hne, h x, if_pos (h.lt hf)] at hpair
  have hfpos := List.count_pos_iff.2 hf
  have hgpos := List.count_pos_iff.2 hg
  omega

/-- **Every item has exactly one fate.** -/
theorem existsUnique (h : Accounted ids n) (hx : x < n) : ∃! f, x ∈ ids f := by
  have hsum := h x
  rw [if_pos hx] at hsum
  obtain ⟨f, -, hf⟩ := Finset.exists_ne_zero_of_sum_ne_zero (hsum.trans_ne Nat.one_ne_zero)
  exact ⟨f, List.count_pos_iff.1 (Nat.pos_of_ne_zero hf), fun g hg =>
    h.unique hg (List.count_pos_iff.1 (Nat.pos_of_ne_zero hf))⟩

end Accounted

end Fates
