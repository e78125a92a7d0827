/-
**Changes that overwrite and changes that collect.**

A change may give some properties of a record a new value, and may add an element to a set.  What a
list of changes leaves is known from the last write of each property and from the elements added, so
making the same changes again changes nothing, and it can be said exactly when other changes made in
between change nothing either.

Main definitions:

* `Overwrites.overwrite`, `Overwrites.lastWrite` — a record after one change, and what a list of
  changes wrote last;
* `Overwrites.collect` — a set after one change.

Main results:

* `Overwrites.foldl_overwrite`, `Overwrites.foldl_collect` — what a list of changes leaves;
* `Overwrites.overwrite_around_iff`, `Overwrites.collect_around_iff` — **when changes between two
  rounds of the same changes leave no trace**.
-/
import Endendend.Foundation.OrderedMap

set_option relaxedAutoImplicit false
set_option autoImplicit false

namespace Overwrites

open Js

/-! ### Properties -/

section Properties

variable {κ β ω : Type*} (write : ω → κ → Option β)

/-- A record after a change: the properties that are written have the new values. -/
def overwrite (f : κ → Option β) (w : ω) : κ → Option β := fun k => (write w k).or (f k)

/-- The last value that changes give a property. -/
def lastWrite : List ω → κ → Option β
  | [], _ => none
  | w :: ws, k => (lastWrite ws k).or (write w k)

/-- **What changes leave**: the last value written, or the one that was there. -/
theorem foldl_overwrite (ws : List ω) (f : κ → Option β) (k : κ) :
    ws.foldl (overwrite write) f k = (lastWrite write ws k).or (f k) := by
  induction ws generalizing f with
  | nil => rfl
  | cons w ws ih => rw [List.foldl_cons, ih, lastWrite, overwrite, Option.or_assoc]

theorem overwrite_twice (ws : List ω) (f : κ → Option β) :
    ws.foldl (overwrite write) (ws.foldl (overwrite write) f) = ws.foldl (overwrite write) f := by
  funext k
  rw [foldl_overwrite, foldl_overwrite]
  cases lastWrite write ws k with
  | none => rfl
  | some v => rfl

/-- **When changes between two rounds leave no trace**: each property they write is written by the
rounds as well, or had the value already. -/
theorem overwrite_around_iff (early late : List ω) (f : κ → Option β) :
    late.foldl (overwrite write) (early.foldl (overwrite write) (late.foldl (overwrite write) f)) =
        late.foldl (overwrite write) f ↔
      ∀ k v, lastWrite write early k = some v → lastWrite write late k = none → f k = some v := by
  rw [funext_iff]
  refine forall_congr' fun k => ?_
  rw [foldl_overwrite, foldl_overwrite, foldl_overwrite]
  cases lastWrite write late k with
  | some v => simp
  | none =>
      cases lastWrite write early k with
      | none => simp
      | some v => simp [eq_comm]

end Properties

/-! ### Sets -/

section Sets

variable {α ω : Type*} [DecidableEq α] (add : ω → Option α)

/-- A set after a change: an element that is added comes last, unless it is there already. -/
def collect (s : List α) (w : ω) : List α :=
  match add w with
  | some x => uniq (s ++ [x])
  | none => s

theorem uniq_uniq_append (s xs : List α) : uniq (uniq s ++ xs) = uniq (s ++ xs) := by
  have hself : (uniq s).foldl setAdd [] = s.foldl setAdd [] := uniq_eq_self_iff.2 (nodup_uniq s)
  calc uniq (uniq s ++ xs)
      = xs.foldl setAdd ((uniq s).foldl setAdd []) := List.foldl_append
    _ = xs.foldl setAdd (s.foldl setAdd []) := by rw [hself]
    _ = uniq (s ++ xs) := List.foldl_append.symm

/-- **What changes leave**: nothing happens to the list until an element is added. -/
theorem foldl_collect (ws : List ω) (s : List α) :
    ws.foldl (collect add) s =
      if ws.filterMap add = [] then s else uniq (s ++ ws.filterMap add) := by
  induction ws generalizing s with
  | nil => rfl
  | cons w ws ih =>
      rw [List.foldl_cons, ih]
      cases h : add w with
      | none => rw [collect, h, List.filterMap_cons_none h]
      | some x =>
          rw [List.filterMap_cons_some h, if_neg (List.cons_ne_nil _ _), collect, h]
          split
          · rename_i hnil
            rw [hnil]
          · rw [uniq_uniq_append, List.append_assoc]
            rfl

theorem collect_twice (ws : List ω) (s : List α) :
    ws.foldl (collect add) (ws.foldl (collect add) s) = ws.foldl (collect add) s := by
  rw [foldl_collect, foldl_collect]
  by_cases h : ws.filterMap add = []
  · rw [if_pos h, if_pos h]
  · rw [if_neg h, if_neg h, uniq_append_eq_left_iff]
    exact ⟨nodup_uniq _, fun x hx => mem_uniq.2 (List.mem_append_right _ hx)⟩

/-- **When changes between two rounds leave no trace**: each element they add is there already or is
added by the rounds as well, and the list is a set if they add any. -/
theorem collect_around_iff (early late : List ω) (s : List α) :
    late.foldl (collect add) (early.foldl (collect add) (late.foldl (collect add) s)) =
        late.foldl (collect add) s ↔
      (∀ x ∈ early.filterMap add, x ∈ s ∨ x ∈ late.filterMap add) ∧
        (early.filterMap add ≠ [] → late.filterMap add ≠ [] ∨ s.Nodup) := by
  rw [foldl_collect, foldl_collect, foldl_collect]
  generalize early.filterMap add = xs
  generalize late.filterMap add = ys
  by_cases hxs : xs = []
  · subst hxs
    by_cases hys : ys = []
    · simp [hys]
    · simp only [if_neg hys, if_true, List.not_mem_nil, false_implies, implies_true, ne_eq,
        not_true_eq_false, and_self, iff_true]
      exact uniq_append_eq_left_iff.2
        ⟨nodup_uniq _, fun y hy => mem_uniq.2 (List.mem_append_right _ hy)⟩
  · by_cases hys : ys = []
    · simp only [if_pos hys, if_neg hxs]
      rw [uniq_append_eq_left_iff, and_comm]
      simp [hxs, hys]
    · simp only [if_neg hys, if_neg hxs]
      have hround :
          uniq (uniq (uniq (s ++ ys) ++ xs) ++ ys) = uniq (uniq (s ++ ys) ++ (xs ++ ys)) := by
        rw [uniq_uniq_append, List.append_assoc]
      rw [hround, uniq_append_eq_left_iff]
      constructor
      · rintro ⟨-, h⟩
        refine ⟨fun x hx => ?_, fun _ => Or.inl hys⟩
        exact List.mem_append.1 (mem_uniq.1 (h x (List.mem_append_left _ hx)))
      · rintro ⟨h, -⟩
        refine ⟨nodup_uniq _, fun x hx => mem_uniq.2 (List.mem_append.2 ?_)⟩
        exact (List.mem_append.1 hx).elim (h x) Or.inr

end Sets

end Overwrites
