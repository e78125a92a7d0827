/-
**Filters over the levels of a topic.**

A topic is a list of levels.  A filter is matched with it level by level: one mark of a filter
stands for any level, and another one, at its end, for all levels that are left.

Main definitions:

* `LevelFilter.Matches` — a filter matches a topic;
* `LevelFilter.AtParent` — a topic ends just where a final mark would go on.

Main results:

* `LevelFilter.atParent_iff` — **a topic ends before a final mark exactly if it is one level
  shorter**;
* `LevelFilter.matches_append_left`, `LevelFilter.matches_append_right` — levels that a filter and a
  topic begin and end with.
-/
import Mathlib.Data.List.Basic

set_option relaxedAutoImplicit false
set_option autoImplicit false

namespace LevelFilter

variable {α : Type*}

/-- **A filter matches a topic**: `one` stands for any level, `rest` for all levels from there
on. -/
inductive Matches (one rest : α) : List α → List α → Prop
  | nil : Matches one rest [] []
  | same (a : α) {fs ts : List α} (h : Matches one rest fs ts) :
      Matches one rest (a :: fs) (a :: ts)
  | any (t : α) {fs ts : List α} (h : Matches one rest fs ts) :
      Matches one rest (one :: fs) (t :: ts)
  | rest (ts : List α) : Matches one rest [rest] ts

/-- A topic ends just where a final mark would go on. -/
def AtParent (one rest : α) (fs ts : List α) : Prop :=
  ∃ init, fs = init ++ [rest] ∧ Matches one rest init ts

variable {one rest : α} {fs ts : List α}

theorem matches_refl (fs : List α) : Matches one rest fs fs := by
  induction fs with
  | nil => exact .nil
  | cons f fs ih => exact .same f ih

/-- A filter that ends before its topic does not match it. -/
theorem not_matches_nil_cons (t : α) (ts : List α) : ¬ Matches one rest [] (t :: ts) := by
  rintro ⟨⟩

/-- A level that is not the last mark asks for a level of the topic. -/
theorem not_matches_cons_nil {f : α} (h : f ≠ rest ∨ fs ≠ []) :
    ¬ Matches one rest (f :: fs) [] := by
  rintro ⟨⟩
  simp at h

/-- **A level that is not the last mark is compared with one level of the topic.** -/
theorem matches_cons_iff {f t : α} (h : f ≠ rest ∨ fs ≠ []) :
    Matches one rest (f :: fs) (t :: ts) ↔ (f = one ∨ f = t) ∧ Matches one rest fs ts := by
  constructor
  · intro hm
    cases hm with
    | same _ hm => exact ⟨Or.inr rfl, hm⟩
    | any _ hm => exact ⟨Or.inl rfl, hm⟩
    | rest _ => simp at h
  · rintro ⟨rfl | rfl, hm⟩
    · exact .any t hm
    · exact .same f hm

/-! ### The mark at the end -/

theorem not_mem_dropLast_cons {f : α} (h : rest ∉ (f :: fs).dropLast) :
    (f ≠ rest ∨ fs = []) ∧ rest ∉ fs.dropLast := by
  cases fs with
  | nil => simp
  | cons g fs =>
      rw [List.dropLast_cons_cons, List.mem_cons, not_or] at h
      exact ⟨Or.inl (Ne.symm h.1), h.2⟩

/-- Without a mark at its end a filter matches only topics of its own length. -/
theorem Matches.length_eq (h : Matches one rest fs ts) (hrest : rest ∉ fs) :
    fs.length = ts.length := by
  induction h with
  | nil => rfl
  | same a _ ih => simpa using ih fun hmem => hrest (List.mem_cons_of_mem _ hmem)
  | any t _ ih => simpa using ih fun hmem => hrest (List.mem_cons_of_mem _ hmem)
  | rest ts => exact absurd List.mem_cons_self hrest

/-- A mark after all levels that a filter has stands for the parent level, too. -/
theorem Matches.concat_rest (h : Matches one rest fs ts) (hrest : rest ∉ fs) :
    Matches one rest (fs ++ [rest]) ts := by
  induction h with
  | nil => exact .rest []
  | same a _ ih => exact .same a (ih fun hmem => hrest (List.mem_cons_of_mem _ hmem))
  | any t _ ih => exact .any t (ih fun hmem => hrest (List.mem_cons_of_mem _ hmem))
  | rest ts => exact absurd List.mem_cons_self hrest

/-- **A topic ends before a final mark exactly if it is one level shorter than the filter.** -/
theorem atParent_iff (hlast : rest ∉ fs.dropLast) :
    AtParent one rest fs ts ↔ Matches one rest fs ts ∧ fs.length = ts.length + 1 := by
  constructor
  · rintro ⟨init, rfl, h⟩
    rw [List.dropLast_concat] at hlast
    have hlength := h.length_eq hlast
    exact ⟨h.concat_rest hlast, by rw [List.length_append, hlength, List.length_singleton]⟩
  · rintro ⟨h, hlength⟩
    induction h with
    | nil => simp at hlength
    | same a _ ih =>
        obtain ⟨init, rfl, hm⟩ := ih (not_mem_dropLast_cons hlast).2 (by simpa using hlength)
        exact ⟨a :: init, rfl, .same a hm⟩
    | any t _ ih =>
        obtain ⟨init, rfl, hm⟩ := ih (not_mem_dropLast_cons hlast).2 (by simpa using hlength)
        exact ⟨one :: init, rfl, .any t hm⟩
    | rest ts =>
        obtain rfl : ts = [] := List.length_eq_zero_iff.1 (by simpa using hlength.symm)
        exact ⟨[], rfl, .nil⟩

/-! ### Levels at both ends -/

/-- **A filter and a topic may begin with the same levels.** -/
theorem matches_append_left {p : List α} (hrest : rest ∉ p) :
    Matches one rest (p ++ fs) (p ++ ts) ↔ Matches one rest fs ts := by
  induction p with
  | nil => rfl
  | cons a p ih =>
      rw [List.mem_cons, not_or] at hrest
      rw [List.cons_append, List.cons_append, matches_cons_iff (Or.inl (Ne.symm hrest.1)),
        ih hrest.2]
      simp

/-- **A filter and a topic may end with the same level**, if the filter has no mark before it. -/
theorem matches_append_right {a : α} (hrest : rest ∉ fs) (hrest' : a ≠ rest) :
    Matches one rest (fs ++ [a]) (ts ++ [a]) ↔ Matches one rest fs ts := by
  induction fs generalizing ts with
  | nil =>
      cases ts with
      | nil => exact iff_of_true (matches_refl [a]) .nil
      | cons t ts =>
          refine iff_of_false (fun h => ?_) (not_matches_nil_cons t ts)
          have hlength := h.length_eq (by simpa using Ne.symm hrest')
          simp at hlength
  | cons f fs ih =>
      rw [List.mem_cons, not_or] at hrest
      cases ts with
      | nil =>
          refine iff_of_false (fun h => ?_) (not_matches_cons_nil (Or.inl (Ne.symm hrest.1)))
          have hlength := h.length_eq (by simp [hrest.1, hrest.2, Ne.symm hrest'])
          simp at hlength
      | cons t ts =>
          rw [List.cons_append, List.cons_append, matches_cons_iff (Or.inl (Ne.symm hrest.1)),
            matches_cons_iff (Or.inl (Ne.symm hrest.1)), ih hrest.2]

end LevelFilter
