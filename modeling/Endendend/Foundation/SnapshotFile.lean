/-
**A list in memory with a file behind it.**

Calls append rows to the list.  Each of them then takes a snapshot of the list and later saves its
snapshot, which replaces the file; other calls go on in between.  When the process is restarted, the
open calls are gone and the list is what the file holds.

Main definitions:

* `SnapshotFile.Store` — the list, the file and the open calls;
* `SnapshotFile.step` — an append, a snapshot, a save or a restart;
* `SnapshotFile.InOrder` — no save puts an older snapshot in place of the file.

Main results:

* `SnapshotFile.file_prefix` — **the file is always an initial part of the list**;
* `SnapshotFile.file_grows_step`, `SnapshotFile.returned_mem_file` — when saves are made in order,
  the file only grows, and it holds the row of every call that has returned;
* `SnapshotFile.complete_at_rest` — and it holds the whole list when no call is open.
-/
import Endendend.Foundation.Runs

set_option relaxedAutoImplicit false
set_option autoImplicit false

namespace SnapshotFile

open Runs

variable {α : Type*}

/-- A call that has appended its row, with its snapshot once it has taken it. -/
structure Call (α : Type*) where
  row : α
  snapshot : Option (List α)

structure Store (α : Type*) where
  items : List α
  file : List α
  calls : List (Call α)

/-- What happens; calls are named by their place among the open ones. -/
inductive Move (α : Type*)
  | append (row : α)
  | snapshot (i : ℕ)
  | save (i : ℕ)
  | restart

def step (s : Store α) : Move α → Option (Store α)
  | .append row => some { s with items := s.items ++ [row], calls := s.calls ++ [⟨row, none⟩] }
  | .snapshot i =>
      match s.calls[i]? with
      | some ⟨row, none⟩ => some { s with calls := s.calls.set i ⟨row, some s.items⟩ }
      | _ => none
  | .save i =>
      match s.calls[i]? with
      | some ⟨_, some l⟩ => some { s with file := l, calls := s.calls.eraseIdx i }
      | _ => none
  | .restart => some { items := s.file, file := s.file, calls := [] }

/-- Nothing in memory and nothing in the file. -/
def start : Store α := ⟨[], [], []⟩

/-- The row of the call that returns. -/
def returned (s : Store α) : Move α → Option α
  | .save i => s.calls[i]?.map Call.row
  | _ => none

/-- No save puts an older snapshot in place of the file. -/
def InOrder (s : Store α) : Move α → Prop
  | .save i => ∀ c ∈ s.calls[i]?, ∀ l ∈ c.snapshot, s.file.length ≤ l.length
  | _ => True

variable {s s' : Store α} {mv : Move α} {mvs : List (Move α)}

/-! ### What a step can do -/

theorem step_snapshot {i : ℕ} (h : step s (.snapshot i) = some s') :
    ∃ row, s.calls[i]? = some ⟨row, none⟩ ∧
      s' = { s with calls := s.calls.set i ⟨row, some s.items⟩ } := by
  simp only [step] at h
  split at h
  · next row hcall => exact ⟨row, hcall, (Option.some.inj h).symm⟩
  · cases h

theorem step_save {i : ℕ} (h : step s (.save i) = some s') :
    ∃ row l, s.calls[i]? = some ⟨row, some l⟩ ∧
      s' = { s with file := l, calls := s.calls.eraseIdx i } := by
  simp only [step] at h
  split at h
  · next row l hcall => exact ⟨row, l, hcall, (Option.some.inj h).symm⟩
  · cases h

/-! ### The file is an initial part of the list -/

/-- File and snapshots are initial parts of the list, the row of a call is in the list, and in its
snapshot too. -/
structure Inv (s : Store α) : Prop where
  file : s.file <+: s.items
  snapshots : ∀ c ∈ s.calls, ∀ l ∈ c.snapshot, l <+: s.items ∧ c.row ∈ l
  rows : ∀ c ∈ s.calls, c.row ∈ s.items

theorem inv_start : Inv (start : Store α) where
  file := List.prefix_rfl
  snapshots := nofun
  rows := nofun

theorem inv_append (h : Inv s) (row : α) :
    Inv { s with items := s.items ++ [row], calls := s.calls ++ [⟨row, none⟩] } where
  file := h.file.trans (List.prefix_append _ _)
  snapshots := by
    intro c hc l hl
    rcases List.mem_append.1 hc with hc | hc
    · obtain ⟨hinitial, hrow⟩ := h.snapshots c hc l hl
      exact ⟨hinitial.trans (List.prefix_append _ _), hrow⟩
    · -- the new call has no snapshot yet
      obtain rfl := List.mem_singleton.1 hc
      cases hl
  rows := by
    intro c hc
    rcases List.mem_append.1 hc with hc | hc
    · exact List.mem_append_left _ (h.rows c hc)
    · obtain rfl := List.mem_singleton.1 hc
      exact List.mem_append_right _ (List.mem_singleton_self row)

theorem inv_snapshot (h : Inv s) {i : ℕ} {row : α} (hcall : s.calls[i]? = some ⟨row, none⟩) :
    Inv { s with calls := s.calls.set i ⟨row, some s.items⟩ } := by
  have hrow : row ∈ s.items := h.rows _ (List.mem_of_getElem? hcall)
  refine { file := h.file, snapshots := ?_, rows := ?_ }
  · intro c hc l hl
    rcases List.mem_or_eq_of_mem_set hc with hc | rfl
    · exact h.snapshots c hc l hl
    · obtain rfl := Option.some.inj hl
      exact ⟨List.prefix_rfl, hrow⟩
  · intro c hc
    rcases List.mem_or_eq_of_mem_set hc with hc | rfl
    · exact h.rows c hc
    · exact hrow

theorem inv_save (h : Inv s) {i : ℕ} {row : α} {l : List α}
    (hcall : s.calls[i]? = some ⟨row, some l⟩) :
    Inv { s with file := l, calls := s.calls.eraseIdx i } where
  file := (h.snapshots _ (List.mem_of_getElem? hcall) l rfl).1
  snapshots c hc := h.snapshots c (List.mem_of_mem_eraseIdx hc)
  rows c hc := h.rows c (List.mem_of_mem_eraseIdx hc)

/-- **What every step keeps.** -/
theorem inv_step (h : Inv s) (hstep : step s mv = some s') : Inv s' := by
  cases mv with
  | append row =>
      obtain rfl := Option.some.inj hstep
      exact inv_append h row
  | snapshot i =>
      obtain ⟨row, hcall, rfl⟩ := step_snapshot hstep
      exact inv_snapshot h hcall
  | save i =>
      obtain ⟨row, l, hcall, rfl⟩ := step_save hstep
      exact inv_save h hcall
  | restart =>
      obtain rfl := Option.some.inj hstep
      exact { file := List.prefix_rfl, snapshots := nofun, rows := nofun }

theorem inv_run (h : run step start mvs = some s) : Inv s :=
  invariant_of_run (fun _ _ _ h hstep => inv_step h hstep) inv_start h

/-- **The file is an initial part of the list**, whatever the calls do and whenever the process is
restarted. -/
theorem file_prefix (h : run step start mvs = some s) : s.file <+: s.items := (inv_run h).file

/-! ### Saves in order -/

/-- The file, or what some open call still saves, is the whole list. -/
def Covered (s : Store α) : Prop :=
  s.file = s.items ∨ ∃ c ∈ s.calls, c.snapshot = none ∨ c.snapshot = some s.items

/-- A save that is made in order makes the file longer. -/
theorem prefix_of_inOrder (h : Inv s) {i : ℕ} {row : α} {l : List α}
    (hord : InOrder s (.save i)) (hcall : s.calls[i]? = some ⟨row, some l⟩) : s.file <+: l :=
  List.prefix_of_prefix_length_le h.file
    (h.snapshots _ (List.mem_of_getElem? hcall) l rfl).1 (hord _ hcall l rfl)

theorem file_grows_step (h : Inv s) (hord : InOrder s mv) (hstep : step s mv = some s') :
    s.file <+: s'.file := by
  cases mv with
  | append row =>
      obtain rfl := Option.some.inj hstep
      exact List.prefix_rfl
  | snapshot i =>
      obtain ⟨row, hcall, rfl⟩ := step_snapshot hstep
      exact List.prefix_rfl
  | save i =>
      obtain ⟨row, l, hcall, rfl⟩ := step_save hstep
      exact prefix_of_inOrder h hord hcall
  | restart =>
      obtain rfl := Option.some.inj hstep
      exact List.prefix_rfl

theorem covered_step (h : Inv s) (hcov : Covered s) (hord : InOrder s mv)
    (hstep : step s mv = some s') : Covered s' := by
  cases mv with
  | append row =>
      obtain rfl := Option.some.inj hstep
      exact .inr ⟨⟨row, none⟩, List.mem_append_right _ (List.mem_singleton_self _), .inl rfl⟩
  | snapshot i =>
      obtain ⟨row, hcall, rfl⟩ := step_snapshot hstep
      refine .inr ⟨⟨row, some s.items⟩, ?_, .inr rfl⟩
      exact List.mem_set (List.getElem?_eq_some_iff.1 hcall).1 _
  | save i =>
      obtain ⟨row, l, hcall, rfl⟩ := step_save hstep
      have hl := (h.snapshots _ (List.mem_of_getElem? hcall) l rfl).1
      rcases hcov with hfile | ⟨c, hc, hsnap⟩
      · -- the file was whole and does not get shorter
        left
        have hfile' : s.items <+: l := hfile ▸ prefix_of_inOrder h hord hcall
        exact hl.eq_of_length_le hfile'.length_le
      · by_cases hwhole : l = s.items
        · exact .inl hwhole
        · -- the call that saves is not the one that has the whole list
          right
          refine ⟨c, ?_, hsnap⟩
          obtain ⟨j, hj⟩ := List.mem_iff_getElem?.1 hc
          refine List.mem_eraseIdx_iff_getElem?.2 ⟨j, ?_, hj⟩
          rintro rfl
          rw [hcall] at hj
          obtain rfl := Option.some.inj hj
          rcases hsnap with hsnap | hsnap
          · cases hsnap
          · exact hwhole (Option.some.inj hsnap)
  | restart =>
      obtain rfl := Option.some.inj hstep
      exact .inl rfl

/-- Rows that calls have returned are in the file. -/
theorem returned_step {l : List α} (h : Inv s) (hl : ∀ a ∈ l, a ∈ s.file) (hord : InOrder s mv)
    (hstep : step s mv = some s') : ∀ a ∈ l ++ (returned s mv).toList, a ∈ s'.file := by
  intro a ha
  rcases List.mem_append.1 ha with ha | ha
  · exact (file_grows_step h hord hstep).subset (hl a ha)
  · cases mv with
    | save i =>
        obtain ⟨row, l, hcall, rfl⟩ := step_save hstep
        simp only [returned, hcall, Option.map_some, Option.toList_some, List.mem_singleton] at ha
        subst ha
        exact (h.snapshots _ (List.mem_of_getElem? hcall) l rfl).2
    | append row => simp [returned] at ha
    | snapshot i => simp [returned] at ha
    | restart => simp [returned] at ha

variable (hord : Along step InOrder start mvs) (h : run step start mvs = some s)
include hord h

/-- **When saves are made in order, the file holds the row of every call that has returned.** -/
theorem returned_mem_file : ∀ a ∈ emitted step returned start mvs, a ∈ s.file := by
  induction mvs using List.reverseRecOn generalizing s with
  | nil => simp [emitted]
  | append_singleton mvs mv ih =>
      obtain ⟨s₁, h₁, hstep⟩ := run_concat.1 h
      obtain ⟨hord₁, hmv⟩ := (along_concat h₁).1 hord
      rw [emitted_concat returned mv h₁]
      exact returned_step (inv_run h₁) (ih hord₁ h₁) hmv hstep

/-- **And it holds the whole list when no call is open.** -/
theorem complete_at_rest (hrest : s.calls = []) : s.file = s.items := by
  have hcov : Inv s ∧ Covered s :=
    invariant_along (I := fun s => Inv s ∧ Covered s) (fun _ _ _ hI hmv hstep =>
      ⟨inv_step hI.1 hstep, covered_step hI.1 hI.2 hmv hstep⟩) ⟨inv_start, .inl rfl⟩ hord h
  rcases hcov.2 with hfile | ⟨c, hc, -⟩
  · exact hfile
  · rw [hrest] at hc
    cases hc

end SnapshotFile
