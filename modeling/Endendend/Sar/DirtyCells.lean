/-
**What the next delta sends** (`SharedWorldMap` and `complete_target` of
`swarm/sar_vertex_foxmq_backend.py`).

A delta exports the dirty cells.  What is put into the map becomes dirty with it; but a target that
is completed changes its cell in the map, and the ids of the dirty cells are not stored with the
map.

Main definitions:

* `Sar.SharedWorldMap.upsert`, `Sar.SharedWorldMap.save`, `Sar.SharedWorldMap.load` — the operations
  that are left, with the file of a map;
* `Sar.MapNode`, `Sar.CellMove`, `Sar.cellStep` — a backend with its file, what happens to it, and
  the cells that it exported last;
* `Sar.NoneEscapes` — a cell that is not as it was exported last is dirty;
* `Sar.Traced` — the condition: a target that is completed has a dirty cell, and a backend restarts
  from cells that were all exported.

Main results:

* `Sar.Marks.foldl_mergeCell` — a map that takes cells over marks them;
* `Sar.noneEscapes_step_iff` — **what every move does**;
* `Sar.noneEscapes_iff_traced` — **no cell escapes all along a run exactly if all of its moves are
  traced**;
* `Sar.completed_target_escapes` — a target that is completed.
-/
import Endendend.Sar.DeltaGossip
import Endendend.Sar.VictimCells

set_option relaxedAutoImplicit false
set_option autoImplicit false

namespace Sar

open Js (Str lit OrderedMap KeyedMap)
open Py (Dict)
open Runs (run Along)

/-! ### The operations that are left -/

/-- What is stored of a map. -/
structure MapFile where
  version : ℤ
  cells : KeyedMap WorldCell.cellId

namespace SharedWorldMap

/-- Stores a cell, unless it is older than the one that is there. -/
def upsert (m : SharedWorldMap) (cell : WorldCell) : Bool × SharedWorldMap :=
  match m.getCell cell.cellId with
  | none => (true, (m.store cell).bump)
  | some current => if cell.NotOlder current then (true, (m.store cell).bump) else (false, m)

def save (m : SharedWorldMap) : MapFile := ⟨m.version, m.cells⟩

/-- The map of a file, without dirty cells. -/
def load : Option MapFile → SharedWorldMap
  | none => new
  | some file => ⟨file.version, file.cells, [], fun _ h => by cases h⟩

end SharedWorldMap

/-! ### Backends with their files -/

/-- A backend with the file of its map, and for each id the cell that was exported last. -/
structure MapNode where
  backend : MapBackend
  file : Option MapFile
  exported : KeyedMap WorldCell.cellId

namespace MapNode

def new (nodeId : Str) : MapNode := ⟨.new nodeId, none, ∅⟩

variable (n : MapNode)

def map : SharedWorldMap := n.backend.worldMap

def persist : MapNode := { n with file := some n.map.save }

def withMap (m : SharedWorldMap) : MapNode := { n with backend := { n.backend with worldMap := m } }

/-- Cells are exported. -/
def exporting (cells : List WorldCell) : MapNode :=
  { n with exported := cells.foldl KeyedMap.put n.exported }

end MapNode

/-- What happens to a backend. -/
inductive CellMove
  | upsert (cell : WorldCell)
  | mark (x y z : ℤ) (state : CellState) (owner : Option Str) (confidence cost : ℚ)
      (metadata : Dict) (now : ℤ)
  | merge (remoteCells : List (Option WorldCell)) (sourceVersion : ℤ)
  | delta (order : List Str) (maxCells : ℕ)
  | ingestTarget (target : RescueTarget) (now : ℤ)
  | completeTarget (targetId byNode : Str) (now : ℤ)
  | restart

/-- A move of a backend; the dirty ids are listed in any order. -/
def cellStep (n : MapNode) : CellMove → Option MapNode
  | .upsert cell =>
    match n.map.upsert cell with
    | (true, m) => some (n.withMap m).persist
    | (false, _) => some n
  | .mark x y z state owner confidence cost metadata now =>
    some (n.withMap (n.map.mark x y z state owner confidence cost metadata now)).persist
  | .merge remoteCells sourceVersion =>
    let n := n.withMap (n.map.merge remoteCells sourceVersion)
    -- a cell that cannot be read raises before the map is stored
    some (if remoteCells.all Option.isSome then n.persist else n)
  | .delta order maxCells =>
    if order.Perm n.map.dirty then
      let (cells, m) := n.map.delta order maxCells
      some ((n.withMap m).exporting cells).persist
    else none
  | .ingestTarget target now =>
    match target.position with
    | none => some n
    | some _ => some { n with backend := n.backend.ingestTarget target now }.persist
  | .completeTarget targetId byNode now =>
    match (n.backend.targetCellByTargetId.get? targetId).bind n.map.getCell with
    | none => some n
    | some _ => some { n with backend := n.backend.completeTarget targetId byNode now }.persist
  | .restart => some { n with backend := ⟨n.backend.nodeId, .load n.file, ∅⟩ }

/-- **A cell that is not as it was exported last is dirty.** -/
def NoneEscapes (n : MapNode) : Prop :=
  ∀ id cell, n.map.getCell id = some cell → n.exported.get? id ≠ some cell → id ∈ n.map.dirty

/-- **A move is traced**: the cell of a target that is completed is dirty already, and a backend
restarts from cells that were all exported as they are. -/
def Traced (n : MapNode) : CellMove → Prop
  | .completeTarget targetId _ _ =>
    ∀ cellId, n.backend.targetCellByTargetId.get? targetId = some cellId →
      (n.map.getCell cellId).isSome → cellId ∈ n.map.dirty
  | .restart => ∀ file ∈ n.file, ∀ id cell, file.cells.get? id = some cell →
      n.exported.get? id = some cell
  | _ => True

/-! ### Maps that mark what they change -/

/-- What is changed between two maps is dirty, and what was dirty still is. -/
structure Marks (m m' : SharedWorldMap) : Prop where
  kept : ∀ id ∈ m.dirty, id ∈ m'.dirty
  changed : ∀ id, m'.getCell id ≠ m.getCell id → id ∈ m'.dirty

namespace Marks

variable {m m' m'' : SharedWorldMap}

theorem refl (m : SharedWorldMap) : Marks m m := ⟨fun _ h => h, fun _ h => absurd rfl h⟩

theorem trans (h : Marks m m') (h' : Marks m' m'') : Marks m m'' where
  kept id hid := h'.kept id (h.kept id hid)
  changed id hne := by
    by_cases heq : m''.getCell id = m'.getCell id
    · exact h'.kept id (h.changed id fun heq' => hne (heq.trans heq'))
    · exact h'.changed id heq

theorem store (m : SharedWorldMap) (cell : WorldCell) : Marks m (m.store cell) where
  kept _ hid := SharedWorldMap.mem_dirty_store.2 (Or.inl hid)
  changed id hne := by
    rw [SharedWorldMap.getCell_store] at hne
    by_cases hid : id = cell.cellId
    · exact SharedWorldMap.mem_dirty_store.2 (Or.inr hid)
    · exact absurd (if_neg hid) hne

/-- The version is not marked. -/
theorem bump (h : Marks m m') : Marks m m'.bump := ⟨h.kept, h.changed⟩

theorem mergeCell (m : SharedWorldMap) (remote : WorldCell) : Marks m (m.mergeCell remote) := by
  rw [SharedWorldMap.mergeCell]
  split
  · exact store m remote
  · split
    · exact store m remote
    · exact refl m

/-- **A map that takes cells over marks them.** -/
theorem foldl_mergeCell (cells : List WorldCell) (m : SharedWorldMap) :
    Marks m (cells.foldl SharedWorldMap.mergeCell m) := by
  induction cells generalizing m with
  | nil => exact refl m
  | cons cell cells ih => exact (mergeCell m cell).trans (ih _)

theorem merge (m : SharedWorldMap) (remoteCells : List (Option WorldCell)) (sourceVersion : ℤ) :
    Marks m (m.merge remoteCells sourceVersion) := by
  have hmarks := foldl_mergeCell (SharedWorldMap.readable remoteCells) m
  rw [SharedWorldMap.merge]
  split
  · exact ⟨hmarks.kept, hmarks.changed⟩
  · exact hmarks

theorem mark (m : SharedWorldMap) (x y z : ℤ) (state : CellState) (owner : Option Str)
    (confidence cost : ℚ) (metadata : Dict) (now : ℤ) :
    Marks m (m.mark x y z state owner confidence cost metadata now) := (store m _).bump

end Marks

/-! ### What every move does -/

variable {n n' : MapNode}

/-- **A map that marks what it changes lets no cell escape.** -/
theorem NoneEscapes.of_marks (h : NoneEscapes n) (hmarks : Marks n.map n'.map)
    (hexported : n'.exported = n.exported) : NoneEscapes n' := by
  intro id cell hcell hne
  rw [hexported] at hne
  by_cases hsame : n'.map.getCell id = n.map.getCell id
  · exact hmarks.kept id (h id cell (hsame ▸ hcell) hne)
  · exact hmarks.changed id hsame

/-- The cell of an id that was exported last. -/
theorem get?_foldl_put {cells : List WorldCell} {ex : KeyedMap WorldCell.cellId} {id : Str}
    {cell : WorldCell} (hall : ∀ c ∈ cells, c.cellId = id → c = cell)
    (hmem : cell ∈ cells ∧ cell.cellId = id ∨ ex.get? id = some cell) :
    (cells.foldl KeyedMap.put ex).get? id = some cell := by
  induction cells generalizing ex with
  | nil => exact hmem.resolve_left fun h => List.not_mem_nil h.1
  | cons c cells ih =>
      refine ih (fun c' hc' => hall c' (List.mem_cons_of_mem _ hc')) ?_
      rw [KeyedMap.get?_put]
      by_cases hid : id = c.cellId
      · rw [if_pos hid, hall c List.mem_cons_self hid.symm]
        exact Or.inr rfl
      · rw [if_neg hid]
        refine hmem.imp_left fun h => ⟨(List.mem_cons.1 h.1).resolve_left ?_, h.2⟩
        rintro rfl
        exact hid h.2.symm

theorem get?_foldl_put_of_ne {cells : List WorldCell} {ex : KeyedMap WorldCell.cellId} {id : Str}
    (hne : ∀ c ∈ cells, c.cellId ≠ id) :
    (cells.foldl KeyedMap.put ex).get? id = ex.get? id := by
  induction cells generalizing ex with
  | nil => rfl
  | cons c cells ih =>
      rw [List.foldl_cons, ih fun c' hc' => hne c' (List.mem_cons_of_mem _ hc'),
        KeyedMap.get?_put, if_neg (hne c List.mem_cons_self).symm]

/-- A delta exports what it takes out of the dirty cells. -/
theorem NoneEscapes.delta (h : NoneEscapes n) (order : List Str) (maxCells : ℕ) :
    NoneEscapes ((n.withMap (n.map.delta order maxCells).2).exporting
      (n.map.delta order maxCells).1).persist := by
  intro id cell hcell hne
  have hcell' : n.map.getCell id = some cell := hcell
  have hid := SharedWorldMap.cellId_of_getCell hcell'
  by_cases htaken : id ∈ order.take maxCells
  · refine absurd (get?_foldl_put (fun c hc hcid => ?_) (Or.inl ⟨?_, hid⟩)) hne
    · have hget := (SharedWorldMap.mem_cells_delta.1 hc).2
      rw [hcid, hcell'] at hget
      exact (Option.some.inj hget).symm
    · exact SharedWorldMap.mem_cells_delta.2 ⟨hid ▸ htaken, hid ▸ hcell'⟩
  · have hother : ∀ c ∈ (n.map.delta order maxCells).1, c.cellId ≠ id := fun c hc hcid =>
      htaken (hcid ▸ (SharedWorldMap.mem_cells_delta.1 hc).1)
    have hne' : n.exported.get? id ≠ some cell := fun heq =>
      hne ((get?_foldl_put_of_ne hother).trans heq)
    exact SharedWorldMap.mem_dirty_delta.2 ⟨h id cell hcell' hne', htaken⟩

/-- A target whose cell is there is completed: its cell is changed. -/
theorem map_completeTarget (byNode : Str) (now : ℤ) {targetId cellId : Str} {cell : WorldCell}
    (htarget : n.backend.targetCellByTargetId.get? targetId = some cellId)
    (hcell : n.map.getCell cellId = some cell) :
    (n.backend.completeTarget targetId byNode now).worldMap.dirty = n.map.dirty ∧
      ∀ id, (n.backend.completeTarget targetId byNode now).worldMap.getCell id =
        if id = cellId then some (cell.touch now (some .searched) (some byNode) none none ∅)
        else n.map.getCell id := by
  have htouch : (n.backend.completeTarget targetId byNode now).worldMap =
      n.map.touchCell cellId now .searched byNode := by
    rw [MapBackend.completeTarget, htarget]
    rfl
  rw [htouch, SharedWorldMap.touchCell]
  constructor
  · split <;> rfl
  · intro id
    have hid : (cell.touch now (some .searched) (some byNode) none none ∅).cellId = cellId :=
      show cell.cellId = cellId from SharedWorldMap.cellId_of_getCell hcell
    split
    · next hnone => exact absurd (hnone.symm.trans hcell) (by simp)
    · next current hcurrent =>
      obtain rfl := Option.some.inj (hcurrent.symm.trans hcell)
      exact (n.map.getCell_put _ id).trans (by rw [hid])

/-- A completed target is exported later only if its cell is dirty already. -/
theorem traced_completeTarget_iff (h : NoneEscapes n) {targetId byNode cellId : Str} {now : ℤ}
    {cell : WorldCell} (htarget : n.backend.targetCellByTargetId.get? targetId = some cellId)
    (hcell : n.map.getCell cellId = some cell) :
    Traced n (.completeTarget targetId byNode now) ↔
      NoneEscapes
        { n with backend := n.backend.completeTarget targetId byNode now : MapNode }.persist := by
  obtain ⟨hdirty, hget⟩ := map_completeTarget byNode now htarget hcell
  constructor
  · intro htraced id cell' hcell' hne
    refine hdirty.symm ▸ ?_
    replace hcell' := (hget id).symm.trans hcell'
    by_cases hid : id = cellId
    · exact hid ▸ htraced cellId htarget (hcell ▸ rfl)
    · rw [if_neg hid] at hcell'
      exact h id cell' hcell' hne
  · intro hafter cellId' htarget' _
    obtain rfl := Option.some.inj (htarget.symm.trans htarget')
    by_contra hnot
    -- what is not dirty was exported as it is, so it was exported as it was before the change
    have hexported : n.exported.get? cellId = some cell := by
      by_contra hne
      exact hnot (h cellId cell hcell hne)
    refine hnot (hdirty ▸ hafter cellId _ ((hget cellId).trans (if_pos rfl)) fun heq => ?_)
    have hversion := congrArg WorldCell.version (Option.some.inj (hexported.symm.trans heq))
    change cell.version = cell.version + 1 at hversion
    omega

/-- A backend restarts without dirty cells. -/
theorem traced_restart_iff (n : MapNode) :
    Traced n .restart ↔
      NoneEscapes { n with backend := ⟨n.backend.nodeId, .load n.file, ∅⟩ : MapNode } := by
  cases hfile : n.file with
  | none =>
      refine iff_of_true (fun file hmem => ?_) fun id cell hcell => ?_
      · rw [hfile] at hmem
        cases hmem
      · cases hcell
  | some file =>
      constructor
      · intro htraced id cell hcell hne
        exact absurd (htraced file hfile id cell hcell) hne
      · intro hafter file' hmem id cell hcell
        obtain rfl := Option.some.inj (hfile.symm.trans hmem)
        by_contra hne
        exact List.not_mem_nil (hafter id cell hcell hne)

/-- **What every move does**: cells that are not dirty do not escape exactly if it is traced. -/
theorem noneEscapes_step_iff (n : MapNode) (mv : CellMove) (h : NoneEscapes n) :
    Traced n mv ↔ ∀ n', cellStep n mv = some n' → NoneEscapes n' := by
  cases mv with
  | upsert cell =>
      refine iff_of_true trivial fun n' hstep => ?_
      simp only [cellStep, SharedWorldMap.upsert] at hstep
      have hmarks : Marks n.map (n.map.store cell).bump := (Marks.store n.map cell).bump
      cases hcurrent : n.map.getCell cell.cellId with
      | none =>
          rw [hcurrent] at hstep
          obtain rfl := Option.some.inj hstep
          exact h.of_marks hmarks rfl
      | some current =>
          rw [hcurrent] at hstep
          by_cases hnew : cell.NotOlder current
          · simp only [hnew, if_true] at hstep
            obtain rfl := Option.some.inj hstep
            exact h.of_marks hmarks rfl
          · simp only [hnew, if_false] at hstep
            obtain rfl := Option.some.inj hstep
            exact h
  | mark x y z state owner confidence cost metadata now =>
      refine iff_of_true trivial fun n' hstep => ?_
      obtain rfl := Option.some.inj hstep
      exact h.of_marks (Marks.mark n.map x y z state owner confidence cost metadata now) rfl
  | merge remoteCells sourceVersion =>
      refine iff_of_true trivial fun n' hstep => ?_
      obtain rfl := Option.some.inj hstep
      have hmarks := Marks.merge n.map remoteCells sourceVersion
      split
      · exact h.of_marks hmarks rfl
      · exact h.of_marks hmarks rfl
  | delta order maxCells =>
      refine iff_of_true trivial fun n' hstep => ?_
      simp only [cellStep] at hstep
      split at hstep
      · obtain rfl := Option.some.inj hstep
        exact h.delta order maxCells
      · cases hstep
  | ingestTarget target now =>
      refine iff_of_true trivial fun n' hstep => ?_
      cases hposition : target.position with
      | none =>
          simp only [cellStep, hposition] at hstep
          obtain rfl := Option.some.inj hstep
          exact h
      | some p =>
          simp only [cellStep, hposition] at hstep
          obtain rfl := Option.some.inj hstep
          refine h.of_marks ?_ rfl
          simp only [MapNode.persist, MapNode.map, MapBackend.ingestTarget, hposition]
          exact Marks.mark n.map _ _ _ _ _ _ _ _ _
  | completeTarget targetId byNode now =>
      cases htarget : n.backend.targetCellByTargetId.get? targetId with
      | none =>
          refine iff_of_true (fun cellId hid => ?_) fun n' hstep => ?_
          · exact absurd (htarget.symm.trans hid) (by simp)
          · simp only [cellStep, htarget, Option.bind_none] at hstep
            exact Option.some.inj hstep ▸ h
      | some cellId =>
          cases hcell : n.map.getCell cellId with
          | none =>
              refine iff_of_true (fun cellId' hid hsome => ?_) fun n' hstep => ?_
              · obtain rfl := Option.some.inj (htarget.symm.trans hid)
                rw [hcell] at hsome
                exact absurd hsome (by simp)
              · simp only [cellStep, htarget, Option.bind_some, hcell] at hstep
                exact Option.some.inj hstep ▸ h
          | some cell =>
              simp only [cellStep, htarget, Option.bind_some, hcell, Option.some.injEq, forall_eq']
              exact traced_completeTarget_iff h htarget hcell
  | restart =>
      simp only [cellStep, Option.some.injEq, forall_eq']
      exact traced_restart_iff n

/-! ### Runs -/

/-- **No cell escapes all along a run exactly if none escapes at its start and all of its moves are
traced.** -/
theorem noneEscapes_iff_traced (n : MapNode) (mvs : List CellMove) :
    (∀ p t, p <+: mvs → run cellStep n p = some t → NoneEscapes t) ↔
      NoneEscapes n ∧ Along cellStep Traced n mvs :=
  Runs.always_iff_along noneEscapes_step_iff

/-- A backend without a map has nothing to export. -/
theorem noneEscapes_new (nodeId : Str) : NoneEscapes (.new nodeId) := fun _ _ hcell => by
  cases hcell

/-- A victim is found, its cell is exported, and the victim is rescued. -/
def rescue : List CellMove :=
  [.ingestTarget ⟨lit "victim-1", lit "victim", 9 / 10, some ⟨3, 4, 0⟩, some (lit "drone-1")⟩ 100,
    .delta [lit "3:4:0"] SharedWorldMap.maxCells,
    .completeTarget (lit "victim-1") (lit "drone-2") 200]

/-- **The cell of the victim is searched now, and not dirty.** -/
theorem completed_target_escapes :
    ∃ t, run cellStep (.new (lit "drone-1")) rescue = some t ∧ ¬ NoneEscapes t := by
  have hrun : (run cellStep (.new (lit "drone-1")) rescue).isSome := by decide +kernel
  have hend : ∀ t ∈ run cellStep (.new (lit "drone-1")) rescue,
      (t.map.getCell (lit "3:4:0")).map WorldCell.version = some 1 ∧
        (t.exported.get? (lit "3:4:0")).map WorldCell.version = some 0 ∧ t.map.dirty = [] := by
    decide +kernel
  obtain ⟨t, ht⟩ := Option.isSome_iff_exists.1 hrun
  obtain ⟨hversion, hexported, hdirty⟩ := hend t ht
  refine ⟨t, ht, fun hnone => ?_⟩
  obtain ⟨cell, hcell, hone⟩ := Option.map_eq_some_iff.1 hversion
  have hmem := hnone _ cell hcell fun heq => by
    rw [heq, Option.map_some, hone] at hexported
    exact absurd (Option.some.inj hexported) (by decide)
  rw [hdirty] at hmem
  exact List.not_mem_nil hmem

end Sar
