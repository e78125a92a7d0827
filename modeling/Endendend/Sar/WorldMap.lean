/-
**The shared world map** (`swarm/sar_vertex_foxmq_backend.py`).

A map keeps a cell for each id, with a version that counts how often the cell was touched.  What is
marked or taken over from another map is dirty until it is sent in a delta.

Main definitions:

* `Sar.WorldCell`, with `touch`;
* `Sar.SharedWorldMap`, with `mark`, `merge` and `delta`;
* `Sar.WorldCell.NotOlder` — when a cell of another map replaces the one that is there.

Main results:

* `Sar.SharedWorldMap.getCell_mark` — a mark changes one cell;
* `Sar.SharedWorldMap.getCell_mergeCell` — a cell is taken over unless it is older;
* `Sar.SharedWorldMap.getCell_merge_of_older` — older cells change nothing.
-/
import Endendend.Foundation.Decimal
import Endendend.Foundation.PyJson
import Endendend.Foundation.PyText

set_option relaxedAutoImplicit false
set_option autoImplicit false

namespace Sar

open Js (Str lit OrderedMap KeyedMap)
open Py (Dict)

/-! ### Cells -/

inductive CellState
  | unknown
  | frontier
  | seen
  | searched
  | blocked
  | target
  | safe
  deriving DecidableEq

structure WorldCell where
  cellId : Str
  x : ℤ
  y : ℤ
  z : ℤ
  state : CellState
  confidence : ℚ
  owner : Option Str
  cost : ℚ
  lastSeenMs : ℤ
  version : ℤ
  metadata : Dict

def clamp (value low high : ℚ) : ℚ := max low (min high value)

/-- `x:y:z` -/
def cellIdOf (x y z : ℤ) : Str :=
  (Js.Decimal.ofInt x).toStr ++ lit ":" ++ (Js.Decimal.ofInt y).toStr ++ lit ":" ++
    (Js.Decimal.ofInt z).toStr

namespace WorldCell

/-- Changes what is given, and counts the version up. -/
def touch (now : ℤ) (state : Option CellState) (owner : Option Str) (confidence cost : Option ℚ)
    (metadata : Dict) (cell : WorldCell) : WorldCell :=
  { cell with
    lastSeenMs := now
    version := cell.version + 1
    state := state.getD cell.state
    owner := owner.or cell.owner
    confidence := (confidence.map fun c => clamp c 0 1).getD cell.confidence
    cost := (cost.map (max 0)).getD cell.cost
    metadata := cell.metadata.assign metadata.entries }

/-- A cell of another map that replaces the one that is there: its version is greater, or the
versions are equal and it was not seen earlier. -/
def NotOlder (remote current : WorldCell) : Prop :=
  remote.version > current.version ∨
    remote.version = current.version ∧ remote.lastSeenMs ≥ current.lastSeenMs

instance (remote current : WorldCell) : Decidable (remote.NotOlder current) :=
  inferInstanceAs (Decidable (_ ∨ _ ∧ _))

theorem notOlder_self (cell : WorldCell) : cell.NotOlder cell := Or.inr ⟨rfl, le_rfl⟩

end WorldCell

/-! ### Maps -/

/-- A map with its dirty ids, of which all have a cell. -/
structure SharedWorldMap where
  version : ℤ
  cells : KeyedMap WorldCell.cellId
  dirty : List Str
  known : ∀ id ∈ dirty, (cells.get? id).isSome

namespace SharedWorldMap

def new : SharedWorldMap := ⟨0, ∅, [], fun _ h => by cases h⟩

variable (m : SharedWorldMap)

def getCell (id : Str) : Option WorldCell := m.cells.get? id

theorem getCell_put (cell : WorldCell) (id : Str) :
    (m.cells.put cell).get? id = if id = cell.cellId then some cell else m.getCell id :=
  m.cells.get?_put cell id

/-- Stores a cell, and with it its id among the dirty ones. -/
def store (cell : WorldCell) : SharedWorldMap where
  version := m.version
  cells := m.cells.put cell
  dirty := Js.setAdd m.dirty cell.cellId
  known id hid := by
    rw [getCell_put]
    split
    · rfl
    · next hne => exact m.known id ((Js.mem_setAdd.1 hid).resolve_right hne)

def bump : SharedWorldMap := { m with version := m.version + 1 }

def mark (x y z : ℤ) (state : CellState) (owner : Option Str) (confidence cost : ℚ)
    (metadata : Dict) (now : ℤ) : SharedWorldMap :=
  let id := cellIdOf x y z
  let cell : WorldCell :=
    match m.getCell id with
    | none => ⟨id, x, y, z, state, confidence, owner, cost, now, 0, metadata⟩
    | some cell =>
      cell.touch now (some state) ((owner.filter (· ≠ [])).or cell.owner)
        (some (max cell.confidence confidence)) (some cost) metadata
  (m.store cell).bump

def markSeen (x y z : ℤ) (owner : Option Str) (confidence : ℚ) (now : ℤ) : SharedWorldMap :=
  m.mark x y z .seen owner confidence 1 ∅ now

def markTarget (x y z : ℤ) (owner : Option Str) (targetType : Str) (confidence : ℚ) (now : ℤ) :
    SharedWorldMap :=
  m.mark x y z .target owner confidence 1 (.ofList [(lit "target_type", .str targetType)]) now

/-- A cell of another map is taken over, unless it is older. -/
def mergeCell (m : SharedWorldMap) (remote : WorldCell) : SharedWorldMap :=
  match m.getCell remote.cellId with
  | none => m.store remote
  | some current => if remote.NotOlder current then m.store remote else m

/-- The cells up to the first one that cannot be read. -/
def readable (remoteCells : List (Option WorldCell)) : List WorldCell :=
  (remoteCells.takeWhile Option.isSome).filterMap id

/-- Merges the cells of another map; `none` stands for a cell that cannot be read, at which merging
raises. -/
def merge (remoteCells : List (Option WorldCell)) (sourceVersion : ℤ) : SharedWorldMap :=
  let merged := (readable remoteCells).foldl mergeCell m
  if remoteCells.all Option.isSome then
    { merged with version := max merged.version sourceVersion + 1 }
  else merged

/-- The cells of the first dirty ids, in the order in which the set is listed. -/
def delta (order : List Str) (maxCells : ℕ) : List WorldCell × SharedWorldMap :=
  let dirtyIds := order.take maxCells
  (dirtyIds.filterMap m.getCell,
    { m with
      dirty := m.dirty.filter fun id => id ∉ dirtyIds
      known := fun id hid => m.known id (List.mem_filter.1 hid).1 })

def maxCells : ℕ := 200

/-- Touches a cell that is there; its id does not become dirty. -/
def touchCell (id : Str) (now : ℤ) (state : CellState) (owner : Str) : SharedWorldMap :=
  match m.getCell id with
  | none => m
  | some cell =>
    { m with
      cells := m.cells.put (cell.touch now (some state) (some owner) none none ∅)
      known := fun id' hid => by
        rw [getCell_put]
        split
        · rfl
        · exact m.known id' hid }

/-! ### What the operations do to a cell -/

variable {m}

theorem cellId_of_getCell {id : Str} {cell : WorldCell} (h : m.getCell id = some cell) :
    cell.cellId = id := KeyedMap.key_of_get? h

@[simp] theorem getCell_bump (id : Str) : m.bump.getCell id = m.getCell id := rfl

@[simp] theorem getCell_store (cell : WorldCell) (id : Str) :
    (m.store cell).getCell id = if id = cell.cellId then some cell else m.getCell id :=
  m.getCell_put cell id

/-- **A mark sets the state of its cell**, and leaves the other cells alone. -/
theorem getCell_mark (x y z : ℤ) (state : CellState) (owner : Option Str) (confidence cost : ℚ)
    (metadata : Dict) (now : ℤ) (id : Str) :
    ∃ cell, cell.state = state ∧
      (m.mark x y z state owner confidence cost metadata now).getCell id =
        if id = cellIdOf x y z then some cell else m.getCell id := by
  cases hcell : m.getCell (cellIdOf x y z) with
  | none =>
      refine ⟨⟨cellIdOf x y z, x, y, z, state, confidence, owner, cost, now, 0, metadata⟩, rfl, ?_⟩
      rw [mark, hcell, getCell_bump, getCell_store]
  | some cell =>
      refine ⟨cell.touch now (some state) ((owner.filter (· ≠ [])).or cell.owner)
        (some (max cell.confidence confidence)) (some cost) metadata, rfl, ?_⟩
      have hid := cellId_of_getCell hcell
      rw [mark, hcell, getCell_bump, getCell_store, ← hid]
      rfl

/-- **A cell of another map is taken over unless it is older.** -/
theorem getCell_mergeCell (remote : WorldCell) (id : Str) :
    (m.mergeCell remote).getCell id =
      if id = remote.cellId ∧ ∀ current ∈ m.getCell id, remote.NotOlder current then some remote
      else m.getCell id := by
  rw [mergeCell]
  cases hcell : m.getCell remote.cellId with
  | none =>
      rw [getCell_store]
      by_cases hid : id = remote.cellId
      · subst hid
        simp [hcell]
      · simp [hid]
  | some current =>
      dsimp only
      by_cases hnew : remote.NotOlder current
      · rw [if_pos hnew, getCell_store]
        by_cases hid : id = remote.cellId
        · subst hid
          simp [hcell, hnew]
        · simp [hid]
      · rw [if_neg hnew]
        by_cases hid : id = remote.cellId
        · subst hid
          simp [hcell, hnew]
        · simp [hid]

theorem getCell_touchCell (id : Str) (now : ℤ) (state : CellState) (owner : Str) (id' : Str)
    (hne : id' ≠ id) : (m.touchCell id now state owner).getCell id' = m.getCell id' := by
  rw [touchCell]
  cases hcell : m.getCell id with
  | none => rfl
  | some cell =>
      have hid : id' ≠ (cell.touch now (some state) (some owner) none none ∅).cellId := by
        rw [← cellId_of_getCell hcell] at hne
        exact hne
      exact (m.getCell_put _ id').trans (if_neg hid)

/-- The cells of a map that were merged stay as they are where the others are older. -/
theorem getCell_foldl_mergeCell_of_older {remoteCells : List WorldCell} {id : Str}
    {cell : WorldCell} (hcell : m.getCell id = some cell)
    (holder : ∀ remote ∈ remoteCells, remote.cellId = id → ¬ remote.NotOlder cell) :
    (remoteCells.foldl mergeCell m).getCell id = some cell := by
  induction remoteCells generalizing m with
  | nil => exact hcell
  | cons remote remoteCells ih =>
      refine ih ?_ fun r hr => holder r (List.mem_cons_of_mem _ hr)
      rw [getCell_mergeCell, if_neg]
      · exact hcell
      · rintro ⟨rfl, hnew⟩
        exact holder remote List.mem_cons_self rfl (hnew cell hcell)

/-- **Older cells change nothing.** -/
theorem getCell_merge_of_older {remoteCells : List (Option WorldCell)} {id : Str}
    {cell : WorldCell} (hcell : m.getCell id = some cell)
    (holder : ∀ remote, some remote ∈ remoteCells → remote.cellId = id → ¬ remote.NotOlder cell)
    (sourceVersion : ℤ) : (m.merge remoteCells sourceVersion).getCell id = some cell := by
  have hmerged : ((readable remoteCells).foldl mergeCell m).getCell id = some cell := by
    refine getCell_foldl_mergeCell_of_older hcell fun remote hremote => ?_
    obtain ⟨read, hread, rfl⟩ := List.mem_filterMap.1 hremote
    exact holder remote ((List.takeWhile_prefix _).subset hread)
  rw [merge]
  split <;> exact hmerged

end SharedWorldMap

end Sar
