/-
**The shared map of the swarm** (`swarm/sharedMap.ts`).

A node marks cells of the grid with versions that it counts itself, merges the deltas of its peers,
and marks the unknown neighbours of explored cells as the frontier.  Every write is a join with the
cell that is stored.

Main definitions:

* `FoxMq.cellKey`, `FoxMq.parseCellKey` — the name of a cell and its coordinates;
* `FoxMq.MonotonicSharedMap` with `applyLocalUpdate`, `mergeDelta`, `recomputeFrontiers`,
  `frontierKeys` and `exportDelta`.
-/
import Endendend.Foundation.Coerce
import Endendend.FoxMq.PartitionMerge

set_option relaxedAutoImplicit false
set_option autoImplicit false

namespace FoxMq

open Js

/-! ### The grid -/

def cellKey (gx gz : Decimal) : Str := gx.toStr ++ unit ',' :: gz.toStr

/-- The coordinates that a key names, if both are finite. -/
def parseCellKey (key : Str) : Option (Decimal × Decimal) :=
  match key.dropWhile (· ≠ unit ',') with
  | [] => none
  | _ :: rest =>
    match numberOfText (key.takeWhile (· ≠ unit ',')),
        numberOfText (rest.takeWhile (· ≠ unit ',')) with
    | some gx, some gz => some (gx, gz)
    | _, _ => none

/-- The four neighbours of a place. -/
def neighbors (gx gz : Decimal) : List Str :=
  [cellKey (gx.add 1) gz, cellKey (gx.add (.ofInt (-1))) gz, cellKey gx (gz.add 1),
    cellKey gx (gz.add (.ofInt (-1)))]

/-- The states of a cell that has been looked at closely. -/
def MapCellState.isExplored : MapCellState → Bool
  | .searched | .safe | .target | .blocked | .hazard | .relay_critical | .unreachable => true
  | .unknown | .frontier | .seen => false

/-! ### The map -/

/-- The cells under their keys, and the version of the next local update. -/
structure MonotonicSharedMap where
  cells : OrderedMap Str MapCellMeta
  seq : ℚ

namespace MonotonicSharedMap

def new (initial : OrderedMap Str MapCellMeta) : MonotonicSharedMap :=
  ⟨.ofList (cellEntries initial), 1⟩

def getCell (m : MonotonicSharedMap) (key : Str) : Option MapCellMeta := m.cells.get? key

/-- Stores a cell. -/
def setCell (m : MonotonicSharedMap) (key : Str) (cell : MapCellMeta) : MonotonicSharedMap :=
  { m with cells := m.cells.set key cell }

theorem getCell_setCell (m : MonotonicSharedMap) (key key' : Str) (cell : MapCellMeta) :
    (m.setCell key cell).getCell key' = if key' = key then some cell else m.getCell key' :=
  m.cells.get?_set key key' cell

/-- The version that the map has reached, and the map that counts on. -/
def nextVersion (m : MonotonicSharedMap) : ℚ × MonotonicSharedMap :=
  (m.seq, { m with seq := m.seq + 1 })

/-- The cell that a local update joins with the stored one. -/
def localCell (prev : Option MapCellMeta) (state : MapCellState) (version nowMs : ℚ) (nodeId : Str)
    (confidence01 : Option ℚ) (proofSource : MapProofSource) : MapCellMeta where
  state
  version
  updatedAtMs := nowMs
  lastNodeId := some nodeId
  confidence01
  firstSeenBy := some ((prev.bind (·.firstSeenBy)).getD nodeId)
  proofSource := some proofSource
  dirtyLocal := some true
  mergeLineage := none

def applyLocalUpdate (m : MonotonicSharedMap) (gx gz : Decimal) (state : MapCellState) (nowMs : ℚ)
    (nodeId : Str) (confidence01 : Option ℚ) (proofSource : MapProofSource) :
    MonotonicSharedMap × Str :=
  let key := cellKey gx gz
  let (v, m) := m.nextVersion
  let prev := m.getCell key
  let next := localCell prev state v nowMs nodeId confidence01 proofSource
  (m.setCell key (mergeCellMeta prev next), key)

/-- A joined cell and the stored one agree in state, version and confidence. -/
def agrees (prev : Option MapCellMeta) (peerCell : MapCellMeta) : Bool :=
  match prev with
  | none => false
  | some prev =>
    decide (peerCell.state = prev.state ∧ peerCell.version = prev.version ∧
      peerCell.confidence01 = prev.confidence01)

/-- One cell of a delta: the join is stored unless it agrees with the stored cell. -/
def mergeRemote (originNodeId : Str) (acc : MonotonicSharedMap × List Str)
    (e : Str × MapCellMeta) : MonotonicSharedMap × List Str :=
  let (m, changed) := acc
  let prev := m.getCell e.1
  let peerCell := { mergeMapCellMeta prev e.2 originNodeId with dirtyLocal := some false }
  if agrees prev peerCell then acc
  else
    -- the counter goes beyond the versions that arrive
    ({ m.setCell e.1 peerCell with seq := max m.seq (peerCell.version + 1) }, changed ++ [e.1])

/-- Merges a delta; the second part is the list of the changed keys. -/
def mergeDelta (m : MonotonicSharedMap) (delta : SharedMapDelta) : MonotonicSharedMap × List Str :=
  (cellEntries delta.cells).foldl (mergeRemote delta.originNodeId) (m, [])

/-- Marks a neighbour of an explored cell, if it is not known. -/
def markFrontier (nowMs : ℚ) (originNodeId : Str) (m : MonotonicSharedMap) (nk : Str) :
    MonotonicSharedMap :=
  if ((m.getCell nk).map (·.state)).getD .unknown = .unknown then
    match parseCellKey nk with
    | none => m
    | some (gx, gz) =>
      (m.applyLocalUpdate gx gz .frontier nowMs originNodeId none .local_sensor).1
  else m

/-- Marks the unknown neighbours of a cell, if it is explored. -/
def markNeighbors (nowMs : ℚ) (originNodeId : Str) (m : MonotonicSharedMap) (k : Str) :
    MonotonicSharedMap :=
  match m.getCell k with
  | none => m
  | some cur =>
    if cur.state.isExplored then
      match parseCellKey k with
      | none => m
      | some (gx, gz) => (neighbors gx gz).foldl (markFrontier nowMs originNodeId) m
    else m

/-- Marks the unknown neighbours of the explored cells among those that the map has now. -/
def recomputeFrontiers (m : MonotonicSharedMap) (nowMs : ℚ) (originNodeId : Str) :
    MonotonicSharedMap :=
  m.cells.keys.foldl (markNeighbors nowMs originNodeId) m

/-- The keys of the frontier cells. -/
def frontierKeys (m : MonotonicSharedMap) : List Str :=
  (m.cells.entries.filter fun e => e.2.state = .frontier).map Prod.fst

/-- The place on the grid, whose cells are four meters wide; a half is rounded up. -/
def worldToGrid (x z : ℚ) : Decimal × Decimal :=
  (.ofInt ⌊x / 4 + 1 / 2⌋, .ofInt ⌊z / 4 + 1 / 2⌋)

/-- A delta with some cells of the map. -/
def exportDelta (m : MonotonicSharedMap) (keys : List Str) (originNodeId : Str) (nowMs : ℚ) :
    SharedMapDelta where
  cells := .ofList (keys.filterMap fun k => (m.getCell k).map fun cell => (k, cell))
  originNodeId
  emittedAtMs := nowMs

end MonotonicSharedMap

end FoxMq
