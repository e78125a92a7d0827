/-
**The monotonic shared map** (`MonotonicSharedMap` of `shared/tashi-mission-map-machine.ts`).

The map holds one record for each cell of the grid.  Local marks raise the state of a cell by rank;
records from other nodes are resolved against the stored one by version and time.

Main definitions:

* `Tashi.CellState`, `Tashi.MapCell`, `Tashi.SharedMap` — states, records and the map; every
  record is stored under its own id;
* `Tashi.mark` with the record `Tashi.markedCell` that it stores, and the six marks;
* `Tashi.upsert`, `Tashi.merge`, `Tashi.mergeSnapshot`, `Tashi.snapshot`, `Tashi.delta` — the other
  operations;
* `Tashi.resolve`, `Tashi.absorb` — what a record from another node does to a stored one.

Main results:

* `Tashi.stateRank_mergeState` — merging states takes the higher rank;
* `Tashi.cell_foldl_mergeCell` — a merge acts on each id by itself.
-/
import Endendend.Foundation.OrderedMap
import Endendend.Tashi.StableStringify

set_option relaxedAutoImplicit false
set_option autoImplicit false

namespace Tashi

open Js

/-! ### Cells -/

/-- What is known of a cell. -/
inductive CellState
  | unknown
  | frontier
  | seen
  | searched
  | blocked
  | target
  | safe
  deriving DecidableEq

/-- The rank of a state. -/
def stateRank : CellState → ℕ
  | .unknown => 0
  | .frontier => 1
  | .seen => 2
  | .searched => 3
  | .safe => 4
  | .target => 5
  | .blocked => 6

/-- The state after an observation. -/
def mergeState (current incoming : CellState) : CellState :=
  let currentRank := stateRank current
  let incomingRank := stateRank incoming
  if incomingRank ≥ currentRank then incoming
  else if incoming = .target ∧ current ≠ .blocked then incoming
  else if incoming = .blocked ∧ current ≠ .target then incoming
  else current

/-- The owner of a cell; a record may leave it out or say that there is none. -/
inductive Owner
  | undefined
  | null
  | node (nodeId : Str)
  deriving DecidableEq

/-- `incoming ?? current ?? null`. -/
def Owner.or (incoming current : Owner) : Owner :=
  match incoming with
  | .node n => .node n
  | _ =>
    match current with
    | .node n => .node n
    | _ => .null

/-- The record of a cell. -/
structure MapCell where
  cellId : Str
  x : Decimal
  y : Decimal
  z : Decimal
  state : CellState
  confidence : ℚ
  owner : Owner
  cost : ℚ
  lastSeenMs : ℚ
  version : ℚ
  confirmedBy : List Str
  metadata : OrderedMap Str Json

/-- The id of a cell. -/
def cellIdOf (x y z : Decimal) : Str :=
  x.toStr ++ unit ':' :: (y.toStr ++ unit ':' :: z.toStr)

def clamp (value lo hi : ℚ) : ℚ := max lo (min hi value)

/-- A record brought into range. -/
def normalizeCell (cell : MapCell) : MapCell :=
  { cell with
    confidence := clamp cell.confidence 0 1
    cost := max 0 cell.cost
    confirmedBy := uniq cell.confirmedBy }

/-! ### The map -/

/-- The map: its records, each under its own id, the ids changed since the last delta, and its
version. -/
structure SharedMap where
  mapId : Str
  cells : KeyedMap MapCell.cellId
  dirty : List Str
  version : ℚ

namespace SharedMap

/-- A map without records. -/
def new (mapId : Str) : SharedMap := ⟨mapId, ∅, [], 0⟩

/-- The record with an id. -/
def cell (m : SharedMap) (id : Str) : Option MapCell := m.cells.get? id

/-- Stores a record under its id. -/
def setCell (m : SharedMap) (c : MapCell) : SharedMap := { m with cells := m.cells.put c }

def markDirty (m : SharedMap) (id : Str) : SharedMap := { m with dirty := setAdd m.dirty id }

def bump (m : SharedMap) : SharedMap := { m with version := m.version + 1 }

@[simp] theorem cell_markDirty (m : SharedMap) (id id' : Str) :
    (m.markDirty id).cell id' = m.cell id' := rfl

@[simp] theorem cell_bump (m : SharedMap) (id : Str) : m.bump.cell id = m.cell id := rfl

theorem cell_setCell (m : SharedMap) (c : MapCell) (id : Str) :
    (m.setCell c).cell id = if id = c.cellId then some c else m.cell id :=
  m.cells.get?_put c id

theorem cellId_of_cell {m : SharedMap} {id : Str} {c : MapCell} (h : m.cell id = some c) :
    c.cellId = id := KeyedMap.key_of_get? h

end SharedMap

open SharedMap

/-! ### Local observations -/

/-- The record of a cell, created if there is none. -/
def currentOrCreate (m : SharedMap) (x y z : Decimal) (now : ℚ) : SharedMap × MapCell :=
  let id := cellIdOf x y z
  match m.cell id with
  | some current => (m, current)
  | none =>
    let created : MapCell :=
      { cellId := id, x, y, z, state := .unknown, confidence := 0, owner := .null, cost := 1
        lastSeenMs := now, version := 0, confirmedBy := [], metadata := ∅ }
    (m.setCell created, created)

/-- A local observation: the state is raised by rank, the confidence to at least `confidence`, and
`metadata` is added.  The six marks are this with their own state, confidence and metadata. -/
def mark (state : CellState) (confidence : ℚ) (metadata : List (Str × Json)) (m : SharedMap)
    (x y z : Decimal) (owner : Owner) (now : ℚ) : SharedMap :=
  let (m, current) := currentOrCreate m x y z now
  let next : MapCell :=
    { current with
      state := mergeState current.state state
      owner := owner.or current.owner
      confidence := max current.confidence confidence
      lastSeenMs := now
      version := current.version + 1
      metadata := current.metadata.assign metadata }
  ((m.setCell next).markDirty (cellIdOf x y z)).bump

/-- The record that a local observation stores and returns. -/
def markedCell (state : CellState) (confidence : ℚ) (metadata : List (Str × Json)) (m : SharedMap)
    (x y z : Decimal) (owner : Owner) (now : ℚ) : MapCell :=
  let (_, current) := currentOrCreate m x y z now
  { current with
    state := mergeState current.state state
    owner := owner.or current.owner
    confidence := max current.confidence confidence
    lastSeenMs := now
    version := current.version + 1
    metadata := current.metadata.assign metadata }

def markSeen (m : SharedMap) (x y z : Decimal) (owner : Owner) (confidence : ℚ)
    (metadata : OrderedMap Str Json) (now : ℚ) : SharedMap :=
  mark .seen confidence metadata.entries m x y z owner now

def markFrontier (m : SharedMap) (x y z : Decimal) (owner : Owner) (now : ℚ) : SharedMap :=
  mark .frontier (35 / 100) [("frontier", .bool true)] m x y z owner now

def markSearched (m : SharedMap) (x y z : Decimal) (owner : Owner) (confidence now : ℚ) :
    SharedMap :=
  mark .searched confidence [("searched", .bool true)] m x y z owner now

def markBlocked (m : SharedMap) (x y z : Decimal) (owner : Owner) (reason : Str) (now : ℚ) :
    SharedMap :=
  mark .blocked 1 [("blocked", .bool true), ("reason", .str reason)] m x y z owner now

def markTarget (m : SharedMap) (x y z : Decimal) (owner : Owner) (targetType : Str)
    (confidence now : ℚ) : SharedMap :=
  mark .target confidence [("targetType", .str targetType)] m x y z owner now

def markSafe (m : SharedMap) (x y z : Decimal) (owner : Owner) (now : ℚ) : SharedMap :=
  mark .safe (75 / 100) [("safe", .bool true)] m x y z owner now

/-! ### Records from other nodes -/

/-- The record that joins a stored one and an incoming one, before its version is raised. -/
def merged (current incoming : MapCell) : MapCell :=
  let nextState :=
    if incoming.version > current.version then mergeState current.state incoming.state
    else if incoming.version = current.version ∧ incoming.lastSeenMs ≥ current.lastSeenMs then
      mergeState current.state incoming.state
    else current.state
  let nextCost := min current.cost (if incoming.cost = 0 then current.cost else incoming.cost)
  { current with
    state := nextState
    confidence := max current.confidence incoming.confidence
    owner := incoming.owner.or current.owner
    cost := nextCost
    lastSeenMs := max current.lastSeenMs incoming.lastSeenMs
    version := max current.version incoming.version
    confirmedBy := uniq (current.confirmedBy ++ incoming.confirmedBy)
    metadata := current.metadata.assign incoming.metadata.entries }

/-- The comparison that `resolve` and `merge` make to see whether a record has changed. -/
def agree (c d : MapCell) : Prop :=
  c.state = d.state ∧ c.confidence = d.confidence ∧ c.owner = d.owner ∧ c.cost = d.cost ∧
    c.lastSeenMs = d.lastSeenMs ∧ c.version = d.version ∧
    stableStringify (.obj c.metadata.entries) = stableStringify (.obj d.metadata.entries) ∧
    stableStringify (.arr (c.confirmedBy.map .str)) =
      stableStringify (.arr (d.confirmedBy.map .str))

instance (c d : MapCell) : Decidable (agree c d) := by
  unfold agree
  infer_instance

/-- The stored record, or the joined one with a new version if it differs. -/
def resolve (current incoming : MapCell) : MapCell :=
  let m := merged current incoming
  if agree m current then current else { m with version := m.version + 1 }

/-- Stores a record as it comes, or resolved against the stored one. -/
def upsert (m : SharedMap) (c : MapCell) : SharedMap :=
  let incoming := normalizeCell c
  let next :=
    match m.cell c.cellId with
    | some current => resolve current incoming
    | none => incoming
  ((m.setCell next).markDirty next.cellId).bump

/-- What a merge reports. -/
structure MergeStats where
  inserted : ℕ
  updated : ℕ
  ignored : ℕ
  deriving DecidableEq

/-- One remote record. -/
def mergeCell (acc : SharedMap × MergeStats) (remote : MapCell) : SharedMap × MergeStats :=
  let (m, stats) := acc
  let normalized := normalizeCell remote
  match m.cell remote.cellId with
  | none =>
    ((m.setCell normalized).markDirty normalized.cellId,
      { stats with inserted := stats.inserted + 1 })
  | some current =>
    let resolved := resolve current normalized
    if agree resolved current then (m, { stats with ignored := stats.ignored + 1 })
    else
      ((m.setCell resolved).markDirty resolved.cellId, { stats with updated := stats.updated + 1 })

/-- The loop over the remote records. -/
def mergeCells (m : SharedMap) (remoteCells : List MapCell) : SharedMap × MergeStats :=
  remoteCells.foldl mergeCell (m, ⟨0, 0, 0⟩)

/-- Merges remote records, and adopts the version of their source if it is higher. -/
def merge (m : SharedMap) (remoteCells : List MapCell) (sourceVersion : ℚ) :
    SharedMap × MergeStats :=
  let (m, stats) := mergeCells m remoteCells
  let m := if sourceVersion > m.version then { m with version := sourceVersion } else m
  (if stats.inserted + stats.updated > 0 then m.bump else m, stats)

/-! ### Snapshots and deltas -/

def isExplored (s : CellState) : Bool :=
  s ∈ [CellState.seen, .searched, .target, .blocked, .safe]

/-- A snapshot of a map. -/
structure MapSnapshot where
  mapId : Str
  version : ℚ
  updatedAtMs : ℚ
  cells : OrderedMap Str MapCell
  frontierCount : ℕ
  searchedCount : ℕ
  blockedCount : ℕ
  targetCount : ℕ
  exploredCount : ℕ
  dirtyCount : ℕ
  coveragePct : ℚ

def round2 (value : ℚ) : ℚ := ⌊value * 100 + 1 / 2⌋ / 100

def snapshot (m : SharedMap) (now : ℚ) : MapSnapshot :=
  let count (p : CellState → Bool) := m.cells.values.countP fun c => p c.state
  let exploredCount := count isExplored
  let totalKnown := m.cells.values.length
  { mapId := m.mapId
    version := m.version
    updatedAtMs := now
    cells := m.cells.toMap
    frontierCount := count (· = .frontier)
    searchedCount := count (· = .searched)
    blockedCount := count (· = .blocked)
    targetCount := count (· = .target)
    exploredCount
    dirtyCount := m.dirty.length
    coveragePct := if totalKnown > 0 then round2 (exploredCount / totalKnown * 100) else 0 }

/-- The records of a snapshot, as `Object.values` lists them. -/
def MapSnapshot.values (s : MapSnapshot) : List MapCell := (ownOrder s.cells.entries).map Prod.snd

def mergeSnapshot (m : SharedMap) (s : MapSnapshot) : SharedMap × MergeStats :=
  merge m s.values s.version

/-- The changes since the last delta. -/
structure MapDelta where
  deltaId : Str
  mapId : Str
  baseVersion : ℚ
  createdAtMs : ℚ
  sourceNodeId : Str
  cells : List MapCell
  reason : Str
  remainingDirty : ℕ
  flushed : ℕ
  maxCells : ℕ

/-- Takes up to `maxCells` ids out of the dirty set and hands out their records. -/
def delta (m : SharedMap) (maxCells : ℕ) (reason sourceNodeId deltaId : Str) (now : ℚ) :
    SharedMap × MapDelta :=
  let dirtyIds := m.dirty.take maxCells
  let dirty := m.dirty.filter fun id => id ∉ dirtyIds
  ({ m with dirty },
    { deltaId
      mapId := m.mapId
      baseVersion := m.version
      createdAtMs := now
      sourceNodeId
      cells := dirtyIds.filterMap m.cell
      reason
      remainingDirty := dirty.length
      flushed := dirtyIds.length
      maxCells })

/-! ### States and ranks -/

/-- Merging states keeps the one with the higher rank. -/
theorem mergeState_eq (current incoming : CellState) :
    mergeState current incoming = if stateRank current ≤ stateRank incoming then incoming
      else current := by
  cases current <;> cases incoming <;> decide

/-- **Merging states takes the higher rank.** -/
@[simp] theorem stateRank_mergeState (current incoming : CellState) :
    stateRank (mergeState current incoming) = max (stateRank current) (stateRank incoming) := by
  rw [mergeState_eq]
  split
  · next h => exact (max_eq_right h).symm
  · next h => exact (max_eq_left (le_of_lt (not_le.1 h))).symm

/-! ### Records, one by one -/

@[simp] theorem normalizeCell_cellId (c : MapCell) : (normalizeCell c).cellId = c.cellId := by
  simp only [normalizeCell]

@[simp] theorem normalizeCell_state (c : MapCell) : (normalizeCell c).state = c.state := by
  simp only [normalizeCell]

@[simp] theorem normalizeCell_version (c : MapCell) : (normalizeCell c).version = c.version := by
  simp only [normalizeCell]

@[simp] theorem normalizeCell_lastSeenMs (c : MapCell) :
    (normalizeCell c).lastSeenMs = c.lastSeenMs := by
  simp only [normalizeCell]

@[simp] theorem agree_self (c : MapCell) : agree c c := ⟨rfl, rfl, rfl, rfl, rfl, rfl, rfl, rfl⟩

@[simp] theorem resolve_cellId (c d : MapCell) : (resolve c d).cellId = c.cellId := by
  unfold resolve
  simp only
  split <;> rfl

theorem resolve_of_agree {c d : MapCell} (h : agree (merged c d) c) : resolve c d = c := if_pos h

theorem resolve_of_not_agree {c d : MapCell} (h : ¬ agree (merged c d) c) :
    resolve c d = { merged c d with version := (merged c d).version + 1 } := if_neg h

/-- A joined record that differs gets a version above both. -/
theorem lt_version_resolve {c d : MapCell} (h : ¬ agree (merged c d) c) :
    c.version < (resolve c d).version ∧ d.version < (resolve c d).version := by
  rw [resolve_of_not_agree h]
  have hc : c.version ≤ max c.version d.version := le_max_left _ _
  have hd : d.version ≤ max c.version d.version := le_max_right _ _
  exact ⟨lt_of_le_of_lt hc (lt_add_one _), lt_of_le_of_lt hd (lt_add_one _)⟩

/-- A resolved record has changed exactly if the joined one differs. -/
theorem agree_resolve_iff {c d : MapCell} :
    agree (resolve c d) c ↔ agree (merged c d) c := by
  by_cases h : agree (merged c d) c
  · rw [resolve_of_agree h]
    exact iff_of_true (agree_self c) h
  · refine iff_of_false (fun ha => ?_) h
    obtain ⟨-, -, -, -, -, hv, -⟩ := ha
    exact absurd hv (ne_of_gt (lt_version_resolve h).1)

/-- What a remote record leaves where `current` was stored. -/
def absorb (current : Option MapCell) (remote : MapCell) : MapCell :=
  match current with
  | none => normalizeCell remote
  | some c => resolve c (normalizeCell remote)

theorem absorb_cellId (m : SharedMap) (c : MapCell) :
    (absorb (m.cell c.cellId) c).cellId = c.cellId := by
  cases hc : m.cell c.cellId with
  | none => rfl
  | some cur => rw [absorb, resolve_cellId, cellId_of_cell hc]

/-- An upsert acts on the id of its record. -/
theorem cell_upsert (m : SharedMap) (c : MapCell) (id : Str) :
    (upsert m c).cell id = if id = c.cellId then some (absorb (m.cell id) c) else m.cell id := by
  have hnext : upsert m c = ((m.setCell (absorb (m.cell c.cellId) c)).markDirty
      (absorb (m.cell c.cellId) c).cellId).bump := by
    unfold upsert absorb
    cases m.cell c.cellId <;> rfl
  rw [hnext, cell_bump, cell_markDirty, cell_setCell, absorb_cellId]
  split
  · next h => rw [h]
  · rfl

theorem mergeCell_of_none {m : SharedMap} {stats : MergeStats} {remote : MapCell}
    (h : m.cell remote.cellId = none) :
    mergeCell (m, stats) remote = ((m.setCell (normalizeCell remote)).markDirty remote.cellId,
      { stats with inserted := stats.inserted + 1 }) := by
  simp only [mergeCell, h, normalizeCell_cellId]

theorem mergeCell_of_agree {m : SharedMap} {stats : MergeStats} {remote c : MapCell}
    (h : m.cell remote.cellId = some c) (ha : agree (merged c (normalizeCell remote)) c) :
    mergeCell (m, stats) remote = (m, { stats with ignored := stats.ignored + 1 }) := by
  simp only [mergeCell, h, agree_resolve_iff, if_pos ha]

theorem mergeCell_of_not_agree {m : SharedMap} {stats : MergeStats} {remote c : MapCell}
    (h : m.cell remote.cellId = some c) (ha : ¬ agree (merged c (normalizeCell remote)) c) :
    mergeCell (m, stats) remote =
      ((m.setCell (resolve c (normalizeCell remote))).markDirty remote.cellId,
        { stats with updated := stats.updated + 1 }) := by
  simp only [mergeCell, h, agree_resolve_iff, if_neg ha, resolve_cellId, cellId_of_cell h]

/-- One remote record acts on its own id. -/
theorem cell_mergeCell (m : SharedMap) (stats : MergeStats) (remote : MapCell) (id : Str) :
    (mergeCell (m, stats) remote).1.cell id =
      if id = remote.cellId then some (absorb (m.cell id) remote) else m.cell id := by
  by_cases hid : id = remote.cellId
  · rw [if_pos hid, hid]
    cases hc : m.cell remote.cellId with
    | none =>
        rw [mergeCell_of_none hc, cell_markDirty, cell_setCell]
        exact if_pos rfl
    | some c =>
        by_cases ha : agree (merged c (normalizeCell remote)) c
        · rw [mergeCell_of_agree hc ha, hc, absorb, resolve_of_agree ha]
        · rw [mergeCell_of_not_agree hc ha, cell_markDirty, cell_setCell, resolve_cellId,
            cellId_of_cell hc]
          exact if_pos rfl
  · rw [if_neg hid]
    cases hc : m.cell remote.cellId with
    | none =>
        rw [mergeCell_of_none hc, cell_markDirty, cell_setCell]
        exact if_neg hid
    | some c =>
        by_cases ha : agree (merged c (normalizeCell remote)) c
        · rw [mergeCell_of_agree hc ha]
        · rw [mergeCell_of_not_agree hc ha, cell_markDirty, cell_setCell, resolve_cellId,
            cellId_of_cell hc]
          exact if_neg hid

/-- **A merge acts on each id by itself**: it absorbs the remote records with that id in turn. -/
theorem cell_foldl_mergeCell (m : SharedMap) (stats : MergeStats) (cs : List MapCell) (id : Str) :
    (cs.foldl mergeCell (m, stats)).1.cell id =
      (cs.filter fun c => c.cellId = id).foldl (fun cur c => some (absorb cur c)) (m.cell id) := by
  induction cs generalizing m stats with
  | nil => rfl
  | cons c cs ih =>
      rw [List.foldl_cons, ← Prod.mk.eta (p := mergeCell (m, stats) c), ih, cell_mergeCell]
      by_cases hid : id = c.cellId
      · rw [if_pos hid, List.filter_cons_of_pos (by simp [hid])]
        rfl
      · rw [if_neg hid, List.filter_cons_of_neg (by simpa using Ne.symm hid)]

theorem cell_merge (m : SharedMap) (cs : List MapCell) (sourceVersion : ℚ) (id : Str) :
    (merge m cs sourceVersion).1.cell id = (mergeCells m cs).1.cell id := by
  unfold merge
  simp only
  split <;> split <;> rfl

end Tashi
