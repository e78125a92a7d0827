/-
**The map synchronisation engine** (`foxmq/mapSyncEngine.ts`, `foxmq/mapLedger.ts`,
`foxmq/mapDelta.ts`, `foxmq/mapSnapshot.ts`).

At every step the engine goes over the edges of the connectivity graph: it samples cells of the
map into a delta, and drops the delta as a duplicate, buffers it during a partition, or merges it
back as a peer would.  After a partition the buffered deltas are merged.  A call carries the random
draws and the readings of the clock with its arguments.

Main definitions:

* `FoxMq.MapEventLedger`, `FoxMq.buildMapDelta`, `FoxMq.buildMapSnapshot` — what a step records;
* `FoxMq.FoxMqMapSyncEngine` — the engine;
* `FoxMq.syncEdge`, `FoxMq.recoveryMerge` — what a step does for an edge, and after a partition;
* `FoxMq.FoxMqMapSyncEngine.step` — the step.
-/
import Endendend.FoxMq.SharedMap
import Endendend.Vertex.MissionPhases

set_option relaxedAutoImplicit false
set_option autoImplicit false

namespace FoxMq

open Js

/-! ### Texts and checksums -/

/-- The texts that the results do not depend on: of a number, of a cell, of an entry of the
ledger. -/
structure Texts (Entry : Type) where
  numText : ℚ → Str
  cellJson : MapCellMeta → Str
  entryJson : Entry → Str

/-- Code units are mixed into a hash one after the other. -/
def mixText (h : UInt32) (s : Str) : UInt32 :=
  s.foldl (fun h u => (h ^^^ UInt32.ofNat u.val) * 16777619) h

/-- `(h >>> 0).toString(16)`. -/
def hexText (h : UInt32) : Str :=
  if h.toNat = 0 then [hexDigit 0] else ((Nat.digits 16 h.toNat).reverse.map hexDigit)

def hashString (s : Str) : Str := hexText (mixText 2166136261 s)

def checksumDeltaCells (cellJson : MapCellMeta → Str) (cells : OrderedMap Str MapCellMeta) : Str :=
  hexText ((cells.keys.insertionSort (· ≤ ·)).foldl
    (fun h k => mixText h (k ++ unit ':' :: ((cells.get? k).map cellJson).getD [])) 2166136261)

/-! ### The ledger of the map -/

inductive DistributedMemoryEventType
  | cell_update
  | map_delta
  | snapshot_commit
  | sync_request
  | sync_ack
  | node_disconnect
  | node_reconnect
  | offline_buffer
  | recovery_merge
  | partition
  | partition_heal
  | replay_tick
  deriving DecidableEq

inductive DistributedMemoryCommitStatus
  | pending
  | relayed
  | committed
  | rejected
  deriving DecidableEq

/-- What is written to the ledger; the payload is the id and the checksum of a delta. -/
structure MapLedgerEntry where
  nodeId : Str
  eventType : DistributedMemoryEventType
  affectedCells : List Str
  relayRoute : List Str
  commitStatus : DistributedMemoryCommitStatus
  mapVersion : ℕ
  payload : Option (Str × Str)

structure MapLedgerEvent extends MapLedgerEntry where
  eventId : Str
  timestamp : ℚ

structure MapEventLedger where
  events : List MapLedgerEvent
  seq : ℕ

def MapEventLedger.empty : MapEventLedger := ⟨[], 1⟩

/-- Writes an entry, and drops the oldest events above the limit. -/
def MapEventLedger.append (T : Texts MapLedgerEntry) (ledger : MapEventLedger)
    (ev : MapLedgerEntry) (dateNow : ℚ) : MapEventLedger :=
  let full : MapLedgerEvent :=
    { ev with
      eventId := lit "fox-" ++ (Decimal.ofInt ledger.seq).toStr ++
        unit '-' :: (hashString (T.entryJson ev)).take 8
      timestamp := dateNow }
  let events := ledger.events ++ [full]
  ⟨events.drop (events.length - 2000), ledger.seq + 1⟩

/-! ### Deltas and snapshots -/

structure MapDelta where
  deltaId : Str
  sourceNodeId : Str
  missionId : Str
  mapId : Str
  baseVersion : ℚ
  cellsChanged : OrderedMap Str MapCellMeta
  changesetSummary : Str
  timestamp : ℚ
  checksum : Str
  causalSeq : ℕ

def buildMapDelta (T : Texts MapLedgerEntry) (deltaId sourceNodeId missionId mapId : Str)
    (baseVersion : ℚ) (cells : OrderedMap Str MapCellMeta) (causalSeq : ℕ) (timestamp : ℚ) :
    MapDelta where
  deltaId
  sourceNodeId
  missionId
  mapId
  baseVersion
  cellsChanged := cells
  changesetSummary :=
    (Decimal.ofInt cells.keys.length).toStr ++ lit " cells @v" ++ T.numText baseVersion
  timestamp
  checksum := checksumDeltaCells T.cellJson cells
  causalSeq

structure MapSnapshot where
  mapId : Str
  mapVersion : ℚ
  timestamp : ℚ
  cells : OrderedMap Str MapCellMeta
  coveragePct : ℚ
  frontierCount : ℕ
  searchedCount : ℕ
  blockedCount : ℕ
  targetCount : ℕ
  hazardCount : ℕ
  dirtyDeltaCount : ℕ
  lastSyncPeer : Option Str
  sourceLabels : List Str
  checksum : Str

def buildMapSnapshot (T : Texts MapLedgerEntry) (mapId : Str) (mapVersion timestamp : ℚ)
    (cells : OrderedMap Str MapCellMeta) (lastSyncPeer : Option Str) (sourceLabels : List Str) :
    MapSnapshot :=
  let count (states : List MapCellState) : ℕ := cells.values.countP fun c => c.state ∈ states
  let explored :=
    count [.seen, .searched, .safe, .target, .blocked, .hazard, .relay_critical, .unreachable]
  let denom := max 1 (explored + count [.frontier])
  { mapId
    mapVersion
    timestamp
    cells
    coveragePct := min 100 ((explored : ℚ) / denom * 100)
    frontierCount := count [.frontier]
    searchedCount := count [.searched]
    blockedCount := count [.blocked, .unreachable]
    targetCount := count [.target]
    hazardCount := count [.hazard]
    dirtyDeltaCount := cells.values.countP fun c => c.dirtyLocal.getD false
    lastSyncPeer
    sourceLabels
    checksum := checksumDeltaCells T.cellJson cells }

/-! ### The engine -/

/-- An edge of the connectivity graph. -/
structure GraphEdge where
  a : Str
  b : Str
  quality01 : ℚ

/-- The arguments of a step, without the map; the draws and the readings of the clock are numbered,
the latter by the events they belong to. -/
structure SyncArgs where
  edges : List GraphEdge
  nowMs : ℚ
  rng : ℕ → ℚ
  dateNow : ℕ → ℚ
  connectivityMode : Vertex.VertexConnectivityMode
  partitionManual : Bool
  liveFoxAvailable : Bool
  mockFallback : Bool
  operatorNodeId : Str
  offlineNodeIds : List Str

def SyncArgs.partition (args : SyncArgs) : Bool :=
  args.partitionManual ||
    decide (args.connectivityMode = .partial_partition ∨ args.connectivityMode = .blackout)

structure FoxMqMapSyncEngine where
  missionId : Str
  mapId : Str
  ledger : MapEventLedger
  partitionBuffer : List SharedMapDelta
  lastMeshMergeMs : ℚ
  mergeConflictsResolved : ℕ
  causalSeq : ℕ
  seenPayloadChecksums : List Str
  deltaSerial : ℕ
  duplicateDrops : ℕ

/-- What a step returns. -/
structure FoxMqMapPublicState where
  mapVersion : ℚ
  lastSnapshot : MapSnapshot
  dirtyDeltaCount : ℕ
  syncLagMs : ℚ
  causalSeq : ℕ
  partitionBufferSize : ℕ
  recoveryProgress01 : ℚ
  collectiveMemoryHealth01 : ℚ
  mergeConflictsResolved : ℕ
  meshMergesThisTick : ℕ
  lastSyncPeer : Option Str
  mockRuntime : Bool
  liveFoxAvailable : Bool
  offlineContributionsPreserved : OrderedMap Str ℕ
  ledgerEventCount : ℕ
  duplicateDeltasDropped : ℕ

namespace FoxMqMapSyncEngine

def new (missionId mapId : Str) (startMs : ℚ) : FoxMqMapSyncEngine :=
  ⟨missionId, mapId, .empty, [], startMs, 0, 1, [], 1, 0⟩

def reset (s : FoxMqMapSyncEngine) (startMs : ℚ) : FoxMqMapSyncEngine :=
  .new s.missionId s.mapId startMs

def computeMapVersion (s : FoxMqMapSyncEngine) (map : MonotonicSharedMap) : ℚ :=
  max ((map.cells.values.map (·.version)).foldl max 0) s.causalSeq

def checksumDelta (numText : ℚ → Str) (delta : SharedMapDelta) : Str :=
  (Decimal.ofInt delta.cells.keys.length).toStr ++ unit ':' :: delta.originNodeId ++
    unit ':' :: numText delta.emittedAtMs

/-- Remembers a checksum, and forgets the oldest one above the limit. -/
def remember (s : FoxMqMapSyncEngine) (checksum : Str) : FoxMqMapSyncEngine :=
  let seen := setAdd s.seenPayloadChecksums checksum
  let forgets := 500 < seen.length ∧ seen.head? ≠ some []
  { s with seenPayloadChecksums := if forgets then seen.tail else seen }

def appendEvent (T : Texts MapLedgerEntry) (s : FoxMqMapSyncEngine) (args : SyncArgs)
    (ev : MapLedgerEntry) : FoxMqMapSyncEngine :=
  { s with ledger := s.ledger.append T ev (args.dateNow s.ledger.seq) }

end FoxMqMapSyncEngine

/-! ### One edge -/

/-- The variables of the loop over the edges; `drawn` counts the draws. -/
structure SyncLoop where
  engine : FoxMqMapSyncEngine
  map : MonotonicSharedMap
  meshMerges : ℕ
  lastPeer : Option Str
  drawn : ℕ

/-- The first elements of a list, as `slice` counts them. -/
def sliceTo {α : Type*} (l : List α) (n : ℤ) : List α :=
  l.take (if 0 ≤ n then n.toNat else (l.length + n).toNat)

/-- The states of the cells that a delta carries. -/
def sharedStates : List MapCellState :=
  [.searched, .target, .frontier, .blocked, .hazard, .relay_critical, .unreachable]

/-- The keys of the cells that a delta may carry, in the order of a snapshot. -/
def sharedKeys (map : MonotonicSharedMap) : List Str :=
  ((cellEntries map.cells).filter fun e => e.2.state ∈ sharedStates).map Prod.fst

/-- The cells of a delta as the peer sends them. -/
def peerCells (cells : OrderedMap Str MapCellMeta) : OrderedMap Str MapCellMeta :=
  .ofList ((cellEntries cells).map fun e =>
    (e.1, { e.2 with proofSource := some .peer_mesh, dirtyLocal := some false }))

/-- The changed cells that were there before with another state or version. -/
def conflicts (before after : MonotonicSharedMap) (changedKeys : List Str) : ℕ :=
  changedKeys.countP fun k =>
    match before.getCell k, after.getCell k with
    | some prev, some next => decide (prev.state ≠ next.state ∨ prev.version ≠ next.version)
    | _, _ => false

/-- A delta goes to the buffer of the partition. -/
def bufferDelta (T : Texts MapLedgerEntry) (args : SyncArgs) (e : GraphEdge)
    (rawDelta : SharedMapDelta) (l : SyncLoop) : SyncLoop :=
  let engine :=
    { l.engine with
      partitionBuffer := l.engine.partitionBuffer ++ [{ rawDelta with originNodeId := e.a }] }
  { l with
    engine := engine.appendEvent T args
      { nodeId := e.a
        eventType := .offline_buffer
        affectedCells := (cellEntries rawDelta.cells).map Prod.fst
        relayRoute := [e.a, e.b]
        commitStatus := .pending
        mapVersion := l.engine.causalSeq
        payload := none } }

/-- A delta comes back from the peer, and is merged. -/
def mergePeer (T : Texts MapLedgerEntry) (args : SyncArgs) (e : GraphEdge)
    (rawDelta : SharedMapDelta) (l : SyncLoop) : SyncLoop :=
  let (map, changedKeys) := l.map.mergeDelta ⟨peerCells rawDelta.cells, e.b, args.nowMs⟩
  let causalSeq := l.engine.causalSeq + 1
  let engine :=
    { l.engine with
      mergeConflictsResolved :=
        l.engine.mergeConflictsResolved + conflicts l.map map changedKeys
      lastMeshMergeMs := args.nowMs
      causalSeq
      deltaSerial := l.engine.deltaSerial + 1 }
  let built :=
    buildMapDelta T (lit "d-" ++ (Decimal.ofInt l.engine.deltaSerial).toStr) e.a engine.missionId
      engine.mapId (engine.computeMapVersion map) rawDelta.cells causalSeq args.nowMs
  { l with
    map
    meshMerges := l.meshMerges + changedKeys.length
    lastPeer := some e.b
    engine := engine.appendEvent T args
      { nodeId := e.a
        eventType := .map_delta
        affectedCells := changedKeys
        relayRoute := [e.a, e.b]
        commitStatus := .committed
        mapVersion := built.causalSeq
        payload := some (built.deltaId, built.checksum) } }

/-- A new delta is buffered, gets lost, or reaches the peer. -/
def sendDelta (T : Texts MapLedgerEntry) (args : SyncArgs) (e : GraphEdge)
    (rawDelta : SharedMapDelta) (l : SyncLoop) : SyncLoop :=
  let buffers := args.partition && decide (args.rng l.drawn < 38 / 100)
  -- the draw is made only during a partition
  let l := if args.partition then { l with drawn := l.drawn + 1 } else l
  if buffers then bufferDelta T args e rawDelta l
  else
    let lost := 55 / 100 + e.quality01 * (35 / 100) < args.rng l.drawn
    let l := { l with drawn := l.drawn + 1 }
    if lost then l else mergePeer T args e rawDelta l

/-- What a step does for an edge. -/
def syncEdge (T : Texts MapLedgerEntry) (args : SyncArgs) (l : SyncLoop) (e : GraphEdge) :
    SyncLoop :=
  if e.quality01 < 8 / 100 then l
  else
    let sample := sliceTo (sharedKeys l.map) (6 + ⌊args.rng l.drawn * 6⌋)
    let l := { l with drawn := l.drawn + 1 }
    if sample.length < 2 then l
    else
      let rawDelta := l.map.exportDelta sample e.a args.nowMs
      -- the checksum depends on the number of the cells, not on what they say
      let chksum := FoxMqMapSyncEngine.checksumDelta T.numText rawDelta
      if chksum ∈ l.engine.seenPayloadChecksums then
        { l with engine := { l.engine with duplicateDrops := l.engine.duplicateDrops + 1 } }
      else sendDelta T args e rawDelta { l with engine := l.engine.remember chksum }

/-- The buffered deltas are merged once the partition is over. -/
def recoveryMerge (T : Texts MapLedgerEntry) (args : SyncArgs) (l : SyncLoop) : SyncLoop :=
  if args.partition = false ∧ l.engine.partitionBuffer ≠ [] then
    let mergedCells := mergePartitionMapDeltas l.engine.partitionBuffer
    let (map, changedKeys) := l.map.mergeDelta ⟨mergedCells, args.operatorNodeId, args.nowMs⟩
    -- here a conflict is a key that was not known before
    let fresh := changedKeys.countP fun k => (l.map.getCell k).isNone
    let causalSeq := l.engine.causalSeq + 1
    let engine :=
      { l.engine with
        mergeConflictsResolved := l.engine.mergeConflictsResolved + fresh
        causalSeq
        partitionBuffer := []
        lastMeshMergeMs := args.nowMs }
    { l with
      map
      meshMerges := l.meshMerges + changedKeys.length
      engine := engine.appendEvent T args
        { nodeId := args.operatorNodeId
          eventType := .recovery_merge
          affectedCells := changedKeys
          relayRoute := [lit "partition_buffer", args.operatorNodeId]
          commitStatus := .committed
          mapVersion := causalSeq
          payload := none } }
  else l

/-! ### A step -/

/-- How many cells each offline node was the first to see. -/
def offlineContributions (cells : OrderedMap Str MapCellMeta) (offlineNodeIds : List Str) :
    OrderedMap Str ℕ :=
  (cellEntries cells).foldl (fun acc e =>
    match e.2.firstSeenBy <|> e.2.lastNodeId with
    | none => acc
    | some owner =>
      if owner = [] ∨ owner ∉ offlineNodeIds then acc
      else acc.set owner ((acc.get? owner).getD 0 + 1)) ∅

/-- What a step returns after the loop and the recovery. -/
def publicState (T : Texts MapLedgerEntry) (args : SyncArgs) (l : SyncLoop) :
    FoxMqMapPublicState :=
  let mapVersion := l.engine.computeMapVersion l.map
  let lastSnapshot :=
    buildMapSnapshot T l.engine.mapId mapVersion args.nowMs l.map.cells l.lastPeer
      (if args.mockFallback then ["mock_foxmq", "mesh"] else ["live_foxmq", "mesh"])
  let known : ℚ := if 0 < l.map.cells.keys.length then 35 / 100 else 0
  let offline : ℚ := if args.offlineNodeIds.length = 0 then 1 / 10 else 25 / 100
  { mapVersion
    lastSnapshot
    dirtyDeltaCount := lastSnapshot.dirtyDeltaCount
    syncLagMs := max 0 (args.nowMs - l.engine.lastMeshMergeMs)
    causalSeq := l.engine.causalSeq
    partitionBufferSize := l.engine.partitionBuffer.length
    recoveryProgress01 :=
      if args.partition then min 1 (1 - (l.engine.partitionBuffer.length : ℚ) / 20) else 1
    collectiveMemoryHealth01 :=
      min 1 ((l.meshMerges * (8 / 100) + known + offline) / max (4 / 10) 1)
    mergeConflictsResolved := l.engine.mergeConflictsResolved
    meshMergesThisTick := l.meshMerges
    lastSyncPeer := l.lastPeer
    mockRuntime := args.mockFallback
    liveFoxAvailable := args.liveFoxAvailable
    offlineContributionsPreserved := offlineContributions l.map.cells args.offlineNodeIds
    ledgerEventCount := l.engine.ledger.events.length
    duplicateDeltasDropped := l.engine.duplicateDrops }

/-- The loop over the edges and the recovery. -/
def syncLoop (T : Texts MapLedgerEntry) (s : FoxMqMapSyncEngine) (map : MonotonicSharedMap)
    (args : SyncArgs) : SyncLoop :=
  recoveryMerge T args (args.edges.foldl (syncEdge T args) ⟨s, map, 0, none, 0⟩)

/-- A step changes the engine and the map, and returns what it shows of them. -/
def FoxMqMapSyncEngine.step (T : Texts MapLedgerEntry) (s : FoxMqMapSyncEngine)
    (map : MonotonicSharedMap) (args : SyncArgs) :
    FoxMqMapSyncEngine × MonotonicSharedMap × FoxMqMapPublicState :=
  let l := syncLoop T s map args
  (l.engine, l.map, publicState T args l)

end FoxMq
