/-
**Checkpoint, replay and restore** (`MissionRecoveryPlanner` of
`shared/tashi-task-bidding-recovery.ts`).

A restore takes the latest checkpoint of the mission as baseline and replays the events of the
mission after the hash the checkpoint sealed.  The mission and the map are given to it as
interfaces; what their methods do is arbitrary.

Main definitions:

* `Recovery.MissionState`, `Recovery.RecoveryPorts`, `Recovery.RecoveryReplayContext` — the mission
  and the map as the planner sees them;
* `Recovery.applyCheckpointBaseline`, `Recovery.applyLedgerEvent` — what the checkpoint and what an
  event does to them;
* `Recovery.MissionRecoveryPlanner` with `createCheckpoint`, `restore` and `buildPlan`;
* `Recovery.Command`, `Recovery.step` — the operations on the ledger and the checkpoints.
-/
import Endendend.Foundation.Coerce
import Endendend.Foundation.Runs
import Endendend.Recovery.Checkpoints

set_option relaxedAutoImplicit false
set_option autoImplicit false

namespace Recovery

open Js

/-! ### The mission and the map -/

/-- The state of a mission; `other` is what the planner does not see. -/
structure MissionState (X : Type*) where
  phase : Str
  phaseVersion : Decimal
  nodes : OrderedMap Str NodeProfile
  targets : OrderedMap Str TargetRecord
  safetyCritical : Bool
  other : X

/-- The methods of the mission and of the map; those of the mission may be missing. -/
structure RecoveryPorts (X M Snap : Type*) where
  setPhase : Option (Str → MissionState X → MissionState X)
  registerNode : Option (NodeProfile → MissionState X → MissionState X)
  upsertTarget : Option (TargetRecord → MissionState X → MissionState X)
  snapshot : M → Snap
  mergeSnapshot : Snap → Str → M → M
  getVersion : M → Decimal
  dirtyCount : M → Decimal
  version : Snap → Decimal
  coveragePct : Snap → Decimal
  snapshotJson : Snap → Json

structure RecoveryReplayContext (X M : Type*) where
  missionId : Str
  mission : MissionState X
  map : M

/-- The properties of a node that an update may replace. -/
structure NodePatch where
  nodeId : Option Str
  role : Option NodeRole
  health : Option NodeHealthSample
  trustScore : Option Decimal
  reputationScore : Option Decimal
  lastSeenMs : Option Decimal

/-- A payload: the records a replay hands on, and the other properties. -/
structure LedgerPayload (Snap : Type*) where
  node : Option NodeProfile
  patch : Option NodePatch
  target : Option TargetRecord
  snapshot : Option Snap
  fields : OrderedMap Str Json

/-- The values of a dictionary in the order an object lists them. -/
def objectValues {α : Type*} (m : OrderedMap Str α) : List α := (ownOrder m.entries).map Prod.snd

section Replay

variable {X M Snap : Type*} (ports : RecoveryPorts X M Snap)

/-! ### The baseline -/

/-- A node as the checkpoint has it. -/
def NodeProfile.restored (cur : NodeProfile) (sum : NodeSummary) : NodeProfile :=
  { cur with
    role := sum.role
    trustScore := sum.trustScore
    reputationScore := sum.reputationScore
    health :=
      { batteryPct := sum.batteryPct
        linkQuality := sum.linkQuality
        timestampMs := sum.lastSeenMs.getD cur.health.timestampMs }
    lastSeenMs := sum.lastSeenMs.getD cur.lastSeenMs }

/-- Restores the nodes that are known to both sides, one id after the other. -/
def restoreNodes (cp : RecoveryCheckpoint) (nodes : OrderedMap Str NodeProfile) :
    OrderedMap Str NodeProfile :=
  cp.activeNodeIds.foldl
    (fun nodes id =>
      match nodes.get? id, cp.nodeSummary.get? id with
      | some cur, some sum => nodes.set id (cur.restored sum)
      | _, _ => nodes)
    nodes

def applyCheckpointBaseline (ctx : RecoveryReplayContext X M) (cp : RecoveryCheckpoint) :
    RecoveryReplayContext X M :=
  let mission := { ctx.mission with targets := cp.targetRegistry }
  let mission :=
    match ports.setPhase with
    | some setPhase => { setPhase cp.phase mission with phaseVersion := cp.phaseVersion }
    | none => { mission with phase := cp.phase, phaseVersion := cp.phaseVersion }
  { ctx with mission := { mission with nodes := restoreNodes cp mission.nodes } }

/-! ### Events -/

/-- `String(payload[key] ?? "")`. -/
def LedgerPayload.text (p : LedgerPayload Snap) (key : Str) : Str :=
  (nullish (p.fields.get? key) (.str [])).toText

def NodeProfile.patched (cur : NodeProfile) (patch : NodePatch) : NodeProfile where
  nodeId := patch.nodeId.getD cur.nodeId
  role := patch.role.getD cur.role
  health := patch.health.getD cur.health
  trustScore := patch.trustScore.getD cur.trustScore
  reputationScore := patch.reputationScore.getD cur.reputationScore
  lastSeenMs := patch.lastSeenMs.getD cur.lastSeenMs
  metadata := cur.metadata.set "replayed" (.bool true)

/-- The target events: if the payload names a node and a known target, the target is changed. -/
def updateTarget (p : LedgerPayload Snap) (change : Str → TargetRecord → TargetRecord)
    (mission : MissionState X) : MissionState X :=
  let targetId := p.text "targetId"
  let nodeId := p.text "nodeId"
  match mission.targets.get? targetId with
  | some target =>
    if targetId ≠ [] ∧ nodeId ≠ [] then
      { mission with targets := mission.targets.set targetId (change nodeId target) }
    else mission
  | none => mission

def TargetRecord.confirmed (now : Decimal) (nodeId : Str) (t : TargetRecord) : TargetRecord :=
  { t with
    confirmedBy := uniq (t.confirmedBy ++ [nodeId])
    fields :=
      (t.fields.set "status" (.str "confirmed")).set "confirmedAtMs"
        (nullish (t.fields.get? "confirmedAtMs") (.num now)) }

def TargetRecord.assigned (now : Decimal) (nodeId : Str) (t : TargetRecord) : TargetRecord :=
  { t with
    fields :=
      ((t.fields.set "status" (.str "assigned")).set "assignedTo" (.str nodeId)).set "assignedAtMs"
        (.num now) }

def TargetRecord.extracted (now : Decimal) (nodeId : Str) (t : TargetRecord) : TargetRecord :=
  { t with
    fields :=
      ((t.fields.set "status" (.str "extracted")).set "extractedBy" (.str nodeId)).set
        "extractedAtMs" (.num now) }

/-- Replays one event at the time `now`; an event of another kind does nothing. -/
def applyLedgerEvent (now : Decimal) (ctx : RecoveryReplayContext X M)
    (event : LedgerEvent (LedgerPayload Snap)) : RecoveryReplayContext X M :=
  let p := event.payload
  if event.kind = lit "node_register" then
    match p.node, ports.registerNode with
    | some node, some registerNode => { ctx with mission := registerNode node ctx.mission }
    | _, _ => ctx
  else if event.kind = lit "node_update" then
    let nodeId := p.text "nodeId"
    match p.patch, ctx.mission.nodes.get? nodeId, ports.registerNode with
    | some patch, some cur, some registerNode =>
      if nodeId ≠ [] then { ctx with mission := registerNode (cur.patched patch) ctx.mission }
      else ctx
    | _, _, _ => ctx
  else if event.kind = lit "target_upsert" then
    match p.target, ports.upsertTarget with
    | some target, some upsertTarget => { ctx with mission := upsertTarget target ctx.mission }
    | _, _ => ctx
  else if event.kind = lit "target_confirm" then
    { ctx with mission := updateTarget p (TargetRecord.confirmed now) ctx.mission }
  else if event.kind = lit "target_assign" then
    { ctx with mission := updateTarget p (TargetRecord.assigned now) ctx.mission }
  else if event.kind = lit "target_extract" then
    { ctx with mission := updateTarget p (TargetRecord.extracted now) ctx.mission }
  else if event.kind = lit "phase_transition_commit" then
    let next := p.text "to"
    match ports.setPhase with
    | some setPhase => if next ≠ [] then { ctx with mission := setPhase next ctx.mission } else ctx
    | none => ctx
  else if event.kind = lit "map_snapshot_merge" then
    match p.snapshot with
    | some snapshot => { ctx with map := ports.mergeSnapshot snapshot event.actorId ctx.map }
    | none => ctx
  else ctx

/-! ### Hints and recommendations -/

structure RecoverySyncHint where
  peerId : Str
  needsMap : Bool
  needsTasks : Bool
  reason : Str
  deriving DecidableEq

/-- What a node needs from its peers after a restore from a checkpoint. -/
def hintFor (ctx : RecoveryReplayContext X M) (cp : RecoveryCheckpoint) (node : NodeProfile) :
    Option RecoverySyncHint :=
  let needsMap : Bool :=
    cp.mapVersion < ports.getVersion ctx.map ∧ node.nodeId ≠ cp.createdBy
  let needsTasks : Bool := node.nodeId ∉ cp.activeNodeIds
  if needsMap || needsTasks then
    some
      { peerId := node.nodeId
        needsMap
        needsTasks
        reason :=
          if needsMap && needsTasks then "missing_map_and_task_state"
          else if needsMap then "missing_map_state"
          else "missing_task_state" }
  else none

def computeSyncHints (ctx : RecoveryReplayContext X M) (checkpoint : Option RecoveryCheckpoint) :
    List RecoverySyncHint :=
  match checkpoint with
  | none => []
  | some cp => (objectValues ctx.mission.nodes).filterMap (hintFor ports ctx cp)

def buildRecommendations (ctx : RecoveryReplayContext X M)
    (checkpoint : Option RecoveryCheckpoint)
    (replayEvents : List (LedgerEvent (LedgerPayload Snap))) (hints : List RecoverySyncHint) :
    List Str :=
  let count := (Decimal.ofInt replayEvents.length).toStr
  (match checkpoint with
    | none => [lit "No checkpoint found; bootstrap from full ledger replay."]
    | some cp =>
      [lit "Restore checkpoint " ++ cp.checkpointId ++ lit " at phase " ++ cp.phase ++
          lit " (seq " ++ cp.consensusSequence.toStr ++ lit ").",
        lit "Replay " ++ count ++ lit " ledger events after sealed hash " ++
          cp.lastLedgerHash.take 12 ++ lit "…"]) ++
    (if checkpoint.isNone ∧ replayEvents ≠ [] then
      [lit "Replay " ++ count ++ lit " ledger events to rebuild mission state."] else []) ++
    (if hints.any (·.needsMap) then
      [lit "Request map sync from peers with newer map versions."] else []) ++
    (if hints.any (·.needsTasks) then
      [lit "Request task/state sync from peers with newer assignment state."] else []) ++
    (if ctx.mission.safetyCritical then
      [lit "Revalidate trust and safety thresholds before resuming the mission."] else [])

/-! ### The planner -/

/-- The ledger and the checkpoints the planner works on. -/
structure MissionRecoveryPlanner (Snap : Type*) where
  ledger : EventLedgerStore (LedgerPayload Snap)
  store : InMemoryCheckpointStore

/-- A planner without events and checkpoints. -/
def MissionRecoveryPlanner.new : MissionRecoveryPlanner Snap := ⟨.empty, .empty⟩

/-- The events a restore replays. -/
def MissionRecoveryPlanner.replayEvents (p : MissionRecoveryPlanner Snap) (missionId : Str) :
    List (LedgerEvent (LedgerPayload Snap)) :=
  p.ledger.missionEventsAfter missionId ((p.store.latest missionId).map (·.lastLedgerHash))

structure RestoreResult where
  checkpoint : Option RecoveryCheckpoint
  replayCount : ℕ
  syncHints : List RecoverySyncHint

/-- Applies the latest checkpoint as baseline, then replays; `clock` is the time at which each event
is replayed. -/
def MissionRecoveryPlanner.restore (p : MissionRecoveryPlanner Snap)
    (clock : LedgerEvent (LedgerPayload Snap) → Decimal) (ctx : RecoveryReplayContext X M) :
    RecoveryReplayContext X M × RestoreResult :=
  let checkpoint := p.store.latest ctx.missionId
  let ctx :=
    match checkpoint with
    | some cp => applyCheckpointBaseline ports ctx cp
    | none => ctx
  let replayEvents := p.replayEvents ctx.missionId
  let ctx :=
    replayEvents.foldl (fun ctx event => applyLedgerEvent ports (clock event) ctx event) ctx
  (ctx,
    { checkpoint
      replayCount := replayEvents.length
      syncHints := computeSyncHints ports ctx checkpoint })

structure RecoveryPlan (Snap : Type*) where
  missionId : Str
  restoreCheckpoint : Option RecoveryCheckpoint
  replayEvents : List (LedgerEvent (LedgerPayload Snap))
  syncNeededFromPeers : List Str
  trustRevalidationNeeded : List Str
  mapSyncNeeded : Bool
  taskSyncNeeded : Bool
  recommendations : List Str

def MissionRecoveryPlanner.buildPlan (p : MissionRecoveryPlanner Snap)
    (ctx : RecoveryReplayContext X M) : RecoveryPlan Snap :=
  let restoreCheckpoint := p.store.latest ctx.missionId
  let replayEvents := p.replayEvents ctx.missionId
  let hints := computeSyncHints ports ctx restoreCheckpoint
  let needed := (hints.filter fun h => h.needsMap || h.needsTasks).map (·.peerId)
  { missionId := ctx.missionId
    restoreCheckpoint
    replayEvents
    syncNeededFromPeers := needed
    trustRevalidationNeeded := needed
    mapSyncNeeded := hints.any (·.needsMap)
    taskSyncNeeded := hints.any (·.needsTasks)
    recommendations := buildRecommendations ctx restoreCheckpoint replayEvents hints }

/-- What a checkpoint of the context records: the head of the ledger, whichever mission wrote the
last event. -/
def checkpointArgs (p : MissionRecoveryPlanner Snap) (ctx : RecoveryReplayContext X M)
    (reason createdBy : Str) (consensusSequence : Decimal) : CheckpointArgs :=
  let mapSnapshot := ports.snapshot ctx.map
  let prev := p.store.latest ctx.missionId
  { missionId := ctx.missionId
    phase := ctx.mission.phase
    phaseVersion := ctx.mission.phaseVersion
    consensusSequence
    mapVersion := ports.version mapSnapshot
    mapJson := ports.snapshotJson mapSnapshot
    nodes := objectValues ctx.mission.nodes
    targets := objectValues ctx.mission.targets
    lastLedgerHash := p.ledger.lastHash
    previousCheckpointHash := (prev.map (·.proofHash)).getD genesis
    createdBy
    reason
    metadata :=
      [("dirtyMap", .num (ports.dirtyCount ctx.map)),
        ("objectiveCoverage", .num (ports.coveragePct mapSnapshot))] }

/-- **A restore counts the events it replays**: the baseline does not change the mission's id. -/
theorem replayCount_restore (p : MissionRecoveryPlanner Snap)
    (clock : LedgerEvent (LedgerPayload Snap) → Decimal) (ctx : RecoveryReplayContext X M) :
    (p.restore ports clock ctx).2.replayCount = (p.replayEvents ctx.missionId).length := by
  unfold MissionRecoveryPlanner.restore
  cases p.store.latest ctx.missionId with
  | none => rfl
  | some cp => rfl

/-! ### Operations -/

/-- The operations on the ledger and the checkpoints, with the ids drawn and the clock read. -/
inductive Command (X M Snap : Type*)
  | append (entry : LedgerEntry (LedgerPayload Snap)) (d : Draw)
  | createCheckpoint (ctx : RecoveryReplayContext X M) (reason createdBy : Str)
      (consensusSequence : Decimal) (checkpointId : Str) (now : Decimal)

section Step

variable (sha256 : Str → List UInt8) (payloadJson : LedgerPayload Snap → Json)

/-- Creates a checkpoint at the head of the ledger. -/
def MissionRecoveryPlanner.createCheckpoint (p : MissionRecoveryPlanner Snap)
    (ctx : RecoveryReplayContext X M) (reason createdBy : Str) (consensusSequence : Decimal)
    (checkpointId : Str) (now : Decimal) : MissionRecoveryPlanner Snap :=
  { p with
    store := (Recovery.createCheckpoint sha256 p.store
      (checkpointArgs ports p ctx reason createdBy consensusSequence) checkpointId now).1 }

def MissionRecoveryPlanner.append (p : MissionRecoveryPlanner Snap)
    (entry : LedgerEntry (LedgerPayload Snap)) (d : Draw) : MissionRecoveryPlanner Snap :=
  { p with ledger := p.ledger.append sha256 payloadJson entry d }

/-- One operation.  An id that is drawn for a checkpoint is new. -/
def step (p : MissionRecoveryPlanner Snap) : Command X M Snap → Option (MissionRecoveryPlanner Snap)
  | .append entry d => some (p.append sha256 payloadJson entry d)
  | .createCheckpoint ctx reason createdBy consensusSequence checkpointId now =>
    match p.store.checkpoints.get? checkpointId with
    | some _ => none
    | none =>
      some (p.createCheckpoint ports sha256 ctx reason createdBy consensusSequence checkpointId now)

/-- The planner after appends. -/
def MissionRecoveryPlanner.appendAll (p : MissionRecoveryPlanner Snap)
    (later : List (LedgerEntry (LedgerPayload Snap) × Draw)) : MissionRecoveryPlanner Snap :=
  later.foldl (fun p e => p.append sha256 payloadJson e.1 e.2) p

end Step

end Replay

end Recovery
