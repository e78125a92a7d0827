/-
**The recovery of a node** (`recovery/recovery-manager.ts`, and the telemetry of
`lattice/node-registry.ts`).

A node keeps the hash of the last row it has taken note of.  How far it is behind the mission is
read off the place of that row, and decides what is done: too far behind it is stale, without peers
it is isolated, and otherwise it catches up to the last row of the mission.

Main definitions:

* `NodeRecovery.NodeRegistry` — the telemetry of the nodes and the trust in them;
* `NodeRecovery.RecoveryManager` — the last rows that are known and the log of the reports;
* `NodeRecovery.getLocalCheckpoint`, `NodeRecovery.lagOf` — the last row of a node, and how many
  rows follow it;
* `NodeRecovery.recoverNode` — one recovery.

Main results:

* `NodeRecovery.decideRecovery_cases` — **a node either catches up or keeps its last row.**
-/
import Endendend.Foundation.Fixed
import Endendend.Lattice.ReputationEngine

set_option relaxedAutoImplicit false
set_option autoImplicit false

namespace NodeRecovery

open Js Vertex

/-! ### The registry -/

/-- The telemetry of a node, as far as recoveries read it. -/
structure NodeTelemetry where
  nodeId : Str
  online : Bool
  lastSeenMs : Decimal

/-- The registry of the nodes, as far as recoveries read or write it. -/
structure NodeRegistry where
  telemetry : OrderedMap Str NodeTelemetry
  trust : OrderedMap Str ℚ

/-- The times at which the other nodes of the roster were seen that are online and fresh. -/
def NodeRegistry.freshPeers (registry : NodeRegistry) (nodeId : Str) (rosterIds : List Str)
    (nowMs : Decimal) (staleMs : ℚ) : List Decimal :=
  (rosterIds.filter fun id => id ≠ nodeId).filterMap fun id =>
    match registry.telemetry.get? id with
    | some tel =>
      if tel.online ∧ nowMs.val - tel.lastSeenMs.val ≤ staleMs then some tel.lastSeenMs else none
    | none => none

def NodeRegistry.getPeerSyncCount (registry : NodeRegistry) (nodeId : Str) (rosterIds : List Str)
    (nowMs : Decimal) (staleMs : ℚ) : ℕ :=
  (registry.freshPeers nodeId rosterIds nowMs staleMs).length

def NodeRegistry.lastPeerContactMs (registry : NodeRegistry) (nodeId : Str) (rosterIds : List Str)
    (nowMs : Decimal) (staleMs : ℚ) : ℚ :=
  (registry.freshPeers nodeId rosterIds nowMs staleMs).foldl (fun m t => max m t.val) 0

def NodeRegistry.setLatticeTrustFrom01 (registry : NodeRegistry) (nodeId : Str) (trust01 : ℚ) :
    NodeRegistry :=
  { registry with
    trust := registry.trust.set nodeId ⌊max 0 (min 1 trust01) * 100 + 1 / 2⌋ }

/-! ### Reports -/

inductive RecoveryState
  | syncing
  | replaying
  | revalidating
  | recovered
  | degraded
  | stale
  | isolated
  deriving DecidableEq

inductive RecoveryOperatorAction
  | monitor
  | manualSync
  | isolate
  deriving DecidableEq

structure RecoveryDiagnostics where
  initialCheckpointLag : ℕ
  checkpointLag : ℕ
  mapLagPercent : ℚ
  discardedCommands : ℕ
  replayedEvents : ℕ
  pendingTrustRevalidation : Bool
  peerSyncCount : ℕ
  lastPeerContactMs : ℚ

structure RecoveryReport where
  nodeId : Str
  missionId : Str
  currentState : RecoveryState
  diagnostics : RecoveryDiagnostics
  operatorActions : List RecoveryOperatorAction
  headline : Str
  timestamp : Decimal

/-- What the caller of a recovery knows about the node. -/
structure RecoverContext where
  localCheckpointEventHash : Option Str := none
  localMapCells : Option ℚ := none
  initialHandshake : Bool := false

def staleLag : ℕ := 100

def replayLag : ℕ := 20

def mapDegradedPct : ℚ := 3

def staleMs : ℚ := 30000

def logCap : ℕ := 128

def formatRecoveryHeadline (nodeId : Str) (state : RecoveryState) (d : RecoveryDiagnostics) : Str :=
  let lag := (Decimal.ofInt d.initialCheckpointLag).toStr
  let replayed := (Decimal.ofInt d.replayedEvents).toStr
  let map := toFixed 1 d.mapLagPercent
  nodeId ++
    match state with
    | .isolated => lit ": isolated (no fresh peer sync)"
    | .stale => lit ": stale ledger (" ++ lag ++ lit " events behind) — manual sync or isolate"
    | .degraded =>
      lit ": degraded — map " ++ map ++ lit "% behind" ++
        (if d.replayedEvents > 0 then lit ", replayed " ++ replayed ++ lit " events" else []) ++
        lit " — monitor"
    | .replaying => lit ": replaying " ++ replayed ++ lit " events (was " ++ lag ++ lit " behind)"
    | .revalidating => lit ": revalidating Lattice trust (" ++ lag ++ lit " event gap)"
    | .syncing => lit ": syncing to Vertex tail"
    | .recovered =>
      if d.replayedEvents > 0 then
        lit ": recovered — replayed " ++ replayed ++ lit " events, map " ++ map ++ lit "% behind"
      else lit ": recovered — checkpoint aligned, map " ++ map ++ lit "% behind"

/-! ### The manager -/

structure RecoveryManager where
  ledger : MissionLedger
  registry : NodeRegistry
  /-- Was the manager given a reputation engine? -/
  hasReputation : Bool
  /-- The hash of the last row that a node has taken note of, under `missionId:nodeId`. -/
  localTails : OrderedMap Str Str
  logRing : List RecoveryReport

def tailKey (missionId nodeId : Str) : Str := missionId ++ unit ':' :: nodeId

def seedLocalCheckpoint (m : RecoveryManager) (missionId nodeId eventHash : Str) :
    RecoveryManager :=
  { m with localTails := m.localTails.set (tailKey missionId nodeId) eventHash }

/-- The place of a row in a mission. -/
def missionCheckpointIndex (events : List MissionLedgerEvent) (localTail : Str) : Option ℕ :=
  if localTail = genesis then none else events.findIdx? fun e => e.eventHash = localTail

/-- How many rows of a mission follow the row with a hash; all of them if there is no such row. -/
def lagOf (events : List MissionLedgerEvent) (localTail : Str) : ℕ :=
  match missionCheckpointIndex events localTail with
  | none => events.length
  | some i => events.length - 1 - i

/-- The last row that a node has taken note of: its own checkpoint, unless something is stored. -/
def storedCheckpoint (m : RecoveryManager) (missionId nodeId : Str) : Str :=
  match m.localTails.get? (tailKey missionId nodeId) with
  | some tail => tail
  | none =>
    (((m.ledger.eventsForMission missionId).filter fun e => e.eventType = .recoveryCheckpoint ∧
      e.textAt "nodeId" (.str e.actorId) = nodeId).getLast?.map fun e => e.eventHash).getD genesis

/-- The row that the caller names goes before the stored one. -/
def getLocalCheckpoint (m : RecoveryManager) (missionId nodeId : Str) (ctx : RecoverContext) :
    Str :=
  match ctx.localCheckpointEventHash with
  | some hash => if hash ≠ [] then hash else storedCheckpoint m missionId nodeId
  | none => storedCheckpoint m missionId nodeId

def computeResidualLag (m : RecoveryManager) (missionId nodeId : Str) (ctx : RecoverContext) : ℕ :=
  lagOf (m.ledger.eventsForMission missionId) (getLocalCheckpoint m missionId nodeId ctx)

/-- The rows that are replayed are the last ones of the mission. -/
def replayEvents (m : RecoveryManager) (missionId : Str) (lag : ℕ) : ℕ :=
  let events := m.ledger.eventsForMission missionId
  (events.drop (events.length - lag)).length

def advanceLocalTailToMissionTail (m : RecoveryManager) (missionId nodeId : Str) :
    RecoveryManager :=
  { m with
    localTails := m.localTails.set (tailKey missionId nodeId) (m.ledger.missionTailHash missionId) }

def refreshTrust (m : RecoveryManager) (nodeId missionId : Str) : RecoveryManager :=
  if m.hasReputation then
    { m with
      registry := m.registry.setLatticeTrustFrom01 nodeId
        (Lattice.evaluateFromLedger m.ledger nodeId missionId).finalScore }
  else m

/-- An exclusive or and a multiplication modulo `2 ^ 32` for every code unit. -/
def stableHash32 (s : Str) : ℕ :=
  s.foldl (fun h u => (h ^^^ u.val) * 16777619 % 2 ^ 32) 2166136261

def computeMapLag (nodeId : Str) (mission : MissionState) (ctx : RecoverContext) : ℚ :=
  let globalCells := max 0 mission.cellsKnown.val
  let estimate : ℚ :=
    if globalCells ≤ 0 then 0
    else
      let jitter : ℚ := (stableHash32 (nodeId ++ unit ':' :: mission.missionId) % 10000 : ℕ) / 10000
      let localFrac := 92 / 100 + 8 / 100 * jitter
      min 100 ((globalCells - ⌊globalCells * localFrac⌋) / globalCells * 100)
  match ctx.localMapCells with
  | some cells =>
    if globalCells > 0 then min 100 (max 0 (globalCells - cells) / globalCells * 100) else estimate
  | none => estimate

/-- The assignments of the node that are newer than the row it has taken note of. -/
def countDiscardedStaleCommands (nodeId : Str) (mission : MissionState)
    (checkpointIndex : Option ℕ) (events : List MissionLedgerEvent) : ℕ :=
  let checkpointTs : Decimal :=
    ((checkpointIndex.bind fun i => events[i]?).map fun e => e.timestamp).getD 0
  mission.assignments.values.countP fun a => a.nodeId = nodeId ∧ checkpointTs < a.assignedAtMs

def getOperatorActions (state : RecoveryState) (initialLag : ℕ) (mapLagPercent : ℚ) :
    List RecoveryOperatorAction :=
  uniq
    ((if state = .stale ∨ state = .isolated then [.manualSync, .isolate] else []) ++
      (if state = .degraded ∨ mapLagPercent ≥ mapDegradedPct then [.monitor] else []) ++
      (if state = .replaying ∨ state = .revalidating ∨ state = .syncing then [.monitor] else []) ++
      if state = .stale ∧ initialLag > staleLag * 2 then [.monitor] else [])

def logRecoveryEvent (m : RecoveryManager) (report : RecoveryReport) : RecoveryManager :=
  let logRing := m.logRing ++ [report]
  { m with logRing := logRing.drop (logRing.length - logCap) }

/-- What a recovery decides: the state, the rows that are replayed, and the manager after it. -/
def decideRecovery (m : RecoveryManager) (nodeId missionId : Str) (initialLag peerSyncCount : ℕ)
    (rosterSize : ℕ) (ctx : RecoverContext) : RecoveryState × ℕ × RecoveryManager :=
  if initialLag > staleLag then (.stale, 0, m)
  else if peerSyncCount = 0 ∧ rosterSize > 1 then (.isolated, 0, m)
  else if initialLag > replayLag then
    (.recovered, replayEvents m missionId initialLag,
      advanceLocalTailToMissionTail m missionId nodeId)
  else if initialLag > 0 then
    (.recovered, 0,
      advanceLocalTailToMissionTail (refreshTrust m nodeId missionId) missionId nodeId)
  else if ctx.initialHandshake then (.syncing, 0, m)
  else (.recovered, 0, m)

def recoverNode (m : RecoveryManager) (nodeId missionId : Str) (mission : MissionState)
    (nowMs : Decimal) (ctx : RecoverContext) : RecoveryManager × RecoveryReport :=
  let events := m.ledger.eventsForMission missionId
  let localTail := getLocalCheckpoint m missionId nodeId ctx
  let cpIndex := missionCheckpointIndex events localTail
  let initialLag := lagOf events localTail
  let rosterIds := mission.roster.keys
  let peerSyncCount := m.registry.getPeerSyncCount nodeId rosterIds nowMs staleMs
  let lastPeerContactMs := m.registry.lastPeerContactMs nodeId rosterIds nowMs staleMs
  let (state, replayedEvents, m) :=
    decideRecovery m nodeId missionId initialLag peerSyncCount rosterIds.length ctx
  let checkpointLag := computeResidualLag m missionId nodeId ctx
  let mapLagPercent := computeMapLag nodeId mission ctx
  let state :=
    if mapLagPercent ≥ mapDegradedPct ∧ (state = .recovered ∨ state = .syncing) then .degraded
    else state
  let diagnostics : RecoveryDiagnostics :=
    { initialCheckpointLag := initialLag
      checkpointLag
      mapLagPercent
      discardedCommands := countDiscardedStaleCommands nodeId mission cpIndex events
      replayedEvents
      pendingTrustRevalidation := false
      peerSyncCount
      lastPeerContactMs }
  let report : RecoveryReport :=
    { nodeId
      missionId
      currentState := state
      diagnostics
      operatorActions := getOperatorActions state initialLag mapLagPercent
      headline := formatRecoveryHeadline nodeId state diagnostics
      timestamp := nowMs }
  (logRecoveryEvent m report, report)

/-! ### What a recovery does -/

/-- The node is behind, but not too far, and it is not cut off from its peers. -/
def MayCatchUp (initialLag peerSyncCount rosterSize : ℕ) : Prop :=
  0 < initialLag ∧ initialLag ≤ staleLag ∧ ¬ (peerSyncCount = 0 ∧ 1 < rosterSize)

/-- The last rows that are replayed are as many as the node is behind. -/
theorem replayEvents_lagOf (m : RecoveryManager) (missionId localTail : Str) :
    replayEvents m missionId (lagOf (m.ledger.eventsForMission missionId) localTail) =
      lagOf (m.ledger.eventsForMission missionId) localTail := by
  have hle : lagOf (m.ledger.eventsForMission missionId) localTail ≤
      (m.ledger.eventsForMission missionId).length := by
    unfold lagOf
    split
    · exact le_refl _
    · omega
  rw [replayEvents, List.length_drop]
  omega

theorem ledger_refreshTrust (m : RecoveryManager) (nodeId missionId : Str) :
    (refreshTrust m nodeId missionId).ledger = m.ledger ∧
      (refreshTrust m nodeId missionId).localTails = m.localTails := by
  unfold refreshTrust
  split <;> exact ⟨rfl, rfl⟩

/-- **A node either catches up or keeps its last row.** -/
theorem decideRecovery_cases (m : RecoveryManager) (nodeId missionId localTail : Str)
    (peerSyncCount rosterSize : ℕ) (ctx : RecoverContext) :
    let lag := lagOf (m.ledger.eventsForMission missionId) localTail
    let out := decideRecovery m nodeId missionId lag peerSyncCount rosterSize ctx
    out.2.2.ledger = m.ledger ∧
      (MayCatchUp lag peerSyncCount rosterSize ∧ out.1 = .recovered ∧
          (out.2.1 = 0 ∨ out.2.1 = lag) ∧
          out.2.2.localTails =
            m.localTails.set (tailKey missionId nodeId) (m.ledger.missionTailHash missionId) ∨
        ¬ MayCatchUp lag peerSyncCount rosterSize ∧
          (lag = 0 ∨ out.1 = .stale ∨ out.1 = .isolated) ∧ out.2.2.localTails = m.localTails) := by
  intro lag out
  obtain ⟨hledger, htails⟩ := ledger_refreshTrust m nodeId missionId
  change (decideRecovery m nodeId missionId lag peerSyncCount rosterSize ctx).2.2.ledger = _ ∧ _
  have hout : out = decideRecovery m nodeId missionId lag peerSyncCount rosterSize ctx := rfl
  clear_value out
  subst hout
  unfold decideRecovery MayCatchUp
  by_cases hstale : lag > staleLag
  · rw [if_pos hstale]
    exact ⟨rfl, Or.inr ⟨fun h => absurd h.2.1 (not_le.2 hstale), Or.inr (Or.inl rfl), rfl⟩⟩
  rw [if_neg hstale]
  by_cases hisolated : peerSyncCount = 0 ∧ rosterSize > 1
  · rw [if_pos hisolated]
    exact ⟨rfl, Or.inr ⟨fun h => h.2.2 hisolated, Or.inr (Or.inr rfl), rfl⟩⟩
  rw [if_neg hisolated]
  by_cases hreplay : lag > replayLag
  · rw [if_pos hreplay]
    refine ⟨rfl, Or.inl ⟨⟨by omega, not_lt.1 hstale, hisolated⟩, rfl, Or.inr ?_, rfl⟩⟩
    exact replayEvents_lagOf m missionId localTail
  rw [if_neg hreplay]
  by_cases hbehind : lag > 0
  · rw [if_pos hbehind]
    refine ⟨hledger, Or.inl ⟨⟨hbehind, not_lt.1 hstale, hisolated⟩, rfl, Or.inl rfl, ?_⟩⟩
    rw [advanceLocalTailToMissionTail, hledger, htails]
  rw [if_neg hbehind]
  have hzero : lag = 0 := by omega
  split <;> exact ⟨rfl, Or.inr ⟨fun h => hbehind h.1, Or.inl hzero, rfl⟩⟩

end NodeRecovery
