/-
**Step-by-step replay of a mission** (`replay/mission-replayer.ts`).

A window of a mission's rows is replayed on the state that the rows before it left.  The report on
the window checks two things beside the chain: a fold of all rows of the mission against the replay
of the whole ledger, and the targets of the last state against the targets that the mission names.

Main definitions:

* `Vertex.MissionState.toJson`, `Vertex.fingerprintState` — a state as text;
* `Vertex.buildPrefixState`, `Vertex.replaySlice` — the state before the window, and the window;
* `Vertex.generateReport`, `Vertex.replayMission` — the report, and the replay with its report.

Main results:

* `Vertex.replaySlice_fst`, `Vertex.replaySlice_isChain` — each step starts where the last one
  ended;
* `Vertex.createdAtMs_eq_of_fingerprintState_eq` — a fingerprint tells when the mission began.
-/
import Endendend.Vertex.Replay

set_option relaxedAutoImplicit false
set_option autoImplicit false

namespace Vertex

open Js

/-! ### Fingerprints -/

/-- The text of a scenario. -/
def MissionScenarioKind.text (kind : MissionScenarioKind) : Str :=
  ((knownScenarios.find? fun p => p.2 = kind).map Prod.fst).getD []

def RosterEntry.toJson (entry : RosterEntry) : Json :=
  .obj [("nodeId", .str entry.nodeId), ("role", entry.role), ("joinedAtMs", .num entry.joinedAtMs),
    ("capabilities", .arr entry.capabilities)]

def SarTarget.toJson (t : SarTarget) : Json :=
  .obj [("targetId", .str t.targetId), ("discoveredBy", .str t.discoveredBy),
    ("confirmedByVertex", .bool t.confirmedByVertex), ("notes", .str t.notes)]

def TaskAssignment.toJson (a : TaskAssignment) : Json :=
  .obj [("taskId", .str a.taskId), ("nodeId", .str a.nodeId), ("taskType", .str a.taskType),
    ("assignedAtMs", .num a.assignedAtMs)]

def SafetyAlert.toJson (a : SafetyAlert) : Json :=
  .obj [("alertId", .str a.alertId), ("level", a.level), ("message", .str a.message),
    ("raisedAtMs", .num a.raisedAtMs), ("sourceNodeId", .str a.sourceNodeId)]

/-- The fields of a state; without a scenario it has no such key. -/
def MissionState.fields (state : MissionState) : List (Str × Json) :=
  let scenario : List (Str × Json) :=
    (state.scenario.map fun kind => (lit "scenario", Json.str kind.text)).toList
  let rest : List (Str × Json) :=
    [("createdAtMs", .num state.createdAtMs), ("updatedAtMs", .num state.updatedAtMs),
      ("roster", .obj (state.roster.entries.map fun p => (p.1, p.2.toJson))),
      ("targets", .obj (state.targets.entries.map fun p => (p.1, p.2.toJson))),
      ("assignments", .obj (state.assignments.entries.map fun p => (p.1, p.2.toJson))),
      ("mapSummary", .obj [("cellsKnown", .num state.cellsKnown)]),
      ("alerts", .arr (state.alerts.map SafetyAlert.toJson)),
      ("consensusPointer", .obj [("sequence", .num (.ofInt state.consensusPointer.sequence)),
        ("lastEventHash", .str state.consensusPointer.lastEventHash)]),
      ("recoveryCheckpoints", .arr (state.recoveryCheckpoints.map Json.str)),
      ("connectivityMode", state.connectivityMode),
      ("completedTaskIds", .arr (state.completedTaskIds.map Json.str))]
  ("missionId", .str state.missionId) :: ("phase", .str state.phase.text) :: (scenario ++ rest)

/-- The state as a JSON object. -/
def MissionState.toJson (state : MissionState) : Json := .obj state.fields

/-- Stable digest of a state for equality checks. -/
def fingerprintState (state : MissionState) : Str := stableStringify state.toJson

/-! ### Steps -/

structure ReplayStep where
  eventIndex : ℕ
  event : MissionLedgerEvent
  stateBefore : MissionState
  stateAfter : MissionState
  phaseChange : Bool
  assignmentChange : Option (Str × Str)
  safetyEvent : Bool
  debugNotes : List Str

def isPhaseChange (event : EventCore) : Bool :=
  event.eventType = .phaseTransition ∨ event.eventType = .missionCreated

/-- The node and the task of an assignment. -/
def parseAssignment (event : EventCore) : Str × Str :=
  (event.textAt "nodeId" (.str event.actorId),
    (nullish (event.payload.get? "taskType")
      (nullish (event.payload.get? "taskId") (.str ""))).toText)

/-- A count as text. -/
def countText (n : ℕ) : Str := (Decimal.ofInt n).toStr

/-- One step of a replay. -/
def replayStep (eventIndex : ℕ) (state : MissionState) (event : MissionLedgerEvent) : ReplayStep :=
  let stateAfter := applyMissionLedgerEvent state event
  { eventIndex
    event
    stateBefore := state
    stateAfter
    phaseChange := isPhaseChange event.toEventCore
    assignmentChange :=
      if event.eventType = .taskAssigned then some (parseAssignment event.toEventCore) else none
    safetyEvent := event.eventType = .safetyAlert
    debugNotes :=
      [lit "Event @" ++ countText eventIndex ++ lit ": " ++ event.eventType.text,
        lit "Actor: " ++ event.actorId,
        lit "Roster: " ++ countText stateAfter.roster.entries.length,
        lit "Targets: " ++ countText stateAfter.targets.entries.length,
        lit "Alerts: " ++ countText stateAfter.alerts.length] }

/-- The loop over a window: the state it ends in, and its steps. -/
def replaySlice : ℕ → MissionState → List MissionLedgerEvent → MissionState × List ReplayStep
  | _, state, [] => (state, [])
  | eventIndex, state, event :: slice =>
    let step := replayStep eventIndex state event
    let rest := replaySlice (eventIndex + 1) step.stateAfter slice
    (rest.1, step :: rest.2)

/-- When a mission began: at its `mission_created` row, else at its first row, else now. -/
def startedAt (now : Decimal) (ordered : List MissionLedgerEvent) : Decimal :=
  let created := ordered.find? fun e => e.eventType = .missionCreated
  ((created.or ordered.head?).map fun e => e.timestamp).getD now

/-- The state after the first rows of a mission. -/
def buildPrefixState (now : Decimal) (ordered : List MissionLedgerEvent) (missionId : Str)
    (prefixLen : ℕ) : MissionState :=
  (ordered.take prefixLen).foldl applyMissionLedgerEvent
    (emptyMissionState missionId (startedAt now ordered))

/-! ### The report -/

structure KeyMoment where
  timestamp : Decimal
  description : Str
  nodesInvolved : List Str

structure ReplayVerification where
  deterministic : Bool
  consensusOrderValid : Bool
  finalMapConsistent : Bool

structure ReplayReport where
  missionId : Str
  totalEvents : ℕ
  phaseHistory : List Str
  keyMoments : List KeyMoment
  verification : ReplayVerification
  operatorSummary : Str
  finalStateFingerprint : Str

/-- The texts that say something. -/
def nonempty (texts : List Str) : List Str := texts.filter fun s => s ≠ []

/-- What an operator is told about a row, if anything, and the nodes it involves. -/
def describeKeyMoment (e : EventCore) : Option (Str × List Str) :=
  match e.eventType with
  | .targetDiscovered =>
    some (e.actorId ++ lit " discovered target " ++ e.textAt "targetId" (.str "?"),
      nonempty [e.actorId])
  | .targetConfirmed =>
    some (lit "Target " ++ e.textAt "targetId" (.str "?") ++ lit " confirmed",
      nonempty [e.actorId, e.textAt "confirmedBy" (.str "")])
  | .phaseTransition => some (lit "Phase → " ++ e.textAt "toPhase" (.str "?"), [])
  | .taskAssigned =>
    let task := nullish (e.payload.get? "taskType") (nullish (e.payload.get? "taskId") (.str ""))
    some (lit "Task " ++ task.toText ++ lit " → " ++ e.textAt "nodeId" (.str ""),
      [e.textAt "nodeId" (.str e.actorId)])
  | .safetyAlert =>
    let message :=
      nullish (e.payload.get? "message") (nullish (e.payload.get? "alertId") (.str "alert"))
    some (lit "Safety: " ++ message.toText, [e.actorId])
  | .extractionConfirmed =>
    some (lit "Extraction confirmed for target " ++ e.textAt "targetId" (.str "?"), [e.actorId])
  | _ => none

/-- The place of each hash in the ledger. -/
def indexByHash (globalEvents : List MissionLedgerEvent) : OrderedMap Str ℕ :=
  globalEvents.zipIdx.foldl (fun index p => index.set p.1.eventHash p.2) ∅

/-- Each mission row must link to the global row immediately before it. -/
def verifyMissionEventsAgainstGlobalChain (globalEvents missionEvents : List MissionLedgerEvent) :
    Bool :=
  missionEvents.all fun e =>
    match (indexByHash globalEvents).get? e.eventHash with
    | none => false
    | some idx =>
      let prevGlobal := if 0 < idx then globalEvents[idx - 1]? else none
      e.previousHash = (prevGlobal.map fun prev => prev.eventHash).getD genesis

/-- The target that a row of a mission names as discovered, on whatever plane. -/
def discoveredId (e : EventCore) : Option Str :=
  if e.eventType = .targetDiscovered then
    let id := e.textAt "targetId" (.str "")
    if id ≠ [] then some id else none
  else none

/-- The targets that a mission names as discovered. -/
def discoveredIds (ordered : List MissionLedgerEvent) : List Str :=
  ordered.foldl
    (fun ids e =>
      match discoveredId e.toEventCore with
      | some id => setAdd ids id
      | none => ids) []

/-- The readings of the clock, in the order of their use: for the state before the window, for the
fold of all rows, and for the replay of the whole ledger. -/
structure ReplayClock where
  prefixNow : Decimal
  incrementalNow : Decimal
  bulkNow : Decimal

/-- The report on a window that was replayed. -/
def generateReport (subtleDigest : Str → List UInt8) (clock : ReplayClock) (missionId : Str)
    (ordered slice : List MissionLedgerEvent) (steps : List ReplayStep) (finalState : MissionState)
    (ledger : MissionLedger) : ReplayReport :=
  let ids := discoveredIds ordered
  let incremental := ordered.foldl applyMissionLedgerEvent
    (buildPrefixState clock.incrementalNow ordered missionId 0)
  let bulkReplay := replayMissionFromLedger clock.bulkNow ledger missionId
  let deterministic : Bool := fingerprintState incremental = fingerprintState bulkReplay
  { missionId
    totalEvents := steps.length
    phaseHistory := (steps.filter fun s => s.phaseChange).map fun s => s.event.eventType.text
    keyMoments := slice.filterMap fun e =>
      (describeKeyMoment e.toEventCore).map fun m => ⟨e.timestamp, m.1, m.2⟩
    verification :=
      { deterministic
        consensusOrderValid :=
          verifyChain subtleDigest ledger = .ok &&
            verifyMissionEventsAgainstGlobalChain ledger ordered
        finalMapConsistent :=
          ids.length = 0 ∨ ids.length = finalState.targets.entries.length }
    operatorSummary := (lit " · ").intercalate
      [countText steps.length ++ lit " step(s) in window",
        countText ordered.length ++ lit " total mission events",
        lit "phase: " ++ finalState.phase.text,
        if deterministic then lit "replay matches full fold" else lit "replay drift vs full fold"]
    finalStateFingerprint := fingerprintState finalState }

/-- Where a window starts in a mission of the given length. -/
def windowStart (length : ℕ) (fromEvent : ℤ) : ℕ := (max 0 (min fromEvent length)).toNat

/-- Where a window ends; without a bound, at the end. -/
def windowEnd (length : ℕ) (fromEvent : ℤ) (toEvent : Option ℤ) : ℕ :=
  (max (windowStart length fromEvent : ℤ) (min (toEvent.getD length) length)).toNat

/-- The steps of a window of a mission, and the report on them. -/
def replayMission (subtleDigest : Str → List UInt8) (clock : ReplayClock) (ledger : MissionLedger)
    (missionId : Str) (fromEvent : ℤ) (toEvent : Option ℤ) : List ReplayStep × ReplayReport :=
  let ordered := ledger.eventsForMission missionId
  let first := windowStart ordered.length fromEvent
  let last := windowEnd ordered.length fromEvent toEvent
  let state := buildPrefixState clock.prefixNow ordered missionId first
  let slice := (ordered.take last).drop first
  let replayed := replaySlice first state slice
  (replayed.2,
    generateReport subtleDigest clock missionId ordered slice replayed.2 replayed.1 ledger)

/-! ### One loop, two results -/

/-- **The loop ends in the state after all rows of the window.** -/
theorem replaySlice_fst (eventIndex : ℕ) (state : MissionState) (slice : List MissionLedgerEvent) :
    (replaySlice eventIndex state slice).1 = slice.foldl applyMissionLedgerEvent state := by
  induction slice generalizing eventIndex state with
  | nil => rfl
  | cons event slice ih => exact ih _ _

/-- The first step starts in the state before the window. -/
theorem stateBefore_of_head? {eventIndex : ℕ} {state : MissionState}
    {slice : List MissionLedgerEvent} {step : ReplayStep}
    (h : step ∈ (replaySlice eventIndex state slice).2.head?) : step.stateBefore = state := by
  cases slice with
  | nil => exact absurd h (by simp [replaySlice])
  | cons event slice =>
      obtain rfl : replayStep eventIndex state event = step := Option.some.inj h
      rfl

/-- **Each step starts where the last one ended.** -/
theorem replaySlice_isChain (eventIndex : ℕ) (state : MissionState)
    (slice : List MissionLedgerEvent) :
    (replaySlice eventIndex state slice).2.IsChain fun s s' => s.stateAfter = s'.stateBefore := by
  induction slice generalizing eventIndex state with
  | nil => exact .nil
  | cons event slice ih =>
      refine List.isChain_cons.2 ⟨fun next hnext => ?_, ih _ _⟩
      exact (stateBefore_of_head? hnext).symm

/-! ### When a mission began -/

/-- The key stands once among the fields. -/
theorem MissionState.filter_fields (state : MissionState) :
    state.fields.filter (fun p => p.1 = lit "createdAtMs") =
      [(lit "createdAtMs", .num state.createdAtMs)] := by
  unfold MissionState.fields
  cases state.scenario <;> rfl

/-- **A fingerprint tells when the mission began.** -/
theorem createdAtMs_eq_of_fingerprintState_eq {s s' : MissionState}
    (h : fingerprintState s = fingerprintState s') : s.createdAtMs = s'.createdAtMs := by
  have hmem : ∀ (state : MissionState) (v : Json),
      (lit "createdAtMs", v) ∈ state.fields ↔ v = .num state.createdAtMs := by
    intro state v
    have hfilter : (lit "createdAtMs", v) ∈ state.fields ↔
        (lit "createdAtMs", v) ∈ state.fields.filter (fun p => p.1 = lit "createdAtMs") := by
      simp [List.mem_filter]
    rw [hfilter, state.filter_fields, List.mem_singleton, Prod.mk.injEq, and_iff_right rfl]
  obtain ⟨v, hv, hsort⟩ := exists_field_of_stableStringify_eq h ((hmem s _).2 rfl)
  obtain rfl := (hmem s' v).1 hv
  exact Json.num.inj hsort

end Vertex
