/-
**Replay of the mission ledger** (`vertex/demo-replay.ts`, `shared/mission-state.ts`).

A mission's state is a fold over its rows.  Payloads are unchecked: what the source casts is kept
as the JSON value it is.

Main definitions:

* `Vertex.MissionState`, `Vertex.emptyMissionState` — the read model;
* `Vertex.applyVertex`, `Vertex.applyOne`, `Vertex.replayMissionFromLedger` — the fold;
* `Vertex.proposedPhase` — the phase a row sets.

Main results:

* `Vertex.phase_applyOne` — a row sets the phase it proposes and nothing else does;
* `Vertex.phase_replay_append` — the phase after one more row of the ledger;
* `Vertex.origin_applyOne` — no row changes the mission or the time of its creation;
* `Vertex.replayMissionFromLedger_eq` — a replay folds the rows of its mission.
-/
import Endendend.Foundation.Coerce
import Endendend.Vertex.MissionLedger
import Endendend.Vertex.MissionPhases

set_option relaxedAutoImplicit false
set_option autoImplicit false

namespace Vertex

open Js

/-! ### The read model -/

/-- The mission scenarios. -/
inductive MissionScenarioKind
  | collapsedBuilding
  | tunnel
  | wildfire
  | extraction
  | floodRescue
  | hazmat
  | indoorSearch
  | perimeterSweep
  | triageOperation
  | nightMission
  deriving DecidableEq

/-- The known scenarios and their texts. -/
def knownScenarios : List (Str × MissionScenarioKind) :=
  [("collapsed_building", .collapsedBuilding), ("tunnel", .tunnel), ("wildfire", .wildfire),
    ("extraction", .extraction), ("flood_rescue", .floodRescue), ("hazmat", .hazmat),
    ("indoor_search", .indoorSearch), ("perimeter_sweep", .perimeterSweep),
    ("triage_operation", .triageOperation), ("night_mission", .nightMission)]

/-- Replaces every run of white space by an underscore. -/
def underscoreSpaces : Str → Str
  | [] => []
  | u :: s =>
    if isSpace u then
      if s.head?.any isSpace then underscoreSpaces s else unit '_' :: underscoreSpaces s
    else u :: underscoreSpaces s

/-- Accepts `collapsed-building` and `Collapsed Building` style inputs. -/
def coerceMissionScenarioKind (raw : Str) : Option MissionScenarioKind :=
  let dashed := (toLowerCase (trim raw)).map fun u => if u = unit '-' then unit '_' else u
  knownScenarios.lookup (underscoreSpaces dashed)

structure RosterEntry where
  nodeId : Str
  role : Json
  joinedAtMs : Decimal
  capabilities : List Json

structure SarTarget where
  targetId : Str
  discoveredBy : Str
  confirmedByVertex : Bool
  notes : Str

structure TaskAssignment where
  taskId : Str
  nodeId : Str
  taskType : Str
  assignedAtMs : Decimal

structure SafetyAlert where
  alertId : Str
  level : Json
  message : Str
  raisedAtMs : Decimal
  sourceNodeId : Str

/-- The last committed row: its place in the mission's order and its hash. -/
structure ConsensusPointer where
  sequence : ℕ
  lastEventHash : Str

/-- The read model of a mission. -/
structure MissionState where
  missionId : Str
  phase : MissionPhase
  scenario : Option MissionScenarioKind
  createdAtMs : Decimal
  updatedAtMs : Decimal
  roster : OrderedMap Str RosterEntry
  targets : OrderedMap Str SarTarget
  assignments : OrderedMap Str TaskAssignment
  /-- `mapSummary.cellsKnown`. -/
  cellsKnown : Decimal
  alerts : List SafetyAlert
  consensusPointer : ConsensusPointer
  recoveryCheckpoints : List Str
  connectivityMode : Json
  completedTaskIds : List Str

/-- The state before the first row. -/
def emptyMissionState (missionId : Str) (nowMs : Decimal) : MissionState where
  missionId := missionId
  phase := .init
  scenario := none
  createdAtMs := nowMs
  updatedAtMs := nowMs
  roster := ∅
  targets := ∅
  assignments := ∅
  cellsKnown := 0
  alerts := []
  consensusPointer := ⟨0, genesis⟩
  recoveryCheckpoints := []
  connectivityMode := .str "normal"
  completedTaskIds := []

/-! ### The fold -/

/-- The phase a value names. -/
def asPhase (v : Option Json) : Option MissionPhase :=
  match v with
  | some (.str s) => MissionPhase.ofText s
  | _ => none

/-- `String(payload[key] ?? default)`. -/
def EventCore.textAt (e : EventCore) (key : Str) (default : Json) : Str :=
  (nullish (e.payload.get? key) default).toText

/-- The row of an assignment. -/
def MissionState.assign (state : MissionState) (e : EventCore) (taskId nodeId : Str) :
    MissionState :=
  if taskId = [] ∨ nodeId = [] then state
  else
    { state with
      assignments := state.assignments.set taskId
        ⟨taskId, nodeId, e.textAt "taskType" (.str "generic"), e.timestamp⟩ }

/-- What a row of the Vertex plane does. -/
def applyVertex (state : MissionState) (e : MissionLedgerEvent) : MissionState :=
  match e.eventType with
  | .missionCreated =>
    let cells := (nullish (e.payload.get? "cellsKnown") (.num 0)).toNumber
    let scenario :=
      match e.payload.get? "scenario" with
      | some (.str raw) => coerceMissionScenarioKind raw
      | _ => none
    { state with
      phase := (asPhase (e.payload.get? "phase")).getD .init
      scenario := scenario.or state.scenario
      cellsKnown :=
        match cells with
        | some cells => if 0 < cells then cells else state.cellsKnown
        | none => state.cellsKnown }
  | .phaseTransition =>
    -- an absent `cellsKnown` becomes `NaN`, which no JSON number is
    let cells :=
      match e.payload.get? "cellsKnown" with
      | none | some .null => none
      | some v => v.toNumber
    match asPhase (e.payload.get? "toPhase") with
    | some toPhase =>
      { state with
        phase := toPhase
        cellsKnown :=
          match cells with
          | some cells => if 0 ≤ cells then max state.cellsKnown cells.floor else state.cellsKnown
          | none => state.cellsKnown }
    | none => state
  | .nodeJoin =>
    let nodeId := e.textAt "nodeId" (.str "")
    if nodeId = [] then state
    else
      { state with
        roster := state.roster.set nodeId
          { nodeId
            role := nullish (e.payload.get? "role") (.str "observer")
            joinedAtMs := e.timestamp
            capabilities :=
              match e.payload.get? "capabilities" with
              | some (.arr xs) => xs
              | _ => [] } }
  | .roleChange =>
    let nodeId := e.textAt "nodeId" (.str "")
    match e.payload.get? "role", state.roster.get? nodeId with
    | some role, some entry =>
      if nodeId = [] ∨ role.truthy = false then state
      else { state with roster := state.roster.set nodeId { entry with role } }
    | _, _ => state
  | .targetDiscovered =>
    let targetId := e.textAt "targetId" (.str "")
    if targetId = [] then state
    else
      { state with
        targets := state.targets.set targetId
          ⟨targetId, e.actorId, false, e.textAt "notes" (.str "")⟩ }
  | .targetConfirmed =>
    let targetId := e.textAt "targetId" (.str "")
    match state.targets.get? targetId with
    | some t =>
      if targetId = [] then state
      else { state with targets := state.targets.set targetId { t with confirmedByVertex := true } }
    | none => state
  | .taskBid => state
  | .taskAssigned =>
    state.assign e.toEventCore (e.textAt "taskId" (.str "")) (e.textAt "nodeId" (.str ""))
  | .taskReassigned =>
    let node := nullish (e.payload.get? "newNodeId") (nullish (e.payload.get? "nodeId") (.str ""))
    state.assign e.toEventCore (e.textAt "taskId" (.str "")) node.toText
  | .taskCompleted =>
    let taskId := e.textAt "taskId" (.str "")
    if taskId = [] then state
    else
      { state with
        assignments := state.assignments.erase taskId
        completedTaskIds := setAdd (uniq state.completedTaskIds) taskId }
  | .blackoutEntered =>
    { state with connectivityMode := nullish (e.payload.get? "mode") (.str "blackout") }
  | .blackoutCleared => { state with connectivityMode := .str "recovery" }
  | .syncReconciled => { state with connectivityMode := .str "normal" }
  | .localAutonomyActivated => state
  | .tentativePhase => state
  | .extractionConfirmed =>
    let targetId := e.textAt "targetId" (.str "")
    match state.targets.get? targetId with
    | some t =>
      if targetId = [] then state
      else
        { state with
          targets := state.targets.set targetId { t with notes := t.notes ++ " extraction_ok" } }
    | none => state
  | .safetyAlert =>
    { state with
      alerts := state.alerts ++
        [{ alertId := e.textAt "alertId" (.str (e.eventHash.take 12))
           level := nullish (e.payload.get? "level") (.str "warn")
           message := e.textAt "message" (.str "")
           raisedAtMs := e.timestamp
           sourceNodeId := e.actorId }] }
  | .recoveryCheckpoint =>
    { state with
      recoveryCheckpoints := state.recoveryCheckpoints ++ [e.textAt "label" (.str e.eventHash)] }
  | _ => state

/-- What a row does: every row moves the pointer, and its plane decides the rest. -/
def applyOne (state : MissionState) (e : MissionLedgerEvent) : MissionState :=
  let next := { state with
    updatedAtMs := max state.updatedAtMs e.timestamp
    consensusPointer := ⟨state.consensusPointer.sequence + 1, e.eventHash⟩ }
  if e.plane = .vertex ∧ isVertexEvent e.eventType then applyVertex next e
  else if e.eventType = .nodeHeartbeat ∧ e.plane = .lattice then
    let nodeId := e.textAt "nodeId" (.str "")
    match next.roster.get? nodeId with
    | some entry => if nodeId = [] then next
        else { next with roster := next.roster.set nodeId entry }
    | none => next
  else next

/-- Applies a row to the state of its mission. -/
def applyMissionLedgerEvent (state : MissionState) (e : MissionLedgerEvent) : MissionState :=
  if e.missionId ≠ state.missionId then state else applyOne state e

/-- The state of a mission after all its rows; `now` is the clock, read if the mission has no
`mission_created` row. -/
def replayMissionFromLedger (now : Decimal) (events : List MissionLedgerEvent) (missionId : Str) :
    MissionState :=
  let first := events.find? fun e => e.missionId = missionId ∧ e.eventType = .missionCreated
  let t0 := (first.map fun e => e.timestamp).getD now
  events.foldl (fun state e => if e.missionId ≠ missionId then state else applyOne state e)
    (emptyMissionState missionId t0)

/-! ### The phase -/

/-- The phase a row sets, if it sets one. -/
def proposedPhase (e : EventCore) : Option MissionPhase :=
  if e.plane ≠ .vertex then none
  else
    match e.eventType with
    | .missionCreated => some ((asPhase (e.payload.get? "phase")).getD .init)
    | .phaseTransition => asPhase (e.payload.get? "toPhase")
    | _ => none

theorem MissionState.phase_assign (state : MissionState) (e : EventCore) (taskId nodeId : Str) :
    (state.assign e taskId nodeId).phase = state.phase := by
  unfold MissionState.assign
  split <;> rfl

theorem phase_applyVertex (state : MissionState) (e : MissionLedgerEvent) :
    (applyVertex state e).phase =
      match e.eventType with
      | .missionCreated => (asPhase (e.payload.get? "phase")).getD .init
      | .phaseTransition => (asPhase (e.payload.get? "toPhase")).getD state.phase
      | _ => state.phase := by
  unfold applyVertex
  cases e.eventType with
  | phaseTransition => simp only; split <;> simp_all
  | nodeJoin | targetDiscovered | taskCompleted => simp only; split <;> rfl
  | roleChange | targetConfirmed | extractionConfirmed =>
      simp only
      split
      · split <;> rfl
      · rfl
  | taskAssigned | taskReassigned => exact state.phase_assign _ _ _
  | _ => rfl

/-- **A row sets the phase it proposes**, and a row that proposes none keeps the phase. -/
theorem phase_applyOne (state : MissionState) (e : MissionLedgerEvent) :
    (applyOne state e).phase = (proposedPhase e.toEventCore).getD state.phase := by
  unfold applyOne proposedPhase
  by_cases hplane : e.plane = .vertex
  · rw [if_neg (not_not.2 hplane)]
    cases htype : e.eventType <;>
      simp [hplane, htype, isVertexEvent, phase_applyVertex]
  · rw [if_pos hplane]
    simp only [hplane, false_and, if_false, Option.getD_none]
    split
    · split
      · split <;> rfl
      · rfl
    · rfl

/-- The phase of a mission after a row of the ledger. -/
def phaseAfter (missionId : Str) (p : MissionPhase) (e : MissionLedgerEvent) : MissionPhase :=
  if e.missionId ≠ missionId then p else (proposedPhase e.toEventCore).getD p

/-- The phase of a mission after all rows of the ledger. -/
def phaseOf (missionId : Str) (events : List MissionLedgerEvent) : MissionPhase :=
  events.foldl (phaseAfter missionId) .init

theorem phase_replay (now : Decimal) (events : List MissionLedgerEvent) (missionId : Str) :
    (replayMissionFromLedger now events missionId).phase = phaseOf missionId events := by
  have hfold : ∀ (events : List MissionLedgerEvent) (state : MissionState),
      (events.foldl (fun state e => if e.missionId ≠ missionId then state else applyOne state e)
        state).phase = events.foldl (phaseAfter missionId) state.phase := by
    intro events
    induction events with
    | nil => exact fun state => rfl
    | cons e events ih =>
        intro state
        rw [List.foldl_cons, List.foldl_cons, ih, phaseAfter]
        split
        · rfl
        · rw [phase_applyOne]
  exact hfold events _

/-- **The phase after one more row of the ledger.** -/
theorem phase_replay_append (now : Decimal) (events : List MissionLedgerEvent) (missionId : Str)
    (e : MissionLedgerEvent) :
    (replayMissionFromLedger now (events ++ [e]) missionId).phase =
      phaseAfter missionId (replayMissionFromLedger now events missionId).phase e := by
  rw [phase_replay, phase_replay, phaseOf, List.foldl_append]
  rfl

/-! ### The mission -/

/-- What no row changes: the mission, and when it was created. -/
def MissionState.origin (state : MissionState) : Str × Decimal :=
  (state.missionId, state.createdAtMs)

theorem MissionState.origin_assign (state : MissionState) (e : EventCore) (taskId nodeId : Str) :
    (state.assign e taskId nodeId).origin = state.origin := by
  unfold MissionState.assign
  split <;> rfl

theorem origin_applyVertex (state : MissionState) (e : MissionLedgerEvent) :
    (applyVertex state e).origin = state.origin := by
  unfold applyVertex
  cases e.eventType with
  | nodeJoin | targetDiscovered | taskCompleted | phaseTransition => simp only; split <;> rfl
  | roleChange | targetConfirmed | extractionConfirmed =>
      simp only
      split
      · split <;> rfl
      · rfl
  | taskAssigned | taskReassigned => exact state.origin_assign _ _ _
  | _ => rfl

theorem origin_applyOne (state : MissionState) (e : MissionLedgerEvent) :
    (applyOne state e).origin = state.origin := by
  unfold applyOne
  simp only
  split
  · exact origin_applyVertex _ e
  · split
    · split
      · split <;> rfl
      · rfl
    · rfl

theorem origin_foldl_applyOne (state : MissionState) (rows : List MissionLedgerEvent) :
    (rows.foldl applyOne state).origin = state.origin := by
  induction rows generalizing state with
  | nil => rfl
  | cons e rows ih => exact (ih _).trans (origin_applyOne state e)

/-- **A replay folds the rows of its mission**; all other rows are passed over. -/
theorem replayMissionFromLedger_eq (now : Decimal) (events : MissionLedger) (missionId : Str) :
    replayMissionFromLedger now events missionId =
      (events.eventsForMission missionId).foldl applyOne
        (emptyMissionState missionId
          (((events.find? fun e => e.missionId = missionId ∧ e.eventType = .missionCreated).map
            fun e => e.timestamp).getD now)) := by
  rw [MissionLedger.eventsForMission, List.foldl_filter, replayMissionFromLedger]
  congr 1
  funext state e
  by_cases h : e.missionId = missionId <;> simp [h]

/-- **A replay is of the mission it was asked for.** -/
theorem missionId_replay (now : Decimal) (events : List MissionLedgerEvent) (missionId : Str) :
    (replayMissionFromLedger now events missionId).missionId = missionId := by
  rw [replayMissionFromLedger_eq]
  exact congrArg Prod.fst (origin_foldl_applyOne _ _)

/-- On rows of its own mission, a state takes them all. -/
theorem foldl_applyMissionLedgerEvent {state : MissionState} {rows : List MissionLedgerEvent}
    (h : ∀ e ∈ rows, e.missionId = state.missionId) :
    rows.foldl applyMissionLedgerEvent state = rows.foldl applyOne state := by
  induction rows generalizing state with
  | nil => rfl
  | cons e rows ih =>
      have he := h e List.mem_cons_self
      rw [List.foldl_cons, List.foldl_cons, applyMissionLedgerEvent, if_neg (not_not.2 he)]
      refine ih fun e' he' => ?_
      rw [h e' (List.mem_cons_of_mem _ he')]
      exact congrArg Prod.fst (origin_applyOne state e).symm

end Vertex
