/-
**The mission state machine** (`MissionStateMachine` and `MissionPhasePolicy` of
`shared/tashi-mission-map-machine.ts`).

The machine keeps the nodes and the targets of a mission next to the shared map and moves through
the phases.  A request to enter a phase is checked against all of these and recorded, accepted or
not.

Main definitions:

* `Tashi.MissionStateMachine` — the machine;
* `Tashi.MissionStateMachine.computeChecks`, `Tashi.evaluateTransition`,
  `Tashi.MissionStateMachine.suggestNextPhase` — what a request is judged by, and the phase the
  machine would enter next;
* `Tashi.MissionStateMachine.transition`, `forceAbort`, `advanceIfReady`, `enforceRequestedPhase`
  and `abortIfUnsafe` — what moves the phase;
* `Tashi.MachineOp`, `Tashi.MachineOp.apply` — all operations.
-/
import Endendend.Foundation.Coerce
import Endendend.Tashi.SharedMap
import Endendend.Vertex.MissionPhases

set_option relaxedAutoImplicit false
set_option autoImplicit false

namespace Tashi

open Js Vertex

/-! ### Nodes and targets -/

/-- What a node does in a mission. -/
inductive NodeRole
  | explorer
  | relay
  | triage
  | rescuer
  | standby
  | command
  | sensor
  | transport
  | emergency
  deriving DecidableEq

/-- Why a phase is entered. -/
inductive TransitionReason
  | boot
  | quorumReached
  | coverageReached
  | targetConfirmed
  | targetAssigned
  | contactMade
  | objectiveComplete
  | safetyDegraded
  | manualAbort
  | operatorOverride
  deriving DecidableEq

/-- The text of a reason. -/
def TransitionReason.text : TransitionReason → Str
  | boot => "boot"
  | quorumReached => "quorum_reached"
  | coverageReached => "coverage_reached"
  | targetConfirmed => "target_confirmed"
  | targetAssigned => "target_assigned"
  | contactMade => "contact_made"
  | objectiveComplete => "objective_complete"
  | safetyDegraded => "safety_degraded"
  | manualAbort => "manual_abort"
  | operatorOverride => "operator_override"

structure XYPoint where
  x : ℚ
  y : ℚ
  z : Option ℚ
  deriving DecidableEq

/-- What is known of a node. -/
structure NodeStatus where
  nodeId : Str
  role : NodeRole
  batteryPct : ℚ
  linkQuality : ℚ
  gpsFix : Bool
  lastSeenMs : ℚ
  active : Bool
  capabilities : List Str
  missionId : Option Str
  location : Option XYPoint

/-- The fields of an update; a field that is `none` is left out. -/
structure NodePatch where
  nodeId : Option Str
  role : Option NodeRole
  batteryPct : Option ℚ
  linkQuality : Option ℚ
  gpsFix : Option Bool
  lastSeenMs : Option ℚ
  active : Option Bool
  capabilities : Option (List Str)
  missionId : Option Str
  location : Option (Option XYPoint)

inductive TargetStatus
  | new
  | confirmed
  | assigned
  | extracted
  | lost
  deriving DecidableEq

/-- What is known of a target; its confidence may be `NaN`, which is `none`. -/
structure TargetRecord where
  targetId : Str
  missionId : Str
  targetType : Str
  confidence : Option ℚ
  position : Option XYPoint
  confirmedBy : List Str
  assignedTo : Option Str
  extractedBy : Option Str
  foundAtMs : ℚ
  confirmedAtMs : Option ℚ
  assignedAtMs : Option ℚ
  extractedAtMs : Option ℚ
  status : TargetStatus
  metadata : OrderedMap Str Json

/-- `Math.max` of numbers that may be `NaN`. -/
def nanMax (a b : Option ℚ) : Option ℚ := a.bind fun a => b.map (max a)

structure MissionObjectives where
  totalTargetsExpected : ℚ
  totalTargetsConfirmed : ℚ
  totalTargetsExtracted : ℚ
  minCoveragePct : ℚ
  minQuorumNodes : ℚ
  requiredRoles : OrderedMap NodeRole ℚ
  safetyCritical : Bool
  maxStaleNodeAgeMs : ℚ

/-- The checks of a phase, by name; a check fails if it is `false`. -/
structure PhaseEntryExitChecks where
  entry : OrderedMap Str Json
  exit : OrderedMap Str Json

/-- The record of a request to enter a phase. -/
structure PhaseTransitionRecord where
  transitionId : Str
  missionId : Str
  fromPhase : MissionPhase
  toPhase : MissionPhase
  reason : TransitionReason
  requestedBy : Str
  createdAtMs : ℚ
  version : ℕ
  entryChecks : OrderedMap Str Json
  exitChecks : OrderedMap Str Json
  accepted : Bool
  rejectedReason : Option Str
  proofHash : Str

/-- The machine. -/
structure MissionStateMachine where
  missionId : Str
  createdAtMs : ℚ
  updatedAtMs : ℚ
  phase : MissionPhase
  phaseVersion : ℕ
  nodes : OrderedMap Str NodeStatus
  targets : OrderedMap Str TargetRecord
  map : SharedMap
  objectives : MissionObjectives
  latestTransition : Option PhaseTransitionRecord
  transitions : List PhaseTransitionRecord

namespace MissionStateMachine

/-- A machine at the first phase. -/
def new (missionId : Str) (map : SharedMap) (objectives : MissionObjectives) (now : ℚ) :
    MissionStateMachine where
  missionId
  createdAtMs := now
  updatedAtMs := now
  phase := .init
  phaseVersion := 0
  nodes := ∅
  targets := ∅
  map
  objectives
  latestTransition := none
  transitions := []

variable (m : MissionStateMachine)

def listNodes : List NodeStatus := (ownOrder m.nodes.entries).map Prod.snd

def listTargets : List TargetRecord := (ownOrder m.targets.entries).map Prod.snd

end MissionStateMachine

/-! ### What the machine keeps of a report -/

/-- A node as it was, with what an update says; battery and link only grow. -/
def mergeNode (current incoming : NodeStatus) : NodeStatus :=
  { incoming with
    batteryPct := max current.batteryPct incoming.batteryPct
    linkQuality := max current.linkQuality incoming.linkQuality
    lastSeenMs := max current.lastSeenMs incoming.lastSeenMs
    capabilities := uniq (current.capabilities ++ incoming.capabilities)
    missionId := incoming.missionId.or current.missionId
    location := incoming.location.or current.location }

/-- The rank of a status. -/
def TargetStatus.rank : TargetStatus → ℕ
  | new => 0
  | confirmed => 1
  | assigned => 2
  | extracted => 3
  | lost => 4

/-- A target as it was, with what another record says; its status only rises. -/
def mergeTarget (current incoming : TargetRecord) : TargetRecord :=
  { incoming with
    status := if incoming.status.rank ≥ current.status.rank then incoming.status else current.status
    confidence := nanMax current.confidence incoming.confidence
    confirmedBy := uniq (current.confirmedBy ++ incoming.confirmedBy)
    position := incoming.position.or current.position
    assignedTo := incoming.assignedTo.or current.assignedTo
    extractedBy := incoming.extractedBy.or current.extractedBy
    foundAtMs := min current.foundAtMs incoming.foundAtMs
    confirmedAtMs := incoming.confirmedAtMs.or current.confirmedAtMs
    assignedAtMs := incoming.assignedAtMs.or current.assignedAtMs
    extractedAtMs := incoming.extractedAtMs.or current.extractedAtMs
    metadata := current.metadata.assign incoming.metadata.entries }

/-- `Number(proof.confidence ?? confidence)`. -/
def proofConfidence (confidence : Option ℚ) (proof : OrderedMap Str Json) : Option ℚ :=
  match proof.get? "confidence" with
  | none | some .null => confidence
  | some v => v.toNumber.map Decimal.val

namespace MissionStateMachine

variable (m : MissionStateMachine)

/-! ### Registering nodes -/

def registerNode (node : NodeStatus) (now : ℚ) : MissionStateMachine :=
  let next : NodeStatus :=
    { node with
      batteryPct := clamp node.batteryPct 0 100
      linkQuality := clamp node.linkQuality 0 1
      lastSeenMs := if node.lastSeenMs = 0 then now else node.lastSeenMs
      missionId := node.missionId.or (some m.missionId)
      capabilities := uniq node.capabilities }
  let stored :=
    match m.nodes.get? node.nodeId with
    | some current => mergeNode current next
    | none => next
  { m with nodes := m.nodes.set node.nodeId stored, updatedAtMs := now }

def updateNode (nodeId : Str) (patch : NodePatch) (now : ℚ) : MissionStateMachine :=
  match m.nodes.get? nodeId with
  | none => m
  | some current =>
    let next : NodeStatus :=
      { nodeId := patch.nodeId.getD current.nodeId
        role := patch.role.getD current.role
        batteryPct := clamp (patch.batteryPct.getD current.batteryPct) 0 100
        linkQuality := clamp (patch.linkQuality.getD current.linkQuality) 0 1
        gpsFix := patch.gpsFix.getD current.gpsFix
        lastSeenMs := patch.lastSeenMs.getD now
        active := patch.active.getD current.active
        capabilities := uniq (patch.capabilities.getD current.capabilities)
        missionId := patch.missionId.or current.missionId
        location := patch.location.getD current.location }
    { m with nodes := m.nodes.set nodeId (mergeNode current next), updatedAtMs := now }

def removeNode (nodeId : Str) (now : ℚ) : MissionStateMachine :=
  match m.nodes.get? nodeId with
  | none => m
  | some _ => { m with nodes := m.nodes.erase nodeId, updatedAtMs := now }

def setNodeLocation (nodeId : Str) (location : XYPoint) (now : ℚ) : MissionStateMachine :=
  match m.nodes.get? nodeId with
  | none => m
  | some current =>
    let moved : NodeStatus := { current with location := some location, lastSeenMs := now }
    { m with nodes := m.nodes.set nodeId moved }

/-! ### Recording targets -/

def upsertTarget (target : TargetRecord) (now : ℚ) : MissionStateMachine :=
  let next :=
    match m.targets.get? target.targetId with
    | some current => mergeTarget current target
    | none => target
  { m with targets := m.targets.set target.targetId next, updatedAtMs := now }

def confirmTarget (targetId nodeId : Str) (proof : OrderedMap Str Json) (now : ℚ) :
    MissionStateMachine :=
  match m.targets.get? targetId with
  | none => m
  | some current =>
    let next : TargetRecord :=
      { current with
        status := .confirmed
        confidence := nanMax current.confidence (proofConfidence current.confidence proof)
        confirmedBy := uniq (current.confirmedBy ++ [nodeId])
        confirmedAtMs := current.confirmedAtMs.or (some now)
        metadata := current.metadata.assign proof.entries }
    let counted := if current.status = .confirmed then 0 else 1
    { m with
      targets := m.targets.set targetId next
      objectives :=
        { m.objectives with
          totalTargetsConfirmed := m.objectives.totalTargetsConfirmed + counted }
      updatedAtMs := now }

def assignTarget (targetId nodeId reason : Str) (now : ℚ) : MissionStateMachine :=
  match m.targets.get? targetId with
  | none => m
  | some current =>
    let next : TargetRecord :=
      { current with
        status := .assigned
        assignedTo := some nodeId
        assignedAtMs := some now
        metadata := current.metadata.set "assignmentReason" (.str reason) }
    { m with targets := m.targets.set targetId next, updatedAtMs := now }

def extractTarget (targetId nodeId : Str) (proof : OrderedMap Str Json) (now : ℚ) :
    MissionStateMachine :=
  match m.targets.get? targetId with
  | none => m
  | some current =>
    let next : TargetRecord :=
      { current with
        status := .extracted
        extractedBy := some nodeId
        extractedAtMs := some now
        metadata := current.metadata.assign proof.entries }
    let counted := if current.status = .extracted then 0 else 1
    { m with
      targets := m.targets.set targetId next
      objectives :=
        { m.objectives with
          totalTargetsExtracted := m.objectives.totalTargetsExtracted + counted }
      updatedAtMs := now }

end MissionStateMachine

/-! ### The checks of a phase -/

/-- How many nodes have each role. -/
def countRoles (nodes : List NodeStatus) : OrderedMap NodeRole ℕ :=
  nodes.foldl (fun counts n => counts.set n.role ((counts.get? n.role).getD 0 + 1)) ∅

def NodeStatus.isActive (n : NodeStatus) : Bool :=
  n.active && decide (15 < n.batteryPct) && decide (1 / 5 < n.linkQuality)

/-- A target that has been confirmed, assigned or extracted. -/
def TargetRecord.isConfirmed (t : TargetRecord) : Bool :=
  t.status = .confirmed ∨ t.status = .assigned ∨ t.status = .extracted

def TargetRecord.isAssigned (t : TargetRecord) : Bool :=
  t.status = .assigned ∨ t.status = .extracted

def TargetRecord.isExtracted (t : TargetRecord) : Bool := t.status = .extracted

namespace MissionStateMachine

variable (m : MissionStateMachine)

def requiredRolesSatisfied (roleCounts : OrderedMap NodeRole ℕ) : Bool :=
  m.objectives.requiredRoles.entries.all fun p =>
    !decide (((roleCounts.get? p.1).getD 0 : ℚ) < p.2)

/-- The share of the map that has been explored. -/
def coveragePct (now : ℚ) : ℚ := (snapshot m.map now).coveragePct

def quorum : ℚ := max m.objectives.minQuorumNodes 1

def isStale (now : ℚ) (n : NodeStatus) : Bool :=
  decide (now - n.lastSeenMs > m.objectives.maxStaleNodeAgeMs)

def isHealthy (now : ℚ) (n : NodeStatus) : Bool :=
  n.active && decide (20 < n.batteryPct) && decide (3 / 10 < n.linkQuality) &&
    decide (now - n.lastSeenMs ≤ m.objectives.maxStaleNodeAgeMs)

def areObjectivesComplete (now : ℚ) : Bool :=
  let confirmed := m.listTargets.countP TargetRecord.isConfirmed
  let extracted := m.listTargets.countP TargetRecord.isExtracted
  decide ((confirmed : ℚ) ≥ m.objectives.totalTargetsConfirmed ∨
    (extracted : ℚ) ≥ m.objectives.totalTargetsExtracted ∨
    m.objectives.totalTargetsExpected > 0 ∧ (extracted : ℚ) ≥ m.objectives.totalTargetsExpected ∨
    m.coveragePct now ≥ m.objectives.minCoveragePct ∧ confirmed = 0 ∧
      m.objectives.totalTargetsExpected = 0)

/-- The checks of entering a phase and of leaving it. -/
def computeChecks (now : ℚ) (target : MissionPhase) : PhaseEntryExitChecks :=
  let nodes := m.listNodes
  let activeNodes := nodes.filter NodeStatus.isActive
  let healthyNodes := nodes.filter (m.isHealthy now)
  let staleNodes := nodes.filter (m.isStale now)
  let targets := m.listTargets
  let confirmedTargets := targets.filter TargetRecord.isConfirmed
  let assignedTargets := targets.filter TargetRecord.isAssigned
  let extractedTargets := targets.filter TargetRecord.isExtracted
  let mapSnap := snapshot m.map now
  let roleCounts := countRoles nodes
  let count (role : NodeRole) : ℕ := (roleCounts.get? role).getD 0
  let objectives := m.objectives
  match target with
  | .init => ⟨∅, ∅⟩
  | .discovery =>
    ⟨.ofList [("quorumReached", .bool ((activeNodes.length : ℚ) ≥ m.quorum)),
        ("requiredRolesSatisfied", .bool (m.requiredRolesSatisfied roleCounts)),
        -- a search that is rolled back may have covered more
        ("coverageNotTooHigh", .bool (m.phase = .search ∨ mapSnap.coveragePct < 30))],
      .ofList [("discoveryProgress",
        .bool (mapSnap.exploredCount > 0 ∨ (m.nodes.keys.length : ℚ) ≥ m.quorum))]⟩
  | .search =>
    ⟨.ofList [("quorumReached", .bool ((activeNodes.length : ℚ) ≥ m.quorum)),
        ("coverageReached", .bool (mapSnap.coveragePct ≥ objectives.minCoveragePct)),
        ("relayAvailable", .bool (roleCounts.get? .relay).isSome)],
      .ofList [("searchProgress", .bool (mapSnap.searchedCount > 0 ∨ mapSnap.exploredCount > 0))]⟩
  | .triage =>
    ⟨.ofList [("atLeastOneTargetConfirmed", .bool (confirmedTargets.length ≥ 1)),
        ("triageNodesAvailable", .bool (count .triage > 0 ∨ count .rescuer > 0)),
        ("coverageSufficient", .bool (mapSnap.coveragePct ≥ objectives.minCoveragePct * (1 / 2)))],
      .ofList [("triageBacklogCleared", .bool (confirmedTargets.length ≥ 1))]⟩
  | .rescue =>
    ⟨.ofList [("atLeastOneTargetAssigned", .bool (assignedTargets.length ≥ 1)),
        ("rescuersAvailable", .bool (count .rescuer > 0 ∨ count .transport > 0)),
        ("safetyNotCritical", .bool (!objectives.safetyCritical || decide
          (healthyNodes.length ≥ 1)))],
      .ofList [("rescueInProgress", .bool (assignedTargets.length ≥ 1))]⟩
  | .extraction =>
    ⟨.ofList [("rescuerContactMade", .bool (assignedTargets.length ≥ 1)),
        ("extractionTeamAvailable", .bool (count .rescuer > 0)),
        ("targetInContact", .bool (assignedTargets.any fun t =>
          t.position.isSome || decide (t.status = .assigned)))],
      .ofList [("extractionProgress", .bool (extractedTargets.length ≥ 1))]⟩
  | .return =>
    ⟨.ofList [("objectivesComplete", .bool (m.areObjectivesComplete now)),
        ("noOpenExtraction", .bool (assignedTargets.length = 0 ∨
          extractedTargets.length ≥ assignedTargets.length))],
      .ofList [("returnTriggered", .bool true),
        ("safetySnapshot", .obj [("staleNodes", .num (Decimal.ofInt staleNodes.length)),
          ("healthyNodes", .num (Decimal.ofInt healthyNodes.length))])]⟩
  | .complete =>
    ⟨.ofList [("objectivesComplete", .bool (m.areObjectivesComplete now)),
        ("returnReady", .bool (decide (m.phase = .return) || m.areObjectivesComplete now))],
      .ofList [("finalized", .bool true)]⟩
  | .aborted =>
    ⟨.ofList [("manualAbort", .bool true)], .ofList [("finalized", .bool true)]⟩

end MissionStateMachine

/-! ### Judging a request -/

/-- No check of a list is `false`. -/
def noneFalse (checks : OrderedMap Str Json) : Bool :=
  checks.values.all fun v =>
    match v with
    | .bool b => b
    | _ => true

/-- The shortcuts home, next to the phases that Vertex allows. -/
def earlyReturnExtras : MissionPhase → List MissionPhase
  | .search => [.return]
  | .triage => [.return]
  | .rescue => [.return]
  | .extraction => [.return]
  | _ => []

/-- The phases that may follow a phase. -/
def allowedTransitions (current : MissionPhase) : List MissionPhase :=
  if current ∈ terminalPhases then []
  else uniq (validVertexNextPhases current ++ earlyReturnExtras current)

/-- Why a request is refused, if it is; an abort is exempt from the table of phases. -/
def evaluateTransition (current target : MissionPhase) (checks : PhaseEntryExitChecks) :
    Option Str :=
  let move := current.text ++ lit "->" ++ target.text
  if target ≠ .aborted ∧ target ∉ allowedTransitions current then
    some (lit "illegal_transition:" ++ move)
  else if !(noneFalse checks.entry && noneFalse checks.exit) then
    some (lit "checks_failed:" ++ move)
  else none

/-- What an operation reads from outside: the clock and a random id. -/
structure Reading where
  now : ℚ
  uuid : Str

namespace MissionStateMachine

variable (hashText : Str → Str) (m : MissionStateMachine)

/-! ### Moving the phase -/

/-- The record of a request to enter a phase. -/
def transitionRecord (target : MissionPhase) (requestedBy : Str) (reason : TransitionReason)
    (r : Reading) : PhaseTransitionRecord :=
  let checks := m.computeChecks r.now target
  let rejectedReason := evaluateTransition m.phase target checks
  { transitionId := lit "tx-" ++ r.uuid
    missionId := m.missionId
    fromPhase := m.phase
    toPhase := target
    reason
    requestedBy
    createdAtMs := r.now
    version := m.phaseVersion + 1
    entryChecks := checks.entry
    exitChecks := checks.exit
    accepted := rejectedReason.isNone
    rejectedReason
    proofHash := hashText (stableStringify (.obj
      [("missionId", .str m.missionId), ("from", .str m.phase.text), ("to", .str target.text),
        ("reason", .str reason.text),
        ("checks", .obj [("entry", .obj checks.entry.entries),
          ("exit", .obj checks.exit.entries)]),
        ("requestedBy", .str requestedBy),
        ("version", .num (Decimal.ofInt (m.phaseVersion + 1)))])) }

/-- Keeps a record, and follows it if it is accepted. -/
def follow (record : PhaseTransitionRecord) (now : ℚ) : MissionStateMachine :=
  let recorded : MissionStateMachine :=
    { m with
      transitions := m.transitions ++ [record]
      latestTransition := some record
      updatedAtMs := now }
  if record.accepted then
    { recorded with phase := record.toPhase, phaseVersion := m.phaseVersion + 1 }
  else recorded

/-- A request to enter a phase. -/
def transition (target : MissionPhase) (requestedBy : Str) (reason : TransitionReason)
    (r : Reading) : MissionStateMachine × PhaseTransitionRecord :=
  let record := m.transitionRecord hashText target requestedBy reason r
  (m.follow record r.now, record)

/-- Aborts the mission, whatever its phase is. -/
def forceAbort (requestedBy : Str) (reason : TransitionReason) (details : OrderedMap Str Json)
    (r : Reading) : MissionStateMachine × PhaseTransitionRecord :=
  let record : PhaseTransitionRecord :=
    { transitionId := lit "abort-" ++ r.uuid
      missionId := m.missionId
      fromPhase := m.phase
      toPhase := .aborted
      reason
      requestedBy
      createdAtMs := r.now
      version := m.phaseVersion + 1
      entryChecks := (OrderedMap.ofList [(lit "forced", Json.bool true)]).assign details.entries
      exitChecks := ∅
      accepted := true
      rejectedReason := none
      proofHash := hashText (stableStringify (.obj
        [("missionId", .str m.missionId), ("from", .str m.phase.text), ("to", .str "aborted"),
          ("reason", .str reason.text), ("details", .obj details.entries),
          ("requestedBy", .str requestedBy)])) }
  ({ m with
      transitions := m.transitions ++ [record]
      latestTransition := some record
      phase := .aborted
      phaseVersion := m.phaseVersion + 1
      updatedAtMs := r.now }, record)

/-- The phase that the machine would enter next. -/
def suggestNextPhase (now : ℚ) : Option MissionPhase :=
  let when (p : Bool) (next : MissionPhase) : Option MissionPhase := if p then some next else none
  let nodes := m.listNodes
  let covered := decide (m.coveragePct now ≥ m.objectives.minCoveragePct)
  let confirmed := m.listTargets.filter TargetRecord.isConfirmed
  let assigned := m.listTargets.filter TargetRecord.isAssigned
  match m.phase with
  | .init =>
    when (decide (((nodes.filter NodeStatus.isActive).length : ℚ) ≥ m.quorum) &&
      m.requiredRolesSatisfied (countRoles nodes)) .discovery
  | .discovery =>
    when (decide (((nodes.filter NodeStatus.active).length : ℚ) ≥ m.quorum) && covered) .search
  | .search =>
    if confirmed.length ≥ 1 then some .triage
    else when (covered && decide (confirmed.length = 0)) .return
  | .triage => when (assigned.length ≥ 1) .rescue
  | .rescue => when (assigned.any fun t => t.position.isSome) .extraction
  | .extraction => when (m.areObjectivesComplete now || !m.objectives.safetyCritical) .return
  | .return => when (m.areObjectivesComplete now) .complete
  | .complete | .aborted => none

/-- Why the machine enters a phase on its own. -/
def reasonFor : MissionPhase → TransitionReason
  | .discovery => .quorumReached
  | .search => .coverageReached
  | .triage => .targetConfirmed
  | .rescue => .targetAssigned
  | .extraction => .contactMade
  | .return => .objectiveComplete
  | .complete => .objectiveComplete
  | .aborted => .manualAbort
  | .init => .boot

/-- Requests the next phase, if there is one. -/
def advanceIfReady (requestedBy : Str) (r : Reading) :
    MissionStateMachine × Option PhaseTransitionRecord :=
  match m.suggestNextPhase r.now with
  | none => (m, none)
  | some next =>
    if next = m.phase then (m, none)
    else
      let (m', record) := m.transition hashText next requestedBy (reasonFor next) r
      (m', if record.accepted then some record else none)

/-- Requests a phase for an operator. -/
def enforceRequestedPhase (target : MissionPhase) (requestedBy : Str) (r : Reading) :
    MissionStateMachine × PhaseTransitionRecord :=
  m.transition hashText target requestedBy
    (if m.phase = .aborted then .manualAbort else .operatorOverride) r

/-- Is a node stale, or hardly anything covered? -/
def Unsafe (now : ℚ) : Prop :=
  0 < m.listNodes.countP (m.isStale now) ∨
    m.coveragePct now < m.objectives.minCoveragePct * (1 / 4)

instance (now : ℚ) : Decidable (m.Unsafe now) := inferInstanceAs (Decidable (_ ∨ _))

/-- Aborts a mission that is unsafe. -/
def abortIfUnsafe (requestedBy : Str) (reason : TransitionReason) (r : Reading) :
    MissionStateMachine × Option PhaseTransitionRecord :=
  if m.Unsafe r.now then
    let details : OrderedMap Str Json := .ofList
      [("staleNodes", .num (Decimal.ofInt (m.listNodes.countP (m.isStale r.now)))),
        ("coveragePct", .num (.mk' ⌊m.coveragePct r.now * 100⌋ (-2)))]
    let (m', record) := m.forceAbort hashText requestedBy reason details r
    (m', some record)
  else (m, none)

end MissionStateMachine

/-! ### All operations -/

/-- The operations of the machine and of its policy; others may write to the shared map in
between. -/
inductive MachineOp
  | registerNode (node : NodeStatus)
  | updateNode (nodeId : Str) (patch : NodePatch)
  | removeNode (nodeId : Str)
  | setNodeLocation (nodeId : Str) (location : XYPoint)
  | upsertTarget (target : TargetRecord)
  | confirmTarget (targetId nodeId : Str) (proof : OrderedMap Str Json)
  | assignTarget (targetId nodeId reason : Str)
  | extractTarget (targetId nodeId : Str) (proof : OrderedMap Str Json)
  | writeMap (map : SharedMap)
  | transition (target : MissionPhase) (requestedBy : Str) (reason : TransitionReason)
  | forceAbort (requestedBy : Str) (reason : TransitionReason) (details : OrderedMap Str Json)
  | advanceIfReady (requestedBy : Str)
  | enforceRequestedPhase (target : MissionPhase) (requestedBy : Str)
  | abortIfUnsafe (requestedBy : Str) (reason : TransitionReason)

/-- The machine after an operation. -/
def MachineOp.apply (hashText : Str → Str) (m : MissionStateMachine) (op : MachineOp)
    (r : Reading) : MissionStateMachine :=
  match op with
  | registerNode node => m.registerNode node r.now
  | updateNode nodeId patch => m.updateNode nodeId patch r.now
  | removeNode nodeId => m.removeNode nodeId r.now
  | setNodeLocation nodeId location => m.setNodeLocation nodeId location r.now
  | upsertTarget target => m.upsertTarget target r.now
  | confirmTarget targetId nodeId proof => m.confirmTarget targetId nodeId proof r.now
  | assignTarget targetId nodeId reason => m.assignTarget targetId nodeId reason r.now
  | extractTarget targetId nodeId proof => m.extractTarget targetId nodeId proof r.now
  | writeMap map => { m with map }
  | transition target requestedBy reason => (m.transition hashText target requestedBy reason r).1
  | forceAbort requestedBy reason details => (m.forceAbort hashText requestedBy reason details r).1
  | advanceIfReady requestedBy => (m.advanceIfReady hashText requestedBy r).1
  | enforceRequestedPhase target requestedBy =>
    (m.enforceRequestedPhase hashText target requestedBy r).1
  | abortIfUnsafe requestedBy reason => (m.abortIfUnsafe hashText requestedBy reason r).1

end Tashi
