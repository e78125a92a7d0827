/-
**The read model of a mission** (`missionStateFromMachine` of
`shared/tashi-mission-map-machine.ts`).

The read model is put together from the nodes, the targets and the map of the machine.  Its
consensus pointer takes the hash of the latest record, and a request is recorded before it is known
whether it is accepted.

Main definitions:

* `Tashi.MissionState`, `Tashi.missionStateFromMachine` — the read model;
* `Tashi.requestText`, `Tashi.abortText` — the texts whose hashes the records carry;
* `Tashi.Recorded`, `Tashi.Records` — what an operation adds to the records, and what holds of all
  of them;
* `Tashi.NamesLastAccepted` — the pointer carries the hash of the last accepted record;
* `Tashi.Repeats` — a request asks for what the latest record asked for.

Main results:

* `Tashi.readModel_of_refused` — a refused request changes the hash of the pointer and nothing else;
* `Tashi.refused_moves_pointer` — **the hash stays only if the request repeats the latest record,
  and it never names the last accepted one**;
* `Tashi.names_last_accepted_iff` — over every run the pointer names the last accepted record
  exactly if no request is refused;
* `Tashi.refused_search_moves_pointer` — a refused request that moves the pointer.
-/
import Endendend.Tashi.AbsorbingPhases
import Endendend.Vertex.Replay
import Endendend.Vertex.TamperEvidence

set_option relaxedAutoImplicit false
set_option autoImplicit false

namespace Tashi

open Js Vertex

/-! ### The read model -/

/-- What a node does, as the roster tells it. -/
inductive MissionNodeRole
  | explorer
  | relay
  | carrier
  | medic
  | observer
  deriving DecidableEq

def nodeRoleToMissionNodeRole : NodeRole → MissionNodeRole
  | .relay => .relay
  | .transport => .carrier
  | .triage => .medic
  | .rescuer => .medic
  | .emergency => .medic
  | .sensor => .observer
  | .command => .observer
  | .standby => .observer
  | .explorer => .explorer

structure RosterEntry where
  nodeId : Str
  role : MissionNodeRole
  joinedAtMs : ℚ
  capabilities : List Str
  deriving DecidableEq

structure SarTarget where
  targetId : Str
  discoveredBy : Option Str
  confirmedByVertex : Bool
  notes : Option Str
  deriving DecidableEq

structure MapSummary where
  cellsKnown : ℕ
  lastMergedVersion : ℚ
  deriving DecidableEq

/-- The read model. -/
structure MissionState where
  missionId : Str
  phase : MissionPhase
  createdAtMs : ℚ
  updatedAtMs : ℚ
  roster : OrderedMap Str RosterEntry
  targets : OrderedMap Str SarTarget
  assignments : OrderedMap Str TaskAssignment
  mapSummary : MapSummary
  alerts : List SafetyAlert
  consensusPointer : ConsensusPointer
  recoveryCheckpoints : List Str
  connectivityMode : Json
  completedTaskIds : List Str

/-- A node in the roster. -/
def NodeStatus.toRoster (n : NodeStatus) : RosterEntry where
  nodeId := n.nodeId
  role := nodeRoleToMissionNodeRole n.role
  joinedAtMs := n.lastSeenMs
  capabilities := n.capabilities

/-- A target of the read model. -/
def TargetRecord.toSar (t : TargetRecord) : SarTarget where
  targetId := t.targetId
  discoveredBy := t.confirmedBy.head?
  confirmedByVertex := t.status ≠ .new ∧ t.status ≠ .lost
  notes :=
    match t.metadata.get? "note" with
    | some (.str note) => some note
    | _ => none

/-- The read model of a machine; `t` is the clock, or the time it is given. -/
def missionStateFromMachine (m : MissionStateMachine) (t : ℚ) : MissionState :=
  let mapS := snapshot m.map t
  { missionId := m.missionId
    phase := m.phase
    createdAtMs := t
    updatedAtMs := t
    roster := m.listNodes.foldl (fun roster n => roster.set n.nodeId n.toRoster) ∅
    targets := m.listTargets.foldl (fun targets tgt => targets.set tgt.targetId tgt.toSar) ∅
    assignments := ∅
    mapSummary := ⟨mapS.cells.keys.length, mapS.version⟩
    alerts := []
    consensusPointer :=
      { sequence := m.phaseVersion
        lastEventHash := (m.latestTransition.map PhaseTransitionRecord.proofHash).getD genesis }
    recoveryCheckpoints := []
    connectivityMode := .str "normal"
    completedTaskIds := [] }

/-- **A refused request changes the hash of the pointer and nothing else.** -/
theorem readModel_of_refused {hashText : Str → Str} {m : MissionStateMachine}
    {target : MissionPhase} {requestedBy : Str} {reason : TransitionReason} {r : Reading}
    (h : (m.transition hashText target requestedBy reason r).2.accepted = false) (t : ℚ) :
    missionStateFromMachine (m.transition hashText target requestedBy reason r).1 t =
      { missionStateFromMachine m t with
        consensusPointer :=
          { sequence := m.phaseVersion
            lastEventHash :=
              (m.transition hashText target requestedBy reason r).2.proofHash } } := by
  have hfollow : (m.transition hashText target requestedBy reason r).1 =
      { m with
        transitions := m.transitions ++ [(m.transition hashText target requestedBy reason r).2]
        latestTransition := some (m.transition hashText target requestedBy reason r).2
        updatedAtMs := r.now } := by
    have hrefused : ¬ (m.transition hashText target requestedBy reason r).2.accepted = true := by
      rw [h]
      exact Bool.false_ne_true
    exact if_neg hrefused
  rw [hfollow]
  rfl

/-! ### The hashed texts -/

/-- The text of the checks of a record. -/
def checksJson (checks : PhaseEntryExitChecks) : Json :=
  .obj [("entry", .obj checks.entry.entries), ("exit", .obj checks.exit.entries)]

/-- The text whose hash a request carries. -/
def requestText (missionId : Str) (fromPhase toPhase : MissionPhase) (reason : TransitionReason)
    (checks : PhaseEntryExitChecks) (requestedBy : Str) (version : ℕ) : Str :=
  stableStringify (.obj
    [("missionId", .str missionId), ("from", .str fromPhase.text), ("to", .str toPhase.text),
      ("reason", .str reason.text), ("checks", checksJson checks),
      ("requestedBy", .str requestedBy), ("version", .num (Decimal.ofInt version))])

/-- The text whose hash a forced abort carries. -/
def abortText (missionId : Str) (fromPhase : MissionPhase) (reason : TransitionReason)
    (details : OrderedMap Str Json) (requestedBy : Str) : Str :=
  stableStringify (.obj
    [("missionId", .str missionId), ("from", .str fromPhase.text), ("to", .str "aborted"),
      ("reason", .str reason.text), ("details", .obj details.entries),
      ("requestedBy", .str requestedBy)])

/-- The rebuilt value of a request. -/
theorem helper_request (a b c d f : Str) (checks : Json) (v : Decimal) :
    helper (.obj [("missionId", .str a), ("from", .str b), ("to", .str c), ("reason", .str d),
        ("checks", checks), ("requestedBy", .str f), ("version", .num v)]) =
      .obj [("checks", helper checks), ("from", .str b), ("missionId", .str a), ("reason", .str d),
        ("requestedBy", .str f), ("to", .str c), ("version", .num v)] :=
  rfl

/-- The rebuilt value of an abort. -/
theorem helper_abort (a b c d f : Str) (details : Json) :
    helper (.obj [("missionId", .str a), ("from", .str b), ("to", .str c), ("reason", .str d),
        ("details", details), ("requestedBy", .str f)]) =
      .obj [("details", helper details), ("from", .str b), ("missionId", .str a),
        ("reason", .str d), ("requestedBy", .str f), ("to", .str c)] :=
  rfl

theorem TransitionReason.text_injective : Function.Injective TransitionReason.text := by
  intro r r' h
  cases r <;> cases r' <;> first | rfl | exact absurd h (by decide)

theorem phase_text_injective : Function.Injective MissionPhase.text := by
  intro p q h
  rw [← Option.some_inj, ← MissionPhase.ofText_text p, h, MissionPhase.ofText_text q]

/-- **The text of a request determines it**, up to the order of the checks. -/
theorem requestText_inj {missionId : Str} {p q p' q' : MissionPhase}
    {reason reason' : TransitionReason} {checks checks' : PhaseEntryExitChecks}
    {requestedBy requestedBy' : Str} {version version' : ℕ} :
    requestText missionId p q reason checks requestedBy version =
        requestText missionId p' q' reason' checks' requestedBy' version' ↔
      p = p' ∧ q = q' ∧ reason = reason' ∧
        stableStringify (checksJson checks) = stableStringify (checksJson checks') ∧
        requestedBy = requestedBy' ∧ version = version' := by
  constructor
  · intro h
    have hobj := helper_eq_of_stableStringify_eq h
    rw [helper_request, helper_request] at hobj
    simp only [Json.obj.injEq, List.cons.injEq, Prod.mk.injEq, true_and, and_true, Json.str.injEq,
      Json.num.injEq] at hobj
    obtain ⟨hchecks, hp, hreason, hby, hq, hversion⟩ := hobj
    exact ⟨phase_text_injective hp, phase_text_injective hq,
      TransitionReason.text_injective hreason,
      congrArg Json.stringify hchecks, hby, Int.ofNat.inj (Decimal.ofInt_injective hversion)⟩
  · rintro ⟨rfl, rfl, rfl, hchecks, rfl, rfl⟩
    unfold requestText stableStringify
    rw [helper_request, helper_request, helper_eq_of_stableStringify_eq hchecks]

/-- A request and an abort are told apart. -/
theorem requestText_ne_abortText {missionId missionId' : Str} {p q p' : MissionPhase}
    {reason reason' : TransitionReason} {checks : PhaseEntryExitChecks}
    {details : OrderedMap Str Json} {requestedBy requestedBy' : Str} {version : ℕ} :
    requestText missionId p q reason checks requestedBy version ≠
      abortText missionId' p' reason' details requestedBy' := by
  intro h
  have hobj := helper_eq_of_stableStringify_eq h
  rw [helper_request, helper_abort] at hobj
  have hkeys : lit "checks" = lit "details" :=
    congrArg Prod.fst (List.cons.inj (Json.obj.inj hobj)).1
  exact absurd hkeys (by decide)

/-! ### The records -/

/-- A record carries the hash of its request, or that of a forced abort. -/
def Hashed (hashText : Str → Str) (missionId : Str) (record : PhaseTransitionRecord) : Prop :=
  record.proofHash = hashText (requestText missionId record.fromPhase record.toPhase record.reason
      ⟨record.entryChecks, record.exitChecks⟩ record.requestedBy record.version) ∨
    record.accepted = true ∧ ∃ details, record.proofHash =
      hashText (abortText missionId record.fromPhase record.reason details record.requestedBy)

/-- An operation leaves the records alone. -/
structure SameRecords (m m' : MissionStateMachine) : Prop where
  missionId : m'.missionId = m.missionId
  phaseVersion : m'.phaseVersion = m.phaseVersion
  transitions : m'.transitions = m.transitions
  latestTransition : m'.latestTransition = m.latestTransition

/-- **What an operation adds to the records**: one record, which is the latest one. -/
structure Recorded (hashText : Str → Str) (m m' : MissionStateMachine)
    (record : PhaseTransitionRecord) : Prop where
  missionId : m'.missionId = m.missionId
  phaseVersion :
    m'.phaseVersion = if record.accepted then m.phaseVersion + 1 else m.phaseVersion
  transitions : m'.transitions = m.transitions ++ [record]
  latestTransition : m'.latestTransition = some record
  hashed : Hashed hashText m.missionId record
  version : record.version = m.phaseVersion + 1

theorem SameRecords.refl (m : MissionStateMachine) : SameRecords m m := ⟨rfl, rfl, rfl, rfl⟩

theorem SameHead.sameRecords {m m' : MissionStateMachine} (h : SameHead m m') :
    SameRecords m m' :=
  ⟨h.missionId, h.phaseVersion, h.transitions, h.latestTransition⟩

section Operations

variable (hashText : Str → Str) (m : MissionStateMachine) (r : Reading)

theorem transition_recorded (target : MissionPhase) (requestedBy : Str)
    (reason : TransitionReason) :
    Recorded hashText m (m.transition hashText target requestedBy reason r).1
      (m.transition hashText target requestedBy reason r).2 := by
  have hhashed : Hashed hashText m.missionId
      (m.transition hashText target requestedBy reason r).2 := Or.inl rfl
  simp only [MissionStateMachine.transition, MissionStateMachine.follow] at hhashed ⊢
  split
  · next hacc => exact ⟨rfl, (if_pos hacc).symm, rfl, rfl, hhashed, rfl⟩
  · next hacc => exact ⟨rfl, (if_neg hacc).symm, rfl, rfl, hhashed, rfl⟩

theorem forceAbort_recorded (requestedBy : Str) (reason : TransitionReason)
    (details : OrderedMap Str Json) :
    Recorded hashText m (m.forceAbort hashText requestedBy reason details r).1
      (m.forceAbort hashText requestedBy reason details r).2 :=
  ⟨rfl, rfl, rfl, rfl, Or.inr ⟨rfl, details, rfl⟩, rfl⟩

/-- The phase that an operation requests. -/
def MachineOp.requested : MachineOp → Option MissionPhase
  | .transition target _ _ => some target
  | .advanceIfReady _ => (m.suggestNextPhase r.now).filter fun next => next ≠ m.phase
  | .enforceRequestedPhase target _ => some target
  | _ => none

/-- The phase may follow and its checks pass. -/
def MissionStateMachine.Grants (now : ℚ) (target : MissionPhase) : Prop :=
  (target = .aborted ∨ target ∈ allowedTransitions m.phase) ∧ m.ChecksPass now target

instance (now : ℚ) (target : MissionPhase) : Decidable (m.Grants now target) :=
  inferInstanceAs (Decidable ((_ ∨ _) ∧ _))

/-- **Every operation leaves the records alone or adds one record**, which is accepted unless it is
of a request that is not granted. -/
theorem apply_recorded (op : MachineOp) :
    SameRecords m (op.apply hashText m r) ∧ op.requested m r = none ∨
      ∃ record, Recorded hashText m (op.apply hashText m r) record ∧
        (record.accepted = true ↔ ∀ target ∈ op.requested m r, m.Grants r.now target) := by
  cases op with
  | transition target requestedBy reason =>
      refine Or.inr ⟨_, transition_recorded hashText m r target requestedBy reason, ?_⟩
      simp only [accepted_iff, MachineOp.requested, Option.mem_some_iff, forall_eq',
        MissionStateMachine.Grants]
  | forceAbort requestedBy reason details =>
      refine Or.inr ⟨_, forceAbort_recorded hashText m r requestedBy reason details, ?_⟩
      exact iff_of_true rfl fun target h => absurd h (Option.not_mem_none target)
  | advanceIfReady requestedBy =>
      simp only [MachineOp.apply, MachineOp.requested, MissionStateMachine.advanceIfReady]
      cases hnext : m.suggestNextPhase r.now with
      | none => exact Or.inl ⟨.refl m, rfl⟩
      | some next =>
          by_cases hsame : next = m.phase
          · simp only [hsame, if_true]
            exact Or.inl ⟨.refl m, by simp⟩
          · simp only [if_neg hsame]
            refine Or.inr ⟨_, transition_recorded hashText m r next requestedBy
              (MissionStateMachine.reasonFor next), ?_⟩
            simp [accepted_iff, hsame, MissionStateMachine.Grants]
  | enforceRequestedPhase target requestedBy =>
      refine Or.inr ⟨_, transition_recorded hashText m r target requestedBy _, ?_⟩
      simp only [accepted_iff, MachineOp.requested, Option.mem_some_iff, forall_eq',
        MissionStateMachine.Grants]
  | abortIfUnsafe requestedBy reason =>
      simp only [MachineOp.apply, MissionStateMachine.abortIfUnsafe]
      split
      · refine Or.inr ⟨_, forceAbort_recorded hashText m r requestedBy reason _, ?_⟩
        exact iff_of_true rfl fun target h => absurd h (Option.not_mem_none target)
      · exact Or.inl ⟨.refl m, rfl⟩
  | _ => exact Or.inl ⟨(apply_sameHead hashText m r rfl).sameRecords, rfl⟩

end Operations

/-- **What holds of all records**: the latest is the last one, each carries its hash, and those that
were accepted have counted as versions. -/
structure Records (hashText : Str → Str) (m : MissionStateMachine) : Prop where
  latest : m.latestTransition = m.transitions.getLast?
  hashed : ∀ record ∈ m.transitions, Hashed hashText m.missionId record
  version : ∀ record ∈ m.transitions, record.accepted = true → record.version ≤ m.phaseVersion

/-- The last accepted record. -/
def lastAccepted (m : MissionStateMachine) : Option PhaseTransitionRecord :=
  (m.transitions.filter PhaseTransitionRecord.accepted).getLast?

/-- **The pointer names the last accepted record**: it carries its hash, or that of the empty state
if there is none. -/
def NamesLastAccepted (m : MissionStateMachine) : Prop :=
  ∀ t, (missionStateFromMachine m t).consensusPointer.lastEventHash =
    ((lastAccepted m).map PhaseTransitionRecord.proofHash).getD genesis

section Steps

variable {hashText : Str → Str} {m m' : MissionStateMachine} {record : PhaseTransitionRecord}

theorem SameRecords.records (h : SameRecords m m') (hm : Records hashText m) :
    Records hashText m' := by
  refine ⟨?_, ?_, ?_⟩
  · rw [h.latestTransition, h.transitions, hm.latest]
  · rw [h.transitions, h.missionId]
    exact hm.hashed
  · rw [h.transitions, h.phaseVersion]
    exact hm.version

theorem Recorded.records (h : Recorded hashText m m' record) (hm : Records hashText m) :
    Records hashText m' := by
  refine ⟨?_, ?_, ?_⟩
  · rw [h.latestTransition, h.transitions, List.getLast?_concat]
  · rw [h.transitions, h.missionId, List.forall_mem_append, List.forall_mem_singleton]
    exact ⟨hm.hashed, h.hashed⟩
  · rw [h.transitions, h.phaseVersion, List.forall_mem_append, List.forall_mem_singleton]
    refine ⟨fun old hold hacc => le_trans (hm.version old hold hacc) ?_, fun hacc => ?_⟩
    · split
      · exact Nat.le_succ _
      · exact le_refl _
    · rw [if_pos hacc, h.version]

theorem SameRecords.names (h : SameRecords m m') :
    NamesLastAccepted m' ↔ NamesLastAccepted m := by
  simp only [NamesLastAccepted, missionStateFromMachine, lastAccepted, h.latestTransition,
    h.transitions]

/-- An accepted record is named at once. -/
theorem Recorded.names_of_accepted (h : Recorded hashText m m' record)
    (hacc : record.accepted = true) : NamesLastAccepted m' := by
  intro t
  have hlast : lastAccepted m' = some record := by
    rw [lastAccepted, h.transitions, List.filter_append, List.filter_singleton, hacc]
    exact List.getLast?_concat
  rw [hlast]
  simp only [missionStateFromMachine, h.latestTransition]

end Steps

/-- A step keeps the facts about the records. -/
theorem Records.step {hashText : Str → Str} {m : MissionStateMachine} (hm : Records hashText m)
    (l : MachineOp × Reading) : Records hashText (l.1.apply hashText m l.2) := by
  rcases apply_recorded hashText m l.2 l.1 with ⟨hsame, -⟩ | ⟨record, hrecorded, -⟩
  · exact hsame.records hm
  · exact hrecorded.records hm

theorem records_new (hashText : Str → Str) (missionId : Str) (map : SharedMap)
    (objectives : MissionObjectives) (now : ℚ) :
    Records hashText (.new missionId map objectives now) :=
  ⟨rfl, fun _ h => absurd h List.not_mem_nil, fun _ h => absurd h List.not_mem_nil⟩

theorem names_new (missionId : Str) (map : SharedMap) (objectives : MissionObjectives) (now : ℚ) :
    NamesLastAccepted (.new missionId map objectives now) := fun _ => rfl

/-! ### Refused requests -/

section Refused

variable {digest : Str → List UInt8} {m m' : MissionStateMachine}
  {record : PhaseTransitionRecord}

/-- A refused record is never named for the last accepted one: its version is above the versions
that have been counted. -/
theorem Recorded.not_names_of_refused (hinj : Function.Injective (sha256Hex digest))
    (h : Recorded (sha256Hex digest) m m' record) (hm : Records (sha256Hex digest) m)
    (hrefused : ¬ record.accepted = true) : ¬ NamesLastAccepted m' := by
  intro hnames
  have hlast : lastAccepted m' = lastAccepted m := by
    have hnone : [record].filter PhaseTransitionRecord.accepted = [] :=
      List.filter_cons_of_neg hrefused
    rw [lastAccepted, h.transitions, List.filter_append, hnone, List.append_nil, lastAccepted]
  have hhash := hnames 0
  rw [hlast] at hhash
  simp only [missionStateFromMachine, h.latestTransition, Option.map_some, Option.getD_some]
    at hhash
  obtain hrequest | ⟨hacc, -⟩ := h.hashed
  · rw [hrequest] at hhash
    cases hold : lastAccepted m with
    | none =>
        rw [hold] at hhash
        exact sha256Hex_ne_genesis _ _ hhash
    | some old =>
        rw [hold] at hhash
        simp only [Option.map_some, Option.getD_some] at hhash
        obtain ⟨hmem, hacc⟩ := List.mem_filter.1 (List.mem_of_getLast? hold)
        rcases hm.hashed old hmem with hreq | ⟨-, details, habort⟩
        · rw [hreq] at hhash
          obtain ⟨-, -, -, -, -, hversion⟩ := requestText_inj.1 (hinj hhash)
          have hle := hm.version old hmem hacc
          rw [← hversion, h.version] at hle
          exact absurd hle (Nat.not_succ_le_self _)
        · rw [habort] at hhash
          exact requestText_ne_abortText (hinj hhash)
  · exact hrefused hacc

/-- **A request asks for what the latest record asked for**: the same phases, reason, node, version
and checks. -/
def Repeats (m : MissionStateMachine) (target : MissionPhase) (requestedBy : Str)
    (reason : TransitionReason) (now : ℚ) : Prop :=
  ∃ record ∈ m.latestTransition, record.fromPhase = m.phase ∧ record.toPhase = target ∧
    record.reason = reason ∧ record.requestedBy = requestedBy ∧
    record.version = m.phaseVersion + 1 ∧
    stableStringify (checksJson ⟨record.entryChecks, record.exitChecks⟩) =
      stableStringify (checksJson (m.computeChecks now target))

/-- The hash of a request is the one that the pointer carries exactly if the request repeats the
latest record. -/
theorem pointer_eq_iff_repeats (hinj : Function.Injective (sha256Hex digest))
    (hm : Records (sha256Hex digest) m) (target : MissionPhase) (requestedBy : Str)
    (reason : TransitionReason) (r : Reading) (t : ℚ) :
    (m.transition (sha256Hex digest) target requestedBy reason r).2.proofHash =
        (missionStateFromMachine m t).consensusPointer.lastEventHash ↔
      Repeats m target requestedBy reason r.now := by
  have hproof : (m.transition (sha256Hex digest) target requestedBy reason r).2.proofHash =
      sha256Hex digest (requestText m.missionId m.phase target reason
        (m.computeChecks r.now target) requestedBy (m.phaseVersion + 1)) := rfl
  rw [hproof]
  simp only [missionStateFromMachine, Repeats]
  cases hlatest : m.latestTransition with
  | none =>
      refine iff_of_false (sha256Hex_ne_genesis _ _) ?_
      rintro ⟨record, hrecord, -⟩
      exact absurd hrecord (Option.not_mem_none record)
  | some record =>
      have hmem : record ∈ m.transitions := List.mem_of_getLast? (hm.latest ▸ hlatest)
      simp only [Option.map_some, Option.getD_some, Option.mem_some_iff, exists_eq_left']
      constructor
      · intro hhash
        rcases hm.hashed record hmem with hreq | ⟨-, details, habort⟩
        · rw [hreq] at hhash
          obtain ⟨hp, hq, hreason, hchecks, hby, hversion⟩ := requestText_inj.1 (hinj hhash)
          exact ⟨hp.symm, hq.symm, hreason.symm, hby.symm, hversion.symm, hchecks.symm⟩
        · rw [habort] at hhash
          exact absurd (hinj hhash) requestText_ne_abortText
      · rintro ⟨hp, hq, hreason, hby, hversion, hchecks⟩
        rcases hm.hashed record hmem with hreq | ⟨hacc, -⟩
        · rw [hreq]
          refine congrArg _ (requestText_inj.2 ?_)
          exact ⟨hp.symm, hq.symm, hreason.symm, hchecks.symm, hby.symm, hversion.symm⟩
        · -- an accepted record has counted as a version
          have hle := hm.version record hmem hacc
          rw [hversion] at hle
          exact absurd hle (Nat.not_succ_le_self _)

end Refused

/-- The read model keeps its phase, its roster, its targets and its pointer. -/
structure ReadModelKept (before after : MissionState) : Prop where
  phase : after.phase = before.phase
  roster : after.roster = before.roster
  targets : after.targets = before.targets
  consensusPointer : after.consensusPointer = before.consensusPointer

/-- A refused request keeps the read model exactly if it repeats the latest record. -/
theorem kept_iff_repeats {digest : Str → List UInt8} {m : MissionStateMachine}
    (hinj : Function.Injective (sha256Hex digest)) (hm : Records (sha256Hex digest) m)
    {target : MissionPhase} {requestedBy : Str} {reason : TransitionReason} {r : Reading}
    (hrefused : (m.transition (sha256Hex digest) target requestedBy reason r).2.accepted = false)
    (t : ℚ) :
    ReadModelKept (missionStateFromMachine m t)
        (missionStateFromMachine
          (m.transition (sha256Hex digest) target requestedBy reason r).1 t) ↔
      Repeats m target requestedBy reason r.now := by
  rw [readModel_of_refused hrefused, ← pointer_eq_iff_repeats hinj hm target requestedBy reason r t]
  constructor
  · exact fun h => congrArg ConsensusPointer.lastEventHash h.consensusPointer
  · intro h
    refine ⟨rfl, rfl, rfl, ?_⟩
    rw [h]
    rfl

/-- **A refused request moves the pointer**: in every machine that a run reaches the read model is
kept only if the request repeats the latest record, and afterwards the pointer never names the last
accepted record. -/
theorem refused_moves_pointer {digest : Str → List UInt8}
    (hinj : Function.Injective (sha256Hex digest)) {missionId : Str} {map : SharedMap}
    {objectives : MissionObjectives} {now : ℚ} {ls : List (MachineOp × Reading)}
    {m : MissionStateMachine}
    (h : Runs.run (machineStep (sha256Hex digest)) (.new missionId map objectives now) ls = some m)
    {target : MissionPhase} {requestedBy : Str} {reason : TransitionReason} {r : Reading}
    (hrefused : (m.transition (sha256Hex digest) target requestedBy reason r).2.accepted = false)
    (t : ℚ) :
    (ReadModelKept (missionStateFromMachine m t)
        (missionStateFromMachine
          (m.transition (sha256Hex digest) target requestedBy reason r).1 t) ↔
      Repeats m target requestedBy reason r.now) ∧
    ¬ NamesLastAccepted (m.transition (sha256Hex digest) target requestedBy reason r).1 := by
  have hm : Records (sha256Hex digest) m :=
    Runs.invariant_of_run (I := Records (sha256Hex digest))
      (fun _ l _ hI hs => Option.some.inj hs ▸ hI.step l) (records_new _ _ _ _ _) h
  refine ⟨kept_iff_repeats hinj hm hrefused t, ?_⟩
  refine (transition_recorded _ m r target requestedBy reason).not_names_of_refused hinj hm ?_
  rw [hrefused]
  exact Bool.false_ne_true

/-- A search is requested from the start, with a digest that keeps its input. -/
theorem refused_moves_pointer_search :
    (ReadModelKept (missionStateFromMachine (.new "m" (.new "map") noObjectives 0) 5)
        (missionStateFromMachine
          ((MissionStateMachine.new "m" (.new "map") noObjectives 0).transition
            (sha256Hex fun s => s.flatMap unitBytes) .search "n1" .coverageReached ⟨1, "id"⟩).1 5) ↔
      Repeats (.new "m" (.new "map") noObjectives 0) .search "n1" .coverageReached 1) ∧
    ¬ NamesLastAccepted
      ((MissionStateMachine.new "m" (.new "map") noObjectives 0).transition
        (sha256Hex fun s => s.flatMap unitBytes) .search "n1" .coverageReached ⟨1, "id"⟩).1 :=
  @refused_moves_pointer _ sha256Hex_unitBytes_injective _ _ _ _ [] _ rfl _ _ _ _
    (by decide +kernel) 5

/-- **A refused request that moves the pointer**: a mission at its start is asked to search. -/
theorem refused_search_moves_pointer :
    ¬ ∀ (ls : List (MachineOp × Reading)) (m : MissionStateMachine),
      Runs.run (machineStep (sha256Hex fun s => s.flatMap unitBytes))
          (.new "m" (.new "map") noObjectives 0) ls = some m →
        ∀ (target : MissionPhase) (requestedBy : Str) (reason : TransitionReason) (r : Reading)
          (t : ℚ),
          (m.transition (sha256Hex fun s => s.flatMap unitBytes) target requestedBy reason
              r).2.accepted = false →
            ReadModelKept (missionStateFromMachine m t)
              (missionStateFromMachine
                (m.transition (sha256Hex fun s => s.flatMap unitBytes) target requestedBy reason
                  r).1 t) := by
  intro h
  have hrefused : ((MissionStateMachine.new "m" (.new "map") noObjectives 0).transition
      (sha256Hex fun s => s.flatMap unitBytes) .search "n1" .coverageReached
        ⟨1, "id"⟩).2.accepted = false := by decide +kernel
  have hkept := (h [] _ rfl .search "n1" .coverageReached ⟨1, "id"⟩ 5 hrefused).consensusPointer
  rw [readModel_of_refused hrefused] at hkept
  exact sha256Hex_ne_genesis _ _ (congrArg ConsensusPointer.lastEventHash hkept)

/-- No request is refused. -/
def NoneRefused (m : MissionStateMachine) (l : MachineOp × Reading) : Prop :=
  ∀ target ∈ l.1.requested m l.2, m.Grants l.2.now target

/-- **Over every run the pointer names the last accepted record exactly if no request is
refused.** -/
theorem names_last_accepted_iff {digest : Str → List UInt8}
    (hinj : Function.Injective (sha256Hex digest)) {missionId : Str} {map : SharedMap}
    {objectives : MissionObjectives} {now : ℚ} {ls : List (MachineOp × Reading)}
    {m : MissionStateMachine}
    (h : Runs.run (machineStep (sha256Hex digest)) (.new missionId map objectives now) ls =
      some m) :
    (∀ p t, p <+: ls →
        Runs.run (machineStep (sha256Hex digest)) (.new missionId map objectives now) p = some t →
        NamesLastAccepted t) ↔
      Runs.Along (machineStep (sha256Hex digest)) NoneRefused (.new missionId map objectives now)
        ls := by
  refine Runs.always_iff_along_of_run
    (I := fun m => Records (sha256Hex digest) m ∧ NamesLastAccepted m) (fun _ hI => hI.2)
    (fun m l m' hI hgranted hs => ?_) (fun m l m' hI hrefused hs => ?_)
    ⟨records_new _ _ _ _ _, names_new _ _ _ _⟩ h
  · obtain rfl := Option.some.inj hs
    refine ⟨hI.1.step l, ?_⟩
    rcases apply_recorded (sha256Hex digest) m l.2 l.1 with ⟨hsame, -⟩ | ⟨record, hrec, hacc⟩
    · exact hsame.names.2 hI.2
    · exact hrec.names_of_accepted (hacc.2 hgranted)
  · obtain rfl := Option.some.inj hs
    rcases apply_recorded (sha256Hex digest) m l.2 l.1 with ⟨-, hnone⟩ | ⟨record, hrec, hacc⟩
    · exact absurd (fun target ht => absurd (hnone ▸ ht) (Option.not_mem_none target)) hrefused
    · exact hrec.not_names_of_refused hinj hI.1 fun ha => hrefused (hacc.1 ha)

end Tashi
