/-
**Which phases are absorbing, and what may be entered** (`MissionStateMachine` of
`shared/tashi-mission-map-machine.ts`).

The table of phases allows nothing after a terminal phase.  Aborts are exempt from the table, so a
mission that is complete or aborted can be aborted again.

`canTransition` looks at the entry and exit checks of a phase only.  A request to enter it is also
held against the table of phases.

Main definitions:

* `Tashi.Moved` — what an operation does to the phase and to the records;
* `Tashi.Absorbed` — an operation leaves a terminal phase alone;
* `Tashi.LegalRecords` — every accepted record follows the table;
* `Tashi.NoLateAbort` — the condition: a mission that is over is not aborted;
* `Tashi.MissionStateMachine.canTransition`, `Tashi.MissionStateMachine.ChecksPass` — the question
  and the checks that it shares with the request.

Main results:

* `Tashi.apply_moved` — every operation leaves the phase alone or appends one record of what it
  does to the phase;
* `Tashi.absorbing_iff_no_late_abort` — **over every run, terminal phases absorb and the records
  are legal exactly if no operation aborts a mission that is over**;
* `Tashi.complete_mission_aborts` — a complete mission is aborted;
* `Tashi.predicts_iff` — **the answer predicts the request exactly if the phase may follow or its
  checks fail**;
* `Tashi.init_misjudged` — entering the first phase is answered yes and always refused;
* `Tashi.search_misjudged` — a search that the answer allows from the start.
-/
import Endendend.Foundation.Runs
import Endendend.Tashi.MissionMachine

set_option relaxedAutoImplicit false
set_option autoImplicit false

namespace Tashi

open Js Vertex

/-! ### What an operation does to the phase -/

/-- The phase, its version and the records stay as they are. -/
structure SamePhase (m m' : MissionStateMachine) : Prop where
  phase : m'.phase = m.phase
  phaseVersion : m'.phaseVersion = m.phaseVersion
  transitions : m'.transitions = m.transitions

/-- A record is appended, and followed if it is accepted.  An abort is accepted; anything else only
if the phase may follow. -/
structure Requested (abort : Prop) (m m' : MissionStateMachine) (record : PhaseTransitionRecord) :
    Prop where
  transitions : m'.transitions = m.transitions ++ [record]
  fromPhase : record.fromPhase = m.phase
  phase : m'.phase = if record.accepted then record.toPhase else m.phase
  phaseVersion :
    m'.phaseVersion = if record.accepted then m.phaseVersion + 1 else m.phaseVersion
  aborted : abort → record.accepted = true ∧ record.toPhase = .aborted
  allowed : ¬ abort → record.accepted = true → record.toPhase ∈ allowedTransitions m.phase

/-- **What an operation does to the phase.** -/
def Moved (abort : Prop) (m m' : MissionStateMachine) : Prop :=
  ¬ abort ∧ SamePhase m m' ∨ ∃ record, Requested abort m m' record

/-- Does an operation abort the mission? -/
def MachineOp.Aborts (m : MissionStateMachine) (r : Reading) : MachineOp → Prop
  | transition target _ _ => target = .aborted
  | forceAbort _ _ _ => True
  | enforceRequestedPhase target _ => target = .aborted
  | abortIfUnsafe _ _ => m.Unsafe r.now
  | _ => False

/-- The mission, its phase and its records stay as they are. -/
structure SameHead (m m' : MissionStateMachine) : Prop where
  missionId : m'.missionId = m.missionId
  phase : m'.phase = m.phase
  phaseVersion : m'.phaseVersion = m.phaseVersion
  transitions : m'.transitions = m.transitions
  latestTransition : m'.latestTransition = m.latestTransition

/-- Is an operation about the phase, and not about nodes, targets or the map? -/
def MachineOp.aboutPhase : MachineOp → Bool
  | transition _ _ _ | forceAbort _ _ _ | advanceIfReady _ | enforceRequestedPhase _ _
  | abortIfUnsafe _ _ => true
  | _ => false

theorem SameHead.samePhase {m m' : MissionStateMachine} (h : SameHead m m') : SamePhase m m' :=
  ⟨h.phase, h.phaseVersion, h.transitions⟩

theorem Moved.same {m m' : MissionStateMachine} (h : SamePhase m m') : Moved False m m' :=
  Or.inl ⟨not_false, h⟩

theorem SamePhase.refl (m : MissionStateMachine) : SamePhase m m := ⟨rfl, rfl, rfl⟩

/-- Nothing speaks against an abort. -/
theorem evaluateTransition_aborted (m : MissionStateMachine) (now : ℚ) (current : MissionPhase) :
    evaluateTransition current .aborted (m.computeChecks now .aborted) = none := by
  unfold evaluateTransition
  rw [if_neg fun h => h.1 rfl]
  rfl

/-- Only phases that may follow are accepted otherwise. -/
theorem mem_allowed_of_evaluateTransition {current target : MissionPhase}
    {checks : PhaseEntryExitChecks} (h : evaluateTransition current target checks = none)
    (hne : target ≠ .aborted) : target ∈ allowedTransitions current := by
  unfold evaluateTransition at h
  by_contra hmem
  rw [if_pos ⟨hne, hmem⟩] at h
  exact Option.some_ne_none _ h

/-- The machine never suggests to abort. -/
theorem suggestNextPhase_ne_aborted (m : MissionStateMachine) (now : ℚ) :
    m.suggestNextPhase now ≠ some .aborted := by
  unfold MissionStateMachine.suggestNextPhase
  cases m.phase with
  | search =>
      simp only
      split
      · exact nofun
      · split <;> exact nofun
  | complete | aborted => exact nofun
  | _ =>
      simp only
      split <;> exact nofun

theorem MissionStateMachine.follow_requested {abort : Prop} (m : MissionStateMachine)
    (record : PhaseTransitionRecord) (now : ℚ) (hfrom : record.fromPhase = m.phase)
    (habort : abort → record.accepted = true ∧ record.toPhase = .aborted)
    (hallowed : ¬ abort → record.accepted = true → record.toPhase ∈ allowedTransitions m.phase) :
    Requested abort m (m.follow record now) record := by
  unfold MissionStateMachine.follow
  by_cases hacc : record.accepted = true
  · simp only [if_pos hacc]
    exact ⟨rfl, hfrom, (if_pos hacc).symm, (if_pos hacc).symm, habort, hallowed⟩
  · simp only [if_neg hacc]
    exact ⟨rfl, hfrom, (if_neg hacc).symm, (if_neg hacc).symm, habort, hallowed⟩

section Moves

variable (hashText : Str → Str) (m : MissionStateMachine) (r : Reading)

theorem transition_requested (target : MissionPhase) (requestedBy : Str)
    (reason : TransitionReason) :
    Requested (target = .aborted) m (m.transition hashText target requestedBy reason r).1
      (m.transition hashText target requestedBy reason r).2 := by
  refine m.follow_requested _ r.now rfl (fun habort => ⟨?_, habort⟩) fun hne haccepted => ?_
  · simp only [MissionStateMachine.transitionRecord, habort, evaluateTransition_aborted,
      Option.isNone_none]
  · exact mem_allowed_of_evaluateTransition (Option.isNone_iff_eq_none.1 haccepted) hne

theorem forceAbort_requested (requestedBy : Str) (reason : TransitionReason)
    (details : OrderedMap Str Json) :
    Requested True m (m.forceAbort hashText requestedBy reason details r).1
      (m.forceAbort hashText requestedBy reason details r).2 :=
  ⟨rfl, rfl, rfl, rfl, fun _ => ⟨rfl, rfl⟩, fun h => absurd trivial h⟩

theorem advanceIfReady_moved (requestedBy : Str) :
    Moved False m (m.advanceIfReady hashText requestedBy r).1 := by
  unfold MissionStateMachine.advanceIfReady
  split
  · exact .same (.refl m)
  · next target hnext =>
      split
      · exact .same (.refl m)
      · -- what the machine suggests itself is never the abort
        have hne : target ≠ .aborted :=
          fun h => suggestNextPhase_ne_aborted m r.now (h ▸ hnext)
        obtain ⟨htr, hfrom, hphase, hversion, _, hallowed⟩ :=
          transition_requested hashText m r target requestedBy
            (MissionStateMachine.reasonFor target)
        exact Or.inr ⟨_, htr, hfrom, hphase, hversion, False.elim, fun _ => hallowed hne⟩

theorem abortIfUnsafe_moved (requestedBy : Str) (reason : TransitionReason) :
    Moved (m.Unsafe r.now) m (m.abortIfUnsafe hashText requestedBy reason r).1 := by
  unfold MissionStateMachine.abortIfUnsafe
  split
  · next hunsafe =>
      obtain ⟨htr, hfrom, hphase, hversion, habort, _⟩ :=
        forceAbort_requested hashText m r requestedBy reason _
      exact Or.inr ⟨_, htr, hfrom, hphase, hversion, fun _ => habort trivial,
        fun h => absurd hunsafe h⟩
  · next hsafe => exact Or.inl ⟨hsafe, .refl m⟩

/-- **What is not about the phase leaves the phase and the records alone.** -/
theorem apply_sameHead {op : MachineOp} (h : op.aboutPhase = false) :
    SameHead m (op.apply hashText m r) := by
  cases op with
  | registerNode node => exact ⟨rfl, rfl, rfl, rfl, rfl⟩
  | updateNode nodeId patch =>
      simp only [MachineOp.apply, MissionStateMachine.updateNode]
      split <;> exact ⟨rfl, rfl, rfl, rfl, rfl⟩
  | removeNode nodeId =>
      simp only [MachineOp.apply, MissionStateMachine.removeNode]
      split <;> exact ⟨rfl, rfl, rfl, rfl, rfl⟩
  | setNodeLocation nodeId location =>
      simp only [MachineOp.apply, MissionStateMachine.setNodeLocation]
      split <;> exact ⟨rfl, rfl, rfl, rfl, rfl⟩
  | upsertTarget target => exact ⟨rfl, rfl, rfl, rfl, rfl⟩
  | confirmTarget targetId nodeId proof =>
      simp only [MachineOp.apply, MissionStateMachine.confirmTarget]
      split <;> exact ⟨rfl, rfl, rfl, rfl, rfl⟩
  | assignTarget targetId nodeId reason =>
      simp only [MachineOp.apply, MissionStateMachine.assignTarget]
      split <;> exact ⟨rfl, rfl, rfl, rfl, rfl⟩
  | extractTarget targetId nodeId proof =>
      simp only [MachineOp.apply, MissionStateMachine.extractTarget]
      split <;> exact ⟨rfl, rfl, rfl, rfl, rfl⟩
  | writeMap map => exact ⟨rfl, rfl, rfl, rfl, rfl⟩
  | _ => exact Bool.noConfusion h

/-- **Every operation leaves the phase alone or appends one record of what it does to it.** -/
theorem apply_moved (op : MachineOp) : Moved (op.Aborts m r) m (op.apply hashText m r) := by
  cases op with
  | transition target requestedBy reason =>
      exact Or.inr ⟨_, transition_requested hashText m r target requestedBy reason⟩
  | forceAbort requestedBy reason details =>
      exact Or.inr ⟨_, forceAbort_requested hashText m r requestedBy reason details⟩
  | advanceIfReady requestedBy => exact advanceIfReady_moved hashText m r requestedBy
  | enforceRequestedPhase target requestedBy =>
      exact Or.inr ⟨_, transition_requested hashText m r target requestedBy _⟩
  | abortIfUnsafe requestedBy reason => exact abortIfUnsafe_moved hashText m r requestedBy reason
  | _ => exact .same (apply_sameHead hashText m r rfl).samePhase

end Moves

/-! ### Terminal phases -/

/-- The phases that may follow are those of the table: what Vertex allows and the shortcuts. -/
theorem mem_allowedTransitions {current target : MissionPhase} :
    target ∈ allowedTransitions current ↔
      target ∈ validVertexNextPhases current ∨ target ∈ earlyReturnExtras current := by
  cases current <;> cases target <;> decide

/-- Nothing may follow a terminal phase. -/
theorem allowedTransitions_terminal {p : MissionPhase} (h : p ∈ terminalPhases) :
    allowedTransitions p = [] := if_pos h

/-- A mission that is not over may be aborted. -/
theorem aborted_mem_allowedTransitions {p : MissionPhase} :
    .aborted ∈ allowedTransitions p ↔ p ∉ terminalPhases := by
  cases p <;> decide

/-- An operation leaves a terminal phase alone. -/
def Absorbed (m m' : MissionStateMachine) : Prop :=
  m.phase ∈ terminalPhases → m'.phase = m.phase ∧ m'.phaseVersion = m.phaseVersion

/-- **Every accepted record follows the table.** -/
def LegalRecords (m : MissionStateMachine) : Prop :=
  ∀ record ∈ m.transitions, record.accepted = true →
    record.toPhase ∈ validVertexNextPhases record.fromPhase ∨
      record.toPhase ∈ earlyReturnExtras record.fromPhase

/-- One run of the machine: every operation with what it reads from outside. -/
def machineStep (hashText : Str → Str) (m : MissionStateMachine) (l : MachineOp × Reading) :
    Option MissionStateMachine := some (l.1.apply hashText m l.2)

/-- A mission that is over is not aborted. -/
def NoLateAbort (m : MissionStateMachine) (l : MachineOp × Reading) : Prop :=
  m.phase ∈ terminalPhases → ¬ l.1.Aborts m l.2

section Steps

variable {abort : Prop} {m m' : MissionStateMachine}

/-- An operation leaves a terminal phase alone exactly if it does not abort. -/
theorem absorbed_iff (h : Moved abort m m') :
    Absorbed m m' ↔ (m.phase ∈ terminalPhases → ¬ abort) := by
  refine forall_congr' fun hover => ?_
  rcases h with ⟨hno, hsame⟩ | ⟨record, hreq⟩
  · exact iff_of_true ⟨hsame.phase, hsame.phaseVersion⟩ hno
  · constructor
    · -- an abort is accepted, and so counts as a new version
      rintro ⟨-, hversion⟩ habort
      rw [hreq.phaseVersion, if_pos (hreq.aborted habort).1] at hversion
      exact absurd hversion (Nat.succ_ne_self _)
    · intro hno
      -- nothing is accepted, as nothing may follow
      have hrej : ¬ record.accepted = true := by
        intro hacc
        have hmem := hreq.allowed hno hacc
        rw [allowedTransitions_terminal hover] at hmem
        exact absurd hmem List.not_mem_nil
      exact ⟨by rw [hreq.phase, if_neg hrej], by rw [hreq.phaseVersion, if_neg hrej]⟩

/-- An operation keeps the records legal exactly if it does not abort a mission that is over. -/
theorem legalRecords_iff (h : Moved abort m m') :
    LegalRecords m' ↔ LegalRecords m ∧ (m.phase ∈ terminalPhases → ¬ abort) := by
  rcases h with ⟨hno, hsame⟩ | ⟨record, hreq⟩
  · rw [LegalRecords, hsame.transitions]
    exact (and_iff_left fun _ => hno).symm
  · have hlegal : LegalRecords m' ↔ LegalRecords m ∧
        (record.accepted = true → record.toPhase ∈ allowedTransitions m.phase) := by
      rw [LegalRecords, hreq.transitions, List.forall_mem_append, List.forall_mem_singleton,
        hreq.fromPhase, mem_allowedTransitions]
      rfl
    rw [hlegal]
    refine and_congr_right fun _ => ?_
    -- a record of an abort is legal unless the mission was over
    by_cases habort : abort
    · rw [(hreq.aborted habort).2, aborted_mem_allowedTransitions]
      exact ⟨fun hout hover => absurd hover (hout (hreq.aborted habort).1),
        fun hout _ hover => hout hover habort⟩
    · exact iff_of_true (hreq.allowed habort) fun _ => habort

end Steps

/-! ### Every run -/

/-- **Over every run, terminal phases absorb and the records are legal exactly if no operation
aborts a mission that is over.** -/
theorem absorbing_iff_no_late_abort (hashText : Str → Str) (missionId : Str) (map : SharedMap)
    (objectives : MissionObjectives) (now : ℚ) {ls : List (MachineOp × Reading)}
    {m : MissionStateMachine}
    (h : Runs.run (machineStep hashText) (.new missionId map objectives now) ls = some m) :
    Runs.Along (machineStep hashText) (fun m l => Absorbed m (l.1.apply hashText m l.2))
        (.new missionId map objectives now) ls ∧ LegalRecords m ↔
      Runs.Along (machineStep hashText) NoLateAbort (.new missionId map objectives now) ls := by
  have hstep : ∀ (m : MissionStateMachine) (l : MachineOp × Reading),
      Absorbed m (l.1.apply hashText m l.2) ↔ NoLateAbort m l :=
    fun m l => absorbed_iff (apply_moved hashText m l.2 l.1)
  have hlegal := Runs.iff_along (I := fun _ => True) (Q := LegalRecords) (P := NoLateAbort)
    (fun _ _ _ _ _ => trivial)
    (fun m l m' _ hs => by
      obtain rfl := Option.some.inj hs
      exact legalRecords_iff (apply_moved hashText m l.2 l.1)) trivial h
  have hnew : LegalRecords (.new missionId map objectives now) :=
    fun _ h => absurd h List.not_mem_nil
  rw [hlegal, and_iff_right hnew]
  exact ⟨fun h => h.2, fun h => ⟨h.mono fun m l => (hstep m l).2, h⟩⟩

/-! ### A complete mission is aborted -/

/-- A relay with a full battery. -/
def relayNode : NodeStatus where
  nodeId := "n1"
  role := .relay
  batteryPct := 90
  linkQuality := 9 / 10
  gpsFix := true
  lastSeenMs := 1
  active := true
  capabilities := []
  missionId := none
  location := none

/-- A mission that wants nothing. -/
def noObjectives : MissionObjectives where
  totalTargetsExpected := 0
  totalTargetsConfirmed := 0
  totalTargetsExtracted := 0
  minCoveragePct := 0
  minQuorumNodes := 1
  requiredRoles := ∅
  safetyCritical := true
  maxStaleNodeAgeMs := 15000

/-- The mission is led to its end. -/
def toComplete : List (MachineOp × Reading) :=
  [.registerNode relayNode, .transition .discovery "n1" .quorumReached,
    .writeMap (markSeen (.new "map") 0 0 0 .null (3 / 5) ∅ 1),
    .transition .search "n1" .coverageReached, .transition .return "n1" .objectiveComplete,
    .transition .complete "n1" .objectiveComplete].map fun op => (op, ⟨1, "id"⟩)

/-- The mission is led to its end and then aborted by an operator. -/
def abortComplete : List (MachineOp × Reading) :=
  toComplete ++ [(.transition .aborted "op" .operatorOverride, ⟨2, "id"⟩)]

/-- The run without the abort. -/
theorem absorbing_iff_no_late_abort_complete :
    ∃ m, Runs.run (machineStep fun _ => []) (.new "m" (.new "map") noObjectives 0) toComplete =
        some m ∧
      (Runs.Along (machineStep fun _ => []) (fun m l => Absorbed m (l.1.apply (fun _ => []) m l.2))
          (.new "m" (.new "map") noObjectives 0) toComplete ∧ LegalRecords m ↔
        Runs.Along (machineStep fun _ => []) NoLateAbort (.new "m" (.new "map") noObjectives 0)
          toComplete) :=
  ⟨_, rfl, absorbing_iff_no_late_abort _ _ _ _ _ rfl⟩

/-- **A complete mission is aborted**: the record from `complete` to `aborted` is accepted. -/
theorem complete_mission_aborts :
    ¬ ∀ (ls : List (MachineOp × Reading)) (m : MissionStateMachine),
      Runs.run (machineStep fun _ => []) (.new "m" (.new "map") noObjectives 0) ls = some m →
        Runs.Along (machineStep fun _ => [])
            (fun m l => Absorbed m (l.1.apply (fun _ => []) m l.2))
            (.new "m" (.new "map") noObjectives 0) ls ∧ LegalRecords m := by
  intro h
  have hlast : ((Runs.run (machineStep fun _ => []) (.new "m" (.new "map") noObjectives 0)
      abortComplete).bind fun m => m.transitions.getLast?.map fun record =>
        (record.fromPhase, record.toPhase, record.accepted)) =
      some (.complete, .aborted, true) := by decide +kernel
  obtain ⟨m, hm, hrecord⟩ := Option.bind_eq_some_iff.1 hlast
  obtain ⟨record, hmem, hpair⟩ := Option.map_eq_some_iff.1 hrecord
  simp only [Prod.mk.injEq] at hpair
  obtain ⟨hfrom, hto, haccepted⟩ := hpair
  have hlegal := (h abortComplete m hm).2 record (List.mem_of_getLast? hmem) haccepted
  rw [hfrom, hto] at hlegal
  exact absurd hlegal (by decide)

end Tashi

namespace Tashi

open Js Vertex

/-- The answer of `canTransition`. -/
structure Readiness where
  ok : Bool
  reason : Str
  checks : PhaseEntryExitChecks

namespace MissionStateMachine

variable (m : MissionStateMachine)

/-- Do the checks of a phase pass? -/
def canTransition (now : ℚ) (target : MissionPhase) : Readiness :=
  let checks := m.computeChecks now target
  if !noneFalse checks.entry then
    ⟨false, lit "entry_failed:" ++ (Json.obj checks.entry.entries).stringify, checks⟩
  else if !noneFalse checks.exit then
    ⟨false, lit "exit_failed:" ++ (Json.obj checks.exit.entries).stringify, checks⟩
  else ⟨true, lit "ok", checks⟩

/-- No check of a phase is `false`. -/
def ChecksPass (now : ℚ) (target : MissionPhase) : Prop :=
  noneFalse (m.computeChecks now target).entry = true ∧
    noneFalse (m.computeChecks now target).exit = true

instance (now : ℚ) (target : MissionPhase) : Decidable (m.ChecksPass now target) :=
  inferInstanceAs (Decidable (_ ∧ _))

end MissionStateMachine

open MissionStateMachine

/-- The answer is yes exactly if the checks pass. -/
theorem canTransition_ok_iff {m : MissionStateMachine} {now : ℚ} {target : MissionPhase} :
    (m.canTransition now target).ok = true ↔ m.ChecksPass now target := by
  unfold canTransition ChecksPass
  cases hentry : noneFalse (m.computeChecks now target).entry <;>
    cases hexit : noneFalse (m.computeChecks now target).exit <;> simp [hentry, hexit]

/-- A request is accepted exactly if the phase may follow and its checks pass. -/
theorem accepted_iff {hashText : Str → Str} {m : MissionStateMachine} {target : MissionPhase}
    {requestedBy : Str} {reason : TransitionReason} {r : Reading} :
    (m.transition hashText target requestedBy reason r).2.accepted = true ↔
      (target = .aborted ∨ target ∈ allowedTransitions m.phase) ∧ m.ChecksPass r.now target := by
  have haccepted : (m.transition hashText target requestedBy reason r).2.accepted =
      (evaluateTransition m.phase target (m.computeChecks r.now target)).isNone := rfl
  rw [haccepted, Option.isNone_iff_eq_none]
  unfold evaluateTransition ChecksPass
  by_cases hlegal : target ≠ .aborted ∧ target ∉ allowedTransitions m.phase
  · simp only [if_pos hlegal]
    refine iff_of_false (Option.some_ne_none _) fun h => ?_
    exact h.1.elim hlegal.1 hlegal.2
  · have hfollows : target = .aborted ∨ target ∈ allowedTransitions m.phase := by
      rwa [not_and_or, not_not, not_not] at hlegal
    simp only [if_neg hlegal, hfollows, true_and]
    cases hentry : noneFalse (m.computeChecks r.now target).entry <;>
      cases hexit : noneFalse (m.computeChecks r.now target).exit <;> simp

/-- **The answer predicts the request exactly if the phase may follow or its checks fail.** -/
theorem predicts_iff (hashText : Str → Str) (m : MissionStateMachine) (target : MissionPhase)
    (requestedBy : Str) (reason : TransitionReason) (r : Reading) :
    ((m.canTransition r.now target).ok = true ↔
        (m.transition hashText target requestedBy reason r).2.accepted = true) ↔
      target = .aborted ∨ target ∈ allowedTransitions m.phase ∨ ¬ m.ChecksPass r.now target := by
  rw [canTransition_ok_iff, accepted_iff, ← or_assoc]
  by_cases hpass : m.ChecksPass r.now target
  · simp only [hpass, and_true, true_iff, not_true, or_false]
  · exact iff_of_true (iff_of_false hpass fun h => hpass h.2) (Or.inr hpass)

/-- Entering the first phase is answered yes, and it is always refused: the phase has no checks, and
it follows no other. -/
theorem init_misjudged (hashText : Str → Str) (m : MissionStateMachine) (requestedBy : Str)
    (reason : TransitionReason) (r : Reading) :
    (m.canTransition r.now .init).ok = true ∧
      (m.transition hashText .init requestedBy reason r).2.accepted = false := by
  have hpass : m.ChecksPass r.now .init := ⟨rfl, rfl⟩
  refine ⟨canTransition_ok_iff.2 hpass, ?_⟩
  rw [← Bool.not_eq_true, accepted_iff]
  rintro ⟨hlegal | hlegal, -⟩
  · exact absurd hlegal (by decide)
  · cases hphase : m.phase <;> rw [hphase] at hlegal <;> exact absurd hlegal (by decide)

/-- A relay is registered and has seen a cell. -/
def relayAtInit : List (MachineOp × Reading) :=
  [.registerNode relayNode, .writeMap (markSeen (.new "map") 0 0 0 .null (3 / 5) ∅ 1)].map
    fun op => (op, ⟨1, "id"⟩)

/-- **A search that the answer allows from the start**: its checks pass, but no search follows the
first phase. -/
theorem search_misjudged :
    ¬ ∀ (ls : List (MachineOp × Reading)) (m : MissionStateMachine),
      Runs.run (machineStep fun _ => []) (.new "m" (.new "map") noObjectives 0) ls = some m →
        ∀ (target : MissionPhase) (requestedBy : Str) (reason : TransitionReason) (r : Reading),
          (m.canTransition r.now target).ok = true ↔
            (m.transition (fun _ => []) target requestedBy reason r).2.accepted = true := by
  intro h
  have hsearch := h relayAtInit _ rfl .search "n1" .coverageReached ⟨1, "id"⟩
  rw [canTransition_ok_iff, accepted_iff] at hsearch
  exact absurd hsearch (by decide +kernel)

end Tashi
