/-
**The life of a target, and a goal that moves** (`upsertTarget`, `confirmTarget`, `assignTarget`,
`extractTarget` and `areObjectivesComplete` of `shared/tashi-mission-map-machine.ts`).

A record that is merged into a target never lowers the rank of its status.  The other three
operations set the status, whatever it was, and extractions are counted each time the status was
another one before.

The number of targets to be confirmed is an objective of the mission, and the check of the
objectives compares the confirmed targets with it.  Each confirmation that is counted is added to
the same field, and each extraction to the goal of extractions.

Main definitions:

* `Tashi.statusAt` — the status of a target;
* `Tashi.MachineOp.statusAfter`, `Tashi.countedConfirmation`, `Tashi.countedExtraction` — what an
  operation does to the status of its target and to the objectives;
* `Tashi.LifecycleKept` — no status goes backwards, and no target is counted twice;
* `Tashi.Forward` — the condition: no status is set below the one that is there;
* `Tashi.ConfirmingCompletes` — once the goal is reached the objectives are complete;
* `Tashi.GoalWithoutCounted` — the condition: a goal is still reached when the counted calls are
  left out.

Main results:

* `Tashi.statusAt_apply_self`, `Tashi.objectives_apply` — **what every operation does to the
  statuses and to the counters**;
* `Tashi.lifecycle_iff_forward` — **over every run the lives of the targets go forward exactly if
  every operation sets a status that is not below**;
* `Tashi.extracted_twice` — a target that is extracted twice;
* `Tashi.objectives_run` — over a run the goals grow by what is counted;
* `Tashi.confirming_completes_iff` — **reaching the goal completes the objectives exactly if a goal
  is still reached without the counted calls**;
* `Tashi.confirmed_target_incomplete` — a mission whose only target has been confirmed.
-/
import Endendend.Tashi.AbsorbingPhases

set_option relaxedAutoImplicit false
set_option autoImplicit false

namespace Tashi

open Js Vertex

/-! ### What the operations do -/

/-- The status of a target. -/
def statusAt (m : MissionStateMachine) (id : Str) : Option TargetStatus :=
  (m.targets.get? id).map TargetRecord.status

/-- The target that an operation is about. -/
def MachineOp.target : MachineOp → Option Str
  | .upsertTarget target => some target.targetId
  | .confirmTarget targetId _ _ => some targetId
  | .assignTarget targetId _ _ => some targetId
  | .extractTarget targetId _ _ => some targetId
  | _ => none

/-- The status of its target after an operation. -/
def MachineOp.statusAfter (current : Option TargetStatus) : MachineOp → Option TargetStatus
  | .upsertTarget target =>
    some (current.elim target.status fun s => if target.status.rank ≥ s.rank then target.status
      else s)
  | .confirmTarget _ _ _ => current.map fun _ => .confirmed
  | .assignTarget _ _ _ => current.map fun _ => .assigned
  | .extractTarget _ _ _ => current.map fun _ => .extracted
  | _ => current

/-- The target whose confirmation an operation counts. -/
def countedConfirmation (m : MissionStateMachine) (l : MachineOp × Reading) : Option Str :=
  match l.1 with
  | .confirmTarget targetId _ _ =>
    (statusAt m targetId).bind fun s => if s = .confirmed then none else some targetId
  | _ => none

/-- The target whose extraction an operation counts. -/
def countedExtraction (m : MissionStateMachine) (l : MachineOp × Reading) : Option Str :=
  match l.1 with
  | .extractTarget targetId _ _ =>
    (statusAt m targetId).bind fun s => if s = .extracted then none else some targetId
  | _ => none

section Operations

variable (hashText : Str → Str) (m : MissionStateMachine)

/-- What moves the phase leaves targets and objectives. -/
theorem follow_targets (record : PhaseTransitionRecord) (now : ℚ) :
    (m.follow record now).targets = m.targets ∧
      (m.follow record now).objectives = m.objectives := by
  unfold MissionStateMachine.follow
  simp only
  split <;> exact ⟨rfl, rfl⟩

/-- An operation that is about no target leaves targets and objectives. -/
theorem apply_of_no_target (r : Reading) {op : MachineOp} (h : op.target = none) :
    (op.apply hashText m r).targets = m.targets ∧
      (op.apply hashText m r).objectives = m.objectives := by
  cases op with
  | registerNode node => exact ⟨rfl, rfl⟩
  | updateNode nodeId patch =>
      simp only [MachineOp.apply, MissionStateMachine.updateNode]
      split <;> exact ⟨rfl, rfl⟩
  | removeNode nodeId =>
      simp only [MachineOp.apply, MissionStateMachine.removeNode]
      split <;> exact ⟨rfl, rfl⟩
  | setNodeLocation nodeId location =>
      simp only [MachineOp.apply, MissionStateMachine.setNodeLocation]
      split <;> exact ⟨rfl, rfl⟩
  | writeMap map => exact ⟨rfl, rfl⟩
  | transition target requestedBy reason => exact follow_targets m _ _
  | forceAbort requestedBy reason details => exact ⟨rfl, rfl⟩
  | advanceIfReady requestedBy =>
      simp only [MachineOp.apply, MissionStateMachine.advanceIfReady]
      split
      · exact ⟨rfl, rfl⟩
      · split
        · exact ⟨rfl, rfl⟩
        · exact follow_targets m _ _
  | enforceRequestedPhase target requestedBy => exact follow_targets m _ _
  | abortIfUnsafe requestedBy reason =>
      simp only [MachineOp.apply, MissionStateMachine.abortIfUnsafe]
      split <;> exact ⟨rfl, rfl⟩
  | upsertTarget target => exact absurd h (Option.some_ne_none _)
  | confirmTarget targetId nodeId proof => exact absurd h (Option.some_ne_none _)
  | assignTarget targetId nodeId reason => exact absurd h (Option.some_ne_none _)
  | extractTarget targetId nodeId proof => exact absurd h (Option.some_ne_none _)

/-- **What an operation does to the status of its target.** -/
theorem statusAt_apply_self (r : Reading) {op : MachineOp} {id : Str} (h : op.target = some id) :
    statusAt (op.apply hashText m r) id = op.statusAfter (statusAt m id) := by
  cases op with
  | upsertTarget target =>
      obtain rfl := Option.some.inj h
      simp only [MachineOp.apply, MissionStateMachine.upsertTarget, MachineOp.statusAfter, statusAt,
        OrderedMap.get?_set_self, Option.map_some]
      cases m.targets.get? target.targetId <;> rfl
  | confirmTarget targetId nodeId proof =>
      obtain rfl := Option.some.inj h
      simp only [MachineOp.apply, MissionStateMachine.confirmTarget, MachineOp.statusAfter,
        statusAt]
      cases hget : m.targets.get? targetId <;> simp [hget]
  | assignTarget targetId nodeId reason =>
      obtain rfl := Option.some.inj h
      simp only [MachineOp.apply, MissionStateMachine.assignTarget, MachineOp.statusAfter,
        statusAt]
      cases hget : m.targets.get? targetId <;> simp [hget]
  | extractTarget targetId nodeId proof =>
      obtain rfl := Option.some.inj h
      simp only [MachineOp.apply, MissionStateMachine.extractTarget, MachineOp.statusAfter,
        statusAt]
      cases hget : m.targets.get? targetId <;> simp [hget]
  | _ => exact absurd h (Option.some_ne_none id).symm

/-- An operation about a target writes the record of that target, if any. -/
theorem targets_apply (r : Reading) {op : MachineOp} {id : Str} (h : op.target = some id) :
    (op.apply hashText m r).targets = m.targets ∨
      ∃ t, (op.apply hashText m r).targets = m.targets.set id t := by
  cases op with
  | upsertTarget target =>
      obtain rfl := Option.some.inj h
      exact Or.inr ⟨_, rfl⟩
  | confirmTarget targetId nodeId proof =>
      obtain rfl := Option.some.inj h
      simp only [MachineOp.apply, MissionStateMachine.confirmTarget]
      split
      · exact Or.inl rfl
      · exact Or.inr ⟨_, rfl⟩
  | assignTarget targetId nodeId reason =>
      obtain rfl := Option.some.inj h
      simp only [MachineOp.apply, MissionStateMachine.assignTarget]
      split
      · exact Or.inl rfl
      · exact Or.inr ⟨_, rfl⟩
  | extractTarget targetId nodeId proof =>
      obtain rfl := Option.some.inj h
      simp only [MachineOp.apply, MissionStateMachine.extractTarget]
      split
      · exact Or.inl rfl
      · exact Or.inr ⟨_, rfl⟩
  | _ => exact absurd h (Option.some_ne_none id).symm

/-- The statuses of the other targets stay. -/
theorem statusAt_apply_other (r : Reading) {op : MachineOp} {id : Str} (h : op.target ≠ some id) :
    statusAt (op.apply hashText m r) id = statusAt m id := by
  cases hop : op.target with
  | none => rw [statusAt, (apply_of_no_target hashText m r hop).1, statusAt]
  | some target =>
      rw [hop] at h
      rcases targets_apply hashText m r hop with hsame | ⟨t, hset⟩
      · rw [statusAt, hsame, statusAt]
      · rw [statusAt, hset, OrderedMap.get?_set, if_neg fun heq => h (congrArg some heq.symm),
          statusAt]

/-- **What every operation does to the objectives**: counted confirmations and extractions are
added to the goals. -/
theorem objectives_apply (l : MachineOp × Reading) :
    (l.1.apply hashText m l.2).objectives =
      { m.objectives with
        totalTargetsConfirmed :=
          m.objectives.totalTargetsConfirmed + (countedConfirmation m l).toList.length
        totalTargetsExtracted :=
          m.objectives.totalTargetsExtracted + (countedExtraction m l).toList.length } := by
  obtain ⟨op, r⟩ := l
  have hnothing : m.objectives =
      { m.objectives with
        totalTargetsConfirmed := m.objectives.totalTargetsConfirmed + ([] : List Str).length
        totalTargetsExtracted := m.objectives.totalTargetsExtracted + ([] : List Str).length } := by
    simp
  cases op with
  | confirmTarget targetId nodeId proof =>
      simp only [MachineOp.apply, MissionStateMachine.confirmTarget, countedConfirmation,
        countedExtraction, statusAt]
      cases hget : m.targets.get? targetId with
      | none => exact hnothing
      | some t => by_cases hs : t.status = .confirmed <;> simp [hs]
  | extractTarget targetId nodeId proof =>
      simp only [MachineOp.apply, MissionStateMachine.extractTarget, countedConfirmation,
        countedExtraction, statusAt]
      cases hget : m.targets.get? targetId with
      | none => exact hnothing
      | some t => by_cases hs : t.status = .extracted <;> simp [hs]
  | upsertTarget target => exact hnothing
  | assignTarget targetId nodeId reason =>
      simp only [MachineOp.apply, MissionStateMachine.assignTarget]
      split <;> exact hnothing
  | _ => exact (apply_of_no_target hashText m r rfl).2.trans hnothing

end Operations

/-! ### Forward only -/

/-- The status that a direct operation sets. -/
def MachineOp.sets : MachineOp → Option TargetStatus
  | .confirmTarget _ _ _ => some .confirmed
  | .assignTarget _ _ _ => some .assigned
  | .extractTarget _ _ _ => some .extracted
  | _ => none

/-- **No status is set below the one that is there.** -/
def Forward (m : MissionStateMachine) (l : MachineOp × Reading) : Prop :=
  ∀ s' ∈ l.1.sets, ∀ id ∈ l.1.target, ∀ s ∈ statusAt m id, s.rank ≤ s'.rank

/-- No status goes backwards. -/
def RankKept (m m' : MissionStateMachine) : Prop :=
  ∀ id, ∀ s ∈ statusAt m id, ∃ s' ∈ statusAt m' id, s.rank ≤ s'.rank

section Steps

variable {hashText : Str → Str} {m : MissionStateMachine} {l : MachineOp × Reading}

/-- What a target has after an operation that sets a status. -/
theorem statusAt_of_sets {s' s : TargetStatus} {id : Str} (hsets : l.1.sets = some s')
    (hid : l.1.target = some id) (hs : statusAt m id = some s) :
    statusAt (l.1.apply hashText m l.2) id = some s' := by
  rw [statusAt_apply_self hashText m l.2 hid, hs]
  obtain ⟨op, r⟩ := l
  cases op <;> first | exact absurd hsets (Option.some_ne_none s').symm | exact hsets

/-- A status that no operation sets does not fall. -/
theorem rank_le_of_not_sets {s : TargetStatus} {id : Str} (hsets : l.1.sets = none)
    (hs : statusAt m id = some s) :
    ∃ s' ∈ statusAt (l.1.apply hashText m l.2) id, s.rank ≤ s'.rank := by
  by_cases hid : l.1.target = some id
  · rw [statusAt_apply_self hashText m l.2 hid, hs]
    obtain ⟨op, r⟩ := l
    cases op with
    | upsertTarget target =>
        refine ⟨_, rfl, ?_⟩
        simp only [Option.elim_some]
        split
        · next hle => exact hle
        · exact le_refl _
    | confirmTarget targetId nodeId proof => exact absurd hsets (Option.some_ne_none _)
    | assignTarget targetId nodeId reason => exact absurd hsets (Option.some_ne_none _)
    | extractTarget targetId nodeId proof => exact absurd hsets (Option.some_ne_none _)
    | _ => exact absurd hid (Option.some_ne_none id).symm
  · rw [statusAt_apply_other hashText m l.2 hid]
    exact ⟨s, hs, le_refl _⟩

/-- **An operation keeps the ranks exactly if it sets no status below the one that is there.** -/
theorem rankKept_iff_forward : RankKept m (l.1.apply hashText m l.2) ↔ Forward m l := by
  constructor
  · intro h s' hsets id hid s hs
    obtain ⟨s'', hs'', hle⟩ := h id s hs
    rw [statusAt_of_sets hsets hid hs] at hs''
    rwa [← Option.some.inj hs''] at hle
  · intro h id s hs
    cases hsets : l.1.sets with
    | none => exact rank_le_of_not_sets hsets hs
    | some s' =>
        by_cases hid : l.1.target = some id
        · exact ⟨s', statusAt_of_sets hsets hid hs, h s' hsets id hid s hs⟩
        · rw [statusAt_apply_other hashText m l.2 hid]
          exact ⟨s, hs, le_refl _⟩

/-- An extraction that is counted finds another status and leaves the target extracted. -/
theorem of_countedExtraction {id : Str} (h : countedExtraction m l = some id) :
    ∃ s, statusAt m id = some s ∧ s ≠ .extracted ∧ l.1.sets = some .extracted ∧
      l.1.target = some id := by
  obtain ⟨op, r⟩ := l
  cases op with
  | extractTarget targetId nodeId proof =>
      obtain ⟨s, hs, hid⟩ := Option.bind_eq_some_iff.1 h
      split at hid
      · exact absurd hid (Option.some_ne_none id).symm
      · next hne =>
          obtain rfl := Option.some.inj hid
          exact ⟨s, hs, hne, rfl, rfl⟩
  | _ => exact absurd h (Option.some_ne_none id).symm

end Steps

/-! ### Runs -/

/-- **The lives of the targets go forward**: no status goes backwards, and the counter of
extractions grows by one for each of a number of distinct targets. -/
structure LifecycleKept (hashText : Str → Str) (m₀ : MissionStateMachine)
    (ls : List (MachineOp × Reading)) (m : MissionStateMachine) : Prop where
  rank : Runs.Along (machineStep hashText) (fun m l => RankKept m (l.1.apply hashText m l.2)) m₀ ls
  counted : m.objectives.totalTargetsExtracted = m₀.objectives.totalTargetsExtracted +
    (Runs.emitted (machineStep hashText) countedExtraction m₀ ls).length
  once : (Runs.emitted (machineStep hashText) countedExtraction m₀ ls).Nodup

section Runs

variable {hashText : Str → Str} {m₀ m : MissionStateMachine} {ls : List (MachineOp × Reading)}

/-- The counter of extractions counts what it is meant to. -/
theorem totalTargetsExtracted_run (h : Runs.run (machineStep hashText) m₀ ls = some m) :
    m.objectives.totalTargetsExtracted = m₀.objectives.totalTargetsExtracted +
      (Runs.emitted (machineStep hashText) countedExtraction m₀ ls).length := by
  induction ls generalizing m₀ with
  | nil =>
      obtain rfl := Option.some.inj h
      simp [Runs.emitted]
  | cons l ls ih =>
      have hstep := objectives_apply hashText m₀ l
      rw [ih h, hstep]
      simp only [Runs.emitted, machineStep, Option.map_some, Option.getD_some, List.length_append,
        Nat.cast_add]
      ring

/-- A target whose extraction a forward run counts has not been extracted at its start. -/
theorem rank_lt_of_mem_counted (hf : Runs.Along (machineStep hashText) Forward m₀ ls) {id : Str}
    (hid : id ∈ Runs.emitted (machineStep hashText) countedExtraction m₀ ls) {s : TargetStatus}
    (hs : statusAt m₀ id = some s) : s.rank < TargetStatus.extracted.rank := by
  induction ls generalizing m₀ s with
  | nil => exact absurd hid List.not_mem_nil
  | cons l ls ih =>
      obtain ⟨hhead, htail⟩ := hf
      rcases List.mem_append.1 hid with hid | hid
      · obtain ⟨s₁, hs₁, hne, hsets, htarget⟩ := of_countedExtraction (Option.mem_toList.1 hid)
        obtain rfl := Option.some.inj (hs₁.symm.trans hs)
        refine lt_of_le_of_ne (hhead _ hsets id htarget s₁ hs) fun heq => hne ?_
        cases s₁ <;> first | rfl | exact absurd heq (by decide)
      · -- the rank has not fallen since
        obtain ⟨s', hs', hle⟩ := (@rankKept_iff_forward hashText _ _).2 hhead id s hs
        exact lt_of_le_of_lt hle (ih (htail _ rfl) hid hs')

/-- A forward run counts every target once. -/
theorem nodup_counted (hf : Runs.Along (machineStep hashText) Forward m₀ ls) :
    (Runs.emitted (machineStep hashText) countedExtraction m₀ ls).Nodup := by
  induction ls generalizing m₀ with
  | nil => exact List.nodup_nil
  | cons l ls ih =>
      obtain ⟨hhead, htail⟩ := hf
      have hrest := ih (htail _ rfl)
      have hone : (countedExtraction m₀ l).toList.Nodup := by
        cases countedExtraction m₀ l <;> simp
      refine List.nodup_append'.2 ⟨hone, hrest, fun id hid hmem => ?_⟩
      obtain ⟨s, hs, -, hsets, htarget⟩ := of_countedExtraction (Option.mem_toList.1 hid)
      have hextracted := @statusAt_of_sets hashText _ _ _ _ _ hsets htarget hs
      exact absurd (rank_lt_of_mem_counted (htail _ rfl) hmem hextracted) (lt_irrefl _)

/-- **Over every run the lives of the targets go forward exactly if every operation sets a status
that is not below the one that is there.** -/
theorem lifecycle_iff_forward (h : Runs.run (machineStep hashText) m₀ ls = some m) :
    LifecycleKept hashText m₀ ls m ↔ Runs.Along (machineStep hashText) Forward m₀ ls := by
  constructor
  · exact fun hkept => hkept.rank.mono fun _ _ => rankKept_iff_forward.1
  · intro hf
    exact ⟨hf.mono fun _ _ => rankKept_iff_forward.2, totalTargetsExtracted_run h,
      nodup_counted hf⟩

end Runs

/-! ### A target that is extracted twice -/

/-- A target that has just been found. -/
def newTarget : TargetRecord where
  targetId := "t1"
  missionId := "m"
  targetType := "victim"
  confidence := some 1
  position := none
  confirmedBy := []
  assignedTo := none
  extractedBy := none
  foundAtMs := 1
  confirmedAtMs := none
  assignedAtMs := none
  extractedAtMs := none
  status := .new
  metadata := ∅

/-- A target is found, confirmed, assigned and extracted. -/
def fullLife : List (MachineOp × Reading) :=
  [.upsertTarget newTarget, .confirmTarget "t1" "n1" ∅, .assignTarget "t1" "n1" [],
    .extractTarget "t1" "n1" ∅].map fun op => (op, ⟨1, "id"⟩)

theorem lifecycle_iff_forward_fullLife :
    ∃ m, Runs.run (machineStep fun _ => []) (.new "m" (.new "map") noObjectives 0) fullLife =
        some m ∧
      (LifecycleKept (fun _ => []) (.new "m" (.new "map") noObjectives 0) fullLife m ↔
        Runs.Along (machineStep fun _ => []) Forward (.new "m" (.new "map") noObjectives 0)
          fullLife) :=
  ⟨_, rfl, lifecycle_iff_forward rfl⟩

/-- Another node confirms the target late, and it is extracted again. -/
def lateConfirmation : List (MachineOp × Reading) :=
  fullLife ++ [(.confirmTarget "t1" "n2" ∅, ⟨2, "id"⟩), (.extractTarget "t1" "n1" ∅, ⟨3, "id"⟩)]

/-- **A target that is extracted twice**: a late confirmation takes it back, and its extraction is
counted again. -/
theorem extracted_twice :
    ¬ ∀ (ls : List (MachineOp × Reading)) (m : MissionStateMachine),
      Runs.run (machineStep fun _ => []) (.new "m" (.new "map") noObjectives 0) ls = some m →
        LifecycleKept (fun _ => []) (.new "m" (.new "map") noObjectives 0) ls m := by
  intro h
  exact absurd (h lateConfirmation _ rfl).once (by decide +kernel)

end Tashi

namespace Tashi

open Js Vertex

/-! ### What is counted -/

/-- The number of targets that are confirmed, assigned or extracted. -/
def confirmedCount (m : MissionStateMachine) : ℕ := m.listTargets.countP TargetRecord.isConfirmed

def extractedCount (m : MissionStateMachine) : ℕ := m.listTargets.countP TargetRecord.isExtracted

/-- No target stops being confirmed. -/
def NoneLeaves (m m' : MissionStateMachine) : Prop :=
  ∀ id t, m.targets.get? id = some t → t.isConfirmed = true →
    ∃ t', m'.targets.get? id = some t' ∧ t'.isConfirmed = true

theorem confirmedCount_eq (m : MissionStateMachine) :
    confirmedCount m = m.targets.values.countP TargetRecord.isConfirmed :=
  ((ownOrder_perm m.targets.entries).map Prod.snd).countP_eq _

/-- If none leaves there are not fewer. -/
theorem NoneLeaves.le_count {m m' : MissionStateMachine} (h : NoneLeaves m m') :
    confirmedCount m ≤ confirmedCount m' := by
  rw [confirmedCount_eq, confirmedCount_eq]
  exact OrderedMap.countP_values_le h

/-- What the check asks for where some target is confirmed. -/
theorem areObjectivesComplete_iff {m : MissionStateMachine} (h : 1 ≤ confirmedCount m) (now : ℚ) :
    m.areObjectivesComplete now = true ↔
      m.objectives.totalTargetsConfirmed ≤ confirmedCount m ∨
        m.objectives.totalTargetsExtracted ≤ extractedCount m ∨
          0 < m.objectives.totalTargetsExpected ∧
            m.objectives.totalTargetsExpected ≤ extractedCount m := by
  have hne : ¬ m.listTargets.countP TargetRecord.isConfirmed = 0 := Nat.one_le_iff_ne_zero.1 h
  simp only [MissionStateMachine.areObjectivesComplete, confirmedCount, extractedCount, hne,
    decide_eq_true_eq, ge_iff_le, gt_iff_lt, false_and, and_false, or_false]

/-! ### Runs -/

section Runs

variable {hashText : Str → Str} {m₀ m : MissionStateMachine} {ls : List (MachineOp × Reading)}

/-- **Over a run the goals grow by what is counted.** -/
theorem objectives_run (h : Runs.run (machineStep hashText) m₀ ls = some m) :
    m.objectives =
      { m₀.objectives with
        totalTargetsConfirmed := m₀.objectives.totalTargetsConfirmed +
          (Runs.emitted (machineStep hashText) countedConfirmation m₀ ls).length
        totalTargetsExtracted := m₀.objectives.totalTargetsExtracted +
          (Runs.emitted (machineStep hashText) countedExtraction m₀ ls).length } := by
  induction ls generalizing m₀ with
  | nil =>
      obtain rfl := Option.some.inj h
      simp [Runs.emitted]
  | cons l ls ih =>
      rw [ih h, objectives_apply hashText m₀ l]
      simp only [Runs.emitted, machineStep, Option.map_some, Option.getD_some, List.length_append,
        Nat.cast_add, add_assoc]

/-- A run on which none leaves does not end with fewer. -/
theorem le_count_run
    (hkept : Runs.Along (machineStep hashText)
      (fun m l => NoneLeaves m (l.1.apply hashText m l.2)) m₀ ls)
    (h : Runs.run (machineStep hashText) m₀ ls = some m) :
    confirmedCount m₀ ≤ confirmedCount m := by
  induction ls generalizing m₀ with
  | nil => exact Option.some.inj h ▸ le_refl _
  | cons l ls ih => exact le_trans hkept.1.le_count (ih (hkept.2 _ rfl) h)

end Runs

/-- **Confirming targets makes progress**: once as many targets are confirmed as the mission was
created with as its goal, the objectives are complete, and they stay so while none leaves. -/
def ConfirmingCompletes (hashText : Str → Str) (m₀ : MissionStateMachine)
    (ls : List (MachineOp × Reading)) : Prop :=
  ∀ p q t t', p ++ q <+: ls → Runs.run (machineStep hashText) m₀ p = some t →
    m₀.objectives.totalTargetsConfirmed ≤ confirmedCount t →
    Runs.run (machineStep hashText) t q = some t' →
    Runs.Along (machineStep hashText) (fun m l => NoneLeaves m (l.1.apply hashText m l.2)) t q →
      ∀ now, t'.areObjectivesComplete now = true

/-- **A goal is still reached when the counted calls are left out**: the confirmed targets less the
counted confirmations reach their goal, or the extracted ones less the counted extractions, or as
many are extracted as are expected. -/
def GoalWithoutCounted (hashText : Str → Str) (m₀ : MissionStateMachine)
    (ls : List (MachineOp × Reading)) : Prop :=
  ∀ p t, p <+: ls → Runs.run (machineStep hashText) m₀ p = some t →
    m₀.objectives.totalTargetsConfirmed ≤ confirmedCount t →
      m₀.objectives.totalTargetsConfirmed ≤ (confirmedCount t : ℚ) -
          (Runs.emitted (machineStep hashText) countedConfirmation m₀ p).length ∨
        m₀.objectives.totalTargetsExtracted ≤ (extractedCount t : ℚ) -
          (Runs.emitted (machineStep hashText) countedExtraction m₀ p).length ∨
        0 < m₀.objectives.totalTargetsExpected ∧
          m₀.objectives.totalTargetsExpected ≤ extractedCount t

section Goal

variable {hashText : Str → Str} {m₀ : MissionStateMachine} {ls : List (MachineOp × Reading)}

/-- The check of the objectives after a run, in terms of the goals at its start. -/
theorem complete_run_iff (hgoal : 1 ≤ m₀.objectives.totalTargetsConfirmed)
    {t : MissionStateMachine} (h : Runs.run (machineStep hashText) m₀ ls = some t)
    (hreached : m₀.objectives.totalTargetsConfirmed ≤ confirmedCount t) (now : ℚ) :
    t.areObjectivesComplete now = true ↔
      m₀.objectives.totalTargetsConfirmed ≤ (confirmedCount t : ℚ) -
          (Runs.emitted (machineStep hashText) countedConfirmation m₀ ls).length ∨
        m₀.objectives.totalTargetsExtracted ≤ (extractedCount t : ℚ) -
          (Runs.emitted (machineStep hashText) countedExtraction m₀ ls).length ∨
        0 < m₀.objectives.totalTargetsExpected ∧
          m₀.objectives.totalTargetsExpected ≤ extractedCount t := by
  have hsome : 1 ≤ confirmedCount t := by exact_mod_cast le_trans hgoal hreached
  rw [areObjectivesComplete_iff hsome, objectives_run h]
  simp only [le_sub_iff_add_le]

/-- **Reaching the goal completes the objectives exactly if a goal is still reached when the counted
calls are left out.** -/
theorem confirming_completes_iff (hgoal : 1 ≤ m₀.objectives.totalTargetsConfirmed) :
    ConfirmingCompletes hashText m₀ ls ↔ GoalWithoutCounted hashText m₀ ls := by
  constructor
  · intro h p t hp ht hreached
    rw [← complete_run_iff hgoal ht hreached 0]
    exact h p [] t t (by rwa [List.append_nil]) ht hreached rfl trivial 0
  · intro h p q t t' hpq ht hreached ht' hkept now
    -- the goal is still reached, as none has left
    have hreached' : m₀.objectives.totalTargetsConfirmed ≤ confirmedCount t' :=
      le_trans hreached (by exact_mod_cast le_count_run hkept ht')
    have hrun : Runs.run (machineStep hashText) m₀ (p ++ q) = some t' :=
      Runs.run_append.2 ⟨t, ht, ht'⟩
    exact (complete_run_iff hgoal hrun hreached' now).2 (h (p ++ q) t' hpq hrun hreached')

end Goal

/-! ### A mission whose only target has been confirmed -/

/-- One target is to be confirmed and extracted. -/
def oneTarget : MissionObjectives :=
  { noObjectives with totalTargetsExpected := 1, totalTargetsConfirmed := 1
                      totalTargetsExtracted := 1 }

/-- The target is found and confirmed. -/
def oneConfirmed : List (MachineOp × Reading) :=
  [.upsertTarget newTarget, .confirmTarget "t1" "n1" ∅].map fun op => (op, ⟨1, "id"⟩)

theorem confirming_completes_iff_oneTarget :
    ConfirmingCompletes (fun _ => []) (.new "m" (.new "map") oneTarget 0) oneConfirmed ↔
      GoalWithoutCounted (fun _ => []) (.new "m" (.new "map") oneTarget 0) oneConfirmed :=
  confirming_completes_iff (le_refl (1 : ℚ))

/-- **A mission whose only target has been confirmed** is not complete. -/
theorem confirmed_target_incomplete :
    ¬ ∀ ls : List (MachineOp × Reading),
      ConfirmingCompletes (fun _ => []) (.new "m" (.new "map") oneTarget 0) ls := by
  intro h
  have hw : ∃ t, Runs.run (machineStep fun _ => []) (.new "m" (.new "map") oneTarget 0)
      oneConfirmed = some t ∧ confirmedCount t = 1 ∧ t.areObjectivesComplete 2 = false :=
    ⟨_, rfl, by decide +kernel, by decide +kernel⟩
  obtain ⟨t, ht, hcount, hincomplete⟩ := hw
  have hreached : oneTarget.totalTargetsConfirmed ≤ confirmedCount t := by
    rw [hcount]
    exact le_of_eq Nat.cast_one.symm
  have hcomplete := h oneConfirmed oneConfirmed [] t t (by simp) ht hreached rfl trivial 2
  rw [hincomplete] at hcomplete
  exact Bool.false_ne_true hcomplete

end Tashi
