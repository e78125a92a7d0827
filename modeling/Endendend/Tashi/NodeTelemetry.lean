/-
**What the machine keeps of the reports of a node** (`registerNode` and `updateNode` of
`shared/tashi-mission-map-machine.ts`).

A report passes through a patch, which takes its values, and then through a merge, which keeps the
greater one of the value that is stored and the one that is reported.

Main definitions:

* `Tashi.NodeReport`, `Tashi.reportStep` — reports, and runs of them that remember the values that
  the latest ones carried;
* `Tashi.CurrentTelemetry` — the stored values are the latest ones, and the gate of the quorum reads
  these;
* `Tashi.NotBelow` — the condition: a report carries no value below the stored one.

Main results:

* `Tashi.telemetryAt_apply` — **what a report does to the stored values**;
* `Tashi.current_iff_not_below` — **over every run the stored values are the latest ones exactly if
  no report carries a value below the stored one**;
* `Tashi.drained_node_counts` — a drained node that still counts towards the quorum.
-/
import Endendend.Tashi.AbsorbingPhases

set_option relaxedAutoImplicit false
set_option autoImplicit false

namespace Tashi

open Js

/-! ### Reports -/

/-- A report of a node. -/
inductive NodeReport
  | register (node : NodeStatus)
  | update (nodeId : Str) (patch : NodePatch)

/-- The machine after a report. -/
def NodeReport.apply (m : MissionStateMachine) (now : ℚ) : NodeReport → MissionStateMachine
  | register node => m.registerNode node now
  | update nodeId patch => m.updateNode nodeId patch now

/-- The battery level and the link quality that are stored for a node. -/
def telemetryAt (m : MissionStateMachine) (id : Str) : Option (ℚ × ℚ) :=
  (m.nodes.get? id).map fun n => (n.batteryPct, n.linkQuality)

/-- The values in range that a report carries for a node; an update of a node that is not there is
not taken. -/
def NodeReport.carries (m : MissionStateMachine) (id : Str) : NodeReport → Option ℚ × Option ℚ
  | register node =>
    if node.nodeId = id then
      (some (clamp node.batteryPct 0 100), some (clamp node.linkQuality 0 1))
    else (none, none)
  | update nodeId patch =>
    if nodeId = id ∧ (m.nodes.get? id).isSome then
      (patch.batteryPct.map fun b => clamp b 0 100, patch.linkQuality.map fun q => clamp q 0 1)
    else (none, none)

theorem clamp_nonneg (v hi : ℚ) : 0 ≤ clamp v 0 hi := le_max_left _ _

theorem max_clamp {v hi : ℚ} (h : 0 ≤ v) : max v (clamp v 0 hi) = v :=
  max_eq_left (max_le h (min_le_right _ _))

section Reports

variable {m : MissionStateMachine} {id : Str} (now : ℚ) (report : NodeReport)

/-- The reports of other nodes. -/
theorem get?_apply_other {id' : Str} {n : NodeStatus} (h : id' ≠ id) :
    (m.nodes.set id' n).get? id = m.nodes.get? id := by
  rw [OrderedMap.get?_set, if_neg (Ne.symm h)]

/-- **What a report does to the stored values**: each is raised to the one it carries. -/
theorem telemetryAt_apply {b q : ℚ} (h : telemetryAt m id = some (b, q)) (hb : 0 ≤ b)
    (hq : 0 ≤ q) :
    telemetryAt (report.apply m now) id =
      some (max b ((report.carries m id).1.getD b), max q ((report.carries m id).2.getD q)) := by
  obtain ⟨n, hn, hbq⟩ := Option.map_eq_some_iff.1 h
  obtain ⟨rfl, rfl⟩ := Prod.mk.inj hbq
  cases report with
  | register node =>
      simp only [NodeReport.apply, NodeReport.carries, MissionStateMachine.registerNode,
        telemetryAt]
      by_cases hid : node.nodeId = id
      · subst hid
        simp [hn, mergeNode]
      · simp [get?_apply_other hid, hid, hn]
  | update nodeId patch =>
      simp only [NodeReport.apply, NodeReport.carries, MissionStateMachine.updateNode, telemetryAt]
      by_cases hid : nodeId = id
      · subst hid
        cases patch.batteryPct <;> cases patch.linkQuality <;>
          simp [hn, mergeNode, max_clamp hb, max_clamp hq]
      · cases hget : m.nodes.get? nodeId <;> simp [get?_apply_other hid, hid, hn]

/-- A node that is not there is stored as it is registered. -/
theorem telemetryAt_apply_of_none (h : telemetryAt m id = none) :
    telemetryAt (report.apply m now) id = none ∧ report.carries m id = (none, none) ∨
      ∃ b q, telemetryAt (report.apply m now) id = some (b, q) ∧
        report.carries m id = (some b, some q) ∧ 0 ≤ b ∧ 0 ≤ q := by
  have hn : m.nodes.get? id = none := Option.map_eq_none_iff.1 h
  cases report with
  | register node =>
      simp only [NodeReport.apply, NodeReport.carries, MissionStateMachine.registerNode,
        telemetryAt]
      by_cases hid : node.nodeId = id
      · subst hid
        refine Or.inr ⟨clamp node.batteryPct 0 100, clamp node.linkQuality 0 1, ?_, ?_,
          clamp_nonneg _ _, clamp_nonneg _ _⟩
        · simp [hn]
        · simp
      · exact Or.inl (by simp [get?_apply_other hid, hid, hn])
  | update nodeId patch =>
      simp only [NodeReport.apply, NodeReport.carries, MissionStateMachine.updateNode, telemetryAt]
      refine Or.inl ⟨?_, by simp [hn]⟩
      by_cases hid : nodeId = id
      · subst hid
        simp [hn]
      · cases hget : m.nodes.get? nodeId <;> simp [get?_apply_other hid, hn]

end Reports

/-! ### Runs -/

/-- A machine with the values that the latest reports of a node carried. -/
structure Watch where
  machine : MissionStateMachine
  batteryPct : Option ℚ
  linkQuality : Option ℚ

/-- A report, made at some time. -/
def reportStep (id : Str) (w : Watch) (l : NodeReport × ℚ) : Option Watch :=
  some
    { machine := l.1.apply w.machine l.2
      batteryPct := (l.1.carries w.machine id).1.or w.batteryPct
      linkQuality := (l.1.carries w.machine id).2.or w.linkQuality }

/-- **The stored values of a node are those of its latest reports**, so it does not count towards
the quorum if one of these is at or below its threshold. -/
structure CurrentTelemetry (id : Str) (w : Watch) : Prop where
  stored : ∀ b q, telemetryAt w.machine id = some (b, q) →
    w.batteryPct = some b ∧ w.linkQuality = some q
  gate : ∀ n, w.machine.nodes.get? id = some n →
    (∃ b ∈ w.batteryPct, b ≤ 15) ∨ (∃ q ∈ w.linkQuality, q ≤ 1 / 5) →
      n ∉ w.machine.listNodes.filter NodeStatus.isActive

/-- **A report carries no value below the stored one.** -/
def NotBelow (id : Str) (w : Watch) (l : NodeReport × ℚ) : Prop :=
  ∀ b q, telemetryAt w.machine id = some (b, q) →
    (∀ v ∈ (l.1.carries w.machine id).1, b ≤ v) ∧ ∀ v ∈ (l.1.carries w.machine id).2, q ≤ v

/-- The values of the latest reports are stored, and they are not negative. -/
def Stored (id : Str) (w : Watch) : Prop :=
  ∀ b q, telemetryAt w.machine id = some (b, q) →
    w.batteryPct = some b ∧ w.linkQuality = some q ∧ 0 ≤ b ∧ 0 ≤ q

/-- The gate of the quorum reads the stored values. -/
theorem Stored.current {id : Str} {w : Watch} (h : Stored id w) : CurrentTelemetry id w := by
  refine ⟨fun b q hbq => ⟨(h b q hbq).1, (h b q hbq).2.1⟩, fun n hn hlow hmem => ?_⟩
  obtain ⟨hb, hq, -⟩ := h n.batteryPct n.linkQuality (by rw [telemetryAt, hn]; rfl)
  have hactive : NodeStatus.isActive n = true := (List.mem_filter.1 hmem).2
  simp only [NodeStatus.isActive, Bool.and_eq_true, decide_eq_true_eq] at hactive
  simp only [hb, hq, Option.mem_some_iff, exists_eq_left'] at hlow
  rcases hlow with hle | hle
  · exact absurd hactive.1.2 (not_lt.2 hle)
  · exact absurd hactive.2 (not_lt.2 hle)

theorem max_getD_eq_iff {v : ℚ} {o : Option ℚ} :
    o.or (some v) = some (max v (o.getD v)) ↔ ∀ u ∈ o, v ≤ u := by
  cases o with
  | none => simp
  | some u => simp

/-- **A report keeps the stored values current exactly if it carries none below them.** -/
theorem stored_step_iff {id : Str} {w w' : Watch} {l : NodeReport × ℚ} (h : Stored id w)
    (hs : reportStep id w l = some w') :
    (NotBelow id w l → Stored id w') ∧ (¬ NotBelow id w l → ¬ CurrentTelemetry id w') := by
  obtain rfl := Option.some.inj hs
  cases htel : telemetryAt w.machine id with
  | none =>
      have hnot : NotBelow id w l := fun b q hbq =>
        absurd (htel.symm.trans hbq) (Option.some_ne_none _).symm
      refine ⟨fun _ => ?_, fun hbelow => absurd hnot hbelow⟩
      intro b q hbq
      rcases telemetryAt_apply_of_none l.2 l.1 htel with ⟨hnone, -⟩ | ⟨b', q', hsome, hc, hb, hq⟩
      · exact absurd (hnone.symm.trans hbq) (Option.some_ne_none _).symm
      · obtain ⟨rfl, rfl⟩ := Prod.mk.inj (Option.some.inj (hsome.symm.trans hbq))
        simp only [hc, Option.some_or]
        exact ⟨trivial, trivial, hb, hq⟩
  | some bq =>
      obtain ⟨b, q⟩ := bq
      obtain ⟨hwb, hwq, hb, hq⟩ := h b q htel
      have hafter := telemetryAt_apply l.2 l.1 htel hb hq
      have hiff : NotBelow id w l ↔
          ((l.1.carries w.machine id).1.or w.batteryPct =
              some (max b ((l.1.carries w.machine id).1.getD b)) ∧
            (l.1.carries w.machine id).2.or w.linkQuality =
              some (max q ((l.1.carries w.machine id).2.getD q))) := by
        rw [hwb, hwq, max_getD_eq_iff, max_getD_eq_iff]
        constructor
        · exact fun hbelow => hbelow b q htel
        · intro hle b' q' hbq
          obtain ⟨rfl, rfl⟩ := Prod.mk.inj (Option.some.inj (htel.symm.trans hbq))
          exact hle
      constructor
      · intro hbelow b' q' hbq
        obtain ⟨rfl, rfl⟩ := Prod.mk.inj (Option.some.inj (hafter.symm.trans hbq))
        obtain ⟨hb', hq'⟩ := hiff.1 hbelow
        exact ⟨hb', hq', le_max_of_le_left hb, le_max_of_le_left hq⟩
      · exact fun hbelow hcurrent => hbelow (hiff.2 (hcurrent.stored _ _ hafter))

/-- **Over every run of reports the stored values are the latest ones exactly if no report carries
a value below the stored one.** -/
theorem current_iff_not_below {id : Str} {m : MissionStateMachine} (hm : m.nodes.get? id = none)
    {ls : List (NodeReport × ℚ)} {w : Watch}
    (h : Runs.run (reportStep id) ⟨m, none, none⟩ ls = some w) :
    (∀ p t, p <+: ls → Runs.run (reportStep id) ⟨m, none, none⟩ p = some t →
        CurrentTelemetry id t) ↔
      Runs.Along (reportStep id) (NotBelow id) ⟨m, none, none⟩ ls := by
  have hnone : telemetryAt m id = none := by rw [telemetryAt, hm, Option.map_none]
  have hstart : Stored id ⟨m, none, none⟩ := fun b q hbq =>
    absurd (hnone.symm.trans hbq) (Option.some_ne_none _).symm
  exact Runs.always_iff_along_of_run (I := Stored id) (fun _ hI => hI.current)
    (fun _ _ _ hI hbelow hs => (stored_step_iff hI hs).1 hbelow)
    (fun _ _ _ hI hbelow hs => (stored_step_iff hI hs).2 hbelow) hstart h

/-! ### A drained node -/

/-- An update with a battery level and a link quality. -/
def drain (batteryPct linkQuality lastSeenMs : ℚ) : NodePatch where
  nodeId := none
  role := none
  batteryPct := some batteryPct
  linkQuality := some linkQuality
  gpsFix := none
  lastSeenMs := some lastSeenMs
  active := none
  capabilities := none
  missionId := none
  location := none

/-- A node is registered with a full battery and charges further. -/
def charging : List (NodeReport × ℚ) :=
  [(.register relayNode, 1), (.update "n1" (drain 95 (9 / 10) 2), 2)]

theorem current_iff_not_below_charging :
    ∃ w, Runs.run (reportStep "n1") ⟨.new "m" (.new "map") noObjectives 0, none, none⟩ charging =
        some w ∧
      ((∀ p t, p <+: charging →
          Runs.run (reportStep "n1") ⟨.new "m" (.new "map") noObjectives 0, none, none⟩ p =
            some t → CurrentTelemetry "n1" t) ↔
        Runs.Along (reportStep "n1") (NotBelow "n1")
          ⟨.new "m" (.new "map") noObjectives 0, none, none⟩ charging) :=
  ⟨_, rfl, current_iff_not_below rfl rfl⟩

/-- A node is registered with a full battery and reports an empty one later. -/
def drained : List (NodeReport × ℚ) :=
  [(.register relayNode, 1), (.update "n1" (drain 0 (9 / 10) 2), 2)]

/-- **A drained node that still counts towards the quorum.** -/
theorem drained_node_counts :
    ¬ ∀ (ls : List (NodeReport × ℚ)) (w : Watch),
      Runs.run (reportStep "n1") ⟨.new "m" (.new "map") noObjectives 0, none, none⟩ ls = some w →
        CurrentTelemetry "n1" w := by
  intro h
  have hw : ∃ w, Runs.run (reportStep "n1") ⟨.new "m" (.new "map") noObjectives 0, none, none⟩
      drained = some w ∧ telemetryAt w.machine "n1" = some (90, 9 / 10) ∧
        w.batteryPct = some 0 := ⟨_, rfl, by decide +kernel, by decide +kernel⟩
  obtain ⟨w, hrun, hstored, hlatest⟩ := hw
  have hcurrent := ((h drained w hrun).stored 90 (9 / 10) hstored).1
  rw [hlatest] at hcurrent
  exact absurd hcurrent (by decide)

end Tashi
