/-
**Late reports.**

Only a registration compares its time with the one that is stored.  A discovery, an update of the
health or an attestation that arrives late takes the node back to its own time, and an update of
the health also replaces a newer health.  The reports about a node are followed through a run, with
the report whose health is stored and the reports that carried health.

Main definitions:

* `Lattice.Trace`, `Lattice.observe` — the registry and what is remembered of the reports about a
  node;
* `Lattice.NotRolledBack` — after a report the node is not older than before, and its health is
  that of the newest report that carried health;
* `Lattice.InTurn` — the report does not come too late.

Main results:

* `Lattice.notRolledBack_iff` — what one report does;
* `Lattice.no_roll_back_iff` — **no report of a run rolls a node back exactly if all of them come in
  turn.**
-/
import Endendend.Lattice.NodeRegistry
import Endendend.Foundation.Runs

set_option relaxedAutoImplicit false
set_option autoImplicit false

namespace Lattice

open Js Runs

/-- The health that a report brings to its node, if it is stored. -/
def brought (current : Option NodeProfile) (r : Report) : Option NodeHealthSample :=
  if r.carriesHealth then (written current r).map (·.health) else none

/-- A registry, with the report whose health is stored for a node, the health it brought, and the
reports about the node that carried health. -/
structure Trace where
  registry : NodeRegistry
  source : Option (Report × NodeHealthSample)
  carried : List Report

/-- An empty registry. -/
def Trace.new : Trace := ⟨∅, none, []⟩

/-- The delivery of a report, followed for a node. -/
def observe (k : Str) (t : Trace) (r : Report) : Option Trace :=
  some
    { registry := deliver t.registry r
      source :=
        if r.nodeId = k then
          ((brought (t.registry.get? k) r).map fun h => (r, h)).or t.source
        else t.source
      carried := if r.nodeId = k ∧ r.carriesHealth then t.carried ++ [r] else t.carried }

variable (k : Str)

/-- The node is not seen earlier than it was before. -/
def LastSeenKept (t t' : Trace) : Prop :=
  ∀ node node', t.registry.get? k = some node → t'.registry.get? k = some node' →
    node.lastSeenMs ≤ node'.lastSeenMs

/-- The health that is stored for the node, up to bringing it into range, was brought by a report
that is as new as each report about the node that carried health. -/
def HealthIsLatest (t : Trace) : Prop :=
  ∀ node, t.registry.get? k = some node → ∀ r ∈ t.carried, ∃ s h, t.source = some (s, h) ∧
    r.timestampMs ≤ s.timestampMs ∧ normalizeHealth node.health = normalizeHealth h

/-- A report does not roll the node back. -/
def NotRolledBack (t : Trace) (r : Report) : Prop :=
  ∀ t', observe k t r = some t' → LastSeenKept k t t' ∧ HealthIsLatest k t'

/-- A report about the node comes in turn. -/
structure InTurn (t : Trace) (r : Report) : Prop where
  /-- A report that is stored without a check is not older than what is stored. -/
  seen : ∀ node, t.registry.get? k = some node → (written (some node) r).isSome →
    node.lastSeenMs ≤ r.timestampMs
  /-- A health that is stored is not older than one that was carried before. -/
  newest : (brought (t.registry.get? k) r).isSome → ∀ c ∈ t.carried, c.timestampMs ≤ r.timestampMs
  /-- A registration that is ignored does not carry a newer health than the one that is stored. -/
  ignored : ∀ node, t.registry.get? k = some node → r.carriesHealth →
    written (some node) r = none → ∃ s h, t.source = some (s, h) ∧ r.timestampMs ≤ s.timestampMs
  /-- A discovery does not create a node for which an update of the health came before. -/
  created : t.registry.get? k = none → (written none r).isSome → r.carriesHealth = false →
    t.carried = []

/-! ### What is remembered is right -/

/-- The health that is stored is the one that its report brought. -/
structure Sourced (t : Trace) : Prop where
  stored : ∀ node s h, t.registry.get? k = some node → t.source = some (s, h) →
    normalizeHealth node.health = normalizeHealth h
  unknown : t.registry.get? k = none → t.source = none

theorem sourced_new : Sourced k Trace.new :=
  ⟨fun _ _ _ h => absurd h (Option.some_ne_none _ ∘ Eq.symm), fun _ => rfl⟩

variable {k}

/-! ### The steps of a trace -/

variable {t t' : Trace} {r : Report}

/-- A report about another node changes nothing that is remembered. -/
theorem observe_of_other (hk : r.nodeId ≠ k) (h : observe k t r = some t') :
    t'.registry.get? k = t.registry.get? k ∧ t'.source = t.source ∧ t'.carried = t.carried := by
  obtain rfl := Option.some.inj h
  refine ⟨?_, if_neg hk, if_neg fun hn => hk hn.1⟩
  rw [get?_deliver, if_neg (Ne.symm hk)]

/-- A report that writes nothing is at most remembered as one that carried health. -/
theorem observe_of_ignored (hk : r.nodeId = k) (hw : written (t.registry.get? k) r = none)
    (h : observe k t r = some t') :
    t'.registry.get? k = t.registry.get? k ∧ t'.source = t.source ∧
      t'.carried = if r.carriesHealth then t.carried ++ [r] else t.carried := by
  obtain rfl := Option.some.inj h
  refine ⟨?_, ?_, by simp [hk]⟩
  · rw [get?_deliver, if_pos hk.symm, hw, Option.none_or]
  · simp [hk, brought, hw]

/-- A report that writes a profile, with health or without. -/
theorem observe_of_written (hk : r.nodeId = k) {node : NodeProfile}
    (hw : written (t.registry.get? k) r = some node) (h : observe k t r = some t') :
    t'.registry.get? k = some node ∧
      t'.source = (if r.carriesHealth then some (r, node.health) else t.source) ∧
      t'.carried = if r.carriesHealth then t.carried ++ [r] else t.carried := by
  obtain rfl := Option.some.inj h
  refine ⟨?_, ?_, by simp [hk]⟩
  · rw [get?_deliver, if_pos hk.symm, hw, Option.some_or]
  · by_cases hr : r.carriesHealth <;> simp [hk, brought, hw, hr]

theorem Sourced.observe (hs : Sourced k t) (h : observe k t r = some t') : Sourced k t' := by
  by_cases hk : r.nodeId = k
  · cases hw : written (t.registry.get? k) r with
    | none =>
        obtain ⟨hget, hsource, -⟩ := observe_of_ignored hk hw h
        constructor
        · rw [hget, hsource]
          exact hs.stored
        · rw [hget, hsource]
          exact hs.unknown
    | some node =>
        obtain ⟨hget, hsource, -⟩ := observe_of_written hk hw h
        refine ⟨fun node' s h' hnode hsome => ?_, fun hnone => ?_⟩
        · obtain rfl := Option.some.inj (hget.symm.trans hnode)
          rw [hsource] at hsome
          by_cases hr : r.carriesHealth
          · rw [if_pos hr] at hsome
            rw [← (Prod.mk.inj (Option.some.inj hsome)).2]
          · rw [if_neg hr] at hsome
            -- without health there was a profile before, since a health was stored
            cases hcur : t.registry.get? k with
            | none => exact absurd (hsome.symm.trans (hs.unknown hcur)) (Option.some_ne_none _)
            | some before =>
                rw [hcur] at hw
                rw [normalizeHealth_written hw (Bool.eq_false_iff.2 hr)]
                exact hs.stored before s h' hcur hsome
        · exact absurd (hget.symm.trans hnone) (Option.some_ne_none node)
  · obtain ⟨hget, hsource, -⟩ := observe_of_other hk h
    constructor
    · rw [hget, hsource]
      exact hs.stored
    · rw [hget, hsource]
      exact hs.unknown

/-! ### What one report does -/

/-- A report keeps the time of the node exactly if it is stored in turn. -/
theorem lastSeenKept_iff (hk : r.nodeId = k) (h : observe k t r = some t') :
    LastSeenKept k t t' ↔ ∀ node, t.registry.get? k = some node →
      (written (some node) r).isSome → node.lastSeenMs ≤ r.timestampMs := by
  cases hw : written (t.registry.get? k) r with
  | none =>
      obtain ⟨hget, -⟩ := observe_of_ignored hk hw h
      refine iff_of_true (fun node node' hnode hnode' => ?_) fun node hnode hsome => ?_
      · rw [hget, hnode] at hnode'
        rw [Option.some.inj hnode']
      · rw [← hnode, hw] at hsome
        cases hsome
  | some node' =>
      obtain ⟨hget, -⟩ := observe_of_written hk hw h
      have htime := lastSeenMs_written hw
      constructor
      · intro hkept node hnode _
        rw [← htime]
        exact hkept node node' hnode hget
      · intro hseen node node'' hnode hnode''
        obtain rfl := Option.some.inj (hget.symm.trans hnode'')
        rw [htime]
        exact hseen node hnode (by rw [← hnode, hw]; rfl)

/-- A report that writes a health keeps the newest one exactly if none before was newer. -/
theorem healthIsLatest_of_brought (hk : r.nodeId = k) (hr : r.carriesHealth = true)
    {node : NodeProfile} (hw : written (t.registry.get? k) r = some node)
    (h : observe k t r = some t') :
    HealthIsLatest k t' ↔ ∀ c ∈ t.carried, c.timestampMs ≤ r.timestampMs := by
  obtain ⟨hget, hsource, hcarried⟩ := observe_of_written hk hw h
  rw [if_pos hr] at hsource hcarried
  constructor
  · intro hlatest c hc
    obtain ⟨s, h', hs, hle, -⟩ := hlatest node hget c (by rw [hcarried]; simp [hc])
    rw [hsource] at hs
    rwa [← (Prod.mk.inj (Option.some.inj hs)).1] at hle
  · intro hnewest node' hnode' c hc
    obtain rfl := Option.some.inj (hget.symm.trans hnode')
    refine ⟨r, node.health, hsource, ?_, rfl⟩
    rw [hcarried] at hc
    rcases List.mem_append.1 hc with hc | hc
    · exact hnewest c hc
    · rw [List.mem_singleton.1 hc]

/-- A report that is ignored keeps the newest health exactly if it carries no newer one. -/
theorem healthIsLatest_of_ignored (hs : Sourced k t) (hq : HealthIsLatest k t) (hk : r.nodeId = k)
    (hw : written (t.registry.get? k) r = none) (h : observe k t r = some t') :
    HealthIsLatest k t' ↔ ∀ node, t.registry.get? k = some node → r.carriesHealth →
      ∃ s h', t.source = some (s, h') ∧ r.timestampMs ≤ s.timestampMs := by
  obtain ⟨hget, hsource, hcarried⟩ := observe_of_ignored hk hw h
  constructor
  · intro hlatest node hnode hr
    rw [if_pos hr] at hcarried
    obtain ⟨s, h', hsome, hle, -⟩ :=
      hlatest node (hget.trans hnode) r (by rw [hcarried]; simp)
    exact ⟨s, h', hsource.symm.trans hsome, hle⟩
  · intro hnewer node hnode c hc
    rw [hget] at hnode
    rw [hcarried] at hc
    by_cases hr : r.carriesHealth
    · rw [if_pos hr] at hc
      rcases List.mem_append.1 hc with hc | hc
      · obtain ⟨s, h', hsome, hrest⟩ := hq node hnode c hc
        exact ⟨s, h', hsource.trans hsome, hrest⟩
      · obtain ⟨s, h', hsome, hle⟩ := hnewer node hnode hr
        rw [List.mem_singleton.1 hc]
        exact ⟨s, h', hsource.trans hsome, hle, hs.stored node s h' hnode hsome⟩
    · rw [if_neg hr] at hc
      obtain ⟨s, h', hsome, hrest⟩ := hq node hnode c hc
      exact ⟨s, h', hsource.trans hsome, hrest⟩

/-- A report that writes a profile without a health keeps the newest health, unless it creates the
node after a health was carried. -/
theorem healthIsLatest_of_kept (hs : Sourced k t) (hq : HealthIsLatest k t) (hk : r.nodeId = k)
    (hr : r.carriesHealth = false) {node : NodeProfile}
    (hw : written (t.registry.get? k) r = some node) (h : observe k t r = some t') :
    HealthIsLatest k t' ↔ (t.registry.get? k = none → t.carried = []) := by
  obtain ⟨hget, hsource, hcarried⟩ := observe_of_written hk hw h
  simp only [hr, Bool.false_eq_true, if_false] at hsource hcarried
  constructor
  · intro hlatest hnone
    rw [List.eq_nil_iff_forall_not_mem]
    intro c hc
    obtain ⟨s, h', hsome, -⟩ := hlatest node hget c (hcarried ▸ hc)
    rw [hsource, hs.unknown hnone] at hsome
    cases hsome
  · intro hcreated node' hnode' c hc
    obtain rfl := Option.some.inj (hget.symm.trans hnode')
    rw [hcarried] at hc
    cases hcur : t.registry.get? k with
    | none =>
        rw [hcreated hcur] at hc
        cases hc
    | some before =>
        obtain ⟨s, h', hsome, hle, hsame⟩ := hq before hcur c hc
        rw [hcur] at hw
        exact ⟨s, h', hsource.trans hsome, hle, (normalizeHealth_written hw hr).trans hsame⟩

/-- **What one report does**: it rolls its node back exactly if it does not come in turn. -/
theorem notRolledBack_iff (hs : Sourced k t) (hq : HealthIsLatest k t) :
    NotRolledBack k t r ↔ (r.nodeId = k → InTurn k t r) := by
  obtain ⟨t', h⟩ : ∃ t', observe k t r = some t' := ⟨_, rfl⟩
  have hrolled : NotRolledBack k t r ↔ LastSeenKept k t t' ∧ HealthIsLatest k t' := by
    constructor
    · exact fun hn => hn t' h
    · intro hn t'' h''
      rwa [← Option.some.inj (h.symm.trans h'')]
  rw [hrolled]
  by_cases hk : r.nodeId = k
  · rw [forall_prop_of_true hk, lastSeenKept_iff hk h]
    cases hw : written (t.registry.get? k) r with
    | none =>
        rw [healthIsLatest_of_ignored hs hq hk hw h]
        refine ⟨fun hn => ⟨hn.1, ?_, fun node hnode hr _ => hn.2 node hnode hr, ?_⟩, fun hn =>
          ⟨hn.seen, fun node hnode hr => hn.ignored node hnode hr (by rwa [← hnode])⟩⟩
        · simp [brought, hw]
        · intro hnone hsome
          rw [← hnone, hw] at hsome
          cases hsome
    | some node =>
        have hnotIgnored : ∀ before, t.registry.get? k = some before →
            written (some before) r ≠ none := by
          intro before hbefore hnone
          rw [← hbefore, hw] at hnone
          cases hnone
        by_cases hr : r.carriesHealth = true
        · rw [healthIsLatest_of_brought hk hr hw h]
          refine ⟨fun hn => ⟨hn.1, fun _ => hn.2, ?_, ?_⟩, fun hn => ⟨hn.seen, hn.newest ?_⟩⟩
          · exact fun before hbefore _ hnone => absurd hnone (hnotIgnored before hbefore)
          · exact fun _ _ hno => absurd (hr.symm.trans hno) (by decide)
          · simp [brought, hr, hw]
        · have hr := Bool.eq_false_iff.2 hr
          rw [healthIsLatest_of_kept hs hq hk hr hw h]
          refine ⟨fun hn => ⟨hn.1, ?_, ?_, fun hnone _ _ => hn.2 hnone⟩, fun hn =>
            ⟨hn.seen, fun hnone => hn.created hnone (by rw [← hnone, hw]; rfl) hr⟩⟩
          · simp [brought, hr]
          · exact fun _ _ hcarries => absurd (hr.symm.trans hcarries) (by decide)
  · obtain ⟨hget, hsource, hcarried⟩ := observe_of_other hk h
    refine iff_of_true ⟨fun node node' hnode hnode' => ?_, fun node hnode c hc => ?_⟩
      fun h => absurd h hk
    · rw [hget, hnode] at hnode'
      rw [Option.some.inj hnode']
    · rw [hget] at hnode
      rw [hcarried] at hc
      rw [hsource]
      exact hq node hnode c hc

/-! ### Every run -/

/-- **No report of a run rolls a node back exactly if all of them come in turn.** -/
theorem no_roll_back_iff (k : Str) (rs : List Report) :
    Along (observe k) (NotRolledBack k) Trace.new rs ↔
      Along (observe k) (fun t r => r.nodeId = k → InTurn k t r) Trace.new rs := by
  refine along_congr (I := fun t => Sourced k t ∧ HealthIsLatest k t) ?_ ?_ ?_
  · intro t r t' hI hP h
    exact ⟨hI.1.observe h, (hP t' h).2⟩
  · intro t r hI
    exact notRolledBack_iff hI.1 hI.2
  · exact ⟨sourced_new k, fun node hnode => absurd hnode (Option.some_ne_none node ∘ Eq.symm)⟩

/-- A node seen at time 10. -/
def seenNode : NodeProfile where
  nodeId := "n1"
  health := ⟨10, 90, 10, 10, 1, true, none, none, .healthy⟩
  trustScore := 1 / 2
  reputationScore := 1 / 2
  rewardPoints := 0
  contributionCount := 0
  successfulTasks := 0
  failedTasks := 0
  lastSeenMs := 10
  missionId := none

/-- An update of its health from time 5 arrives late. -/
def lateUpdate : Report := .updateHealth "n1" { batteryPct := some 50 } 5 fun _ => 20

theorem late_update_rolls_back :
    ¬ ∀ (k : Str) (rs : List Report), Along (observe k) (NotRolledBack k) Trace.new rs := by
  intro h
  obtain ⟨t, ht⟩ : ∃ t, observe "n1" Trace.new (.register seenNode) = some t := ⟨_, rfl⟩
  obtain ⟨t', ht'⟩ : ∃ t', observe "n1" t lateUpdate = some t' := ⟨_, rfl⟩
  have hseen : (t.registry.get? "n1").map (·.lastSeenMs) = some 10 ∧
      (t'.registry.get? "n1").map (·.lastSeenMs) = some 5 := by
    obtain rfl := Option.some.inj ht
    obtain rfl := Option.some.inj ht'
    decide +kernel
  obtain ⟨node, hnode, hten⟩ := Option.map_eq_some_iff.1 hseen.1
  obtain ⟨node', hnode', hfive⟩ := Option.map_eq_some_iff.1 hseen.2
  have hrolled := (h "n1" [.register seenNode, lateUpdate]).2 t ht
  have hle := (hrolled.1 t' ht').1 node node' hnode hnode'
  rw [hten, hfive] at hle
  exact absurd hle (by decide +kernel)

end Lattice
