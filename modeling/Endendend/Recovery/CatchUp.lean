/-
**Whether a recovery catches up.**

A node that catches up notes the last row of the mission, and the lag that remains is measured once
more.  It is measured from the row that the caller names, if the caller names one, and not from the
row that has just been noted; so the report shows the old lag again.  Without such a row, the lag is
measured by looking for the hash of the last row, which is found at the end unless an earlier row
has it.

Main definitions:

* `NodeRecovery.ReallyCatchesUp` — the report shows no lag, the next one none either, and a node
  that is stale or isolated keeps its last row;
* `NodeRecovery.TailStandsAlone` — the hash of the last row is found at the end and nowhere else.

Main results:

* `NodeRecovery.lagOf_tail_eq_zero_iff` — nothing follows the last row exactly if its hash stands
  alone;
* `NodeRecovery.really_catches_up_iff` — **a recovery catches up if and only if it has nothing to
  catch up with, or the caller names no row and the last hash stands alone**;
* `NodeRecovery.named_row_keeps_lag` — with a row named by the caller the lag remains.
-/
import Endendend.Recovery.NodeRecovery

set_option relaxedAutoImplicit false
set_option autoImplicit false

namespace NodeRecovery

open Js Vertex

/-- **The recovery really catches up.** -/
structure ReallyCatchesUp (m : RecoveryManager) (nodeId missionId : Str) (mission : MissionState)
    (nowMs : Decimal) (ctx : RecoverContext) : Prop where
  /-- After a recovery from a lag nothing is left of it, in this report and in the next. -/
  caughtUp : let out := recoverNode m nodeId missionId mission nowMs ctx
    (out.2.currentState = .recovered ∨ out.2.currentState = .degraded) →
      0 < out.2.diagnostics.initialCheckpointLag →
        out.2.diagnostics.checkpointLag = 0 ∧
          (out.2.diagnostics.replayedEvents ≠ 0 →
            out.2.diagnostics.replayedEvents = out.2.diagnostics.initialCheckpointLag) ∧
          ∀ mission' nowMs',
            (recoverNode out.1 nodeId missionId mission' nowMs'
              {}).2.diagnostics.initialCheckpointLag = 0
  /-- A node that is stale or isolated keeps its last row. -/
  kept : let out := recoverNode m nodeId missionId mission nowMs ctx
    (out.2.currentState = .stale ∨ out.2.currentState = .isolated) →
      out.1.localTails.get? (tailKey missionId nodeId) =
        m.localTails.get? (tailKey missionId nodeId)

/-- The hash of the last row is found at the end and nowhere else. -/
def TailStandsAlone (events : List MissionLedgerEvent) : Prop :=
  ∀ init e, events = init ++ [e] → e.eventHash ≠ genesis ∧ ∀ f ∈ init, f.eventHash ≠ e.eventHash

/-- The caller names a row. -/
def NamesRow (ctx : RecoverContext) : Prop :=
  ∃ hash, ctx.localCheckpointEventHash = some hash ∧ hash ≠ []

/-- The recovery finds the node behind, not too far, and not cut off. -/
def HasToCatchUp (m : RecoveryManager) (nodeId missionId : Str) (mission : MissionState)
    (nowMs : Decimal) (ctx : RecoverContext) : Prop :=
  MayCatchUp
    (lagOf (m.ledger.eventsForMission missionId) (getLocalCheckpoint m missionId nodeId ctx))
    (m.registry.getPeerSyncCount nodeId mission.roster.keys nowMs staleMs)
    mission.roster.keys.length

/-! ### The lag of the last row -/

/-- **Nothing follows the last row exactly if its hash stands alone.** -/
theorem lagOf_tail_eq_zero_iff (init : List MissionLedgerEvent) (e : MissionLedgerEvent) :
    lagOf (init ++ [e]) e.eventHash = 0 ↔ TailStandsAlone (init ++ [e]) := by
  have halone : TailStandsAlone (init ++ [e]) ↔
      e.eventHash ≠ genesis ∧ ∀ f ∈ init, f.eventHash ≠ e.eventHash := by
    refine ⟨fun h => h init e rfl, fun h init' e' heq => ?_⟩
    obtain ⟨rfl, he⟩ := List.append_inj' heq rfl
    obtain rfl := (List.cons.inj he).1
    exact h
  rw [halone, lagOf, missionCheckpointIndex]
  by_cases hgenesis : e.eventHash = genesis
  · rw [if_pos hgenesis]
    refine iff_of_false ?_ fun h => h.1 hgenesis
    simp
  rw [if_neg hgenesis, List.findIdx?_append]
  cases hidx : init.findIdx? fun f => f.eventHash = e.eventHash with
  | none =>
      have hnone := List.findIdx?_eq_none_iff.1 hidx
      refine iff_of_true (by simp [List.findIdx?_cons]) ⟨hgenesis, fun f hf => ?_⟩
      exact of_decide_eq_false (hnone f hf)
  | some i =>
      obtain ⟨hi, heq, -⟩ := List.findIdx?_eq_some_iff_getElem.1 hidx
      refine iff_of_false ?_ fun h => ?_
      · simp only [Option.some_or, List.length_append, List.length_singleton]
        omega
      · exact h.2 _ (List.getElem_mem hi) (of_decide_eq_true heq)

/-- A node that is behind has a last row to catch up with. -/
theorem exists_tail_of_lagOf {events : List MissionLedgerEvent} {localTail : Str}
    (h : 0 < lagOf events localTail) : ∃ init e, events = init ++ [e] := by
  rcases List.eq_nil_or_concat events with rfl | ⟨init, e, rfl⟩
  · unfold lagOf at h
    split at h <;> simp at h
  · exact ⟨init, e, by simp⟩

theorem missionTailHash_eq {ledger : MissionLedger} {missionId : Str}
    {init : List MissionLedgerEvent} {e : MissionLedgerEvent}
    (h : ledger.eventsForMission missionId = init ++ [e]) :
    ledger.missionTailHash missionId = e.eventHash := by
  rw [MissionLedger.missionTailHash, h, MissionLedger.tailHash, List.getLast?_concat]

/-! ### The report -/

section Report

variable {m : RecoveryManager} {nodeId missionId : Str} {mission : MissionState} {nowMs : Decimal}
  {ctx : RecoverContext}

/-- The caller's row is what a lag is measured from. -/
theorem getLocalCheckpoint_of_names {m' : RecoveryManager} (h : NamesRow ctx) :
    getLocalCheckpoint m' missionId nodeId ctx = getLocalCheckpoint m missionId nodeId ctx := by
  obtain ⟨hash, hctx, hne⟩ := h
  simp only [getLocalCheckpoint, hctx, if_pos hne]

/-- Without one it is the row that is stored. -/
theorem getLocalCheckpoint_of_stored (h : ¬ NamesRow ctx) {tail : Str}
    (htail : m.localTails.get? (tailKey missionId nodeId) = some tail) :
    getLocalCheckpoint m missionId nodeId ctx = tail := by
  have hstored : storedCheckpoint m missionId nodeId = tail := by rw [storedCheckpoint, htail]
  unfold getLocalCheckpoint
  cases hctx : ctx.localCheckpointEventHash with
  | none => exact hstored
  | some hash =>
      have hnil : hash = [] := by
        by_contra hne
        exact h ⟨hash, hctx, hne⟩
      simp only [hnil, ne_eq, not_true_eq_false, if_false]
      exact hstored

/-- What the report says, in terms of what was decided. -/
theorem recoverNode_spec (m : RecoveryManager) (nodeId missionId : Str) (mission : MissionState)
    (nowMs : Decimal) (ctx : RecoverContext) :
    let lag :=
      lagOf (m.ledger.eventsForMission missionId) (getLocalCheckpoint m missionId nodeId ctx)
    let decided := decideRecovery m nodeId missionId lag
      (m.registry.getPeerSyncCount nodeId mission.roster.keys nowMs staleMs)
      mission.roster.keys.length ctx
    let out := recoverNode m nodeId missionId mission nowMs ctx
    out.1.localTails = decided.2.2.localTails ∧ out.1.ledger = decided.2.2.ledger ∧
      out.2.diagnostics.checkpointLag = computeResidualLag decided.2.2 missionId nodeId ctx ∧
        out.2.diagnostics.replayedEvents = decided.2.1 ∧
          (out.2.currentState = decided.1 ∨ out.2.currentState = .degraded ∧
            (decided.1 = .recovered ∨ decided.1 = .syncing)) := by
  unfold recoverNode
  dsimp only [logRecoveryEvent]
  refine ⟨rfl, rfl, rfl, rfl, ?_⟩
  split
  · next h => exact Or.inr ⟨rfl, h.2⟩
  · exact Or.inl rfl

theorem lagOf_stored {m' : RecoveryManager} (hledger : m'.ledger = m.ledger)
    (htails : m'.localTails =
      m.localTails.set (tailKey missionId nodeId) (m.ledger.missionTailHash missionId))
    (hctx : ¬ NamesRow ctx) {init : List MissionLedgerEvent} {e : MissionLedgerEvent}
    (hevents : m.ledger.eventsForMission missionId = init ++ [e]) :
    computeResidualLag m' missionId nodeId ctx = lagOf (init ++ [e]) e.eventHash := by
  have htail : m'.localTails.get? (tailKey missionId nodeId) = some e.eventHash := by
    rw [htails, OrderedMap.get?_set_self, missionTailHash_eq hevents]
  rw [computeResidualLag, hledger, hevents, getLocalCheckpoint_of_stored hctx htail]

/-- **A recovery catches up if and only if it has nothing to catch up with, or the caller names no
row and the last hash stands alone.** -/
theorem really_catches_up_iff (m : RecoveryManager) (nodeId missionId : Str)
    (mission : MissionState) (nowMs : Decimal) (ctx : RecoverContext) :
    ReallyCatchesUp m nodeId missionId mission nowMs ctx ↔
      (HasToCatchUp m nodeId missionId mission nowMs ctx →
        ¬ NamesRow ctx ∧ TailStandsAlone (m.ledger.eventsForMission missionId)) := by
  obtain ⟨htails, hledger, hresidual, hreplayed, hstate⟩ :=
    recoverNode_spec m nodeId missionId mission nowMs ctx
  obtain ⟨hkept, hcase⟩ := decideRecovery_cases m nodeId missionId
    (getLocalCheckpoint m missionId nodeId ctx)
    (m.registry.getPeerSyncCount nodeId mission.roster.keys nowMs staleMs)
    mission.roster.keys.length ctx
  rcases hcase with ⟨hmay, hrecovered, hcount, hset⟩ | ⟨hmay, hwhy, hsame⟩
  · -- the node catches up
    have hbehind := hmay.1
    obtain ⟨init, e, hevents⟩ := exists_tail_of_lagOf hbehind
    have hended : (recoverNode m nodeId missionId mission nowMs ctx).2.currentState = .recovered ∨
        (recoverNode m nodeId missionId mission nowMs ctx).2.currentState = .degraded :=
      hstate.imp (fun h => h.trans hrecovered) (fun h => h.1)
    rw [forall_prop_of_true (show HasToCatchUp m nodeId missionId mission nowMs ctx from hmay)]
    constructor
    · intro h
      have hzero := (h.caughtUp hended hbehind).1
      have hnames : ¬ NamesRow ctx := by
        intro hnames
        rw [hresidual, computeResidualLag, hkept, getLocalCheckpoint_of_names hnames] at hzero
        exact absurd hzero hbehind.ne'
      rw [hresidual, lagOf_stored hkept hset hnames hevents, lagOf_tail_eq_zero_iff] at hzero
      exact ⟨hnames, hevents ▸ hzero⟩
    · rintro ⟨hnames, halone⟩
      rw [hevents, ← lagOf_tail_eq_zero_iff] at halone
      refine ⟨fun _ _ => ⟨?_, fun hne => ?_, fun mission' nowMs' => ?_⟩, fun h => ?_⟩
      · rw [hresidual, lagOf_stored hkept hset hnames hevents, halone]
      · exact hreplayed.trans (hcount.resolve_left (hreplayed ▸ hne))
      · have hnone : ¬ NamesRow {} := fun h => absurd h.choose_spec.1 (by simp)
        exact (lagOf_stored (hledger.trans hkept) (htails.trans hset) hnone hevents).trans halone
      · rcases hended with hended | hended <;> rw [hended] at h <;> exact absurd h (by decide)
  · -- the node keeps its last row
    refine iff_of_true ⟨fun hended hbehind => ?_, fun _ => ?_⟩ fun h => absurd h hmay
    · rcases hwhy with hzero | hdecided
      · exact absurd hzero hbehind.ne'
      · rcases hstate with hstate | ⟨-, hstate⟩
        · rw [hstate] at hended
          rcases hdecided with hdecided | hdecided <;> rw [hdecided] at hended <;>
            exact absurd hended (by decide)
        · rcases hdecided with hdecided | hdecided <;> rw [hdecided] at hstate <;>
            exact absurd hstate (by decide)
    · rw [htails, hsame]

end Report

/-! ### A row that the caller names -/

/-- A mission of one row, and nothing noted of it. -/
def oneRow : RecoveryManager where
  ledger :=
    [{ missionId := "m", actorId := "hq", eventType := .missionCreated, plane := .vertex
       payload := ∅, timestamp := 0, previousHash := genesis, eventHash := "00" }]
  registry := ⟨∅, ∅⟩
  hasReputation := false
  localTails := ∅
  logRing := []

/-- **With a row named by the caller the lag remains**: the node is recovered, the row of the
mission is noted, and the report still shows it missing. -/
theorem named_row_keeps_lag :
    let ctx : RecoverContext := { localCheckpointEventHash := some genesis }
    let out := recoverNode oneRow "n1" "m" (emptyMissionState "m" 0) 5 ctx
    out.2.currentState = .recovered ∧ out.2.diagnostics.initialCheckpointLag = 1 ∧
      out.2.diagnostics.checkpointLag = 1 ∧
        ¬ ReallyCatchesUp oneRow "n1" "m" (emptyMissionState "m" 0) 5 ctx := by
  intro ctx out
  have hstate : out.2.currentState = .recovered := by decide +kernel
  have hinitial : out.2.diagnostics.initialCheckpointLag = 1 := by decide +kernel
  have hlag : out.2.diagnostics.checkpointLag = 1 := by decide +kernel
  refine ⟨hstate, hinitial, hlag, fun h => ?_⟩
  have hzero := (h.caughtUp (Or.inl hstate) (by rw [hinitial]; exact one_pos)).1
  exact absurd (hlag.symm.trans hzero) (by decide)

end NodeRecovery
