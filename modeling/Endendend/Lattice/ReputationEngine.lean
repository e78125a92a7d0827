/-
**The reputation engine** (`lattice/reputation-engine.ts`).

The rows of a node in a mission are counted one after the other into a score that is clamped at both
ends, rows that record a reputation being skipped.  From the score and the counts follow a decay and
the final score.  A row that lifts the score lifts everything that is computed from it afterwards,
so the position where it stands does not matter.

Main definitions:

* `Lattice.isProofFailure`, `Lattice.isPositiveProof` — the rows that count;
* `Lattice.Tally`, `Lattice.countEvent` — the loop over the rows;
* `Lattice.evaluateFromLedger`, `Lattice.computeScore` — the score, and the row that records it;
* `Lattice.LiftsScore` — a positive proof or a heartbeat of the Lattice plane.

Main results:

* `Lattice.countEvent_mono`, `Lattice.finalScore_mono` — the loop and the last step are monotone;
* `Lattice.reputation_monotone_stable` — **a row that lifts never lowers the final score wherever it
  is inserted, a proof failure never raises it, and rows that record a reputation never change it.**
-/
import Endendend.Vertex.Replay
import Mathlib.Tactic.Linarith
import Mathlib.Tactic.NormNum

set_option relaxedAutoImplicit false
set_option autoImplicit false

namespace Lattice

open Js Vertex

/-! ### Rows that count -/

/-- A text that is looked for in a field of the payload. -/
def mentions (e : EventCore) (key word : Str) : Bool :=
  word <:+: toLowerCase (e.textAt key (.str ""))

def isProofFailure (e : EventCore) : Bool :=
  if e.eventType = .nodeOffline ∧ e.plane = .lattice then true
  else if e.eventType ≠ .safetyAlert then false
  else
    let names (word : Str) : Bool := mentions e "kind" word || mentions e "message" word
    if names "geofence" then true
    else if names "telemetry" then true
    else
      match e.payload.get? "level" with
      | some (.str level) => level = lit "critical" && names "inconsistent"
      | _ => false

def isPositiveProof (e : EventCore) : Bool :=
  if e.plane ≠ .vertex then false
  else
    match e.eventType with
    | .targetDiscovered => true
    | .targetConfirmed => true
    | .extractionConfirmed => true
    | .recoveryCheckpoint => mentions e "label" "relay"
    | _ => false

/-! ### The loop -/

/-- What the loop has counted. -/
structure Tally where
  score : ℚ
  contributions : ℕ
  violations : ℕ
  heartbeats : ℕ

def Tally.start : Tally := ⟨1 / 2, 0, 0, 0⟩

def countEvent (t : Tally) (e : EventCore) : Tally :=
  match e.eventType with
  | .nodeHeartbeat =>
    if e.plane = .lattice then
      { t with heartbeats := t.heartbeats + 1, score := min 1 (t.score + 5 / 100) }
    else t
  | _ =>
    if isPositiveProof e then
      { t with contributions := t.contributions + 1, score := min 1 (t.score + 15 / 100) }
    else if isProofFailure e then
      { t with violations := t.violations + 1, score := max 0 (t.score - 2 / 10) }
    else t

/-- What a violation takes off the score at the end. -/
def Tally.decay (t : Tally) : ℚ :=
  if t.violations > 0 then min t.score (1 / 10 * t.violations) else 0

def Tally.finalScore (t : Tally) : ℚ :=
  max 0 (min 1 (t.score - t.decay + t.contributions * (5 / 100)))

structure ReputationScore where
  nodeId : Str
  missionId : Str
  baseScore : ℚ
  decay : ℚ
  proofContributions : ℕ
  uptime : ℕ
  violations : ℕ
  finalScore : ℚ
  updateEventHash : Option Str

/-- The rows that are counted. -/
def countedRows (ledger : MissionLedger) (nodeId missionId : Str) : List MissionLedgerEvent :=
  (ledger.eventsForNodeInMission nodeId missionId).filter fun e => e.eventType ≠ .reputationUpdate

def tallyOf (ledger : MissionLedger) (nodeId missionId : Str) : Tally :=
  (countedRows ledger nodeId missionId).foldl (fun t e => countEvent t e.toEventCore) .start

def evaluateFromLedger (ledger : MissionLedger) (nodeId missionId : Str) : ReputationScore :=
  let t := tallyOf ledger nodeId missionId
  { nodeId
    missionId
    baseScore := t.score
    decay := t.decay
    proofContributions := t.contributions
    uptime := t.heartbeats
    violations := t.violations
    finalScore := t.finalScore
    updateEventHash := none }

section Compute

variable (subtleDigest : Str → List UInt8) (numJson : ℚ → Json)

/-- The row that records a score; `numJson` is how a number of the payload is written. -/
def reputationUpdate (core : ReputationScore) (nowMs : Decimal) : EventCore where
  missionId := core.missionId
  actorId := core.nodeId
  eventType := .reputationUpdate
  plane := .lattice
  payload := .ofList
    [("nodeId", .str core.nodeId), ("missionId", .str core.missionId),
      ("baseScore", numJson core.baseScore), ("decay", numJson core.decay),
      ("proofContributions", numJson core.proofContributions), ("uptime", numJson core.uptime),
      ("violations", numJson core.violations), ("finalScore", numJson core.finalScore),
      ("recordedAtMs", .num nowMs)]
  timestamp := nowMs

/-- Computes a score and records it, if `persist` is set. -/
def computeScore (ledger : MissionLedger) (persist : Bool) (nodeId missionId : Str)
    (nowMs : Decimal) : MissionLedger × ReputationScore :=
  let core := evaluateFromLedger ledger nodeId missionId
  if persist then
    let event := sealed subtleDigest (beginAppend ledger (reputationUpdate numJson core nowMs))
    (ledger ++ [event], { core with updateEventHash := some event.eventHash })
  else (ledger, core)

end Compute

/-! ### Monotone -/

/-- A tally that is at least as good. -/
structure Tally.Le (t u : Tally) : Prop where
  score : t.score ≤ u.score
  contributions : t.contributions ≤ u.contributions
  violations : u.violations ≤ t.violations

theorem Tally.Le.refl (t : Tally) : t.Le t := ⟨le_refl _, le_refl _, le_refl _⟩

/-- The loop is monotone in what it has counted. -/
theorem countEvent_mono {t u : Tally} (h : t.Le u) (e : EventCore) :
    (countEvent t e).Le (countEvent u e) := by
  have hscore := h.score
  have hcontributions := h.contributions
  have hviolations := h.violations
  have hheartbeat : min 1 (t.score + 5 / 100) ≤ min 1 (u.score + 5 / 100) :=
    min_le_min_left 1 (by linarith)
  have hproof : min 1 (t.score + 15 / 100) ≤ min 1 (u.score + 15 / 100) :=
    min_le_min_left 1 (by linarith)
  have hfailure : max 0 (t.score - 2 / 10) ≤ max 0 (u.score - 2 / 10) :=
    max_le_max_left 0 (by linarith)
  unfold countEvent
  split
  · split
    · exact ⟨hheartbeat, hcontributions, hviolations⟩
    · exact h
  · split
    · exact ⟨hproof, Nat.succ_le_succ hcontributions, hviolations⟩
    · split
      · exact ⟨hfailure, hcontributions, Nat.succ_le_succ hviolations⟩
      · exact h

theorem foldl_countEvent_mono {t u : Tally} (h : t.Le u) (rows : List MissionLedgerEvent) :
    (rows.foldl (fun t e => countEvent t e.toEventCore) t).Le
      (rows.foldl (fun t e => countEvent t e.toEventCore) u) := by
  induction rows generalizing t u with
  | nil => exact h
  | cons e rows ih => exact ih (countEvent_mono h e.toEventCore)

/-- The score of the loop stays between the clamps. -/
structure Tally.InRange (t : Tally) : Prop where
  nonneg : 0 ≤ t.score
  le_one : t.score ≤ 1

theorem countEvent_inRange {t : Tally} (h : t.InRange) (e : EventCore) :
    (countEvent t e).InRange := by
  have hnonneg := h.nonneg
  have hle := h.le_one
  unfold countEvent
  split
  · split
    · exact ⟨le_min zero_le_one (by linarith), min_le_left _ _⟩
    · exact h
  · split
    · exact ⟨le_min zero_le_one (by linarith), min_le_left _ _⟩
    · split
      · exact ⟨le_max_left _ _, max_le zero_le_one (by linarith)⟩
      · exact h

theorem foldl_countEvent_inRange {t : Tally} (h : t.InRange) (rows : List MissionLedgerEvent) :
    (rows.foldl (fun t e => countEvent t e.toEventCore) t).InRange := by
  induction rows generalizing t with
  | nil => exact h
  | cons e rows ih => exact ih (countEvent_inRange h e.toEventCore)

theorem start_inRange : Tally.start.InRange :=
  ⟨by norm_num [Tally.start], by norm_num [Tally.start]⟩

/-- The decay never takes more than there is. -/
theorem score_sub_decay {t : Tally} (h : 0 ≤ t.score) :
    t.score - t.decay = max 0 (t.score - 1 / 10 * t.violations) := by
  have hnonneg : (0 : ℚ) ≤ t.violations := Nat.cast_nonneg _
  unfold Tally.decay
  split
  · rcases le_total t.score (1 / 10 * t.violations) with hle | hle
    · rw [min_eq_left hle, max_eq_left (by linarith), sub_self]
    · rw [min_eq_right hle, max_eq_right (by linarith)]
  · next hzero =>
      have hv : t.violations = 0 := Nat.eq_zero_of_not_pos hzero
      rw [hv, Nat.cast_zero, mul_zero, sub_zero, max_eq_right h]

/-- A better tally has a final score at least as high. -/
theorem finalScore_mono {t u : Tally} (ht : 0 ≤ t.score) (h : t.Le u) :
    t.finalScore ≤ u.finalScore := by
  have hscore := h.score
  have hcontributions : (t.contributions : ℚ) ≤ u.contributions := Nat.cast_le.2 h.contributions
  have hviolations : (u.violations : ℚ) ≤ t.violations := Nat.cast_le.2 h.violations
  have hrest : max 0 (t.score - 1 / 10 * t.violations) ≤ max 0 (u.score - 1 / 10 * u.violations) :=
    max_le_max_left 0 (by linarith)
  rw [Tally.finalScore, Tally.finalScore, score_sub_decay ht, score_sub_decay (ht.trans hscore)]
  exact max_le_max_left 0 (min_le_min_left 1 (by linarith))

/-! ### Inserted rows -/

/-- A positive proof, or a heartbeat of the Lattice plane. -/
def LiftsScore (e : EventCore) : Prop :=
  isPositiveProof e ∨ e.eventType = .nodeHeartbeat ∧ e.plane = .lattice

theorem le_countEvent {t : Tally} (h : t.InRange) {e : EventCore} (he : LiftsScore e) :
    t.Le (countEvent t e) := by
  have hle := h.le_one
  have hheartbeat : t.score ≤ min 1 (t.score + 5 / 100) := le_min hle (by linarith)
  have hproof : t.score ≤ min 1 (t.score + 15 / 100) := le_min hle (by linarith)
  unfold countEvent
  split
  · split
    · exact ⟨hheartbeat, le_refl _, le_refl _⟩
    · exact .refl t
  · next hother =>
      -- what is no heartbeat and lifts the score is a positive proof
      have hpositive : isPositiveProof e := he.resolve_right fun h => hother h.1
      rw [if_pos hpositive]
      exact ⟨hproof, Nat.le_succ _, le_refl _⟩

/-- A row that fails a proof is neither a heartbeat nor a positive proof. -/
theorem not_positive_of_failure {e : EventCore} (he : isProofFailure e) :
    isPositiveProof e = false ∧ e.eventType ≠ .nodeHeartbeat := by
  have htype : e.eventType = .nodeOffline ∨ e.eventType = .safetyAlert := by
    by_contra hnot
    obtain ⟨hoffline, halert⟩ := not_or.1 hnot
    unfold isProofFailure at he
    rw [if_neg fun h => hoffline h.1, if_pos halert] at he
    exact Bool.noConfusion he
  rcases htype with htype | htype <;> simp [isPositiveProof, htype]

theorem countEvent_le {t : Tally} (h : t.InRange) {e : EventCore} (he : isProofFailure e) :
    (countEvent t e).Le t := by
  have hnonneg := h.nonneg
  have hfailure : max 0 (t.score - 2 / 10) ≤ t.score := max_le hnonneg (by linarith)
  obtain ⟨hpositive, hheartbeat⟩ := not_positive_of_failure he
  unfold countEvent
  split
  · next htype => exact absurd htype hheartbeat
  · rw [hpositive, if_neg Bool.false_ne_true, if_pos he]
    exact ⟨hfailure, le_refl _, Nat.le_succ _⟩

theorem countedRows_append (l l' : MissionLedger) (nodeId missionId : Str) :
    countedRows (l ++ l') nodeId missionId =
      countedRows l nodeId missionId ++ countedRows l' nodeId missionId := by
  simp only [countedRows, MissionLedger.eventsForNodeInMission, List.filter_append]

/-- One more row in the ledger is one more step of the loop, if it counts, with the same rows before
and after it. -/
theorem tallyOf_insert (pre post : MissionLedger) (e : MissionLedgerEvent)
    (nodeId missionId : Str) :
    ∃ (t : Tally) (rows : List MissionLedgerEvent), t.InRange ∧
      tallyOf (pre ++ post) nodeId missionId =
          rows.foldl (fun t e => countEvent t e.toEventCore) t ∧
        (tallyOf (pre ++ e :: post) nodeId missionId =
            rows.foldl (fun t e => countEvent t e.toEventCore) t ∨
          tallyOf (pre ++ e :: post) nodeId missionId =
            rows.foldl (fun t e => countEvent t e.toEventCore) (countEvent t e.toEventCore)) := by
  have hone : countedRows [e] nodeId missionId = [] ∨ countedRows [e] nodeId missionId = [e] :=
    List.sublist_singleton.1 (List.filter_sublist.trans List.filter_sublist)
  refine ⟨tallyOf pre nodeId missionId, countedRows post nodeId missionId,
    foldl_countEvent_inRange start_inRange _, ?_, ?_⟩
  · rw [tallyOf, countedRows_append, List.foldl_append]
    rfl
  · rw [tallyOf, List.append_cons, countedRows_append, countedRows_append, List.foldl_append,
      List.foldl_append]
    exact hone.imp (fun h => by rw [h]; rfl) (fun h => by rw [h]; rfl)

/-- Rows that record a reputation are not counted. -/
theorem tallyOf_congr {ledger ledger' : MissionLedger}
    (h : (ledger'.filter fun e => e.eventType ≠ .reputationUpdate) =
      ledger.filter fun e => e.eventType ≠ .reputationUpdate) (nodeId missionId : Str) :
    tallyOf ledger' nodeId missionId = tallyOf ledger nodeId missionId := by
  have hrows : ∀ l : MissionLedger, countedRows l nodeId missionId =
      MissionLedger.eventsForNodeInMission
        (l.filter fun e => e.eventType ≠ .reputationUpdate) nodeId missionId := by
    intro l
    simp only [countedRows, MissionLedger.eventsForNodeInMission, List.filter_filter]
    exact List.filter_congr fun e _ => Bool.and_comm _ _
  rw [tallyOf, tallyOf, hrows ledger, hrows ledger', h]

section Scores

variable {ledger ledger' pre post : MissionLedger} {e : MissionLedgerEvent}

/-- A score depends on the rows that do not record a reputation only. -/
theorem evaluateFromLedger_congr
    (h : (ledger'.filter fun e => e.eventType ≠ .reputationUpdate) =
      ledger.filter fun e => e.eventType ≠ .reputationUpdate) (nodeId missionId : Str) :
    evaluateFromLedger ledger' nodeId missionId = evaluateFromLedger ledger nodeId missionId := by
  unfold evaluateFromLedger
  rw [tallyOf_congr h]

/-- A row that lifts scores, anywhere in the ledger, lowers none. -/
theorem finalScore_le_insert (he : LiftsScore e.toEventCore) (nodeId missionId : Str) :
    (evaluateFromLedger (pre ++ post) nodeId missionId).finalScore ≤
      (evaluateFromLedger (pre ++ e :: post) nodeId missionId).finalScore := by
  obtain ⟨t, rows, ht, hold, hnew⟩ := tallyOf_insert pre post e nodeId missionId
  have hrange := foldl_countEvent_inRange ht rows
  simp only [evaluateFromLedger, hold]
  rcases hnew with hnew | hnew <;> rw [hnew]
  exact finalScore_mono hrange.nonneg (foldl_countEvent_mono (le_countEvent ht he) rows)

/-- A proof failure, anywhere in the ledger, raises no score. -/
theorem finalScore_insert_le (he : isProofFailure e.toEventCore) (nodeId missionId : Str) :
    (evaluateFromLedger (pre ++ e :: post) nodeId missionId).finalScore ≤
      (evaluateFromLedger (pre ++ post) nodeId missionId).finalScore := by
  obtain ⟨t, rows, ht, hold, hnew⟩ := tallyOf_insert pre post e nodeId missionId
  simp only [evaluateFromLedger, hold]
  rcases hnew with hnew | hnew <;> rw [hnew]
  have hrange := foldl_countEvent_inRange (countEvent_inRange ht e.toEventCore) rows
  exact finalScore_mono hrange.nonneg (foldl_countEvent_mono (countEvent_le ht he) rows)

end Scores

/-- **Reputation is monotone and stable.** -/
theorem reputation_monotone_stable (nodeId missionId : Str) :
    (∀ ledger, 0 ≤ (evaluateFromLedger ledger nodeId missionId).finalScore ∧
        (evaluateFromLedger ledger nodeId missionId).finalScore ≤ 1) ∧
      (∀ (pre post : MissionLedger) (e : MissionLedgerEvent), LiftsScore e.toEventCore →
        (evaluateFromLedger (pre ++ post) nodeId missionId).finalScore ≤
          (evaluateFromLedger (pre ++ e :: post) nodeId missionId).finalScore) ∧
      (∀ (pre post : MissionLedger) (e : MissionLedgerEvent), isProofFailure e.toEventCore →
        (evaluateFromLedger (pre ++ e :: post) nodeId missionId).finalScore ≤
          (evaluateFromLedger (pre ++ post) nodeId missionId).finalScore) ∧
      (∀ ledger ledger' : MissionLedger,
        ((ledger'.filter fun e => e.eventType ≠ .reputationUpdate) =
          ledger.filter fun e => e.eventType ≠ .reputationUpdate) →
        evaluateFromLedger ledger' nodeId missionId = evaluateFromLedger ledger nodeId missionId) ∧
      ∀ subtleDigest numJson ledger persist nodeId' missionId' nowMs,
        evaluateFromLedger
            (computeScore subtleDigest numJson ledger persist nodeId' missionId' nowMs).1 nodeId
            missionId =
          evaluateFromLedger ledger nodeId missionId := by
  refine ⟨fun ledger => ⟨le_max_left _ _, max_le zero_le_one (min_le_left _ _)⟩,
    fun pre post e he => finalScore_le_insert he nodeId missionId,
    fun pre post e he => finalScore_insert_le he nodeId missionId,
    fun ledger ledger' h => evaluateFromLedger_congr h nodeId missionId, ?_⟩
  intro subtleDigest numJson ledger persist nodeId' missionId' nowMs
  refine evaluateFromLedger_congr ?_ nodeId missionId
  unfold computeScore
  split
  · have hrow : (sealed subtleDigest (beginAppend ledger
        (reputationUpdate numJson (evaluateFromLedger ledger nodeId' missionId')
          nowMs))).eventType = .reputationUpdate := rfl
    simp [List.filter_append, hrow]
  · rfl

end Lattice
