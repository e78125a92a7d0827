/-
**A refused ordering** (`commitBids` and `collectAndCommit` of
`shared/tashi-task-bidding-recovery.ts`).

Vertex answers a commit with `ok`, a sequence number and a proof.  Both coordinators take the number
and the proof, and neither reads `ok`: what a refused call does depends only on whether it has a
winner.

Main definitions:

* `Bidding.MissionExecutionCoordinator.CommitsNothing`,
  `Bidding.TaskCommitCoordinator.CommitsNothing` — the answer of a call leaves nothing behind.

Main results:

* `Bidding.commitBids_commits_nothing_iff`, `Bidding.collect_commits_nothing_iff` — the condition
  for each coordinator;
* `Bidding.refused_commits_nothing_iff` — **a refused call commits nothing if and only if it has no
  winner**, and, where it would cancel the window, the window is cancelled already;
* `Bidding.refused_ordering_commits` — a refused call with one bid.
-/
import Endendend.Bidding.CommitDiscipline
import Endendend.Bidding.TaskCommit

set_option relaxedAutoImplicit false
set_option autoImplicit false

namespace Bidding

open Js Recovery

/-! ### Nothing is committed -/

/-- The answer to a call brings a coordinator from `s` to `s'`, and nothing is committed. -/
structure MissionExecutionCoordinator.CommitsNothing (taskId : Str)
    (s s' : MissionExecutionCoordinator) (record : BidCommitRecord) : Prop where
  phase : record.phase ≠ .committed
  events : committedEvents s'.ledger = committedEvents s.ledger
  window : s'.bids.getWindow taskId = s.bids.getWindow taskId
  rewards : s'.rewards = s.rewards

/-- The same for a coordinator that has no windows. -/
structure TaskCommitCoordinator.CommitsNothing (s s' : TaskCommitCoordinator)
    (record : BidCommitRecord) : Prop where
  phase : record.phase ≠ .committed
  events : committedEvents s'.ledger = committedEvents s.ledger
  rewards : s'.rewards = s.rewards

/-- Nothing can be ranked: no bid of the task has a score, and no submitted one a known node. -/
def NothingRanked (s : MissionExecutionCoordinator) (env : Surroundings) (taskId : Str) : Prop :=
  (∀ b ∈ s.bids.weighted.values, b.taskId ≠ taskId) ∧
    ∀ b ∈ s.bids.bidsForTask taskId, env.getNode b.nodeId = none

/-- The window of the task, if it has one, was cancelled at that time for that reason. -/
def CancelledAt (r : TaskBidRegistry) (taskId reason : Str) (now : ℚ) : Prop :=
  ∀ p ∈ r.getWindow taskId, p.2.status = .cancelled ∧ p.2.closedAtMs = some now ∧
    p.2.cancelReason = some reason

theorem ranked_eq_nil_iff {P : Platform} {s : MissionExecutionCoordinator} {env : Surroundings}
    {task : TaskWorkItem} {taskId : Str} :
    s.ranked P env task taskId = [] ↔ NothingRanked s env taskId := by
  have hweighted : s.bids.weightedBidsForTask taskId = [] ↔
      ∀ b ∈ s.bids.weighted.values, b.taskId ≠ taskId := by
    rw [← List.length_eq_zero_iff, TaskBidRegistry.weightedBidsForTask, List.length_insertionSort,
      List.length_eq_zero_iff, List.filter_eq_nil_iff]
    simp
  have hfallback : s.fallback env taskId = [] ↔
      ∀ b ∈ s.bids.bidsForTask taskId, env.getNode b.nodeId = none := by
    simp [MissionExecutionCoordinator.fallback, List.filterMap_eq_nil_iff]
  rw [NothingRanked, ← hweighted, ← hfallback, MissionExecutionCoordinator.ranked]
  by_cases hnil : s.bids.weightedBidsForTask taskId = []
  · rw [hnil, if_neg (by simp), rank_eq_nil_iff]
    exact ⟨fun h => ⟨rfl, h⟩, And.right⟩
  · rw [if_pos (List.length_pos_iff.2 hnil)]
    exact iff_of_false hnil fun h => hnil h.1

/-- Cancelling leaves the window as it was if and only if it was cancelled in the same way. -/
theorem getWindow_cancelTask_eq_iff {r : TaskBidRegistry} {taskId reason : Str} {now : ℚ} :
    (r.cancelTask taskId reason now).getWindow taskId = r.getWindow taskId ↔
      CancelledAt r taskId reason now := by
  rw [TaskBidRegistry.getWindow_cancelTask, CancelledAt]
  cases r.getWindow taskId with
  | none => simp
  | some p =>
      simp only [Option.map_some, Option.some.injEq, Option.mem_some_iff, forall_eq']
      obtain ⟨w, window⟩ := p
      constructor
      · intro h
        -- a cancellation sets these three fields and no other
        have hwindow := (Prod.mk.inj h).2
        exact ⟨(congrArg BidWindow.status hwindow).symm,
          (congrArg BidWindow.closedAtMs hwindow).symm,
          (congrArg BidWindow.cancelReason hwindow).symm⟩
      · rintro ⟨hstatus, hclosed, hreason⟩
        cases window
        simp only at hstatus hclosed hreason
        rw [hstatus, hclosed, hreason]

/-! ### The two coordinators -/

/-- The task and the reason of a suspended call are those of the request. -/
theorem commitBids_request {P : Platform} {s : MissionExecutionCoordinator} {env : Surroundings}
    {taskId requestedBy reason commitId : Str} {now : ℚ} {p : PendingCommit}
    (h : s.commitBids P env taskId requestedBy reason commitId now = .ok p) :
    p.taskId = taskId ∧ p.reason = reason := by
  unfold MissionExecutionCoordinator.commitBids at h
  split at h
  · cases h
  · split at h
    · cases h
    · split at h
      · cases h
        exact ⟨rfl, rfl⟩
      · cases h
        exact ⟨rfl, rfl⟩

/-- Whatever Vertex answers, a call of `commitBids` commits nothing if and only if it has no winner
and the window is cancelled already. -/
theorem commitBids_commits_nothing_iff {P : Platform} {s : MissionExecutionCoordinator}
    {env : Surroundings} {taskId requestedBy reason commitId : Str} {now : ℚ} {p : PendingCommit}
    (hcall : s.commitBids P env taskId requestedBy reason commitId now = .ok p)
    (s' : MissionExecutionCoordinator) (answer : OrderedAnswer) (recordId : Str) (d : Draw) :
    MissionExecutionCoordinator.CommitsNothing taskId s' (s'.finishCommit P p answer recordId d).1
        (s'.finishCommit P p answer recordId d).2 ↔
      NothingRanked s env taskId ∧ CancelledAt s'.bids taskId reason d.nowMs.val := by
  obtain ⟨task, window, -, -, htask, hwinner, habort⟩ :=
    MissionExecutionCoordinator.commitBids_spec hcall
  obtain ⟨-, hreason⟩ := commitBids_request hcall
  unfold MissionExecutionCoordinator.finishCommit
  cases hp : p.winner with
  | none =>
      rw [hp, Option.map_none] at hwinner
      -- an abort commits no record, event or reward, so only the window can change
      have hnone : NothingRanked s env taskId :=
        ranked_eq_nil_iff.1 (List.head?_eq_none_iff.1 hwinner.symm)
      have hphase : p.record.phase ≠ .committed := by
        rw [habort hp]
        decide
      have hkind : lit "task_assignment_aborted" ≠ lit "task_assignment_committed" := by decide
      simp only
      constructor
      · intro h
        refine ⟨hnone, getWindow_cancelTask_eq_iff.1 ?_⟩
        have hwindow := h.window
        rw [← htask, ← hreason]
        rw [← htask] at hwindow
        exact hwindow
      · rintro ⟨-, hcancelled⟩
        refine ⟨hphase, ?_, ?_, rfl⟩
        · change committedEvents (s'.ledger.append _ _ _ _) = _
          rw [committedEvents_append, if_neg hkind, List.append_nil]
        · have hwindow := getWindow_cancelTask_eq_iff.2 hcancelled
          rw [← htask, ← hreason] at hwindow
          rw [← htask]
          exact hwindow
  | some winner =>
      -- a call with a winner returns a committed record
      refine iff_of_false (fun h => h.phase rfl) fun h => ?_
      rw [hp, ranked_eq_nil_iff.2 h.1] at hwinner
      cases hwinner

/-- Whatever Vertex answers, a call of `collectAndCommit` commits nothing if and only if no bid is
valid. -/
theorem collect_commits_nothing_iff {P : Platform}
    {commitProof : TaskWorkItem → TaskBid → ℕ → Str → Str → Str} (s s' : TaskCommitCoordinator)
    (env : Surroundings) (task : TaskWorkItem) (bids : List TaskBid)
    (requestorId reason commitId : Str) (now : ℚ) (answer : OrderedAnswer) (d : Draw) :
    let p := (s.collect P commitProof env task bids requestorId reason commitId now).2
    TaskCommitCoordinator.CommitsNothing s' (s'.finish P p answer d).1 (s'.finish P p answer d).2 ↔
      validBids env task bids = [] := by
  intro p
  have hspec : (p.winner = none ↔ validBids env task bids = []) ∧
      (p.winner = none → p.record.phase = .aborted) :=
    TaskCommitCoordinator.collect_spec s env task bids requestorId reason commitId now
  rw [← hspec.1]
  unfold TaskCommitCoordinator.finish
  cases hp : p.winner with
  | none =>
      refine iff_of_true ⟨?_, rfl, rfl⟩ rfl
      change p.record.phase ≠ .committed
      rw [hspec.2 hp]
      decide
  | some winner => exact iff_of_false (fun h => h.phase rfl) (by simp)

/-- **A refused call commits nothing if and only if it has no winner**: for `commitBids`, nothing
can be ranked and the window that it cancels is cancelled already; for `collectAndCommit`, no bid
is valid. -/
theorem refused_commits_nothing_iff (P : Platform)
    (commitProof : TaskWorkItem → TaskBid → ℕ → Str → Str → Str) (sequence : Decimal)
    (proofHash : Str) :
    let refused : OrderedAnswer := ⟨false, sequence, proofHash⟩
    (∀ (s : MissionExecutionCoordinator) (env : Surroundings)
        (taskId requestedBy reason commitId : Str) (now : ℚ) (p : PendingCommit),
        s.commitBids P env taskId requestedBy reason commitId now = .ok p →
      ∀ (s' : MissionExecutionCoordinator) (recordId : Str) (d : Draw),
        let outcome := s'.finishCommit P p refused recordId d
        MissionExecutionCoordinator.CommitsNothing taskId s' outcome.1 outcome.2 ↔
          NothingRanked s env taskId ∧ CancelledAt s'.bids taskId reason d.nowMs.val) ∧
    ∀ (s : TaskCommitCoordinator) (env : Surroundings) (task : TaskWorkItem) (bids : List TaskBid)
        (requestorId reason commitId : Str) (now : ℚ) (s' : TaskCommitCoordinator) (d : Draw),
      let p := (s.collect P commitProof env task bids requestorId reason commitId now).2
      let outcome := s'.finish P p refused d
      TaskCommitCoordinator.CommitsNothing s' outcome.1 outcome.2 ↔
        ∀ bid ∈ bids, ∀ node, env.getNode bid.nodeId = some node →
          (env.validateBid bid node task).accepted = false := by
  intro refused
  constructor
  · intro s env taskId requestedBy reason commitId now p hcall s' recordId d outcome
    exact commitBids_commits_nothing_iff hcall s' refused recordId d
  · intro s env task bids requestorId reason commitId now s' d p outcome
    exact (collect_commits_nothing_iff s s' env task bids requestorId reason commitId now refused
      d).trans validBids_eq_nil_iff

/-! ### One bid -/

/-- A refused call of `collectAndCommit` whose only bid is not accepted. -/
theorem refused_commits_nothing_iff_rejected :
    let p := ((TaskCommitCoordinator.new .empty true).collect barePlatform (fun _ _ _ _ _ => [])
      (twoNodes fun _ => false) searchTask [bidOf "b1" "n1"] "hq" "close" "c1" 1).2
    let outcome := (TaskCommitCoordinator.new .empty true).finish barePlatform p ⟨false, 0, []⟩
      (drawAt 2)
    TaskCommitCoordinator.CommitsNothing (.new .empty true) outcome.1 outcome.2 :=
  ((refused_commits_nothing_iff barePlatform (fun _ _ _ _ _ => []) 0 []).2 (.new .empty true)
    (twoNodes fun _ => false) searchTask [bidOf "b1" "n1"] "hq" "close" "c1" 1 (.new .empty true)
    (drawAt 2)).2 fun _ _ _ _ => rfl

/-- **Vertex refuses both calls for an accepted bid, and both commit it**: the record, the event,
the reward, and for `commitBids` the window. -/
theorem refused_ordering_commits :
    (∃ s p, Runs.run (step barePlatform) (.new "m" .empty true) (oneBid true) = some s ∧
      s.commitBids barePlatform (twoNodes fun _ => true) "t1" "hq" "close" "c1" 3 = .ok p ∧
        let outcome := s.finishCommit barePlatform p ⟨false, 0, []⟩ "c2" (drawAt 4)
        outcome.2.phase = .committed ∧ (committedEvents outcome.1.ledger).length = 1 ∧
          (outcome.1.bids.getWindow "t1").map (·.2.status) = some .committed ∧
          outcome.1.rewards.map List.length = some 1 ∧
          ¬ MissionExecutionCoordinator.CommitsNothing "t1" s outcome.1 outcome.2) ∧
    let p := ((TaskCommitCoordinator.new .empty true).collect barePlatform (fun _ _ _ _ _ => [])
      (twoNodes fun _ => true) searchTask [bidOf "b1" "n1"] "hq" "close" "c1" 1).2
    let outcome := (TaskCommitCoordinator.new .empty true).finish barePlatform p ⟨false, 0, []⟩
      (drawAt 2)
    outcome.2.phase = .committed ∧ (committedEvents outcome.1.ledger).length = 1 ∧
      outcome.1.rewards.map List.length = some 1 ∧
      ¬ TaskCommitCoordinator.CommitsNothing (.new .empty true) outcome.1 outcome.2 := by
  constructor
  · let commit (s : MissionExecutionCoordinator) :=
      (s.commitBids barePlatform (twoNodes fun _ => true) "t1" "hq" "close" "c1" 3).toOption
    have hrun : ((Runs.run (step barePlatform) (.new "m" .empty true) (oneBid true)).bind fun s =>
        (commit s).map fun p =>
          let outcome := s.finishCommit barePlatform p ⟨false, 0, []⟩ "c2" (drawAt 4)
          (outcome.2.phase = .committed ∧ (committedEvents outcome.1.ledger).length = 1 ∧
            (outcome.1.bids.getWindow "t1").map (·.2.status) = some .committed ∧
            outcome.1.rewards.map List.length = some 1 : Bool)) = some true := by
      decide +kernel
    obtain ⟨s, hs, hcommit⟩ := Option.bind_eq_some_iff.1 hrun
    obtain ⟨p, hp, hfacts⟩ := Option.map_eq_some_iff.1 hcommit
    obtain ⟨hphase, hevents, hwindow, hrewards⟩ := of_decide_eq_true hfacts
    exact ⟨s, p, hs, eq_ok_of_toOption hp, hphase, hevents, hwindow, hrewards,
      fun h => h.phase hphase⟩
  · refine ⟨rfl, rfl, rfl, fun h => h.phase rfl⟩

end Bidding
