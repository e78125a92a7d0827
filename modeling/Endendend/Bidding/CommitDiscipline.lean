/-
**What a commit needs** (`commitBids` of `shared/tashi-task-bidding-recovery.ts`).

A window carries a status and a least number of bids.  A commit looks at neither: it asks for a
window of the task, whatever has become of it, and for a bid, whichever window took it.

Main definitions:

* `Bidding.TakenBid`, `Bidding.takenBid` — the bids that the registry takes in a run, each with the
  window that took it;
* `Bidding.CommitDiscipline` — the window is in order and has got enough bids;
* `Bidding.Known` — every bid of the registry was taken.

Main results:

* `Bidding.known_of_run` — **every bid of the registry was taken by a window of its task**;
* `Bidding.committed_bid_was_taken` — a commit finds a window of the task, and its winner was taken
  by that window or an earlier one while it was open;
* `Bidding.expired_window_commits` — a window that has expired without any bid, and the commit.
-/
import Endendend.Bidding.AcceptedWinner

set_option relaxedAutoImplicit false
set_option autoImplicit false

namespace Bidding

open Js Recovery MissionExecutionCoordinator

/-! ### The bids of a run -/

/-- A bid that a window has taken. -/
structure TakenBid where
  taskId : Str
  window : ℕ
  bidId : Str
  deriving DecidableEq

/-- The current window of a task, if it is open and not past its end. -/
def TaskBidRegistry.openAt (r : TaskBidRegistry) (taskId : Str) (now : ℚ) : Option ℕ :=
  (r.getWindow taskId).bind fun p =>
    if p.2.status = .opened ∧ now ≤ p.2.closesAtMs then some p.1 else none

/-- A submission, if the registry takes it. -/
def submittedBid (s : MissionExecutionCoordinator) (env : Surroundings) (input : TaskBid)
    (d : Draw) : Option TakenBid :=
  match s.getTaskOrThrow env input.taskId, env.getNode input.nodeId with
  | .ok _, some _ =>
    (s.bids.openAt input.taskId d.nowMs.val).map fun w => ⟨input.taskId, w, input.bidId⟩
  | _, _ => none

/-- The bid that a move submits, if the registry takes it. -/
def takenBid (s : MissionExecutionCoordinator) : Label → Option TakenBid
  | .submitBid env input d => submittedBid s env input d
  | .openBidding .. | .commitBids .. | .resume .. => none

/-- **The discipline of a commit**: its window is open or closed in the normal way, and has taken
enough distinct bids. -/
structure CommitDiscipline (log : List TakenBid) (w : ℕ) (window : BidWindow) : Prop where
  status : window.status = .opened ∨ window.status = .closed
  enough : window.minBids ≤ (uniq ((log.filter fun e => e.window = w).map TakenBid.bidId)).length

/-- Every bid of the registry was taken, by the current window of its task or an earlier one. -/
structure Known (log : List TakenBid) (r : TaskBidRegistry) : Prop where
  bids : ∀ taskId, ∀ b ∈ r.bidsForTask taskId, ∃ e ∈ log, e.taskId = taskId ∧ e.bidId = b.bidId
  weighted : ∀ b ∈ r.weighted.values, ∃ e ∈ log, e.taskId = b.taskId ∧ e.bidId = b.bidId
  windows : ∀ e ∈ log, ∃ w, r.windows.get? e.taskId = some w ∧ e.window ≤ w

/-! ### Operations that add no bid -/

/-- No bid is added, and every task keeps its window. -/
structure KeepsBids (r r' : TaskBidRegistry) : Prop where
  bids : ∀ taskId, ∀ b' ∈ r'.bidsForTask taskId, ∃ b ∈ r.bidsForTask taskId, b.bidId = b'.bidId
  weighted : r'.weighted = r.weighted
  windows : r'.windows = r.windows

theorem KeepsBids.of_eq {r r' : TaskBidRegistry} (hbids : r'.bids = r.bids)
    (hweighted : r'.weighted = r.weighted) (hwindows : r'.windows = r.windows) :
    KeepsBids r r' where
  bids taskId b hb := by
    rw [TaskBidRegistry.bidsForTask, TaskBidRegistry.bidsOf, hbids] at hb
    exact ⟨b, hb, rfl⟩
  weighted := hweighted
  windows := hwindows

theorem Known.keeps {log : List TakenBid} {r r' : TaskBidRegistry} (h : Known log r)
    (hkeeps : KeepsBids r r') : Known log r' where
  bids taskId b' hb' := by
    obtain ⟨b, hb, hid⟩ := hkeeps.bids taskId b' hb'
    rw [← hid]
    exact h.bids taskId b hb
  weighted := hkeeps.weighted ▸ h.weighted
  windows := hkeeps.windows ▸ h.windows

theorem keepsBids_markCommitted (r : TaskBidRegistry) (taskId winnerNodeId winningBidId : Str)
    (sequence : Decimal) (proofHash commitId : Str) (now : ℚ) :
    KeepsBids r
      (r.markCommitted taskId winnerNodeId winningBidId sequence proofHash commitId now) := by
  unfold TaskBidRegistry.markCommitted
  simp only
  split
  · exact .of_eq rfl rfl rfl
  · exact .of_eq rfl rfl rfl

/-- A cancelled task keeps the ids of its bids. -/
theorem keepsBids_cancelTask (r : TaskBidRegistry) (taskId reason : Str) (now : ℚ) :
    KeepsBids r (r.cancelTask taskId reason now) := by
  have hkeeps : ∀ r₁ : TaskBidRegistry, r₁.bids = r.bids → r₁.weighted = r.weighted →
      r₁.windows = r.windows → KeepsBids r (r₁.setBids taskId ((r₁.bidsOf taskId).modifyAll
        (fun b => { b with status := .cancelled, cancelReason := some reason }) fun _ => rfl)) := by
    intro r₁ hbids hweighted hwindows
    refine ⟨fun t b' hb' => ?_, hweighted, hwindows⟩
    have hsame : ∀ t, r₁.bidsOf t = r.bidsOf t := by
      intro t
      rw [TaskBidRegistry.bidsOf, TaskBidRegistry.bidsOf, hbids]
    rw [TaskBidRegistry.bidsForTask, TaskBidRegistry.bidsOf_setBids] at hb'
    split at hb'
    · next ht =>
        rw [KeyedMap.values_modifyAll, hsame, ← ht] at hb'
        obtain ⟨b, hb, rfl⟩ := List.mem_map.1 hb'
        exact ⟨b, hb, rfl⟩
    · rw [hsame] at hb'
      exact ⟨b', hb', rfl⟩
  unfold TaskBidRegistry.cancelTask
  simp only
  split
  · exact hkeeps _ rfl rfl rfl
  · exact hkeeps r rfl rfl rfl

theorem keepsBids_finishCommit (P : Platform) (s : MissionExecutionCoordinator) (p : PendingCommit)
    (answer : OrderedAnswer) (commitId : Str) (d : Draw) :
    KeepsBids s.bids (s.finishCommit P p answer commitId d).1.bids := by
  unfold finishCommit
  cases p.winner with
  | none => exact keepsBids_cancelTask _ _ _ _
  | some winner => exact keepsBids_markCommitted _ _ _ _ _ _ _ _

/-! ### Operations that add a bid or a window -/

theorem windows_of_openAt {r : TaskBidRegistry} {taskId : Str} {now : ℚ} {w : ℕ}
    (h : r.openAt taskId now = some w) : r.windows.get? taskId = some w := by
  obtain ⟨p, hp, hif⟩ := Option.bind_eq_some_iff.1 h
  obtain ⟨w', hw', hheap⟩ := Option.bind_eq_some_iff.1 hp
  obtain ⟨window, -, rfl⟩ := Option.map_eq_some_iff.1 hheap
  split at hif
  · rw [hw', ← Option.some.inj hif]
  · exact nomatch hif

/-- **The registry takes a bid exactly if the window of its task is open.** -/
theorem submitBid_openAt (r : TaskBidRegistry) (bid : TaskBid) (now : ℚ) :
    (∃ w, r.openAt bid.taskId now = some w ∧ r.submitBid bid now =
      (r.setBids bid.taskId ((r.bidsOf bid.taskId).put { bid with status := .submitted }),
        .ok ())) ∨
    r.openAt bid.taskId now = none ∧ ∃ r' e, r.submitBid bid now = (r', .error e) ∧
      KeepsBids r r' := by
  unfold TaskBidRegistry.openAt TaskBidRegistry.submitBid
  cases r.getWindow bid.taskId with
  | none => exact Or.inr ⟨rfl, _, _, rfl, .of_eq rfl rfl rfl⟩
  | some w =>
      by_cases hopen : w.2.status = .opened
      · by_cases hlate : now > w.2.closesAtMs
        · exact Or.inr ⟨by simp [hopen, not_le.2 hlate],
            r.modifyWindow w.1 fun window => { window with status := .expired },
            lit "bid window expired for task: " ++ bid.taskId, by simp [hopen, hlate],
            .of_eq rfl rfl rfl⟩
        · exact Or.inl ⟨w.1, by simp [hopen, not_lt.1 hlate], by simp [hopen, hlate]⟩
      · exact Or.inr ⟨by simp [hopen], _, _, if_pos hopen, .of_eq rfl rfl rfl⟩

section Adding

variable {log : List TakenBid} {r : TaskBidRegistry}

/-- The bids of a task may be replaced by bids that were taken. -/
theorem Known.setBids (h : Known log r) {taskId : Str} {list : KeyedMap TaskBid.bidId}
    (hlist : ∀ b ∈ list.values, ∃ e ∈ log, e.taskId = taskId ∧ e.bidId = b.bidId) :
    Known log (r.setBids taskId list) where
  bids t b hb := by
    rw [TaskBidRegistry.bidsForTask, TaskBidRegistry.bidsOf_setBids] at hb
    split at hb
    · next ht => exact ht ▸ hlist b hb
    · exact h.bids t b hb
  weighted := h.weighted
  windows := h.windows

/-- A bid that was taken may be stored again. -/
theorem Known.put (h : Known log r) {taskId : Str} {b : TaskBid}
    (hb : ∃ e ∈ log, e.taskId = taskId ∧ e.bidId = b.bidId) :
    Known log (r.setBids taskId ((r.bidsOf taskId).put b)) := by
  refine h.setBids fun b' hb' => ?_
  rcases KeyedMap.mem_values_put hb' with rfl | hb'
  · exact hb
  · exact h.bids taskId b' hb'

theorem Known.setWeighted (h : Known log r) {b : WeightedBid}
    (hb : ∃ e ∈ log, e.taskId = b.taskId ∧ e.bidId = b.bidId) : Known log (r.setWeighted b) := by
  have hlist : ∃ list, Known log (r.setBids b.taskId list) ∧
      r.setWeighted b = { r.setBids b.taskId list with weighted := r.weighted.put b } := by
    cases hget : (r.bidsOf b.taskId).get? b.bidId with
    | none =>
        exact ⟨r.bidsOf b.taskId, h.setBids fun b' hb' => h.bids b.taskId b' hb',
          by simp only [TaskBidRegistry.setWeighted, hget]⟩
    | some c =>
        have hkey : c.bidId = b.bidId := KeyedMap.key_of_get? hget
        exact ⟨_, h.put (b := { c with status := .weighted }) (hkey ▸ hb),
          by simp only [TaskBidRegistry.setWeighted, hget]⟩
  obtain ⟨list, hknown, heq⟩ := hlist
  rw [heq]
  exact
    { bids := hknown.bids
      weighted := fun b' hb' => by
        rcases KeyedMap.mem_values_put hb' with rfl | hb'
        · exact hb
        · exact h.weighted b' hb'
      windows := h.windows }

theorem Known.rejectBid (h : Known log r) {taskId bidId : Str}
    (hb : ∃ e ∈ log, e.taskId = taskId ∧ e.bidId = bidId) (reason : Str) :
    Known log (r.rejectBid taskId bidId reason) := by
  unfold TaskBidRegistry.rejectBid
  split
  · next c hc =>
      have hkey : c.bidId = bidId := KeyedMap.key_of_get? hc
      exact h.put (hkey.symm ▸ hb)
  · exact h

/-- A bid that the current window of its task takes. -/
theorem Known.take (h : Known log r) {e : TakenBid}
    (he : r.windows.get? e.taskId = some e.window) : Known (log ++ [e]) r where
  bids taskId b hb := by
    obtain ⟨e', he', heq⟩ := h.bids taskId b hb
    exact ⟨e', List.mem_append_left _ he', heq⟩
  weighted b hb := by
    obtain ⟨e', he', heq⟩ := h.weighted b hb
    exact ⟨e', List.mem_append_left _ he', heq⟩
  windows e' he' := by
    rcases List.mem_append.1 he' with he' | he'
    · exact h.windows e' he'
    · rw [List.mem_singleton.1 he']
      exact ⟨e.window, he, le_refl _⟩

/-- A new window comes after all others. -/
theorem Known.openWindow (h : Known log r) (task : TaskWorkItem) (minBids quorum : ℕ)
    (ttlMs now : ℚ) : Known log (r.openWindow task minBids quorum ttlMs now).1 where
  bids := h.bids
  weighted := h.weighted
  windows e he := by
    obtain ⟨w, hw, hle⟩ := h.windows e he
    simp only [TaskBidRegistry.openWindow, OrderedMap.get?_set]
    split
    · exact ⟨_, rfl, hle.trans (r.current _ w hw).le⟩
    · exact ⟨w, hw, hle⟩

end Adding

/-! ### Every run -/

/-- A submission whose task and node are known. -/
theorem known_takeBid {P : Platform} {log : List TakenBid} {s : MissionExecutionCoordinator}
    (h : Known log s.bids) {task : TaskWorkItem} (node : NodeProfile) (verdict : Verdict)
    {bid : TaskBid} (htask : task.taskId = bid.taskId) (d : Draw) :
    Known (log ++ ((s.bids.openAt bid.taskId d.nowMs.val).map fun w =>
        TakenBid.mk bid.taskId w bid.bidId).toList)
      (s.takeBid P task node verdict bid d).1.bids := by
  unfold takeBid
  rcases submitBid_openAt s.bids bid d.nowMs.val with ⟨w, hw, hok⟩ | ⟨hno, r', e, herr, hkeeps⟩
  · have hlog : ∃ e ∈ log ++ [TakenBid.mk bid.taskId w bid.bidId],
        e.taskId = bid.taskId ∧ e.bidId = bid.bidId :=
      ⟨_, List.mem_append_right _ (List.mem_singleton.2 rfl), rfl, rfl⟩
    have htaken := h.take (e := ⟨bid.taskId, w, bid.bidId⟩) (windows_of_openAt hw)
    have hput := htaken.put (b := { bid with status := .submitted }) hlog
    rw [hok, hw]
    cases verdict.accepted with
    | true => exact hput.setWeighted (b := chooseBest P.distance P.numText task node bid) hlog
    | false => exact hput.rejectBid (htask ▸ hlog) _
  · rw [herr, hno, Option.map_none, Option.toList_none, List.append_nil]
    cases verdict.accepted with
    | true => exact h.keeps hkeeps
    | false => exact h.keeps hkeeps

theorem known_submitBid {P : Platform} {log : List TakenBid} {s : MissionExecutionCoordinator}
    (h : Known log s.bids) (env : Surroundings) (input : TaskBid) (d : Draw) :
    Known (log ++ (submittedBid s env input d).toList) (s.submitBid P env input d).1.bids := by
  unfold submitBid submittedBid
  cases htask : s.getTaskOrThrow env input.taskId with
  | error e => exact (List.append_nil log).symm ▸ h
  | ok task =>
      cases env.getNode input.nodeId with
      | none => exact (List.append_nil log).symm ▸ h
      | some node =>
          exact known_takeBid h node (env.validateBid input node task)
            (show task.taskId = (normalizedBid input (env.validateBid input node task)
              d.nowMs.val).taskId from taskId_of_getTaskOrThrow htask) d

/-- **Every bid of the registry was taken by a window of its task**, in every run. -/
theorem known_of_run {P : Platform} {missionId : Str} {ledger : EventLedgerStore LedgerPayload}
    {hasRewards : Bool} {labels : List Label} {s : MissionExecutionCoordinator}
    (hrun : Runs.run (step P) (.new missionId ledger hasRewards) labels = some s) :
    Known (Runs.emitted (step P) takenBid (.new missionId ledger hasRewards) labels) s.bids := by
  have hnew : Known [] (MissionExecutionCoordinator.new missionId ledger hasRewards).bids :=
    ⟨fun _ _ hb => absurd hb List.not_mem_nil, fun _ hb => absurd hb List.not_mem_nil,
      fun _ he => absurd he List.not_mem_nil⟩
  -- the bids that were taken are read off the labels made so far
  let s₀ := MissionExecutionCoordinator.new missionId ledger hasRewards
  let I (labels : List Label) (s : MissionExecutionCoordinator) : Prop :=
    Known (Runs.emitted (step P) takenBid s₀ labels) s.bids
  have hstep : ∀ labels l s s', Runs.run (step P) s₀ labels = some s → I labels s →
      step P s l = some s' → I (labels ++ [l]) s' := by
    intro labels l s s' hrun h hstep
    have hlog := Runs.emitted_concat takenBid l hrun
    have hother : takenBid s l = none → Known (Runs.emitted (step P) takenBid s₀ labels) s'.bids →
        I (labels ++ [l]) s' := by
      intro hno h
      change Known (Runs.emitted (step P) takenBid s₀ (labels ++ [l])) s'.bids
      rw [hlog, hno, Option.toList_none, List.append_nil]
      exact h
    cases l with
    | submitBid env input d =>
        obtain rfl := Option.some.inj hstep
        change Known (Runs.emitted (step P) takenBid s₀ (labels ++ [.submitBid env input d])) _
        rw [hlog]
        exact known_submitBid h env input d
    | openBidding env task minBids quorum ttlMs d =>
        obtain rfl := Option.some.inj hstep
        exact hother rfl (h.openWindow task minBids quorum ttlMs d.nowMs.val)
    | commitBids env taskId requestedBy reason commitId now =>
        simp only [step] at hstep
        split at hstep <;> exact hother rfl (Option.some.inj hstep ▸ h)
    | resume call answer commitId d =>
        simp only [step] at hstep
        split at hstep
        · exact absurd hstep (Option.some_ne_none _).symm
        · next p _ =>
            split at hstep
            · next answer =>
                have hkeeps := keepsBids_finishCommit P
                  { s with pending := s.pending.eraseIdx call } p answer commitId d
                exact hother rfl (Option.some.inj hstep ▸ h.keeps hkeeps)
            · exact hother rfl (Option.some.inj hstep ▸ h)
  exact Runs.invariant_of_history (I := I) hnew hstep hrun

/-- Every bid that a commit ranks was taken. -/
theorem Known.ranked {log : List TakenBid} {s : MissionExecutionCoordinator} (h : Known log s.bids)
    {P : Platform} {env : Surroundings} {task : TaskWorkItem} {taskId : Str} {b : WeightedBid}
    (hb : b ∈ s.ranked P env task taskId) :
    ∃ e ∈ log, e.taskId = taskId ∧ e.bidId = b.bidId := by
  unfold MissionExecutionCoordinator.ranked at hb
  simp only at hb
  split at hb
  · rw [TaskBidRegistry.weightedBidsForTask, (List.perm_insertionSort _ _).mem_iff,
      List.mem_filter] at hb
    obtain ⟨e, he, htask, hid⟩ := h.weighted b hb.1
    exact ⟨e, he, htask.trans (of_decide_eq_true hb.2), hid⟩
  · obtain ⟨q, hq, rfl⟩ := (mem_rank P.distance P.numText).1 hb
    obtain ⟨bid, hbid, hnode⟩ := List.mem_filterMap.1 hq
    obtain ⟨node, -, rfl⟩ := Option.map_eq_some_iff.1 hnode
    exact h.bids taskId bid hbid

/-- **A commit finds a window of the task, and its winner was taken** by that window or an earlier
one of the task, while it was open and not past its end. -/
theorem committed_bid_was_taken {P : Platform} {missionId : Str}
    {ledger : EventLedgerStore LedgerPayload} {hasRewards : Bool} {labels : List Label}
    {s : MissionExecutionCoordinator}
    (hrun : Runs.run (step P) (.new missionId ledger hasRewards) labels = some s)
    {env : Surroundings} {taskId requestedBy reason commitId : Str} {now : ℚ} {p : PendingCommit}
    (hcall : s.commitBids P env taskId requestedBy reason commitId now = .ok p)
    (s' : MissionExecutionCoordinator) (answer : OrderedAnswer) (recordId : Str) (d : Draw)
    (hcommitted : (s'.finishCommit P p answer recordId d).2.phase = .committed) :
    (∃ window, s.bids.getWindow taskId = some (p.window, window)) ∧
      ∃ e ∈ Runs.emitted (step P) takenBid (.new missionId ledger hasRewards) labels,
        e.taskId = taskId ∧ e.window ≤ p.window ∧
          (s'.finishCommit P p answer recordId d).2.winningBidId = some e.bidId := by
  have hknown := known_of_run hrun
  obtain ⟨task, window, -, hwindow, -, hwinner, habort⟩ := commitBids_spec hcall
  refine ⟨⟨window, hwindow⟩, ?_⟩
  unfold finishCommit at hcommitted ⊢
  cases hp : p.winner with
  | none =>
      rw [hp] at hcommitted
      exact absurd ((habort hp).symm.trans hcommitted) (by decide)
  | some winner =>
      rw [hp, Option.map_some] at hwinner
      obtain ⟨e, he, htask, hid⟩ := hknown.ranked (List.mem_of_mem_head? hwinner.symm)
      obtain ⟨w, hw, hle⟩ := hknown.windows e he
      obtain ⟨w', hw', hheap⟩ := Option.bind_eq_some_iff.1 hwindow
      obtain ⟨_, -, hpair⟩ := Option.map_eq_some_iff.1 hheap
      rw [htask, hw'] at hw
      rw [← Option.some.inj hw, (Prod.mk.inj hpair).1] at hle
      exact ⟨e, he, htask, hle, congrArg some hid.symm⟩

/-! ### A window that expires without a bid -/

theorem eq_ok_of_toOption {ε α : Type} {x : Except ε α} {a : α} (h : x.toOption = some a) :
    x = .ok a := by
  cases x with
  | error e => simp [Except.toOption] at h
  | ok b => rw [Option.some.inj h]

/-- A task gets a bid in its first window.  It is opened again for at least two bids, and the next
bid comes too late. -/
def reopened : List Label :=
  let env := twoNodes fun _ => true
  [.openBidding env searchTask 1 1 4000 (drawAt 1), .submitBid env (bidOf "b1" "n1") (drawAt 2),
    .openBidding env searchTask 2 1 4000 (drawAt 3),
    .submitBid env (bidOf "b2" "n2") (drawAt 5000)]

/-- The winner of the second window is the bid that the first one took. -/
theorem committed_bid_was_taken_reopened :
    ∃ s p, Runs.run (step barePlatform) (.new "m" .empty true) reopened = some s ∧
      s.commitBids barePlatform (twoNodes fun _ => true) "t1" "hq" "close" "c1" 6000 = .ok p ∧
        (∃ window, s.bids.getWindow "t1" = some (p.window, window)) ∧
          ∃ e ∈ Runs.emitted (step barePlatform) takenBid (.new "m" .empty true) reopened,
            e.taskId = "t1" ∧ e.window ≤ p.window ∧
              (s.finishCommit barePlatform p ⟨true, 1, "p1"⟩ "c2" (drawAt 6001)).2.winningBidId =
                some e.bidId := by
  let commit (s : MissionExecutionCoordinator) :=
    (s.commitBids barePlatform (twoNodes fun _ => true) "t1" "hq" "close" "c1" 6000).toOption
  have hrun : ((Runs.run (step barePlatform) (.new "m" .empty true) reopened).bind fun s =>
      (commit s).map fun p =>
        (s.finishCommit barePlatform p ⟨true, 1, "p1"⟩ "c2" (drawAt 6001)).2.phase) =
      some .committed := by
    decide +kernel
  obtain ⟨s, hs, hcommit⟩ := Option.bind_eq_some_iff.1 hrun
  obtain ⟨p, hp, hphase⟩ := Option.map_eq_some_iff.1 hcommit
  have hcall : s.commitBids barePlatform (twoNodes fun _ => true) "t1" "hq" "close" "c1" 6000 =
      .ok p := eq_ok_of_toOption hp
  exact ⟨s, p, hs, hcall, committed_bid_was_taken hs hcall s ⟨true, 1, "p1"⟩ "c2" (drawAt 6001)
    hphase⟩

/-- **The second window expires without any bid, and the commit takes the bid of the first one.** -/
theorem expired_window_commits :
    ∃ s p window, Runs.run (step barePlatform) (.new "m" .empty true) reopened = some s ∧
      s.commitBids barePlatform (twoNodes fun _ => true) "t1" "hq" "close" "c1" 6000 = .ok p ∧
        s.bids.getWindow "t1" = some (p.window, window) ∧
          (s.finishCommit barePlatform p ⟨true, 1, "p1"⟩ "c2" (drawAt 6001)).2.phase =
            .committed ∧
          window.status = .expired ∧ window.minBids = 2 ∧
          (∀ e ∈ Runs.emitted (step barePlatform) takenBid (.new "m" .empty true) reopened,
            e.window ≠ p.window) ∧
          ¬ CommitDiscipline
            (Runs.emitted (step barePlatform) takenBid (.new "m" .empty true) reopened) p.window
            window := by
  let commit (s : MissionExecutionCoordinator) :=
    (s.commitBids barePlatform (twoNodes fun _ => true) "t1" "hq" "close" "c1" 6000).toOption
  let log := Runs.emitted (step barePlatform) takenBid (.new "m" .empty true) reopened
  have hrun : ((Runs.run (step barePlatform) (.new "m" .empty true) reopened).bind fun s =>
      (commit s).bind fun p => (s.bids.getWindow "t1").map fun w =>
        (w.1 = p.window ∧ w.2.status = .expired ∧ w.2.minBids = 2 ∧
          (log.all fun e => e.window ≠ p.window) ∧
          (s.finishCommit barePlatform p ⟨true, 1, "p1"⟩ "c2" (drawAt 6001)).2.phase =
            .committed : Bool)) = some true := by
    decide +kernel
  obtain ⟨s, hs, hcommit⟩ := Option.bind_eq_some_iff.1 hrun
  obtain ⟨p, hp, hwindow⟩ := Option.bind_eq_some_iff.1 hcommit
  obtain ⟨⟨w, window⟩, hw, hfacts⟩ := Option.map_eq_some_iff.1 hwindow
  obtain ⟨rfl, hstatus, hmin, hlog, hphase⟩ := of_decide_eq_true hfacts
  have hcall : s.commitBids barePlatform (twoNodes fun _ => true) "t1" "hq" "close" "c1" 6000 =
      .ok p := eq_ok_of_toOption hp
  refine ⟨s, p, window, hs, hcall, hw, hphase, hstatus, hmin, fun e he =>
    of_decide_eq_true (List.all_eq_true.1 hlog e he), fun h => ?_⟩
  rcases h.status with hopen | hclosed
  · rw [hstatus] at hopen
    exact absurd hopen (by decide)
  · rw [hstatus] at hclosed
    exact absurd hclosed (by decide)

end Bidding
