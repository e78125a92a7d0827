/-
**One winner for a window.**

`commitBids` reads the window of the task but not its status, and nothing marks the window while the
call waits for Vertex.  So every call that finds a bid commits when its answer comes, whatever has
happened to the window in between; a window has one winner as long as its callers claim it once.

Main definitions:

* `Bidding.completionsOf`, `Bidding.claims` — the commits of a window, and with them the calls
  that wait to commit it;
* `Bidding.OneWinner` — at most one record, one named winner and one reward for each window;
* `Bidding.ClaimsOnce` — the condition: a call finds a bid only on a window nobody has claimed;
* `Bidding.Logged` — the commit history, the ledger and the rewards are those of the commits.

Main results:

* `Bidding.logged_of_run` — every run keeps the logs and the commits together;
* `Bidding.one_winner_of_run` — **in a run that claims each window once, each window has at most one
  winner**;
* `Bidding.two_winners` — two calls that wait at the same time commit two winners and pay both.
-/
import Endendend.Bidding.ExecutionCoordinator

set_option relaxedAutoImplicit false
set_option autoImplicit false

namespace Bidding

open Js Recovery MissionExecutionCoordinator

/-! ### The property and the condition -/

/-- The commits of a window. -/
def completionsOf (s : MissionExecutionCoordinator) (w : ℕ) : List Completion :=
  s.completions.filter fun c => c.window = w

/-- The calls with a winner that wait to commit a window. -/
def waitingOn (s : MissionExecutionCoordinator) (w : ℕ) : List PendingCommit :=
  s.pending.filter fun p => p.winner.isSome ∧ p.window = w

/-- How often a window is claimed: by commits, and by calls that wait to commit it. -/
def claims (s : MissionExecutionCoordinator) (w : ℕ) : ℕ :=
  (completionsOf s w).length + (waitingOn s w).length

/-- The winner that an event names. -/
def winnerOfEvent (e : LedgerEvent LedgerPayload) : Option (Str × Str) :=
  match e.payload with
  | .assignmentCommitted _ winnerNodeId winningBidId _ _ _ _ => some (winnerNodeId, winningBidId)
  | _ => none

/-- At most one record is produced for the window, all events for it name the same winner, and it is
paid at most once. -/
structure OneWinner (s : MissionExecutionCoordinator) (w : ℕ) : Prop where
  records : ((completionsOf s w).map (·.record)).length ≤ 1
  events : ∀ e ∈ (completionsOf s w).map (·.event), ∀ f ∈ (completionsOf s w).map (·.event),
    winnerOfEvent e = winnerOfEvent f
  rewards : ((completionsOf s w).map (·.reward)).length ≤ 1

/-- A call of `commitBids` that finds a bid is made on a window that no other call has committed or
waits to commit. -/
def ClaimsOnce (P : Platform) (s : MissionExecutionCoordinator) : Label → Prop
  | .commitBids env taskId _ _ _ _ =>
    ∀ task w window, s.getTaskOrThrow env taskId = .ok task →
      s.bids.getWindow taskId = some (w, window) → s.ranked P env task taskId ≠ [] →
        completionsOf s w = [] ∧ waitingOn s w = []
  | _ => True

/-- The events of committed assignments. -/
def committedEvents (ledger : EventLedgerStore LedgerPayload) : List (LedgerEvent LedgerPayload) :=
  ledger.entries.filter fun e => e.kind = lit "task_assignment_committed"

/-- The committed records, the events of committed assignments since the start and the rewards are
those of the commits. -/
structure Logged (ledger : EventLedgerStore LedgerPayload) (s : MissionExecutionCoordinator) :
    Prop where
  records : (s.commitHistory.filter fun r => r.phase = .committed) =
    s.completions.map (·.record)
  events : committedEvents s.ledger = committedEvents ledger ++ s.completions.map (·.event)
  rewards : ∀ calls, s.rewards = some calls → calls = s.completions.map (·.reward)
  winners : ∀ c ∈ s.completions, c.record.phase = .committed ∧
    (winnerOfEvent c.event).map Prod.fst = c.record.winnerNodeId ∧
      some c.reward.nodeId = c.record.winnerNodeId
  aborts : ∀ p ∈ s.pending, p.winner = none → p.record.phase = .aborted

/-! ### What a step changes -/

/-- Nothing changes but the bids, the submissions and the other events of the ledger. -/
structure OnlyBids (s s' : MissionExecutionCoordinator) : Prop where
  pending : s'.pending = s.pending
  completions : s'.completions = s.completions
  commitHistory : s'.commitHistory = s.commitHistory
  rewards : s'.rewards = s.rewards
  events : committedEvents s'.ledger = committedEvents s.ledger

theorem committedEvents_append (P : Platform) (ledger : EventLedgerStore LedgerPayload)
    (entry : LedgerEntry LedgerPayload) (d : Draw) :
    committedEvents (ledger.append P.sha256 P.payloadJson entry d) =
      committedEvents ledger ++
        if entry.kind = lit "task_assignment_committed" then
          [ledger.record P.sha256 P.payloadJson entry d] else [] := by
  rw [committedEvents, EventLedgerStore.entries_append, List.filter_append, List.filter_singleton]
  by_cases h : entry.kind = lit "task_assignment_committed"
  · rw [if_pos h, show (ledger.record P.sha256 P.payloadJson entry d).kind = entry.kind from rfl,
      decide_eq_true h]
    rfl
  · rw [if_neg h, show (ledger.record P.sha256 P.payloadJson entry d).kind = entry.kind from rfl,
      decide_eq_false h]
    rfl

/-- A change of the bids and an event of another kind. -/
theorem onlyBids_appendEvent (P : Platform) (s : MissionExecutionCoordinator)
    (bids : TaskBidRegistry) (submissions : List Submission) (missionId actorId : Str) {kind : Str}
    (hkind : kind ≠ lit "task_assignment_committed") (payload : LedgerPayload) (d : Draw) :
    OnlyBids s (({ s with bids, submissions } : MissionExecutionCoordinator).appendEvent P missionId
      kind actorId payload d) where
  pending := rfl
  completions := rfl
  commitHistory := rfl
  rewards := rfl
  events := by rw [appendEvent, committedEvents_append, if_neg hkind, List.append_nil]

theorem onlyBids_openBidding (P : Platform) (s : MissionExecutionCoordinator) (env : Surroundings)
    (task : TaskWorkItem) (minBids quorum : ℕ) (ttlMs : ℚ) (d : Draw) :
    OnlyBids s (s.openBidding P env task minBids quorum ttlMs d).1 := by
  have hkind : lit "task_bidding_opened" ≠ lit "task_assignment_committed" := by decide
  exact onlyBids_appendEvent P s _ s.submissions _ _ hkind _ _

theorem onlyBids_takeBid (P : Platform) (s : MissionExecutionCoordinator) (task : TaskWorkItem)
    (node : NodeProfile) (verdict : Verdict) (bid : TaskBid) (d : Draw) :
    OnlyBids s (s.takeBid P task node verdict bid d).1 := by
  have haccepted : lit "task_bid_accepted" ≠ lit "task_assignment_committed" := by decide
  have hrejected : lit "task_bid_rejected" ≠ lit "task_assignment_committed" := by decide
  unfold takeBid
  rcases s.bids.submitBid bid d.nowMs.val with ⟨bids, e | ⟨⟩⟩
  · cases verdict.accepted with
    | true => exact ⟨rfl, rfl, rfl, rfl, rfl⟩
    | false => exact onlyBids_appendEvent P s bids s.submissions _ _ hrejected _ _
  · cases verdict.accepted with
    | true => exact onlyBids_appendEvent P s _ _ _ _ haccepted _ _
    | false => exact onlyBids_appendEvent P s _ _ _ _ hrejected _ _

theorem onlyBids_submitBid (P : Platform) (s : MissionExecutionCoordinator) (env : Surroundings)
    (input : TaskBid) (d : Draw) : OnlyBids s (s.submitBid P env input d).1 := by
  unfold submitBid
  cases s.getTaskOrThrow env input.taskId with
  | error e => exact ⟨rfl, rfl, rfl, rfl, rfl⟩
  | ok task =>
      cases env.getNode input.nodeId with
      | none => exact ⟨rfl, rfl, rfl, rfl, rfl⟩
      | some node => exact onlyBids_takeBid P s task node _ _ d

/-- **What a step can do**: change the bids only, suspend a call, drop a suspended call, or finish
one, as an abort or as an assignment. -/
theorem step_cases {P : Platform} {s s' : MissionExecutionCoordinator} {l : Label}
    (h : step P s l = some s') :
    OnlyBids s s' ∨
    (∃ env taskId requestedBy reason commitId now p,
      l = .commitBids env taskId requestedBy reason commitId now ∧
        s.commitBids P env taskId requestedBy reason commitId now = .ok p ∧
          s' = { s with pending := s.pending ++ [p] }) ∨
    ∃ call p, s.pending[call]? = some p ∧
      (s' = { s with pending := s.pending.eraseIdx call } ∨
        (p.winner = none ∧ ∃ answer d,
          s' = (({ s with pending := s.pending.eraseIdx call } :
            MissionExecutionCoordinator).finishAbort P p answer d).1) ∨
        ∃ winner bidCount answer commitId d, p.winner = some (winner, bidCount) ∧
          s' = (({ s with pending := s.pending.eraseIdx call } :
            MissionExecutionCoordinator).finishAssignment P p winner bidCount answer commitId
              d).1) := by
  cases l with
  | openBidding env task minBids quorum ttlMs d =>
      exact Or.inl (Option.some_inj.1 h ▸ onlyBids_openBidding P s env task minBids quorum ttlMs d)
  | submitBid env input d =>
      exact Or.inl (Option.some_inj.1 h ▸ onlyBids_submitBid P s env input d)
  | commitBids env taskId requestedBy reason commitId now =>
      cases hp : s.commitBids P env taskId requestedBy reason commitId now with
      | error e =>
          simp only [step, hp, Option.some.injEq] at h
          exact Or.inl (h ▸ ⟨rfl, rfl, rfl, rfl, rfl⟩)
      | ok p =>
          simp only [step, hp, Option.some.injEq] at h
          exact Or.inr (Or.inl
            ⟨env, taskId, requestedBy, reason, commitId, now, p, rfl, hp, h.symm⟩)
  | resume call answer commitId d =>
      refine Or.inr (Or.inr ?_)
      cases hp : s.pending[call]? with
      | none => simp [step, hp] at h
      | some p =>
          refine ⟨call, p, hp, ?_⟩
          cases answer with
          | none =>
              simp only [step, hp, Option.some.injEq] at h
              exact Or.inl h.symm
          | some answer =>
              simp only [step, hp, Option.some.injEq] at h
              cases hw : p.winner with
              | none =>
                  rw [finishCommit, hw] at h
                  exact Or.inr (Or.inl ⟨rfl, answer, d, h.symm⟩)
              | some winner =>
                  rw [finishCommit, hw] at h
                  exact Or.inr (Or.inr ⟨winner.1, winner.2, answer, commitId, d, rfl, h.symm⟩)

/-- A suspended call is one of the others and itself. -/
theorem waitingOn_eraseIdx {s : MissionExecutionCoordinator} {call : ℕ} {p : PendingCommit}
    (hp : s.pending[call]? = some p) (w : ℕ) :
    (waitingOn s w).length =
      ((s.pending.eraseIdx call).filter fun p => p.winner.isSome ∧ p.window = w).length +
        if p.winner.isSome ∧ p.window = w then 1 else 0 := by
  -- the queue is the call in front of the others, in another order
  obtain ⟨hlt, rfl⟩ := List.getElem?_eq_some_iff.1 hp
  rw [waitingOn, ((List.getElem_cons_eraseIdx_perm hlt).filter _).length_eq.symm, List.filter_cons]
  split
  · next h => rw [List.length_cons, if_pos (of_decide_eq_true h)]
  · next h => rw [if_neg (of_decide_eq_false (Bool.eq_false_iff.2 h)), Nat.add_zero]

/-! ### The logs -/

theorem Logged.onlyBids {ledger : EventLedgerStore LedgerPayload}
    {s s' : MissionExecutionCoordinator} (h : Logged ledger s) (hs : OnlyBids s s') :
    Logged ledger s' where
  records := by rw [hs.commitHistory, hs.completions, h.records]
  events := by rw [hs.events, hs.completions, h.events]
  rewards := by rw [hs.rewards, hs.completions]; exact h.rewards
  winners := by rw [hs.completions]; exact h.winners
  aborts := by rw [hs.pending]; exact h.aborts

theorem Logged.eraseIdx {ledger : EventLedgerStore LedgerPayload}
    {s : MissionExecutionCoordinator} (h : Logged ledger s) (call : ℕ) :
    Logged ledger { s with pending := s.pending.eraseIdx call } :=
  { h with aborts := fun p hp => h.aborts p (List.mem_of_mem_eraseIdx hp) }

theorem logged_finishAbort {P : Platform} {ledger : EventLedgerStore LedgerPayload}
    {s : MissionExecutionCoordinator} (h : Logged ledger s) {p : PendingCommit}
    (hp : p.record.phase = .aborted) (answer : OrderedAnswer) (d : Draw) :
    Logged ledger (s.finishAbort P p answer d).1 where
  records := by
    have hphase : ({ p.record with
        consensusSequence := answer.sequence, proofHash := answer.proofHash } :
        BidCommitRecord).phase ≠ .committed := by simp [hp]
    change (s.commitHistory ++ [_]).filter _ = s.completions.map _
    rw [List.filter_append, List.filter_singleton, decide_eq_false hphase, cond_false,
      List.append_nil, h.records]
  events := by
    have hkind : lit "task_assignment_aborted" ≠ lit "task_assignment_committed" := by decide
    rw [finishAbort, appendEvent, committedEvents_append, if_neg hkind, List.append_nil]
    exact h.events
  rewards := h.rewards
  winners := h.winners
  aborts := h.aborts

theorem logged_finishAssignment {P : Platform} {ledger : EventLedgerStore LedgerPayload}
    {s : MissionExecutionCoordinator} (h : Logged ledger s) (p : PendingCommit)
    (winner : WeightedBid) (bidCount : ℕ) (answer : OrderedAnswer) (commitId : Str) (d : Draw) :
    Logged ledger (s.finishAssignment P p winner bidCount answer commitId d).1 where
  records := by
    change (s.commitHistory ++ [_]).filter _ = (s.completions ++ [_]).map _
    rw [List.filter_append, List.filter_singleton, h.records, List.map_append]
    rfl
  events := by
    rw [finishAssignment, committedEvents_append, if_pos rfl, h.events, List.append_assoc,
      List.map_append]
    rfl
  rewards := by
    intro calls hcalls
    obtain ⟨before, hbefore, rfl⟩ := Option.map_eq_some_iff.1 hcalls
    rw [h.rewards before hbefore, finishAssignment, List.map_append]
    rfl
  winners := by
    intro c hc
    rcases List.mem_append.1 hc with hc | hc
    · exact h.winners c hc
    · rw [List.mem_singleton.1 hc]
      exact ⟨rfl, rfl, rfl⟩
  aborts := h.aborts

theorem logged_step {P : Platform} {ledger : EventLedgerStore LedgerPayload}
    {s s' : MissionExecutionCoordinator} {l : Label} (h : Logged ledger s)
    (hstep : step P s l = some s') : Logged ledger s' := by
  rcases step_cases hstep with hs | ⟨_, _, _, _, _, _, p, -, hp, rfl⟩ | ⟨call, p, hp, hs⟩
  · exact h.onlyBids hs
  · refine { h with aborts := fun q hq => ?_ }
    rcases List.mem_append.1 hq with hq | hq
    · exact h.aborts q hq
    · rw [List.mem_singleton.1 hq]
      obtain ⟨-, -, -, -, -, -, haborts⟩ := commitBids_spec hp
      exact haborts
  · rcases hs with rfl | ⟨hnone, answer, d, rfl⟩ | ⟨winner, bidCount, answer, commitId, d, -, rfl⟩
    · exact h.eraseIdx call
    · exact logged_finishAbort (h.eraseIdx call)
        (h.aborts p (List.mem_of_getElem? hp) hnone) answer d
    · exact logged_finishAssignment (h.eraseIdx call) p winner bidCount answer commitId d

theorem logged_new (missionId : Str) (ledger : EventLedgerStore LedgerPayload) (hasRewards : Bool) :
    Logged ledger (.new missionId ledger hasRewards) where
  records := rfl
  events := (List.append_nil _).symm
  rewards := by
    intro calls hcalls
    cases hasRewards with
    | true => exact (Option.some_inj.1 hcalls).symm
    | false => exact absurd hcalls (by simp [MissionExecutionCoordinator.new])
  winners := fun _ hc => absurd hc List.not_mem_nil
  aborts := fun _ hp => absurd hp List.not_mem_nil

/-- **Every run keeps the logs and the commits together.** -/
theorem logged_of_run {P : Platform} {missionId : Str} {ledger : EventLedgerStore LedgerPayload}
    {hasRewards : Bool} {labels : List Label} {s : MissionExecutionCoordinator}
    (h : Runs.run (step P) (.new missionId ledger hasRewards) labels = some s) : Logged ledger s :=
  Runs.invariant_of_run (fun _ _ _ => logged_step) (logged_new missionId ledger hasRewards) h

/-! ### Claims -/

/-- A step that meets the condition leaves every window with at most one claim. -/
theorem claims_step {P : Platform} {s s' : MissionExecutionCoordinator} {l : Label}
    (h : ∀ w, claims s w ≤ 1) (hl : ClaimsOnce P s l) (hstep : step P s l = some s') (w : ℕ) :
    claims s' w ≤ 1 := by
  rcases step_cases hstep with hs | ⟨env, taskId, _, _, _, _, p, rfl, hp, rfl⟩ | ⟨call, p, hp, hs⟩
  · rw [claims, completionsOf, waitingOn, hs.completions, hs.pending]
    exact h w
  · obtain ⟨task, window, htask, hwindow, -, hwinner, -⟩ := commitBids_spec hp
    -- a call with a winner is one more claim on its window
    have hclaims : claims { s with pending := s.pending ++ [p] } w =
        claims s w + if p.winner.isSome ∧ p.window = w then 1 else 0 := by
      simp only [claims, completionsOf, waitingOn, List.filter_append, List.length_append,
        List.filter_singleton, Nat.add_assoc]
      by_cases hpw : p.winner.isSome ∧ p.window = w
      · rw [if_pos hpw, decide_eq_true hpw]; rfl
      · rw [if_neg hpw, decide_eq_false hpw]; rfl
    rw [hclaims]
    split
    · next hpw =>
        -- the call has found a bid, so the window was free
        obtain ⟨hsome, rfl⟩ := hpw
        have hranked : s.ranked P env task taskId ≠ [] := by
          intro hnil
          rw [hnil] at hwinner
          rw [Option.map_eq_none_iff.1 hwinner] at hsome
          exact absurd hsome (by simp)
        obtain ⟨hc, hw⟩ := hl task p.window window htask hwindow hranked
        simp [claims, hc, hw]
    · exact h w
  · have hwait := waitingOn_eraseIdx hp w
    have hw := h w
    rcases hs with rfl | ⟨hnone, answer, d, rfl⟩ |
      ⟨winner, bidCount, answer, commitId, d, hsome, rfl⟩
    · simp only [claims, completionsOf] at hw ⊢
      change (s.completions.filter _).length + ((s.pending.eraseIdx call).filter _).length ≤ 1
      omega
    · simp only [claims, completionsOf] at hw ⊢
      change (s.completions.filter _).length + ((s.pending.eraseIdx call).filter _).length ≤ 1
      omega
    · -- the claim of the waiting call becomes the claim of its commit
      simp only [claims, completionsOf] at hw ⊢
      change ((s.completions ++ [_]).filter _).length +
        ((s.pending.eraseIdx call).filter _).length ≤ 1
      rw [List.filter_append, List.length_append, List.filter_singleton]
      by_cases hpw : p.window = w
      · rw [if_pos ⟨by rw [hsome]; rfl, hpw⟩] at hwait
        rw [decide_eq_true hpw, cond_true, List.length_singleton]
        omega
      · rw [decide_eq_false hpw, cond_false, List.length_nil]
        omega

theorem oneWinner_of_claims {s : MissionExecutionCoordinator} {w : ℕ} (h : claims s w ≤ 1) :
    OneWinner s w := by
  have hlen : (completionsOf s w).length ≤ 1 := Nat.le_of_add_right_le h
  refine ⟨by rwa [List.length_map], ?_, by rwa [List.length_map]⟩
  intro e he f hf
  cases hc : completionsOf s w with
  | nil => rw [hc] at he; exact absurd he List.not_mem_nil
  | cons c cs =>
      -- one completion, so both events are its event
      have hcs : cs = [] := by
        rw [hc, List.length_cons] at hlen
        exact List.length_eq_zero_iff.1 (by omega)
      rw [hc, hcs, List.map_singleton, List.mem_singleton] at he hf
      rw [he, hf]

/-! ### Every run -/

/-- **In a run that claims each window once, each window has at most one winner**, in the records,
in the ledger and in the rewards. -/
theorem one_winner_of_run {P : Platform} {missionId : Str}
    {ledger : EventLedgerStore LedgerPayload} {hasRewards : Bool} {labels : List Label}
    {s : MissionExecutionCoordinator}
    (hrun : Runs.run (step P) (.new missionId ledger hasRewards) labels = some s)
    (hclaims : Runs.Along (step P) (ClaimsOnce P) (.new missionId ledger hasRewards) labels) :
    Logged ledger s ∧ ∀ w, OneWinner s w := by
  refine ⟨logged_of_run hrun, fun w => oneWinner_of_claims ?_⟩
  have hnew : ∀ w, claims (.new missionId ledger hasRewards) w ≤ 1 := fun _ => Nat.zero_le 1
  exact Runs.invariant_along (I := fun s => ∀ w, claims s w ≤ 1)
    (fun _ _ _ h hl hstep => claims_step h hl hstep) hnew hclaims hrun w

/-! ### Two calls that wait at the same time -/

/-- A platform whose digests and texts are empty. -/
def barePlatform : Platform where
  sha256 _ := []
  payloadJson _ := .null
  distance _ _ := 0
  numText _ := []
  commitProof _ _ _ _ _ := []
  abortProof _ _ _ := []

def searchTask : TaskWorkItem where
  taskId := "t1"
  missionId := "m"
  scenario := .forest
  taskType := "search"
  priority := 1
  location := none
  requiredCapabilities := []
  minTrustScore := 0
  minBatteryPct := 0
  maxDistanceM := none
  rescueTargetId := none
  createdAtMs := 0
  expiresAtMs := 1000
  synthesized := false

/-- A node with a trust score. -/
def trustedNode (nodeId : Str) (trustScore : ℚ) : NodeProfile where
  nodeId
  role := .explorer
  tags := []
  indoorSuitability := 0
  outdoorSuitability := 0
  batteryPct := 80
  linkQuality := 1
  gpsFix := true
  trustScore
  reputationScore := 0
  location := none

def plainScore : BidScoreBreakdown :=
  ⟨0, 0, 0, 0, 0, 0, 0, 0, 0, 0, 0, 0, []⟩

/-- A mission with two nodes, the second one more trusted; the validation decides by `accepts`. -/
def twoNodes (accepts : TaskBid → Bool) : Surroundings where
  nodes := [lit "n1", lit "n2"]
  defaultActor := none
  tasks := (∅ : KeyedMap TaskWorkItem.taskId).put searchTask
  getNode id :=
    if id = lit "n1" then some (trustedNode id (1 / 2))
    else if id = lit "n2" then some (trustedNode id 1)
    else none
  validateBid bid _ _ := ⟨accepts bid, [], plainScore⟩

def bidOf (bidId nodeId : Str) : TaskBid where
  bidId
  taskId := "t1"
  nodeId
  batteryPct := 80
  linkQuality := 1
  etaMs := 1000
  confidence := 1
  resources := []
  createdAtMs := 1
  expiresAtMs := 1000
  status := .opened
  validationReasons := []
  validatorScore := 0
  rejectReason := none
  cancelReason := none
  rest := []

def drawAt (n : ℕ) : Draw := ⟨[codeUnit n], [codeUnit n], .ofInt n⟩

/-- A window with one bid, and its commit. -/
def oneCall : List Label :=
  let env := twoNodes fun _ => true
  [.openBidding env searchTask 1 1 4000 (drawAt 1), .submitBid env (bidOf "b1" "n1") (drawAt 2),
    .commitBids env "t1" "hq" "close" "c1" 3, .resume 0 (some ⟨true, 1, "p1"⟩) "c2" (drawAt 4)]

/-- The only call of the run finds its window free. -/
theorem one_winner_of_run_oneCall :
    ∃ s, Runs.run (step barePlatform) (.new "m" .empty true) oneCall = some s ∧
      Logged .empty s ∧ ∀ w, OneWinner s w := by
  have hsome : (Runs.run (step barePlatform) (.new "m" .empty true) oneCall).isSome = true := by
    decide +kernel
  obtain ⟨s, hs⟩ := Option.isSome_iff_exists.1 hsome
  refine ⟨s, hs, one_winner_of_run hs ?_⟩
  refine (Runs.along_cons rfl).2 ⟨trivial, (Runs.along_cons rfl).2 ⟨trivial, ?_⟩⟩
  refine ⟨fun _ w _ _ _ _ => ?_, fun _ _ => ⟨trivial, fun _ _ => trivial⟩⟩
  have hsubmit := onlyBids_submitBid barePlatform
    (openBidding barePlatform (.new "m" .empty true) (twoNodes fun _ => true) searchTask 1 1 4000
      (drawAt 1)).1 (twoNodes fun _ => true) (bidOf "b1" "n1") (drawAt 2)
  rw [completionsOf, waitingOn, hsubmit.completions, hsubmit.pending]
  exact ⟨rfl, rfl⟩

/-- A window with one bid and a call that waits to commit it, then a better bid and a second call;
then the two answers. -/
def twoCalls : List Label :=
  let env := twoNodes fun _ => true
  [.openBidding env searchTask 1 1 4000 (drawAt 1), .submitBid env (bidOf "b1" "n1") (drawAt 2),
    .commitBids env "t1" "hq" "close" "c1" 3, .submitBid env (bidOf "b2" "n2") (drawAt 4),
    .commitBids env "t1" "hq" "close" "c2" 5, .resume 0 (some ⟨true, 1, "p1"⟩) "c3" (drawAt 6),
    .resume 0 (some ⟨true, 2, "p2"⟩) "c4" (drawAt 7)]

/-- **Two calls that wait at the same time commit two winners and pay both.** -/
theorem two_winners :
    ∃ s, Runs.run (step barePlatform) (.new "m" .empty true) twoCalls = some s ∧
      ¬ OneWinner s 0 ∧
      s.commitHistory.map (·.winnerNodeId) = [some (lit "n1"), some (lit "n2")] ∧
      s.rewards.map (·.map (·.nodeId)) = some [lit "n1", lit "n2"] := by
  have hrun : (Runs.run (step barePlatform) (.new "m" .empty true) twoCalls).map
      (fun s => ((completionsOf s 0).length, s.commitHistory.map (·.winnerNodeId),
        s.rewards.map (·.map (·.nodeId)))) =
      some (2, [some (lit "n1"), some (lit "n2")], some [lit "n1", lit "n2"]) := by
    decide +kernel
  obtain ⟨s, hs, heq⟩ := Option.map_eq_some_iff.1 hrun
  obtain ⟨hlen, hrest⟩ := Prod.mk.inj heq
  refine ⟨s, hs, fun h => ?_, Prod.mk.inj hrest⟩
  have := h.records
  rw [List.length_map, hlen] at this
  omega

end Bidding
