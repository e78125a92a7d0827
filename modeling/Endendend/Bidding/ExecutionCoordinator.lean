/-
**Bidding and commit** (`MissionExecutionCoordinator` of `shared/tashi-task-bidding-recovery.ts`).

`commitBids` chooses the winner, submits the assignment to Vertex and suspends; when the answer is
there it records the assignment, writes it to the ledger and pays the winner.  The labels of a step
carry what the call sees of the mission and of Lattice, the ids it draws and the clock it reads, so
a run is any interleaving of calls and answers.

Main definitions:

* `Bidding.Surroundings`, `Bidding.Platform` — what a call sees, and what stays a parameter;
* `Bidding.MissionExecutionCoordinator` with `openBidding`, `submitBid`, `commitBids` (up to the
  suspension) and `finishCommit` (after the answer);
* `Bidding.Label`, `Bidding.step` — the calls and answers as a transition system.
-/
import Endendend.Bidding.TaskBidRegistry
import Endendend.Foundation.Runs
import Endendend.Recovery.EventLedger

set_option relaxedAutoImplicit false
set_option autoImplicit false

namespace Bidding

open Js Recovery

/-! ### The surroundings -/

structure Verdict where
  accepted : Bool
  reasons : List Str
  score : BidScoreBreakdown

/-- What a call sees of the mission and of Lattice. -/
structure Surroundings where
  /-- The ids of the nodes of the mission. -/
  nodes : List Str
  defaultActor : Option Str
  /-- The tasks of the mission, each under its id. -/
  tasks : KeyedMap TaskWorkItem.taskId
  getNode : Str → Option NodeProfile
  validateBid : TaskBid → NodeProfile → TaskWorkItem → Verdict

/-- The payloads of the coordinator's events, and those of others; a registered task is named by
its id. -/
inductive LedgerPayload
  | taskRegistered (task : TaskWorkItem)
  | biddingOpened (taskId : Str) (scenario : ScenarioKind) (taskType : Str) (minBids quorum : ℕ)
      (closesAtMs : ℚ)
  | bidRejected (taskId bidId : Str) (reasons : List Str) (score : BidScoreBreakdown)
      (windowClosed : Bool)
  | bidAccepted (taskId bidId : Str) (score : BidScoreBreakdown)
  | assignmentAborted (taskId reason : Str)
  | assignmentCommitted (taskId winnerNodeId winningBidId : Str) (bidScore : BidScoreBreakdown)
      (consensusSequence : Decimal) (proofHash reason : Str)
  | other (fields : List (Str × Json))

/-- The functions that the results do not depend on: the digest, the text of a payload, the distance
of two points, the text of a number, and the proofs of a commit before it is ordered. -/
structure Platform where
  sha256 : Str → List UInt8
  payloadJson : LedgerPayload → Json
  distance : XYPoint → XYPoint → ℚ
  numText : ℚ → Str
  commitProof : TaskWorkItem → WeightedBid → ℕ → Str → Str → Str
  abortProof : TaskWorkItem → Str → Str → Str

/-- The payload of `recordWork`; its kind is always work. -/
structure WorkReward where
  missionId : Str
  nodeId : Str
  amount : ℤ
  reason : Str
  taskId : Str
  bidId : Str
  proofHash : Str

/-- The answer of `submitOrderedAssignment`; its `ok` is not read. -/
structure OrderedAnswer where
  ok : Bool
  sequence : Decimal
  proofHash : Str

/-- A call of `commitBids` that waits for the answer: the window it has read, the record it has
submitted, and the winner and the number of ranked bids unless it aborts. -/
structure PendingCommit where
  taskId : Str
  task : TaskWorkItem
  window : ℕ
  record : BidCommitRecord
  requestedBy : Str
  reason : Str
  winner : Option (WeightedBid × ℕ)

/-- A commit that went through: the window that its call had read, the record, the event and the
payload of the reward. -/
structure Completion where
  window : ℕ
  record : BidCommitRecord
  event : LedgerEvent LedgerPayload
  reward : WorkReward

/-- A bid that the registry has taken, and the verdict of the validation. -/
structure Submission where
  taskId : Str
  bidId : Str
  accepted : Bool

/-- The coordinator.  `completions` and `submissions` are its history: no operation reads them. -/
structure MissionExecutionCoordinator where
  missionId : Str
  bids : TaskBidRegistry
  commitHistory : List BidCommitRecord
  ledger : EventLedgerStore LedgerPayload
  /-- The calls of `recordWork`, if there is a reward adapter. -/
  rewards : Option (List WorkReward)
  pending : List PendingCommit
  completions : List Completion
  submissions : List Submission

namespace MissionExecutionCoordinator

/-- A new coordinator on a ledger. -/
def new (missionId : Str) (ledger : EventLedgerStore LedgerPayload) (hasRewards : Bool) :
    MissionExecutionCoordinator :=
  ⟨missionId, .empty, [], ledger, if hasRewards then some [] else none, [], [], []⟩

/-! ### Tasks -/

/-- The task of the last `task_registered` event that names it. -/
def getTaskFromLedger (s : MissionExecutionCoordinator) (taskId : Str) : Option TaskWorkItem :=
  let entries := (s.ledger.byMissionId s.missionId).filterMap fun e =>
    match e.payload with
    | .taskRegistered task =>
      if e.kind = lit "task_registered" ∧ task.taskId = taskId then some task else none
    | _ => none
  entries.getLast?

/-- The task that stands for one of which only the window is known. -/
def synthesizedTask (taskId : Str) (window : BidWindow) : TaskWorkItem where
  taskId
  missionId := window.missionId
  scenario := window.scenario
  taskType := window.taskType
  priority := window.priority
  location := none
  requiredCapabilities := []
  minTrustScore := 4 / 10
  minBatteryPct := 30
  maxDistanceM := some 500
  rescueTargetId := none
  createdAtMs := window.openedAtMs
  expiresAtMs := window.closesAtMs
  synthesized := true

def getTaskOrThrow (s : MissionExecutionCoordinator) (env : Surroundings) (taskId : Str) :
    Except Str TaskWorkItem :=
  match env.tasks.get? taskId with
  | some task => .ok task
  | none =>
    match s.getTaskFromLedger taskId with
    | some task => .ok task
    | none =>
      match s.bids.getWindow taskId with
      | some (_, window) => .ok (synthesizedTask taskId window)
      | none => .error (lit "unknown task: " ++ taskId)

section Operations

variable (P : Platform)

def appendEvent (s : MissionExecutionCoordinator) (missionId kind actorId : Str)
    (payload : LedgerPayload) (d : Draw) : MissionExecutionCoordinator :=
  { s with
    ledger := s.ledger.append P.sha256 P.payloadJson ⟨missionId, kind, actorId, payload⟩ d }

/-! ### Bidding -/

def openBidding (s : MissionExecutionCoordinator) (env : Surroundings) (task : TaskWorkItem)
    (minBids quorum : ℕ) (ttlMs : ℚ) (d : Draw) : MissionExecutionCoordinator × BidWindow :=
  let (bids, window) := s.bids.openWindow task minBids quorum ttlMs d.nowMs.val
  let actor := env.nodes.head?.getD (env.defaultActor.getD "system")
  (({ s with bids } : MissionExecutionCoordinator).appendEvent P task.missionId
      "task_bidding_opened" actor
      (.biddingOpened task.taskId task.scenario task.taskType minBids quorum window.closesAtMs) d,
    window)

/-- The bid as the coordinator takes it from the input. -/
def normalizedBid (input : TaskBid) (verdict : Verdict) (now : ℚ) : TaskBid :=
  { input with
    status := if verdict.accepted then .submitted else .rejected
    batteryPct := clamp input.batteryPct 0 100
    linkQuality := clamp input.linkQuality 0 1
    confidence := clamp input.confidence 0 1
    createdAtMs := if input.createdAtMs = 0 then now else input.createdAtMs
    expiresAtMs := if input.expiresAtMs = 0 then now + 4000 else input.expiresAtMs
    validationReasons := verdict.reasons
    validatorScore := verdict.score.total }

/-- Takes a bid whose task and node are known. -/
def takeBid (s : MissionExecutionCoordinator) (task : TaskWorkItem) (node : NodeProfile)
    (verdict : Verdict) (bid : TaskBid) (d : Draw) :
    MissionExecutionCoordinator × Except Str TaskBid :=
  match s.bids.submitBid bid d.nowMs.val with
  | (bids, .error e) =>
    -- an accepted bid that no window takes throws, a rejected one goes to the ledger
    if verdict.accepted then ({ s with bids }, .error e)
    else
      (({ s with bids } : MissionExecutionCoordinator).appendEvent P task.missionId
          "task_bid_rejected" bid.nodeId
          (.bidRejected task.taskId bid.bidId verdict.reasons verdict.score true) d,
        .ok bid)
  | (bids, .ok ()) =>
    let submissions := s.submissions ++ [⟨bid.taskId, bid.bidId, verdict.accepted⟩]
    if verdict.accepted then
      let weighted := chooseBest P.distance P.numText task node bid
      (({ s with bids := bids.setWeighted weighted, submissions } :
          MissionExecutionCoordinator).appendEvent P task.missionId "task_bid_accepted" bid.nodeId
          (.bidAccepted task.taskId bid.bidId weighted.score) d,
        .ok bid)
    else
      let reason := (verdict.reasons.intersperse (lit ";")).flatten
      (({ s with bids := bids.rejectBid task.taskId bid.bidId reason, submissions } :
          MissionExecutionCoordinator).appendEvent P task.missionId "task_bid_rejected" bid.nodeId
          (.bidRejected task.taskId bid.bidId verdict.reasons verdict.score false) d,
        .ok bid)

def submitBid (s : MissionExecutionCoordinator) (env : Surroundings) (input : TaskBid) (d : Draw) :
    MissionExecutionCoordinator × Except Str TaskBid :=
  match s.getTaskOrThrow env input.taskId with
  | .error e => (s, .error e)
  | .ok task =>
    match env.getNode input.nodeId with
    | none => (s, .error (lit "unknown node: " ++ input.nodeId))
    | some node =>
      let verdict := env.validateBid input node task
      s.takeBid P task node verdict (normalizedBid input verdict d.nowMs.val) d

/-! ### Commit -/

/-- The submitted bids whose node is known.  They are validated again, but nothing reads the
verdict. -/
def fallback (s : MissionExecutionCoordinator) (env : Surroundings) (taskId : Str) :
    List (TaskBid × NodeProfile) :=
  (s.bids.bidsForTask taskId).filterMap fun bid =>
    (env.getNode bid.nodeId).map fun node => (bid, node)

/-- The bids a commit chooses from, the best one first. -/
def ranked (s : MissionExecutionCoordinator) (env : Surroundings) (task : TaskWorkItem)
    (taskId : Str) : List WeightedBid :=
  let weighted := s.bids.weightedBidsForTask taskId
  if weighted.length > 0 then weighted
  else rank P.distance P.numText task (s.fallback env taskId)

def commitMetadata (task : TaskWorkItem) (requestedBy reason : Str) : OrderedMap Str Json :=
  .ofList [(lit "requestedBy", .str requestedBy), (lit "reason", .str reason),
    (lit "taskType", .str task.taskType), (lit "scenario", .str task.scenario.text)]

def buildCommit (task : TaskWorkItem) (winningBid : WeightedBid) (bidsSeen : ℕ)
    (requestedBy reason commitId : Str) (now : ℚ) : BidCommitRecord where
  commitId
  missionId := task.missionId
  taskId := task.taskId
  phase := .bidding
  winnerNodeId := some winningBid.nodeId
  winningBidId := some winningBid.bidId
  bidsSeen
  consensusSequence := 0
  committedAtMs := now
  proofHash := P.commitProof task winningBid bidsSeen requestedBy reason
  metadata := commitMetadata task requestedBy reason

def buildAbortCommit (task : TaskWorkItem) (requestedBy reason commitId : Str) (now : ℚ) :
    BidCommitRecord where
  commitId
  missionId := task.missionId
  taskId := task.taskId
  phase := .aborted
  winnerNodeId := none
  winningBidId := none
  bidsSeen := 0
  consensusSequence := 0
  committedAtMs := now
  proofHash := P.abortProof task requestedBy reason
  metadata := commitMetadata task requestedBy reason

/-- A call of `commitBids` up to its suspension. -/
def commitBids (s : MissionExecutionCoordinator) (env : Surroundings)
    (taskId requestedBy reason commitId : Str) (now : ℚ) : Except Str PendingCommit :=
  match s.getTaskOrThrow env taskId with
  | .error e => .error e
  | .ok task =>
    match s.bids.getWindow taskId with
    | none => .error (lit "missing bid window: " ++ taskId)
    | some (window, _) =>
      -- the status of the window is not looked at
      match s.ranked P env task taskId with
      | [] =>
        let record :=
          buildAbortCommit P task requestedBy (reason ++ lit ":no_ranked_bids") commitId now
        .ok { taskId, task, window, record, requestedBy, reason, winner := none }
      | winner :: others =>
        let record := buildCommit P task winner (others.length + 1) requestedBy reason commitId now
        .ok
          { taskId, task, window, record, requestedBy, reason
            winner := some (winner, others.length + 1) }

/-- The payload of the reward for a winner. -/
def workReward (p : PendingCommit) (winner : WeightedBid) (answer : OrderedAnswer) :
    WorkReward where
  missionId := p.task.missionId
  nodeId := winner.nodeId
  amount := max 1 ⌊winner.score.total / 10 + 1 / 2⌋
  reason := lit "task_assigned:" ++ p.task.taskType
  taskId := p.taskId
  bidId := winner.bidId
  proofHash := answer.proofHash

/-- A suspended call with a winner, when the answer is there: the record, the registry, the event,
the reward. -/
def finishAssignment (s : MissionExecutionCoordinator) (p : PendingCommit) (winner : WeightedBid)
    (bidCount : ℕ) (answer : OrderedAnswer) (commitId : Str) (d : Draw) :
    MissionExecutionCoordinator × BidCommitRecord :=
  -- the status is recorded, and decides nothing
  let windowStatus := ((s.bids.heap[p.window]?).map fun w => w.status.text).getD []
  let record : BidCommitRecord :=
    { p.record with
      consensusSequence := answer.sequence
      proofHash := answer.proofHash
      phase := .committed
      winnerNodeId := some winner.nodeId
      winningBidId := some winner.bidId
      metadata := p.record.metadata.assign
        [(lit "bidCount", .num (.ofInt bidCount)), (lit "windowStatus", .str windowStatus),
          (lit "orderedSequence", .num answer.sequence)] }
  let entry : LedgerEntry LedgerPayload :=
    ⟨p.task.missionId, "task_assignment_committed", p.requestedBy,
      .assignmentCommitted p.taskId winner.nodeId winner.bidId winner.score answer.sequence
        answer.proofHash p.reason⟩
  let reward := workReward p winner answer
  ({ s with
      commitHistory := s.commitHistory ++ [record]
      bids := s.bids.markCommitted p.taskId winner.nodeId winner.bidId answer.sequence
        answer.proofHash commitId d.nowMs.val
      ledger := s.ledger.append P.sha256 P.payloadJson entry d
      rewards := s.rewards.map (· ++ [reward])
      completions := s.completions ++
        [⟨p.window, record, s.ledger.record P.sha256 P.payloadJson entry d, reward⟩] },
    record)

/-- A suspended call without a winner, when the answer is there. -/
def finishAbort (s : MissionExecutionCoordinator) (p : PendingCommit) (answer : OrderedAnswer)
    (d : Draw) : MissionExecutionCoordinator × BidCommitRecord :=
  let record : BidCommitRecord :=
    { p.record with consensusSequence := answer.sequence, proofHash := answer.proofHash }
  (({ s with
        commitHistory := s.commitHistory ++ [record]
        bids := s.bids.cancelTask p.taskId p.reason d.nowMs.val } :
      MissionExecutionCoordinator).appendEvent P p.task.missionId "task_assignment_aborted"
      p.requestedBy (.assignmentAborted p.taskId p.reason) d,
    record)

/-- What a suspended call does when the answer is there. -/
def finishCommit (s : MissionExecutionCoordinator) (p : PendingCommit) (answer : OrderedAnswer)
    (commitId : Str) (d : Draw) : MissionExecutionCoordinator × BidCommitRecord :=
  match p.winner with
  | some (winner, bidCount) => s.finishAssignment P p winner bidCount answer commitId d
  | none => s.finishAbort P p answer d

end Operations

/-- What a call of `commitBids` that suspends has found. -/
theorem commitBids_spec {P : Platform} {s : MissionExecutionCoordinator} {env : Surroundings}
    {taskId requestedBy reason commitId : Str} {now : ℚ} {p : PendingCommit}
    (h : s.commitBids P env taskId requestedBy reason commitId now = .ok p) :
    ∃ task window, s.getTaskOrThrow env taskId = .ok task ∧
      s.bids.getWindow taskId = some (p.window, window) ∧ p.taskId = taskId ∧
        p.winner.map Prod.fst = (s.ranked P env task taskId).head? ∧
          (p.winner = none → p.record.phase = .aborted) := by
  unfold commitBids at h
  cases htask : s.getTaskOrThrow env taskId with
  | error e => simp [htask] at h
  | ok task =>
      cases hwindow : s.bids.getWindow taskId with
      | none => simp [htask, hwindow] at h
      | some w =>
          cases hranked : s.ranked P env task taskId with
          | nil =>
              simp only [htask, hwindow, hranked, Except.ok.injEq] at h
              subst h
              exact ⟨task, w.2, rfl, rfl, rfl, by rw [hranked]; rfl, fun _ => rfl⟩
          | cons winner others =>
              simp only [htask, hwindow, hranked, Except.ok.injEq] at h
              subst h
              exact ⟨task, w.2, rfl, rfl, rfl, by rw [hranked]; rfl, fun hnone => by simp at hnone⟩

end MissionExecutionCoordinator

/-! ### Runs -/

/-- A call, or the answer to the suspended call at a place of the queue: `none` when Vertex
refuses, and the call fails. -/
inductive Label
  | openBidding (env : Surroundings) (task : TaskWorkItem) (minBids quorum : ℕ) (ttlMs : ℚ)
      (d : Draw)
  | submitBid (env : Surroundings) (input : TaskBid) (d : Draw)
  | commitBids (env : Surroundings) (taskId requestedBy reason commitId : Str) (now : ℚ)
  | resume (call : ℕ) (answer : Option OrderedAnswer) (commitId : Str) (d : Draw)

/-- One call or one answer.  A call that throws leaves what it has changed before. -/
def step (P : Platform) (s : MissionExecutionCoordinator) :
    Label → Option MissionExecutionCoordinator
  | .openBidding env task minBids quorum ttlMs d =>
    some (s.openBidding P env task minBids quorum ttlMs d).1
  | .submitBid env input d => some (s.submitBid P env input d).1
  | .commitBids env taskId requestedBy reason commitId now =>
    match s.commitBids P env taskId requestedBy reason commitId now with
    | .ok p => some { s with pending := s.pending ++ [p] }
    | .error _ => some s
  | .resume call answer commitId d =>
    match s.pending[call]? with
    | none => none
    | some p =>
      let s := { s with pending := s.pending.eraseIdx call }
      match answer with
      | some answer => some (s.finishCommit P p answer commitId d).1
      | none => some s

end Bidding
