/-
**The commit of a list of bids** (`TaskCommitCoordinator` of
`shared/tashi-task-bidding-recovery.ts`).

`collectAndCommit` takes the bids with the call: it keeps the accepted ones, submits the best to
Vertex and suspends; when the answer is there it writes the assignment to the ledger and pays the
winner.  A call without an accepted bid submits an abort.

Main definitions:

* `Bidding.TaskCommitCoordinator` with `collect` (`collectAndCommit` up to the suspension) and
  `finish` (after the answer);
* `Bidding.validBids` — the bids that are accepted.
-/
import Endendend.Bidding.ExecutionCoordinator

set_option relaxedAutoImplicit false
set_option autoImplicit false

namespace Bidding

open Js Recovery

/-! ### Valid bids -/

/-- An accepted bid, with its node and the score that Lattice gives it. -/
structure ValidBid where
  bid : TaskBid
  node : NodeProfile
  score : BidScoreBreakdown

/-- The bid, if its node is known and Lattice accepts it. -/
def validBid (env : Surroundings) (task : TaskWorkItem) (bid : TaskBid) : Option ValidBid :=
  match env.getNode bid.nodeId with
  | none => none
  | some node =>
    let verdict := env.validateBid bid node task
    if verdict.accepted then some ⟨bid, node, verdict.score⟩ else none

def validBids (env : Surroundings) (task : TaskWorkItem) (bids : List TaskBid) : List ValidBid :=
  bids.filterMap (validBid env task)

/-- The order of the choice: by the score of Lattice, then by arrival, then by the confidence part
of the score. -/
def ValidBid.RanksBefore (a b : ValidBid) : Prop :=
  b.score.total < a.score.total ∨
    b.score.total = a.score.total ∧
      (a.bid.etaMs < b.bid.etaMs ∨
        a.bid.etaMs = b.bid.etaMs ∧ b.score.confidence ≤ a.score.confidence)

instance : DecidableRel ValidBid.RanksBefore := fun a b => by
  unfold ValidBid.RanksBefore
  infer_instance

theorem validBids_eq_nil_iff {env : Surroundings} {task : TaskWorkItem} {bids : List TaskBid} :
    validBids env task bids = [] ↔
      ∀ bid ∈ bids, ∀ node, env.getNode bid.nodeId = some node →
        (env.validateBid bid node task).accepted = false := by
  rw [validBids, List.filterMap_eq_nil_iff]
  refine forall₂_congr fun bid _ => ?_
  unfold validBid
  cases env.getNode bid.nodeId with
  | none => simp
  | some node => simp

/-! ### The coordinator -/

/-- A call of `collectAndCommit` that waits for the answer: the number of bids it was given, the
record it has submitted, and the winner and the number of valid bids unless it aborts. -/
structure PendingCollect where
  task : TaskWorkItem
  totalBids : ℕ
  record : BidCommitRecord
  requestorId : Str
  reason : Str
  winner : Option (ValidBid × ℕ)

structure TaskCommitCoordinator where
  lastKnownTaskById : KeyedMap TaskWorkItem.taskId
  commitmentLog : List BidCommitRecord
  ledger : EventLedgerStore LedgerPayload
  /-- The calls of `recordWork`, if there is a reward adapter. -/
  rewards : Option (List WorkReward)

namespace TaskCommitCoordinator

def new (ledger : EventLedgerStore LedgerPayload) (hasRewards : Bool) : TaskCommitCoordinator :=
  ⟨∅, [], ledger, if hasRewards then some [] else none⟩

def registerTask (s : TaskCommitCoordinator) (task : TaskWorkItem) : TaskCommitCoordinator :=
  { s with lastKnownTaskById := s.lastKnownTaskById.put task }

def getTask (s : TaskCommitCoordinator) (taskId : Str) : Option TaskWorkItem :=
  s.lastKnownTaskById.get? taskId

section Operations

variable (P : Platform) (commitProof : TaskWorkItem → TaskBid → ℕ → Str → Str → Str)

def buildCommit (task : TaskWorkItem) (winningBid : TaskBid) (bidsSeen : ℕ)
    (requestedBy reason commitId : Str) (now : ℚ) : BidCommitRecord where
  commitId
  missionId := task.missionId
  taskId := task.taskId
  phase := .bidding
  winnerNodeId := some winningBid.nodeId
  winningBidId := some winningBid.bidId
  bidsSeen
  consensusSequence := 0
  committedAtMs := now
  proofHash := commitProof task winningBid bidsSeen requestedBy reason
  metadata := MissionExecutionCoordinator.commitMetadata task requestedBy reason

/-- The same body as in the registry. -/
def buildAbortCommit (task : TaskWorkItem) (requestedBy reason commitId : Str) (now : ℚ) :
    BidCommitRecord :=
  MissionExecutionCoordinator.buildAbortCommit P task requestedBy reason commitId now

/-- A call of `collectAndCommit` up to its suspension. -/
def collect (s : TaskCommitCoordinator) (env : Surroundings) (task : TaskWorkItem)
    (bids : List TaskBid) (requestorId reason commitId : Str) (now : ℚ) :
    TaskCommitCoordinator × PendingCollect :=
  let pending (record : BidCommitRecord) (winner : Option (ValidBid × ℕ)) : PendingCollect :=
    { task, totalBids := bids.length, record, requestorId, reason, winner }
  (s.registerTask task,
    match (validBids env task bids).insertionSort ValidBid.RanksBefore with
    | [] =>
      pending (buildAbortCommit P task requestorId (reason ++ lit ":no_valid_bids") commitId now)
        none
    | winner :: others =>
      pending
        (buildCommit commitProof task winner.bid (others.length + 1) requestorId reason commitId
          now)
        (some (winner, others.length + 1)))

/-- The payload of the event of an assignment. -/
def assignmentPayload (p : PendingCollect) (winner : ValidBid) (validCount : ℕ)
    (answer : OrderedAnswer) : LedgerPayload :=
  .other [(lit "taskId", .str p.task.taskId), (lit "winnerNodeId", .str winner.bid.nodeId),
    (lit "winningBidId", .str winner.bid.bidId), (lit "totalBids", .num (.ofInt p.totalBids)),
    (lit "validBids", .num (.ofInt validCount)), (lit "reason", .str p.reason),
    (lit "proofHash", .str answer.proofHash)]

/-- The payload of the reward for a winner. -/
def workReward (p : PendingCollect) (winner : ValidBid) (answer : OrderedAnswer) : WorkReward where
  missionId := p.task.missionId
  nodeId := winner.bid.nodeId
  amount := max 1 ⌊winner.score.total / 10 + 1 / 2⌋
  reason := lit "task_committed:" ++ p.task.taskType
  taskId := p.task.taskId
  bidId := winner.bid.bidId
  proofHash := answer.proofHash

/-- A suspended call with a winner, when the answer is there. -/
def finishAssignment (s : TaskCommitCoordinator) (p : PendingCollect) (winner : ValidBid)
    (validCount : ℕ) (answer : OrderedAnswer) (d : Draw) :
    TaskCommitCoordinator × BidCommitRecord :=
  let entry : LedgerEntry LedgerPayload :=
    ⟨p.task.missionId, "task_assignment_committed", p.requestorId,
      assignmentPayload p winner validCount answer⟩
  let saved := s.ledger.record P.sha256 P.payloadJson entry d
  let record : BidCommitRecord :=
    { p.record with
      consensusSequence := answer.sequence
      proofHash := answer.proofHash
      winnerNodeId := some winner.bid.nodeId
      winningBidId := some winner.bid.bidId
      phase := .committed
      metadata := p.record.metadata.assign [(lit "ledgerHash", .str saved.cumulativeHash)] }
  (({ s with
        ledger := s.ledger.append P.sha256 P.payloadJson entry d
        commitmentLog := s.commitmentLog ++ [record]
        rewards := s.rewards.map (· ++ [workReward p winner answer]) } :
      TaskCommitCoordinator).registerTask p.task,
    record)

/-- A suspended call without a winner, when the answer is there. -/
def finishAbort (s : TaskCommitCoordinator) (p : PendingCollect) (answer : OrderedAnswer) :
    TaskCommitCoordinator × BidCommitRecord :=
  let record : BidCommitRecord :=
    { p.record with consensusSequence := answer.sequence, proofHash := answer.proofHash }
  ({ s with commitmentLog := s.commitmentLog ++ [record] }, record)

/-- What a suspended call does when the answer is there. -/
def finish (s : TaskCommitCoordinator) (p : PendingCollect) (answer : OrderedAnswer) (d : Draw) :
    TaskCommitCoordinator × BidCommitRecord :=
  match p.winner with
  | some (winner, validCount) => s.finishAssignment P p winner validCount answer d
  | none => s.finishAbort p answer

end Operations

/-- What a call of `collectAndCommit` suspends with: it has no winner if and only if no bid is
valid, and then the record is an abort. -/
theorem collect_spec {P : Platform} {commitProof : TaskWorkItem → TaskBid → ℕ → Str → Str → Str}
    (s : TaskCommitCoordinator) (env : Surroundings) (task : TaskWorkItem) (bids : List TaskBid)
    (requestorId reason commitId : Str) (now : ℚ) :
    let p := (s.collect P commitProof env task bids requestorId reason commitId now).2
    (p.winner = none ↔ validBids env task bids = []) ∧
      (p.winner = none → p.record.phase = .aborted) := by
  intro p
  have hlength := List.length_insertionSort ValidBid.RanksBefore (validBids env task bids)
  simp only [p, collect]
  cases hsort : (validBids env task bids).insertionSort ValidBid.RanksBefore with
  | nil =>
      rw [hsort, List.length_nil] at hlength
      exact ⟨iff_of_true rfl (List.length_eq_zero_iff.1 hlength.symm), fun _ => rfl⟩
  | cons winner others =>
      refine ⟨iff_of_false (by simp) fun hnil => ?_, fun hnone => by simp at hnone⟩
      rw [hsort, hnil] at hlength
      simp at hlength

end TaskCommitCoordinator

end Bidding
