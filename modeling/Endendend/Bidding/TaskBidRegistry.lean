/-
**Bid windows and bids** (`TaskBidRegistry` of `shared/tashi-task-bidding-recovery.ts`).

A task has one current window; opening it again makes a new window, while calls that are suspended
still hold the old one.  The bids of a task are kept twice: as they were submitted, and with their
score once the validation has accepted them.

Main definitions:

* `Bidding.BidWindow`, `Bidding.BidCommitRecord` — windows and records of a commit;
* `Bidding.TaskBidRegistry` and its operations.

Main results:

* `Bidding.TaskBidRegistry.bidsOf_setBids` — the bids of one task change, no others;
* `Bidding.TaskBidRegistry.getWindow_cancelTask` — a cancelled task keeps its window, cancelled.
-/
import Endendend.Foundation.OrderedMap
import Endendend.Bidding.BidScorer

set_option relaxedAutoImplicit false
set_option autoImplicit false

namespace Bidding

open Js

/-! ### Records -/

inductive WindowStatus
  | opened
  | closed
  | committed
  | cancelled
  | expired
  deriving DecidableEq

/-- The text of a status. -/
def WindowStatus.text : WindowStatus → Str
  | opened => "open"
  | closed => "closed"
  | committed => "committed"
  | cancelled => "cancelled"
  | expired => "expired"

structure BidWindow where
  taskId : Str
  missionId : Str
  openedAtMs : ℚ
  closesAtMs : ℚ
  closedAtMs : Option ℚ
  status : WindowStatus
  minBids : ℕ
  requiredQuorum : ℕ
  acceptedWinnerId : Option Str
  winningBidId : Option Str
  scenario : ScenarioKind
  taskType : Str
  priority : ℚ
  cancelReason : Option Str

inductive CommitPhase
  | bidding
  | committed
  | aborted
  deriving DecidableEq

structure BidCommitRecord where
  commitId : Str
  missionId : Str
  taskId : Str
  phase : CommitPhase
  winnerNodeId : Option Str
  winningBidId : Option Str
  bidsSeen : ℕ
  consensusSequence : Decimal
  committedAtMs : ℚ
  proofHash : Str
  metadata : OrderedMap Str Json

/-- The registry: all window objects in the order they were opened, the current window of each
task, the submitted bids of each task under their ids, the bids with a score under their ids, and
the last commit of each task. -/
structure TaskBidRegistry where
  heap : List BidWindow
  windows : OrderedMap Str ℕ
  bids : OrderedMap Str (KeyedMap TaskBid.bidId)
  weighted : KeyedMap (TaskBid.bidId ∘ WeightedBid.toTaskBid)
  commits : OrderedMap Str BidCommitRecord
  /-- The current windows are in the heap. -/
  current : ∀ taskId w, windows.get? taskId = some w → w < heap.length

namespace TaskBidRegistry

def empty : TaskBidRegistry := ⟨[], ∅, ∅, ∅, ∅, by simp⟩

/-- The current window of a task. -/
def getWindow (r : TaskBidRegistry) (taskId : Str) : Option (ℕ × BidWindow) :=
  (r.windows.get? taskId).bind fun w => (r.heap[w]?).map fun window => (w, window)

/-- The submitted bids of a task. -/
def bidsOf (r : TaskBidRegistry) (taskId : Str) : KeyedMap TaskBid.bidId :=
  (r.bids.get? taskId).getD ∅

def bidsForTask (r : TaskBidRegistry) (taskId : Str) : List TaskBid := (r.bidsOf taskId).values

/-- Changes a window object. -/
def modifyWindow (r : TaskBidRegistry) (w : ℕ) (f : BidWindow → BidWindow) : TaskBidRegistry :=
  { r with
    heap := r.heap.modify w f
    current := fun taskId w' h => by
      rw [List.length_modify]
      exact r.current taskId w' h }

def setBids (r : TaskBidRegistry) (taskId : Str) (list : KeyedMap TaskBid.bidId) :
    TaskBidRegistry :=
  { r with bids := r.bids.set taskId list }

/-! ### Operations -/

def openWindow (r : TaskBidRegistry) (task : TaskWorkItem) (minBids quorum : ℕ) (ttlMs now : ℚ) :
    TaskBidRegistry × BidWindow :=
  let win : BidWindow :=
    { taskId := task.taskId
      missionId := task.missionId
      openedAtMs := now
      closesAtMs := now + ttlMs
      closedAtMs := none
      status := .opened
      minBids
      requiredQuorum := quorum
      acceptedWinnerId := none
      winningBidId := none
      scenario := task.scenario
      taskType := task.taskType
      priority := task.priority
      cancelReason := none }
  ({ r with
      heap := r.heap ++ [win]
      windows := r.windows.set task.taskId r.heap.length
      current := fun taskId w h => by
        rw [List.length_append, List.length_singleton]
        rw [OrderedMap.get?_set] at h
        split at h
        · rw [← Option.some_inj.1 h]
          exact Nat.lt_succ_self _
        · exact Nat.lt_succ_of_lt (r.current taskId w h) },
    win)

/-- Takes a bid, unless the window of its task is missing, no longer open, or past its end. -/
def submitBid (r : TaskBidRegistry) (bid : TaskBid) (now : ℚ) : TaskBidRegistry × Except Str Unit :=
  match r.getWindow bid.taskId with
  | none => (r, .error (lit "no bid window for task: " ++ bid.taskId))
  | some (w, window) =>
    if window.status ≠ .opened then
      (r, .error (lit "bid window closed for task: " ++ bid.taskId))
    else if now > window.closesAtMs then
      (r.modifyWindow w fun window => { window with status := .expired },
        .error (lit "bid window expired for task: " ++ bid.taskId))
    else
      (r.setBids bid.taskId ((r.bidsOf bid.taskId).put { bid with status := .submitted }), .ok ())

/-- Stores a bid with its score, and marks the submitted one. -/
def setWeighted (r : TaskBidRegistry) (bid : WeightedBid) : TaskBidRegistry :=
  let list := r.bidsOf bid.taskId
  let list :=
    match list.get? bid.bidId with
    | some b => list.put { b with status := .weighted }
    | none => list
  { r.setBids bid.taskId list with weighted := r.weighted.put bid }

/-- Marks a submitted bid as rejected. -/
def rejectBid (r : TaskBidRegistry) (taskId bidId reason : Str) : TaskBidRegistry :=
  match (r.bidsOf taskId).get? bidId with
  | some b =>
    r.setBids taskId
      ((r.bidsOf taskId).put { b with status := .rejected, rejectReason := some reason })
  | none => r

/-- The order of the bids with a score: by score, then by arrival. -/
def WeightedBefore (a b : WeightedBid) : Prop :=
  b.score.total < a.score.total ∨ b.score.total = a.score.total ∧ a.etaMs ≤ b.etaMs

instance : DecidableRel WeightedBefore := fun a b => by
  unfold WeightedBefore
  infer_instance

def weightedBidsForTask (r : TaskBidRegistry) (taskId : Str) : List WeightedBid :=
  (r.weighted.values.filter fun b => b.taskId = taskId).insertionSort WeightedBefore

def bestBid (r : TaskBidRegistry) (taskId : Str) : Option WeightedBid :=
  (r.weightedBidsForTask taskId).head?

/-- Records the winner, and marks the current window of the task as committed. -/
def markCommitted (r : TaskBidRegistry) (taskId winnerNodeId winningBidId : Str)
    (consensusSequence : Decimal) (proofHash commitId : Str) (now : ℚ) : TaskBidRegistry :=
  let record : BidCommitRecord :=
    { commitId
      missionId := ((r.getWindow taskId).map fun w => w.2.missionId).getD []
      taskId
      phase := .committed
      winnerNodeId := some winnerNodeId
      winningBidId := some winningBidId
      bidsSeen := (r.bidsForTask taskId).length
      consensusSequence
      committedAtMs := now
      proofHash
      metadata := .ofList [(lit "winnerChosenFrom", .str "lattice_ranked_bids")] }
  let r := { r with commits := r.commits.set taskId record }
  match r.getWindow taskId with
  | some (w, _) =>
    r.modifyWindow w fun window =>
      { window with
        status := .committed
        closedAtMs := some now
        acceptedWinnerId := some winnerNodeId
        winningBidId := some winningBidId }
  | none => r

/-- Cancels the current window of a task and all of its bids. -/
def cancelTask (r : TaskBidRegistry) (taskId reason : Str) (now : ℚ) : TaskBidRegistry :=
  let r :=
    match r.getWindow taskId with
    | some (w, _) =>
      r.modifyWindow w fun window =>
        { window with
          status := .cancelled
          closedAtMs := some now
          cancelReason := some reason }
    | none => r
  r.setBids taskId ((r.bidsOf taskId).modifyAll
    (fun b => { b with status := .cancelled, cancelReason := some reason }) fun _ => rfl)

/-! ### What the operations change -/

theorem bidsOf_setBids (r : TaskBidRegistry) (taskId taskId' : Str)
    (list : KeyedMap TaskBid.bidId) :
    (r.setBids taskId list).bidsOf taskId' =
      if taskId' = taskId then list else r.bidsOf taskId' := by
  simp only [bidsOf, setBids, OrderedMap.get?_set]
  split <;> rfl

/-- Cancelling a task changes its window, and keeps it the current one. -/
theorem getWindow_cancelTask (r : TaskBidRegistry) (taskId reason : Str) (now : ℚ) :
    (r.cancelTask taskId reason now).getWindow taskId =
      (r.getWindow taskId).map fun p =>
        (p.1, { p.2 with
          status := .cancelled, closedAtMs := some now, cancelReason := some reason }) := by
  cases h : r.getWindow taskId with
  | none =>
      simp only [cancelTask, h, Option.map_none]
      exact h
  | some p =>
      obtain ⟨w, hw, hheap⟩ := Option.bind_eq_some_iff.1 h
      obtain ⟨window, hwindow, rfl⟩ := Option.map_eq_some_iff.1 hheap
      simp only [cancelTask, h]
      simp [getWindow, setBids, modifyWindow, hw, hwindow]

end TaskBidRegistry

end Bidding
