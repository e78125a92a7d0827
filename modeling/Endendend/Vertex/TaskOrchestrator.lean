/-
**The task orchestrator of the swarm** (`vertex/task-orchestrator.ts`).

A task is opened, takes bids while it is open or bidding, and has them scored.  `assignWinner` ranks
the submitted bids that have a score, gives the task to the node of the best one and names the nodes
of the next three as fallbacks.

Main definitions:

* `Vertex.TaskOrchestrator` — the tasks by their ids, with the operations on them;
* `Vertex.SwarmTaskSpec.ranked`, `Vertex.SwarmTaskSpec.assign` — the ranking, and the task after the
  assignment;
* `Vertex.TaskOp`, `Vertex.TaskOrchestrator.step` — a call, and what it does.

Main results:

* `Vertex.SwarmTaskSpec.assign_eq_none_iff` — a task is assigned when some bid is eligible;
* `Vertex.TaskOrchestrator.getTask_modify` — an operation on a task leaves the others alone.
-/
import Endendend.Foundation.OrderedMap
import Endendend.Vertex.BidScorer
import Mathlib.Data.List.Sort

set_option relaxedAutoImplicit false
set_option autoImplicit false

namespace Vertex

open Js

/-! ### What the operations do to a task -/

namespace SwarmTaskSpec

/-- A bid is taken while the task is open or bidding. -/
def withBid (t : SwarmTaskSpec) (bid : TaskBid) : SwarmTaskSpec :=
  if t.status = .opened ∨ t.status = .bidding then
    { t with bids := t.bids ++ [bid], status := .bidding }
  else t

/-- A submitted bid that waited longer than `maxAgeMs` is stale. -/
def withStale (t : SwarmTaskSpec) (maxAgeMs nowMs : ℚ) : SwarmTaskSpec :=
  { t with
    bids := t.bids.map fun b =>
      if b.status = .submitted ∧ maxAgeMs < nowMs - b.submittedAtMs then { b with status := .stale }
      else b }

/-- The bids that may win: submitted ones with a score. -/
def eligible (t : SwarmTaskSpec) : List TaskBid :=
  t.bids.filter fun b => b.status = .submitted ∧ b.score.isSome

/-- The order of the ranking: a bid stands before another one with a score no higher. -/
def RankedBefore (a b : TaskBid) : Prop := b.score.getD 0 ≤ a.score.getD 0

instance : DecidableRel RankedBefore :=
  fun a b => inferInstanceAs (Decidable (b.score.getD 0 ≤ a.score.getD 0))

instance : Std.Total RankedBefore := ⟨fun a b => le_total (b.score.getD 0) (a.score.getD 0)⟩

instance : IsTrans TaskBid RankedBefore := ⟨fun _ _ _ hab hbc => le_trans hbc hab⟩

/-- The eligible bids, the best one first. -/
def ranked (t : SwarmTaskSpec) : List TaskBid := t.eligible.insertionSort RankedBefore

theorem mem_ranked {t : SwarmTaskSpec} {b : TaskBid} : b ∈ t.ranked ↔ b ∈ t.eligible :=
  List.mem_insertionSort RankedBefore

section Score

variable (hypot : ℚ → ℚ → ℚ) (numText : ℚ → Str)

/-- A submitted bid is scored, or rejected when its node is unknown or below the task's limits. -/
def judge (t : SwarmTaskSpec) (nodesById : OrderedMap Str SwarmAgentNode)
    (phase : MissionPhase) (connectivityMode : VertexConnectivityMode) (swarmLoad : ℚ)
    (b : TaskBid) : TaskBid :=
  if b.status = .submitted then
    match nodesById.get? b.nodeId with
    | none => { b with status := .rejected }
    | some node =>
      if b.battery01 + 1 / 1000000 < t.minBattery01 ∨ node.trust01 + 1 / 1000000 < t.minTrust01 ∨
          b.link01 + 1 / 1000000 < t.minConnectivity01 then
        { b with status := .rejected }
      else
        let result := scoreBid hypot t node b
          { phase := phase
            connectivityMode := connectivityMode
            swarmLoad := swarmLoad
            link01 := b.link01
            telemetryHealth01 := min 1 (b.confidence01 + 15 / 100) }
        { b with score := some result.score, scoreReasons := result.reasons }
  else b

def withScores (t : SwarmTaskSpec) (nodesById : OrderedMap Str SwarmAgentNode)
    (phase : MissionPhase) (connectivityMode : VertexConnectivityMode) (swarmLoad : ℚ) :
    SwarmTaskSpec :=
  { t with bids := t.bids.map (t.judge hypot nodesById phase connectivityMode swarmLoad) }

/-- The task given to the node of the best bid: the submitted bids of the other nodes are
superseded, and the nodes of the next three bids are the fallbacks. -/
def assign (t : SwarmTaskSpec) (nowMs : ℚ) : Option SwarmTaskSpec :=
  match t.ranked with
  | [] => none
  | winningBid :: rest =>
    some
      { t with
        bids := t.bids.map fun b =>
          if b.nodeId ≠ winningBid.nodeId ∧ b.status = .submitted then
            { b with status := .superseded }
          else b
        winnerNodeId := some winningBid.nodeId
        fallbackNodeIds := (rest.take 3).map TaskBid.nodeId
        status := .assigned
        commitProofHint :=
          some (lit "assign:" ++ t.taskId ++ lit ":" ++ winningBid.nodeId ++ lit ":" ++
            numText nowMs)
        assignmentReason :=
          some (if winningBid.scoreReasons ≠ [] then
            (lit " · ").intercalate winningBid.scoreReasons else "score_rank") }

/-- A task is assigned when some bid is eligible. -/
theorem assign_eq_none_iff {t : SwarmTaskSpec} {nowMs : ℚ} :
    t.assign numText nowMs = none ↔ t.eligible = [] := by
  have hlength : t.ranked.length = t.eligible.length := List.length_insertionSort _ _
  unfold assign
  cases hranked : t.ranked with
  | nil =>
      rw [hranked, List.length_nil] at hlength
      exact iff_of_true rfl (List.eq_nil_of_length_eq_zero hlength.symm)
  | cons b rest =>
      rw [hranked, List.length_cons] at hlength
      refine iff_of_false (Option.some_ne_none _) fun h => ?_
      rw [h, List.length_nil] at hlength
      exact Nat.succ_ne_zero _ hlength

/-- What an assignment settles. -/
theorem assign_eq_some {t t' : SwarmTaskSpec} {nowMs : ℚ} (h : t.assign numText nowMs = some t') :
    ∃ winningBid rest, t.ranked = winningBid :: rest ∧ t'.taskId = t.taskId ∧
      t'.status = .assigned ∧ t'.winnerNodeId = some winningBid.nodeId ∧
      t'.fallbackNodeIds = (rest.take 3).map TaskBid.nodeId := by
  unfold assign at h
  cases hranked : t.ranked with
  | nil =>
      rw [hranked] at h
      exact absurd h.symm (Option.some_ne_none t')
  | cons b rest =>
      rw [hranked] at h
      obtain rfl := Option.some.inj h
      exact ⟨b, rest, rfl, rfl, rfl, rfl, rfl⟩

end Score

end SwarmTaskSpec

/-! ### The orchestrator -/

/-- The tasks by their ids. -/
structure TaskOrchestrator where
  tasks : KeyedMap SwarmTaskSpec.taskId

/-- What `assignWinner` answers. -/
structure AssignResult where
  winner : Option Str
  fallbacks : List Str
  reason : Option Str

/-- A call of an operation. -/
inductive TaskOp
  | openTask (spec : SwarmTaskSpec)
  | submitBid (taskId : Str) (bid : TaskBid)
  | scorePendingBids (taskId : Str) (nodesById : OrderedMap Str SwarmAgentNode)
      (phase : MissionPhase) (connectivityMode : VertexConnectivityMode) (swarmLoad : ℚ)
  | markStaleBids (taskId : Str) (maxAgeMs nowMs : ℚ)
  | assignWinner (taskId : Str) (nowMs : ℚ)

namespace TaskOrchestrator

def empty : TaskOrchestrator := ⟨∅⟩

def getTask (o : TaskOrchestrator) (id : Str) : Option SwarmTaskSpec := o.tasks.get? id

def openTask (o : TaskOrchestrator) (spec : SwarmTaskSpec) : TaskOrchestrator := ⟨o.tasks.put spec⟩

/-- The task with the id, if there is one, is changed. -/
def modify (o : TaskOrchestrator) (taskId : Str) (f : SwarmTaskSpec → SwarmTaskSpec) :
    TaskOrchestrator :=
  match o.getTask taskId with
  | none => o
  | some t => ⟨o.tasks.put (f t)⟩

def submitBid (o : TaskOrchestrator) (taskId : Str) (bid : TaskBid) : TaskOrchestrator :=
  o.modify taskId fun t => t.withBid bid

def markStaleBids (o : TaskOrchestrator) (taskId : Str) (maxAgeMs nowMs : ℚ) : TaskOrchestrator :=
  o.modify taskId fun t => t.withStale maxAgeMs nowMs

variable (hypot : ℚ → ℚ → ℚ) (numText : ℚ → Str)

def scorePendingBids (o : TaskOrchestrator) (taskId : Str)
    (nodesById : OrderedMap Str SwarmAgentNode) (phase : MissionPhase)
    (connectivityMode : VertexConnectivityMode) (swarmLoad : ℚ) : TaskOrchestrator :=
  o.modify taskId fun t => t.withScores hypot nodesById phase connectivityMode swarmLoad

/-- The task goes to the node of the best bid, and the caller hears of it. -/
def assignWinner (o : TaskOrchestrator) (taskId : Str) (nowMs : ℚ) :
    TaskOrchestrator × AssignResult :=
  match o.getTask taskId with
  | none => (o, { winner := none, fallbacks := [], reason := none })
  | some t =>
    match t.assign numText nowMs with
    | none => (o, { winner := none, fallbacks := [], reason := some "no_eligible_bids" })
    | some t' =>
      (⟨o.tasks.put t'⟩,
        { winner := t'.winnerNodeId, fallbacks := t'.fallbackNodeIds, reason := none })

/-- The orchestrator after a call. -/
def step (o : TaskOrchestrator) : TaskOp → TaskOrchestrator
  | .openTask spec => o.openTask spec
  | .submitBid taskId bid => o.submitBid taskId bid
  | .scorePendingBids taskId nodesById phase connectivityMode swarmLoad =>
    o.scorePendingBids hypot taskId nodesById phase connectivityMode swarmLoad
  | .markStaleBids taskId maxAgeMs nowMs => o.markStaleBids taskId maxAgeMs nowMs
  | .assignWinner taskId nowMs => (o.assignWinner numText taskId nowMs).1

/-! ### The task with an id after a call -/

theorem getTask_openTask (o : TaskOrchestrator) (spec : SwarmTaskSpec) (id : Str) :
    (o.openTask spec).getTask id = if id = spec.taskId then some spec else o.getTask id :=
  KeyedMap.get?_put o.tasks spec id

theorem taskId_of_getTask {o : TaskOrchestrator} {id : Str} {t : SwarmTaskSpec}
    (h : o.getTask id = some t) : t.taskId = id :=
  KeyedMap.key_of_get? h

/-- **An operation on a task leaves the others alone.** -/
theorem getTask_modify (o : TaskOrchestrator) (taskId : Str) {f : SwarmTaskSpec → SwarmTaskSpec}
    (hf : ∀ t, (f t).taskId = t.taskId) (id : Str) :
    (o.modify taskId f).getTask id =
      if id = taskId then (o.getTask taskId).map f else o.getTask id := by
  unfold modify
  cases h : o.getTask taskId with
  | none =>
      by_cases hid : id = taskId
      · rw [if_pos hid, hid]
        exact h
      · rw [if_neg hid]
  | some t =>
      rw [getTask, KeyedMap.get?_put, hf, taskId_of_getTask h]
      rfl

/-- The task with an id after `assignWinner`. -/
theorem getTask_assignWinner (o : TaskOrchestrator) (taskId : Str) (nowMs : ℚ) (id : Str) :
    (o.assignWinner numText taskId nowMs).1.getTask id =
      if id = taskId then
        (o.getTask taskId).map fun t => (t.assign numText nowMs).getD t
      else o.getTask id := by
  unfold assignWinner
  cases h : o.getTask taskId with
  | none =>
      by_cases hid : id = taskId
      · rw [if_pos hid, hid]
        exact h
      · rw [if_neg hid]
  | some t =>
      dsimp only [Option.map_some]
      cases hassign : t.assign numText nowMs with
      | none =>
          by_cases hid : id = taskId
          · rw [if_pos hid, hid]
            exact h
          · rw [if_neg hid]
      | some t' =>
          obtain ⟨-, -, -, hid, -⟩ := SwarmTaskSpec.assign_eq_some numText hassign
          rw [getTask, KeyedMap.get?_put, hid, taskId_of_getTask h]
          rfl

end TaskOrchestrator

end Vertex
