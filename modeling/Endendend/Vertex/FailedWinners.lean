/-
**A failed node and the task it had** (`vertex/task-orchestrator.ts`).

When the winner of a task is no longer viable, the task goes to the first viable fallback; if there
is none, the task is opened again.  The bids of the task stay as they are: those of the other nodes
were superseded by the assignment, those of the winner may still be submitted.

Main definitions:

* `Vertex.TaskOrchestrator.reassignFromFallback`, `Vertex.TaskOrchestrator.completeTask` — the two
  operations on an assigned task;
* `Vertex.SwarmTaskSpec.NoSubmitted` — a node has no submitted bid for the task;
* `Vertex.Watched` — a run with the nodes that have lost a task and not bid for it since.

Main results:

* `Vertex.Watched.leftNothing_step` — one call;
* `Vertex.Watched.failed_stays_out` — **a failed node does not get its task back, if each task that
  is opened again finds its winner without a submitted bid**.
-/
import Endendend.Foundation.Runs
import Endendend.Vertex.TaskOrchestrator

set_option relaxedAutoImplicit false
set_option autoImplicit false

namespace Vertex

open Js

/-! ### What the operations do to a task -/

namespace SwarmTaskSpec

/-- The fallback that takes over: the first one that is known and viable. -/
def nextFallback (t : SwarmTaskSpec) (nodesById : OrderedMap Str SwarmAgentNode)
    (isNodeViable : Str → Bool) : Option Str :=
  t.fallbackNodeIds.find? fun fid => (nodesById.get? fid).isSome && isNodeViable fid

/-- The winner of an assigned task, unless it is viable. -/
def lostWinner (t : SwarmTaskSpec) (isNodeViable : Str → Bool) : Option Str :=
  if t.status ≠ .assigned then none
  else t.winnerNodeId.filter fun w => w ≠ [] ∧ isNodeViable w = false

/-- The task after its winner has failed, and the node that takes over. -/
def reassign (numText : ℚ → Str) (t : SwarmTaskSpec) (nodesById : OrderedMap Str SwarmAgentNode)
    (isNodeViable : Str → Bool) (nowMs : ℚ) : SwarmTaskSpec × Option Str :=
  match t.lostWinner isNodeViable with
  | none => (t, none)
  | some _ =>
    match t.nextFallback nodesById isNodeViable with
    | some fid =>
      ({ t with
          winnerNodeId := some fid
          commitProofHint :=
            some (lit "reassign:" ++ t.taskId ++ lit ":" ++ fid ++ lit ":" ++ numText nowMs) },
        some fid)
    | none => ({ t with status := .opened, winnerNodeId := none }, none)

/-- The node has no submitted bid for the task. -/
def NoSubmitted (t : SwarmTaskSpec) (w : Str) : Prop :=
  ∀ b ∈ t.bids, b.nodeId = w → b.status ≠ .submitted

instance (t : SwarmTaskSpec) (w : Str) : Decidable (t.NoSubmitted w) :=
  inferInstanceAs (Decidable (∀ b ∈ t.bids, b.nodeId = w → b.status ≠ .submitted))

variable {t t' : SwarmTaskSpec} {w : Str}

/-- The bids of the task are changed, but none becomes a submitted one. -/
theorem NoSubmitted.map {f : TaskBid → TaskBid} (h : t.NoSubmitted w)
    (hbids : t'.bids = t.bids.map f)
    (hf : ∀ b, (f b).status = .submitted → b.status = .submitted ∧ (f b).nodeId = b.nodeId) :
    t'.NoSubmitted w := by
  intro b hb hw hsubmitted
  rw [hbids] at hb
  obtain ⟨b₀, hb₀, rfl⟩ := List.mem_map.1 hb
  obtain ⟨hstatus, hnode⟩ := hf b₀ hsubmitted
  exact h b₀ hb₀ (hnode.symm.trans hw) hstatus

theorem NoSubmitted.withBid (h : t.NoSubmitted w) {bid : TaskBid} (hbid : bid.nodeId ≠ w) :
    (t.withBid bid).NoSubmitted w := by
  unfold SwarmTaskSpec.withBid
  split
  · intro b hb hw
    rcases List.mem_append.1 hb with hb | hb
    · exact h b hb hw
    · obtain rfl := List.mem_singleton.1 hb
      exact absurd hw hbid
  · exact h

theorem NoSubmitted.withStale (h : t.NoSubmitted w) (maxAgeMs nowMs : ℚ) :
    (t.withStale maxAgeMs nowMs).NoSubmitted w := by
  refine h.map rfl fun b hb => ?_
  split at hb
  · exact absurd hb (by simp)
  · next hfresh => exact ⟨hb, by rw [if_neg hfresh]⟩

/-- A bid that is submitted after the scoring was so before. -/
theorem submitted_of_judge {hypot : ℚ → ℚ → ℚ} {nodesById : OrderedMap Str SwarmAgentNode}
    {phase : MissionPhase} {connectivityMode : VertexConnectivityMode} {swarmLoad : ℚ} {b : TaskBid}
    (hb : (t.judge hypot nodesById phase connectivityMode swarmLoad b).status = .submitted) :
    b.status = .submitted ∧
      (t.judge hypot nodesById phase connectivityMode swarmLoad b).nodeId = b.nodeId := by
  unfold judge at hb ⊢
  by_cases hsubmitted : b.status = .submitted
  · refine ⟨hsubmitted, ?_⟩
    rw [if_pos hsubmitted]
    split
    · rfl
    · split <;> rfl
  · rw [if_neg hsubmitted] at hb
    exact absurd hb hsubmitted

theorem NoSubmitted.withScores (h : t.NoSubmitted w) (hypot : ℚ → ℚ → ℚ)
    (nodesById : OrderedMap Str SwarmAgentNode) (phase : MissionPhase)
    (connectivityMode : VertexConnectivityMode) (swarmLoad : ℚ) :
    (t.withScores hypot nodesById phase connectivityMode swarmLoad).NoSubmitted w :=
  h.map rfl fun _ hb => submitted_of_judge hb

theorem NoSubmitted.assign (h : t.NoSubmitted w) {numText : ℚ → Str} {nowMs : ℚ}
    (hassign : t.assign numText nowMs = some t') : t'.NoSubmitted w := by
  unfold SwarmTaskSpec.assign at hassign
  cases hranked : t.ranked with
  | nil =>
      rw [hranked] at hassign
      exact absurd hassign.symm (Option.some_ne_none t')
  | cons winningBid rest =>
      rw [hranked] at hassign
      obtain rfl := Option.some.inj hassign
      refine h.map rfl fun b hb => ?_
      split at hb
      · exact absurd hb (by simp)
      · next hkept => exact ⟨hb, by rw [if_neg hkept]⟩

/-- Reassigning changes no bid. -/
theorem bids_reassign (numText : ℚ → Str) (t : SwarmTaskSpec)
    (nodesById : OrderedMap Str SwarmAgentNode) (isNodeViable : Str → Bool) (nowMs : ℚ) :
    (t.reassign numText nodesById isNodeViable nowMs).1.bids = t.bids := by
  unfold reassign
  split
  · rfl
  · split <;> rfl

/-- **A node without a submitted bid does not win.** -/
theorem winner_ne_of_noSubmitted (h : t.NoSubmitted w) {numText : ℚ → Str} {nowMs : ℚ}
    (hassign : t.assign numText nowMs = some t') : t'.winnerNodeId ≠ some w := by
  obtain ⟨winningBid, rest, hranked, -, -, hwinner, -⟩ := assign_eq_some numText hassign
  have hmem : winningBid ∈ t.eligible :=
    mem_ranked.1 (hranked ▸ List.mem_cons_self)
  obtain ⟨hbid, heligible⟩ := List.mem_filter.1 hmem
  intro hw
  refine h winningBid hbid (Option.some.inj (hwinner.symm.trans hw)) ?_
  exact (of_decide_eq_true heligible).1

end SwarmTaskSpec

namespace TaskOrchestrator

/-- The task goes to a fallback or is opened again, if its winner is not viable. -/
def reassignFromFallback (numText : ℚ → Str) (o : TaskOrchestrator) (taskId : Str)
    (nodesById : OrderedMap Str SwarmAgentNode) (isNodeViable : Str → Bool) (nowMs : ℚ) :
    TaskOrchestrator × Option Str :=
  (o.modify taskId fun t => (t.reassign numText nodesById isNodeViable nowMs).1,
    (o.getTask taskId).bind fun t => (t.reassign numText nodesById isNodeViable nowMs).2)

def completeTask (o : TaskOrchestrator) (taskId : Str) : TaskOrchestrator :=
  o.modify taskId fun t => { t with status := .completed }

end TaskOrchestrator

/-! ### Runs -/

/-- A call of one of the operations on tasks. -/
inductive SwarmTaskOp
  | call (op : TaskOp)
  | reassignFromFallback (taskId : Str) (nodesById : OrderedMap Str SwarmAgentNode)
      (isNodeViable : Str → Bool) (nowMs : ℚ)
  | completeTask (taskId : Str)

/-- An orchestrator, and for each task the nodes that it was opened again after and that have not
bid for it since. -/
structure Watched where
  orch : TaskOrchestrator
  failed : Str → List Str

namespace Watched

/-- The winner that a task is opened again after. -/
def newlyFailed (s : Watched) (taskId : Str) (nodesById : OrderedMap Str SwarmAgentNode)
    (isNodeViable : Str → Bool) : Option Str :=
  (s.orch.getTask taskId).bind fun t =>
    if t.nextFallback nodesById isNodeViable = none then t.lostWinner isNodeViable else none

/-- Does the task take bids? -/
def takesBids (s : Watched) (taskId : Str) : Bool :=
  (s.orch.getTask taskId).any fun t => decide (t.status = .opened ∨ t.status = .bidding)

/-- The nodes that have failed, after a call: one that has bid anew is out, and so is one with a
submitted bid in a task that is put in the place of the old one. -/
def failedAfter (s : Watched) : SwarmTaskOp → Str → List Str
  | .call (.openTask spec), id =>
    if id = spec.taskId then (s.failed id).filter fun w => spec.NoSubmitted w else s.failed id
  | .call (.submitBid taskId bid), id =>
    if id = taskId ∧ s.takesBids taskId = true then (s.failed id).filter fun w => bid.nodeId ≠ w
    else s.failed id
  | .reassignFromFallback taskId nodesById isNodeViable _, id =>
    if id = taskId then (s.newlyFailed taskId nodesById isNodeViable).toList ++ s.failed id
    else s.failed id
  | _, id => s.failed id

variable (hypot : ℚ → ℚ → ℚ) (numText : ℚ → Str)

/-- The orchestrator after a call. -/
def orchAfter (s : Watched) : SwarmTaskOp → TaskOrchestrator
  | .call op => s.orch.step hypot numText op
  | .reassignFromFallback taskId nodesById isNodeViable nowMs =>
    (s.orch.reassignFromFallback numText taskId nodesById isNodeViable nowMs).1
  | .completeTask taskId => s.orch.completeTask taskId

def step (s : Watched) (op : SwarmTaskOp) : Option Watched :=
  some ⟨s.orchAfter hypot numText op, s.failedAfter op⟩

/-- A task that is opened again finds its winner without a submitted bid. -/
def StepOk (s : Watched) : SwarmTaskOp → Prop
  | .reassignFromFallback taskId nodesById isNodeViable _ =>
    ∀ t ∈ s.orch.getTask taskId, ∀ w ∈ t.lostWinner isNodeViable,
      t.nextFallback nodesById isNodeViable = none → t.NoSubmitted w
  | _ => True

instance (s : Watched) : DecidablePred s.StepOk
  | .call _ => isTrue trivial
  | .reassignFromFallback taskId nodesById isNodeViable _ =>
    inferInstanceAs (Decidable (∀ t ∈ s.orch.getTask taskId, ∀ w ∈ t.lostWinner isNodeViable,
      t.nextFallback nodesById isNodeViable = none → t.NoSubmitted w))
  | .completeTask _ => isTrue trivial

/-- A task is not given to a node that has failed and not bid since. -/
def StaysOut (s : Watched) : SwarmTaskOp → Prop
  | .call (.assignWinner taskId nowMs) =>
    ∀ w ∈ (s.orch.assignWinner numText taskId nowMs).2.winner, w ∉ s.failed taskId
  | _ => True

instance (s : Watched) : DecidablePred (s.StaysOut numText)
  | .call (.assignWinner taskId nowMs) =>
    inferInstanceAs (Decidable
      (∀ w ∈ (s.orch.assignWinner numText taskId nowMs).2.winner, w ∉ s.failed taskId))
  | .call (.openTask _) | .call (.submitBid ..) | .call (.scorePendingBids ..)
  | .call (.markStaleBids ..) | .reassignFromFallback .. | .completeTask _ => isTrue trivial

/-- The nodes that have failed have no submitted bid left. -/
def LeftNothing (s : Watched) : Prop :=
  ∀ id t w, s.orch.getTask id = some t → w ∈ s.failed id → t.NoSubmitted w

/-- A call that makes no bid a submitted one, and after which no other node has failed. -/
theorem leftNothing_modify {s : Watched} (h : s.LeftNothing) (taskId : Str)
    {f : SwarmTaskSpec → SwarmTaskSpec} (hid : ∀ t, (f t).taskId = t.taskId)
    {failed : Str → List Str} (hfailed : ∀ id, id ≠ taskId → failed id = s.failed id)
    (hf : ∀ t w, s.orch.getTask taskId = some t → w ∈ failed taskId → (f t).NoSubmitted w) :
    LeftNothing ⟨s.orch.modify taskId f, failed⟩ := by
  intro id t w ht hw
  change (s.orch.modify taskId f).getTask id = some t at ht
  change w ∈ failed id at hw
  rw [TaskOrchestrator.getTask_modify s.orch taskId hid] at ht
  by_cases heq : id = taskId
  · rw [if_pos heq] at ht
    obtain ⟨t₀, ht₀, rfl⟩ := Option.map_eq_some_iff.1 ht
    exact hf t₀ w ht₀ (heq ▸ hw)
  · rw [if_neg heq] at ht
    exact h id t w ht (hfailed id heq ▸ hw)

theorem leftNothing_openTask {s : Watched} (h : s.LeftNothing) (spec : SwarmTaskSpec) :
    LeftNothing ⟨s.orch.openTask spec, s.failedAfter (.call (.openTask spec))⟩ := by
  intro id t w ht hw
  change (s.orch.openTask spec).getTask id = some t at ht
  change w ∈ (if id = spec.taskId then _ else _) at hw
  rw [TaskOrchestrator.getTask_openTask] at ht
  by_cases heq : id = spec.taskId
  · rw [if_pos heq] at ht hw
    obtain rfl := Option.some.inj ht
    exact of_decide_eq_true (List.mem_filter.1 hw).2
  · rw [if_neg heq] at ht hw
    exact h id t w ht hw

theorem leftNothing_submitBid {s : Watched} (h : s.LeftNothing) (taskId : Str) (bid : TaskBid) :
    LeftNothing ⟨s.orch.submitBid taskId bid, s.failedAfter (.call (.submitBid taskId bid))⟩ := by
  refine leftNothing_modify h taskId (fun t => ?_) (fun id hid => if_neg fun hc => hid hc.1) ?_
  · unfold SwarmTaskSpec.withBid
    split <;> rfl
  · intro t w ht hw
    change w ∈ (if taskId = taskId ∧ s.takesBids taskId = true then _ else _) at hw
    by_cases htakes : s.takesBids taskId = true
    · rw [if_pos ⟨rfl, htakes⟩] at hw
      obtain ⟨hmem, hne⟩ := List.mem_filter.1 hw
      exact (h taskId t w ht hmem).withBid (of_decide_eq_true hne)
    · -- the bid is not taken
      rw [if_neg fun hc => htakes hc.2] at hw
      have hclosed : ¬ (t.status = .opened ∨ t.status = .bidding) := by
        intro hopen
        refine htakes ?_
        rw [takesBids, ht]
        exact decide_eq_true hopen
      rw [SwarmTaskSpec.withBid, if_neg hclosed]
      exact h taskId t w ht hw

theorem leftNothing_assignWinner {s : Watched} (h : s.LeftNothing) (taskId : Str) (nowMs : ℚ) :
    LeftNothing ⟨(s.orch.assignWinner numText taskId nowMs).1, s.failed⟩ := by
  intro id t w ht hw
  change (s.orch.assignWinner numText taskId nowMs).1.getTask id = some t at ht
  rw [TaskOrchestrator.getTask_assignWinner] at ht
  by_cases heq : id = taskId
  · rw [if_pos heq] at ht
    obtain ⟨t₀, ht₀, rfl⟩ := Option.map_eq_some_iff.1 ht
    have hold : t₀.NoSubmitted w := h taskId t₀ w ht₀ (heq ▸ hw)
    cases hassign : t₀.assign numText nowMs with
    | none => exact hold
    | some t' => exact hold.assign hassign
  · rw [if_neg heq] at ht
    exact h id t w ht hw

theorem leftNothing_reassign {s : Watched} (h : s.LeftNothing) (taskId : Str)
    (nodesById : OrderedMap Str SwarmAgentNode) (isNodeViable : Str → Bool) (nowMs : ℚ)
    (hok : s.StepOk (.reassignFromFallback taskId nodesById isNodeViable nowMs)) :
    LeftNothing ⟨(s.orch.reassignFromFallback numText taskId nodesById isNodeViable nowMs).1,
      s.failedAfter (.reassignFromFallback taskId nodesById isNodeViable nowMs)⟩ := by
  refine leftNothing_modify h taskId (fun t => ?_) (fun id hid => if_neg hid) fun t w ht hw => ?_
  · unfold SwarmTaskSpec.reassign
    split
    · rfl
    · split <;> rfl
  · -- the bids are those before the call
    have hbids := SwarmTaskSpec.bids_reassign numText t nodesById isNodeViable nowMs
    have hold : t.NoSubmitted w := by
      change w ∈ (if taskId = taskId then _ else _) at hw
      rw [if_pos rfl, newlyFailed, ht, Option.bind_some] at hw
      rcases List.mem_append.1 hw with hnew | hold
      · split at hnew
        · next hnone => exact hok t ht w (Option.mem_toList.1 hnew) hnone
        · exact absurd hnew (by simp)
      · exact h taskId t w ht hold
    intro b hb
    rw [hbids] at hb
    exact hold b hb

/-- **One call.** -/
theorem leftNothing_step {s s' : Watched} {op : SwarmTaskOp} (h : s.LeftNothing) (hok : s.StepOk op)
    (hstep : s.step hypot numText op = some s') : s'.LeftNothing := by
  obtain rfl := Option.some.inj hstep
  cases op with
  | call op =>
      cases op with
      | openTask spec => exact leftNothing_openTask h spec
      | submitBid taskId bid => exact leftNothing_submitBid h taskId bid
      | scorePendingBids taskId nodesById phase connectivityMode swarmLoad =>
          refine leftNothing_modify h taskId
            (f := fun t => t.withScores hypot nodesById phase connectivityMode swarmLoad)
            (fun _ => rfl) (fun _ _ => rfl) fun t w ht hw => ?_
          exact (h taskId t w ht hw).withScores hypot nodesById phase connectivityMode swarmLoad
      | markStaleBids taskId maxAgeMs nowMs =>
          refine leftNothing_modify h taskId (f := fun t => t.withStale maxAgeMs nowMs)
            (fun _ => rfl) (fun _ _ => rfl) fun t w ht hw => ?_
          exact (h taskId t w ht hw).withStale maxAgeMs nowMs
      | assignWinner taskId nowMs => exact leftNothing_assignWinner numText h taskId nowMs
  | reassignFromFallback taskId nodesById isNodeViable nowMs =>
      exact leftNothing_reassign numText h taskId nodesById isNodeViable nowMs hok
  | completeTask taskId =>
      refine leftNothing_modify h taskId (f := fun t => { t with status := .completed })
        (fun _ => rfl) (fun _ _ => rfl) fun t w ht hw => ?_
      exact fun b hb => h taskId t w ht hw b hb

/-- A task goes to a node with a submitted bid. -/
theorem staysOut_of_leftNothing {s : Watched} (h : s.LeftNothing) (op : SwarmTaskOp) :
    s.StaysOut numText op := by
  cases op with
  | call op =>
      cases op with
      | assignWinner taskId nowMs =>
          intro w hw hfailed
          rw [TaskOrchestrator.assignWinner] at hw
          cases ht : s.orch.getTask taskId with
          | none =>
              rw [ht] at hw
              exact absurd hw (by simp)
          | some t =>
              rw [ht] at hw
              dsimp only at hw
              cases hassign : t.assign numText nowMs with
              | none =>
                  rw [hassign] at hw
                  exact absurd hw (by simp)
              | some t' =>
                  rw [hassign] at hw
                  exact SwarmTaskSpec.winner_ne_of_noSubmitted (h taskId t w ht hfailed) hassign hw
      | openTask => trivial
      | submitBid => trivial
      | scorePendingBids => trivial
      | markStaleBids => trivial
  | reassignFromFallback => trivial
  | completeTask => trivial

/-- **A failed node does not get its task back** in any run in which every task that is opened again
finds its winner without a submitted bid. -/
theorem failed_stays_out (o : TaskOrchestrator) {ops : List SwarmTaskOp}
    (hok : Runs.Along (step hypot numText) StepOk ⟨o, fun _ => []⟩ ops) :
    Runs.Along (step hypot numText) (StaysOut numText) ⟨o, fun _ => []⟩ ops := by
  have hstart : LeftNothing ⟨o, fun _ => []⟩ := fun _ _ _ _ hw => absurd hw List.not_mem_nil
  have hboth : Runs.Along (step hypot numText) (fun s op => s.StepOk op ∧ s.StaysOut numText op)
      ⟨o, fun _ => []⟩ ops := by
    refine (Runs.along_congr (I := LeftNothing) (fun s op s' h hop hs => ?_) (fun s op h => ?_)
      hstart).1 hok
    · exact leftNothing_step hypot numText h hop hs
    · exact ⟨fun hop => ⟨hop, staysOut_of_leftNothing numText h op⟩, And.left⟩
  exact (Runs.along_and.1 hboth).2

/-! ### A winner that is lost -/

/-- A task that takes bids. -/
def searchTask : SwarmTaskSpec :=
  { taskId := "t1", taskType := "sector_search", location := ⟨0, 0, 0⟩, requirements := []
    allowedRoles := [.explorer], preferredVendorTraits := [], minBattery01 := 22 / 100
    minTrust01 := 4 / 10, minConnectivity01 := 12 / 100, status := .opened, bids := []
    winnerNodeId := none, fallbackNodeIds := [], commitProofHint := none
    assignmentReason := none }

/-- A bid of a node, made at a time. -/
def bidOf (nodeId : Str) (submittedAtMs : ℚ) : SwarmTaskOp :=
  .call (.submitBid "t1"
    { nodeId, etaSec := 40, confidence01 := 1 / 2, battery01 := 1 / 2, link01 := 1 / 2
      submittedAtMs, status := .submitted, score := none, scoreReasons := [] })

/-- The node `n1` alone is known. -/
def knownNodes : OrderedMap Str SwarmAgentNode :=
  .ofList [(lit "n1",
    { nodeId := "n1", vendorId := "meshworks", role := .explorer
      capabilities := ⟨[], 1, 1 / 2, 1 / 2, 0, 400⟩, position := ⟨0, 0, 0⟩, trust01 := 9 / 10 })]

/-- The task is given to `n1`, opened again because no node is viable, and assigned once more; its
bid of the time 1 counts as stale from `maxAgeMs` on. -/
def lostWinnerRun (maxAgeMs : ℚ) : List SwarmTaskOp :=
  [.call (.openTask searchTask), bidOf "n1" 1,
    .call (.scorePendingBids "t1" knownNodes .search .normal 0), .call (.assignWinner "t1" 3),
    .call (.markStaleBids "t1" maxAgeMs 10),
    .reassignFromFallback "t1" knownNodes (fun _ => false) 10, .call (.assignWinner "t1" 11)]

/-- **The task goes back to the node that failed**, whose bid is still submitted. -/
theorem lost_winner_wins_again :
    ¬ Runs.Along (step (fun x z => |x| + |z|) fun _ => "3") (StaysOut fun _ => "3")
      ⟨.empty, fun _ => []⟩ (lostWinnerRun 25000) := by
  decide +kernel

/-- Where the bid of the failed node has gone stale, the task stays open. -/
theorem failed_stays_out_stale :
    Runs.Along (step (fun x z => |x| + |z|) fun _ => "3") (StaysOut fun _ => "3")
      ⟨.empty, fun _ => []⟩ (lostWinnerRun 5) :=
  failed_stays_out (fun x z => |x| + |z|) (fun _ => "3") .empty (by decide +kernel)

end Watched

end Vertex
