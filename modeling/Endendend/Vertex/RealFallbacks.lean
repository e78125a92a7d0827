/-
**Are fallbacks real alternatives?**

The fallbacks of an assigned task are the nodes of the three bids ranked behind the winning one.
Bids are ranked, not nodes: a node that bids twice can be its own fallback, or fill two places of
the list.  As long as the four best eligible bids are by four nodes, the fallbacks are distinct,
leave the winner out and are the best-scored other bidders in order; and in no other case.

What an assignment could choose from is gone afterwards, because the losing bids are superseded.  A
run is therefore observed together with the task each assignment was made from.

Main definitions:

* `Vertex.ListsBest` — a list of fallbacks names the best-scored other bidders in order;
* `Vertex.Observed` — a run with the tasks its assignments were made from;
* `Vertex.FourBidders` — no node has two of the four best eligible bids.

Main results:

* `Vertex.listsBest_fallbacks` — what an assignment names when the four best bids are by four nodes;
* `Vertex.Observed.fallbacks_real_iff` — **the fallbacks are real alternatives all through a run
  exactly when each assignment had four bidders ahead**, and no task came assigned with other
  fallbacks.
-/
import Endendend.Foundation.Runs
import Endendend.Foundation.SortedPlace
import Endendend.Vertex.TaskOrchestrator

set_option relaxedAutoImplicit false
set_option autoImplicit false

namespace Vertex

open Js

/-! ### What fallbacks should be -/

/-- Some eligible bid of `f` scores at least as high as every eligible bid of `g`. -/
def Outscores (t : SwarmTaskSpec) (f g : Str) : Prop :=
  ∃ b ∈ t.eligible, b.nodeId = f ∧
    ∀ c ∈ t.eligible, c.nodeId = g → SwarmTaskSpec.RankedBefore b c

/-- The fallbacks are the best-scored eligible bidders other than the winner, in order: three of
them, or all there are. -/
structure ListsBest (t : SwarmTaskSpec) (winner : Str) (fallbacks : List Str) : Prop where
  eligible : ∀ f ∈ fallbacks, ∃ b ∈ t.eligible, b.nodeId = f
  ordered : fallbacks.Pairwise (Outscores t)
  best : ∀ b ∈ t.eligible, b.nodeId ≠ winner → b.nodeId ∉ fallbacks →
    fallbacks.length = 3 ∧ ∀ f ∈ fallbacks, Outscores t f b.nodeId

/-- No node has two of the four best eligible bids: where fewer than four bids rank ahead of a bid,
none of these is by the same node. -/
def FourBidders (t : SwarmTaskSpec) : Prop :=
  ∀ pre b post, t.eligible = pre ++ b :: post →
    (SortedPlace.ahead SwarmTaskSpec.RankedBefore pre b post).length < 4 →
    ∀ c ∈ SortedPlace.ahead SwarmTaskSpec.RankedBefore pre b post, c.nodeId ≠ b.nodeId

/-! ### What an assignment names -/

/-- The four best bids are by four nodes. -/
theorem fourBidders_iff {t : SwarmTaskSpec} :
    FourBidders t ↔ ((t.ranked.take 4).map TaskBid.nodeId).Nodup := by
  rw [List.Nodup, List.pairwise_map, SortedPlace.pairwise_iff_forall_split]
  constructor
  · intro h before b after hsplit c hc
    have hranked : t.ranked = before ++ b :: (after ++ t.ranked.drop 4) := by
      rw [← List.cons_append, ← List.append_assoc, ← hsplit, List.take_append_drop]
    obtain ⟨pre, post, hl, hperm⟩ := SortedPlace.exists_unsorted_split hranked
    refine h pre b post hl ?_ c (hperm.mem_iff.1 hc)
    rw [← hperm.length_eq]
    have hlength := congrArg List.length hsplit
    rw [List.length_take, List.length_append, List.length_cons] at hlength
    omega
  · intro h pre b post hl hahead c hc
    obtain ⟨before, after, hsort, hperm⟩ :=
      SortedPlace.insertionSort_split SwarmTaskSpec.RankedBefore pre post b
    rw [← hl] at hsort
    rw [← hperm.length_eq] at hahead
    -- the bid is one of the first four, behind those that rank ahead of it
    have htake : t.ranked.take 4 = before ++ b :: after.take (3 - before.length) := by
      rw [SwarmTaskSpec.ranked, hsort, List.take_append,
        List.take_of_length_le (Nat.le_of_lt hahead)]
      obtain ⟨k, hk⟩ : ∃ k, 4 - before.length = k + 1 := ⟨3 - before.length, by omega⟩
      rw [hk, List.take_succ_cons]
      congr 3
      omega
    exact h before b _ htake c (hperm.mem_iff.2 hc)

/-- A bid ranked behind some bids but none of them is ranked behind the next one. -/
theorem rankedBefore_of_split {t : SwarmTaskSpec} {before after : List TaskBid} {b c : TaskBid}
    (h : t.ranked = before ++ b :: after) (hc : c ∈ t.eligible) (hnot : c ∉ before) :
    SwarmTaskSpec.RankedBefore b c := by
  have hsorted := List.pairwise_insertionSort SwarmTaskSpec.RankedBefore t.eligible
  have hmem := SwarmTaskSpec.mem_ranked.2 hc
  change t.ranked.Pairwise _ at hsorted
  rw [h] at hsorted hmem
  rcases List.mem_append.1 hmem with hmem | hmem
  · exact absurd hmem hnot
  · rcases List.mem_cons.1 hmem with rfl | hmem
    · exact le_refl _
    · exact (List.pairwise_cons.1 (List.pairwise_append.1 hsorted).2.1).1 c hmem

/-- The node of a bid among the first ones outscores a node without a bid before it. -/
theorem outscores_of_split {t : SwarmTaskSpec} {before after : List TaskBid} {b : TaskBid} {g : Str}
    (h : t.ranked = before ++ b :: after) (hg : ∀ c ∈ before, c.nodeId ≠ g) :
    Outscores t b.nodeId g := by
  refine ⟨b, SwarmTaskSpec.mem_ranked.1 (by rw [h]; simp), rfl, fun c hc hcg => ?_⟩
  exact rankedBefore_of_split h hc fun hmem => hg c hmem hcg

/-- A fallback outscores a node that is not the winner and has no bid among the fallbacks before
it. -/
theorem outscores_fallback {t : SwarmTaskSpec} {winningBid d : TaskBid}
    {rest before after : List TaskBid} {g : Str} (hranked : t.ranked = winningBid :: rest)
    (htake : rest.take 3 = before ++ d :: after) (hwinner : winningBid.nodeId ≠ g)
    (hbefore : ∀ c ∈ before, c.nodeId ≠ g) : Outscores t d.nodeId g := by
  have hsplit : t.ranked = (winningBid :: before) ++ d :: (after ++ rest.drop 3) := by
    have hrest : rest = before ++ d :: (after ++ rest.drop 3) := by
      rw [← List.cons_append, ← List.append_assoc, ← htake, List.take_append_drop]
    rw [hranked, List.cons_append]
    exact congrArg _ hrest
  exact outscores_of_split hsplit (List.forall_mem_cons.2 ⟨hwinner, hbefore⟩)

/-- **What an assignment names, when the four best bids are by four nodes.** -/
theorem listsBest_fallbacks {t : SwarmTaskSpec} {winningBid : TaskBid} {rest : List TaskBid}
    (hranked : t.ranked = winningBid :: rest) (hfour : FourBidders t) :
    ListsBest t winningBid.nodeId ((rest.take 3).map TaskBid.nodeId) := by
  rw [fourBidders_iff, hranked, List.take_succ_cons] at hfour
  rw [List.map_cons, List.nodup_cons] at hfour
  obtain ⟨hwinner, hnodup⟩ := hfour
  refine ⟨?_, ?_, ?_⟩
  · intro f hf
    obtain ⟨b, hb, rfl⟩ := List.mem_map.1 hf
    refine ⟨b, SwarmTaskSpec.mem_ranked.1 ?_, rfl⟩
    rw [hranked]
    exact List.mem_cons_of_mem _ (List.mem_of_mem_take hb)
  · rw [List.pairwise_map, SortedPlace.pairwise_iff_forall_split]
    intro pre b post hb c hc
    obtain ⟨before, mid, rfl⟩ := List.append_of_mem hc
    rw [List.append_assoc, List.cons_append] at hb
    -- no bid before that of `c` is by the node of `b`
    refine outscores_fallback hranked hb (fun heq => ?_) fun d hd heq => ?_
    · exact hwinner (List.mem_map.2 ⟨b, by rw [hb]; simp, heq.symm⟩)
    · rw [hb, List.map_append, List.nodup_append] at hnodup
      exact hnodup.2.2 _ (List.mem_map_of_mem hd) _ (List.mem_map_of_mem (by simp)) heq
  · intro b hb hbw hbf
    have hmem := SwarmTaskSpec.mem_ranked.2 hb
    rw [hranked] at hmem
    have hrest : b ∈ rest := (List.mem_cons.1 hmem).resolve_left fun h => hbw (h ▸ rfl)
    have hnot : b ∉ rest.take 3 := fun h => hbf (List.mem_map_of_mem h)
    refine ⟨?_, ?_⟩
    · rw [List.length_map, List.length_take]
      refine Nat.min_eq_left (Nat.le_of_lt (Nat.lt_of_not_le fun hle => hnot ?_))
      rwa [List.take_of_length_le hle]
    · intro f hf
      obtain ⟨d, hd, rfl⟩ := List.mem_map.1 hf
      obtain ⟨before, after, htake⟩ := List.append_of_mem hd
      refine outscores_fallback hranked htake (fun heq => hbw heq.symm) fun c hc heq => ?_
      exact hbf (List.mem_map.2 ⟨c, by rw [htake]; exact List.mem_append_left _ hc, heq⟩)

/-! ### Runs -/

/-- An orchestrator, and the task that each assigned task was when it was assigned. -/
structure Observed where
  orch : TaskOrchestrator
  basis : Str → Option SwarmTaskSpec

/-- The fallbacks of a task are real alternatives: they are distinct, leave the winner out, and list
the best-scored other bidders of the task it was assigned from. -/
structure RealFallbacks (basis : Option SwarmTaskSpec) (t : SwarmTaskSpec) : Prop where
  nodup : t.fallbackNodeIds.Nodup
  not_winner : ∀ w, t.winnerNodeId = some w → w ∉ t.fallbackNodeIds
  listsBest : ∀ before w, basis = some before → t.winnerNodeId = some w →
    ListsBest before w t.fallbackNodeIds

namespace Observed

/-- Nothing has happened yet. -/
def start : Observed := ⟨.empty, fun _ => none⟩

variable (hypot : ℚ → ℚ → ℚ) (numText : ℚ → Str)

/-- The tasks that assignments were made from, after a call: a task that is opened has not been
assigned yet, one with an eligible bid is assigned now. -/
def basisAfter (s : Observed) : TaskOp → Str → Option SwarmTaskSpec
  | .openTask spec, id => if id = spec.taskId then none else s.basis id
  | .assignWinner taskId _, id =>
    if id = taskId then
      ((s.orch.getTask taskId).filter fun t => t.eligible ≠ []).or (s.basis id)
    else s.basis id
  | _, id => s.basis id

def step (s : Observed) (op : TaskOp) : Option Observed :=
  some ⟨s.orch.step hypot numText op, s.basisAfter op⟩

/-- The fallbacks of every assigned task are real alternatives. -/
def AllReal (s : Observed) : Prop :=
  ∀ id t, s.orch.getTask id = some t → t.status = .assigned → RealFallbacks (s.basis id) t

/-- A task that is assigned has four bidders ahead, and a task that comes assigned has distinct
fallbacks without its winner. -/
def StepOk (s : Observed) : TaskOp → Prop
  | .openTask spec =>
    spec.status = .assigned →
      spec.fallbackNodeIds.Nodup ∧ ∀ w, spec.winnerNodeId = some w → w ∉ spec.fallbackNodeIds
  | .assignWinner taskId _ => ∀ t, s.orch.getTask taskId = some t → FourBidders t
  | _ => True

/-! ### One call -/

/-- A call that changes neither the status nor the choice of the task it is made for keeps the
fallbacks real, unless it takes the task out of the assigned ones. -/
theorem allReal_modify {s : Observed} (h : s.AllReal) (taskId : Str)
    {f : SwarmTaskSpec → SwarmTaskSpec} (hid : ∀ t, (f t).taskId = t.taskId)
    (hf : ∀ t, (f t).status = .assigned → t.status = .assigned ∧
      (f t).winnerNodeId = t.winnerNodeId ∧ (f t).fallbackNodeIds = t.fallbackNodeIds) :
    AllReal ⟨s.orch.modify taskId f, s.basis⟩ := by
  intro id t ht hassigned
  change (s.orch.modify taskId f).getTask id = some t at ht
  rw [TaskOrchestrator.getTask_modify s.orch taskId hid] at ht
  by_cases heq : id = taskId
  · rw [if_pos heq] at ht
    obtain ⟨t₀, ht₀, rfl⟩ := Option.map_eq_some_iff.1 ht
    obtain ⟨hstatus, hwinner, hfallbacks⟩ := hf t₀ hassigned
    obtain ⟨hnodup, hnot, hlist⟩ := h id t₀ (heq ▸ ht₀) hstatus
    refine ⟨?_, ?_, ?_⟩
    · rwa [hfallbacks]
    · rwa [hwinner, hfallbacks]
    · rwa [hwinner, hfallbacks]
  · rw [if_neg heq] at ht
    exact h id t ht hassigned

theorem allReal_openTask {s : Observed} (h : s.AllReal) (spec : SwarmTaskSpec) :
    s.StepOk (.openTask spec) ↔ AllReal ⟨s.orch.openTask spec, s.basisAfter (.openTask spec)⟩ := by
  constructor
  · intro hok id t ht hassigned
    change (s.orch.openTask spec).getTask id = some t at ht
    rw [TaskOrchestrator.getTask_openTask] at ht
    by_cases heq : id = spec.taskId
    · rw [if_pos heq] at ht
      obtain rfl := Option.some.inj ht
      obtain ⟨hnodup, hnot⟩ := hok hassigned
      refine ⟨hnodup, hnot, fun before w hbefore _ => ?_⟩
      have hnone : s.basisAfter (.openTask spec) id = none := if_pos heq
      exact absurd (hbefore.symm.trans hnone) (Option.some_ne_none before)
    · rw [if_neg heq] at ht
      have hsame : s.basisAfter (.openTask spec) id = s.basis id := if_neg heq
      change RealFallbacks (s.basisAfter (.openTask spec) id) t
      rw [hsame]
      exact h id t ht hassigned
  · intro hall hassigned
    have hget : (s.orch.openTask spec).getTask spec.taskId = some spec := by
      rw [TaskOrchestrator.getTask_openTask, if_pos rfl]
    have hreal := hall spec.taskId spec hget hassigned
    exact ⟨hreal.nodup, hreal.not_winner⟩

/-- **An assignment names real alternatives exactly when there are four bidders ahead.** -/
theorem real_assign_iff {t t' : SwarmTaskSpec} {nowMs : ℚ} (h : t.assign numText nowMs = some t') :
    FourBidders t ↔ RealFallbacks (some t) t' := by
  obtain ⟨winningBid, rest, hranked, -, -, hwinner, hfallbacks⟩ :=
    SwarmTaskSpec.assign_eq_some numText h
  have hnodup : FourBidders t ↔
      t'.fallbackNodeIds.Nodup ∧ winningBid.nodeId ∉ t'.fallbackNodeIds := by
    rw [fourBidders_iff, hranked, List.take_succ_cons, List.map_cons, List.nodup_cons, hfallbacks]
    exact and_comm
  constructor
  · intro hfour
    obtain ⟨hn, hw⟩ := hnodup.1 hfour
    refine ⟨hn, fun w hw' => ?_, fun before w hbefore hw' => ?_⟩
    · obtain rfl := Option.some.inj (hwinner.symm.trans hw')
      exact hw
    · obtain rfl := Option.some.inj hbefore
      obtain rfl := Option.some.inj (hwinner.symm.trans hw')
      rw [hfallbacks]
      exact listsBest_fallbacks hranked hfour
  · exact fun hreal => hnodup.2 ⟨hreal.nodup, hreal.not_winner _ hwinner⟩

/-- Without an eligible bid nothing happens. -/
theorem assignWinner_eq_self {s : Observed} {taskId : Str} (nowMs : ℚ)
    (h : ∀ t, s.orch.getTask taskId = some t → t.eligible = []) :
    (⟨(s.orch.assignWinner numText taskId nowMs).1, s.basisAfter (.assignWinner taskId nowMs)⟩ :
      Observed) = s := by
  have horch : (s.orch.assignWinner numText taskId nowMs).1 = s.orch := by
    unfold TaskOrchestrator.assignWinner
    cases ht : s.orch.getTask taskId with
    | none => rfl
    | some t => simp only [(SwarmTaskSpec.assign_eq_none_iff numText).2 (h t ht)]
  have hbasis : s.basisAfter (.assignWinner taskId nowMs) = s.basis := by
    funext id
    change (if id = taskId then _ else _) = _
    by_cases heq : id = taskId
    · rw [if_pos heq]
      cases ht : s.orch.getTask taskId with
      | none => rfl
      | some t => simp [Option.filter, h t ht]
    · rw [if_neg heq]
  rw [horch, hbasis]

theorem allReal_assignWinner {s : Observed} (h : s.AllReal) (taskId : Str) (nowMs : ℚ) :
    s.StepOk (.assignWinner taskId nowMs) ↔
      AllReal ⟨(s.orch.assignWinner numText taskId nowMs).1,
        s.basisAfter (.assignWinner taskId nowMs)⟩ := by
  by_cases hnone : ∀ t, s.orch.getTask taskId = some t → t.eligible = []
  · rw [assignWinner_eq_self numText nowMs hnone]
    refine iff_of_true (fun t ht pre b post hsplit => ?_) h
    rw [hnone t ht] at hsplit
    exact absurd hsplit.symm (by simp)
  · simp only [not_forall] at hnone
    obtain ⟨t, ht, heligible⟩ := hnone
    have hsome : t.assign numText nowMs ≠ none :=
      mt (SwarmTaskSpec.assign_eq_none_iff numText).1 heligible
    obtain ⟨t', hassign⟩ := Option.ne_none_iff_exists'.1 hsome
    have hget : ∀ id, (s.orch.assignWinner numText taskId nowMs).1.getTask id =
        if id = taskId then some t' else s.orch.getTask id := by
      intro id
      rw [TaskOrchestrator.getTask_assignWinner, ht, Option.map_some, hassign, Option.getD_some]
    have hbasis : s.basisAfter (.assignWinner taskId nowMs) taskId = some t := by
      change (if taskId = taskId then _ else _) = _
      rw [if_pos rfl, ht]
      simp [heligible]
    have hok : s.StepOk (.assignWinner taskId nowMs) ↔ FourBidders t :=
      ⟨fun hstep => hstep t ht, fun hfour u hu => Option.some.inj (ht.symm.trans hu) ▸ hfour⟩
    rw [hok, real_assign_iff numText hassign]
    constructor
    · intro hreal id u hu hassigned
      change (s.orch.assignWinner numText taskId nowMs).1.getTask id = some u at hu
      change RealFallbacks (s.basisAfter (.assignWinner taskId nowMs) id) u
      rw [hget] at hu
      by_cases heq : id = taskId
      · rw [if_pos heq] at hu
        obtain rfl := Option.some.inj hu
        rwa [heq, hbasis]
      · rw [if_neg heq] at hu
        have hsame : s.basisAfter (.assignWinner taskId nowMs) id = s.basis id := if_neg heq
        rw [hsame]
        exact h id u hu hassigned
    · intro hall
      obtain ⟨-, -, -, -, hassigned, -⟩ := SwarmTaskSpec.assign_eq_some numText hassign
      have hreal := hall taskId t' ((hget taskId).trans (if_pos rfl)) hassigned
      change RealFallbacks (s.basisAfter (.assignWinner taskId nowMs) taskId) t' at hreal
      rwa [hbasis] at hreal

/-- **One call.** -/
theorem allReal_step {s : Observed} (h : s.AllReal) (op : TaskOp) :
    s.StepOk op ↔ AllReal ⟨s.orch.step hypot numText op, s.basisAfter op⟩ := by
  cases op with
  | openTask spec => exact allReal_openTask h spec
  | assignWinner taskId nowMs => exact allReal_assignWinner numText h taskId nowMs
  | submitBid taskId bid =>
      refine iff_of_true trivial (allReal_modify h taskId (fun t => ?_) fun t hassigned => ?_)
      · unfold SwarmTaskSpec.withBid
        split <;> rfl
      · -- a bid that is taken makes the task a bidding one
        unfold SwarmTaskSpec.withBid at hassigned ⊢
        split at hassigned
        · exact TaskStatus.noConfusion hassigned
        · rename_i hclosed
          rw [if_neg hclosed]
          exact ⟨hassigned, rfl, rfl⟩
  | scorePendingBids taskId nodesById phase connectivityMode swarmLoad =>
      exact iff_of_true trivial
        (allReal_modify h taskId (fun _ => rfl) fun _ hassigned => ⟨hassigned, rfl, rfl⟩)
  | markStaleBids taskId maxAgeMs nowMs =>
      exact iff_of_true trivial
        (allReal_modify h taskId (fun _ => rfl) fun _ hassigned => ⟨hassigned, rfl, rfl⟩)

/-! ### Whole runs -/

/-- **The fallbacks are real alternatives all through a run exactly when each assignment had four
bidders ahead**, and no task came assigned with other fallbacks. -/
theorem fallbacks_real_iff (ops : List TaskOp) :
    (∀ pre s, pre <+: ops → Runs.run (step hypot numText) start pre = some s → s.AllReal) ↔
      Runs.Along (step hypot numText) StepOk start ops := by
  have hstart : start.AllReal := by
    intro id t ht
    exact absurd ht (by simp [start, TaskOrchestrator.empty, TaskOrchestrator.getTask])
  refine (Runs.always_iff_along fun s op h => ?_).trans (and_iff_right hstart)
  rw [allReal_step hypot numText h op]
  exact ⟨fun hs s' hs' => Option.some.inj hs' ▸ hs, fun hs => hs _ rfl⟩

/-- A node that bids twice for one task, while no other node bids. -/
def twoBids : List TaskOp :=
  let spec : SwarmTaskSpec :=
    { taskId := "t1", taskType := "sector_search", location := ⟨0, 0, 0⟩, requirements := []
      allowedRoles := [.explorer], preferredVendorTraits := [], minBattery01 := 22 / 100
      minTrust01 := 4 / 10, minConnectivity01 := 12 / 100, status := .opened, bids := []
      winnerNodeId := none, fallbackNodeIds := [], commitProofHint := none
      assignmentReason := none }
  let bid : TaskBid :=
    { nodeId := "n1", etaSec := 40, confidence01 := 1 / 2, battery01 := 1 / 2, link01 := 1 / 2
      submittedAtMs := 1, status := .submitted, score := none, scoreReasons := [] }
  let node : SwarmAgentNode :=
    { nodeId := "n1", vendorId := "meshworks", role := .explorer
      capabilities := ⟨[], 1, 1 / 2, 1 / 2, 0, 400⟩, position := ⟨0, 0, 0⟩, trust01 := 9 / 10 }
  [.openTask spec, .submitBid "t1" bid,
    .submitBid "t1" { bid with etaSec := 80, submittedAtMs := 2 },
    .scorePendingBids "t1" (.ofList [(lit "n1", node)]) .search .normal 0, .assignWinner "t1" 3]

/-- **A node that bids twice is its own fallback.** -/
theorem own_fallback :
    ∃ s, Runs.run (step (fun x z => |x| + |z|) fun _ => "3") start twoBids = some s ∧
      (s.orch.getTask "t1").map (fun t => (t.status, t.winnerNodeId, t.fallbackNodeIds)) =
        some (.assigned, some (lit "n1"), [lit "n1"]) ∧
      ¬ s.AllReal := by
  have htask : ∀ s, Runs.run (step (fun x z => |x| + |z|) fun _ => "3") start twoBids = some s →
      (s.orch.getTask "t1").map (fun t => (t.status, t.winnerNodeId, t.fallbackNodeIds)) =
        some (.assigned, some (lit "n1"), [lit "n1"]) := by
    intro s hs
    obtain rfl := Option.some.inj hs
    decide +kernel
  refine ⟨_, rfl, htask _ rfl, fun hall => ?_⟩
  obtain ⟨t, ht, hfields⟩ := Option.map_eq_some_iff.1 (htask _ rfl)
  simp only [Prod.mk.injEq] at hfields
  obtain ⟨hassigned, hwinner, hfallbacks⟩ := hfields
  refine (hall _ t ht hassigned).not_winner _ hwinner ?_
  rw [hfallbacks]
  exact List.mem_singleton_self _

end Observed

end Vertex
