/-
**What the PBFT cluster orders.**

A round succeeds exactly under an honest primary, and only if the honest replicas alone are a
quorum, which is to say that at most a third of the others are Byzantine.  Then the rotation of the
primaries meets an honest one before the views are used up.  Whatever is ordered, the log counts its
entries without gaps and in the order of their views.

Main definitions:

* `Swarm.OrdersWithinBound` — a value is ordered exactly if the Byzantine replicas are few enough;
* `Swarm.OrderCall`, `Swarm.callStep` — the calls that order values;
* `Swarm.LogInOrder` — the log is numbered without gaps and its views do not decrease.

Main results:

* `Swarm.quorum_le_iff` — the arithmetic of the quorum;
* `Swarm.orderLoop_of_honest`, `Swarm.orderLoop_of_many` — when attempts succeed;
* `Swarm.orders_within_bound` — **every cluster that a run reaches orders a value exactly within the
  fault bound, and its log is in order.**
-/
import Endendend.Swarm.Pbft
import Endendend.Swarm.BullyElection
import Endendend.Foundation.Runs

set_option relaxedAutoImplicit false
set_option autoImplicit false

namespace Swarm

open Runs PBFTCluster

variable {Id : Type*} [LinearOrder Id]

/-! ### The quorum -/

/-- **The arithmetic of the quorum.**  Of `m` replicas all but `b` are a quorum exactly if `b` is at
most a third of `m - 1`. -/
theorem quorum_le_iff {m b : ℕ} (hb : b ≤ m) :
    quorumSize m + b ≤ m ↔ (b : ℤ) ≤ ((m : ℤ) - 1) / 3 := by
  unfold quorumSize
  omega

variable (c : PBFTCluster Id)

theorem length_byzantineActive_le : (byzantineActive c).length ≤ c.activeReplicas.length :=
  List.length_filter_le _ _

/-! ### Attempts -/

/-- A round that succeeds ends the attempts. -/
theorem orderLoop_of_success {value : Id} {validate : Option (Id → Bool)} {limit : ℕ}
    {out : ConsensusOutcome Id} {c c₁ : PBFTCluster Id}
    (h : c.runConsensusRound value validate = (.ok out, c₁)) (hs : out.result = .success) :
    orderLoop value validate (limit + 1) c = (.ok (out.globalSeq, [out]), c₁) := by
  simp only [orderLoop, h, hs, if_true]

/-- A round that fails is followed by the attempts at the next views. -/
theorem orderLoop_of_failure {value : Id} {validate : Option (Id → Bool)} {limit : ℕ}
    {out : ConsensusOutcome Id} {c c₁ c' : PBFTCluster Id} {seq : Option ℕ}
    {attempts : List (ConsensusOutcome Id)}
    (h : c.runConsensusRound value validate = (.ok out, c₁)) (hf : out.result = .failure)
    (hrest : orderLoop value validate limit c₁.advanceView = (.ok (seq, attempts), c')) :
    orderLoop value validate (limit + 1) c = (.ok (seq, out :: attempts), c') := by
  simp [orderLoop, h, hf, hrest]

/-- Attempts fail under the Byzantine primaries, and succeed under the first honest one if the
honest replicas are a quorum. -/
theorem orderLoop_of_honest (value : Id) {nid : Id} {i : ℕ} (limit : ℕ) (hlimit : i < limit)
    (hq : c.quorum + (byzantineActive c).length ≤ c.activeReplicas.length)
    (hp : primaryId c.activeReplicas (c.view + i) = .ok nid) (hnid : nid ∉ c.byzantine) :
    ∃ attempts c', orderLoop value none limit c = (.ok (some c.nextSeq, attempts), c') ∧
      attempts.length ≤ i + 1 ∧
      ∃ view, c'.ordered = c.ordered ++ [⟨c.nextSeq, view, [("value", value)]⟩] := by
  have hne : c.activeReplicas ≠ [] := by
    intro hnil
    have := quorum_pos c
    rw [hnil, List.length_nil] at hq
    omega
  induction i generalizing c limit with
  | zero =>
      obtain ⟨l, rfl⟩ : ∃ l, limit = l + 1 := ⟨limit - 1, by omega⟩
      have hprimary : c.primary = .ok nid := by simpa [PBFTCluster.primary] using hp
      have hcommit := length_commitVotes_of_honest c hnid value
      obtain ⟨out, hround, hs, hseq⟩ :=
        round_of_quorum c value none hprimary (by omega)
      refine ⟨[out], appended c value, ?_, le_rfl, c.view, rfl⟩
      rw [orderLoop_of_success hround hs, hseq]
  | succ i ih =>
      obtain ⟨l, rfl⟩ : ∃ l, limit = l + 1 := ⟨limit - 1, by omega⟩
      have hprimary : c.primary = .ok (c.activeReplicas.get ⟨_, primaryIndex_lt c hne 0⟩) := by
        simpa [PBFTCluster.primary] using primaryId_eq c hne 0
      by_cases hbyz : c.activeReplicas.get ⟨_, primaryIndex_lt c hne 0⟩ ∈ c.byzantine
      · -- the round fails, and the honest primary is one view closer
        obtain ⟨out, hround, hf⟩ := round_of_few c value none hprimary (by
          rw [commitVotes_of_byzantine c hbyz]
          exact quorum_pos c)
        have hview : c.advanceView.view + (i : ℤ) = c.view + ((i + 1 : ℕ) : ℤ) := by
          simp only [advanceView]
          omega
        obtain ⟨attempts, c', hloop, hlen, hlog⟩ :=
          ih c.advanceView l (by omega) hq (by rw [hview]; exact hp) hnid hne
        exact ⟨out :: attempts, c', orderLoop_of_failure hround hf hloop, by simpa using hlen, hlog⟩
      · have hcommit := length_commitVotes_of_honest c hbyz value
        obtain ⟨out, hround, hs, hseq⟩ :=
          round_of_quorum c value none hprimary (by omega)
        refine ⟨[out], appended c value, ?_, by simp, c.view, rfl⟩
        rw [orderLoop_of_success hround hs, hseq]

/-- Attempts fail at all views if the honest replicas are not a quorum. -/
theorem orderLoop_of_many (value : Id) {limit : ℕ} (hlimit : c.activeReplicas = [] → limit = 0)
    (hq : c.activeReplicas.length < c.quorum + (byzantineActive c).length) :
    ∃ attempts c', orderLoop value none limit c = (.ok (none, attempts), c') ∧
      c'.ordered = c.ordered := by
  induction limit generalizing c with
  | zero => exact ⟨[], c, rfl, rfl⟩
  | succ l ih =>
      have hne : c.activeReplicas ≠ [] := fun hnil => absurd (hlimit hnil) (by omega)
      have hprimary : c.primary = .ok (c.activeReplicas.get ⟨_, primaryIndex_lt c hne 0⟩) := by
        simpa [PBFTCluster.primary] using primaryId_eq c hne 0
      have hfew : (c.commitVotes (c.prepareVotes
          (c.activeReplicas.get ⟨_, primaryIndex_lt c hne 0⟩) value none)).length < c.quorum := by
        by_cases hbyz : c.activeReplicas.get ⟨_, primaryIndex_lt c hne 0⟩ ∈ c.byzantine
        · rw [commitVotes_of_byzantine c hbyz]
          exact quorum_pos c
        · have hcommit := length_commitVotes_of_honest c hbyz value
          omega
      obtain ⟨out, hround, hf⟩ := round_of_few c value none hprimary hfew
      obtain ⟨attempts, c', hloop, hlog⟩ :=
        ih c.advanceView (fun hnil => absurd hnil hne) hq
      exact ⟨out :: attempts, c', orderLoop_of_failure hround hf hloop, hlog⟩

/-! ### The fault bound -/

/-- A value is ordered exactly if at most a third of the other active replicas are Byzantine.  This
takes at most one view more than there are Byzantine replicas, and it appends one entry. -/
def OrdersWithinBound (value : Id) : Prop :=
  ∃ r c', c.order value none none = (.ok r, c') ∧
    (r.1.isSome ↔ ((byzantineActive c).length : ℤ) ≤ ((c.activeReplicas.length : ℤ) - 1) / 3) ∧
    (∀ seq, r.1 = some seq → r.2.length ≤ (byzantineActive c).length + 1 ∧
      ∃ view, c'.ordered = c.ordered ++ [⟨seq, view, [("value", value)]⟩]) ∧
    (r.1 = none → c'.ordered = c.ordered)

theorem ordersWithinBound (hnodup : c.nodeIds.Nodup) (value : Id) : OrdersWithinBound c value := by
  have hiff := quorum_le_iff (length_byzantineActive_le c)
  unfold OrdersWithinBound
  rw [← hiff]
  have hlimit : ((none : Option ℤ).getD c.n).toNat = c.n := by simp
  rw [order, hlimit]
  by_cases hq : quorumSize c.activeReplicas.length + (byzantineActive c).length ≤
      c.activeReplicas.length
  · have hb : (byzantineActive c).length < c.activeReplicas.length := by
      have := quorum_pos c
      unfold quorum at this
      omega
    obtain ⟨i, hi, nid, hp, hnid⟩ :=
      exists_honest_primary c (nodup_activeReplicas c hnodup) hb
    have hle := activeReplicas_length_le c
    obtain ⟨attempts, c', hloop, hlen, hlog⟩ :=
      orderLoop_of_honest c value c.n (by omega) hq hp hnid
    refine ⟨_, c', hloop, iff_of_true rfl hq, fun seq hseq => ?_, fun hnone => ?_⟩
    · obtain rfl := Option.some.inj hseq
      exact ⟨by simp only; omega, hlog⟩
    · cases hnone
  · obtain ⟨attempts, c', hloop, hlog⟩ := orderLoop_of_many c value
      (n_eq_zero_of_activeReplicas c) (by unfold quorum; omega)
    refine ⟨_, c', hloop, iff_of_false (by simp) hq, fun seq hseq => ?_, fun _ => hlog⟩
    cases hseq

/-! ### The log -/

/-- The log is numbered without gaps, and its views do not decrease. -/
structure LogInOrder (c : PBFTCluster Id) : Prop where
  seqs : c.ordered.map (·.seq) = List.range' 1 c.ordered.length
  nextSeq : c.nextSeq = c.ordered.length + 1
  views : (c.ordered.map (·.view)).Pairwise (· ≤ ·)
  view : ∀ e ∈ c.ordered, e.view ≤ c.view

omit [LinearOrder Id] in
theorem LogInOrder.appended {c : PBFTCluster Id} (h : LogInOrder c) (value : Id) :
    LogInOrder (appended c value) := by
  constructor
  · simp only [Swarm.appended, List.map_append, List.map_cons, List.map_nil, List.length_append,
      List.length_singleton, h.seqs, nextEntry, h.nextSeq, List.range'_1_concat, Nat.add_comm 1]
  · simp [Swarm.appended, h.nextSeq]
  · simp only [Swarm.appended, List.map_append, List.pairwise_append, List.map_cons, List.map_nil]
    refine ⟨h.views, List.pairwise_singleton _ _, fun v hv w hw => ?_⟩
    obtain ⟨e, he, rfl⟩ := List.mem_map.1 hv
    rw [List.mem_singleton.1 hw]
    exact h.view e he
  · intro e he
    rcases List.mem_append.1 he with he | he
    · exact h.view e he
    · rw [List.mem_singleton.1 he]
      exact le_rfl

omit [LinearOrder Id] in
theorem LogInOrder.advanceView {c : PBFTCluster Id} (h : LogInOrder c) :
    LogInOrder c.advanceView :=
  ⟨h.seqs, h.nextSeq, h.views, fun e he => (h.view e he).trans (Int.le_add_one le_rfl)⟩

/-- Attempts leave the log in order and the nodes as they are, whatever the replicas accept. -/
theorem logInOrder_orderLoop {c : PBFTCluster Id} (h : LogInOrder c) (value : Id)
    (validate : Option (Id → Bool)) (limit : ℕ) :
    LogInOrder (orderLoop value validate limit c).2 ∧
      (orderLoop value validate limit c).2.nodeIds = c.nodeIds := by
  induction limit generalizing c with
  | zero => exact ⟨h, rfl⟩
  | succ l ih =>
      rcases round_cases c value validate with ⟨e, hround⟩ | ⟨out, hround, hf⟩ |
        ⟨out, hround, hs, -⟩
      · simp only [orderLoop, hround]
        exact ⟨h, trivial⟩
      · obtain ⟨hlog, hnodes⟩ := ih h.advanceView
        simp only [orderLoop, hround, hf, reduceCtorEq, if_false]
        split <;> next heq =>
          rw [heq] at hlog hnodes
          exact ⟨hlog, hnodes⟩
      · rw [orderLoop_of_success hround hs]
        exact ⟨h.appended value, rfl⟩

/-! ### Every run -/

/-- The calls that order values. -/
inductive OrderCall (Id : Type*)
  | order (proposedValue : Id) (validatePrepare : Option (Id → Bool)) (maxViews : Option ℤ)
  | orderFast (proposedValue : Id) (validatePrepare : Option (Id → Bool)) (maxFastViews : ℤ)
  | consensusTaskWinner (bids : List (Id × ℚ)) (maxViews : Option ℤ)

/-- Calls as steps. -/
def callStep (c : PBFTCluster Id) : OrderCall Id → Option (PBFTCluster Id)
  | .order value validate maxViews => some (c.order value validate maxViews).2
  | .orderFast value validate maxFastViews => some (c.orderFast value validate maxFastViews).2
  | .consensusTaskWinner bids maxViews => some (c.consensusTaskWinner bids maxViews).2

theorem logInOrder_callStep {c c' : PBFTCluster Id} {call : OrderCall Id} (h : LogInOrder c)
    (hstep : callStep c call = some c') : LogInOrder c' ∧ c'.nodeIds = c.nodeIds := by
  cases call with
  | order value validate maxViews =>
      obtain rfl := Option.some.inj hstep
      exact logInOrder_orderLoop h value validate _
  | orderFast value validate maxFastViews =>
      obtain rfl := Option.some.inj hstep
      exact logInOrder_orderLoop h value validate _
  | consensusTaskWinner bids maxViews =>
      obtain rfl := Option.some.inj hstep
      unfold consensusTaskWinner
      cases deterministicTaskWinner bids with
      | none => exact ⟨h, rfl⟩
      | some expected => exact logInOrder_orderLoop h expected _ _

/-- **Every cluster that a run reaches orders a value exactly within the fault bound, and its log is
in order.**  The run may begin at any view. -/
theorem orders_within_bound {nodeIds : List Id} (hnodup : nodeIds.Nodup)
    {byzantineIds : Finset Id} {committeeSize : Option ℤ} {startView : ℤ}
    {calls : List (OrderCall Id)} {c : PBFTCluster Id}
    (hrun : run callStep { PBFTCluster.new nodeIds byzantineIds committeeSize with
      view := startView } calls = some c) :
    (∀ value, OrdersWithinBound c value) ∧
      c.ordered.map (·.seq) = List.range' 1 c.ordered.length ∧
      (c.ordered.map (·.view)).Pairwise (· ≤ ·) := by
  have hinv : LogInOrder c ∧ c.nodeIds.Nodup := by
    refine invariant_of_run (I := fun c => LogInOrder c ∧ c.nodeIds.Nodup) ?_ ?_ hrun
    · intro c₁ call c₂ h hstep
      obtain ⟨hlog, hnodes⟩ := logInOrder_callStep h.1 hstep
      exact ⟨hlog, hnodes ▸ h.2⟩
    · refine ⟨⟨rfl, rfl, List.Pairwise.nil, fun e he => absurd he List.not_mem_nil⟩, ?_⟩
      exact (List.perm_insertionSort _ _).nodup_iff.2 hnodup
  exact ⟨ordersWithinBound c hinv.2, hinv.1.seqs, hinv.1.views⟩

/-- Four replicas, of which the first primary is Byzantine. -/
def fourReplicas : List NodeId := ["a", "b", "c", "d"]

theorem orders_within_bound_fourReplicas :
    fourReplicas.Nodup ∧ ∃ c, run callStep { PBFTCluster.new fourReplicas {("a" : NodeId)} none with
        view := 0 } [.order "explorer" none none] = some c ∧
      (∀ value, OrdersWithinBound c value) ∧ c.ordered.map (·.seq) = [1] := by
  have hnodup : fourReplicas.Nodup := by decide +kernel
  obtain ⟨c, hc⟩ : ∃ c, run callStep { PBFTCluster.new fourReplicas {("a" : NodeId)} none with
    view := 0 } [.order "explorer" none none] = some c := ⟨_, rfl⟩
  have hlen : c.ordered.length = 1 := by
    obtain rfl := Option.some.inj hc
    decide +kernel
  obtain ⟨horders, hseqs, -⟩ := orders_within_bound hnodup hc
  exact ⟨hnodup, c, hc, horders, by rw [hseqs, hlen]; rfl⟩

end Swarm
