/-
**Ballots over a run** (`MeshConsensusEngine` of `vertex2/consensusEngine.ts`).

A proposal is open until one of three ways decides it: enough yes votes, too many no votes, or an
expiry.  Then it leaves the place of the open proposal for the history, where nothing changes it
any more, so it is decided once and listed once.  Its two tallies are sets, and a vote is added to
one of them without a look at the other: a peer that votes again and changes its mind, or whose
second vote is flipped on the way, is in both.

Main definitions:

* `Mesh.startedBy`, `Mesh.decidedBy` — the proposal that a call starts, and the one that it decides;
* `Mesh.ListedOnce` — each started proposal is listed once, and decided proposals never change;
* `Mesh.OneSided` — no peer is on both sides of a proposal;
* `Mesh.KeepsSide` — a vote is not from a peer that has already voted for the other side.

Main results:

* `Mesh.listedOnce_of_run` — **each proposal is listed once and decided at most once**, in every
  run;
* `Mesh.ballots_consistent_iff` — **the ballots of a run are consistent if and only if no peer
  changes sides**;
* `Mesh.peer_votes_both_ways` — a peer that votes yes and then no.
-/
import Endendend.Mesh.ConsensusEngine
import Mathlib.Data.List.Nodup

set_option relaxedAutoImplicit false
set_option autoImplicit false

namespace Mesh

open Js MeshConsensusEngine

/-! ### What a call does to the list of proposals -/

/-- The id of the proposal that a call starts. -/
def startedBy (s : MeshConsensusEngine) : BallotOp → Option Str
  | .maybeStartProposal nowMs draw summaryFactory =>
    (s.maybeStartProposal nowMs draw summaryFactory).2.map fun p => p.id
  | .registerVote .. | .forceExpire => none

/-- The id of the proposal that a call decides. -/
def decidedBy (s : MeshConsensusEngine) : BallotOp → Option Str
  | .maybeStartProposal .. => none
  | .registerVote vote reachablePeers vector draw nowMs =>
    let r := (s.registerVote vote reachablePeers vector draw nowMs).2
    (r.committed.or r.rejected).map fun p => p.id
  | .forceExpire => s.open?.map fun p => p.id

theorem open?_eq_some_iff {s : MeshConsensusEngine} {p : ProposalState} :
    s.open? = some p ↔ s.active = some p ∧ p.decided = .pending := by
  rw [open?, Option.filter_eq_some_iff, decide_eq_true_iff]

theorem votedOn_eq_some_iff {s : MeshConsensusEngine} {vote : VotePayload} {p : ProposalState} :
    s.votedOn vote = some p ↔
      (s.active = some p ∧ p.decided = .pending) ∧ p.id = vote.proposalId := by
  rw [votedOn, Option.filter_eq_some_iff, open?_eq_some_iff, decide_eq_true_iff]

@[simp] theorem id_tally (p : ProposalState) (peerId : Str) (yes : Bool) :
    (p.tally peerId yes).id = p.id := by
  cases yes <;> rfl

@[simp] theorem decided_tally (p : ProposalState) (peerId : Str) (yes : Bool) :
    (p.tally peerId yes).decided = p.decided := by
  cases yes <;> rfl

/-- What a call may do: nothing, start a proposal when none is open, change the open one, or decide
it. -/
inductive Moves (s : MeshConsensusEngine) : Option Str → Option Str → MeshConsensusEngine → Prop
  | stay : Moves s none none s
  | start (p : ProposalState) (hopen : s.open? = none) (hid : p.id = proposalId (s.seq + 1))
      (hpending : p.decided = .pending) :
      Moves s (some p.id) none { s with seq := s.seq + 1, active := some p }
  | change (p p' : ProposalState) (hactive : s.active = some p) (hid : p'.id = p.id)
      (hpending : p'.decided = .pending) : Moves s none none { s with active := some p' }
  | decide (p p' : ProposalState) (hactive : s.active = some p) (hid : p'.id = p.id)
      (hdecided : p'.decided ≠ .pending) :
      Moves s none (some p.id) { s with active := none, history := s.history ++ [p'] }

theorem moves_registerVote (s : MeshConsensusEngine) (vote : VotePayload)
    (reachablePeers : List Str) (vector : NetworkConditionVector) (draw nowMs : ℚ) :
    let r := s.registerVote vote reachablePeers vector draw nowMs
    Moves s none ((r.2.committed.or r.2.rejected).map fun p => p.id) r.1 := by
  unfold registerVote
  cases h : s.votedOn vote with
  | none => exact .stay
  | some p =>
      obtain ⟨⟨hactive, hpending⟩, -⟩ := votedOn_eq_some_iff.1 h
      have hid := id_tally p vote.peerId (sideOf vote draw)
      have hdecide : ∀ decided : Decision, decided ≠ .pending →
          Moves s none (some p.id) { s with
            active := none
            history := s.history ++
              [(p.tally vote.peerId (sideOf vote draw)).closeAs decided nowMs] } :=
        fun decided hdecided => .decide p _ hactive hid hdecided
      simp only
      split
      · simpa only [Option.or, Option.map_some, ProposalState.closeAs, hid] using
          hdecide .committed (by decide)
      · split
        · simpa only [Option.or, Option.map_some, ProposalState.closeAs, hid] using
            hdecide .rejected (by decide)
        · exact .change p _ hactive hid (by rw [decided_tally, hpending])

theorem moves_maybeStartProposal (s : MeshConsensusEngine) (nowMs draw : ℚ)
    (summaryFactory : Str → Str) :
    let r := s.maybeStartProposal nowMs draw summaryFactory
    Moves s (r.2.map fun p => p.id) none r.1 := by
  unfold maybeStartProposal
  split
  · exact .stay
  · next hopen =>
      split
      · exact .stay
      · exact .start _ (Option.not_isSome_iff_eq_none.1 hopen) rfl rfl

theorem moves_forceExpire (s : MeshConsensusEngine) :
    Moves s none (s.open?.map fun p => p.id) s.forceExpire := by
  unfold forceExpire
  cases hopen : s.open? with
  | none => exact .stay
  | some p =>
      exact .decide p _ (open?_eq_some_iff.1 hopen).1 rfl Decision.noConfusion

theorem moves_of_apply {s s' : MeshConsensusEngine} {op : BallotOp}
    (h : BallotOp.apply s op = some s') : Moves s (startedBy s op) (decidedBy s op) s' := by
  cases op with
  | maybeStartProposal nowMs draw summaryFactory =>
      obtain rfl := Option.some.inj h
      exact moves_maybeStartProposal s nowMs draw summaryFactory
  | registerVote vote reachablePeers vector draw nowMs =>
      obtain rfl := Option.some.inj h
      exact moves_registerVote s vote reachablePeers vector draw nowMs
  | forceExpire =>
      obtain rfl := Option.some.inj h
      exact moves_forceExpire s

/-! ### Each proposal is listed once -/

/-- After a run, the list holds each started proposal once; a proposal is decided at most once, and
a record that was listed as decided is listed unchanged. -/
structure ListedOnce (ops : List BallotOp) (s : MeshConsensusEngine) : Prop where
  started : s.snapshot.map (fun p => p.id) = Runs.emitted BallotOp.apply startedBy .new ops
  listedOnce : (s.snapshot.map fun p => p.id).Nodup
  decided : (s.snapshot.filter fun p => p.decided ≠ .pending).map (fun p => p.id) =
    Runs.emitted BallotOp.apply decidedBy .new ops
  decidedOnce : (Runs.emitted BallotOp.apply decidedBy .new ops).Nodup
  settled : ∀ pre t, pre <+: ops → Runs.run BallotOp.apply .new pre = some t →
    ∀ p ∈ t.snapshot, p.decided ≠ .pending → p ∈ s.snapshot

/-- The history holds the decided proposals in order, and the proposals are numbered. -/
structure Settled (ops : List BallotOp) (s : MeshConsensusEngine) : Prop where
  opened : ∀ p ∈ s.active, p.decided = .pending
  closed : ∀ p ∈ s.history, p.decided ≠ .pending
  numbered : s.snapshot.map (fun p => p.id) =
    (List.range' 1 s.seq).map proposalId
  started : s.snapshot.map (fun p => p.id) = Runs.emitted BallotOp.apply startedBy .new ops
  decided : s.history.map (fun p => p.id) = Runs.emitted BallotOp.apply decidedBy .new ops

theorem settled_new : Settled [] .new where
  opened := by simp [new]
  closed := by simp [new]
  numbered := rfl
  started := rfl
  decided := rfl

/-- **The engine as a list of proposals.** -/
theorem Settled.step {ops : List BallotOp} {op : BallotOp} {s s' : MeshConsensusEngine}
    (hrun : Runs.run BallotOp.apply .new ops = some s) (h : Settled ops s)
    (hstep : BallotOp.apply s op = some s') : Settled (ops ++ [op]) s' := by
  obtain ⟨hopened, hclosed, hnumbered, hstarted, hdecided⟩ := h
  have hmoves := moves_of_apply hstep
  have hstarted' := Runs.emitted_concat startedBy op hrun
  have hdecided' := Runs.emitted_concat decidedBy op hrun
  rw [← hstarted] at hstarted'
  rw [← hdecided] at hdecided'
  generalize startedBy s op = started at hmoves hstarted'
  generalize decidedBy s op = decided at hmoves hdecided'
  cases hmoves with
  | stay =>
      rw [Option.toList_none, List.append_nil] at hstarted' hdecided'
      exact ⟨hopened, hclosed, hnumbered, hstarted'.symm, hdecided'.symm⟩
  | start p hopen hid hpending =>
      rw [Option.toList_none, List.append_nil] at hdecided'
      have hactive : s.active = none := by
        cases hactive : s.active with
        | none => rfl
        | some q =>
            have hq := open?_eq_some_iff.2 ⟨hactive, hopened q hactive⟩
            exact absurd (hopen.symm.trans hq) (by simp)
      have hsnapshot : s.snapshot = s.history := by rw [snapshot, hactive]; exact List.append_nil _
      rw [hsnapshot] at hnumbered hstarted'
      have hids : (s.history ++ [p]).map (fun p => p.id) =
          s.history.map (fun p => p.id) ++ [p.id] := List.map_append
      refine ⟨?_, hclosed, ?_, hids.trans hstarted'.symm, hdecided'.symm⟩
      · rintro q ⟨⟩
        exact hpending
      · rw [List.range'_1_concat, List.map_append, ← hnumbered, List.map_singleton,
          Nat.add_comm 1, ← hid]
        exact hids
  | change p p' hactive hid hpending =>
      rw [Option.toList_none, List.append_nil] at hstarted' hdecided'
      have hids : (s.history ++ [p']).map (fun p => p.id) = s.snapshot.map fun p => p.id := by
        rw [snapshot, hactive, Option.toList_some, List.map_append, List.map_append,
          List.map_singleton, List.map_singleton, hid]
      refine ⟨?_, hclosed, hids.trans hnumbered, hids.trans hstarted'.symm, hdecided'.symm⟩
      rintro q ⟨⟩
      exact hpending
  | decide p p' hactive hid hclose =>
      rw [Option.toList_none, List.append_nil] at hstarted'
      have hids : (s.history ++ [p']).map (fun p => p.id) = s.snapshot.map fun p => p.id := by
        rw [snapshot, hactive, Option.toList_some, List.map_append, List.map_append,
          List.map_singleton, List.map_singleton, hid]
      have hlist : (s.history ++ [p'] ++ (none : Option ProposalState).toList).map
          (fun p => p.id) = s.snapshot.map fun p => p.id := by
        rw [Option.toList_none, List.append_nil, hids]
      refine ⟨by simp, ?_, hlist.trans hnumbered, hlist.trans hstarted'.symm, ?_⟩
      · intro q hq
        rcases List.mem_append.1 hq with hq | hq
        · exact hclosed q hq
        · exact List.mem_singleton.1 hq ▸ hclose
      · rw [hdecided', List.map_append, List.map_singleton, hid]
        rfl

theorem settled_of_run {ops : List BallotOp} {s : MeshConsensusEngine}
    (hrun : Runs.run BallotOp.apply .new ops = some s) : Settled ops s :=
  Runs.invariant_of_history settled_new (fun _ _ _ _ hs h => h.step hs) hrun

/-- The history only grows. -/
theorem history_prefix_of_run {s t : MeshConsensusEngine} {ops : List BallotOp}
    (hrun : Runs.run BallotOp.apply s ops = some t) : s.history <+: t.history := by
  refine Runs.invariant_of_run (I := fun u => s.history <+: u.history) ?_ List.prefix_rfl hrun
  intro u op u' h hstep
  have hmoves := moves_of_apply hstep
  generalize startedBy u op = started at hmoves
  generalize decidedBy u op = decided at hmoves
  cases hmoves with
  | stay => exact h
  | start => exact h
  | change => exact h
  | decide => exact h.trans (List.prefix_append _ _)

/-- The decided proposals are those of the history. -/
theorem Settled.filter_snapshot {ops : List BallotOp} {s : MeshConsensusEngine}
    (h : Settled ops s) :
    (s.snapshot.filter fun p => p.decided ≠ .pending) = s.history := by
  have hactive : (s.active.toList.filter fun p => p.decided ≠ .pending) = [] := by
    refine List.filter_eq_nil_iff.2 fun p hp => ?_
    simpa using h.opened p (Option.mem_toList.1 hp)
  rw [snapshot, List.filter_append, hactive, List.append_nil]
  exact List.filter_eq_self.2 fun p hp => decide_eq_true (h.closed p hp)

/-- **Each proposal is listed once and decided at most once**, and then it never changes. -/
theorem listedOnce_of_run {ops : List BallotOp} {s : MeshConsensusEngine}
    (hrun : Runs.run BallotOp.apply .new ops = some s) : ListedOnce ops s := by
  have h := settled_of_run hrun
  have hnodup : (s.snapshot.map fun p => p.id).Nodup := by
    rw [h.numbered]
    exact (List.nodup_range' ..).map proposalId_injective
  have hhistory : (s.history.map fun p => p.id).Nodup :=
    hnodup.sublist ((List.sublist_append_left ..).map _)
  refine ⟨h.started, hnodup, ?_, h.decided ▸ hhistory, ?_⟩
  · rw [h.filter_snapshot, h.decided]
  · rintro pre t ⟨post, rfl⟩ ht p hp hdecided
    obtain ⟨t', ht', hpost⟩ := Runs.run_append.1 hrun
    obtain rfl := Option.some.inj (ht.symm.trans ht')
    have hmem : p ∈ t.history := by
      rw [← (settled_of_run ht).filter_snapshot]
      exact List.mem_filter.2 ⟨hp, decide_eq_true hdecided⟩
    exact List.mem_append_left _ ((history_prefix_of_run hpost).subset hmem)

/-! ### Sides -/

/-- No peer is on both sides of a proposal. -/
def OneSided (s : MeshConsensusEngine) : Prop :=
  ∀ p ∈ s.snapshot, Disjoint p.votesYes p.votesNo

/-- The tally of the other side. -/
def ProposalState.otherSide (p : ProposalState) (yes : Bool) : Finset Str :=
  if yes then p.votesNo else p.votesYes

/-- A vote that reaches the open proposal is not from a peer that is on the other side already. -/
def KeepsSide (s : MeshConsensusEngine) : BallotOp → Prop
  | .registerVote vote _ _ draw _ =>
    ∀ p ∈ s.votedOn vote, vote.peerId ∉ p.otherSide (sideOf vote draw)
  | .maybeStartProposal .. | .forceExpire => True

theorem disjoint_tally_iff {p : ProposalState} (h : Disjoint p.votesYes p.votesNo) (peerId : Str)
    (yes : Bool) :
    Disjoint (p.tally peerId yes).votesYes (p.tally peerId yes).votesNo ↔
      peerId ∉ p.otherSide yes := by
  cases yes with
  | true => simp [ProposalState.tally, ProposalState.otherSide, h]
  | false => simp [ProposalState.tally, ProposalState.otherSide, h]

/-- A registered vote is in the tallies of the list. -/
theorem forall_snapshot_registerVote (P : Finset Str → Finset Str → Prop)
    (s : MeshConsensusEngine) (vote : VotePayload) (reachablePeers : List Str)
    (vector : NetworkConditionVector) (draw nowMs : ℚ) {p : ProposalState}
    (h : s.votedOn vote = some p) :
    (∀ q ∈ (s.registerVote vote reachablePeers vector draw nowMs).1.snapshot,
        P q.votesYes q.votesNo) ↔
      (∀ q ∈ s.history, P q.votesYes q.votesNo) ∧
        P (p.tally vote.peerId (sideOf vote draw)).votesYes
          (p.tally vote.peerId (sideOf vote draw)).votesNo := by
  unfold registerVote
  rw [h]
  simp only
  split
  · simp [snapshot, or_imp, forall_and, ProposalState.closeAs]
  · split
    · simp [snapshot, or_imp, forall_and, ProposalState.closeAs]
    · simp [snapshot, or_imp, forall_and]

/-- A call keeps the sides apart exactly if no peer changes sides. -/
theorem keepsSide_iff (s : MeshConsensusEngine) (op : BallotOp) (h : OneSided s) :
    KeepsSide s op ↔ ∀ s', BallotOp.apply s op = some s' → OneSided s' := by
  cases op with
  | maybeStartProposal nowMs draw summaryFactory =>
      refine iff_of_true trivial fun s' hs' => ?_
      obtain rfl := Option.some.inj hs'
      unfold maybeStartProposal
      split
      · exact h
      · split
        · exact h
        · intro q hq
          rcases List.mem_append.1 hq with hq | hq
          · exact h q (List.mem_append_left _ hq)
          · obtain rfl := List.mem_singleton.1 hq
            exact Finset.disjoint_empty_left _
  | registerVote vote reachablePeers vector draw nowMs =>
      simp only [KeepsSide, BallotOp.apply, Option.some.injEq, forall_eq']
      cases hvoted : s.votedOn vote with
      | none =>
          have hstay : (s.registerVote vote reachablePeers vector draw nowMs).1 = s := by
            unfold registerVote
            rw [hvoted]
          rw [hstay]
          exact iff_of_true (by simp) h
      | some p =>
          obtain ⟨⟨hactive, -⟩, -⟩ := votedOn_eq_some_iff.1 hvoted
          have hp : p ∈ s.snapshot :=
            List.mem_append_right _ (Option.mem_toList.2 hactive)
          have hhistory : ∀ q ∈ s.history, Disjoint q.votesYes q.votesNo := fun q hq =>
            h q (List.mem_append_left _ hq)
          have hlist := forall_snapshot_registerVote Disjoint s vote reachablePeers vector draw
            nowMs hvoted
          simp only [Option.mem_some_iff, forall_eq']
          rw [OneSided, hlist, disjoint_tally_iff (h p hp)]
          exact (and_iff_right hhistory).symm
  | forceExpire =>
      refine iff_of_true trivial fun s' hs' => ?_
      obtain rfl := Option.some.inj hs'
      unfold forceExpire
      cases hopen : s.open? with
      | none => exact h
      | some p =>
          have hp : p ∈ s.snapshot :=
            List.mem_append_right _ (Option.mem_toList.2 (open?_eq_some_iff.1 hopen).1)
          intro q hq
          simp only [snapshot, Option.toList_none, List.append_nil] at hq
          rcases List.mem_append.1 hq with hq | hq
          · exact h q (List.mem_append_left _ hq)
          · obtain rfl := List.mem_singleton.1 hq
            exact h p hp

/-- The ballots after a run: each proposal is listed and decided once, and no peer is on both of
its sides. -/
structure BallotsConsistent (ops : List BallotOp) (s : MeshConsensusEngine) : Prop
    extends ListedOnce ops s where
  oneSided : OneSided s

/-- **The ballots of a run are consistent all along if and only if no peer changes sides.** -/
theorem ballots_consistent_iff (ops : List BallotOp) :
    (∀ pre s, pre <+: ops → Runs.run BallotOp.apply .new pre = some s →
        BallotsConsistent pre s) ↔
      Runs.Along BallotOp.apply KeepsSide .new ops := by
  have hnew : OneSided .new := fun p hp => absurd hp List.not_mem_nil
  have halways : _ ↔ OneSided .new ∧ Runs.Along BallotOp.apply KeepsSide .new ops :=
    Runs.always_iff_along keepsSide_iff
  rw [← and_iff_right (b := Runs.Along BallotOp.apply KeepsSide .new ops) hnew, ← halways]
  constructor
  · exact fun h pre s hpre hs => (h pre s hpre hs).oneSided
  · exact fun h pre s hpre hs => ⟨listedOnce_of_run hs, h pre s hpre hs⟩

/-- A peer votes yes and then no. -/
def changedMind : List BallotOp :=
  [.maybeStartProposal 0 0 id,
    .registerVote ⟨proposalId 1, "p1", true⟩ ["p1", "p2", "p3", "p4"] calm 1 1,
    .registerVote ⟨proposalId 1, "p1", false⟩ ["p1", "p2", "p3", "p4"] calm 1 2]

/-- **A peer is on both sides** when it changes its mind. -/
theorem peer_votes_both_ways :
    ¬ ∀ ops pre s, pre <+: ops → Runs.run BallotOp.apply .new pre = some s →
      BallotsConsistent pre s := by
  intro h
  have hrun : ((Runs.run BallotOp.apply .new changedMind).map fun s =>
      s.snapshot.map fun p => (p.votesYes, p.votesNo)) = some [({lit "p1"}, {lit "p1"})] := by
    decide +kernel
  obtain ⟨s, hs, hlist⟩ := Option.map_eq_some_iff.1 hrun
  obtain ⟨p, hp, hvotes⟩ := List.mem_map.1 (hlist ▸ List.mem_singleton_self _)
  have hdisjoint := (h changedMind changedMind s List.prefix_rfl hs).oneSided p hp
  obtain ⟨hyes, hno⟩ := Prod.mk.inj hvotes
  rw [hyes, hno] at hdisjoint
  exact absurd hdisjoint (by simp)

end Mesh
