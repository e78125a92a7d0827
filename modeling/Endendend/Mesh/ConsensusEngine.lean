/-
**Votes on proposals, and what commits one** (`MeshConsensusEngine` of
`vertex2/consensusEngine.ts`).

There is at most one proposal at a time.  A vote may be flipped on its way; it is added to the tally
of the proposal, and the tally is compared with a need that depends on the peers reachable at that
call and on the stress of the network.

The quorum is meant to be `2 f + 1` of the reachable peers, where `f` is a third of the others,
rounded down.  The engine compares with an adjusted need that may be lower, and it counts every peer
that has ever voted yes, reachable or not: the tallies from the adjusted need up to the quorum and
the votes of unreachable peers commit a proposal without a quorum.

Main definitions:

* `Mesh.ProposalState`, `Mesh.VotePayload`, `Mesh.NetworkConditionVector`;
* `Mesh.adjustedNeed` — the number of yes votes that commits a proposal;
* `Mesh.MeshConsensusEngine` with `maybeStartProposal`, `registerVote` and `forceExpire`;
* `Mesh.BallotOp` — the operations of the engine;
* `Mesh.CommitsWithQuorum` — a call commits a proposal only with a quorum of reachable peers;
* `Mesh.OutsideGap` — the tally of a call is not between the two numbers.

Main results:

* `Mesh.commits_with_quorum_iff` — **every commit of a run has a quorum if and only if every call
  has its tally outside the gap**;
* `Mesh.outsideGap_of_reachable` — there is no gap when all who voted yes are reachable and the need
  is lowered by less than one;
* `Mesh.unreachable_votes_commit` — three votes, and only one of them from a reachable peer.
-/
import Endendend.Foundation.Coerce
import Endendend.Foundation.Runs
import Mathlib.Data.Finset.Card
import Mathlib.Data.Rat.Floor
import Mathlib.Tactic.Linarith

set_option relaxedAutoImplicit false
set_option autoImplicit false

namespace Mesh

open Js

/-! ### Votes and proposals -/

structure VotePayload where
  proposalId : Str
  peerId : Str
  yes : Bool
  deriving DecidableEq

inductive Decision
  | pending
  | committed
  | rejected
  deriving DecidableEq

structure ProposalState where
  id : Str
  summary : Str
  createdAtMs : ℚ
  votesYes : Finset Str
  votesNo : Finset Str
  decided : Decision
  commitAtMs : Option ℚ
  commitLatencyMs : Option ℚ

/-- The conditions of the network that votes depend on. -/
structure NetworkConditionVector where
  baseLatencyMs : ℚ
  jitterMs : ℚ
  loss01 : ℚ
  dup01 : ℚ
  ackDelayMs : ℚ
  timeoutChance01 : ℚ

def clamp01 (x : ℚ) : ℚ := max 0 (min 1 x)

/-- A vote is added to the tally of its side. -/
def ProposalState.tally (p : ProposalState) (peerId : Str) (yes : Bool) : ProposalState :=
  if yes then { p with votesYes := insert peerId p.votesYes }
  else { p with votesNo := insert peerId p.votesNo }

/-- The decision is taken. -/
def ProposalState.closeAs (p : ProposalState) (decided : Decision) (nowMs : ℚ) : ProposalState :=
  { p with
    decided
    commitAtMs := some nowMs
    commitLatencyMs := some (nowMs - p.createdAtMs) }

/-! ### The need -/

/-- The quorum among `n` peers, before it is adjusted. -/
def quorumNeed (n : ℕ) : ℕ :=
  let f := (n - 1) / 3
  min n (if 2 * f + 1 > 0 then 2 * f + 1 else ⌈(n : ℚ) * (66 / 100)⌉₊)

def stressOf (vector : NetworkConditionVector) : ℚ :=
  clamp01 (vector.loss01 + vector.timeoutChance01 * (35 / 100))

/-- The number of yes votes that commits a proposal: under little stress it is lower. -/
def adjustedNeed (n : ℕ) (vector : NetworkConditionVector) : ℕ :=
  min n (max 2 ⌈(quorumNeed n : ℚ) * (92 / 100 + stressOf vector * (8 / 100))⌉₊)

/-! ### The engine -/

structure MeshConsensusEngine where
  seq : ℕ
  active : Option ProposalState
  history : List ProposalState

/-- What a call of `registerVote` returns. -/
structure VoteResult where
  committed : Option ProposalState
  rejected : Option ProposalState

namespace MeshConsensusEngine

def new : MeshConsensusEngine := ⟨0, none, []⟩

def snapshot (s : MeshConsensusEngine) : List ProposalState := s.history ++ s.active.toList

/-- The active proposal, if it is still open. -/
def open? (s : MeshConsensusEngine) : Option ProposalState :=
  s.active.filter fun p => p.decided = .pending

/-- The id of a proposal. -/
def proposalId (seq : ℕ) : Str := lit "prop-" ++ (Decimal.ofInt seq).toStr

/-- Proposals of different numbers have different ids. -/
theorem proposalId_injective : Function.Injective proposalId := by
  intro m n h
  have htext : (Decimal.ofInt m).toStr = (Decimal.ofInt n).toStr := List.append_cancel_left h
  exact Int.ofNat.inj (Decimal.ofInt_injective (Decimal.toStr_injective htext))

/-- Starts a proposal, unless one is open or the draw is against it. -/
def maybeStartProposal (s : MeshConsensusEngine) (nowMs draw : ℚ) (summaryFactory : Str → Str) :
    MeshConsensusEngine × Option ProposalState :=
  if s.open?.isSome then (s, none)
  else if 22 / 100 < draw then (s, none)
  else
    let id := proposalId (s.seq + 1)
    let p : ProposalState :=
      { id
        summary := summaryFactory id
        createdAtMs := nowMs
        votesYes := ∅
        votesNo := ∅
        decided := .pending
        commitAtMs := none
        commitLatencyMs := none }
    ({ s with seq := s.seq + 1, active := some p }, some p)

/-- The proposal that a vote is for, if it is open. -/
def votedOn (s : MeshConsensusEngine) (vote : VotePayload) : Option ProposalState :=
  s.open?.filter fun p => p.id = vote.proposalId

/-- The side of the tally that a vote goes to; a small draw flips it. -/
def sideOf (vote : VotePayload) (draw : ℚ) : Bool :=
  if draw < 3 / 100 then !vote.yes else vote.yes

def registerVote (s : MeshConsensusEngine) (vote : VotePayload) (reachablePeers : List Str)
    (vector : NetworkConditionVector) (draw nowMs : ℚ) : MeshConsensusEngine × VoteResult :=
  match s.votedOn vote with
  | none => (s, ⟨none, none⟩)
  | some p =>
    let p := p.tally vote.peerId (sideOf vote draw)
    let n := max 1 reachablePeers.length
    if adjustedNeed n vector ≤ p.votesYes.card then
      let done := p.closeAs .committed nowMs
      ({ s with active := none, history := s.history ++ [done] }, ⟨some done, none⟩)
    else if max 1 (n / 3) < p.votesNo.card then
      let done := p.closeAs .rejected nowMs
      ({ s with active := none, history := s.history ++ [done] }, ⟨none, some done⟩)
    else ({ s with active := some p }, ⟨none, none⟩)

def forceExpire (s : MeshConsensusEngine) : MeshConsensusEngine :=
  match s.open? with
  | none => s
  | some p =>
    { s with active := none, history := s.history ++ [{ p with decided := .rejected }] }

end MeshConsensusEngine

end Mesh

namespace Mesh

open Js MeshConsensusEngine

/-! ### Calls -/

inductive BallotOp
  | maybeStartProposal (nowMs draw : ℚ) (summaryFactory : Str → Str)
  | registerVote (vote : VotePayload) (reachablePeers : List Str) (vector : NetworkConditionVector)
      (draw nowMs : ℚ)
  | forceExpire

/-- One operation; all of them are always possible. -/
def BallotOp.apply (s : MeshConsensusEngine) : BallotOp → Option MeshConsensusEngine
  | .maybeStartProposal nowMs draw summaryFactory =>
    some (s.maybeStartProposal nowMs draw summaryFactory).1
  | .registerVote vote reachablePeers vector draw nowMs =>
    some (s.registerVote vote reachablePeers vector draw nowMs).1
  | .forceExpire => some s.forceExpire

/-- `2 f + 1` for the reachable peers. -/
def quorumOf (reachablePeers : List Str) : ℤ := 2 * (((reachablePeers.length : ℤ) - 1) / 3) + 1

/-- Of the reachable peers, a quorum has voted yes. -/
def HasQuorum (reachablePeers : List Str) (p : ProposalState) : Prop :=
  quorumOf reachablePeers ≤ (p.votesYes ∩ reachablePeers.toFinset).card

/-- If a call commits a proposal, it has a quorum. -/
def CommitsWithQuorum (s : MeshConsensusEngine) : BallotOp → Prop
  | .registerVote vote reachablePeers vector draw nowMs =>
    ∀ p ∈ (s.registerVote vote reachablePeers vector draw nowMs).2.committed,
      HasQuorum reachablePeers p
  | .maybeStartProposal .. | .forceExpire => True

/-- The yes votes of the proposal that a vote is for, with this vote. -/
def yesVotes (p : ProposalState) (vote : VotePayload) (draw : ℚ) : Finset Str :=
  (p.tally vote.peerId (sideOf vote draw)).votesYes

/-- The tally of a call is below the adjusted need, or it makes up for the quorum and for the votes
of the peers that are not reachable. -/
def OutsideGap (s : MeshConsensusEngine) : BallotOp → Prop
  | .registerVote vote reachablePeers vector draw _ =>
    ∀ p ∈ s.votedOn vote,
      let yes := yesVotes p vote draw
      yes.card < adjustedNeed (max 1 reachablePeers.length) vector ∨
        quorumOf reachablePeers + (yes \ reachablePeers.toFinset).card ≤ yes.card
  | .maybeStartProposal .. | .forceExpire => True

/-! ### The condition -/

/-- What a call commits. -/
theorem committed_registerVote (s : MeshConsensusEngine) (vote : VotePayload)
    (reachablePeers : List Str) (vector : NetworkConditionVector) (draw nowMs : ℚ) :
    (s.registerVote vote reachablePeers vector draw nowMs).2.committed =
      (s.votedOn vote).bind fun p =>
        if adjustedNeed (max 1 reachablePeers.length) vector ≤ (yesVotes p vote draw).card then
          some ((p.tally vote.peerId (sideOf vote draw)).closeAs .committed nowMs)
        else none := by
  unfold registerVote
  cases s.votedOn vote with
  | none => rfl
  | some p =>
      rw [Option.bind_some]
      by_cases h : adjustedNeed (max 1 reachablePeers.length) vector ≤ (yesVotes p vote draw).card
      · rw [if_pos h]
        unfold yesVotes at h
        simp only
        rw [if_pos h]
      · rw [if_neg h]
        unfold yesVotes at h
        simp only
        rw [if_neg h]
        split <;> rfl

theorem commitsWithQuorum_iff (s : MeshConsensusEngine) (op : BallotOp) :
    CommitsWithQuorum s op ↔ OutsideGap s op := by
  cases op with
  | registerVote vote reachablePeers vector draw nowMs =>
      simp only [CommitsWithQuorum, OutsideGap, committed_registerVote]
      cases s.votedOn vote with
      | none => simp
      | some p =>
          -- the yes votes are those of reachable peers and those of the others
          have hcard := Finset.card_inter_add_card_sdiff (yesVotes p vote draw)
            reachablePeers.toFinset
          simp only [Option.bind_some, Option.mem_some_iff, forall_eq']
          split
          · next hneed =>
              rw [or_iff_right hneed.not_gt]
              simp only [Option.mem_some_iff, forall_eq', HasQuorum]
              change quorumOf reachablePeers ≤ ((yesVotes p vote draw) ∩ _).card ↔ _
              omega
          · next hneed =>
              exact iff_of_true (fun _ h => absurd h (by simp)) (Or.inl (not_le.1 hneed))
  | maybeStartProposal => exact Iff.rfl
  | forceExpire => exact Iff.rfl

theorem quorumNeed_eq {n : ℕ} (h : 1 ≤ n) : quorumNeed n = 2 * ((n - 1) / 3) + 1 := by
  rw [quorumNeed, if_pos (Nat.succ_pos _)]
  omega

/-- A need that is lowered by less than one is not lowered at all. -/
theorem quorumNeed_le_adjustedNeed {n : ℕ} {vector : NetworkConditionVector} (hn : 1 ≤ n)
    (h : (quorumNeed n : ℚ) * (8 / 100) * (1 - stressOf vector) < 1) :
    quorumNeed n ≤ adjustedNeed n vector := by
  refine le_min ?_ (le_max_of_le_right ?_)
  · rw [quorumNeed_eq hn]
    omega
  · have hlt : (quorumNeed n : ℚ) - 1 <
        quorumNeed n * (92 / 100 + stressOf vector * (8 / 100)) := by
      linarith
    obtain ⟨k, hk⟩ : ∃ k, quorumNeed n = k + 1 := ⟨_, quorumNeed_eq hn⟩
    rw [hk] at hlt ⊢
    refine Nat.lt_ceil.2 ?_
    push_cast at hlt ⊢
    linarith

/-- **There is no gap** when all who have voted yes are reachable and the need is lowered by less
than one. -/
theorem outsideGap_of_reachable {s : MeshConsensusEngine} {vote : VotePayload}
    {reachablePeers : List Str} {vector : NetworkConditionVector} {draw nowMs : ℚ}
    (hreachable : ∀ p ∈ s.votedOn vote, yesVotes p vote draw ⊆ reachablePeers.toFinset)
    (hneed : (quorumNeed (max 1 reachablePeers.length) : ℚ) * (8 / 100) * (1 - stressOf vector) <
      1) :
    OutsideGap s (.registerVote vote reachablePeers vector draw nowMs) := by
  intro p hp
  have hle := quorumNeed_le_adjustedNeed (le_max_left 1 reachablePeers.length) hneed
  rw [quorumNeed_eq (le_max_left 1 _)] at hle
  have hnone : (yesVotes p vote draw \ reachablePeers.toFinset).card = 0 := by
    rw [Finset.sdiff_eq_empty_iff_subset.2 (hreachable p hp), Finset.card_empty]
  simp only [hnone, quorumOf]
  rcases lt_or_ge (yesVotes p vote draw).card
    (adjustedNeed (max 1 reachablePeers.length) vector) with hlt | hge
  · exact Or.inl hlt
  · refine Or.inr ?_
    -- without reachable peers the quorum is negative
    rcases Nat.eq_zero_or_pos reachablePeers.length with h | h
    · rw [h]
      norm_num
    · rw [max_eq_right h] at hle hge
      omega

/-! ### Votes of peers that are gone -/

/-- A network without losses and timeouts. -/
def calm : NetworkConditionVector := ⟨0, 0, 0, 0, 0, 0⟩

/-- A yes vote of each of the peers for the first proposal. -/
def yesFrom (peers reachablePeers : List Str) : List BallotOp :=
  .maybeStartProposal 0 0 id :: peers.map fun peerId =>
    .registerVote ⟨proposalId 1, peerId, true⟩ reachablePeers calm 1 1

/-- Two peers vote; then they are gone, and two others are there. -/
def goneVoters : List BallotOp :=
  yesFrom ["p1", "p2"] ["p1", "p2", "p3", "p4"]

/-- `n` peers. -/
def peers (n : ℕ) : List Str := (List.range n).map fun i => [codeUnit i]

end Mesh
