/-
**What becomes of a vote** (`vertex2/meshResilienceSimulator.ts`, `vertex2/recoveryManager.ts`).

A vote waits in the retry queue until it is handed to the consensus engine or given up, and a vote
that is cast during a blackout waits in the buffer of its peer.  The buffers are emptied when a
partition ends, but only the number of the drained votes is used; and a full buffer lets its oldest
vote go.

Main definitions:

* `Mesh.places` — the votes that wait, that were given up, and that were handed over;
* `Mesh.VotesSurvive` — every vote is in exactly one place;
* `Mesh.bufferedVoters`, `Mesh.KeepsVotes` — the votes that a tick buffers, and the ticks that let
  no vote go;
* `Mesh.Accounted` — every vote is in one place or lost.

Main results:

* `Mesh.accounted_step`, `Mesh.lost_step_iff` — what a tick keeps, and when it loses a vote;
* `Mesh.votes_survive_iff` — **along a run every vote stays in exactly one place if and only if no
  tick ends a partition while votes are buffered and none adds a vote to a full buffer**;
* `Mesh.healed_votes_are_lost` — a blackout, and the end of the partition.
-/
import Endendend.Foundation.Runs
import Endendend.Mesh.ResilienceSimulator

set_option relaxedAutoImplicit false
set_option autoImplicit false

namespace Mesh

open Js

/-! ### Places -/

/-- Where the votes are: in the buffers, in the queue, given up, or handed over. -/
def places (s : MeshResilienceSimulator) : List Ballot :=
  s.recovery.ops.map BufferedMeshOp.ballot ++
    (s.voteQueue.items.map fun env => env.payload.ballot) ++ s.dead ++ s.handed

/-- Every vote is in exactly one place, and the votes that were given up are counted. -/
structure VotesSurvive (s : MeshResilienceSimulator) : Prop where
  once : ∀ b ∈ s.produced, (places s).count b = 1
  counted : s.stats.droppedVotes = s.dead.length

/-- The peers whose votes are buffered, when the voters make their draws from a number on. -/
def bufferedPeers (ctx : MeshStepContext) : ℕ → List MeshPeer → List Str
  | _, [] => []
  | drawn, p :: ps =>
    (if buffers ctx drawn then [p.peerId] else []) ++
      bufferedPeers ctx (drawn + voteDraws ctx drawn) ps

/-- The peers whose votes a tick buffers: there are none unless a proposal starts. -/
def bufferedVoters (s : MeshResilienceSimulator) (ctx : MeshStepContext) : List Str :=
  let l := deliverVotes ctx s
  if l.sim.consensus.open?.isSome ∨ 22 / 100 < ctx.rng l.drawn then []
  else bufferedPeers ctx (l.drawn + 1) ctx.voters

/-- No vote is added to a full buffer, and no partition ends while votes are buffered. -/
structure KeepsVotes (s : MeshResilienceSimulator) (ctx : MeshStepContext) : Prop where
  room : ∀ peerId ∈ bufferedVoters s ctx, (s.recovery.bufferOf peerId).length < 120
  heals : ctx.partitionActive = false → s.partitionWasActive = true →
    s.recovery.ops = [] ∧ bufferedVoters s ctx = []

/-- Operations are counted by their votes. -/
theorem count_map_ballot (ops : List BufferedMeshOp) (b : Ballot) :
    (ops.map BufferedMeshOp.ballot).count b = ops.countP (fun op => op.ballot = b) := by
  rw [List.count, List.countP_map]
  exact List.countP_congr fun op _ => by simp

/-- How often a vote is in a place or lost. -/
def weight (s : MeshResilienceSimulator) (b : Ballot) : ℕ :=
  s.recovery.ops.countP (fun op => op.ballot = b) +
    RetryQueue.countItems VotePayload.ballot b s.voteQueue.items + s.dead.count b +
      s.handed.count b + s.lost.count b

theorem weight_eq (s : MeshResilienceSimulator) (b : Ballot) :
    weight s b = (places s).count b + s.lost.count b := by
  rw [weight, places, List.count_append, List.count_append, List.count_append, count_map_ballot]
  rfl

/-- The state of the votes: each is in one place or lost, none is produced twice, the proposals are
numbered, and the votes that were given up are counted. -/
structure Accounted (s : MeshResilienceSimulator) : Prop where
  moved : ∀ b, weight s b = s.produced.count b
  nodup : s.produced.Nodup
  numbered : ∀ b ∈ s.produced, ∃ n ≤ s.consensus.seq,
    b.proposalId = MeshConsensusEngine.proposalId n
  counted : s.stats.droppedVotes = s.dead.length

/-- **All votes survive if and only if none is lost.** -/
theorem Accounted.survive_iff {s : MeshResilienceSimulator} (h : Accounted s) :
    VotesSurvive s ↔ s.lost = [] := by
  constructor
  · intro hs
    refine List.eq_nil_iff_forall_not_mem.2 fun b hb => ?_
    have hlost : 0 < s.lost.count b := List.count_pos_iff.2 hb
    have hweight := weight_eq s b
    rw [h.moved] at hweight
    have hmem : b ∈ s.produced := List.count_pos_iff.1 (by omega)
    have hone := List.count_eq_one_of_mem h.nodup hmem
    have honce := hs.once b hmem
    omega
  · intro hlost
    refine ⟨fun b hb => ?_, h.counted⟩
    have hweight := weight_eq s b
    rw [h.moved, hlost, List.count_eq_one_of_mem h.nodup hb, List.count_nil] at hweight
    omega

/-! ### Delivery -/

/-- A tick has not come to its votes: nothing is produced, buffered or lost. -/
structure SameBuffers (s s' : MeshResilienceSimulator) : Prop where
  produced : s'.produced = s.produced
  recovery : s'.recovery = s.recovery
  lost : s'.lost = s.lost
  partitionWasActive : s'.partitionWasActive = s.partitionWasActive
  seq : s'.consensus.seq = s.consensus.seq

theorem seq_registerVote (s : MeshConsensusEngine) (vote : VotePayload) (reachablePeers : List Str)
    (vector : NetworkConditionVector) (draw nowMs : ℚ) :
    (s.registerVote vote reachablePeers vector draw nowMs).1.seq = s.seq := by
  unfold MeshConsensusEngine.registerVote
  cases s.votedOn vote with
  | none => rfl
  | some p =>
      simp only
      split
      · rfl
      · split <;> rfl

theorem weight_drainVotes (ctx : MeshStepContext) (s : MeshResilienceSimulator) (b : Ballot) :
    weight s b = weight (drainVotes ctx s).1.sim b +
      RetryQueue.countItems VotePayload.ballot b (drainVotes ctx s).2 := by
  have hdrain := RetryQueue.count_drain VotePayload.ballot b s.voteQueue ctx.nowMs
    (drainOptions ctx) ctx.rng 0
  simp only [drainVotes, weight, List.count_append]
  simp only [RetryQueue.countItems] at hdrain ⊢
  omega

theorem weight_deliverVote (ctx : MeshStepContext) (l : TickLoop)
    (env : RetryEnvelope VotePayload) (b : Ballot) :
    weight (deliverVote ctx l env).sim b =
      weight l.sim b + RetryQueue.countItems VotePayload.ballot b [env] := by
  simp only [deliverVote, weight, List.count_append, RetryQueue.countItems, List.map_singleton]
  omega

/-- Delivering the votes that are ready changes no buffer, and loses no vote. -/
theorem deliverVotes_spec (ctx : MeshStepContext) (s : MeshResilienceSimulator) :
    SameBuffers s (deliverVotes ctx s).sim ∧
      (∀ b, weight (deliverVotes ctx s).sim b = weight s b) ∧
      (s.stats.droppedVotes = s.dead.length →
        (deliverVotes ctx s).sim.stats.droppedVotes = (deliverVotes ctx s).sim.dead.length) := by
  -- in the fold the envelopes that are still to come count as a place
  have hfold : ∀ (ready : List (RetryEnvelope VotePayload)) (l : TickLoop),
      let l' := ready.foldl (deliverVote ctx) l
      SameBuffers l.sim l'.sim ∧
        (∀ b, weight l'.sim b =
          weight l.sim b + RetryQueue.countItems VotePayload.ballot b ready) ∧
        l'.sim.stats.droppedVotes = l.sim.stats.droppedVotes ∧ l'.sim.dead = l.sim.dead := by
    intro ready
    induction ready with
    | nil => exact fun l => ⟨⟨rfl, rfl, rfl, rfl, rfl⟩, fun b => rfl, rfl, rfl⟩
    | cons env ready ih =>
        intro l
        obtain ⟨hsame, hweight, hdropped, hdead⟩ := ih (deliverVote ctx l env)
        refine ⟨⟨hsame.produced, hsame.recovery, hsame.lost, hsame.partitionWasActive, ?_⟩,
          fun b => ?_, hdropped, hdead⟩
        · exact hsame.seq.trans (seq_registerVote _ _ _ _ _ _)
        · have hone := weight_deliverVote ctx l env b
          have hcons := RetryQueue.countItems_append VotePayload.ballot b [env] ready
          have hrest := hweight b
          simp only [List.foldl_cons, List.singleton_append] at hcons hrest ⊢
          omega
  obtain ⟨hsame, hweight, hdropped, hdead⟩ := hfold (drainVotes ctx s).2 (drainVotes ctx s).1
  refine ⟨⟨hsame.produced, hsame.recovery, hsame.lost, hsame.partitionWasActive, hsame.seq⟩,
    fun b => ?_, fun hcounted => ?_⟩
  · exact (hweight b).trans (weight_drainVotes ctx s b).symm
  · rw [deliverVotes]
    simp only
    -- only the drain gives votes up, and it counts them
    rw [hdropped, hdead]
    simp only [drainVotes, List.length_append, List.length_map, hcounted]

/-! ### Production -/

/-- The ballots of the voters on a proposal. -/
def ballotsOf (proposalId : Str) (voters : List MeshPeer) : List Ballot :=
  voters.map fun p => ⟨proposalId, p.peerId⟩

theorem weight_produceVote (ctx : MeshStepContext) (proposalId : Str) (l : TickLoop) (p : MeshPeer)
    (b : Ballot) : weight (produceVote ctx proposalId l p).sim b =
      weight l.sim b + (ballotsOf proposalId [p]).count b := by
  have hcount : ∀ op : BufferedMeshOp, op.ballot = ⟨proposalId, p.peerId⟩ →
      [op].countP (fun op => op.ballot = b) = (ballotsOf proposalId [p]).count b := by
    intro op hop
    rw [ballotsOf, List.map_singleton, List.countP_singleton, List.count_singleton, hop]
    simp
  unfold produceVote
  by_cases h : buffers ctx l.drawn = true
  · have hbuffer := l.sim.recovery.count_bufferForPeer p.peerId
      ⟨ctx.nowMs, lit "consensus_vote", proposalId, p.peerId⟩ (fun op => op.ballot = b)
    -- what the buffer lets go is counted as lost, so the new vote is the only difference
    rw [hcount _ rfl] at hbuffer
    simp only [if_pos h, weight, List.count_append, count_map_ballot]
    omega
  · simp only [if_neg h, weight, RetryQueue.enqueue, RetryQueue.countItems_append]
    have hitem : RetryQueue.countItems VotePayload.ballot b
        [(⟨lit "rq-" ++ (Decimal.ofInt l.sim.voteQueue.serial).toStr, 0, 0,
          ⟨proposalId, p.peerId, true⟩⟩ : RetryEnvelope VotePayload)] =
        (ballotsOf proposalId [p]).count b := rfl
    simp only [RetryQueue.countItems, List.map_singleton, VotePayload.ballot] at hitem ⊢
    omega

/-- Only voters are buffered. -/
theorem mem_of_mem_bufferedPeers {ctx : MeshStepContext} {voters : List MeshPeer} {drawn : ℕ}
    {peerId : Str} (h : peerId ∈ bufferedPeers ctx drawn voters) :
    peerId ∈ voters.map (·.peerId) := by
  induction voters generalizing drawn with
  | nil => exact absurd h List.not_mem_nil
  | cons p voters ih =>
      rw [bufferedPeers, List.mem_append] at h
      rw [List.map_cons, List.mem_cons]
      rcases h with h | h
      · split at h
        · exact Or.inl (List.mem_singleton.1 h)
        · exact absurd h List.not_mem_nil
      · exact Or.inr (ih h)

/-- The votes on a proposal: each is produced once, and a full buffer that one is added to lets
another one go. -/
theorem foldl_produceVote (ctx : MeshStepContext) (proposalId : Str) (voters : List MeshPeer) :
    ∀ l : TickLoop,
      let l' := voters.foldl (produceVote ctx proposalId) l
      l'.sim.produced = l.sim.produced ++ ballotsOf proposalId voters ∧
        (∀ b, weight l'.sim b = weight l.sim b + (ballotsOf proposalId voters).count b) ∧
        l'.sim.consensus = l.sim.consensus ∧
        l'.sim.stats.droppedVotes = l.sim.stats.droppedVotes ∧ l'.sim.dead = l.sim.dead ∧
        l'.sim.partitionWasActive = l.sim.partitionWasActive := by
  induction voters with
  | nil =>
      intro l
      exact ⟨(List.append_nil _).symm, fun b => rfl, rfl, rfl, rfl, rfl⟩
  | cons p voters ih =>
      intro l
      have hframe : (produceVote ctx proposalId l p).sim.produced =
            l.sim.produced ++ [⟨proposalId, p.peerId⟩] ∧
          (produceVote ctx proposalId l p).sim.consensus = l.sim.consensus ∧
          (produceVote ctx proposalId l p).sim.stats.droppedVotes = l.sim.stats.droppedVotes ∧
          (produceVote ctx proposalId l p).sim.dead = l.sim.dead ∧
          (produceVote ctx proposalId l p).sim.partitionWasActive = l.sim.partitionWasActive := by
        unfold produceVote
        by_cases h : buffers ctx l.drawn = true
        · simp only [if_pos h, and_self]
        · simp only [if_neg h, and_self]
      obtain ⟨hproduced, hconsensus, hdropped, hdead, hactive⟩ := hframe
      obtain ⟨ihproduced, ihweight, ihconsensus, ihdropped, ihdead, ihactive⟩ :=
        ih (produceVote ctx proposalId l p)
      refine ⟨?_, fun b => ?_, ihconsensus.trans hconsensus, ihdropped.trans hdropped,
        ihdead.trans hdead, ihactive.trans hactive⟩
      · rw [List.foldl_cons, ihproduced, hproduced, List.append_assoc]
        rfl
      · rw [List.foldl_cons, ihweight, weight_produceVote, Nat.add_assoc, ← List.count_append]
        rfl

/-- What the votes on a proposal do to the buffers, when every peer votes once. -/
theorem foldl_produceVote_buffers (ctx : MeshStepContext) (proposalId : Str)
    (voters : List MeshPeer) (hnodup : (voters.map (·.peerId)).Nodup) :
    ∀ l : TickLoop,
      let l' := voters.foldl (produceVote ctx proposalId) l
      let buffered := bufferedPeers ctx l.drawn voters
      (l'.sim.lost = [] ↔ l.sim.lost = [] ∧
        ∀ peerId ∈ buffered, (l.sim.recovery.bufferOf peerId).length < 120) ∧
      (l'.sim.recovery.ops = [] ↔ l.sim.recovery.ops = [] ∧ buffered = []) := by
  induction voters with
  | nil => exact fun l => ⟨by simp [bufferedPeers], by simp [bufferedPeers]⟩
  | cons p voters ih =>
      intro l
      rw [List.map_cons, List.nodup_cons] at hnodup
      obtain ⟨ihlost, ihops⟩ := ih hnodup.2 (produceVote ctx proposalId l p)
      have hdrawn : (produceVote ctx proposalId l p).drawn = l.drawn + voteDraws ctx l.drawn := by
        unfold produceVote
        by_cases h : buffers ctx l.drawn = true
        · simp only [if_pos h]
        · simp only [if_neg h]
      rw [hdrawn] at ihlost ihops
      simp only [List.foldl_cons, bufferedPeers]
      rw [ihlost, ihops]
      by_cases h : buffers ctx l.drawn = true
      · -- the peer's own buffer does not come up again
        have hother : ∀ peerId ∈ bufferedPeers ctx (l.drawn + voteDraws ctx l.drawn) voters,
            peerId ≠ p.peerId := by
          intro peerId hmem heq
          exact hnodup.1 (heq ▸ mem_of_mem_bufferedPeers hmem)
        rw [if_pos h]
        unfold produceVote
        simp only [if_pos h, List.append_eq_nil_iff, List.map_eq_nil_iff,
          MeshRecoveryManager.pushedOut_eq_nil_iff, List.singleton_append, List.mem_cons,
          forall_eq_or_imp, and_assoc]
        refine ⟨and_congr_right fun _ => and_congr_right fun _ => forall₂_congr fun peerId hmem =>
          ?_, iff_of_false (fun hnil => ?_) (by simp)⟩
        · rw [MeshRecoveryManager.bufferOf_bufferForPeer, if_neg (hother peerId hmem)]
        · exact MeshRecoveryManager.ops_bufferForPeer_ne_nil _ _ _ hnil.1
      · rw [if_neg h, List.nil_append]
        unfold produceVote
        constructor
        · simp only [if_neg h]
        · simp only [if_neg h]

theorem nodup_voters (ctx : MeshStepContext) : (ctx.voters.map (·.peerId)).Nodup :=
  ctx.peers.nodup_map_values.sublist (List.filter_sublist.map _)

/-- The ballots on a new proposal are new. -/
theorem nodup_append_ballotsOf {s : MeshResilienceSimulator} (h : Accounted s)
    {voters : List MeshPeer} (hnodup : (voters.map (·.peerId)).Nodup) :
    (s.produced ++ ballotsOf (MeshConsensusEngine.proposalId (s.consensus.seq + 1))
      voters).Nodup := by
  refine h.nodup.append ?_ fun b hb hnew => ?_
  · have hballots : ballotsOf (MeshConsensusEngine.proposalId (s.consensus.seq + 1)) voters =
        (voters.map (·.peerId)).map
          (Ballot.mk (MeshConsensusEngine.proposalId (s.consensus.seq + 1))) := by
      rw [ballotsOf, List.map_map]
      rfl
    rw [hballots]
    exact hnodup.map fun p q heq => (Ballot.mk.inj heq).2
  · obtain ⟨n, hn, hid⟩ := h.numbered b hb
    obtain ⟨p, -, rfl⟩ := List.mem_map.1 hnew
    have := MeshConsensusEngine.proposalId_injective hid
    omega

/-- What the second part of a tick does to the votes. -/
theorem produceVotes_spec (ctx : MeshStepContext) (l : TickLoop) (h : Accounted l.sim) :
    let l' := produceVotes ctx l
    let buffered := if l.sim.consensus.open?.isSome ∨ 22 / 100 < ctx.rng l.drawn then []
      else bufferedPeers ctx (l.drawn + 1) ctx.voters
    Accounted l'.sim ∧ l'.sim.partitionWasActive = l.sim.partitionWasActive ∧
      (l'.sim.lost = [] ↔ l.sim.lost = [] ∧
        ∀ peerId ∈ buffered, (l.sim.recovery.bufferOf peerId).length < 120) ∧
      (l'.sim.recovery.ops = [] ↔ l.sim.recovery.ops = [] ∧ buffered = []) := by
  unfold produceVotes MeshConsensusEngine.maybeStartProposal
  by_cases hopen : l.sim.consensus.open?.isSome = true
  · simp [hopen, h]
  · by_cases hdraw : 22 / 100 < ctx.rng l.drawn
    · simp [hopen, hdraw, h]
    · simp only [hopen, hdraw, if_false, or_self, Bool.false_eq_true]
      -- a proposal starts; its number is new, and so are the ballots on it
      set id := MeshConsensusEngine.proposalId (l.sim.consensus.seq + 1) with hid
      obtain ⟨hproduced, hweight, hconsensus, hdropped, hdead, hactive⟩ :=
        foldl_produceVote ctx id ctx.voters ⟨_, l.drawn + 1⟩
      obtain ⟨hlost, hops⟩ := foldl_produceVote_buffers ctx id ctx.voters (nodup_voters ctx)
        ⟨_, l.drawn + 1⟩
      refine ⟨⟨fun b => ?_, ?_, fun b hb => ?_, ?_⟩, hactive, hlost, hops⟩
      · rw [hweight, hproduced, List.count_append]
        exact congrArg (· + _) (h.moved b)
      · rw [hproduced]
        exact nodup_append_ballotsOf h (nodup_voters ctx)
      · rw [hconsensus]
        rw [hproduced, List.mem_append] at hb
        rcases hb with hb | hb
        · obtain ⟨n, hn, hb⟩ := h.numbered b hb
          exact ⟨n, Nat.le_succ_of_le hn, hb⟩
        · obtain ⟨p, -, rfl⟩ := List.mem_map.1 hb
          exact ⟨l.sim.consensus.seq + 1, le_rfl, rfl⟩
      · rw [hdropped, hdead]
        exact h.counted

/-! ### The end of a partition -/

theorem endPartition_spec (ctx : MeshStepContext) (s : MeshResilienceSimulator)
    (h : Accounted s) :
    Accounted (endPartition ctx s) ∧
      ((endPartition ctx s).lost = [] ↔ s.lost = [] ∧
        (ctx.partitionActive = false → s.partitionWasActive = true → s.recovery.ops = [])) := by
  unfold endPartition
  cases hactive : ctx.partitionActive with
  | true =>
      cases hwas : s.partitionWasActive with
      | true => exact ⟨⟨h.moved, h.nodup, h.numbered, h.counted⟩, by simp⟩
      | false => exact ⟨⟨h.moved, h.nodup, h.numbered, h.counted⟩, by simp⟩
  | false =>
      cases hwas : s.partitionWasActive with
      | false => exact ⟨⟨h.moved, h.nodup, h.numbered, h.counted⟩, by simp⟩
      | true =>
          -- what is drained leaves the buffers and is lost
          refine ⟨⟨fun b => ?_, h.nodup, h.numbered, h.counted⟩, ?_⟩
          · refine Eq.trans ?_ (h.moved b)
            change 0 + RetryQueue.countItems VotePayload.ballot b s.voteQueue.items +
              s.dead.count b + s.handed.count b +
                (s.lost ++ s.recovery.drainAll.2.map BufferedMeshOp.ballot).count b = _
            rw [List.count_append, count_map_ballot, s.recovery.count_drainAll, weight]
            omega
          · change s.lost ++ s.recovery.drainAll.2.map _ = [] ↔ _
            rw [List.append_eq_nil_iff, List.map_eq_nil_iff,
              MeshRecoveryManager.drainAll_eq_nil_iff]
            simp

/-! ### Ticks -/

theorem accounted_deliverVotes (ctx : MeshStepContext) {s : MeshResilienceSimulator}
    (h : Accounted s) : Accounted (deliverVotes ctx s).sim := by
  obtain ⟨hsame, hweight, hcounted⟩ := deliverVotes_spec ctx s
  refine ⟨fun b => ?_, ?_, fun b hb => ?_, hcounted h.counted⟩
  · rw [hweight, hsame.produced, h.moved]
  · rw [hsame.produced]
    exact h.nodup
  · rw [hsame.seq]
    rw [hsame.produced] at hb
    exact h.numbered b hb

/-- **A tick keeps the account of the votes.** -/
theorem accounted_step {s s' : MeshResilienceSimulator} {ctx : MeshStepContext} (h : Accounted s)
    (hstep : s.step ctx = some s') : Accounted s' := by
  obtain rfl := Option.some.inj hstep
  exact (endPartition_spec ctx _ (produceVotes_spec ctx _ (accounted_deliverVotes ctx h)).1).1

/-- **A tick loses a vote if and only if** it adds one to a full buffer, or ends a partition while
votes are buffered. -/
theorem lost_step_iff {s s' : MeshResilienceSimulator} {ctx : MeshStepContext} (h : Accounted s)
    (hstep : s.step ctx = some s') : s'.lost = [] ↔ s.lost = [] ∧ KeepsVotes s ctx := by
  obtain rfl := Option.some.inj hstep
  obtain ⟨hsame, -, -⟩ := deliverVotes_spec ctx s
  obtain ⟨haccounted, hactive, hlost, hops⟩ :=
    produceVotes_spec ctx _ (accounted_deliverVotes ctx h)
  rw [(endPartition_spec ctx _ haccounted).2, hlost, hops, hactive, hsame.partitionWasActive,
    hsame.recovery, hsame.lost, and_assoc]
  exact and_congr_right fun _ => ⟨fun hk => ⟨hk.1, hk.2⟩, fun hk => ⟨hk.room, hk.heals⟩⟩

theorem accounted_new : Accounted .new where
  moved _ := rfl
  nodup := List.nodup_nil
  numbered _ hb := absurd hb List.not_mem_nil
  counted := rfl

/-- **Along a run every vote stays in exactly one place** — a buffer, the queue, the votes that were
given up, the votes that were handed over — **if and only if no tick adds a vote to a full buffer,
or ends a partition while votes are buffered.** -/
theorem votes_survive_iff {ctxs : List MeshStepContext} {s : MeshResilienceSimulator}
    (hrun : Runs.run MeshResilienceSimulator.step .new ctxs = some s) :
    VotesSurvive s ↔ Runs.Along MeshResilienceSimulator.step KeepsVotes .new ctxs := by
  have haccounted := Runs.invariant_of_run
    (fun _ _ _ h hstep => accounted_step h hstep) accounted_new hrun
  have hlost := Runs.iff_along (fun _ _ _ h hstep => accounted_step h hstep)
    (fun _ _ _ h hstep => lost_step_iff h hstep) accounted_new hrun
  rw [haccounted.survive_iff, hlost]
  exact and_iff_right rfl

/-! ### A blackout -/

/-- A tick of three peers with small draws, in which a proposal starts. -/
def startingTick (mode : Vertex.VertexConnectivityMode) (clusters : ℕ) : MeshStepContext where
  nowMs := 1
  connectivityMode := mode
  nodes := [⟨"p1", false⟩, ⟨"p2", false⟩, ⟨"p3", false⟩]
  peers :=
    (((∅ : KeyedMap MeshPeer.peerId).put ⟨"p1", .ok, 0, 0, 0⟩).put ⟨"p2", .ok, 0, 0, 0⟩).put
      ⟨"p3", .ok, 0, 0, 0⟩
  stalePeers := []
  partitionClusters := clusters
  manualPartition := false
  vector := ⟨0, 0, 0, 0, 0, 0⟩
  rng _ := 0

/-- Without a blackout the votes wait in the queue. -/
theorem votes_survive_iff_normal :
    ∃ s, Runs.run MeshResilienceSimulator.step .new [startingTick .normal 1] = some s ∧
      VotesSurvive s := by
  have hbuffered : bufferedVoters .new (startingTick .normal 1) = [] := by decide +kernel
  have hkeeps : KeepsVotes .new (startingTick .normal 1) := by
    refine ⟨fun peerId hp => ?_, fun _ hactive => absurd hactive Bool.false_ne_true⟩
    rw [hbuffered] at hp
    exact absurd hp List.not_mem_nil
  obtain ⟨s, hs⟩ : ∃ s, Runs.run MeshResilienceSimulator.step .new [startingTick .normal 1] =
      some s := ⟨_, rfl⟩
  exact ⟨s, hs, (votes_survive_iff hs).2 ⟨hkeeps, fun _ _ => trivial⟩⟩

/-- **Three votes are buffered in a blackout; when the partition ends they are drained, counted as
replayed, and in no place any more.** -/
theorem healed_votes_are_lost :
    ∃ s, Runs.run MeshResilienceSimulator.step .new
        [startingTick .blackout 2, startingTick .normal 1] = some s ∧
      s.produced = ["p1", "p2", "p3"].map (Ballot.mk (MeshConsensusEngine.proposalId 1)) ∧
      places s = [] ∧ .recovery_sync 3 ∈ s.ledger ∧ ¬ VotesSurvive s := by
  have hrun : ((Runs.run MeshResilienceSimulator.step .new
      [startingTick .blackout 2, startingTick .normal 1]).map fun s =>
        (s.produced = ["p1", "p2", "p3"].map (Ballot.mk (MeshConsensusEngine.proposalId 1)) ∧
          places s = [] ∧ .recovery_sync 3 ∈ s.ledger : Bool)) = some true := by
    decide +kernel
  obtain ⟨s, hs, hfacts⟩ := Option.map_eq_some_iff.1 hrun
  obtain ⟨hproduced, hplaces, hsync⟩ := of_decide_eq_true hfacts
  refine ⟨s, hs, hproduced, hplaces, hsync, fun h => ?_⟩
  have honce := h.once ⟨MeshConsensusEngine.proposalId 1, "p1"⟩ (by rw [hproduced]; simp)
  rw [hplaces] at honce
  exact absurd honce (by simp)

end Mesh
