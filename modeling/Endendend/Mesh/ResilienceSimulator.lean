/-
**A tick of the mesh** (`MeshResilienceSimulator` of `vertex2/meshResilienceSimulator.ts`).

At every tick the votes whose time has come are taken from the retry queue and handed to the
consensus engine; then a proposal may start, and every peer that is not offline votes: its vote goes
to the retry queue, or during a blackout to the buffer of the peer.  When a partition ends the
buffers are emptied.  A tick carries the peers, the conditions of the network and the random draws.

Main definitions:

* `Mesh.MeshStepContext` — what a tick is given;
* `Mesh.MeshResilienceSimulator` — the state, with the history of the votes;
* `Mesh.drainVotes`, `Mesh.deliverVote`, `Mesh.produceVote`, `Mesh.endPartition` — the parts of a
  tick that move votes;
* `Mesh.MeshResilienceSimulator.step` — the tick.
-/
import Endendend.Mesh.ConsensusEngine
import Endendend.Mesh.WaitingVotes
import Endendend.Vertex.MissionPhases

set_option relaxedAutoImplicit false
set_option autoImplicit false

namespace Mesh

open Js

/-! ### What a tick is given -/

inductive PeerHealth
  | ok
  | degraded
  | isolated
  | offline
  | recovering
  deriving DecidableEq

structure MeshPeer where
  peerId : Str
  health : PeerHealth
  latencyBiasMs : ℚ
  lossSensitivity01 : ℚ
  byzantineLike01 : ℚ

structure SwarmNode where
  nodeId : Str
  offline : Bool

/-- The arguments of a tick with the peers and the conditions of the network; the draws are
numbered. -/
structure MeshStepContext where
  nowMs : ℚ
  connectivityMode : Vertex.VertexConnectivityMode
  nodes : List SwarmNode
  peers : KeyedMap MeshPeer.peerId
  stalePeers : List Str
  partitionClusters : ℕ
  manualPartition : Bool
  vector : NetworkConditionVector
  rng : ℕ → ℚ

namespace MeshStepContext

def reachablePopulation (ctx : MeshStepContext) : List Str :=
  (ctx.nodes.filter fun n => !n.offline).map (·.nodeId)

/-- The number of clusters that a manual partition makes. -/
def syntheticClusters (ctx : MeshStepContext) : ℕ :=
  if ctx.manualPartition = false ∨ ctx.nodes.length < 4 then 1 else 2

def partitionActive (ctx : MeshStepContext) : Bool :=
  decide (1 < ctx.partitionClusters) || (ctx.manualPartition && decide (1 < ctx.syntheticClusters))

/-- The peers that vote on a new proposal. -/
def voters (ctx : MeshStepContext) : List MeshPeer :=
  ctx.peers.values.filter fun p => p.health ≠ .offline

end MeshStepContext

/-! ### The state -/

/-- A vote of a peer on a proposal, whichever way it goes. -/
structure Ballot where
  proposalId : Str
  peerId : Str
  deriving DecidableEq

def VotePayload.ballot (vote : VotePayload) : Ballot := ⟨vote.proposalId, vote.peerId⟩

def BufferedMeshOp.ballot (op : BufferedMeshOp) : Ballot := ⟨op.proposalId, op.peerId⟩

structure MeshStats where
  deliveredVotes : ℕ
  droppedVotes : ℕ
  delayedDeliveries : ℕ
  duplicates : ℕ
  bufferedWhileOffline : ℕ

/-- The events of the ledger that tell of votes and partitions. -/
inductive MeshEvent
  | consensus_committed (proposalId : Str) (votesYes : ℕ)
  | consensus_rejected (proposalId : Str)
  | proposal_created (proposalId summary : Str)
  | partition_start (clusters : ℕ)
  | partition_end
  | recovery_sync (replayedVotes : ℕ)
  deriving DecidableEq

/-- The simulator.  The last four fields are the history of the votes: those that were produced,
those that were given up after their retries, those handed to `registerVote`, and those that a full
buffer or a drained one has let go.  No operation reads them. -/
structure MeshResilienceSimulator where
  consensus : MeshConsensusEngine
  recovery : MeshRecoveryManager
  voteQueue : RetryQueue VotePayload
  stats : MeshStats
  partitionWasActive : Bool
  ledger : List MeshEvent
  produced : List Ballot
  dead : List Ballot
  handed : List Ballot
  lost : List Ballot

def MeshResilienceSimulator.new : MeshResilienceSimulator :=
  ⟨.new, .empty, .empty, ⟨0, 0, 0, 0, 0⟩, false, [], [], [], [], []⟩

/-- The simulator within a tick, and the number of draws made. -/
structure TickLoop where
  sim : MeshResilienceSimulator
  drawn : ℕ

/-! ### Delivery -/

/-- How the votes of the queue are drained. -/
def drainOptions (ctx : MeshStepContext) : DrainOptions VotePayload where
  shouldDrop env draw :=
    let sens := ((ctx.peers.get? env.payload.peerId).map (·.lossSensitivity01)).getD (3 / 10)
    let pLoss := clamp01 (ctx.vector.loss01 * (65 / 100 + sens * (5 / 10)) +
      ctx.vector.timeoutChance01 * (25 / 100))
    decide (draw < pLoss)
  backoffMs env := 120 + (env.attempts : ℚ) * 90 + ⌊ctx.vector.ackDelayMs * (35 / 100)⌋
  maxAttempts := 5

/-- Takes from the queue what is ready; the dead votes are counted. -/
def drainVotes (ctx : MeshStepContext) (s : MeshResilienceSimulator) :
    TickLoop × List (RetryEnvelope VotePayload) :=
  let (voteQueue, drained) := s.voteQueue.drain ctx.nowMs (drainOptions ctx) ctx.rng 0
  (⟨{ s with
      voteQueue
      stats := { s.stats with droppedVotes := s.stats.droppedVotes + drained.dead.length }
      dead := s.dead ++ drained.dead.map fun env => env.payload.ballot }, drained.drawn⟩,
    drained.ready)

/-- The events of a registered vote. -/
def decisionEvents (res : VoteResult) : List MeshEvent :=
  (res.committed.map fun p => .consensus_committed p.id p.votesYes.card).toList ++
    (res.rejected.map fun p => .consensus_rejected p.id).toList

/-- Hands a vote to the consensus engine, which makes a draw if it counts the vote. -/
def deliverVote (ctx : MeshStepContext) (l : TickLoop) (env : RetryEnvelope VotePayload) :
    TickLoop :=
  let s := l.sim
  let dup := if ctx.rng l.drawn < ctx.vector.dup01 then 1 else 0
  let (consensus, res) :=
    s.consensus.registerVote env.payload ctx.reachablePopulation ctx.vector
      (ctx.rng (l.drawn + 1)) ctx.nowMs
  { sim :=
      { s with
        consensus
        stats :=
          { s.stats with
            deliveredVotes := s.stats.deliveredVotes + 1
            duplicates := s.stats.duplicates + dup
            delayedDeliveries := s.stats.delayedDeliveries + dup }
        ledger := s.ledger ++ decisionEvents res
        handed := s.handed ++ [env.payload.ballot] }
    drawn := l.drawn + 1 + if (s.consensus.votedOn env.payload).isSome then 1 else 0 }

/-- The first part of a tick: the votes that are ready are delivered. -/
def deliverVotes (ctx : MeshStepContext) (s : MeshResilienceSimulator) : TickLoop :=
  let (l, ready) := drainVotes ctx s
  ready.foldl (deliverVote ctx) l

/-! ### Production -/

/-- During a blackout a small draw sends a vote to the buffer.  The draw is the second one that the
vote makes. -/
def buffers (ctx : MeshStepContext) (drawn : ℕ) : Bool :=
  decide (ctx.connectivityMode = .blackout) && decide (ctx.rng (drawn + 1) < 45 / 100)

/-- How many draws a vote makes: for the jitter, during a blackout for the buffer, and for its
side unless it is buffered. -/
def voteDraws (ctx : MeshStepContext) (drawn : ℕ) : ℕ :=
  if buffers ctx drawn then 2 else if ctx.connectivityMode = .blackout then 3 else 2

/-- A peer votes on a new proposal. -/
def produceVote (ctx : MeshStepContext) (proposalId : Str) (l : TickLoop) (p : MeshPeer) :
    TickLoop :=
  let s := l.sim
  let delay := ctx.vector.baseLatencyMs + ctx.vector.jitterMs * ctx.rng l.drawn +
    p.latencyBiasMs + if p.peerId ∈ ctx.stalePeers then ctx.vector.ackDelayMs else 0
  let drawn := l.drawn + voteDraws ctx l.drawn
  let produced := s.produced ++ [⟨proposalId, p.peerId⟩]
  if buffers ctx l.drawn then
    let op : BufferedMeshOp := ⟨ctx.nowMs, lit "consensus_vote", proposalId, p.peerId⟩
    { sim :=
        { s with
          stats := { s.stats with bufferedWhileOffline := s.stats.bufferedWhileOffline + 1 }
          recovery := s.recovery.bufferForPeer p.peerId op
          produced
          lost := s.lost ++ (s.recovery.pushedOut p.peerId op).map BufferedMeshOp.ballot }
      drawn }
  else
    -- the side is the last draw of the vote
    let yes := decide (p.byzantineLike01 + 8 / 100 < ctx.rng (drawn - 1))
    { sim :=
        { s with
          voteQueue := s.voteQueue.enqueue (ctx.nowMs + delay) ⟨proposalId, p.peerId, yes⟩
          produced }
      drawn }

/-- The second part of a tick: a proposal may start, and then all voters vote. -/
def produceVotes (ctx : MeshStepContext) (l : TickLoop) : TickLoop :=
  let s := l.sim
  let summary (id : Str) : Str := lit "Proof-of-Coordination batch " ++ id
  let (consensus, proposal) := s.consensus.maybeStartProposal ctx.nowMs (ctx.rng l.drawn) summary
  let drawn := l.drawn + if s.consensus.open?.isSome then 0 else 1
  match proposal with
  | none => { l with drawn }
  | some proposal =>
    let s :=
      { s with
        consensus
        ledger := s.ledger ++ [.proposal_created proposal.id proposal.summary] }
    ctx.voters.foldl (produceVote ctx proposal.id) ⟨s, drawn⟩

/-! ### The tick -/

/-- The last part of a tick: a partition starts or ends, and at its end the buffers are emptied. -/
def endPartition (ctx : MeshStepContext) (s : MeshResilienceSimulator) : MeshResilienceSimulator :=
  let active := ctx.partitionActive
  let s :=
    if active && !s.partitionWasActive then
      let clusters := max ctx.partitionClusters ctx.syntheticClusters
      { s with ledger := s.ledger ++ [.partition_start clusters] }
    else if !active && s.partitionWasActive then
      let (recovery, pending) := s.recovery.drainAll
      let sync := if pending = [] then [] else [MeshEvent.recovery_sync pending.length]
      { s with
        recovery
        ledger := s.ledger ++ .partition_end :: sync
        lost := s.lost ++ pending.map BufferedMeshOp.ballot }
    else s
  { s with partitionWasActive := active }

/-- A tick. -/
def MeshResilienceSimulator.step (s : MeshResilienceSimulator) (ctx : MeshStepContext) :
    Option MeshResilienceSimulator :=
  some (endPartition ctx (produceVotes ctx (deliverVotes ctx s)).sim)

end Mesh
