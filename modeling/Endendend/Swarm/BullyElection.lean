/-
**The bully election** (`swarm/bully_election.py`).

A node collects the candidates it hears of while its election is in progress and then takes the
best one for its leader.  A node that is announced as the winner becomes the leader at once.

Main definitions:

* `Swarm.NodeId` — node ids;
* `Swarm.CandidateInfo`, `Swarm.CandidateInfo.Before` — candidates and the comparison `__lt__`;
* `Swarm.BullyElection` with `startElection`, `receiveElectionMessage`, `receiveElectionWin`,
  `declareVictory` and `tick` — the node.

Main results:

* `Swarm.before_iff` — the comparison is a linear order: depth, then battery, then id;
* `Swarm.winner_rank_le` — no candidate ranks before the winner of a table.
-/
import Endendend.Foundation.OrderedMap
import Mathlib.Data.List.Lex
import Mathlib.Data.List.Sort
import Mathlib.Data.Prod.Lex
import Mathlib.Algebra.Order.Ring.Rat
import Mathlib.Order.OrderDual

set_option relaxedAutoImplicit false
set_option autoImplicit false

namespace Swarm

open Js

/-! ### Node ids -/

/-- A node id: a string, compared code point by code point. -/
structure NodeId where
  codePoints : List ℕ

instance : Coe String NodeId := ⟨fun s => ⟨s.toList.map Char.toNat⟩⟩

theorem NodeId.codePoints_injective : Function.Injective NodeId.codePoints := by
  rintro ⟨a⟩ ⟨b⟩ h
  exact congrArg NodeId.mk h

instance : LinearOrder NodeId := LinearOrder.lift' NodeId.codePoints NodeId.codePoints_injective

/-! ### Candidates -/

-- nothing below depends on what ids are, except that they are compared
variable {Id : Type*} [LinearOrder Id]

inductive ElectionState
  | idle
  | electionInProgress
  | elected
  | follower
  deriving DecidableEq

/-- A candidate in the election. -/
structure CandidateInfo (Id : Type*) where
  nodeId : Id
  depth : ℚ
  battery : ℚ
  lastSeenMs : ℤ
  isAlive : Bool

/-- The comparison of candidates: the deeper one comes first, then the one with more battery, then
the one with the smaller id. -/
def CandidateInfo.Before (a b : CandidateInfo Id) : Prop :=
  if a.depth ≠ b.depth then a.depth > b.depth
  else if a.battery ≠ b.battery then a.battery > b.battery
  else a.nodeId < b.nodeId

instance (a b : CandidateInfo Id) : Decidable (a.Before b) := by
  unfold CandidateInfo.Before
  infer_instance

/-- What candidates are compared by. -/
def CandidateInfo.rank (c : CandidateInfo Id) : ℚᵒᵈ ×ₗ ℚᵒᵈ ×ₗ Id :=
  toLex (OrderDual.toDual c.depth, toLex (OrderDual.toDual c.battery, c.nodeId))

/-- **The comparison is a linear order.** -/
theorem before_iff (a b : CandidateInfo Id) : a.Before b ↔ a.rank < b.rank := by
  unfold CandidateInfo.Before CandidateInfo.rank
  rw [Prod.Lex.toLex_lt_toLex, Prod.Lex.toLex_lt_toLex]
  simp only [OrderDual.toDual_lt_toDual, OrderDual.toDual_inj]
  by_cases hdepth : a.depth = b.depth
  · by_cases hbattery : a.battery = b.battery <;> simp [hdepth, hbattery]
  · simp [hdepth]

/-- The order of the sorted candidates. -/
def CandidateInfo.SortsBefore (a b : CandidateInfo Id) : Prop := ¬ b.Before a

instance : DecidableRel (@CandidateInfo.SortsBefore Id _) :=
  fun a b => inferInstanceAs (Decidable (¬ b.Before a))

theorem sortsBefore_iff (a b : CandidateInfo Id) : a.SortsBefore b ↔ a.rank ≤ b.rank := by
  rw [CandidateInfo.SortsBefore, before_iff, not_lt]

instance : Std.Total (@CandidateInfo.SortsBefore Id _) :=
  ⟨fun a b => by simpa only [sortsBefore_iff] using le_total a.rank b.rank⟩

instance : IsTrans (CandidateInfo Id) CandidateInfo.SortsBefore :=
  ⟨fun a b c => by simpa only [sortsBefore_iff] using le_trans⟩

/-! ### The node -/

/-- A node and what it knows of the election. -/
structure BullyElection (Id : Type*) [LinearOrder Id] where
  nodeId : Id
  depth : ℚ
  battery : ℚ
  electionTimeoutS : ℚ
  heartbeatTimeoutS : ℚ
  state : ElectionState
  currentLeader : Option Id
  candidates : KeyedMap (CandidateInfo.nodeId : CandidateInfo Id → Id)
  electionStartMs : ℤ
  lastHeartbeatFromLeaderMs : ℤ
  higherPriorityExists : Bool

namespace BullyElection

/-- A node before its first election. -/
def new (nodeId : Id) (depth battery electionTimeoutS heartbeatTimeoutS : ℚ) :
    BullyElection Id where
  nodeId
  depth
  battery
  electionTimeoutS
  heartbeatTimeoutS
  state := .idle
  currentLeader := none
  candidates := ∅
  electionStartMs := 0
  lastHeartbeatFromLeaderMs := 0
  higherPriorityExists := false

variable (n : BullyElection Id)

/-- The node as a candidate. -/
def selfInfo (clock : ℤ) : CandidateInfo Id := ⟨n.nodeId, n.depth, n.battery, clock, true⟩

/-- A new round: the table of candidates holds the node alone. -/
def startElection (clock : ℤ) : BullyElection Id :=
  { n with
    state := .electionInProgress
    electionStartMs := clock
    higherPriorityExists := false
    candidates := (∅ : KeyedMap CandidateInfo.nodeId).put (n.selfInfo clock) }

/-- A peer takes part in the election. -/
def receiveElectionMessage (sender : Id) (depth battery : ℚ) (clock : ℤ) : BullyElection Id :=
  let senderInfo : CandidateInfo Id := ⟨sender, depth, battery, clock, true⟩
  { n with
    candidates := n.candidates.put senderInfo
    higherPriorityExists :=
      if senderInfo.Before (n.selfInfo clock) then true else n.higherPriorityExists }

/-- A peer announces that it has won. -/
def receiveElectionWin (leaderId : Id) (depth battery : ℚ) (clock : ℤ) : BullyElection Id :=
  { n with
    currentLeader := some leaderId
    lastHeartbeatFromLeaderMs := clock
    state := .follower
    candidates := n.candidates.put ⟨leaderId, depth, battery, clock, true⟩ }

def declareVictory (clock : ℤ) : BullyElection Id :=
  { n with
    state := .elected
    currentLeader := some n.nodeId
    lastHeartbeatFromLeaderMs := clock }

/-- The best candidate of the table. -/
def winner : Option (CandidateInfo Id) :=
  (n.candidates.values.insertionSort CandidateInfo.SortsBefore).head?

/-- The end of the election. -/
def finalizeElection (clock : ℤ) : BullyElection Id × Option Id :=
  match n.winner with
  | none => (n, none)
  | some winner =>
    let decided :=
      if winner.nodeId = n.nodeId then n.declareVictory clock
      else n.receiveElectionWin winner.nodeId winner.depth winner.battery clock
    ({ decided with
        state := if winner.nodeId ≠ n.nodeId then .follower else .elected
        currentLeader := some winner.nodeId }, some winner.nodeId)

/-- Has the node not heard from its leader for too long? -/
def LeaderTimedOut (nowMs : ℤ) : Prop :=
  (∃ leader ∈ n.currentLeader, leader ≠ n.nodeId) ∧
    ((nowMs - n.lastHeartbeatFromLeaderMs : ℤ) : ℚ) > n.heartbeatTimeoutS * 1000

instance (nowMs : ℤ) : Decidable (n.LeaderTimedOut nowMs) :=
  match h : n.currentLeader with
  | none => isFalse fun ht => by
      obtain ⟨⟨leader, hl, _⟩, _⟩ := ht
      rw [h] at hl
      exact nomatch hl
  | some leader =>
    decidable_of_iff (leader ≠ n.nodeId ∧
      ((nowMs - n.lastHeartbeatFromLeaderMs : ℤ) : ℚ) > n.heartbeatTimeoutS * 1000) (by
        unfold LeaderTimedOut
        rw [h]
        simp)

/-- The clock: a lost leader starts a new election, and an election that has run long enough is
decided. -/
def tick (nowMs clock : ℤ) : BullyElection Id × Option Id :=
  let n := if n.LeaderTimedOut nowMs then n.startElection clock else n
  if n.state = .electionInProgress ∧
      ((nowMs - n.electionStartMs : ℤ) : ℚ) > n.electionTimeoutS * 1000 then
    n.finalizeElection clock
  else (n, none)

def isLeader : Bool := n.currentLeader = some n.nodeId

end BullyElection

/-! ### The winner -/

section Winner

variable {n : BullyElection Id} {c w : CandidateInfo Id}

theorem mem_of_winner (h : n.winner = some w) : w ∈ n.candidates.values :=
  (List.perm_insertionSort _ _).mem_iff.1 (List.mem_of_mem_head? h)

/-- No candidate ranks before the winner. -/
theorem winner_rank_le (h : n.winner = some w) (hc : c ∈ n.candidates.values) :
    w.rank ≤ c.rank := by
  have hsorted := List.pairwise_insertionSort CandidateInfo.SortsBefore n.candidates.values
  have hmem : c ∈ n.candidates.values.insertionSort CandidateInfo.SortsBefore :=
    (List.perm_insertionSort _ _).mem_iff.2 hc
  unfold BullyElection.winner at h
  cases hl : n.candidates.values.insertionSort CandidateInfo.SortsBefore with
  | nil =>
      rw [hl] at hmem
      exact absurd hmem List.not_mem_nil
  | cons a l =>
      rw [hl] at h hmem hsorted
      obtain rfl := Option.some.inj h
      rcases List.mem_cons.1 hmem with rfl | hmem
      · exact le_refl _
      · exact (sortsBefore_iff _ c).1 ((List.pairwise_cons.1 hsorted).1 c hmem)

end Winner

end Swarm
