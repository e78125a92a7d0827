/-
**What the partition state is computed from** (`swarm/partition_handler.py`).

The state is to follow from the expected peers that have sent a heartbeat lately.  It is computed
from the fresh records and from the length of the list of expected peers.  A record is also fresh
if the peer has only been expected lately, and if it belongs to a peer that nobody expects; and the
list counts a peer twice if it names it twice.

Main definitions:

* `Swarm.PartitionOp`, `Swarm.Observed` — the operations, and a node together with the last list of
  expected peers and the last heartbeat of each peer since it was cleared;
* `Swarm.ReportsReal` — a tick counts the real heartbeats;
* `Swarm.FreshAreReal` — the fresh records are those of expected peers that were heard.

Main results:

* `Swarm.RecordsHeard.aliveCount_eq_iff` — when the count of the records is the real one;
* `Swarm.reports_real_iff` — **the ticks of a run report the real heartbeats if and only if they
  only meet fresh records of expected peers that were heard**;
* `Swarm.silent_peer_counts` — a peer that never sends anything.
-/
import Endendend.Foundation.Runs
import Endendend.Swarm.PartitionHandler
import Mathlib.Data.Finset.Card

set_option relaxedAutoImplicit false
set_option autoImplicit false

namespace Swarm

open Js PartitionHandler

variable {Id : Type*} [DecidableEq Id]

/-! ### Heartbeats -/

/-- The operations; the clock readings are parameters. -/
inductive PartitionOp (Id : Type*)
  | setExpectedPeers (peerIds : List Id) (clock : ℤ)
  | recordHeartbeat (peerId : Id) (sequenceNum clock : ℤ)
  | clearPeer (peerId : Id)
  | tick (nowMs clock : ℤ)

/-- A node, the last list of expected peers, and when each peer was last heard since it was last
cleared. -/
structure Observed (Id : Type*) [DecidableEq Id] where
  handler : PartitionHandler Id
  expected : List Id
  heardMs : Id → Option ℤ

def PartitionOp.apply (s : Observed Id) : PartitionOp Id → Option (Observed Id)
  | .setExpectedPeers peerIds clock =>
    some { s with handler := s.handler.setExpectedPeers peerIds clock, expected := peerIds }
  | .recordHeartbeat peerId sequenceNum clock =>
    some { s with
      handler := s.handler.recordHeartbeat peerId sequenceNum clock
      heardMs := Function.update s.heardMs peerId (some clock) }
  | .clearPeer peerId =>
    some { s with
      handler := s.handler.clearPeer peerId
      heardMs := Function.update s.heardMs peerId none }
  | .tick nowMs clock => some { s with handler := (s.handler.tick nowMs clock).1 }

namespace Observed

/-- A node that expects nobody and has heard nothing. -/
def new (nodeId : Id) (heartbeatTimeoutMs staleTimeoutMs : ℤ) : Observed Id :=
  ⟨.new nodeId heartbeatTimeoutMs staleTimeoutMs, [], fun _ => none⟩

/-- The expected peers, each once. -/
def expectedPeers (s : Observed Id) : Finset Id := s.expected.toFinset

/-- **The expected peers that are alive**: those with a heartbeat less than the timeout ago. -/
def reallyAlive (s : Observed Id) (nowMs : ℤ) : Finset Id :=
  s.expectedPeers.filter fun p => ∃ t ∈ s.heardMs p, nowMs - t < s.handler.heartbeatTimeoutMs

/-- The peers with a fresh record. -/
def freshPeers (s : Observed Id) (nowMs : ℤ) : Finset Id :=
  ((s.handler.heartbeats.values.filter fun r => s.handler.Fresh nowMs r).map
    (·.nodeId)).toFinset

end Observed

/-- A tick counts the expected peers that are alive, and finds a partition exactly if they are less
than half of the expected ones. -/
def ReportsReal (s : Observed Id) : PartitionOp Id → Prop
  | .tick nowMs clock =>
    let status := (s.handler.tick nowMs clock).2.1
    status.alivePeers = (s.reallyAlive nowMs).card ∧
      (status.partitionState = .partitioned ↔
        0 < s.expectedPeers.card ∧ 2 * (s.reallyAlive nowMs).card < s.expectedPeers.card)
  | _ => True

/-- Every fresh record is that of an expected peer that was heard since it was last cleared, and
the list of expected peers is not so much longer than their number that half of it is more. -/
def FreshAreReal (s : Observed Id) : PartitionOp Id → Prop
  | .tick nowMs _ =>
    (∀ r ∈ s.handler.heartbeats.values, s.handler.Fresh nowMs r →
      r.nodeId ∈ s.expectedPeers ∧ (s.heardMs r.nodeId).isSome) ∧
    ¬ (s.expectedPeers.card ≤ 2 * (s.reallyAlive nowMs).card ∧
      2 * (s.reallyAlive nowMs).card < s.expected.length)
  | _ => True

/-! ### The records -/

/-- **What the records say**: a peer that was heard was last seen then. -/
structure RecordsHeard (s : Observed Id) : Prop where
  seen : ∀ p t, s.heardMs p = some t →
    ∃ r, s.handler.heartbeats.get? p = some r ∧ r.lastSeenMs = t
  expected : s.handler.expectedPeerCount = s.expected.length

theorem recordsHeard_new (nodeId : Id) (heartbeatTimeoutMs staleTimeoutMs : ℤ) :
    RecordsHeard (.new nodeId heartbeatTimeoutMs staleTimeoutMs) where
  seen _ _ h := nomatch h
  expected := rfl

theorem RecordsHeard.step {s s' : Observed Id} {op : PartitionOp Id} (h : RecordsHeard s)
    (hstep : op.apply s = some s') : RecordsHeard s' := by
  cases op with
  | setExpectedPeers peerIds clock =>
      obtain rfl := Option.some.inj hstep
      refine ⟨fun p t ht => ?_, rfl⟩
      obtain ⟨r, hr, hseen⟩ := h.seen p t ht
      exact ⟨r, by rw [get?_setExpectedPeers, hr, Option.some_or], hseen⟩
  | recordHeartbeat peerId sequenceNum clock =>
      obtain rfl := Option.some.inj hstep
      have hcount : (s.handler.recordHeartbeat peerId sequenceNum clock).expectedPeerCount =
          s.handler.expectedPeerCount := by
        unfold recordHeartbeat
        split <;> rfl
      refine ⟨fun p t ht => ?_, hcount.trans h.expected⟩
      change Function.update s.heardMs peerId (some clock) p = some t at ht
      obtain ⟨record, hseen, hget⟩ :=
        get?_recordHeartbeat s.handler peerId p sequenceNum clock
      by_cases hp : p = peerId
      · subst hp
        rw [Function.update_self] at ht
        obtain rfl := Option.some.inj ht
        exact ⟨record, hget.trans (if_pos rfl), hseen⟩
      · rw [Function.update_of_ne hp] at ht
        rw [if_neg hp] at hget
        exact hget ▸ h.seen p t ht
  | clearPeer peerId =>
      obtain rfl := Option.some.inj hstep
      refine ⟨fun p t ht => ?_, h.expected⟩
      change Function.update s.heardMs peerId none p = some t at ht
      by_cases hp : p = peerId
      · subst hp
        rw [Function.update_self] at ht
        exact nomatch ht
      · rw [Function.update_of_ne hp] at ht
        obtain ⟨r, hr, hseen⟩ := h.seen p t ht
        exact ⟨r, (KeyedMap.get?_erase _ _ _).trans ((if_neg hp).trans hr), hseen⟩
  | tick nowMs clock =>
      obtain rfl := Option.some.inj hstep
      refine ⟨fun p t ht => ?_, h.expected⟩
      obtain ⟨r, hr, hseen⟩ := h.seen p t ht
      refine ⟨s.handler.checkRecord nowMs r, ?_, (lastSeenMs_checkRecord _ _ r).trans hseen⟩
      have hget := KeyedMap.get?_modifyAll s.handler.heartbeats (s.handler.checkRecord nowMs)
        (s.handler.nodeId_checkRecord nowMs) p
      exact hget.trans (by rw [hr, Option.map_some])

/-! ### Counts -/

section Counts

variable {s : Observed Id} {nowMs : ℤ}

/-- The records are counted once for each peer. -/
theorem aliveCount_eq_card (s : Observed Id) (nowMs : ℤ) :
    s.handler.aliveCount nowMs = (s.freshPeers nowMs).card := by
  have hnodup : ((s.handler.heartbeats.values.filter fun r => s.handler.Fresh nowMs r).map
      (·.nodeId)).Nodup :=
    s.handler.heartbeats.nodup_map_values.sublist (List.filter_sublist.map _)
  rw [Observed.freshPeers, List.toFinset_card_of_nodup hnodup, List.length_map, aliveCount,
    List.countP_eq_length_filter]

/-- A peer that is really alive has a fresh record. -/
theorem RecordsHeard.reallyAlive_subset (h : RecordsHeard s) :
    s.reallyAlive nowMs ⊆ s.freshPeers nowMs := by
  intro p hp
  obtain ⟨t, ht, hfresh⟩ := (Finset.mem_filter.1 hp).2
  obtain ⟨r, hr, rfl⟩ := h.seen p t ht
  obtain rfl := KeyedMap.key_of_get? hr
  exact List.mem_toFinset.2 (List.mem_map.2
    ⟨r, List.mem_filter.2 ⟨KeyedMap.mem_values_iff.2 hr, decide_eq_true hfresh⟩, rfl⟩)

/-- A peer with a fresh record is really alive exactly if it is expected and was heard. -/
theorem RecordsHeard.mem_reallyAlive_iff (h : RecordsHeard s) {r : HeartbeatRecord Id}
    (hr : r ∈ s.handler.heartbeats.values) (hfresh : s.handler.Fresh nowMs r) :
    r.nodeId ∈ s.reallyAlive nowMs ↔
      r.nodeId ∈ s.expectedPeers ∧ (s.heardMs r.nodeId).isSome := by
  rw [Observed.reallyAlive, Finset.mem_filter]
  refine and_congr_right fun _ => ?_
  constructor
  · rintro ⟨t, ht, -⟩
    exact Option.isSome_iff_exists.2 ⟨t, ht⟩
  · intro hsome
    obtain ⟨t, ht⟩ := Option.isSome_iff_exists.1 hsome
    obtain ⟨r', hr', rfl⟩ := h.seen r.nodeId t ht
    obtain rfl := Option.some.inj ((KeyedMap.mem_values_iff.1 hr).symm.trans hr')
    exact ⟨r.lastSeenMs, ht, hfresh⟩

/-- **When the count of the records is the real one.** -/
theorem RecordsHeard.aliveCount_eq_iff (h : RecordsHeard s) :
    s.handler.aliveCount nowMs = (s.reallyAlive nowMs).card ↔
      ∀ r ∈ s.handler.heartbeats.values, s.handler.Fresh nowMs r →
        r.nodeId ∈ s.expectedPeers ∧ (s.heardMs r.nodeId).isSome := by
  rw [aliveCount_eq_card]
  constructor
  · intro hcard r hr hfresh
    have heq := Finset.eq_of_subset_of_card_le h.reallyAlive_subset hcard.le
    rw [← h.mem_reallyAlive_iff hr hfresh, heq]
    exact List.mem_toFinset.2 (List.mem_map.2
      ⟨r, List.mem_filter.2 ⟨hr, decide_eq_true hfresh⟩, rfl⟩)
  · intro hall
    refine congrArg Finset.card (Finset.Subset.antisymm ?_ h.reallyAlive_subset)
    intro p hp
    obtain ⟨r, hr, rfl⟩ := List.mem_map.1 (List.mem_toFinset.1 hp)
    obtain ⟨hr, hfresh⟩ := List.mem_filter.1 hr
    have hfresh := of_decide_eq_true hfresh
    exact (h.mem_reallyAlive_iff hr hfresh).2 (hall r hr hfresh)

/-- A tick reports the real heartbeats exactly if all fresh records are real. -/
theorem RecordsHeard.reportsReal_iff (h : RecordsHeard s) (op : PartitionOp Id) :
    ReportsReal s op ↔ FreshAreReal s op := by
  cases op with
  | setExpectedPeers => exact Iff.rfl
  | recordHeartbeat => exact Iff.rfl
  | clearPeer => exact Iff.rfl
  | tick nowMs clock =>
      change s.handler.aliveCount nowMs = (s.reallyAlive nowMs).card ∧
          (s.handler.detectPartitionState (s.handler.aliveCount nowMs) clock = .partitioned ↔ _) ↔
        _ ∧ _
      rw [detect_eq_partitioned_iff, h.expected, ← h.aliveCount_eq_iff]
      refine and_congr_right fun hcount => ?_
      rw [hcount]
      have hle : s.expectedPeers.card ≤ s.expected.length := s.expected.toFinset_card_le
      omega

end Counts

/-! ### Runs -/

/-- **The ticks of a run report the real heartbeats if and only if they only meet fresh records of
expected peers that were heard.** -/
theorem reports_real_iff (nodeId : Id) (heartbeatTimeoutMs staleTimeoutMs : ℤ)
    (ops : List (PartitionOp Id)) :
    let s₀ := Observed.new nodeId heartbeatTimeoutMs staleTimeoutMs
    Runs.Along PartitionOp.apply ReportsReal s₀ ops ↔
      Runs.Along PartitionOp.apply FreshAreReal s₀ ops :=
  Runs.along_congr (fun _ _ _ h _ hstep => h.step hstep) (fun _ op h => h.reportsReal_iff op)
    (recordsHeard_new nodeId heartbeatTimeoutMs staleTimeoutMs)

/-- **A peer that never sends anything counts as alive** for as long as a heartbeat would. -/
theorem silent_peer_counts :
    ¬ ∀ ops, Runs.Along PartitionOp.apply ReportsReal (.new 0 5000 10000 : Observed ℕ) ops := by
  intro h
  have htick := (h [.setExpectedPeers [1] 0, .tick 1000 1000]).2 _ rfl
  exact absurd htick.1.1 (by decide +kernel)

end Swarm
