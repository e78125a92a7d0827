/-
**Partition detection** (`swarm/partition_handler.py`).

A node keeps a record of every peer that it expects or has heard from, with the time it was last
seen.  The clock sorts the records by their age, and the state of the network follows from the
number of fresh records and the number of expected peers.

Main definitions:

* `Swarm.HeartbeatRecord`, `Swarm.PartitionHandler` — the records and the node;
* `Swarm.PartitionHandler.setExpectedPeers`, `recordHeartbeat`, `clearPeer` and `tick`.

Main results:

* `Swarm.PartitionHandler.detect_eq_partitioned_iff` — the state for less than half of the peers;
* `Swarm.PartitionHandler.get?_setExpectedPeers` — an expected peer with no record gets one.
-/
import Endendend.Foundation.OrderedMap
import Mathlib.Algebra.Order.Field.Basic
import Mathlib.Tactic.Linarith

set_option relaxedAutoImplicit false
set_option autoImplicit false

namespace Swarm

open Js

-- peers are only compared for equality
variable {Id : Type*} [DecidableEq Id]

inductive PartitionState
  | healthy
  | degraded
  | partitioned
  | recovering
  deriving DecidableEq

structure HeartbeatRecord (Id : Type*) where
  nodeId : Id
  lastSeenMs : ℤ
  sequenceNum : ℤ
  isAlive : Bool
  consecutiveMisses : ℕ

structure PartitionHandler (Id : Type*) [DecidableEq Id] where
  nodeId : Id
  heartbeatTimeoutMs : ℤ
  staleTimeoutMs : ℤ
  heartbeats : KeyedMap (HeartbeatRecord.nodeId : HeartbeatRecord Id → Id)
  partitionState : PartitionState
  lastPartitionChangeMs : ℤ
  alivePeerCount : ℕ
  expectedPeerCount : ℕ

/-- The calls of the callbacks. -/
inductive PartitionNotice (Id : Type*)
  | peerTimeout (peerId : Id)
  | partitionDetected (alivePeers expectedPeers : ℕ)
  | partitionRecovered

/-- What a tick returns. -/
structure PartitionStatus (Id : Type*) where
  nodeId : Id
  partitionState : PartitionState
  alivePeers : ℕ
  expectedPeers : ℕ
  stalePeers : List Id
  deadPeers : List Id
  timestampMs : ℤ

namespace PartitionHandler

def new (nodeId : Id) (heartbeatTimeoutMs staleTimeoutMs : ℤ) : PartitionHandler Id where
  nodeId
  heartbeatTimeoutMs
  staleTimeoutMs
  heartbeats := ∅
  partitionState := .healthy
  lastPartitionChangeMs := 0
  alivePeerCount := 0
  expectedPeerCount := 0

/-- The record of a peer that is expected and has not been heard from. -/
def seed (peerId : Id) (clock : ℤ) : HeartbeatRecord Id := ⟨peerId, clock, 0, false, 0⟩

/-- An expected peer gets a record, if it has none. -/
def seedPeer (clock : ℤ) (heartbeats : KeyedMap (HeartbeatRecord.nodeId : HeartbeatRecord Id → Id))
    (peerId : Id) : KeyedMap (HeartbeatRecord.nodeId : HeartbeatRecord Id → Id) :=
  if (heartbeats.get? peerId).isSome then heartbeats else heartbeats.put (seed peerId clock)

def setExpectedPeers (h : PartitionHandler Id) (peerIds : List Id) (clock : ℤ) :
    PartitionHandler Id :=
  { h with
    expectedPeerCount := peerIds.length
    heartbeats := peerIds.foldl (seedPeer clock) h.heartbeats }

def recordHeartbeat (h : PartitionHandler Id) (peerId : Id) (sequenceNum clock : ℤ) :
    PartitionHandler Id :=
  match h.heartbeats.get? peerId with
  | none => { h with heartbeats := h.heartbeats.put ⟨peerId, clock, sequenceNum, true, 0⟩ }
  | some record =>
    { h with
      heartbeats := h.heartbeats.put
        { record with
          lastSeenMs := clock
          sequenceNum
          isAlive := true
          consecutiveMisses := if record.isAlive then record.consecutiveMisses else 0 } }

def clearPeer (h : PartitionHandler Id) (peerId : Id) : PartitionHandler Id :=
  { h with heartbeats := h.heartbeats.erase peerId }

/-! ### The clock -/

/-- A record is fresh at a time. -/
def Fresh (h : PartitionHandler Id) (nowMs : ℤ) (record : HeartbeatRecord Id) : Prop :=
  nowMs - record.lastSeenMs < h.heartbeatTimeoutMs

/-- A record is no longer fresh, and not yet dead. -/
def Stale (h : PartitionHandler Id) (nowMs : ℤ) (record : HeartbeatRecord Id) : Prop :=
  ¬ h.Fresh nowMs record ∧ nowMs - record.lastSeenMs < h.staleTimeoutMs

instance (h : PartitionHandler Id) (nowMs : ℤ) (record : HeartbeatRecord Id) :
    Decidable (h.Fresh nowMs record) :=
  inferInstanceAs (Decidable (_ < _))

instance (h : PartitionHandler Id) (nowMs : ℤ) (record : HeartbeatRecord Id) :
    Decidable (h.Stale nowMs record) :=
  inferInstanceAs (Decidable (_ ∧ _))

/-- A tick reports a record as stale. -/
def TurnsStale (h : PartitionHandler Id) (nowMs : ℤ) (record : HeartbeatRecord Id) : Prop :=
  h.Stale nowMs record ∧ record.isAlive

/-- A tick reports a record as dead: up to three times. -/
def TurnsDead (h : PartitionHandler Id) (nowMs : ℤ) (record : HeartbeatRecord Id) : Prop :=
  (¬ h.Fresh nowMs record ∧ ¬ h.Stale nowMs record) ∧
    (record.isAlive ∨ record.consecutiveMisses < 3)

instance (h : PartitionHandler Id) (nowMs : ℤ) (record : HeartbeatRecord Id) :
    Decidable (h.TurnsStale nowMs record) :=
  inferInstanceAs (Decidable (_ ∧ _))

instance (h : PartitionHandler Id) (nowMs : ℤ) (record : HeartbeatRecord Id) :
    Decidable (h.TurnsDead nowMs record) :=
  inferInstanceAs (Decidable (_ ∧ _))

/-- What a tick does to a record. -/
def checkRecord (h : PartitionHandler Id) (nowMs : ℤ) (record : HeartbeatRecord Id) :
    HeartbeatRecord Id :=
  if h.Fresh nowMs record then
    if record.isAlive then record else { record with isAlive := true, consecutiveMisses := 0 }
  else if h.TurnsStale nowMs record ∨ h.TurnsDead nowMs record then
    { record with isAlive := false, consecutiveMisses := record.consecutiveMisses + 1 }
  else record

@[simp] theorem nodeId_checkRecord (h : PartitionHandler Id) (nowMs : ℤ)
    (record : HeartbeatRecord Id) : (h.checkRecord nowMs record).nodeId = record.nodeId := by
  unfold checkRecord
  split_ifs <;> rfl

@[simp] theorem lastSeenMs_checkRecord (h : PartitionHandler Id) (nowMs : ℤ)
    (record : HeartbeatRecord Id) :
    (h.checkRecord nowMs record).lastSeenMs = record.lastSeenMs := by
  unfold checkRecord
  split_ifs <;> rfl

/-- The state for a number of fresh records. -/
def detectPartitionState (h : PartitionHandler Id) (aliveCount : ℕ) (clock : ℤ) :
    PartitionState :=
  if h.expectedPeerCount = 0 then .healthy
  else
    let aliveRatio : ℚ := aliveCount / h.expectedPeerCount
    let timeSinceChangeMs := clock - h.lastPartitionChangeMs
    if 8 / 10 ≤ aliveRatio then .healthy
    else if 5 / 10 ≤ aliveRatio then
      if h.partitionState = .partitioned ∧ timeSinceChangeMs < 5000 then .recovering
      else .degraded
    else .partitioned

/-- The number of fresh records. -/
def aliveCount (h : PartitionHandler Id) (nowMs : ℤ) : ℕ :=
  h.heartbeats.values.countP fun record => h.Fresh nowMs record

/-- The callbacks of a change of the state. -/
def changeNotices (old new : PartitionState) (alivePeers expectedPeers : ℕ) :
    List (PartitionNotice Id) :=
  if old = new then []
  else if new = .partitioned then [.partitionDetected alivePeers expectedPeers]
  else if old = .partitioned then [.partitionRecovered]
  else []

/-- The clock: the records are sorted by age, and the state follows from their numbers. -/
def tick (h : PartitionHandler Id) (nowMs clock : ℤ) :
    PartitionHandler Id × PartitionStatus Id × List (PartitionNotice Id) :=
  let alivePeers := h.aliveCount nowMs
  let stalePeers := (h.heartbeats.values.filter fun r => h.TurnsStale nowMs r).map (·.nodeId)
  let deadPeers := (h.heartbeats.values.filter fun r => h.TurnsDead nowMs r).map (·.nodeId)
  let partitionState := h.detectPartitionState alivePeers clock
  ({ h with
      heartbeats := h.heartbeats.modifyAll (h.checkRecord nowMs) (h.nodeId_checkRecord nowMs)
      alivePeerCount := alivePeers
      partitionState
      lastPartitionChangeMs :=
        if h.partitionState = partitionState then h.lastPartitionChangeMs else nowMs },
    { nodeId := h.nodeId
      partitionState
      alivePeers
      expectedPeers := h.expectedPeerCount
      stalePeers
      deadPeers
      timestampMs := nowMs },
    deadPeers.map .peerTimeout ++
      changeNotices h.partitionState partitionState alivePeers h.expectedPeerCount)

/-! ### Lemmas -/

section Lemmas

variable {h : PartitionHandler Id}

/-- **The state for less than half of the expected peers.** -/
theorem detect_eq_partitioned_iff (aliveCount : ℕ) (clock : ℤ) :
    h.detectPartitionState aliveCount clock = .partitioned ↔
      2 * aliveCount < h.expectedPeerCount := by
  unfold detectPartitionState
  split
  · next hzero => exact iff_of_false PartitionState.noConfusion (by omega)
  · next hne =>
      have hpos : (0 : ℚ) < h.expectedPeerCount := by exact_mod_cast Nat.pos_of_ne_zero hne
      have hhalf : (5 / 10 : ℚ) ≤ aliveCount / h.expectedPeerCount ↔
          h.expectedPeerCount ≤ 2 * aliveCount := by
        rw [le_div_iff₀ hpos, show (5 / 10 : ℚ) = 1 / 2 by norm_num, one_div,
          inv_mul_le_iff₀ (by norm_num)]
        exact_mod_cast Iff.rfl
      have hmost : (8 / 10 : ℚ) ≤ aliveCount / h.expectedPeerCount →
          (5 / 10 : ℚ) ≤ aliveCount / h.expectedPeerCount :=
        fun hle => le_trans (by norm_num) hle
      simp only
      split
      · next hle =>
          have := hhalf.1 (hmost hle)
          exact iff_of_false PartitionState.noConfusion (by omega)
      · split
        · next hle =>
            have := hhalf.1 hle
            refine iff_of_false ?_ (by omega)
            split <;> exact PartitionState.noConfusion
        · next hlt => exact iff_of_true rfl (not_le.1 fun hle => hlt (hhalf.2 hle))

theorem get?_seedPeer (clock : ℤ)
    (heartbeats : KeyedMap (HeartbeatRecord.nodeId : HeartbeatRecord Id → Id)) (peerId k : Id) :
    (seedPeer clock heartbeats peerId).get? k =
      (heartbeats.get? k).or (if k = peerId then some (seed peerId clock) else none) := by
  unfold seedPeer
  split
  · next hsome =>
      by_cases hk : k = peerId
      · subst hk
        obtain ⟨r, hr⟩ := Option.isSome_iff_exists.1 hsome
        simp [hr]
      · simp [hk]
  · next hnone =>
      rw [KeyedMap.get?_put]
      by_cases hk : k = peerId
      · subst hk
        simp [Option.not_isSome_iff_eq_none.1 hnone, seed]
      · simp [hk, seed]

/-- **An expected peer with no record gets one.** -/
theorem get?_setExpectedPeers (h : PartitionHandler Id) (peerIds : List Id) (clock : ℤ) (k : Id) :
    (h.setExpectedPeers peerIds clock).heartbeats.get? k =
      (h.heartbeats.get? k).or (if k ∈ peerIds then some (seed k clock) else none) := by
  have hfold : ∀ (peerIds : List Id)
      (heartbeats : KeyedMap (HeartbeatRecord.nodeId : HeartbeatRecord Id → Id)),
      (peerIds.foldl (seedPeer clock) heartbeats).get? k =
        (heartbeats.get? k).or (if k ∈ peerIds then some (seed k clock) else none) := by
    intro peerIds
    induction peerIds with
    | nil => intro heartbeats; simp
    | cons p ps ih =>
        intro heartbeats
        rw [List.foldl_cons, ih, get?_seedPeer]
        by_cases hp : k = p
        · subst hp
          cases heartbeats.get? k <;> simp
        · simp [hp]
  exact hfold peerIds h.heartbeats

theorem get?_recordHeartbeat (h : PartitionHandler Id) (peerId k : Id) (sequenceNum clock : ℤ) :
    ∃ record : HeartbeatRecord Id, record.lastSeenMs = clock ∧
      (h.recordHeartbeat peerId sequenceNum clock).heartbeats.get? k =
        if k = peerId then some record else h.heartbeats.get? k := by
  unfold recordHeartbeat
  split
  · let record : HeartbeatRecord Id := ⟨peerId, clock, sequenceNum, true, 0⟩
    exact ⟨record, rfl, KeyedMap.get?_put _ record k⟩
  · next old hold =>
      let record : HeartbeatRecord Id :=
        { old with
          lastSeenMs := clock
          sequenceNum
          isAlive := true
          consecutiveMisses := if old.isAlive then old.consecutiveMisses else 0 }
      have hkey : old.nodeId = peerId := KeyedMap.key_of_get? hold
      refine ⟨record, rfl, (KeyedMap.get?_put _ record k).trans ?_⟩
      rw [show record.nodeId = peerId from hkey]

end Lemmas

end PartitionHandler

end Swarm
