/-
**Where votes wait** (`vertex2/retryQueue.ts`, `vertex2/recoveryManager.ts`).

An item of the retry queue is delivered once its time has come, unless it is dropped on the way:
then it is tried again later, a bounded number of times.  The recovery manager keeps a bounded
buffer of operations for each peer, and gives them all out at once.

Main definitions:

* `Mesh.RetryQueue` with `enqueue` and `drain`;
* `Mesh.MeshRecoveryManager` with `bufferForPeer` and `drainAll`.

Main results:

* `Mesh.RetryQueue.count_drain` — a drained item is ready, waits, or is dead;
* `Mesh.MeshRecoveryManager.count_bufferForPeer` — a buffered operation may push out the oldest one.
-/
import Endendend.Foundation.Coerce
import Endendend.Foundation.OrderedMap
import Mathlib.Data.List.Sort
import Mathlib.Data.Rat.Floor

set_option relaxedAutoImplicit false
set_option autoImplicit false

namespace Mesh

open Js

/-! ### The retry queue -/

structure RetryEnvelope (T : Type) where
  id : Str
  deliverAtMs : ℚ
  attempts : ℕ
  payload : T

structure RetryQueue (T : Type) where
  items : List (RetryEnvelope T)
  serial : ℕ

/-- The options of a drain; whether an item is dropped depends on a random draw. -/
structure DrainOptions (T : Type) where
  shouldDrop : RetryEnvelope T → ℚ → Bool
  backoffMs : RetryEnvelope T → ℚ
  maxAttempts : ℕ

/-- The variables of the loop of a drain; the dead items are counted by their number in the source,
and `drawn` counts the draws. -/
structure Drained (T : Type) where
  ready : List (RetryEnvelope T)
  remain : List (RetryEnvelope T)
  rescheduled : ℕ
  dead : List (RetryEnvelope T)
  drawn : ℕ

namespace RetryQueue

variable {T : Type}

def empty : RetryQueue T := ⟨[], 1⟩

def enqueue (q : RetryQueue T) (deliverAtMs : ℚ) (payload : T) : RetryQueue T where
  items := q.items ++
    [{ id := lit "rq-" ++ (Decimal.ofInt q.serial).toStr, deliverAtMs, attempts := 0, payload }]
  serial := q.serial + 1

/-- What a drain does with an item. -/
def drainItem (nowMs : ℚ) (opts : DrainOptions T) (rng : ℕ → ℚ) (acc : Drained T)
    (env : RetryEnvelope T) : Drained T :=
  if nowMs < env.deliverAtMs then { acc with remain := acc.remain ++ [env] }
  else if opts.shouldDrop env (rng acc.drawn) then
    if opts.maxAttempts ≤ env.attempts + 1 then
      { acc with dead := acc.dead ++ [env], drawn := acc.drawn + 1 }
    else
      { acc with
        rescheduled := acc.rescheduled + 1
        remain := acc.remain ++
          [{ env with
            attempts := env.attempts + 1
            deliverAtMs := nowMs + opts.backoffMs env }]
        drawn := acc.drawn + 1 }
  else { acc with ready := acc.ready ++ [env], drawn := acc.drawn + 1 }

def drain (q : RetryQueue T) (nowMs : ℚ) (opts : DrainOptions T) (rng : ℕ → ℚ) (drawn : ℕ) :
    RetryQueue T × Drained T :=
  let acc := q.items.foldl (drainItem nowMs opts rng) ⟨[], [], 0, [], drawn⟩
  ({ q with items := acc.remain }, acc)

section Count

variable {β : Type} [DecidableEq β] (f : T → β) (b : β)

/-- How many of the items carry a payload that counts as `b`. -/
def countItems (items : List (RetryEnvelope T)) : ℕ := (items.map fun env => f env.payload).count b

theorem countItems_append (xs ys : List (RetryEnvelope T)) :
    countItems f b (xs ++ ys) = countItems f b xs + countItems f b ys := by
  rw [countItems, List.map_append, List.count_append]
  rfl

theorem count_drainItem (nowMs : ℚ) (opts : DrainOptions T) (rng : ℕ → ℚ) (acc : Drained T)
    (env : RetryEnvelope T) :
    let acc' := drainItem nowMs opts rng acc env
    countItems f b acc'.ready + countItems f b acc'.remain + countItems f b acc'.dead =
      countItems f b acc.ready + countItems f b acc.remain + countItems f b acc.dead +
        countItems f b [env] := by
  have hpayload : ∀ env' : RetryEnvelope T, env'.payload = env.payload →
      countItems f b [env'] = countItems f b [env] := by
    intro env' h
    rw [countItems, countItems, List.map_singleton, List.map_singleton, h]
  intro acc'
  simp only [acc', drainItem]
  split_ifs
  · simp only [countItems_append]
    omega
  · simp only [countItems_append]
    omega
  · have hagain := hpayload { env with
      attempts := env.attempts + 1
      deliverAtMs := nowMs + opts.backoffMs env } rfl
    simp only [countItems_append]
    omega
  · simp only [countItems_append]
    omega

/-- **A drained item is ready, waits, or is dead.** -/
theorem count_drain (q : RetryQueue T) (nowMs : ℚ) (opts : DrainOptions T) (rng : ℕ → ℚ)
    (drawn : ℕ) :
    let r := q.drain nowMs opts rng drawn
    countItems f b q.items =
      countItems f b r.2.ready + countItems f b r.1.items + countItems f b r.2.dead := by
  have hfold : ∀ (items : List (RetryEnvelope T)) (acc : Drained T),
      let acc' := items.foldl (drainItem nowMs opts rng) acc
      countItems f b acc'.ready + countItems f b acc'.remain + countItems f b acc'.dead =
        countItems f b acc.ready + countItems f b acc.remain + countItems f b acc.dead +
          countItems f b items := by
    intro items
    induction items with
    | nil => intro acc; rfl
    | cons env items ih =>
        intro acc
        have hstep := count_drainItem f b nowMs opts rng acc env
        have hcons := countItems_append f b [env] items
        have htail := ih (drainItem nowMs opts rng acc env)
        simp only [List.foldl_cons, List.singleton_append] at hstep hcons htail ⊢
        omega
  have h := hfold q.items ⟨[], [], 0, [], drawn⟩
  simp only [countItems, List.map_nil, List.count_nil, Nat.zero_add] at h
  exact h.symm

end Count

end RetryQueue

/-! ### The recovery manager -/

/-- An operation that waits in a buffer; its payload names a proposal and a peer. -/
structure BufferedMeshOp where
  atMs : ℚ
  kind : Str
  proposalId : Str
  peerId : Str
  deriving DecidableEq

/-- The buffers of the peers. -/
structure MeshRecoveryManager where
  buffers : OrderedMap Str (List BufferedMeshOp)

namespace MeshRecoveryManager

def empty : MeshRecoveryManager := ⟨∅⟩

def bufferOf (s : MeshRecoveryManager) (peerId : Str) : List BufferedMeshOp :=
  (s.buffers.get? peerId).getD []

/-- All operations that wait. -/
def ops (s : MeshRecoveryManager) : List BufferedMeshOp := s.buffers.values.flatten

/-- Adds an operation to the buffer of a peer, which keeps the last ones. -/
def bufferForPeer (s : MeshRecoveryManager) (peerId : Str) (op : BufferedMeshOp) :
    MeshRecoveryManager :=
  let arr := s.bufferOf peerId ++ [op]
  ⟨s.buffers.set peerId (arr.drop (arr.length - 120))⟩

/-- The operations that an added one pushes out of the buffer. -/
def pushedOut (s : MeshRecoveryManager) (peerId : Str) (op : BufferedMeshOp) :
    List BufferedMeshOp :=
  let arr := s.bufferOf peerId ++ [op]
  arr.take (arr.length - 120)

/-- Gives out all operations in the order of their times, and empties the buffers. -/
def drainAll (s : MeshRecoveryManager) : MeshRecoveryManager × List BufferedMeshOp :=
  (⟨∅⟩, s.ops.insertionSort fun a b => a.atMs ≤ b.atMs)

theorem bufferOf_bufferForPeer (s : MeshRecoveryManager) (peerId peerId' : Str)
    (op : BufferedMeshOp) :
    (s.bufferForPeer peerId op).bufferOf peerId' =
      if peerId' = peerId then
        (s.bufferOf peerId ++ [op]).drop ((s.bufferOf peerId ++ [op]).length - 120)
      else s.bufferOf peerId' := by
  rw [bufferOf, bufferForPeer, OrderedMap.get?_set]
  split
  · rw [Option.getD_some]
  · rw [bufferOf]

/-- **A buffered operation may push out the oldest one.** -/
theorem count_bufferForPeer (s : MeshRecoveryManager) (peerId : Str) (op : BufferedMeshOp)
    (p : BufferedMeshOp → Bool) :
    (s.bufferForPeer peerId op).ops.countP p + (s.pushedOut peerId op).countP p =
      s.ops.countP p + [op].countP p := by
  have hset := OrderedMap.countP_flatten_set p s.buffers peerId
    ((s.bufferOf peerId ++ [op]).drop ((s.bufferOf peerId ++ [op]).length - 120))
  have hsplit := congrArg (List.countP p)
    (List.take_append_drop ((s.bufferOf peerId ++ [op]).length - 120) (s.bufferOf peerId ++ [op]))
  rw [List.countP_append, List.countP_append] at hsplit
  have hops : (s.bufferForPeer peerId op).ops.countP p + (s.bufferOf peerId).countP p =
      s.ops.countP p + ((s.bufferOf peerId ++ [op]).drop
        ((s.bufferOf peerId ++ [op]).length - 120)).countP p := hset
  rw [pushedOut]
  omega

theorem count_drainAll (s : MeshRecoveryManager) (p : BufferedMeshOp → Bool) :
    s.drainAll.2.countP p = s.ops.countP p :=
  (List.perm_insertionSort _ _).countP_eq p

theorem drainAll_eq_nil_iff (s : MeshRecoveryManager) : s.drainAll.2 = [] ↔ s.ops = [] := by
  rw [← List.length_eq_zero_iff, drainAll, List.length_insertionSort, List.length_eq_zero_iff]

/-- The buffer keeps the operation that is added. -/
theorem ops_bufferForPeer_ne_nil (s : MeshRecoveryManager) (peerId : Str) (op : BufferedMeshOp) :
    (s.bufferForPeer peerId op).ops ≠ [] := by
  have hlen : (s.bufferOf peerId ++ [op]).length - 120 ≤ (s.bufferOf peerId).length := by
    rw [List.length_append, List.length_singleton]
    omega
  have hlist : (s.bufferOf peerId).drop ((s.bufferOf peerId ++ [op]).length - 120) ++ [op] ∈
      (s.bufferForPeer peerId op).buffers.values := by
    refine OrderedMap.mem_values_iff.2 ⟨peerId, ?_⟩
    rw [bufferForPeer, OrderedMap.get?_set_self, List.drop_append_of_le_length hlen]
  have hop : op ∈ (s.bufferForPeer peerId op).ops :=
    List.mem_flatten.2 ⟨_, hlist, List.mem_append_right _ (List.mem_singleton.2 rfl)⟩
  exact List.ne_nil_of_mem hop

theorem pushedOut_eq_nil_iff (s : MeshRecoveryManager) (peerId : Str) (op : BufferedMeshOp) :
    s.pushedOut peerId op = [] ↔ (s.bufferOf peerId).length < 120 := by
  simp only [pushedOut, List.take_eq_nil_iff, List.length_append, List.length_singleton,
    List.append_eq_nil_iff, List.cons_ne_self, and_false, or_false]
  omega

end MeshRecoveryManager

end Mesh
