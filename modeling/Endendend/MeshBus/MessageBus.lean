/-
**The bus of the mesh and its retry queue** (`mesh/messageBus.ts`, `mesh/messageEnvelope.ts`,
`mesh/retryQueue.ts`).

A message is delivered at once, or it waits in the outbox: because its receiver cannot be reached,
or because it is dropped and tried again.  A tick drains the outbox: an item waits until its time
has come; then it is ready, or it is dropped, and after the last attempt it is dead.  What is ready
is delivered unless its receiver still cannot be reached, and then it waits again.  Message ids are
numbered by a counter that all buses share.

Main definitions:

* `MeshBus.RetryQueue` with `enqueue` and `drain`;
* `MeshBus.createMeshEnvelope` — an envelope with its number;
* `MeshBus.MeshMessageBus` — a bus, with the history of its messages;
* `MeshBus.MeshMessageBus.emitDirect`, `MeshBus.MeshMessageBus.tick` — sending, and a tick;
* `MeshBus.busStep` — the steps of a bus and its surroundings.

Main results:

* `MeshBus.RetryQueue.perm_drain` — the items of a drained queue are ready, wait, or are dead;
* `MeshBus.RetryQueue.attempts_drain` — what a drain does to the attempts.
-/
import Endendend.Foundation.Json
import Endendend.Foundation.OrderedMap
import Endendend.Foundation.Runs
import Mathlib.Data.Rat.Floor
import Mathlib.Data.List.Basic

set_option relaxedAutoImplicit false
set_option autoImplicit false

namespace MeshBus

structure RetryEnvelope (T : Type) where
  deliverAtMs : ℚ
  attempts : ℕ
  payload : T

structure RetryQueue (T : Type) where
  q : List (RetryEnvelope T)

/-- How a queue is drained; whether an item is dropped depends on a random draw. -/
structure DrainPolicy (T : Type) where
  shouldDrop : RetryEnvelope T → ℚ → Bool
  backoffMs : RetryEnvelope T → ℚ
  maxAttempts : ℕ

/-- The variables of the loop of a drain.  The source has the number of the dead items only; `drawn`
counts the draws. -/
structure Drained (T : Type) where
  ready : List (RetryEnvelope T)
  next : List (RetryEnvelope T)
  dead : List (RetryEnvelope T)
  requeued : ℕ
  drawn : ℕ

namespace RetryQueue

variable {T : Type}

def empty : RetryQueue T := ⟨[]⟩

def enqueue (rq : RetryQueue T) (deliverAtMs : ℚ) (payload : T) (attempts : ℕ) : RetryQueue T :=
  ⟨rq.q ++ [⟨deliverAtMs, attempts, payload⟩]⟩

/-- What a drain does with an item. -/
def drainItem (nowMs : ℚ) (policy : DrainPolicy T) (rng : ℕ → ℚ) (acc : Drained T)
    (env : RetryEnvelope T) : Drained T :=
  if nowMs < env.deliverAtMs then { acc with next := acc.next ++ [env] }
  else if policy.shouldDrop env (rng acc.drawn) then
    if policy.maxAttempts ≤ env.attempts + 1 then
      { acc with dead := acc.dead ++ [env], drawn := acc.drawn + 1 }
    else
      { acc with
        requeued := acc.requeued + 1
        next := acc.next ++
          [{ env with
            attempts := env.attempts + 1
            deliverAtMs := nowMs + policy.backoffMs env }]
        drawn := acc.drawn + 1 }
  else { acc with ready := acc.ready ++ [env], drawn := acc.drawn + 1 }

def drain (rq : RetryQueue T) (nowMs : ℚ) (policy : DrainPolicy T) (rng : ℕ → ℚ) :
    RetryQueue T × Drained T :=
  let acc := rq.q.foldl (drainItem nowMs policy rng) ⟨[], [], [], 0, 0⟩
  (⟨acc.next⟩, acc)

variable {nowMs : ℚ} {policy : DrainPolicy T} {rng : ℕ → ℚ}

/-! ### Nothing is lost -/

/-- Where the payloads are within a drain. -/
def payloads (acc : Drained T) : List T :=
  acc.ready.map (·.payload) ++ (acc.next.map (·.payload) ++ acc.dead.map (·.payload))

theorem perm_drainItem (acc : Drained T) (env : RetryEnvelope T) :
    (payloads (drainItem nowMs policy rng acc env)).Perm (env.payload :: payloads acc) := by
  -- the payload is put at the end of one of the three lists
  have hmiddle : ∀ (xs ys zs : List T) (x : T), (xs ++ (ys ++ [x] ++ zs)).Perm
      (x :: (xs ++ (ys ++ zs))) := by
    intro xs ys zs x
    rw [List.append_assoc, ← List.append_assoc, ← List.append_assoc xs ys zs]
    exact List.perm_middle
  have hlast : ∀ (xs ys zs : List T) (x : T), (xs ++ (ys ++ (zs ++ [x]))).Perm
      (x :: (xs ++ (ys ++ zs))) := by
    intro xs ys zs x
    rw [← List.append_assoc, ← List.append_assoc, ← List.append_assoc]
    exact List.perm_append_singleton _ _
  unfold drainItem payloads
  split_ifs
  · rw [List.map_append]
    exact hmiddle _ _ _ _
  · rw [List.map_append]
    exact hlast _ _ _ _
  · rw [List.map_append]
    exact hmiddle _ _ _ _
  · rw [List.map_append, List.append_assoc]
    exact List.perm_middle

/-- **The items of a drained queue are ready, wait, or are dead.** -/
theorem perm_drain (rq : RetryQueue T) :
    (payloads (rq.drain nowMs policy rng).2).Perm (rq.q.map (·.payload)) := by
  have hfold : ∀ (items : List (RetryEnvelope T)) (acc : Drained T),
      (payloads (items.foldl (drainItem nowMs policy rng) acc)).Perm
        (items.map (·.payload) ++ payloads acc) := by
    intro items
    induction items with
    | nil => exact fun acc => List.Perm.refl _
    | cons env items ih =>
        intro acc
        have htail := ih (drainItem nowMs policy rng acc env)
        refine htail.trans (((perm_drainItem acc env).append_left _).trans ?_)
        exact List.perm_middle
  have h := hfold rq.q ⟨[], [], [], 0, 0⟩
  rwa [show payloads (T := T) ⟨[], [], [], 0, 0⟩ = [] from rfl, List.append_nil] at h

/-! ### Attempts -/

/-- Attempts are bounded: an item that waits or is ready can be dropped once more, and an item that
is dead cannot. -/
structure Attempts (n : ℕ) (acc : Drained T) : Prop where
  ready : ∀ env ∈ acc.ready, env.attempts < n
  next : ∀ env ∈ acc.next, env.attempts < n
  dead : ∀ env ∈ acc.dead, env.attempts + 1 = n

theorem attempts_drainItem {acc : Drained T} {env : RetryEnvelope T}
    (h : Attempts policy.maxAttempts acc) (henv : env.attempts < policy.maxAttempts) :
    Attempts policy.maxAttempts (drainItem nowMs policy rng acc env) := by
  have hadd : ∀ {P : RetryEnvelope T → Prop} {xs : List (RetryEnvelope T)} {x : RetryEnvelope T},
      (∀ y ∈ xs, P y) → P x → ∀ y ∈ xs ++ [x], P y := by
    intro P xs x hxs hx y hy
    obtain hy | hy := List.mem_append.1 hy
    · exact hxs y hy
    · exact List.mem_singleton.1 hy ▸ hx
  unfold drainItem
  split_ifs with hwait hdrop hlast
  · exact ⟨h.ready, hadd h.next henv, h.dead⟩
  · exact ⟨h.ready, h.next, hadd h.dead (by omega)⟩
  · exact ⟨h.ready, hadd h.next (not_le.1 hlast), h.dead⟩
  · exact ⟨hadd h.ready henv, h.next, h.dead⟩

/-- **What a drain does to the attempts.** -/
theorem attempts_drain {rq : RetryQueue T} (h : ∀ env ∈ rq.q, env.attempts < policy.maxAttempts) :
    Attempts policy.maxAttempts (rq.drain nowMs policy rng).2 := by
  have hfold : ∀ (items : List (RetryEnvelope T)) (acc : Drained T),
      (∀ env ∈ items, env.attempts < policy.maxAttempts) → Attempts policy.maxAttempts acc →
        Attempts policy.maxAttempts (items.foldl (drainItem nowMs policy rng) acc) := by
    intro items
    induction items with
    | nil => exact fun acc _ hacc => hacc
    | cons env items ih =>
        intro acc hitems hacc
        refine ih _ (fun e he => hitems e (List.mem_cons_of_mem _ he)) ?_
        exact attempts_drainItem hacc (hitems env List.mem_cons_self)
  refine hfold rq.q _ h ⟨?_, ?_, ?_⟩ <;>
  · intro env henv
    cases henv

end RetryQueue

end MeshBus

namespace MeshBus

open Js

/-! ### Envelopes -/

inductive MeshEnvelopeDeliveryStatus
  | pending
  | delivered
  | dropped
  | buffered
  | duplicate
  deriving DecidableEq

inductive SourceLabel
  | mesh
  | vertex
  | mock
  deriving DecidableEq

structure MeshMessageEnvelope where
  messageId : Str
  sender : Str
  receiver : Str
  topic : Str
  timestamp : ℚ
  missionId : Str
  sequence : Decimal
  retryCount : ℕ
  pathTaken : List Str
  deliveryStatus : MeshEnvelopeDeliveryStatus
  checksum : Str
  sourceLabel : SourceLabel
  payloadJson : Str

/-- An exclusive or and a multiplication modulo `2 ^ 32` for every code unit, printed with eight
hexadecimal digits. -/
def simpleChecksum (s : Str) : Str :=
  let h := s.foldl (fun h u => (h ^^^ u.val) * 16777619 % 2 ^ 32) 2166136261
  [7, 6, 5, 4, 3, 2, 1, 0].map fun k => hexDigit (h / 16 ^ k % 16)

def messageIdOf (missionId : Str) (serial : ℕ) : Str :=
  lit "m-" ++ missionId ++ unit '-' :: (Decimal.ofInt serial).toStr

structure EnvelopeArgs where
  sender : Str
  receiver : Str
  topic : Str
  timestamp : ℚ
  missionId : Str
  sequence : Decimal
  payload : Json
  sourceLabel : Option SourceLabel

/-- The envelope that the counter gives a number. -/
def createMeshEnvelope (serial : ℕ) (args : EnvelopeArgs) : MeshMessageEnvelope :=
  let payloadJson := args.payload.stringify
  { messageId := messageIdOf args.missionId serial
    sender := args.sender
    receiver := args.receiver
    topic := args.topic
    timestamp := args.timestamp
    missionId := args.missionId
    sequence := args.sequence
    retryCount := 0
    pathTaken := [args.sender]
    deliveryStatus := .pending
    checksum := simpleChecksum (payloadJson ++ args.topic ++ args.sequence.toStr)
    sourceLabel := args.sourceLabel.getD .mesh
    payloadJson }

def markEnvelope (e : MeshMessageEnvelope) (status : MeshEnvelopeDeliveryStatus)
    (path : Option (List Str)) : MeshMessageEnvelope :=
  { e with deliveryStatus := status, pathTaken := path.getD e.pathTaken }

/-! ### The bus -/

/-- The arguments of a message; the draws are numbered.  A body that is `undefined` is not
printed. -/
structure EmitArgs where
  sender : Str
  receiver : Str
  missionId : Str
  nowMs : ℚ
  seq : Decimal
  topic : Str
  body : Option Json
  loss01 : ℚ
  reachable : Str → Str → Bool
  rng : ℕ → ℚ

structure TickArgs where
  nowMs : ℚ
  loss01 : ℚ
  reachable : Str → Str → Bool
  rng : ℕ → ℚ

/-- A bus.  The last three fields are the history of its messages: those that were sent, those that
were delivered, the last one first, and those that are dead.  No operation reads them. -/
structure MeshMessageBus where
  outbox : RetryQueue MeshMessageEnvelope
  recent : List MeshMessageEnvelope
  delivered : ℕ
  dropped : ℕ
  buffered : ℕ
  dupMerged : ℕ
  rerouted : ℕ
  seenIds : List Str
  sent : List MeshMessageEnvelope
  arrived : List MeshMessageEnvelope
  dead : List (RetryEnvelope MeshMessageEnvelope)

namespace MeshMessageBus

def new : MeshMessageBus := ⟨.empty, [], 0, 0, 0, 0, 0, [], [], [], []⟩

variable (bus : MeshMessageBus)

/-- The delivered envelope is the first of the recent ones, which are 24 at most. -/
def pushRecent (e : MeshMessageEnvelope) : MeshMessageBus :=
  { bus with recent := (e :: bus.recent).take 24, arrived := e :: bus.arrived }

/-- The envelope of a message. -/
def envelopeOf (serial : ℕ) (args : EmitArgs) : MeshMessageEnvelope :=
  createMeshEnvelope serial
    { sender := args.sender
      receiver := args.receiver
      topic := args.topic
      timestamp := args.nowMs
      missionId := args.missionId
      sequence := args.seq
      payload := .obj ((lit "topic", .str args.topic) ::
        args.body.toList.map fun body => (lit "body", body))
      sourceLabel := none }

/-- Sends a message: it is delivered unless its receiver cannot be reached or it is dropped. -/
def emitDirect (serial : ℕ) (args : EmitArgs) : MeshMessageBus :=
  let env := envelopeOf serial args
  let delay : ℚ := 30 + ⌊args.rng 0 * 120 * (1 + args.loss01)⌋
  let bus := { bus with sent := bus.sent ++ [env] }
  if args.reachable args.sender args.receiver = false then
    { bus with
      buffered := bus.buffered + 1
      outbox := bus.outbox.enqueue (args.nowMs + delay * 4) env 0 }
  else if args.rng 1 < args.loss01 then
    { bus with
      dropped := bus.dropped + 1
      outbox := bus.outbox.enqueue (args.nowMs + delay * 2)
        { env with retryCount := env.retryCount + 1 } 0 }
  else
    pushRecent { bus with delivered := bus.delivered + 1 }
      (markEnvelope env .delivered (some (env.pathTaken ++ [args.receiver])))

/-- How the outbox is drained. -/
def drainPolicy (args : TickArgs) : DrainPolicy MeshMessageEnvelope where
  shouldDrop _ draw := decide (draw < args.loss01 * (55 / 100))
  backoffMs e := 80 + (e.attempts : ℚ) * 70
  maxAttempts := 6

/-- What a tick does with an envelope that is ready. -/
def deliverReady (args : TickArgs) (bus : MeshMessageBus)
    (env : RetryEnvelope MeshMessageEnvelope) : MeshMessageBus :=
  let receiver := env.payload.receiver
  if receiver = lit "broadcast" then bus
  else if args.reachable env.payload.sender receiver = false then
    { bus with
      buffered := bus.buffered + 1
      outbox := bus.outbox.enqueue (args.nowMs + 200) env.payload 0 }
  else if bus.seenIds.contains env.payload.messageId then
    { bus with dupMerged := bus.dupMerged + 1 }
  else
    pushRecent
      { bus with
        seenIds := setAdd bus.seenIds env.payload.messageId
        delivered := bus.delivered + 1 }
      (markEnvelope env.payload .delivered (some (env.payload.pathTaken ++ [receiver])))

def tick (args : TickArgs) : MeshMessageBus :=
  let (outbox, drained) := bus.outbox.drain args.nowMs (drainPolicy args) args.rng
  let bus :=
    { bus with
      outbox
      dropped := bus.dropped + drained.dead.length
      dead := bus.dead ++ drained.dead }
  drained.ready.foldl (deliverReady args) bus

def noteReroute : MeshMessageBus := { bus with rerouted := bus.rerouted + 1 }

end MeshMessageBus

/-! ### Steps -/

/-- A bus and the counter of the envelopes. -/
structure BusState where
  serial : ℕ
  bus : MeshMessageBus

/-- A bus that has not been used; the counter may have been. -/
def BusState.new (serial : ℕ) : BusState := ⟨serial, .new⟩

/-- A message is sent, a tick is made, a reroute is noted, or an envelope is created elsewhere. -/
inductive BusMove
  | emitDirect (args : EmitArgs)
  | tick (args : TickArgs)
  | noteReroute
  | elsewhere

def busStep (s : BusState) : BusMove → Option BusState
  | .emitDirect args => some ⟨s.serial + 1, s.bus.emitDirect s.serial args⟩
  | .tick args => some { s with bus := s.bus.tick args }
  | .noteReroute => some { s with bus := s.bus.noteReroute }
  | .elsewhere => some { s with serial := s.serial + 1 }

end MeshBus
