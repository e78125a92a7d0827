/-
**The publishing threads of a mesh client** (`_outbox_loop`, `_retry_loop` and the handlers of
acknowledgements in `swarm/foxmq_integration.py`).

Envelopes that must arrive are queued.  The outbox thread takes them from the queue one at a time,
makes a record of each in the table of pending publishes, and hands it to the transport; if the
transport raises it puts the envelope back in the queue.  The retry thread goes over the table and
sends what has waited too long once more, until the limit of retries is reached.  An
acknowledgement takes a record out of the table.

The threads share the table under a lock, so a step of the model is what one of them does while it
holds the lock, or one of its calls.  What the clock shows and what the transport answers is in the
labels of the steps.

Main definitions:

* `SwarmStore.Outgoing`, `SwarmStore.PendingPublish` — an envelope in the queue, and its record;
* `SwarmStore.ClientState` — the queue, the table and where the two threads are;
* `SwarmStore.verdict`, `SwarmStore.retry` — what a pass of the retry thread does with a record;
* `SwarmStore.publishStep` — the steps;
* `SwarmStore.recordMade`, `SwarmStore.handedOver` — what a step makes a record of, and what it
  hands to `_publish_raw`.

Main results:

* `SwarmStore.sent_of_step` — the log of the envelopes handed over is what the steps hand over;
* `SwarmStore.get?_retryPass` — what a pass leaves of a record.
-/
import Endendend.Foundation.OrderedMap
import Endendend.Foundation.Runs
import Endendend.Foundation.Text
import Mathlib.Data.Rat.Defs
import Mathlib.Algebra.Order.Ring.Rat

set_option relaxedAutoImplicit false
set_option autoImplicit false

namespace SwarmStore

open Js (Str KeyedMap)

/-! ### Envelopes and records -/

/-- What is read of `FoxMQConfig`. -/
structure PublishConfig where
  publishRetryLimit : ℤ
  publishAckTimeoutS : ℚ

/-- The defaults of the source. -/
def PublishConfig.default : PublishConfig where
  publishRetryLimit := 5
  publishAckTimeoutS := 3 / 2

/-- The `maxsize` of the queue. -/
def outboxSize : ℕ := 8192

/-- An envelope in the queue, as `(topic, envelope, qos, retain)`.  The envelope itself is given by
its id and the text that `to_json` makes of it. -/
structure Outgoing (Id : Type*) where
  messageId : Id
  topic : Str
  json : Str
  qos : ℕ
  retain : Bool

/-- `PendingPublish` -/
structure PendingPublish (Id : Type*) where
  item : Outgoing Id
  deadlineS : ℚ
  retryCount : ℕ
  acknowledged : Bool
  mid : Option ℤ

/-- `PendingPublish.message_id` -/
def PendingPublish.messageId {Id : Type*} (r : PendingPublish Id) : Id := r.item.messageId

/-- Where the outbox thread is: it waits for an envelope; it has one; it has made the record; it
has called `_publish_raw`; that call has raised. -/
inductive OutboxThread (Id : Type*)
  | idle
  | taken (item : Outgoing Id)
  | inserted (item : Outgoing Id)
  | handed (item : Outgoing Id)
  | failed (item : Outgoing Id)

/-- The envelope that the outbox thread has taken and is about to make a record of. -/
def OutboxThread.held {Id : Type*} : OutboxThread Id → List (Outgoing Id)
  | .taken item => [item]
  | _ => []

/-- The envelope that the outbox thread has made a record of and is about to hand over. -/
def OutboxThread.waiting {Id : Type*} : OutboxThread Id → List (Outgoing Id)
  | .inserted item => [item]
  | _ => []

/-- A client.  `expired` is what the retry thread is about to take out of the table.  The last four
are no variables of the client: the ids that were queued, the ids that a record was made for, what
was handed to `_publish_raw`, and the ids that were acknowledged or dropped. -/
structure ClientState (Id : Type*) [DecidableEq Id] where
  queue : List (Outgoing Id)
  pending : KeyedMap (@PendingPublish.messageId Id)
  outbox : OutboxThread Id
  expired : List Id
  enqueued : List Id
  recorded : List Id
  sent : List (Outgoing Id)
  settled : List Id

variable {Id : Type*} [DecidableEq Id]

/-- A client before it has published anything. -/
def ClientState.start : ClientState Id where
  queue := []
  pending := ∅
  outbox := .idle
  expired := []
  enqueued := []
  recorded := []
  sent := []
  settled := []

/-! ### The retry thread -/

/-- What the clock shows when the retry thread looks at a record and when it sets the next deadline,
and what `_publish_raw` returns, if it does not raise. -/
structure Reading where
  now : ℚ
  later : ℚ
  answer : Option (Option ℤ)

/-- What the retry thread decides on a record. -/
inductive Verdict
  | wait
  | expire
  | send
deriving DecidableEq

/-- One round of the loop over the table. -/
def verdict (config : PublishConfig) (now : ℚ) (r : PendingPublish Id) : Verdict :=
  if r.acknowledged then .expire
  else if now ≥ r.deadlineS then
    if (r.retryCount : ℤ) ≥ config.publishRetryLimit then .expire else .send
  else .wait

/-- The record of an envelope that is sent once more.  The deadline backs off, and the record keeps
its `mid` if the transport raises. -/
def retry (config : PublishConfig) (reading : Reading) (r : PendingPublish Id) :
    PendingPublish Id where
  item := r.item
  deadlineS := reading.later + config.publishAckTimeoutS * (6 / 5) ^ (r.retryCount + 1)
  retryCount := r.retryCount + 1
  acknowledged := r.acknowledged
  mid := reading.answer.getD r.mid

omit [DecidableEq Id] in
/-- An envelope is sent once more only below the limit. -/
theorem lt_limit_of_send {config : PublishConfig} {now : ℚ} {r : PendingPublish Id}
    (h : verdict config now r = .send) : (r.retryCount : ℤ) < config.publishRetryLimit := by
  unfold verdict at h
  split at h
  · cases h
  · split at h
    · split at h
      · cases h
      · exact not_le.1 ‹_›
    · cases h

section Pass

variable (config : PublishConfig) (readings : Id → Reading)

/-- The verdict of a pass on a record. -/
def passVerdict (r : PendingPublish Id) : Verdict :=
  verdict config (readings r.messageId).now r

/-- What a pass makes of a record. -/
def passRecord (r : PendingPublish Id) : PendingPublish Id :=
  if passVerdict config readings r = .send then retry config (readings r.messageId) r else r

omit [DecidableEq Id] in
@[simp] theorem messageId_passRecord (r : PendingPublish Id) :
    (passRecord config readings r).messageId = r.messageId := by
  unfold passRecord
  split <;> rfl

omit [DecidableEq Id] in
/-- A pass counts the envelopes that it sends. -/
theorem retryCount_passRecord (r : PendingPublish Id) :
    (passRecord config readings r).retryCount =
      r.retryCount + if passVerdict config readings r = .send then 1 else 0 := by
  unfold passRecord
  split <;> rfl

/-- The table after a pass. -/
def retryPass (pending : KeyedMap (@PendingPublish.messageId Id)) :
    KeyedMap (@PendingPublish.messageId Id) :=
  pending.modifyAll (passRecord config readings) (messageId_passRecord config readings)

/-- The records that a pass decides on in one way, in the order of the table. -/
def passOn (v : Verdict) (pending : KeyedMap (@PendingPublish.messageId Id)) :
    List (PendingPublish Id) :=
  pending.values.filter fun r => passVerdict config readings r = v

/-- What a pass leaves of a record. -/
theorem get?_retryPass (pending : KeyedMap (@PendingPublish.messageId Id)) (id : Id) :
    (retryPass config readings pending).get? id =
      (pending.get? id).map (passRecord config readings) :=
  pending.get?_modifyAll _ _ id

theorem mem_passOn {v : Verdict} {pending : KeyedMap (@PendingPublish.messageId Id)}
    {r : PendingPublish Id} :
    r ∈ passOn config readings v pending ↔
      pending.get? r.messageId = some r ∧ passVerdict config readings r = v := by
  rw [passOn, List.mem_filter, KeyedMap.mem_values_iff, decide_eq_true_iff]

/-- Which ids a pass decides on in one way. -/
theorem mem_map_passOn {v : Verdict} {pending : KeyedMap (@PendingPublish.messageId Id)} {id : Id} :
    id ∈ (passOn config readings v pending).map PendingPublish.messageId ↔
      (pending.get? id).map (passVerdict config readings) = some v := by
  rw [List.mem_map, Option.map_eq_some_iff]
  constructor
  · rintro ⟨r, hr, rfl⟩
    exact ⟨r, (mem_passOn config readings).1 hr⟩
  · rintro ⟨r, hr, hv⟩
    have hid := KeyedMap.key_of_get? hr
    exact ⟨r, (mem_passOn config readings).2 ⟨hid ▸ hr, hv⟩, hid⟩

/-- A pass decides on an envelope once. -/
theorem count_map_passOn (v : Verdict) (pending : KeyedMap (@PendingPublish.messageId Id))
    (id : Id) :
    ((passOn config readings v pending).map PendingPublish.messageId).count id =
      if (pending.get? id).map (passVerdict config readings) = some v then 1 else 0 := by
  have hnodup : ((passOn config readings v pending).map PendingPublish.messageId).Nodup :=
    pending.nodup_map_values.sublist (List.filter_sublist.map _)
  simp only [List.Nodup.count hnodup, mem_map_passOn]

end Pass

/-! ### The steps of a client -/

/-- What happens next: an envelope is published; the outbox thread takes one from the queue, makes
its record, calls `_publish_raw`, gets its result or its exception, or puts the envelope back; the
retry thread goes over the table, and takes out what has expired; an acknowledgement of an envelope
arrives, from a peer or from the broker. -/
inductive PublishLabel (Id : Type*)
  | enqueue (item : Outgoing Id)
  | take
  | record (now : ℚ)
  | hand
  | returns (mid : Option ℤ)
  | fails (now : ℚ)
  | requeue
  | pass (readings : Id → Reading)
  | purge
  | ackFor (id : Id)
  | published (mid : ℤ)

namespace ClientState

variable (s : ClientState Id)

/-- `_enqueue_outbox`, for an envelope with a new id; it raises if the queue is full. -/
def enqueue (item : Outgoing Id) : Option (ClientState Id) :=
  if s.queue.length < outboxSize ∧ item.messageId ∉ s.enqueued then
    some { s with queue := s.queue ++ [item], enqueued := s.enqueued ++ [item.messageId] }
  else none

/-- `self._outbox.get` -/
def take : Option (ClientState Id) :=
  match s.outbox, s.queue with
  | .idle, item :: rest => some { s with outbox := .taken item, queue := rest }
  | _, _ => none

/-- The record is made, also where there is one of that id already. -/
def withRecord (config : PublishConfig) (now : ℚ) (item : Outgoing Id) : ClientState Id :=
  { s with
    outbox := .inserted item
    pending := s.pending.put
      { item, deadlineS := now + config.publishAckTimeoutS, retryCount := 0,
        acknowledged := false, mid := none }
    recorded := s.recorded ++ [item.messageId] }

/-- The outbox thread makes the record of the envelope it has taken. -/
def record (config : PublishConfig) (now : ℚ) : Option (ClientState Id) :=
  match s.outbox with
  | .taken item => some (s.withRecord config now item)
  | _ => none

/-- The outbox thread calls `_publish_raw`. -/
def hand : Option (ClientState Id) :=
  match s.outbox with
  | .inserted item => some { s with outbox := .handed item, sent := s.sent ++ [item] }
  | _ => none

/-- The records with one id are changed; where there is none, the outbox thread changes an object
that is not in the table any more. -/
def amend (id : Id) (f : PendingPublish Id → PendingPublish Id)
    (hf : ∀ r, (f r).messageId = r.messageId) : KeyedMap (@PendingPublish.messageId Id) :=
  s.pending.modifyAll (fun r => if r.messageId = id then f r else r) fun r => by
    split
    · exact hf r
    · rfl

/-- `_publish_raw` returns to the outbox thread. -/
def returns (mid : Option ℤ) : Option (ClientState Id) :=
  match s.outbox with
  | .handed item =>
    some { s with
      outbox := .idle
      pending := s.amend item.messageId (fun r => { r with mid }) fun _ => rfl }
  | _ => none

/-- `_publish_raw` raises in the outbox thread. -/
def fails (config : PublishConfig) (now : ℚ) : Option (ClientState Id) :=
  match s.outbox with
  | .handed item =>
    some { s with
      outbox := .failed item
      pending := s.amend item.messageId (fun r =>
        { r with retryCount := r.retryCount + 1, deadlineS := now + config.publishAckTimeoutS })
        fun _ => rfl }
  | _ => none

/-- `self._outbox.put`, which waits for room in the queue. -/
def requeue : Option (ClientState Id) :=
  match s.outbox with
  | .failed item =>
    if s.queue.length < outboxSize then
      some { s with outbox := .idle, queue := s.queue ++ [item] }
    else none
  | _ => none

/-- A pass over the table: some envelopes are sent once more, and some have expired. -/
def passed (config : PublishConfig) (readings : Id → Reading) : ClientState Id :=
  let out := (passOn config readings .expire s.pending).map PendingPublish.messageId
  { s with
    pending := retryPass config readings s.pending
    expired := out
    sent := s.sent ++ (passOn config readings .send s.pending).map PendingPublish.item
    settled := s.settled ++ out }

/-- The retry thread goes over the table. -/
def pass (config : PublishConfig) (readings : Id → Reading) : Option (ClientState Id) :=
  if s.expired = [] then some (s.passed config readings) else none

/-- What has expired is taken out of the table. -/
def purged : ClientState Id :=
  { s with pending := s.expired.foldl KeyedMap.erase s.pending, expired := [] }

/-- The retry thread takes out what has expired, if anything has. -/
def purge : Option (ClientState Id) :=
  if s.expired = [] then none else some s.purged

/-- A record is acknowledged, and taken out of the table at once. -/
def settle (id : Id) : ClientState Id :=
  { s with pending := s.pending.erase id, settled := s.settled ++ [id] }

/-- `_handle_ack` -/
def handleAck (id : Id) : ClientState Id :=
  if (s.pending.get? id).isSome then s.settle id else s

/-- `_on_publish` -/
def onPublish (mid : ℤ) : ClientState Id :=
  match s.pending.values.find? (fun r => r.mid = some mid) with
  | some r => s.settle r.messageId
  | none => s

end ClientState

/-- One step of a client. -/
def publishStep (config : PublishConfig) (s : ClientState Id) :
    PublishLabel Id → Option (ClientState Id)
  | .enqueue item => s.enqueue item
  | .take => s.take
  | .record now => s.record config now
  | .hand => s.hand
  | .returns mid => s.returns mid
  | .fails now => s.fails config now
  | .requeue => s.requeue
  | .pass readings => s.pass config readings
  | .purge => s.purge
  | .ackFor id => some (s.handleAck id)
  | .published mid => some (s.onPublish mid)

/-- What a step makes a new record of. -/
def recordMade (s : ClientState Id) : PublishLabel Id → List (Outgoing Id)
  | .record _ => s.outbox.held
  | _ => []

/-- What a step of the outbox thread hands to `_publish_raw`. -/
def handedByOutbox (s : ClientState Id) : PublishLabel Id → List (Outgoing Id)
  | .hand => s.outbox.waiting
  | _ => []

/-- What a step of either thread hands to `_publish_raw`. -/
def handedOver (config : PublishConfig) (s : ClientState Id) : PublishLabel Id → List (Outgoing Id)
  | .hand => handedByOutbox s .hand
  | .pass readings =>
    if s.expired = [] then (passOn config readings .send s.pending).map PendingPublish.item else []
  | _ => []

/-! ### What the steps do -/

section Steps

variable {config : PublishConfig} {s s' : ClientState Id} {l : PublishLabel Id}

/-- What is left of a record that the outbox thread changes. -/
theorem ClientState.get?_amend (s : ClientState Id) (id : Id)
    (f : PendingPublish Id → PendingPublish Id) (hf : ∀ r, (f r).messageId = r.messageId) (k : Id) :
    (s.amend id f hf).get? k =
      (s.pending.get? k).map fun r => if r.messageId = id then f r else r :=
  s.pending.get?_modifyAll _ _ k

/-- The log grows by what the step hands over. -/
theorem sent_of_step (h : publishStep config s l = some s') :
    s'.sent = s.sent ++ handedOver config s l := by
  cases l <;> simp only [publishStep, ClientState.enqueue, ClientState.take, ClientState.record,
    ClientState.hand, ClientState.returns, ClientState.fails, ClientState.requeue,
    ClientState.pass, ClientState.purge, Option.some.injEq] at h
  case ackFor id =>
    subst h
    unfold ClientState.handleAck handedOver
    split <;> simp [ClientState.settle]
  case published mid =>
    subst h
    unfold ClientState.onPublish handedOver
    split <;> simp [ClientState.settle]
  case hand =>
    split at h <;> simp only [Option.some.injEq, reduceCtorEq] at h
    subst h
    simp [handedOver, handedByOutbox, OutboxThread.waiting, *]
  case pass readings =>
    split at h <;> simp only [Option.some.injEq, reduceCtorEq] at h
    subst h
    simp [handedOver, ClientState.passed, *]
  all_goals
    repeat split at h
    all_goals simp only [Option.some.injEq, reduceCtorEq] at h
    subst h
    simp [handedOver, ClientState.withRecord, ClientState.purged]

end Steps

end SwarmStore
