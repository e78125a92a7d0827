/-
**The outbox for messages that have to arrive** (`lib/reliableSender.ts`).

A message that has to arrive is put into an outbox, which is kept in the storage of the browser.
Every tick goes through the outbox and tries what is due: a message that gets through leaves the
outbox, and one that is lost is due again after a delay that doubles, or is given up after the third
time.  The outbox holds forty messages, and when it is saved with more the oldest ones are gone
without a word.

A reload of the page changes nothing, since all there is is the storage.

Main definitions:

* `P2p.PendingReliable`, `P2p.processReliableOutbox` — a message in the outbox, and a pass through
  it;
* `P2p.OutboxState`, `P2p.outboxStep` — the outbox with its history, and the calls;
* `P2p.Spaced` — attempts with delays that double;
* `P2p.Holds` — what holds of the outbox and its history;
* `P2p.Paced` — passes that are two seconds apart.

Main results:

* `P2p.passLaw`, `P2p.outboxInv_step` — what a pass does, and what a call keeps;
* `P2p.outbox_accounted` — **every message has exactly one fate**, and when one is pushed out;
* `P2p.attempts_spaced` — **what is tried, how often and when**;
* `P2p.settled_after_three` — **three passes two seconds apart settle all that waits.**
-/
import Endendend.Foundation.Fates
import Endendend.Foundation.Json
import Endendend.Foundation.OrderedMap
import Endendend.Foundation.QuietTail
import Endendend.Foundation.Runs
import Mathlib.Algebra.Order.Ring.Rat

set_option relaxedAutoImplicit false
set_option autoImplicit false

namespace P2p

open Js (Str Json OrderedMap lit)
open Runs

/-! ### The outbox -/

/-- A message in the outbox.  The number tells messages apart whatever ids were drawn for them, and
is no field of the source. -/
structure PendingReliable where
  number : ℕ
  id : Str
  dest : Str
  type : Str
  payload : OrderedMap Str Json
  attempts : ℕ
  nextAttemptAt : ℤ
  createdAt : ℤ

/-- A message is given up when it has been lost so often. -/
def RELIABLE_MAX_ATTEMPTS : ℕ := 3

/-- The delay after the first time that a message is lost. -/
def RELIABLE_BASE_DELAY_MS : ℤ := 1000

/-- What the storage holds, and the empty outbox if it holds none. -/
def loadQueue (stored : Option (List PendingReliable)) : List PendingReliable := stored.getD []

/-- Only the last forty messages are saved. -/
def saveQueue (q : List PendingReliable) : List PendingReliable := QuietTail.recent 40 q

/-- A message that is sent. -/
structure GossipMessage where
  id : Str
  type : Str
  source : Str
  target : Str
  payload : OrderedMap Str Json
  timestamp : ℤ
  ttl : ℕ

/-- What a pass has made of the messages that it has gone through. -/
structure Pass where
  next : List PendingReliable
  sent : List PendingReliable
  failed : List PendingReliable
  messages : List GossipMessage

/-- What a pass depends on: whose outbox it is, the clock, the loss and a random draw for each
message, from `0` up to `1`. -/
structure PassArgs where
  source : Str
  now : ℤ
  lossPercent : ℚ
  draw : ℕ → ℚ

namespace PassArgs

variable (a : PassArgs)

def dropped (item : PendingReliable) : Bool := a.draw item.number * 100 < a.lossPercent

def messageOf (item : PendingReliable) : GossipMessage where
  id := item.id
  type := item.type
  source := a.source
  target := item.dest
  payload := item.payload.set (lit "_reliable") (.bool true)
  timestamp := a.now
  ttl := 6

/-- One turn of the loop. -/
def passItem (p : Pass) (item : PendingReliable) : Pass :=
  if a.now < item.nextAttemptAt then { p with next := p.next ++ [item] }
  else if a.dropped item = false then
    { p with sent := p.sent ++ [item], messages := p.messages ++ [a.messageOf item] }
  else
    let attempt := item.attempts + 1
    if attempt ≥ RELIABLE_MAX_ATTEMPTS then
      { p with failed := p.failed ++ [{ item with attempts := attempt }] }
    else
      let delay := RELIABLE_BASE_DELAY_MS * 2 ^ (attempt - 1)
      { p with
        next := p.next ++ [{ item with attempts := attempt, nextAttemptAt := a.now + delay }] }

/-- A pass through the outbox. -/
def processReliableOutbox (q : List PendingReliable) : Pass := q.foldl a.passItem ⟨[], [], [], []⟩

end PassArgs

/-! ### Calls and their history -/

/-- A message was tried. -/
structure Attempt where
  number : ℕ
  time : ℤ
  lost : Bool
  deriving DecidableEq

/-- A pass tries a message. -/
def PassArgs.attempt (a : PassArgs) (item : PendingReliable) : Attempt :=
  ⟨item.number, a.now, a.dropped item⟩

/-- The storage, with its history: how many messages were put in, how they left, by their numbers,
and all attempts, the last one last. -/
structure OutboxState where
  stored : Option (List PendingReliable)
  accepted : ℕ
  sent : List ℕ
  failed : List ℕ
  pushedOut : List ℕ
  cleared : List ℕ
  log : List Attempt

/-- What is put in. -/
structure Enqueued where
  id : Str
  dest : Str
  type : Str
  payload : OrderedMap Str Json
  now : ℤ

inductive OutboxMove
  | enqueue (e : Enqueued)
  | pass (a : PassArgs)
  | clear

namespace OutboxState

def start : OutboxState := ⟨none, 0, [], [], [], [], []⟩

variable (s : OutboxState)

def queue : List PendingReliable := loadQueue s.stored

/-- The storage after a save, and what is gone with it. -/
def save (q : List PendingReliable) : OutboxState :=
  { s with
    stored := some (saveQueue q)
    pushedOut := s.pushedOut ++ (q.take (q.length - 40)).map (·.number) }

/-- What is put in gets the next number, and is due at once. -/
def pending (e : Enqueued) : PendingReliable :=
  ⟨s.accepted, e.id, e.dest, e.type, e.payload, 0, e.now, e.now⟩

def enqueueReliable (e : Enqueued) : OutboxState :=
  { s with accepted := s.accepted + 1 }.save (s.queue ++ [s.pending e])

/-- The attempts of a pass. -/
def attemptsOf (a : PassArgs) (q : List PendingReliable) : List Attempt :=
  (q.filter fun item => ¬ a.now < item.nextAttemptAt).map a.attempt

/-- The history with a pass in it. -/
def tried (a : PassArgs) : OutboxState :=
  let p := a.processReliableOutbox s.queue
  { s with
    sent := s.sent ++ p.sent.map (·.number)
    failed := s.failed ++ p.failed.map (·.number)
    log := s.log ++ attemptsOf a s.queue }

def process (a : PassArgs) : OutboxState :=
  (s.tried a).save (a.processReliableOutbox s.queue).next

def clearReliableOutbox : OutboxState :=
  { s with stored := none, cleared := s.cleared ++ s.queue.map (·.number) }

/-- The attempts for one message. -/
def attemptsFor (x : ℕ) : List Attempt := s.log.filter fun t => t.number = x

end OutboxState

def outboxStep (s : OutboxState) : OutboxMove → Option OutboxState
  | .enqueue e => some (s.enqueueReliable e)
  | .pass a => some (s.process a)
  | .clear => some s.clearReliableOutbox

/-! ### What a pass does -/

/-- A message is in the outbox after a pass because it was not due, or because it was lost and may
be tried again. -/
inductive KeptBy (a : PassArgs) (item : PendingReliable) : PendingReliable → Prop
  | early (hearly : a.now < item.nextAttemptAt) : KeptBy a item item
  | again (hdue : item.nextAttemptAt ≤ a.now) (hlost : a.dropped item = true)
      (hfew : item.attempts + 1 < RELIABLE_MAX_ATTEMPTS) :
      KeptBy a item { item with
        attempts := item.attempts + 1
        nextAttemptAt := a.now + RELIABLE_BASE_DELAY_MS * 2 ^ item.attempts }

theorem KeptBy.number {a : PassArgs} {item item' : PendingReliable} (h : KeptBy a item item') :
    item'.number = item.number := by
  cases h <;> rfl

/-- **What a pass makes of the messages that it has gone through.** -/
structure PassLaw (a : PassArgs) (q : List PendingReliable) (p : Pass) : Prop where
  count : ∀ x, (q.map (·.number)).count x = (p.next.map (·.number)).count x +
    ((p.sent.map (·.number)).count x + (p.failed.map (·.number)).count x)
  order : (p.next.map (·.number)).Sublist (q.map (·.number))
  next : ∀ item' ∈ p.next, ∃ item ∈ q, KeptBy a item item'
  sent : ∀ item ∈ p.sent, item ∈ q ∧ item.nextAttemptAt ≤ a.now ∧ a.dropped item = false
  messages : p.messages = p.sent.map a.messageOf
  failed : ∀ item' ∈ p.failed, ∃ item ∈ q, item'.number = item.number ∧
    item.nextAttemptAt ≤ a.now ∧ a.dropped item = true ∧ RELIABLE_MAX_ATTEMPTS ≤ item.attempts + 1

namespace PassLaw

variable {a : PassArgs} {q : List PendingReliable} {p : Pass} {item item' : PendingReliable}

/-- The pass has gone through one message more, which it has kept. -/
theorem keep (h : PassLaw a q p) (hkept : KeptBy a item item') :
    PassLaw a (q ++ [item]) { p with next := p.next ++ [item'] } := by
  refine ⟨fun x => ?_, ?_, List.forall_mem_append.2 ⟨fun i hi => ?_, ?_⟩, fun i hi => ?_,
    h.messages, fun i hi => ?_⟩
  · have hcount := h.count x
    simp only [List.map_append, List.map_singleton, List.count_append, hkept.number]
    omega
  · rw [List.map_append, List.map_append, List.map_singleton, List.map_singleton, hkept.number]
    exact h.order.append_right _
  · exact (h.next i hi).imp fun _ => And.imp_left (List.mem_append_left _)
  · exact List.forall_mem_singleton.2 ⟨item, List.mem_concat_self, hkept⟩
  · exact (h.sent i hi).imp_left (List.mem_append_left _)
  · exact (h.failed i hi).imp fun _ => And.imp_left (List.mem_append_left _)

/-- One message more, which has got through. -/
theorem send (h : PassLaw a q p) (hdue : item.nextAttemptAt ≤ a.now)
    (htaken : a.dropped item = false) :
    PassLaw a (q ++ [item])
      { p with sent := p.sent ++ [item], messages := p.messages ++ [a.messageOf item] } := by
  refine ⟨fun x => ?_, ?_, fun i hi => ?_, List.forall_mem_append.2 ⟨fun i hi => ?_, ?_⟩, ?_,
    fun i hi => ?_⟩
  · have hcount := h.count x
    simp only [List.map_append, List.count_append]
    omega
  · rw [List.map_append]
    exact h.order.trans (List.sublist_append_left _ _)
  · exact (h.next i hi).imp fun _ => And.imp_left (List.mem_append_left _)
  · exact (h.sent i hi).imp_left (List.mem_append_left _)
  · exact List.forall_mem_singleton.2 ⟨List.mem_concat_self, hdue, htaken⟩
  · rw [h.messages, List.map_append, List.map_singleton]
  · exact (h.failed i hi).imp fun _ => And.imp_left (List.mem_append_left _)

/-- One message more, which is given up. -/
theorem giveUp (h : PassLaw a q p) (hdue : item.nextAttemptAt ≤ a.now)
    (hlost : a.dropped item = true) (hmany : RELIABLE_MAX_ATTEMPTS ≤ item.attempts + 1) :
    PassLaw a (q ++ [item])
      { p with failed := p.failed ++ [{ item with attempts := item.attempts + 1 }] } := by
  refine ⟨fun x => ?_, ?_, fun i hi => ?_, fun i hi => ?_, h.messages,
    List.forall_mem_append.2 ⟨fun i hi => ?_, ?_⟩⟩
  · have hcount := h.count x
    simp only [List.map_append, List.map_singleton, List.count_append]
    omega
  · rw [List.map_append]
    exact h.order.trans (List.sublist_append_left _ _)
  · exact (h.next i hi).imp fun _ => And.imp_left (List.mem_append_left _)
  · exact (h.sent i hi).imp_left (List.mem_append_left _)
  · exact (h.failed i hi).imp fun _ => And.imp_left (List.mem_append_left _)
  · exact List.forall_mem_singleton.2 ⟨item, List.mem_concat_self, rfl, hdue, hlost, hmany⟩

theorem passItem (h : PassLaw a q p) (item : PendingReliable) :
    PassLaw a (q ++ [item]) (a.passItem p item) := by
  simp only [PassArgs.passItem, Nat.add_sub_cancel]
  split_ifs with hearly hdropped hmany
  · exact h.keep (.early hearly)
  · exact h.send (not_lt.1 hearly) hdropped
  · exact h.giveUp (not_lt.1 hearly) (Bool.eq_true_of_not_eq_false hdropped) hmany
  · exact h.keep (.again (not_lt.1 hearly) (Bool.eq_true_of_not_eq_false hdropped) (not_le.1 hmany))

end PassLaw

theorem passLaw (a : PassArgs) (q : List PendingReliable) :
    PassLaw a q (a.processReliableOutbox q) := by
  induction q using List.reverseRecOn with
  | nil => constructor <;> simp [PassArgs.processReliableOutbox]
  | append_singleton q item ih =>
      rw [PassArgs.processReliableOutbox, List.foldl_concat]
      exact ih.passItem item

/-- Where the numbers are different, a number is that of one message. -/
theorem filter_number {q : List PendingReliable} (h : (q.map (·.number)).Nodup)
    {item : PendingReliable} (hitem : item ∈ q) :
    (q.filter fun i => i.number = item.number) = [item] := by
  induction q with
  | nil => cases hitem
  | cons i q ih =>
      obtain ⟨hnew, hnodup⟩ := List.nodup_cons.1 h
      rcases List.mem_cons.1 hitem with rfl | hitem
      · rw [List.filter_cons_of_pos (by simp), List.filter_eq_nil_iff.2]
        intro i hi hnumber
        exact hnew (List.mem_map.2 ⟨i, hi, by simpa using hnumber⟩)
      · rw [List.filter_cons_of_neg, ih hnodup hitem]
        intro hnumber
        exact hnew (List.mem_map.2 ⟨item, hitem, (by simpa using hnumber : i.number = _).symm⟩)

namespace OutboxState

/-- The attempts of a pass for one message. -/
theorem filter_attemptsOf {a : PassArgs} {q : List PendingReliable}
    (h : (q.map (·.number)).Nodup) {item : PendingReliable} (hitem : item ∈ q) :
    ((attemptsOf a q).filter fun t => t.number = item.number) =
      if item.nextAttemptAt ≤ a.now then [a.attempt item] else [] := by
  have hone := filter_number h hitem
  rw [attemptsOf, List.filter_map, List.filter_filter]
  have hcomm : (q.filter fun i => ((fun t : Attempt => decide (t.number = item.number)) ∘
      a.attempt) i && decide ¬ a.now < i.nextAttemptAt) =
      (q.filter fun i => i.number = item.number).filter fun i => ¬ a.now < i.nextAttemptAt := by
    rw [List.filter_filter]
    exact List.filter_congr fun i _ => Bool.and_comm _ _
  rw [hcomm, hone]
  split_ifs with hdue
  · rw [List.filter_cons_of_pos (by simpa using hdue)]
    rfl
  · rw [List.filter_cons_of_neg (by simpa using hdue)]
    rfl

theorem filter_attemptsOf_eq_nil {a : PassArgs} {q : List PendingReliable} {x : ℕ}
    (h : x ∉ q.map (·.number)) : ((attemptsOf a q).filter fun t => t.number = x) = [] := by
  rw [List.filter_eq_nil_iff]
  intro t ht hx
  obtain ⟨item, hitem, rfl⟩ := List.mem_map.1 ht
  exact h (List.mem_map.2 ⟨item, (List.mem_filter.1 hitem).1, of_decide_eq_true hx⟩)

end OutboxState

/-! ### The attempts for one message -/

/-- Attempts with delays that double: after the attempt number `i` it takes `2 ^ i` seconds at
least. -/
def Spaced (ts : List ℤ) : Prop :=
  ∀ i t t', ts[i]? = some t → ts[i + 1]? = some t' → t + RELIABLE_BASE_DELAY_MS * 2 ^ i ≤ t'

namespace Spaced

variable {ts : List ℤ} {t t' : ℤ}

theorem singleton (t : ℤ) : Spaced [t] := by
  intro i _ _ _ h
  simp at h

theorem init (h : Spaced (ts ++ [t])) : Spaced ts := by
  intro i u u' hu hu'
  obtain ⟨hlt, -⟩ := List.getElem?_eq_some_iff.1 hu'
  refine h i u u' ?_ ?_
  · rwa [List.getElem?_append_left (by omega)]
  · rwa [List.getElem?_append_left hlt]

/-- The last attempt may be later. -/
theorem later (h : Spaced (ts ++ [t])) (hle : t ≤ t') : Spaced (ts ++ [t']) := by
  intro i u u' hu hu'
  obtain hlt | heq | hgt := Nat.lt_trichotomy (i + 1) ts.length
  · rw [List.getElem?_append_left (by omega)] at hu hu'
    exact h.init i u u' hu hu'
  · rw [List.getElem?_append_left (by omega)] at hu
    rw [heq, List.getElem?_concat_length] at hu'
    refine (h i u t ?_ ?_).trans (hle.trans (Option.some.inj hu').le)
    · rwa [List.getElem?_append_left (by omega)]
    · rw [heq, List.getElem?_concat_length]
  · rw [List.getElem?_eq_none (by rw [List.length_append, List.length_singleton]; omega)] at hu'
    cases hu'

/-- One more attempt, after its delay. -/
theorem again (h : Spaced (ts ++ [t])) (hdelay : t + RELIABLE_BASE_DELAY_MS * 2 ^ ts.length ≤ t') :
    Spaced (ts ++ [t] ++ [t']) := by
  intro i u u' hu hu'
  have hlength : (ts ++ [t]).length = ts.length + 1 := by simp
  obtain hlt | heq | hgt := Nat.lt_trichotomy i ts.length
  · rw [List.getElem?_append_left (by omega)] at hu hu'
    exact h i u u' hu hu'
  · subst heq
    rw [List.getElem?_append_left (by omega), List.getElem?_concat_length] at hu
    rw [← hlength, List.getElem?_concat_length] at hu'
    obtain rfl := Option.some.inj hu
    obtain rfl := Option.some.inj hu'
    exact hdelay
  · rw [List.getElem?_eq_none (by rw [List.length_append, List.length_singleton]; omega)] at hu'
    cases hu'

end Spaced

/-- All attempts were lost, and there may be more. -/
structure Unheard (ts : List Attempt) : Prop where
  lost : ∀ t ∈ ts, t.lost = true
  few : ts.length < RELIABLE_MAX_ATTEMPTS
  spaced : Spaced (ts.map (·.time))

/-- A message waits after its attempts: all were lost, and the next one is far enough from them. -/
structure Waits (ts : List Attempt) (item : PendingReliable) : Prop where
  lost : ∀ t ∈ ts, t.lost = true
  attempts : item.attempts = ts.length
  few : ts.length < RELIABLE_MAX_ATTEMPTS
  spaced : Spaced (ts.map (·.time) ++ [item.nextAttemptAt])

/-- The last attempt was the only one not lost. -/
structure Arrived (ts : List Attempt) : Prop where
  taken : ∃ t ∈ ts, t.lost = false
  lost : ∀ t ∈ ts.dropLast, t.lost = true
  few : ts.length ≤ RELIABLE_MAX_ATTEMPTS
  spaced : Spaced (ts.map (·.time))

/-- All attempts were lost, and there is no other one. -/
structure GivenUp (ts : List Attempt) : Prop where
  lost : ∀ t ∈ ts, t.lost = true
  many : ts.length = RELIABLE_MAX_ATTEMPTS
  spaced : Spaced (ts.map (·.time))

namespace Waits

variable {ts : List Attempt} {item : PendingReliable} {a : PassArgs}

/-- A message that was not tried. -/
theorem fresh (h : item.attempts = 0) : Waits [] item :=
  ⟨fun _ ht => absurd ht List.not_mem_nil, h, by decide, Spaced.singleton _⟩

theorem unheard (h : Waits ts item) : Unheard ts := ⟨h.lost, h.few, h.spaced.init⟩

/-- The times of the attempts with the one of a pass. -/
theorem spaced_attempt (h : Waits ts item) (hdue : item.nextAttemptAt ≤ a.now) :
    Spaced ((ts ++ [a.attempt item]).map (·.time)) := by
  rw [List.map_append]
  exact h.spaced.later hdue

theorem lost_attempt (h : Waits ts item) (hlost : a.dropped item = true) :
    ∀ t ∈ ts ++ [a.attempt item], t.lost = true := by
  intro t ht
  rcases List.mem_append.1 ht with ht | ht
  · exact h.lost t ht
  · rw [List.mem_singleton.1 ht]
    exact hlost

theorem arrived (h : Waits ts item) (hdue : item.nextAttemptAt ≤ a.now)
    (htaken : a.dropped item = false) : Arrived (ts ++ [a.attempt item]) := by
  refine ⟨⟨_, List.mem_append_right _ (List.mem_singleton_self _), htaken⟩, ?_, ?_,
    h.spaced_attempt hdue⟩
  · rw [List.dropLast_concat]
    exact h.lost
  · rw [List.length_append]
    exact h.few

theorem givenUp (h : Waits ts item) (hdue : item.nextAttemptAt ≤ a.now)
    (hlost : a.dropped item = true) (hmany : RELIABLE_MAX_ATTEMPTS ≤ item.attempts + 1) :
    GivenUp (ts ++ [a.attempt item]) := by
  refine ⟨h.lost_attempt hlost, ?_, h.spaced_attempt hdue⟩
  have hfew := h.few
  have hattempts := h.attempts
  rw [List.length_append, List.length_singleton]
  omega

/-- A message that is kept waits, after the attempt of this pass if there was one. -/
theorem kept (h : Waits ts item) {item' : PendingReliable} (hkept : KeptBy a item item') :
    Waits (ts ++ if item.nextAttemptAt ≤ a.now then [a.attempt item] else []) item' := by
  cases hkept with
  | early hearly =>
      rw [if_neg (not_le.2 hearly), List.append_nil]
      exact h
  | again hdue hlost hfew =>
      rw [if_pos hdue]
      have hlength : (ts ++ [a.attempt item]).length = item.attempts + 1 := by
        rw [List.length_append, List.length_singleton, h.attempts]
      refine ⟨h.lost_attempt hlost, hlength.symm, hlength.trans_lt hfew, ?_⟩
      rw [List.map_append, List.map_singleton]
      refine (h.spaced.later hdue).again ?_
      rw [List.length_map, ← h.attempts]

end Waits

/-! ### Fates -/

/-- What has become of a message. -/
inductive OutboxFate
  | waiting
  | sent
  | failed
  | pushedOut
  | cleared
  deriving DecidableEq

instance : Fintype OutboxFate where
  elems := ⟨([.waiting, .sent, .failed, .pushedOut, .cleared] : List OutboxFate), by decide⟩
  complete := by
    intro f
    cases f <;> decide

namespace OutboxState

/-- The messages under each fate, where `q` is what waits. -/
def idsWith (s : OutboxState) (q : List PendingReliable) : OutboxFate → List ℕ
  | .waiting => q.map (·.number)
  | .sent => s.sent
  | .failed => s.failed
  | .pushedOut => s.pushedOut
  | .cleared => s.cleared

/-- The messages under each fate. -/
def ids (s : OutboxState) : OutboxFate → List ℕ := s.idsWith s.queue

end OutboxState

theorem sum_outboxFate (g : OutboxFate → ℕ) :
    ∑ f, g f = g .waiting + (g .sent + (g .failed + (g .pushedOut + g .cleared))) := rfl

/-- **What holds of the outbox while `q` is what waits.**  The messages in it are in the order of
their numbers, and what was pushed out is older. -/
structure Holds (s : OutboxState) (q : List PendingReliable) : Prop where
  accounted : Fates.Accounted (s.idsWith q) s.accepted
  order : (q.map (·.number)).Pairwise (· < ·)
  oldest : ∀ x ∈ s.pushedOut, ∀ y ∈ q.map (·.number), x < y
  waiting : ∀ item ∈ q, Waits (s.attemptsFor item.number) item
  sent : ∀ x ∈ s.sent, Arrived (s.attemptsFor x)
  failed : ∀ x ∈ s.failed, GivenUp (s.attemptsFor x)
  gone : ∀ x, x ∈ s.pushedOut ∨ x ∈ s.cleared → Unheard (s.attemptsFor x)
  old : ∀ t ∈ s.log, t.number < s.accepted

namespace Holds

variable {s : OutboxState} {q : List PendingReliable}

theorem start : Holds .start [] := by
  refine ⟨Fates.Accounted.start fun f => ?_, List.Pairwise.nil, ?_, ?_, ?_, ?_, ?_, ?_⟩
  · cases f <;> rfl
  all_goals simp [OutboxState.start]

/-- What waits is another message than what does not. -/
theorem not_waiting (h : Holds s q) {f : OutboxFate} (hf : f ≠ .waiting) {x : ℕ}
    (hx : x ∈ s.idsWith q f) : x ∉ q.map (·.number) := fun hwaiting =>
  hf (h.accounted.unique hx hwaiting)

/-- A save pushes out the oldest messages. -/
theorem save (h : Holds s q) : Holds (s.save q) (saveQueue q) := by
  have hsplit : q.take (q.length - 40) ++ saveQueue q = q := List.take_append_drop _ q
  have hnumbers : q.map (·.number) =
      (q.take (q.length - 40)).map (·.number) ++ (saveQueue q).map (·.number) := by
    rw [← List.map_append, hsplit]
  have hmem : ∀ {item}, item ∈ saveQueue q → item ∈ q := fun hitem =>
    hsplit ▸ List.mem_append_right _ hitem
  have horder := h.order
  rw [hnumbers, List.pairwise_append] at horder
  refine ⟨h.accounted.move fun x => ?_, horder.2.1, fun x hx y hy => ?_,
    fun item hitem => h.waiting item (hmem hitem), h.sent, h.failed, fun x hx => ?_, h.old⟩
  · simp only [sum_outboxFate, OutboxState.idsWith, OutboxState.save, hnumbers, List.count_append]
    omega
  · rcases List.mem_append.1 hx with hx | hx
    · exact h.oldest x hx y (hnumbers ▸ List.mem_append_right _ hy)
    · exact horder.2.2 x hx y hy
  · rw [OutboxState.save, List.mem_append, or_assoc] at hx
    rcases hx with hx | hx | hx
    · exact h.gone x (.inl hx)
    · obtain ⟨item, hitem, rfl⟩ := List.mem_map.1 hx
      exact (h.waiting item (List.mem_of_mem_take hitem)).unheard
    · exact h.gone x (.inr hx)

/-- A message that is put in has no attempts. -/
theorem put (h : Holds s q) (e : Enqueued) :
    Holds { s with accepted := s.accepted + 1 } (q ++ [s.pending e]) := by
  have hnew : s.attemptsFor s.accepted = [] := by
    rw [OutboxState.attemptsFor, List.filter_eq_nil_iff]
    intro t ht
    simpa using (h.old t ht).ne
  have hbelow : ∀ y ∈ q.map (·.number), y < s.accepted := fun y hy =>
    h.accounted.lt (f := OutboxFate.waiting) hy
  refine ⟨h.accounted.issue fun x => ?_, ?_, fun x hx y hy => ?_, fun item hitem => ?_, h.sent,
    h.failed, h.gone, fun t ht => Nat.lt_succ_of_lt (h.old t ht)⟩
  · simp only [sum_outboxFate, OutboxState.idsWith, List.map_append, List.map_singleton,
      List.count_append, List.count_singleton, beq_iff_eq, OutboxState.pending, eq_comm (a := x)]
    omega
  · rw [List.map_append, List.pairwise_append]
    refine ⟨h.order, List.pairwise_singleton _ _, fun y hy z hz => ?_⟩
    rw [List.map_singleton, List.mem_singleton] at hz
    exact hz ▸ hbelow y hy
  · rw [List.map_append, List.map_singleton, List.mem_append, List.mem_singleton] at hy
    rcases hy with hy | rfl
    · exact h.oldest x hx y hy
    · exact h.accounted.lt (f := OutboxFate.pushedOut) hx
  · rcases List.mem_append.1 hitem with hitem | hitem
    · exact h.waiting item hitem
    · obtain rfl := List.mem_singleton.1 hitem
      have hfresh : Waits (s.attemptsFor s.accepted) (s.pending e) := hnew ▸ Waits.fresh rfl
      exact hfresh

/-- The state after the attempts of a pass, before it is saved. -/
theorem tried (h : Holds s s.queue) (a : PassArgs) :
    Holds (s.tried a) (a.processReliableOutbox s.queue).next := by
  have hlaw := passLaw a s.queue
  have hnodup : (s.queue.map (·.number)).Nodup := h.order.nodup
  have hitem : ∀ item ∈ s.queue, (s.tried a).attemptsFor item.number =
      s.attemptsFor item.number ++
        if item.nextAttemptAt ≤ a.now then [a.attempt item] else [] := by
    intro item hitem
    rw [OutboxState.attemptsFor, OutboxState.tried, List.filter_append,
      OutboxState.filter_attemptsOf hnodup hitem]
    rfl
  have hother : ∀ x ∉ s.queue.map (·.number), (s.tried a).attemptsFor x = s.attemptsFor x := by
    intro x hx
    rw [OutboxState.attemptsFor, OutboxState.tried, List.filter_append,
      OutboxState.filter_attemptsOf_eq_nil hx, List.append_nil]
    rfl
  refine ⟨h.accounted.move fun x => ?_, h.order.sublist hlaw.order,
    fun x hx y hy => h.oldest x hx y (hlaw.order.subset hy), fun item' hitem' => ?_,
    fun x hx => ?_, fun x hx => ?_, fun x hx => ?_, fun t ht => ?_⟩
  · have hcount := hlaw.count x
    simp only [sum_outboxFate, OutboxState.idsWith, OutboxState.tried, List.count_append]
    omega
  · obtain ⟨item, hmem, hkept⟩ := hlaw.next item' hitem'
    rw [hkept.number, hitem item hmem]
    exact (h.waiting item hmem).kept hkept
  · rcases List.mem_append.1 hx with hx | hx
    · rw [hother x (h.not_waiting (f := OutboxFate.sent) (by decide) hx)]
      exact h.sent x hx
    · obtain ⟨item, hmem, rfl⟩ := List.mem_map.1 hx
      obtain ⟨hqueue, hdue, htaken⟩ := hlaw.sent item hmem
      rw [hitem item hqueue, if_pos hdue]
      exact (h.waiting item hqueue).arrived hdue htaken
  · rcases List.mem_append.1 hx with hx | hx
    · rw [hother x (h.not_waiting (f := OutboxFate.failed) (by decide) hx)]
      exact h.failed x hx
    · obtain ⟨item', hmem, rfl⟩ := List.mem_map.1 hx
      obtain ⟨item, hqueue, hnumber, hdue, hlost, hmany⟩ := hlaw.failed item' hmem
      rw [hnumber, hitem item hqueue, if_pos hdue]
      exact (h.waiting item hqueue).givenUp hdue hlost hmany
  · rw [hother x]
    · exact h.gone x hx
    · rcases hx with hx | hx
      · exact h.not_waiting (f := OutboxFate.pushedOut) (by decide) hx
      · exact h.not_waiting (f := OutboxFate.cleared) (by decide) hx
  · rcases List.mem_append.1 ht with ht | ht
    · exact h.old t ht
    · obtain ⟨item, hmem, rfl⟩ := List.mem_map.1 ht
      refine h.accounted.lt (f := OutboxFate.waiting) (List.mem_map.2 ⟨item, ?_, rfl⟩)
      exact (List.mem_filter.1 hmem).1

theorem clear (h : Holds s s.queue) : Holds s.clearReliableOutbox [] := by
  refine ⟨h.accounted.move fun x => ?_, List.Pairwise.nil, by simp, by simp, h.sent, h.failed,
    fun x hx => ?_, h.old⟩
  · simp only [sum_outboxFate, OutboxState.idsWith, OutboxState.clearReliableOutbox, List.map_nil,
      List.count_nil, List.count_append]
    omega
  · rw [OutboxState.clearReliableOutbox, List.mem_append] at hx
    rcases hx with hx | hx | hx
    · exact h.gone x (.inl hx)
    · exact h.gone x (.inr hx)
    · obtain ⟨item, hitem, rfl⟩ := List.mem_map.1 hx
      exact (h.waiting item hitem).unheard

end Holds

/-- The law of the outbox holds of what is stored, which is not too much. -/
structure OutboxInv (s : OutboxState) : Prop where
  holds : Holds s s.queue
  room : s.queue.length ≤ 40

variable {s s' : OutboxState}

theorem OutboxInv.of_save {q : List PendingReliable} (h : Holds s q) : OutboxInv (s.save q) :=
  ⟨h.save, (QuietTail.length_recent 40 q).trans_le (min_le_left _ _)⟩

theorem outboxInv_step (h : OutboxInv s) {mv : OutboxMove} (hstep : outboxStep s mv = some s') :
    OutboxInv s' := by
  cases mv with
  | enqueue e =>
      obtain rfl := Option.some.inj hstep
      exact .of_save (h.holds.put e)
  | pass a =>
      obtain rfl := Option.some.inj hstep
      exact .of_save (h.holds.tried a)
  | clear =>
      obtain rfl := Option.some.inj hstep
      exact ⟨h.holds.clear, Nat.zero_le _⟩

theorem outboxInv_run {ls : List OutboxMove} (h : run outboxStep .start ls = some s) :
    OutboxInv s :=
  invariant_of_run (I := OutboxInv) (fun _ _ _ h hstep => outboxInv_step h hstep)
    ⟨.start, Nat.zero_le _⟩ h

/-! ### Every message has a fate -/

/-- No message is put into a full outbox. -/
def HasRoom (s : OutboxState) : OutboxMove → Prop
  | .enqueue _ => s.queue.length < 40
  | _ => True

instance (s : OutboxState) : DecidablePred (HasRoom s) := fun mv => by
  cases mv <;> unfold HasRoom <;> infer_instance

/-- What a save adds to what was pushed out. -/
theorem pushedOut_save_eq_nil_iff (s : OutboxState) (q : List PendingReliable) :
    (s.save q).pushedOut = [] ↔ s.pushedOut = [] ∧ q.length ≤ 40 := by
  rw [OutboxState.save, List.append_eq_nil_iff, List.map_eq_nil_iff, List.take_eq_nil_iff,
    ← List.length_eq_zero_iff (l := q)]
  refine and_congr_right fun _ => ?_
  omega

theorem pushedOut_step (h : OutboxInv s) {mv : OutboxMove} (hstep : outboxStep s mv = some s') :
    s'.pushedOut = [] ↔ s.pushedOut = [] ∧ HasRoom s mv := by
  cases mv with
  | enqueue e =>
      obtain rfl := Option.some.inj hstep
      rw [OutboxState.enqueueReliable, pushedOut_save_eq_nil_iff, List.length_append]
      exact Iff.rfl
  | pass a =>
      obtain rfl := Option.some.inj hstep
      have hle := (passLaw a s.queue).order.length_le
      rw [List.length_map, List.length_map] at hle
      rw [OutboxState.process, pushedOut_save_eq_nil_iff]
      exact and_congr_right fun _ => iff_of_true (hle.trans h.room) trivial
  | clear =>
      obtain rfl := Option.some.inj hstep
      exact (and_iff_left trivial).symm

/-- **Every message has exactly one fate**, the outbox never holds more than forty, what is pushed
out of it is older than what it holds, and nothing is pushed out exactly if no message is put into a
full outbox. -/
theorem outbox_accounted {ls : List OutboxMove} (h : run outboxStep .start ls = some s) :
    (∀ x < s.accepted, ∃! f, x ∈ s.ids f) ∧ s.queue.length ≤ 40 ∧
      (∀ x ∈ s.pushedOut, ∀ item ∈ s.queue, x < item.number) ∧
      (s.pushedOut = [] ↔ Along outboxStep HasRoom .start ls) := by
  have hinv := outboxInv_run h
  refine ⟨fun x hx => hinv.holds.accounted.existsUnique hx, hinv.room,
    fun x hx item hitem => ?_, ?_⟩
  · exact hinv.holds.oldest x hx item.number (List.mem_map_of_mem hitem)
  · rw [iff_along (fun _ _ _ hinv hstep => outboxInv_step hinv hstep)
      (fun _ _ _ hinv hstep => pushedOut_step hinv hstep) ⟨.start, Nat.zero_le _⟩ h]
    exact and_iff_right rfl

/-- A message to put in, and a pass at a loss. -/
def note (now : ℤ) : OutboxMove :=
  .enqueue ⟨lit "rel-0", lit "node-b", lit "CHAIN_UPDATE", ∅, now⟩

def passAt (now : ℤ) (lossPercent : ℚ) : OutboxMove :=
  .pass ⟨lit "node-a", now, lossPercent, fun _ => 1 / 2⟩

theorem outbox_accounted_overfull :
    ∃ s, run outboxStep .start (List.replicate 41 (note 0)) = some s ∧ s.pushedOut = [0] ∧
      s.queue.length ≤ 40 ∧ ¬ Along outboxStep HasRoom .start (List.replicate 41 (note 0)) := by
  have hpushed : (run outboxStep .start (List.replicate 41 (note 0))).map (·.pushedOut) =
      some [0] := by decide +kernel
  obtain ⟨s, h, hs⟩ := Option.map_eq_some_iff.1 hpushed
  obtain ⟨-, hroom, -, hiff⟩ := outbox_accounted h
  refine ⟨s, h, hs, hroom, fun halong => ?_⟩
  rw [hiff.2 halong] at hs
  cases hs

/-! ### What is tried -/

/-- **What is tried, how often and when**: attempts come with delays that double, all but the last
one are lost, and there are three at most; a message is sent exactly if one of its attempts is not
lost, and given up exactly if three are. -/
theorem attempts_spaced {ls : List OutboxMove} (h : run outboxStep .start ls = some s) {x : ℕ}
    (hx : x < s.accepted) :
    Spaced ((s.attemptsFor x).map (·.time)) ∧ (∀ t ∈ (s.attemptsFor x).dropLast, t.lost = true) ∧
      (s.attemptsFor x).length ≤ RELIABLE_MAX_ATTEMPTS ∧
      (x ∈ s.sent ↔ ∃ t ∈ s.attemptsFor x, t.lost = false) ∧
      (x ∈ s.failed ↔ (s.attemptsFor x).length = RELIABLE_MAX_ATTEMPTS ∧
        ∀ t ∈ s.attemptsFor x, t.lost = true) := by
  have hinv := (outboxInv_run h).holds
  obtain ⟨f, hf, honly⟩ := hinv.accounted.existsUnique hx
  have hsent : x ∈ s.sent ↔ f = .sent :=
    ⟨fun hsent => (honly .sent hsent).symm, fun heq => by subst heq; exact hf⟩
  have hfailed : x ∈ s.failed ↔ f = .failed :=
    ⟨fun hfailed => (honly .failed hfailed).symm, fun heq => by subst heq; exact hf⟩
  rw [hsent, hfailed]
  have hunheard : f ≠ .sent → f ≠ .failed → Unheard (s.attemptsFor x) := by
    intro hne hne'
    cases f with
    | waiting =>
        obtain ⟨item, hitem, rfl⟩ := List.mem_map.1 hf
        exact (hinv.waiting item hitem).unheard
    | sent => exact absurd rfl hne
    | failed => exact absurd rfl hne'
    | pushedOut => exact hinv.gone x (.inl hf)
    | cleared => exact hinv.gone x (.inr hf)
  by_cases hne : f = .sent
  · subst hne
    obtain ⟨htaken, hlost, hfew, hspaced⟩ := hinv.sent x hf
    obtain ⟨t, ht, htrue⟩ := htaken
    refine ⟨hspaced, hlost, hfew, iff_of_true rfl ⟨t, ht, htrue⟩, iff_of_false (by decide) ?_⟩
    rintro ⟨-, hall⟩
    simp [hall t ht] at htrue
  by_cases hne' : f = .failed
  · subst hne'
    obtain ⟨hlost, hmany, hspaced⟩ := hinv.failed x hf
    refine ⟨hspaced, fun t ht => hlost t (List.mem_of_mem_dropLast ht), hmany.le,
      iff_of_false (by decide) ?_, iff_of_true rfl ⟨hmany, hlost⟩⟩
    rintro ⟨t, ht, htrue⟩
    simp [hlost t ht] at htrue
  · obtain ⟨hlost, hfew, hspaced⟩ := hunheard hne hne'
    refine ⟨hspaced, fun t ht => hlost t (List.mem_of_mem_dropLast ht), hfew.le,
      iff_of_false hne ?_, iff_of_false hne' fun hmany => absurd hmany.1 hfew.ne⟩
    rintro ⟨t, ht, htrue⟩
    simp [hlost t ht] at htrue

/-- Two attempts are lost, and the third one is not. -/
def thirdTime : List OutboxMove :=
  [note 0, passAt 0 100, passAt 999 0, passAt 1000 100, passAt 2999 0, passAt 3000 0]

theorem attempts_spaced_thirdTime :
    ∃ s, run outboxStep .start thirdTime = some s ∧
      (s.attemptsFor 0).map (·.time) = [0, 1000, 3000] ∧
      Spaced ((s.attemptsFor 0).map (·.time)) ∧ 0 ∈ s.sent ∧ 0 ∉ s.failed := by
  have hend : (run outboxStep .start thirdTime).map (fun s => (s.accepted, s.attemptsFor 0)) =
      some (1, [⟨0, 0, true⟩, ⟨0, 1000, true⟩, ⟨0, 3000, false⟩]) := by decide +kernel
  obtain ⟨s, h, hs⟩ := Option.map_eq_some_iff.1 hend
  obtain ⟨haccepted, hlog⟩ := Prod.mk.inj hs
  obtain ⟨hspaced, -, -, hsent, hfailed⟩ := attempts_spaced h (haccepted ▸ Nat.zero_lt_one)
  refine ⟨s, h, by rw [hlog]; rfl, hspaced, hsent.2 ?_, fun hmem => ?_⟩
  · exact hlog ▸ ⟨⟨0, 3000, false⟩, by decide, rfl⟩
  · have hall := (hfailed.1 hmem).2
    rw [hlog] at hall
    exact absurd (hall ⟨0, 3000, false⟩ (by decide)) (by decide)

/-! ### How long a message waits -/

/-- The time that a call is given. -/
def OutboxMove.time : OutboxMove → Option ℤ
  | .enqueue e => some e.now
  | .pass a => some a.now
  | .clear => none

/-- The times of the passes. -/
def passTimes (ls : List OutboxMove) : List ℤ :=
  ls.filterMap fun mv => match mv with
    | .pass a => some a.now
    | _ => none

/-- **Where a message in the outbox comes from.** -/
inductive ComesFrom (s : OutboxState) : OutboxMove → PendingReliable → Prop
  | put (e : Enqueued) : ComesFrom s (.enqueue e) (s.pending e)
  | stays (e : Enqueued) {item : PendingReliable} (hitem : item ∈ s.queue) :
      ComesFrom s (.enqueue e) item
  | kept {a : PassArgs} {item item' : PendingReliable} (hitem : item ∈ s.queue)
      (hkept : KeptBy a item item') : ComesFrom s (.pass a) item'

theorem comesFrom {mv : OutboxMove} (hstep : outboxStep s mv = some s') {item : PendingReliable}
    (hitem : item ∈ s'.queue) : ComesFrom s mv item := by
  have hsaved : ∀ {q : List PendingReliable}, item ∈ saveQueue q → item ∈ q := fun hitem =>
    List.mem_of_mem_drop hitem
  cases mv with
  | enqueue e =>
      obtain rfl := Option.some.inj hstep
      rcases List.mem_append.1 (hsaved hitem) with hitem | hitem
      · exact .stays e hitem
      · obtain rfl := List.mem_singleton.1 hitem
        exact .put e
  | pass a =>
      obtain rfl := Option.some.inj hstep
      obtain ⟨old, hold, hkept⟩ := (passLaw a s.queue).next item (hsaved hitem)
      exact .kept hold hkept
  | clear =>
      obtain rfl := Option.some.inj hstep
      cases hitem

/-- The longest delay. -/
theorem KeptBy.nextAttemptAt_le {a : PassArgs} {item item' : PendingReliable}
    (h : KeptBy a item item') :
    item'.nextAttemptAt ≤ max item.nextAttemptAt (a.now + 2000) := by
  cases h with
  | early => exact le_max_left _ _
  | again hdue hlost hfew =>
      refine le_max_of_le_right ?_
      obtain hzero | hone : item.attempts = 0 ∨ item.attempts = 1 := by
        rw [RELIABLE_MAX_ATTEMPTS] at hfew
        omega
      · simp only [hzero, RELIABLE_BASE_DELAY_MS]
        omega
      · simp only [hone, RELIABLE_BASE_DELAY_MS]
        omega

/-- What waits is due two seconds after the last call at the latest. -/
theorem nextAttemptAt_le {ls : List OutboxMove} (h : run outboxStep .start ls = some s) {t₀ : ℤ}
    (hpast : ∀ t ∈ ls.filterMap OutboxMove.time, t ≤ t₀) :
    ∀ item ∈ s.queue, item.nextAttemptAt ≤ t₀ + 2000 := by
  refine invariant_of_history (I := fun ls s => (∀ t ∈ ls.filterMap OutboxMove.time, t ≤ t₀) →
    ∀ item ∈ s.queue, item.nextAttemptAt ≤ t₀ + 2000) (fun _ _ hitem => by cases hitem) ?_ h hpast
  intro ls mv s₁ s₂ _ ih hstep hpast item hitem
  rw [List.filterMap_append] at hpast
  have ih := ih fun t ht => hpast t (List.mem_append_left _ ht)
  have hnow : ∀ t ∈ mv.time, t ≤ t₀ := by
    intro t ht
    refine hpast t (List.mem_append_right _ ?_)
    rw [List.filterMap_cons_some ht]
    exact List.mem_cons_self
  cases comesFrom hstep hitem with
  | put e =>
      have hnow : e.now ≤ t₀ := hnow e.now rfl
      show e.now ≤ _
      omega
  | stays e hitem => exact ih item hitem
  | @kept a old _ hold hkept =>
      have hnow : a.now ≤ t₀ := hnow a.now rfl
      refine hkept.nextAttemptAt_le.trans (max_le (ih old hold) ?_)
      omega

/-- A pass that is late enough tries what waits. -/
theorem KeptBy.attempts {a : PassArgs} {item item' : PendingReliable} (h : KeptBy a item item')
    (hdue : item.nextAttemptAt ≤ a.now) :
    item'.attempts = item.attempts + 1 ∧ item'.nextAttemptAt ≤ a.now + 2000 := by
  have hle := h.nextAttemptAt_le
  rw [max_eq_right (by omega)] at hle
  cases h with
  | early hearly => exact absurd hdue (not_le.2 hearly)
  | again => exact ⟨rfl, hle⟩

/-- The passes come two seconds after the time `t₀` and after each other, or later. -/
def Paced (t₀ : ℤ) (ls : List OutboxMove) : Prop :=
  (t₀ :: passTimes ls).IsChain fun t t' => t + 2000 ≤ t'

instance (t₀ : ℤ) : DecidablePred (Paced t₀) := fun ls =>
  inferInstanceAs (Decidable ((t₀ :: passTimes ls).IsChain fun t t' => t + 2000 ≤ t'))

/-- The time of the last pass, or `t₀` if there was none. -/
def lastPass (t₀ : ℤ) (ls : List OutboxMove) : ℤ := (passTimes ls).getLast?.getD t₀

theorem passTimes_concat_pass (ls : List OutboxMove) (a : PassArgs) :
    passTimes (ls ++ [.pass a]) = passTimes ls ++ [a.now] :=
  List.filterMap_append

theorem paced_concat_pass {t₀ : ℤ} {ls : List OutboxMove} {a : PassArgs}
    (h : Paced t₀ (ls ++ [.pass a])) : Paced t₀ ls ∧ lastPass t₀ ls + 2000 ≤ a.now := by
  rw [Paced, passTimes_concat_pass, ← List.cons_append, List.isChain_append] at h
  exact ⟨h.1, h.2.2 _ List.getLast?_cons _ rfl⟩

theorem lastPass_concat_pass (t₀ : ℤ) (ls : List OutboxMove) (a : PassArgs) :
    lastPass t₀ (ls ++ [.pass a]) = a.now := by
  rw [lastPass, passTimes_concat_pass, List.getLast?_concat, Option.getD_some]

/-- Since a state, what waited in it was tried in each of the passes `ls`, and is due two seconds
after the last of them. -/
structure TriedInAll (s : OutboxState) (t₀ : ℤ) (ls : List OutboxMove) (s' : OutboxState) :
    Prop where
  accepted : s.accepted ≤ s'.accepted
  attempts : ∀ item ∈ s'.queue, item.number < s.accepted → (passTimes ls).length ≤ item.attempts
  due : ∀ item ∈ s'.queue, item.number < s.accepted →
    item.nextAttemptAt ≤ lastPass t₀ ls + 2000

namespace TriedInAll

variable {t₀ : ℤ} {ls : List OutboxMove} {s₁ s₂ : OutboxState}

/-- A call that is no pass leaves what waits as it is, or takes it out. -/
theorem other (ih : Paced t₀ ls → TriedInAll s t₀ ls s₁) {mv : OutboxMove}
    (hpaced : Paced t₀ (ls ++ [mv])) (hpass : passTimes [mv] = [])
    (haccepted : s₁.accepted ≤ s₂.accepted)
    (hqueue : ∀ item ∈ s₂.queue, item.number < s₁.accepted → item ∈ s₁.queue) :
    TriedInAll s t₀ (ls ++ [mv]) s₂ := by
  have htimes : passTimes (ls ++ [mv]) = passTimes ls := by
    rw [passTimes, List.filterMap_append]
    exact (congrArg (passTimes ls ++ ·) hpass).trans (List.append_nil _)
  rw [Paced, htimes] at hpaced
  obtain ⟨hle, hattempts, hdue⟩ := ih hpaced
  refine ⟨hle.trans haccepted, fun item hitem hold => ?_, fun item hitem hold => ?_⟩
  · rw [htimes]
    exact hattempts item (hqueue item hitem (hold.trans_le hle)) hold
  · rw [lastPass, htimes]
    exact hdue item (hqueue item hitem (hold.trans_le hle)) hold

theorem pass (ih : Paced t₀ ls → TriedInAll s t₀ ls s₁) {a : PassArgs}
    (hpaced : Paced t₀ (ls ++ [.pass a])) : TriedInAll s t₀ (ls ++ [.pass a]) (s₁.process a) := by
  obtain ⟨hpaced, hlate⟩ := paced_concat_pass hpaced
  obtain ⟨hle, hattempts, hdue⟩ := ih hpaced
  have htried : ∀ item ∈ (s₁.process a).queue, item.number < s.accepted →
      (passTimes ls).length + 1 ≤ item.attempts ∧ item.nextAttemptAt ≤ a.now + 2000 := by
    intro item hitem hold
    have hstep : outboxStep s₁ (.pass a) = some (s₁.process a) := rfl
    cases comesFrom hstep hitem with
    | @kept _ old _ hmem hkept =>
        rw [hkept.number] at hold
        obtain ⟨hmore, hnext⟩ := hkept.attempts ((hdue old hmem hold).trans hlate)
        rw [hmore]
        exact ⟨Nat.succ_le_succ (hattempts old hmem hold), hnext⟩
  refine ⟨hle, fun item hitem hold => ?_, fun item hitem hold => ?_⟩
  · rw [passTimes_concat_pass, List.length_append]
    exact (htried item hitem hold).1
  · rw [lastPass_concat_pass]
    exact (htried item hitem hold).2

theorem step (ih : Paced t₀ ls → TriedInAll s t₀ ls s₁) {mv : OutboxMove}
    (hstep : outboxStep s₁ mv = some s₂) (hpaced : Paced t₀ (ls ++ [mv])) :
    TriedInAll s t₀ (ls ++ [mv]) s₂ := by
  cases mv with
  | enqueue e =>
      have hqueue : ∀ item ∈ s₂.queue, item.number < s₁.accepted → item ∈ s₁.queue := by
        intro item hitem hold
        cases comesFrom hstep hitem with
        | put => exact absurd hold (lt_irrefl _)
        | stays _ hmem => exact hmem
      obtain rfl := Option.some.inj hstep
      exact other ih hpaced rfl (Nat.le_succ _) hqueue
  | pass a =>
      obtain rfl := Option.some.inj hstep
      exact pass ih hpaced
  | clear =>
      obtain rfl := Option.some.inj hstep
      exact other ih hpaced rfl (le_refl _) fun _ hitem => nomatch hitem

end TriedInAll

/-- **Three passes settle all that waits**, whatever else happens: after passes that are two seconds
apart, and come two seconds after all that was done before, every message that was put in before is
sent, given up, pushed out or cleared. -/
theorem settled_after_three {ls₁ ls₂ : List OutboxMove}
    (h₁ : run outboxStep .start ls₁ = some s) (h₂ : run outboxStep s ls₂ = some s') {t₀ : ℤ}
    (hpast : ∀ t ∈ ls₁.filterMap OutboxMove.time, t ≤ t₀) (hpaced : Paced t₀ ls₂)
    (hthree : 3 ≤ (passTimes ls₂).length) :
    ∀ x < s.accepted, x ∈ s'.sent ∨ x ∈ s'.failed ∨ x ∈ s'.pushedOut ∨ x ∈ s'.cleared := by
  have hstart : TriedInAll s t₀ [] s :=
    ⟨le_refl _, fun _ _ _ => Nat.zero_le _,
      fun item hitem _ => nextAttemptAt_le h₁ hpast item hitem⟩
  have htried : TriedInAll s t₀ ls₂ s' :=
    invariant_of_history (I := fun ls s' => Paced t₀ ls → TriedInAll s t₀ ls s')
      (fun _ => hstart) (fun _ _ _ _ _ ih hstep => TriedInAll.step ih hstep) h₂ hpaced
  have hinv := (outboxInv_run (run_append.2 ⟨s, h₁, h₂⟩)).holds
  intro x hx
  obtain ⟨f, hf, -⟩ := hinv.accounted.existsUnique (hx.trans_le htried.accepted)
  cases f with
  | waiting =>
      -- it was tried in three passes, and would have been given up
      obtain ⟨item, hitem, rfl⟩ := List.mem_map.1 hf
      have hattempts := htried.attempts item hitem hx
      have hwaits := hinv.waiting item hitem
      have hfew := hwaits.few
      rw [← hwaits.attempts, RELIABLE_MAX_ATTEMPTS] at hfew
      omega
  | sent => exact .inl hf
  | failed => exact .inr (.inl hf)
  | pushedOut => exact .inr (.inr (.inl hf))
  | cleared => exact .inr (.inr (.inr hf))

/-- Every list of calls is a run. -/
theorem exists_outbox_run (s : OutboxState) (ls : List OutboxMove) :
    ∃ s', run outboxStep s ls = some s' :=
  exists_run (fun _ mv => by cases mv <;> exact ⟨_, rfl⟩) s ls

theorem settled_after_three_lost :
    ∃ s s', run outboxStep .start [note 0] = some s ∧
      run outboxStep s [passAt 2000 100, note 2100, passAt 4000 100, passAt 6000 100] = some s' ∧
      s'.failed = [0] ∧ s'.queue.map (·.number) = [1] ∧
      ∀ x < 1, x ∈ s'.sent ∨ x ∈ s'.failed ∨ x ∈ s'.pushedOut ∨ x ∈ s'.cleared := by
  obtain ⟨s, h₁⟩ := exists_outbox_run .start [note 0]
  obtain ⟨s', h₂⟩ := exists_outbox_run s
    [passAt 2000 100, note 2100, passAt 4000 100, passAt 6000 100]
  have hpast : ∀ t ∈ [note 0].filterMap OutboxMove.time, t ≤ 0 := by decide
  have hsettled := settled_after_three h₁ h₂ hpast (by decide) (by decide)
  obtain rfl := Option.some.inj h₁
  have hend := (congrArg (Option.map fun s => (s.failed, s.queue.map (·.number))) h₂).symm.trans
    (by decide +kernel : _ = some ([0], [1]))
  obtain ⟨hfailed, hqueue⟩ := Prod.mk.inj (Option.some.inj hend)
  exact ⟨_, s', h₁, h₂, hfailed, hqueue, hsettled⟩

end P2p
