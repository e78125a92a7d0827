/-
**Messages that come in twice** (`DedupeCache`, `_on_message` and `_emit_ack` of
`swarm/foxmq_integration.py`).

A client notes the id of every message, and a digest of its text, and drops a message of which it
finds one of them noted.  The notes are kept for some seconds, and only so many of them.  Every
message that is handled is acknowledged, unless it is an acknowledgement itself; a message that is
dropped is not, so a sender whose acknowledgement got lost sends in vain until the note is gone.

The clock of the model does not go back.

Main definitions:

* `MeshEnvelopes.DedupeCache`, with `seen`;
* `MeshEnvelopes.Receiver`, `MeshEnvelopes.Receiver.onMessage` — the client, and what it does with a
  message;
* `MeshEnvelopes.receiveStep` — messages that come in, any number of times.

Main results:

* `MeshEnvelopes.DedupeCache.seen_iff` — **what a cache still knows of the notes made**;
* `MeshEnvelopes.receiverInv_run` — the notes, the handlings and the acknowledgements of a run;
* `MeshEnvelopes.handled_iff` — which messages are handled;
* `MeshEnvelopes.handled_apart` — **two handlings of one id are far apart, in time or in notes**;
* `MeshEnvelopes.acked_at_most_once` — a message that comes in again soon is not acknowledged again.
-/
import Endendend.Foundation.QuietTail
import Endendend.MeshEnvelopes.EnvelopeGuard
import Mathlib.Algebra.Order.Ring.Rat
import Mathlib.Tactic.Linarith

set_option relaxedAutoImplicit false
set_option autoImplicit false

namespace MeshEnvelopes

open Js (Str lit)
open QuietTail Runs

/-! ### The cache -/

/-- The keys that were noted, with the times, the oldest first. -/
structure DedupeCache where
  ttlS : ℚ
  maxItems : ℕ
  items : List (Str × ℚ)

namespace DedupeCache

/-- The times that the client sets for its cache. -/
def default : DedupeCache := ⟨45, 4096, []⟩

def purge (c : DedupeCache) (now : ℚ) : DedupeCache :=
  { c with items := c.items.filter fun p => ¬ now - p.2 > c.ttlS }

/-- Is a key noted?  If it is not, it is noted now, and the oldest notes go where there are too
many. -/
def seen (c : DedupeCache) (key : Str) (now : ℚ) : Bool × DedupeCache :=
  let c := c.purge now
  if c.items.any (·.1 = key) then (true, c)
  else
    let items := c.items ++ [(key, now)]
    (false, { c with items := items.drop (items.length - c.maxItems) })

/-- The cache after the notes made so far, the last of them at a time not after `clock`: of the
notes that there is room for, those that are missing are too old. -/
structure Remembers (c : DedupeCache) (noted : List (Str × ℚ)) (clock : ℚ) : Prop where
  split : ∃ old, recent c.maxItems noted = old ++ c.items ∧ ∀ p ∈ old, c.ttlS < clock - p.2
  sorted : noted.Pairwise fun p q => p.2 ≤ q.2
  past : ∀ p ∈ noted, p.2 ≤ clock

theorem remembers_nil (ttlS : ℚ) (maxItems : ℕ) (clock : ℚ) :
    (⟨ttlS, maxItems, []⟩ : DedupeCache).Remembers [] clock :=
  ⟨⟨[], by simp [recent], by simp⟩, List.Pairwise.nil, by simp⟩

variable {c : DedupeCache} {noted : List (Str × ℚ)} {clock now : ℚ}

/-- A purge takes out a first part of the notes. -/
theorem Remembers.purge (h : c.Remembers noted clock) (hnow : clock ≤ now) :
    (c.purge now).Remembers noted now := by
  obtain ⟨old, hsplit, hold⟩ := h.split
  have hsorted : c.items.Pairwise fun p q => p.2 ≤ q.2 := by
    have hrecent := h.sorted.sublist (List.drop_sublist (noted.length - c.maxItems) noted)
    rw [← recent, hsplit] at hrecent
    exact (List.pairwise_append.1 hrecent).2.1
  obtain ⟨old', hsplit', hold'⟩ := exists_split_filter
    (p := fun p => ¬ now - p.2 > c.ttlS) (hsorted.imp fun {p q} hpq => by
      simp only [decide_eq_true_eq]
      intro hp
      linarith)
  refine ⟨⟨old ++ old', ?_, ?_⟩, h.sorted, fun p hp => (h.past p hp).trans hnow⟩
  · rw [List.append_assoc]
    exact hsplit.trans (congrArg (old ++ ·) hsplit')
  · intro p hp
    rcases List.mem_append.1 hp with hp | hp
    · have hlt := hold p hp
      show c.ttlS < now - p.2
      linarith
    · have hgone : ¬ ¬ now - p.2 > c.ttlS := of_decide_eq_false (hold' p hp)
      exact not_not.1 hgone

/-- **What a cache still knows of the notes made**: a key is found if it is among the last notes
that there is room for, and was noted not too long ago. -/
theorem seen_iff (h : c.Remembers noted clock) (hnow : clock ≤ now) (key : Str) :
    (c.seen key now).1 = true ↔
      ∃ p ∈ recent c.maxItems noted, p.1 = key ∧ now - p.2 ≤ c.ttlS := by
  obtain ⟨old, hsplit, hold⟩ := h.split
  have hfound : (c.seen key now).1 = (c.purge now).items.any (·.1 = key) := by
    cases hany : (c.purge now).items.any (·.1 = key) <;> simp only [seen, hany] <;> rfl
  rw [hfound, hsplit]
  simp only [DedupeCache.purge, List.any_eq_true, List.mem_filter, decide_eq_true_eq, not_lt,
    List.mem_append]
  constructor
  · rintro ⟨p, ⟨hp, hfresh⟩, hkey⟩
    exact ⟨p, Or.inr hp, hkey, hfresh⟩
  · rintro ⟨p, hp | hp, hkey, hfresh⟩
    · have hlt := hold p hp
      linarith
    · exact ⟨p, ⟨hp, hfresh⟩, hkey⟩

/-- The cache after a look at a key: the key is noted unless it is found. -/
theorem Remembers.seen (h : c.Remembers noted clock) (hnow : clock ≤ now) (key : Str) :
    (c.seen key now).2.Remembers
      (if (c.seen key now).1 then noted else noted ++ [(key, now)]) now := by
  have hpurge := h.purge hnow
  rw [DedupeCache.seen]
  split
  · simpa using hpurge
  · obtain ⟨old, hsplit, hold⟩ := hpurge.split
    have hsplit : recent c.maxItems noted = old ++ (c.purge now).items := hsplit
    simp only [Bool.false_eq_true, if_false]
    refine ⟨⟨recent (c.maxItems - ((c.purge now).items.length + 1)) old, ?_, ?_⟩, ?_, ?_⟩
    · show recent c.maxItems (noted ++ [(key, now)]) = _ ++ recent c.maxItems _
      rw [← recent_concat_recent, hsplit, List.append_assoc, recent_append,
        List.length_append, List.length_singleton]
    · exact fun p hp => hold p (List.mem_of_mem_drop hp)
    · refine List.pairwise_append.2 ⟨hpurge.sorted, List.pairwise_singleton _ _, ?_⟩
      intro p hp q hq
      rw [List.mem_singleton.1 hq]
      exact hpurge.past p hp
    · intro p hp
      rcases List.mem_append.1 hp with hp | hp
      · exact hpurge.past p hp
      · exact (List.mem_singleton.1 hp ▸ le_rfl)

theorem limits_seen (c : DedupeCache) (key : Str) (now : ℚ) :
    (c.seen key now).2.ttlS = c.ttlS ∧ (c.seen key now).2.maxItems = c.maxItems := by
  rw [DedupeCache.seen]
  split <;> exact ⟨rfl, rfl⟩

end DedupeCache

/-! ### The client -/

/-- What comes in: a text, the envelope that it is read as unless that raises, and the readings of
the clock for the two keys. -/
structure Arrival where
  raw : Str
  envelope : Option MeshEnvelope
  now : ℚ
  now' : ℚ

/-- An acknowledgement, without its time. -/
structure Ack where
  ackFor : Str
  ackFrom : Str
  ackTo : Str
  ackKind : Str
  deriving DecidableEq

/-- A message that was handled, when its id was noted, and after how many notes. -/
structure Handling where
  envelope : MeshEnvelope
  time : ℚ
  notes : ℕ
  deriving DecidableEq

/-- A client, with its history: all notes, the last reading of the clock, the messages that were
handled and the acknowledgements that were published. -/
structure Receiver where
  swarmId : Str
  nodeId : Str
  dedupe : DedupeCache
  noted : List (Str × ℚ)
  clock : ℚ
  handled : List Handling
  acks : List Ack

def idKey (messageId : Str) : Str := lit "id:" ++ messageId

/-- The key for a text; `digest` is the hexadecimal digest of a text. -/
def fpKey (digest : Str → Str) (raw : Str) : Str := lit "fp:" ++ digest raw

namespace Receiver

/-- A client that has received nothing. -/
def start (swarmId nodeId : Str) (ttlS : ℚ) (maxItems : ℕ) (clock : ℚ) : Receiver :=
  ⟨swarmId, nodeId, ⟨ttlS, maxItems, []⟩, [], clock, [], []⟩

/-- Looks for a key in the cache, and notes it if it is not there. -/
def look (r : Receiver) (key : Str) (now : ℚ) : Bool × Receiver :=
  let (again, dedupe) := r.dedupe.seen key now
  let noted := if again then r.noted else r.noted ++ [(key, now)]
  (again, { r with dedupe, noted, clock := now })

/-- What `_emit_ack` publishes for a message that is no acknowledgement. -/
def ackOf (nodeId : Str) (e : MeshEnvelope) : Option Ack :=
  if e.kind = .ack then none else some ⟨e.messageId, nodeId, e.senderId, e.kind.value⟩

def onMessage (digest : Str → Str) (r : Receiver) (a : Arrival) : Receiver :=
  match a.envelope with
  | none => r
  | some e =>
    if e.swarmId ≠ r.swarmId then r
    else if e.senderId = r.nodeId then r
    else
      let notes := r.noted.length
      let (again, r) := r.look (idKey e.messageId) a.now
      if again then r
      else
        let (again, r) := r.look (fpKey digest a.raw) a.now'
        if again then r
        else
          { r with
            handled := r.handled ++ [⟨e, a.now, notes⟩]
            acks := r.acks ++ (ackOf r.nodeId e).toList }

end Receiver

/-- A message comes in, while the clock does not go back. -/
def receiveStep (digest : Str → Str) (r : Receiver) (a : Arrival) : Option Receiver :=
  if r.clock ≤ a.now ∧ a.now ≤ a.now' then some (r.onMessage digest a) else none

/-! ### Notes, handlings and acknowledgements -/

/-- Notes of the same key are far apart, in time or in notes. -/
def NotesApart (ttlS : ℚ) (maxItems : ℕ) (noted : List (Str × ℚ)) : Prop :=
  ∀ i j p q, i < j → noted[i]? = some p → noted[j]? = some q → p.1 = q.1 →
    ttlS < q.2 - p.2 ∨ maxItems < j - i

/-- What a client knows and has done. -/
structure ReceiverInv (swarmId nodeId : Str) (ttlS : ℚ) (maxItems : ℕ) (r : Receiver) : Prop where
  ids : r.swarmId = swarmId ∧ r.nodeId = nodeId
  limits : r.dedupe.ttlS = ttlS ∧ r.dedupe.maxItems = maxItems
  remembers : r.dedupe.Remembers r.noted r.clock
  apart : NotesApart ttlS maxItems r.noted
  noted : ∀ h ∈ r.handled, r.noted[h.notes]? = some (idKey h.envelope.messageId, h.time)
  sorted : r.handled.Pairwise fun h h' => h.notes < h'.notes
  acks : r.acks = r.handled.filterMap fun h => Receiver.ackOf nodeId h.envelope

theorem receiverInv_start (swarmId nodeId : Str) (ttlS : ℚ) (maxItems : ℕ) (clock : ℚ) :
    ReceiverInv swarmId nodeId ttlS maxItems (.start swarmId nodeId ttlS maxItems clock) where
  ids := ⟨rfl, rfl⟩
  limits := ⟨rfl, rfl⟩
  remembers := DedupeCache.remembers_nil ttlS maxItems clock
  apart := fun i j p q _ hp => by simp [Receiver.start] at hp
  noted := fun h hh => by simp [Receiver.start] at hh
  sorted := List.Pairwise.nil
  acks := rfl

/-- A note of a key that is not among the last notes, or was noted long ago. -/
theorem NotesApart.concat {ttlS : ℚ} {maxItems : ℕ} {noted : List (Str × ℚ)} {key : Str} {now : ℚ}
    (h : NotesApart ttlS maxItems noted)
    (hnew : ∀ p ∈ recent maxItems noted, p.1 = key → ttlS < now - p.2) :
    NotesApart ttlS maxItems (noted ++ [(key, now)]) := by
  intro i j p q hij hp hq hkey
  obtain ⟨hj, -⟩ := List.getElem?_eq_some_iff.1 hq
  rw [List.length_append, List.length_singleton] at hj
  rw [List.getElem?_append_left (by omega)] at hp
  rcases Nat.lt_succ_iff_lt_or_eq.1 hj with hj | rfl
  · rw [List.getElem?_append_left hj] at hq
    exact h i j p q hij hp hq hkey
  · rw [List.getElem?_concat_length, Option.some.injEq] at hq
    subst hq
    by_cases hold : maxItems < noted.length - i
    · exact Or.inr hold
    · refine Or.inl (hnew p ?_ hkey)
      -- the earlier note is among the last ones
      obtain ⟨hi, rfl⟩ := List.getElem?_eq_some_iff.1 hp
      refine List.mem_iff_getElem?.2 ⟨i - (noted.length - maxItems), ?_⟩
      rw [recent, List.getElem?_drop, ← hp]
      exact congrArg (noted[·]?) (by omega)

variable {swarmId nodeId : Str} {ttlS : ℚ} {maxItems : ℕ} {r r' : Receiver} {digest : Str → Str}

namespace Receiver

theorem look_fst_iff (h : ReceiverInv swarmId nodeId ttlS maxItems r) {now : ℚ}
    (hnow : r.clock ≤ now) (key : Str) :
    (r.look key now).1 = true ↔ ∃ p ∈ recent maxItems r.noted, p.1 = key ∧ now - p.2 ≤ ttlS := by
  have hseen := DedupeCache.seen_iff h.remembers hnow key
  rwa [h.limits.1, h.limits.2] at hseen

theorem look_eq_false_iff (h : ReceiverInv swarmId nodeId ttlS maxItems r) {now : ℚ}
    (hnow : r.clock ≤ now) (key : Str) :
    (r.look key now).1 = false ↔ ∀ p ∈ recent maxItems r.noted, p.1 = key → ttlS < now - p.2 := by
  rw [← Bool.not_eq_true, look_fst_iff h hnow]
  simp only [not_exists, not_and, not_le]

theorem look_noted (r : Receiver) (key : Str) (now : ℚ) :
    (r.look key now).2.noted =
      if (r.look key now).1 then r.noted else r.noted ++ [(key, now)] := rfl

end Receiver

/-- A look at a key keeps the invariant. -/
theorem ReceiverInv.look (h : ReceiverInv swarmId nodeId ttlS maxItems r) {now : ℚ}
    (hnow : r.clock ≤ now) (key : Str) :
    ReceiverInv swarmId nodeId ttlS maxItems (r.look key now).2 where
  ids := h.ids
  limits := by
    obtain ⟨httl, hmax⟩ := r.dedupe.limits_seen key now
    exact ⟨httl.trans h.limits.1, hmax.trans h.limits.2⟩
  remembers := h.remembers.seen hnow key
  apart := by
    have hiff := Receiver.look_fst_iff h hnow key
    rw [Receiver.look_noted]
    split_ifs with hagain
    · exact h.apart
    · refine h.apart.concat fun p hp hkey => ?_
      by_contra hle
      exact hagain (hiff.2 ⟨p, hp, hkey, not_lt.1 hle⟩)
  noted := by
    intro hd hhd
    have hprev := h.noted hd hhd
    rw [Receiver.look_noted]
    split_ifs
    · exact hprev
    · rw [List.getElem?_append_left (List.getElem?_eq_some_iff.1 hprev).1, hprev]
  sorted := h.sorted
  acks := h.acks

/-- A message is handled after its id was noted. -/
theorem ReceiverInv.handle (h : ReceiverInv swarmId nodeId ttlS maxItems r) (hd : Handling)
    (hnoted : r.noted[hd.notes]? = some (idKey hd.envelope.messageId, hd.time))
    (hlast : ∀ hd' ∈ r.handled, hd'.notes < hd.notes) :
    ReceiverInv swarmId nodeId ttlS maxItems
      { r with
        handled := r.handled ++ [hd]
        acks := r.acks ++ (Receiver.ackOf r.nodeId hd.envelope).toList } where
  ids := h.ids
  limits := h.limits
  remembers := h.remembers
  apart := h.apart
  noted := by
    intro hd' hhd'
    rcases List.mem_append.1 hhd' with hhd' | hhd'
    · exact h.noted hd' hhd'
    · rwa [List.mem_singleton.1 hhd']
  sorted := by
    refine List.pairwise_append.2 ⟨h.sorted, List.pairwise_singleton _ _, ?_⟩
    intro hd' hhd' hd'' hhd''
    rw [List.mem_singleton.1 hhd'']
    exact hlast hd' hhd'
  acks := by
    rw [List.filterMap_append, ← h.acks, h.ids.2]
    cases hack : Receiver.ackOf nodeId hd.envelope <;> simp [hack]

/-- **What a client does with a message** keeps the invariant. -/
theorem ReceiverInv.onMessage (h : ReceiverInv swarmId nodeId ttlS maxItems r) {a : Arrival}
    (hnow : r.clock ≤ a.now) (hnow' : a.now ≤ a.now') :
    ReceiverInv swarmId nodeId ttlS maxItems (r.onMessage digest a) := by
  rw [Receiver.onMessage]
  cases a.envelope with
  | none => exact h
  | some e =>
      have h₁ := h.look hnow (idKey e.messageId)
      have h₂ := h₁.look hnow' (fpKey digest a.raw)
      dsimp only
      split
      · exact h
      · split
        · exact h
        · split
          · exact h₁
          · next hnewId =>
              split
              · exact h₂
              · next hnewText =>
                  refine h₂.handle ⟨e, a.now, r.noted.length⟩ ?_ ?_
                  · rw [Receiver.look_noted, if_neg hnewText, Receiver.look_noted, if_neg hnewId]
                    simp
                  · intro hd' hhd'
                    exact (List.getElem?_eq_some_iff.1 (h.noted hd' hhd')).1

/-- **The notes, the handlings and the acknowledgements of a run.** -/
theorem receiverInv_run {clock : ℚ} {as : List Arrival}
    (h : run (receiveStep digest) (.start swarmId nodeId ttlS maxItems clock) as = some r) :
    ReceiverInv swarmId nodeId ttlS maxItems r := by
  refine invariant_of_run (fun r a r' hr hstep => ?_)
    (receiverInv_start swarmId nodeId ttlS maxItems clock) h
  simp only [receiveStep, Option.ite_none_right_eq_some, Option.some.injEq] at hstep
  obtain ⟨⟨hnow, hnow'⟩, rfl⟩ := hstep
  exact hr.onMessage hnow hnow'

/-! ### Which messages are handled -/

theorem handled_look (r : Receiver) (key : Str) (now : ℚ) :
    (r.look key now).2.handled = r.handled := rfl

theorem handled_onMessage (r : Receiver) {a : Arrival} {e : MeshEnvelope}
    (he : a.envelope = some e) :
    (r.onMessage digest a).handled =
      r.handled ++
        if e.swarmId = r.swarmId ∧ e.senderId ≠ r.nodeId ∧
            (r.look (idKey e.messageId) a.now).1 = false ∧
            ((r.look (idKey e.messageId) a.now).2.look (fpKey digest a.raw) a.now').1 = false then
          [⟨e, a.now, r.noted.length⟩]
        else [] := by
  rw [Receiver.onMessage, he]
  dsimp only
  split
  · next hswarm => simp [hswarm]
  · split
    · next hown => simp [hown]
    · split
      · next hid => simp [hid, handled_look]
      · split
        · next htext => simp [htext, handled_look]
        · next hswarm hown hid htext =>
            rw [if_pos ⟨not_not.1 hswarm, hown, by simpa using hid, by simpa using htext⟩]
            simp only [handled_look]

/-- **A message is handled exactly if** it is of this swarm and not the client's own, and neither
its id nor its text has been noted lately. -/
theorem handled_iff {clock : ℚ} {as : List Arrival}
    (h : run (receiveStep digest) (.start swarmId nodeId ttlS maxItems clock) as = some r)
    {a : Arrival} (hnow : r.clock ≤ a.now) (hnow' : a.now ≤ a.now') (e : MeshEnvelope) :
    (r.onMessage digest a).handled = r.handled ++ [⟨e, a.now, r.noted.length⟩] ↔
      a.envelope = some e ∧ e.swarmId = swarmId ∧ e.senderId ≠ nodeId ∧
        (∀ p ∈ recent maxItems r.noted, p.1 = idKey e.messageId → ttlS < a.now - p.2) ∧
        ∀ p ∈ recent maxItems (r.noted ++ [(idKey e.messageId, a.now)]),
          p.1 = fpKey digest a.raw → ttlS < a.now' - p.2 := by
  have hinv := receiverInv_run h
  have hinv₁ := hinv.look hnow (idKey e.messageId)
  rw [← Receiver.look_eq_false_iff hinv hnow, ← hinv.ids.1, ← hinv.ids.2]
  cases he : a.envelope with
  | none => simp [Receiver.onMessage, he]
  | some e' =>
      rw [handled_onMessage r he, List.append_cancel_left_eq]
      by_cases heq : e' = e
      · subst heq
        have hnoted : (r.look (idKey e'.messageId) a.now).1 = false →
            (r.look (idKey e'.messageId) a.now).2.noted =
              r.noted ++ [(idKey e'.messageId, a.now)] := fun hid => by
          rw [Receiver.look_noted, hid]
          rfl
        have htext := Receiver.look_eq_false_iff hinv₁ hnow' (fpKey digest a.raw)
        split_ifs with hall
        · obtain ⟨hswarm, hown, hid, hfp⟩ := hall
          rw [htext, hnoted hid] at hfp
          exact iff_of_true rfl ⟨rfl, hswarm, hown, hid, hfp⟩
        · refine iff_of_false not_false ?_
          rintro ⟨-, hswarm, hown, hid, hfp⟩
          rw [← hnoted hid, ← htext] at hfp
          exact hall ⟨hswarm, hown, hid, hfp⟩
      · refine iff_of_false ?_ fun hiff => heq (Option.some.inj hiff.1)
        split_ifs <;> simp [heq]

/-- A task that `b` announces. -/
def taskOfB : MeshEnvelope :=
  ⟨.task, lit "s", lit "b", lit "swarm/s/mesh/task", lit "b-1", 0, 1, ∅, 4, none, none, none, 0,
    none⟩

def comesIn (now : ℚ) : Arrival := ⟨lit "text", some taskOfB, now, now⟩

def comesTwice : List Arrival := [comesIn 1, comesIn 2]

/-- It is handled again after a minute, but not after forty seconds. -/
theorem handled_iff_comesTwice :
    ∃ r, run (receiveStep id) (.start (lit "s") (lit "a") 45 8 0) comesTwice = some r ∧
      (r.onMessage id (comesIn 60)).handled = r.handled ++ [⟨taskOfB, 60, r.noted.length⟩] ∧
      (r.onMessage id (comesIn 40)).handled ≠ r.handled ++ [⟨taskOfB, 40, r.noted.length⟩] := by
  obtain ⟨r, hr⟩ := Option.isSome_iff_exists.1 (by decide +kernel :
    (run (receiveStep id) (.start (lit "s") (lit "a") 45 8 0) comesTwice).isSome)
  have hclock : r.clock = 2 := Option.some.inj
    ((congrArg (Option.map Receiver.clock) hr).symm.trans (by decide +kernel))
  have hnoted : r.noted = [(idKey (lit "b-1"), 1), (fpKey id (lit "text"), 1)] := Option.some.inj
    ((congrArg (Option.map Receiver.noted) hr).symm.trans (by decide +kernel))
  refine ⟨r, hr, (handled_iff hr ?_ le_rfl taskOfB).2 ?_, fun hagain => ?_⟩
  · rw [hclock]
    decide +kernel
  · rw [hnoted]
    exact ⟨rfl, rfl, by decide, by decide +kernel, by decide +kernel⟩
  · have hfar := ((handled_iff hr (by rw [hclock]; decide +kernel) le_rfl taskOfB).1 hagain).2.2.2.1
    rw [hnoted] at hfar
    exact absurd (hfar _ (List.mem_cons_self) rfl) (by decide +kernel)

theorem ReceiverInv.apart_of_handled (h : ReceiverInv swarmId nodeId ttlS maxItems r) {i j : ℕ}
    {hd hd' : Handling} (hij : i < j) (hi : r.handled[i]? = some hd)
    (hj : r.handled[j]? = some hd') (hid : hd.envelope.messageId = hd'.envelope.messageId) :
    ttlS < hd'.time - hd.time ∨ maxItems < hd'.notes - hd.notes := by
  obtain ⟨hi', rfl⟩ := List.getElem?_eq_some_iff.1 hi
  obtain ⟨hj', rfl⟩ := List.getElem?_eq_some_iff.1 hj
  have hlt := List.pairwise_iff_getElem.1 h.sorted i j hi' hj' hij
  refine h.apart _ _ _ _ hlt (h.noted _ (List.getElem_mem hi'))
    (h.noted _ (List.getElem_mem hj')) ?_
  rw [hid]

/-- **Two handlings of one id are far apart**, in time or in notes. -/
theorem handled_apart {clock : ℚ} {as : List Arrival}
    (h : run (receiveStep digest) (.start swarmId nodeId ttlS maxItems clock) as = some r)
    {i j : ℕ} {hd hd' : Handling} (hij : i < j) (hi : r.handled[i]? = some hd)
    (hj : r.handled[j]? = some hd') (hid : hd.envelope.messageId = hd'.envelope.messageId) :
    ttlS < hd'.time - hd.time ∨ maxItems < hd'.notes - hd.notes :=
  (receiverInv_run h).apart_of_handled hij hi hj hid

/-- The task comes in three times, and the third time it is handled again. -/
def comesLate : List Arrival := [comesIn 1, comesIn 2, comesIn 60]

theorem handled_apart_comesLate :
    ∃ r hd hd', run (receiveStep id) (.start (lit "s") (lit "a") 45 8 0) comesLate = some r ∧
      r.handled = [hd, hd'] ∧ (45 < hd'.time - hd.time ∨ 8 < hd'.notes - hd.notes) := by
  obtain ⟨r, hr⟩ := Option.isSome_iff_exists.1 (by decide +kernel :
    (run (receiveStep id) (.start (lit "s") (lit "a") 45 8 0) comesLate).isSome)
  have hhandled : r.handled = [⟨taskOfB, 1, 0⟩, ⟨taskOfB, 60, 2⟩] := Option.some.inj
    ((congrArg (Option.map Receiver.handled) hr).symm.trans (by decide +kernel))
  refine ⟨r, ⟨taskOfB, 1, 0⟩, ⟨taskOfB, 60, 2⟩, hr, hhandled,
    handled_apart hr Nat.zero_lt_one ?_ ?_ rfl⟩
  · rw [hhandled]
    rfl
  · rw [hhandled]
    rfl

theorem filterMap_sublist_map {α β : Type*} {f : α → Option β} {g : α → β}
    (h : ∀ x y, f x = some y → y = g x) (l : List α) : (l.filterMap f).Sublist (l.map g) := by
  induction l with
  | nil => exact List.Sublist.slnil
  | cons x l ih =>
      rw [List.map_cons]
      cases hx : f x with
      | none => simpa [hx] using ih.cons (g x)
      | some y => simpa [hx, h x y hx] using ih

/-- **A message that comes in again soon is not acknowledged again**: as long as the notes fit and
are not too old, every message is acknowledged once at most. -/
theorem acked_at_most_once {clock : ℚ} {as : List Arrival}
    (h : run (receiveStep digest) (.start swarmId nodeId ttlS maxItems clock) as = some r)
    (hfew : r.noted.length ≤ maxItems)
    (hsoon : ∀ p ∈ r.noted, ∀ q ∈ r.noted, q.2 - p.2 ≤ ttlS) : (r.acks.map Ack.ackFor).Nodup := by
  have hinv := receiverInv_run h
  have hhandled : (r.handled.map fun hd => hd.envelope.messageId).Nodup := by
    rw [List.Nodup, List.pairwise_map, List.pairwise_iff_getElem]
    intro i j hi hj hij hid
    have hni := hinv.noted _ (List.getElem_mem hi)
    have hnj := hinv.noted _ (List.getElem_mem hj)
    rcases hinv.apart_of_handled hij (List.getElem?_eq_getElem hi) (List.getElem?_eq_getElem hj)
      hid with hfar | hfar
    · have hle := hsoon _ (List.mem_of_getElem? hni) _ (List.mem_of_getElem? hnj)
      exact absurd hfar (not_lt.2 hle)
    · have hlt := (List.getElem?_eq_some_iff.1 hnj).1
      omega
  refine hhandled.sublist ?_
  rw [hinv.acks, List.map_filterMap]
  refine filterMap_sublist_map (fun hd messageId hack => ?_) r.handled
  obtain ⟨ack, hack', rfl⟩ := Option.map_eq_some_iff.1 hack
  rw [Receiver.ackOf, Option.ite_none_left_eq_some] at hack'
  exact (congrArg Ack.ackFor (Option.some.inj hack'.2)).symm

theorem acked_at_most_once_comesTwice :
    ∃ r, run (receiveStep id) (.start (lit "s") (lit "a") 45 8 0) comesTwice = some r ∧
      (r.acks.map Ack.ackFor).Nodup := by
  obtain ⟨r, hr⟩ := Option.isSome_iff_exists.1 (by decide +kernel :
    (run (receiveStep id) (.start (lit "s") (lit "a") 45 8 0) comesTwice).isSome)
  have hnoted : r.noted = [(idKey (lit "b-1"), 1), (fpKey id (lit "text"), 1)] := Option.some.inj
    ((congrArg (Option.map Receiver.noted) hr).symm.trans (by decide +kernel))
  exact ⟨r, hr, acked_at_most_once hr (by rw [hnoted]; decide) (by rw [hnoted]; decide +kernel)⟩

end MeshEnvelopes
