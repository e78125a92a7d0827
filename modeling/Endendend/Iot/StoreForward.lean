/-
**Store and forward on a device** (`OfflinePacketBuffer`, and `publish_envelope` and `flush_offline`
of `SwarmIoTBridge`, in `swarm/iot.py`).

What cannot be published is kept in a buffer and in its file.  A flush takes what is due out of the
buffer and publishes it packet by packet; a packet that fails once more is put back, to be tried
after a delay.  A full buffer drops its oldest packet.  A device that stops in the middle of a flush
loses the packets that the flush still had in hand: they are in the file no more.

The buffer is locked, so a step of the model is one call of the buffer or one call of the client.
Any number of flushes may be under way.

Main definitions:

* `Iot.OfflinePacketBuffer` with `push`, `popReady` and `requeue`;
* `Iot.BridgeState`, `Iot.bridgeStep` — a device with its history, and its steps;
* `Iot.BridgeState.ids` — the packets under each fate;
* `Iot.Uneventful` — no push finds the buffer full, and no restart finds a packet in hand.

Main results:

* `Iot.bridgeInv_step` — what a step keeps;
* `Iot.packets_accounted` — **every packet has exactly one fate, and the file is the buffer**;
* `Iot.nothing_dropped_iff` — **no packet is dropped exactly if the run is uneventful.**
-/
import Endendend.Foundation.Fates
import Endendend.Foundation.Runs
import Endendend.Foundation.Text

set_option relaxedAutoImplicit false
set_option autoImplicit false

namespace Iot

open Js (Str)

/-! ### The buffer -/

/-- A packet.  The number tells packets with the same contents apart and is no field of the
source. -/
structure BufferedPacket where
  number : ℕ
  topic : Str
  payload : Str
  qos : ℤ
  retain : Bool
  createdAtMs : ℤ
  attempts : ℕ
  nextAttemptMs : ℤ
  priority : ℤ
  stickyKey : Str
  deriving DecidableEq

/-- A packet after one more failure. -/
def BufferedPacket.retried (pkt : BufferedPacket) (backoffMs clock : ℤ) : BufferedPacket :=
  { pkt with attempts := pkt.attempts + 1, nextAttemptMs := clock + backoffMs }

/-- A buffer with its file, which holds the packets field by field.  There is room for one packet at
least. -/
structure OfflinePacketBuffer where
  maxItems : ℕ
  room : 0 < maxItems
  queue : List BufferedPacket
  file : Option (List BufferedPacket)

namespace OfflinePacketBuffer

/-- A buffer that finds its file, or none. -/
def load (maxItems : ℕ) (room : 0 < maxItems) (file : Option (List BufferedPacket)) :
    OfflinePacketBuffer :=
  ⟨maxItems, room, file.getD [], file⟩

/-- The oldest packets are dropped while the queue is full: what is dropped, and what stays. -/
def makeRoom (maxItems : ℕ) : List BufferedPacket → List BufferedPacket × List BufferedPacket
  | [] => ([], [])
  | pkt :: queue =>
    if maxItems ≤ (pkt :: queue).length then
      let (dropped, kept) := makeRoom maxItems queue
      (pkt :: dropped, kept)
    else ([], pkt :: queue)

variable (b : OfflinePacketBuffer)

/-- The buffer with a packet at its end, and what it has dropped for it. -/
def push (item : BufferedPacket) : OfflinePacketBuffer × List BufferedPacket :=
  let (dropped, kept) := makeRoom b.maxItems b.queue
  let queue := kept ++ [item]
  ({ b with queue, file := some queue }, dropped)

/-- The loop of `pop_ready`: the first packets that are due, up to the limit, and the others. -/
def takeReady (nowMs : ℤ) : ℕ → List BufferedPacket → List BufferedPacket × List BufferedPacket
  | _, [] => ([], [])
  | limit, pkt :: queue =>
    if 0 < limit ∧ pkt.nextAttemptMs ≤ nowMs then
      let (ready, keep) := takeReady nowMs (limit - 1) queue
      (pkt :: ready, keep)
    else
      let (ready, keep) := takeReady nowMs limit queue
      (ready, pkt :: keep)

/-- What is due is taken out; the file is written if that is something.  A time that is `None` or
zero is read off the clock. -/
def popReady (nowMs : Option ℤ) (clock : ℤ) (limit : ℕ) :
    OfflinePacketBuffer × List BufferedPacket :=
  let now := if nowMs.getD 0 = 0 then clock else nowMs.getD 0
  let (ready, keep) := takeReady now limit b.queue
  ({ b with queue := keep, file := if ready = [] then b.file else some keep }, ready)

/-- A packet that has failed goes to the end of the queue. -/
def requeue (pkt : BufferedPacket) (backoffMs clock : ℤ) :
    OfflinePacketBuffer × List BufferedPacket :=
  b.push (pkt.retried backoffMs clock)

end OfflinePacketBuffer

/-- The delay after a failure, by the attempts that were made before it. -/
def backoffMs (attempts : ℕ) : ℤ := min 8000 (500 * 2 ^ min attempts 6)

/-! ### The device -/

/-- What `publish_envelope` reads of an envelope and of the clock; `sent` is whether the client
takes the message, and otherwise it raises. -/
structure Publication where
  topic : Str
  raw : Str
  qos : ℤ
  retain : Bool
  offlineOk : Bool
  sent : Bool
  createdAtMs : ℤ
  nextAttemptMs : ℤ

/-- The packet that is buffered for an envelope. -/
def Publication.packet (p : Publication) (number : ℕ) : BufferedPacket where
  number
  topic := p.topic
  payload := p.raw
  qos := p.qos
  retain := p.retain
  createdAtMs := p.createdAtMs
  attempts := 0
  nextAttemptMs := p.nextAttemptMs
  priority := 0
  stickyKey := []

/-- A call of `flush_offline` that is under way: the packets it has in hand, and its count. -/
structure FlushCall where
  rest : List BufferedPacket
  n : ℕ

/-- A device.  The last five are its history: how many packets were taken in; the packets that left
it, by their numbers; and every packet that a flush gave to the client, with the time and whether
the client took it, the last one first. -/
structure BridgeState where
  buffer : OfflinePacketBuffer
  flushes : List FlushCall
  accepted : ℕ
  delivered : List ℕ
  evicted : List ℕ
  lost : List ℕ
  log : List (BufferedPacket × ℤ × Bool)

/-- A device with an empty buffer. -/
def BridgeState.start (maxItems : ℕ) (room : 0 < maxItems) : BridgeState :=
  ⟨.load maxItems room none, [], 0, [], [], [], []⟩

/-- An envelope is published, `flush_offline` is called, the client is given the next packet of a
flush, or the device stops and starts again. -/
inductive BridgeMove
  | publish (p : Publication)
  | flush (connected : Bool) (clock : ℤ)
  | attempt (call : ℕ) (sent : Bool) (clock : ℤ)
  | restart

namespace BridgeState

variable (s : BridgeState)

/-- The packets that flushes have in hand. -/
def inHand : List BufferedPacket := s.flushes.flatMap (·.rest)

/-- `publish_envelope`: a message that the client does not take is buffered, unless that is not
wanted. -/
def publishEnvelope (p : Publication) : BridgeState :=
  if p.sent then
    { s with accepted := s.accepted + 1, delivered := s.delivered ++ [s.accepted] }
  else if p.offlineOk then
    let (buffer, dropped) := s.buffer.push (p.packet s.accepted)
    { s with
      buffer
      accepted := s.accepted + 1
      evicted := s.evicted ++ dropped.map (·.number) }
  else s

/-- `flush_offline` up to its loop: at most fifty packets are taken. -/
def beginFlush (connected : Bool) (clock : ℤ) : BridgeState :=
  if connected then
    let (buffer, ready) := s.buffer.popReady none clock 50
    { s with buffer, flushes := s.flushes ++ [⟨ready, 0⟩] }
  else { s with flushes := s.flushes ++ [⟨[], 0⟩] }

/-- One pass of the loop of a flush that has `pkt` and then `rest` in hand. -/
def attemptOne (call : ℕ) (pkt : BufferedPacket) (rest : List BufferedPacket) (n : ℕ) (sent : Bool)
    (clock : ℤ) : BridgeState :=
  let log := (pkt, clock, sent) :: s.log
  if sent then
    { s with
      flushes := s.flushes.set call ⟨rest, n + 1⟩
      delivered := s.delivered ++ [pkt.number]
      log }
  else
    let (buffer, dropped) := s.buffer.requeue pkt (backoffMs pkt.attempts) clock
    { s with
      buffer
      flushes := s.flushes.set call ⟨rest, n⟩
      evicted := s.evicted ++ dropped.map (·.number)
      log }

/-- The device stops, and starts again with its file. -/
def restart : BridgeState :=
  { s with
    buffer := .load s.buffer.maxItems s.buffer.room s.buffer.file
    flushes := []
    lost := s.lost ++ s.inHand.map (·.number) }

end BridgeState

def bridgeStep (s : BridgeState) : BridgeMove → Option BridgeState
  | .publish p => some (s.publishEnvelope p)
  | .flush connected clock => some (s.beginFlush connected clock)
  | .attempt call sent clock =>
    match s.flushes[call]? with
    | some ⟨pkt :: rest, n⟩ => some (s.attemptOne call pkt rest n sent clock)
    | _ => none
  | .restart => some s.restart

/-! ### What the buffer does -/

namespace OfflinePacketBuffer

theorem makeRoom_append (maxItems : ℕ) (queue : List BufferedPacket) :
    (makeRoom maxItems queue).1 ++ (makeRoom maxItems queue).2 = queue := by
  induction queue with
  | nil => rfl
  | cons pkt queue ih =>
      rw [makeRoom]
      split_ifs
      · exact congrArg (pkt :: ·) ih
      · rfl

theorem length_makeRoom {maxItems : ℕ} (room : 0 < maxItems) (queue : List BufferedPacket) :
    (makeRoom maxItems queue).2.length < maxItems := by
  induction queue with
  | nil => exact room
  | cons pkt queue ih =>
      rw [makeRoom]
      split_ifs with hfull
      · exact ih
      · exact not_le.1 hfull

/-- Something is dropped exactly if the queue is full. -/
theorem makeRoom_eq_nil_iff {maxItems : ℕ} (room : 0 < maxItems) (queue : List BufferedPacket) :
    (makeRoom maxItems queue).1 = [] ↔ queue.length < maxItems := by
  cases queue with
  | nil => exact iff_of_true rfl room
  | cons pkt queue =>
      by_cases hfull : maxItems ≤ (pkt :: queue).length
      · rw [makeRoom, if_pos hfull]
        exact iff_of_false (List.cons_ne_nil _ _) (not_lt.2 hfull)
      · rw [makeRoom, if_neg hfull]
        exact iff_of_true rfl (not_le.1 hfull)

variable (b : OfflinePacketBuffer)

/-- A push puts the packet in the queue and moves the dropped ones out of it. -/
theorem perm_push (item : BufferedPacket) :
    ((b.push item).1.queue ++ (b.push item).2).Perm (item :: b.queue) := by
  have hqueue : (b.push item).2 ++ (makeRoom b.maxItems b.queue).2 = b.queue :=
    makeRoom_append b.maxItems b.queue
  refine List.perm_append_comm.trans ?_
  show ((b.push item).2 ++ ((makeRoom b.maxItems b.queue).2 ++ [item])).Perm _
  rw [← List.append_assoc, hqueue]
  exact List.perm_append_singleton _ _

theorem length_push (item : BufferedPacket) : (b.push item).1.queue.length ≤ b.maxItems := by
  show ((makeRoom b.maxItems b.queue).2 ++ [item]).length ≤ b.maxItems
  rw [List.length_append, List.length_singleton]
  exact length_makeRoom b.room b.queue

theorem push_eq_nil_iff (item : BufferedPacket) :
    (b.push item).2 = [] ↔ b.queue.length < b.maxItems :=
  makeRoom_eq_nil_iff b.room b.queue

theorem perm_takeReady (nowMs : ℤ) (limit : ℕ) (queue : List BufferedPacket) :
    ((takeReady nowMs limit queue).1 ++ (takeReady nowMs limit queue).2).Perm queue := by
  induction queue generalizing limit with
  | nil => exact List.Perm.refl _
  | cons pkt queue ih =>
      rw [takeReady]
      split_ifs
      · exact (ih (limit - 1)).cons pkt
      · exact List.perm_middle.trans ((ih limit).cons pkt)

/-- If nothing is due, the queue stays as it is. -/
theorem takeReady_eq_nil {nowMs : ℤ} {limit : ℕ} {queue : List BufferedPacket}
    (h : (takeReady nowMs limit queue).1 = []) : (takeReady nowMs limit queue).2 = queue := by
  induction queue generalizing limit with
  | nil => rfl
  | cons pkt queue ih =>
      by_cases hready : 0 < limit ∧ pkt.nextAttemptMs ≤ nowMs
      · rw [takeReady, if_pos hready] at h
        exact absurd h (List.cons_ne_nil _ _)
      · rw [takeReady, if_neg hready] at h ⊢
        exact congrArg (pkt :: ·) (ih h)

theorem due_of_mem_takeReady {nowMs : ℤ} {limit : ℕ} {queue : List BufferedPacket}
    {pkt : BufferedPacket} (h : pkt ∈ (takeReady nowMs limit queue).1) :
    pkt.nextAttemptMs ≤ nowMs := by
  induction queue generalizing limit with
  | nil => cases h
  | cons p queue ih =>
      rw [takeReady] at h
      split_ifs at h with hready
      · obtain rfl | h := List.mem_cons.1 h
        · exact hready.2
        · exact ih h
      · exact ih h

end OfflinePacketBuffer

/-! ### Fates -/

/-- What has become of a packet. -/
inductive PacketFate
  | delivered
  | queued
  | inHand
  | evicted
  | lost
  deriving DecidableEq

instance : Fintype PacketFate where
  elems := ⟨([.delivered, .queued, .inHand, .evicted, .lost] : List PacketFate), by decide⟩
  complete := by
    intro f
    cases f <;> decide

/-- The packets under each fate. -/
def BridgeState.ids (s : BridgeState) : PacketFate → List ℕ
  | .delivered => s.delivered
  | .queued => s.buffer.queue.map (·.number)
  | .inHand => s.inHand.map (·.number)
  | .evicted => s.evicted
  | .lost => s.lost

theorem sum_packetFate (g : PacketFate → ℕ) :
    ∑ f, g f = g .delivered + (g .queued + (g .inHand + (g .evicted + g .lost))) := rfl

/-- The fates account for the packets, the file is the buffer, and the buffer is not too full. -/
structure BridgeInv (maxItems : ℕ) (s : BridgeState) : Prop where
  accounted : Fates.Accounted s.ids s.accepted
  file : s.buffer.file.getD [] = s.buffer.queue
  limit : s.buffer.maxItems = maxItems
  room : s.buffer.queue.length ≤ maxItems

theorem bridgeInv_start (maxItems : ℕ) (room : 0 < maxItems) :
    BridgeInv maxItems (.start maxItems room) := by
  refine ⟨Fates.Accounted.start fun f => ?_, rfl, rfl, Nat.zero_le _⟩
  cases f <;> rfl

/-- A call of `flush_offline` goes on with what it has in hand after the first packet. -/
theorem perm_set_flushes {flushes : List FlushCall} {call n m : ℕ} {pkt : BufferedPacket}
    {rest : List BufferedPacket} (h : flushes[call]? = some ⟨pkt :: rest, n⟩) :
    (flushes.flatMap (·.rest)).Perm
      (pkt :: (flushes.set call ⟨rest, m⟩).flatMap (·.rest)) := by
  obtain ⟨hlt, heq⟩ := List.getElem?_eq_some_iff.1 h
  have hsplit : flushes = flushes.take call ++ ⟨pkt :: rest, n⟩ :: flushes.drop (call + 1) := by
    rw [← heq, List.getElem_cons_drop, List.take_append_drop]
  rw [List.set_eq_take_append_cons_drop, if_pos hlt]
  nth_rewrite 1 [hsplit]
  simp only [List.flatMap_append, List.flatMap_cons, List.cons_append]
  exact List.perm_middle

variable {s s' : BridgeState} {maxItems : ℕ}

/-- How often a number is listed under a fate, by lists that are rearranged. -/
theorem count_of_perm {l m : List BufferedPacket} (h : l.Perm m) (x : ℕ) :
    (l.map (·.number)).count x = (m.map (·.number)).count x :=
  (h.map _).count_eq x

theorem bridgeInv_publish (h : BridgeInv maxItems s) (p : Publication) :
    BridgeInv maxItems (s.publishEnvelope p) := by
  unfold BridgeState.publishEnvelope
  split_ifs
  · refine ⟨h.accounted.issue fun x => ?_, h.file, h.limit, h.room⟩
    simp only [sum_packetFate, BridgeState.ids, BridgeState.inHand, List.count_append,
      List.count_singleton, beq_iff_eq, eq_comm (a := x)]
    omega
  · refine ⟨h.accounted.issue fun x => ?_, rfl, h.limit, ?_⟩
    · have hcount := count_of_perm (s.buffer.perm_push (p.packet s.accepted)) x
      simp only [List.map_append, List.count_append, List.map_cons, List.count_cons, beq_iff_eq]
        at hcount
      simp only [sum_packetFate, BridgeState.ids, BridgeState.inHand, List.count_append,
        eq_comm (a := x)]
      rw [show (p.packet s.accepted).number = s.accepted from rfl] at hcount
      omega
    · exact (OfflinePacketBuffer.length_push _ _).trans h.limit.le
  · exact h

/-- A call of `flush_offline` begins with packets in hand. -/
theorem inHand_append (flushes : List FlushCall) (ready : List BufferedPacket) :
    (flushes ++ [(⟨ready, 0⟩ : FlushCall)]).flatMap (·.rest) =
      flushes.flatMap (·.rest) ++ ready := by
  rw [List.flatMap_append, List.flatMap_singleton]

theorem bridgeInv_flush (h : BridgeInv maxItems s) (connected : Bool) (clock : ℤ) :
    BridgeInv maxItems (s.beginFlush connected clock) := by
  unfold BridgeState.beginFlush
  split_ifs
  · have hperm := OfflinePacketBuffer.perm_takeReady clock 50 s.buffer.queue
    simp only [OfflinePacketBuffer.popReady, Option.getD_none, if_true]
    refine ⟨h.accounted.move fun x => ?_, ?_, h.limit, ?_⟩
    · have hcount := count_of_perm hperm x
      simp only [List.map_append, List.count_append] at hcount
      simp only [sum_packetFate, BridgeState.ids, BridgeState.inHand, inHand_append,
        List.map_append, List.count_append]
      omega
    · dsimp only
      split_ifs with hnil
      · rw [OfflinePacketBuffer.takeReady_eq_nil hnil]
        exact h.file
      · rfl
    · have hlength := hperm.length_eq
      rw [List.length_append] at hlength
      exact le_trans (hlength ▸ Nat.le_add_left _ _) h.room
  · refine ⟨h.accounted.move fun x => ?_, h.file, h.limit, h.room⟩
    simp only [sum_packetFate, BridgeState.ids, BridgeState.inHand, inHand_append,
      List.append_nil]

theorem bridgeInv_attempt (h : BridgeInv maxItems s) {call n : ℕ} {pkt : BufferedPacket}
    {rest : List BufferedPacket} (hcall : s.flushes[call]? = some ⟨pkt :: rest, n⟩) (sent : Bool)
    (clock : ℤ) : BridgeInv maxItems (s.attemptOne call pkt rest n sent clock) := by
  unfold BridgeState.attemptOne
  split_ifs
  · refine ⟨h.accounted.move fun x => ?_, h.file, h.limit, h.room⟩
    have hhand := count_of_perm (perm_set_flushes (m := n + 1) hcall) x
    simp only [List.map_cons, List.count_cons, beq_iff_eq] at hhand
    simp only [sum_packetFate, BridgeState.ids, BridgeState.inHand, List.count_append,
      List.count_singleton, beq_iff_eq]
    omega
  · refine ⟨h.accounted.move fun x => ?_, rfl, h.limit, ?_⟩
    · have hhand := count_of_perm (perm_set_flushes (m := n) hcall) x
      have hpush := count_of_perm
        (s.buffer.perm_push (pkt.retried (backoffMs pkt.attempts) clock)) x
      simp only [List.map_append, List.count_append, List.map_cons, List.count_cons, beq_iff_eq,
        BufferedPacket.retried] at hhand hpush
      simp only [sum_packetFate, BridgeState.ids, BridgeState.inHand, List.count_append,
        OfflinePacketBuffer.requeue, BufferedPacket.retried]
      omega
    · exact (OfflinePacketBuffer.length_push _ _).trans h.limit.le

theorem bridgeInv_restart (h : BridgeInv maxItems s) : BridgeInv maxItems s.restart := by
  refine ⟨h.accounted.move fun x => ?_, rfl, h.limit, ?_⟩
  · simp only [sum_packetFate, BridgeState.ids, BridgeState.restart, BridgeState.inHand,
      OfflinePacketBuffer.load, h.file, List.flatMap_nil, List.map_nil, List.count_nil,
      List.count_append]
    omega
  · show (s.buffer.file.getD []).length ≤ maxItems
    rw [h.file]
    exact h.room

/-- **What a step keeps.** -/
theorem bridgeInv_step {mv : BridgeMove} (h : BridgeInv maxItems s)
    (hstep : bridgeStep s mv = some s') : BridgeInv maxItems s' := by
  cases mv with
  | publish p =>
      obtain rfl := Option.some.inj hstep
      exact bridgeInv_publish h p
  | flush connected clock =>
      obtain rfl := Option.some.inj hstep
      exact bridgeInv_flush h connected clock
  | attempt call sent clock =>
      simp only [bridgeStep] at hstep
      split at hstep
      · next pkt rest n hcall =>
          obtain rfl := Option.some.inj hstep
          exact bridgeInv_attempt h hcall sent clock
      · cases hstep
  | restart =>
      obtain rfl := Option.some.inj hstep
      exact bridgeInv_restart h

/-! ### Runs -/

open Runs

/-- **Every packet has exactly one fate** after any run: it was delivered, or waits, or is in hand,
or was evicted, or is lost.  The file is the buffer, so that a restart finds what waits, and there
are never more packets than fit. -/
theorem packets_accounted {room : 0 < maxItems} {ls : List BridgeMove}
    (h : run bridgeStep (.start maxItems room) ls = some s) :
    (∀ x < s.accepted, ∃! f, x ∈ s.ids f) ∧
      (∀ f, (s.ids f).Nodup ∧ ∀ x ∈ s.ids f, x < s.accepted) ∧
      s.buffer.file.getD [] = s.buffer.queue ∧ s.buffer.queue.length ≤ maxItems := by
  have hinv : BridgeInv maxItems s :=
    invariant_of_run (fun _ _ _ h hstep => bridgeInv_step h hstep) (bridgeInv_start maxItems room) h
  exact ⟨fun x hx => hinv.accounted.existsUnique hx,
    fun f => ⟨hinv.accounted.nodup f, fun x hx => hinv.accounted.lt hx⟩, hinv.file, hinv.room⟩

/-- No push finds the buffer full, and no restart finds a packet in hand. -/
def Uneventful (s : BridgeState) : BridgeMove → Prop
  | .publish p => p.sent = true ∨ p.offlineOk = false ∨ s.buffer.queue.length < s.buffer.maxItems
  | .flush _ _ => True
  | .attempt _ sent _ => sent = true ∨ s.buffer.queue.length < s.buffer.maxItems
  | .restart => s.inHand = []

instance (s : BridgeState) : DecidablePred (Uneventful s)
  | .publish p => inferInstanceAs (Decidable (p.sent = true ∨ p.offlineOk = false ∨
      s.buffer.queue.length < s.buffer.maxItems))
  | .flush _ _ => isTrue trivial
  | .attempt _ sent _ =>
      inferInstanceAs (Decidable (sent = true ∨ s.buffer.queue.length < s.buffer.maxItems))
  | .restart => inferInstanceAs (Decidable (s.inHand = []))

/-- Nothing was evicted and nothing was lost. -/
def NoneDropped (s : BridgeState) : Prop := s.evicted = [] ∧ s.lost = []

theorem noneDropped_step {mv : BridgeMove} (hstep : bridgeStep s mv = some s') :
    NoneDropped s' ↔ NoneDropped s ∧ Uneventful s mv := by
  unfold NoneDropped
  cases mv with
  | publish p =>
      obtain rfl := Option.some.inj hstep
      unfold BridgeState.publishEnvelope Uneventful
      split_ifs with hsent hoffline
      · simp [hsent]
      · have hpush := s.buffer.push_eq_nil_iff (p.packet s.accepted)
        simp only [List.append_eq_nil_iff, List.map_eq_nil_iff, hpush, hsent, hoffline]
        tauto
      · simp [hoffline]
  | flush connected clock =>
      obtain rfl := Option.some.inj hstep
      unfold BridgeState.beginFlush Uneventful
      split_ifs <;> simp
  | attempt call sent clock =>
      simp only [bridgeStep] at hstep
      split at hstep
      · next pkt rest n hcall =>
          obtain rfl := Option.some.inj hstep
          unfold BridgeState.attemptOne Uneventful
          split_ifs with hsent
          · simp [hsent]
          · have hpush := s.buffer.push_eq_nil_iff (pkt.retried (backoffMs pkt.attempts) clock)
            simp only [OfflinePacketBuffer.requeue, List.append_eq_nil_iff, List.map_eq_nil_iff,
              hpush, hsent]
            tauto
      · cases hstep
  | restart =>
      obtain rfl := Option.some.inj hstep
      simp only [BridgeState.restart, Uneventful, List.append_eq_nil_iff, List.map_eq_nil_iff,
        and_assoc]

/-- **No packet is dropped exactly if the run is uneventful**: then, and only then, each packet that
was taken in was delivered, or waits, or is in hand. -/
theorem nothing_dropped_iff {room : 0 < maxItems} {ls : List BridgeMove}
    (h : run bridgeStep (.start maxItems room) ls = some s) :
    (∀ x < s.accepted, x ∈ s.ids .delivered ∨ x ∈ s.ids .queued ∨ x ∈ s.ids .inHand) ↔
      Along bridgeStep Uneventful (.start maxItems room) ls := by
  have hinv : BridgeInv maxItems s :=
    invariant_of_run (fun _ _ _ h hstep => bridgeInv_step h hstep) (bridgeInv_start maxItems room) h
  have hiff : NoneDropped s ↔ Along bridgeStep Uneventful (.start maxItems room) ls :=
    (iff_along (I := fun _ => True) (fun _ _ _ _ _ => trivial)
      (fun _ _ _ _ hstep => noneDropped_step hstep) trivial h).trans (and_iff_right ⟨rfl, rfl⟩)
  rw [← hiff]
  constructor
  · intro hkept
    -- a packet that was dropped would have a second fate
    have hnone : ∀ f : PacketFate, f = .evicted ∨ f = .lost → s.ids f = [] := by
      intro f hf
      refine List.eq_nil_iff_forall_not_mem.2 fun x hx => ?_
      obtain hk | hk | hk := hkept x (hinv.accounted.lt hx) <;>
      · have heq := hinv.accounted.unique hk hx
        obtain rfl | rfl := hf <;> cases heq
    exact ⟨hnone .evicted (Or.inl rfl), hnone .lost (Or.inr rfl)⟩
  · rintro ⟨hevicted, hlost⟩ x hx
    obtain ⟨f, hf, -⟩ := hinv.accounted.existsUnique hx
    cases f with
    | delivered => exact Or.inl hf
    | queued => exact Or.inr (Or.inl hf)
    | inHand => exact Or.inr (Or.inr hf)
    | evicted => exact absurd (hevicted ▸ hf : x ∈ ([] : List ℕ)) List.not_mem_nil
    | lost => exact absurd (hlost ▸ hf : x ∈ ([] : List ℕ)) List.not_mem_nil

/-- A message that the client does not take. -/
def refused (at_ : ℤ) : BridgeMove :=
  .publish ⟨[], [], 2, false, true, false, at_, at_⟩

/-- Three messages for a buffer of two packets: the first one is evicted.  A flush takes the other
two; the second one fails and is put back, and the third one is lost when the device stops. -/
def lossyRun : List BridgeMove :=
  [refused 0, refused 1, refused 2, .flush true 3, .attempt 0 false 4, .restart]

theorem packets_accounted_lossy :
    ∃ s, run bridgeStep (.start 2 (by decide)) lossyRun = some s ∧
      s.evicted = [0] ∧ s.buffer.queue.map (·.number) = [1] ∧ s.lost = [2] ∧
      (∀ x < s.accepted, ∃! f, x ∈ s.ids f) := by
  obtain ⟨s, h⟩ : ∃ s, run bridgeStep (.start 2 (by decide)) lossyRun = some s := ⟨_, rfl⟩
  refine ⟨s, h, ?_, ?_, ?_, (packets_accounted h).1⟩ <;>
  · obtain rfl := Option.some.inj h
    rfl

/-- Two messages, and a restart after the first flush is done. -/
def calmRun : List BridgeMove :=
  [refused 0, refused 1, .flush true 3, .attempt 0 false 4, .attempt 0 true 5, .restart]

theorem nothing_dropped_calm :
    ∃ s, run bridgeStep (.start 2 (by decide)) calmRun = some s ∧
      ((∀ x < s.accepted, x ∈ s.ids .delivered ∨ x ∈ s.ids .queued ∨ x ∈ s.ids .inHand) ↔
        Along bridgeStep Uneventful (.start 2 (by decide)) calmRun) ∧
      Along bridgeStep Uneventful (.start 2 (by decide)) calmRun := by
  obtain ⟨s, h⟩ : ∃ s, run bridgeStep (.start 2 (by decide)) calmRun = some s := ⟨_, rfl⟩
  exact ⟨s, h, nothing_dropped_iff h, by decide⟩

end Iot
