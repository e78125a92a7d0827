/-
**Retries of a device** (`swarm/iot.py`).

A packet that fails is put back with one attempt more and with a delay that doubles up to eight
seconds, and a flush takes it again only when the delay is over.  So what the client was given of a
packet are its failures, each the delay after the one before it, and the call in which the client
took it, if there is one.  When nothing fails, flushes empty the buffer in the order of its queue,
fifty packets at a time.

Main definitions:

* `Iot.Clocked` — the clock does not go back in the course of a run;
* `Iot.RetryOf` — a call of the client is a retry of the calls before it;
* `Iot.drain` — one flush after another, none of whose calls fails.

Main results:

* `Iot.retries_spaced` — **every call is a retry of the earlier calls for its packet, after their
  delays**;
* `Iot.drain_empties` — **flushes that do not fail deliver what waits, in its order.**
-/
import Endendend.Iot.StoreForward

set_option relaxedAutoImplicit false
set_option autoImplicit false

namespace Iot

open Runs

/-! ### Delays -/

theorem backoffMs_nonneg (attempts : ℕ) : 0 ≤ backoffMs attempts := by
  have hpow : (0 : ℤ) ≤ 2 ^ min attempts 6 := Int.pow_nonneg (by decide)
  unfold backoffMs
  omega

/-- The time that a move reads off the clock. -/
def BridgeMove.clock : BridgeMove → Option ℤ
  | .flush _ clock => some clock
  | .attempt _ _ clock => some clock
  | _ => none

/-- The clock does not go back. -/
def Clocked (ls : List BridgeMove) : Prop := (ls.filterMap BridgeMove.clock).Pairwise (· ≤ ·)

instance : DecidablePred Clocked := fun ls =>
  inferInstanceAs (Decidable ((ls.filterMap BridgeMove.clock).Pairwise (· ≤ ·)))

/-- The client is given `pkt` at the time `t` after the calls in `older`: its attempts are the
calls for the same packet, and each of them failed, with the same message, and its delay is over. -/
structure RetryOf (older : List (BufferedPacket × ℤ × Bool)) (pkt : BufferedPacket) (t : ℤ) :
    Prop where
  attempts : pkt.attempts = older.countP fun e => e.1.number = pkt.number
  failed : ∀ e ∈ older, e.1.number = pkt.number →
    e.2.2 = false ∧ e.1.attempts < pkt.attempts ∧ e.2.1 + backoffMs e.1.attempts ≤ t ∧
      e.1.topic = pkt.topic ∧ e.1.payload = pkt.payload ∧ e.1.qos = pkt.qos ∧
        e.1.retain = pkt.retain

namespace RetryOf

variable {older : List (BufferedPacket × ℤ × Bool)} {pkt : BufferedPacket} {t : ℤ}

theorem mono (h : RetryOf older pkt t) {t' : ℤ} (hle : t ≤ t') : RetryOf older pkt t' :=
  ⟨h.attempts, fun e he heq =>
    let ⟨hsent, hlt, hdelay, hsame⟩ := h.failed e he heq
    ⟨hsent, hlt, hdelay.trans hle, hsame⟩⟩

/-- A packet that no call was made for. -/
theorem fresh (h : ∀ e ∈ older, e.1.number ≠ pkt.number) (hzero : pkt.attempts = 0) :
    RetryOf older pkt t := by
  refine ⟨?_, fun e he heq => absurd heq (h e he)⟩
  rw [hzero, eq_comm, List.countP_eq_zero]
  simpa using h

/-- A call for another packet. -/
theorem other (h : RetryOf older pkt t) {e : BufferedPacket × ℤ × Bool}
    (hne : e.1.number ≠ pkt.number) : RetryOf (e :: older) pkt t := by
  refine ⟨?_, fun e' he' heq => ?_⟩
  · rw [List.countP_cons_of_neg (by simpa using hne)]
    exact h.attempts
  · obtain rfl | he' := List.mem_cons.1 he'
    · exact absurd heq hne
    · exact h.failed e' he' heq

/-- The packet after a call that failed, to be tried again after the delay. -/
theorem again (h : RetryOf older pkt t) {clock : ℤ} (hclock : t ≤ clock) :
    RetryOf ((pkt, clock, false) :: older) (pkt.retried (backoffMs pkt.attempts) clock)
      (clock + backoffMs pkt.attempts) := by
  have hdelay := backoffMs_nonneg pkt.attempts
  refine ⟨?_, fun e he heq => ?_⟩
  · rw [List.countP_cons_of_pos (by simp [BufferedPacket.retried])]
    exact congrArg (· + 1) h.attempts
  · obtain rfl | he := List.mem_cons.1 he
    · exact ⟨rfl, Nat.lt_succ_self _, le_refl _, rfl, rfl, rfl, rfl⟩
    · obtain ⟨hsent, hlt, hle, hsame⟩ := h.failed e he heq
      exact ⟨hsent, Nat.lt_succ_of_lt hlt, by omega, hsame⟩

end RetryOf

/-! ### The log of a run -/

/-- The log of a run: its calls are retries, and so will be the calls for the packets that wait or
are in hand. -/
structure LogInv (ls : List BridgeMove) (s : BridgeState) : Prop where
  calls : ∀ newer e older, s.log = newer ++ e :: older → RetryOf older e.1 e.2.1
  queued : ∀ pkt ∈ s.buffer.queue, RetryOf s.log pkt pkt.nextAttemptMs
  inHand : ∀ pkt ∈ s.inHand, RetryOf s.log pkt pkt.nextAttemptMs ∧
    ∃ c ∈ ls.filterMap BridgeMove.clock, pkt.nextAttemptMs ≤ c
  old : ∀ e ∈ s.log, e.1.number < s.accepted

variable {s s' : BridgeState} {maxItems : ℕ} {ls : List BridgeMove}

theorem logInv_start (room : 0 < maxItems) : LogInv [] (.start maxItems room) := by
  refine ⟨fun newer e older h => ?_, ?_, ?_, ?_⟩
  · exact absurd h.symm (List.append_ne_nil_of_right_ne_nil _ (List.cons_ne_nil _ _))
  all_goals
    intro x hx
    cases hx

/-- A packet that is pushed, or was in the queue before. -/
theorem mem_queue_push {b : OfflinePacketBuffer} {item pkt : BufferedPacket}
    (h : pkt ∈ (b.push item).1.queue) : pkt = item ∨ pkt ∈ b.queue :=
  List.mem_cons.1 ((b.perm_push item).mem_iff.1 (List.mem_append_left _ h))

theorem LogInv.publish (h : LogInv ls s) (p : Publication) :
    LogInv (ls ++ [.publish p]) (s.publishEnvelope p) := by
  have hclocks : (ls ++ [BridgeMove.publish p]).filterMap BridgeMove.clock =
      ls.filterMap BridgeMove.clock := by
    rw [List.filterMap_append]
    exact List.append_nil _
  have hold : ∀ e ∈ s.log, e.1.number < s.accepted + 1 := fun e he => Nat.lt_succ_of_lt (h.old e he)
  unfold BridgeState.publishEnvelope
  split_ifs
  · exact ⟨h.calls, h.queued, hclocks ▸ h.inHand, hold⟩
  · refine ⟨h.calls, fun pkt hpkt => ?_, hclocks ▸ h.inHand, hold⟩
    obtain rfl | hpkt := mem_queue_push hpkt
    · exact RetryOf.fresh (fun e he => (h.old e he).ne) rfl
    · exact h.queued pkt hpkt
  · exact ⟨h.calls, h.queued, hclocks ▸ h.inHand, h.old⟩

theorem LogInv.flush (h : LogInv ls s) (connected : Bool) (clock : ℤ) :
    LogInv (ls ++ [.flush connected clock]) (s.beginFlush connected clock) := by
  have hclocks : (ls ++ [BridgeMove.flush connected clock]).filterMap BridgeMove.clock =
      ls.filterMap BridgeMove.clock ++ [clock] := List.filterMap_append
  have hhand : ∀ pkt ∈ s.inHand, RetryOf s.log pkt pkt.nextAttemptMs ∧
      ∃ c ∈ ls.filterMap BridgeMove.clock ++ [clock], pkt.nextAttemptMs ≤ c := by
    intro pkt hpkt
    obtain ⟨hretry, c, hc, hle⟩ := h.inHand pkt hpkt
    exact ⟨hretry, c, List.mem_append_left _ hc, hle⟩
  unfold BridgeState.beginFlush
  split_ifs
  · have hperm := OfflinePacketBuffer.perm_takeReady clock 50 s.buffer.queue
    simp only [OfflinePacketBuffer.popReady, Option.getD_none, if_true]
    refine ⟨h.calls, fun pkt hpkt => ?_, fun pkt hpkt => ?_, h.old⟩
    · exact h.queued pkt (hperm.mem_iff.1 (List.mem_append_right _ hpkt))
    · rw [BridgeState.inHand, inHand_append] at hpkt
      rw [hclocks]
      obtain hpkt | hpkt := List.mem_append.1 hpkt
      · exact hhand pkt hpkt
      · refine ⟨h.queued pkt (hperm.mem_iff.1 (List.mem_append_left _ hpkt)), clock, ?_,
          OfflinePacketBuffer.due_of_mem_takeReady hpkt⟩
        exact List.mem_append_right _ (List.mem_singleton_self clock)
  · refine ⟨h.calls, h.queued, fun pkt hpkt => ?_, h.old⟩
    rw [BridgeState.inHand, inHand_append, List.append_nil] at hpkt
    rw [hclocks]
    exact hhand pkt hpkt

theorem LogInv.attempt (h : LogInv ls s) (hinv : BridgeInv maxItems s) {call n : ℕ}
    {pkt : BufferedPacket} {rest : List BufferedPacket}
    (hcall : s.flushes[call]? = some ⟨pkt :: rest, n⟩) {sent : Bool} {clock : ℤ}
    (hclock : ∀ c ∈ ls.filterMap BridgeMove.clock, c ≤ clock) :
    LogInv (ls ++ [.attempt call sent clock]) (s.attemptOne call pkt rest n sent clock) := by
  have hmem : ∀ m : ℕ, s.inHand.Perm
      (pkt :: (s.flushes.set call ⟨rest, m⟩).flatMap (·.rest)) := fun m => perm_set_flushes hcall
  have hpkt : pkt ∈ s.inHand := (hmem n).mem_iff.2 List.mem_cons_self
  obtain ⟨hretry, c, hc, hle⟩ := h.inHand pkt hpkt
  have hdue : pkt.nextAttemptMs ≤ clock := hle.trans (hclock c hc)
  -- the other packets have other numbers
  have hqueue : ∀ q ∈ s.buffer.queue, pkt.number ≠ q.number := by
    intro q hq heq
    have hfate : PacketFate.inHand = .queued :=
      hinv.accounted.unique (f := .inHand) (List.mem_map_of_mem hpkt)
        (heq ▸ List.mem_map_of_mem (f := (·.number)) hq)
    cases hfate
  have hhand : ∀ m, ∀ q ∈ (s.flushes.set call ⟨rest, m⟩).flatMap (·.rest),
      pkt.number ≠ q.number := by
    intro m q hq heq
    have hnodup : (s.inHand.map (·.number)).Nodup := hinv.accounted.nodup .inHand
    rw [((hmem m).map _).nodup_iff, List.map_cons] at hnodup
    exact (List.nodup_cons.1 hnodup).1 (heq ▸ List.mem_map_of_mem (f := (·.number)) hq)
  have hcalls : ∀ newer e older, (pkt, clock, sent) :: s.log = newer ++ e :: older →
      RetryOf older e.1 e.2.1 := by
    intro newer e older hsplit
    cases newer with
    | nil =>
        obtain ⟨rfl, rfl⟩ := List.cons.inj hsplit
        exact hretry.mono hdue
    | cons e' newer => exact h.calls newer e older (List.cons.inj hsplit).2
  have hrest : ∀ m, ∀ q ∈ (s.flushes.set call ⟨rest, m⟩).flatMap (·.rest),
      RetryOf ((pkt, clock, sent) :: s.log) q q.nextAttemptMs ∧
        ∃ c ∈ (ls ++ [BridgeMove.attempt call sent clock]).filterMap BridgeMove.clock,
          q.nextAttemptMs ≤ c := by
    intro m q hq
    obtain ⟨hq', c', hc', hle'⟩ := h.inHand q ((hmem m).mem_iff.2 (List.mem_cons_of_mem _ hq))
    refine ⟨hq'.other (hhand m q hq), c', ?_, hle'⟩
    rw [List.filterMap_append]
    exact List.mem_append_left _ hc'
  have hold : ∀ e ∈ (pkt, clock, sent) :: s.log, e.1.number < s.accepted := by
    intro e he
    obtain rfl | he := List.mem_cons.1 he
    · exact hinv.accounted.lt (f := .inHand) (List.mem_map_of_mem hpkt)
    · exact h.old e he
  have hwaiting : ∀ q ∈ s.buffer.queue,
      RetryOf ((pkt, clock, sent) :: s.log) q q.nextAttemptMs :=
    fun q hq => (h.queued q hq).other (hqueue q hq)
  unfold BridgeState.attemptOne
  split_ifs with hsent
  · exact ⟨hcalls, hwaiting, hrest (n + 1), hold⟩
  · obtain rfl := Bool.eq_false_iff.2 hsent
    refine ⟨hcalls, fun q hq => ?_, hrest n, hold⟩
    obtain rfl | hq := mem_queue_push hq
    · exact hretry.again hdue
    · exact hwaiting q hq

theorem LogInv.restart (h : LogInv ls s) (hinv : BridgeInv maxItems s) :
    LogInv (ls ++ [.restart]) s.restart := by
  refine ⟨h.calls, fun pkt hpkt => h.queued pkt ?_, fun pkt hpkt => ?_, h.old⟩
  · rw [← hinv.file]
    exact hpkt
  · cases hpkt

/-- **Every call is a retry**: the earlier calls for its packet failed, as many as its attempts say,
with the same message, and each of them long enough before. -/
theorem retries_spaced {room : 0 < maxItems}
    (h : run bridgeStep (.start maxItems room) ls = some s) (hclock : Clocked ls) :
    ∀ newer e older, s.log = newer ++ e :: older → RetryOf older e.1 e.2.1 := by
  have hinv : BridgeInv maxItems s ∧ (Clocked ls → LogInv ls s) := by
    refine invariant_of_history (I := fun ls s => BridgeInv maxItems s ∧ (Clocked ls → LogInv ls s))
      ⟨bridgeInv_start maxItems room, fun _ => logInv_start room⟩ ?_ h
    rintro ls mv s₁ s₂ - ⟨hinv, hlog⟩ hstep
    refine ⟨bridgeInv_step hinv hstep, fun hclock => ?_⟩
    rw [Clocked, List.filterMap_append, List.pairwise_append] at hclock
    obtain ⟨hbefore, -, hlast⟩ := hclock
    have hlog := hlog hbefore
    cases mv with
    | publish p =>
        obtain rfl := Option.some.inj hstep
        exact hlog.publish p
    | flush connected clock =>
        obtain rfl := Option.some.inj hstep
        exact hlog.flush connected clock
    | attempt call sent clock =>
        simp only [bridgeStep] at hstep
        split at hstep
        · next pkt rest n hcall =>
            obtain rfl := Option.some.inj hstep
            exact hlog.attempt hinv hcall fun c hc => hlast c hc clock (List.mem_singleton_self _)
        · cases hstep
    | restart =>
        obtain rfl := Option.some.inj hstep
        exact hlog.restart hinv
  exact (hinv.2 hclock).calls

/-- A call that fails, the retry after half a second, and the one after another second. -/
def twoFailures : List BridgeMove :=
  [refused 0, .flush true 0, .attempt 0 false 10, .flush true 510, .attempt 1 false 520,
    .flush true 1519, .flush true 1520, .attempt 3 true 1521]

theorem retries_spaced_twoFailures :
    ∃ s, run bridgeStep (.start 2 (by decide)) twoFailures = some s ∧ s.delivered = [0] ∧
      ∀ newer e older, s.log = newer ++ e :: older → RetryOf older e.1 e.2.1 := by
  have hdelivered : (run bridgeStep (.start 2 (by decide)) twoFailures).map (·.delivered) =
      some [0] := by decide +kernel
  obtain ⟨s, h, hs⟩ := Option.map_eq_some_iff.1 hdelivered
  exact ⟨s, h, hs, retries_spaced h (by decide +kernel)⟩

/-! ### Emptying the buffer -/

/-- A flush at the time `clock`, whose number is `call` and which takes `k` packets, none of whose
calls fails. -/
def wholeFlush (clock : ℤ) (call k : ℕ) : List BridgeMove :=
  .flush true clock :: List.replicate k (.attempt call true clock)

/-- Some flushes, one after the other, for a queue of `length` packets. -/
def drain (clock : ℤ) : ℕ → ℕ → ℕ → List BridgeMove
  | 0, _, _ => []
  | rounds + 1, call, length =>
    wholeFlush clock call (min 50 length) ++ drain clock rounds (call + 1) (length - 50)

/-- A queue whose packets are all due is taken from its front. -/
theorem takeReady_of_due {clock : ℤ} {queue : List BufferedPacket}
    (hdue : ∀ pkt ∈ queue, pkt.nextAttemptMs ≤ clock) (limit : ℕ) :
    OfflinePacketBuffer.takeReady clock limit queue = (queue.take limit, queue.drop limit) := by
  induction queue generalizing limit with
  | nil => simp [OfflinePacketBuffer.takeReady]
  | cons pkt queue ih =>
      have hqueue := ih fun q hq => hdue q (List.mem_cons_of_mem _ hq)
      cases limit with
      | zero => simp [OfflinePacketBuffer.takeReady, hqueue 0]
      | succ limit =>
          rw [OfflinePacketBuffer.takeReady, if_pos ⟨Nat.succ_pos _, hdue pkt List.mem_cons_self⟩,
            Nat.add_sub_cancel, hqueue limit]
          rfl

/-- A flush goes through what it has in hand, if nothing fails. -/
theorem run_attempts {clock : ℤ} {call : ℕ} (rest : List BufferedPacket) {n : ℕ}
    (hcall : s.flushes[call]? = some ⟨rest, n⟩) :
    ∃ s', run bridgeStep s (List.replicate rest.length (.attempt call true clock)) = some s' ∧
      s'.buffer = s.buffer ∧ s'.flushes = s.flushes.set call ⟨[], n + rest.length⟩ ∧
      s'.delivered = s.delivered ++ rest.map (·.number) ∧ s'.evicted = s.evicted ∧
      s'.lost = s.lost ∧ s'.accepted = s.accepted := by
  induction rest generalizing s n with
  | nil =>
      refine ⟨s, rfl, rfl, ?_, (List.append_nil _).symm, rfl, rfl, rfl⟩
      obtain ⟨hlt, heq⟩ := List.getElem?_eq_some_iff.1 hcall
      rw [List.length_nil, Nat.add_zero, ← heq, List.set_getElem_self]
  | cons pkt rest ih =>
      have hnext : (s.attemptOne call pkt rest n true clock).flushes[call]? =
          some ⟨rest, n + 1⟩ := by
        obtain ⟨hlt, -⟩ := List.getElem?_eq_some_iff.1 hcall
        exact List.getElem?_set_self hlt
      obtain ⟨s', hrun, hbuffer, hflushes, hdelivered, hevicted, hlost, haccepted⟩ := ih hnext
      refine ⟨s', ?_, hbuffer, ?_, ?_, hevicted, hlost, haccepted⟩
      · refine run_cons.2 ⟨s.attemptOne call pkt rest n true clock, ?_, hrun⟩
        simp only [bridgeStep, hcall]
      · rw [hflushes]
        show (s.flushes.set call _).set call _ = _
        rw [List.set_set, List.length_cons, Nat.add_assoc, Nat.add_comm 1]
      · rw [hdelivered]
        show s.delivered ++ [pkt.number] ++ _ = _
        rw [List.append_assoc]
        rfl

/-- **Flushes that do not fail deliver what waits, in the order of the queue**, if all of it is due;
each of them delivers fifty packets. -/
theorem drain_empties {clock : ℤ} (rounds : ℕ)
    (hdue : ∀ pkt ∈ s.buffer.queue, pkt.nextAttemptMs ≤ clock)
    (hrounds : s.buffer.queue.length ≤ 50 * rounds) :
    ∃ s', run bridgeStep s (drain clock rounds s.flushes.length s.buffer.queue.length) = some s' ∧
      s'.buffer.queue = [] ∧ s'.delivered = s.delivered ++ s.buffer.queue.map (·.number) ∧
      s'.evicted = s.evicted ∧ s'.lost = s.lost ∧ s'.accepted = s.accepted ∧
      s'.flushes.length = s.flushes.length + rounds := by
  induction rounds generalizing s with
  | zero =>
      have hnil : s.buffer.queue = [] := List.length_eq_zero_iff.1 (Nat.le_zero.1 hrounds)
      exact ⟨s, rfl, hnil, by rw [hnil, List.map_nil, List.append_nil], rfl, rfl, rfl, rfl⟩
  | succ rounds ih =>
      set queue := s.buffer.queue with hqueue
      have htake := takeReady_of_due hdue 50
      -- the state after the flush has taken its packets
      set s₁ := s.beginFlush true clock with hs₁
      have hflushes : s₁.flushes = s.flushes ++ [⟨queue.take 50, 0⟩] := by
        rw [hs₁, BridgeState.beginFlush, if_pos rfl]
        simp only [OfflinePacketBuffer.popReady, Option.getD_none, if_true, ← hqueue, htake]
      have hbuffer : s₁.buffer.queue = queue.drop 50 := by
        rw [hs₁, BridgeState.beginFlush, if_pos rfl]
        simp only [OfflinePacketBuffer.popReady, Option.getD_none, if_true, ← hqueue, htake]
      have hcall : s₁.flushes[s.flushes.length]? = some ⟨queue.take 50, 0⟩ := by
        rw [hflushes, List.getElem?_concat_length]
      obtain ⟨s₂, hrun₂, hbuffer₂, hflushes₂, hdelivered₂, hevicted₂, hlost₂, haccepted₂⟩ :=
        run_attempts (queue.take 50) hcall
      have hqueue₂ : s₂.buffer.queue = queue.drop 50 := by rw [hbuffer₂, hbuffer]
      have hlength₂ : s₂.flushes.length = s.flushes.length + 1 := by
        rw [hflushes₂, hflushes, List.length_set, List.length_append, List.length_singleton]
      obtain ⟨s', hrun, hempty, hdelivered, hevicted, hlost, haccepted, hlength⟩ := ih (s := s₂)
        (fun pkt hpkt => hdue pkt (List.mem_of_mem_drop (hqueue₂ ▸ hpkt)))
        (by rw [hqueue₂, List.length_drop]; omega)
      refine ⟨s', ?_, hempty, ?_, hevicted.trans hevicted₂, hlost.trans hlost₂,
        haccepted.trans haccepted₂, by omega⟩
      · rw [hqueue₂, hlength₂, List.length_drop] at hrun
        rw [List.length_take] at hrun₂
        exact run_append.2 ⟨s₂, run_cons.2 ⟨s₁, rfl, hrun₂⟩, hrun⟩
      · have hdelivered₁ : s₁.delivered = s.delivered := rfl
        rw [hdelivered, hdelivered₂, hqueue₂, hdelivered₁, List.append_assoc, ← List.map_append,
          List.take_append_drop]

/-- Two packets wait. -/
def twoWaiting : BridgeState :=
  let message : Publication := ⟨[], [], 2, false, true, false, 0, 0⟩
  ((BridgeState.start 2 (by decide)).publishEnvelope message).publishEnvelope message

theorem drain_empties_twoWaiting :
    ∃ s', run bridgeStep twoWaiting (drain 1 1 0 2) = some s' ∧
      s'.buffer.queue = [] ∧ s'.delivered = [0, 1] := by
  obtain ⟨s', hrun, hempty, hdelivered, -⟩ :=
    drain_empties (s := twoWaiting) 1 (by decide : ∀ pkt ∈ twoWaiting.buffer.queue, _ ≤ (1 : ℤ))
      (by decide)
  exact ⟨s', hrun, hempty, hdelivered⟩

end Iot
