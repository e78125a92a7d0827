/-
**No message is lost or delivered twice** (`mesh/messageBus.ts`).

A message that is not delivered at once has one copy in the outbox.  A drain leaves it there, or
makes it ready or dead; and what is ready is delivered or goes back.  Its id is not among those that
were seen, because it was not delivered before, so nothing is taken for a duplicate.

Main definitions:

* `MeshBus.Conserved` — every message is delivered once, waits in one copy, or is dead;
* `MeshBus.BusInv` — the same as a rearrangement of the ids.

Main results:

* `MeshBus.messageIdOf_inj` — a message id has one number;
* `MeshBus.busInv_emitDirect`, `MeshBus.busInv_tick` — what sending and a tick keep;
* `MeshBus.messages_conserved` — **in every run every message is in exactly one place.**
-/
import Endendend.Foundation.JoinedKeys
import Endendend.MeshBus.MessageBus

set_option relaxedAutoImplicit false
set_option autoImplicit false

namespace MeshBus

open Js Runs

/-! ### Places -/

namespace MeshMessageBus

variable (bus : MeshMessageBus)

def sentIds : List Str := bus.sent.map (·.messageId)

def deliveredIds : List Str := bus.arrived.map (·.messageId)

def waitingIds : List Str := bus.outbox.q.map (·.payload.messageId)

def deadIds : List Str := bus.dead.map (·.payload.messageId)

/-- A message was delivered once, and is nowhere else. -/
def DeliveredOnce (id : Str) : Prop :=
  bus.deliveredIds.count id = 1 ∧ id ∉ bus.waitingIds ∧ id ∉ bus.deadIds

/-- A message waits in one copy, and is nowhere else. -/
def WaitsOnce (id : Str) : Prop :=
  bus.waitingIds.count id = 1 ∧ id ∉ bus.deliveredIds ∧ id ∉ bus.deadIds

/-- A message is dead after its retries, and is nowhere else. -/
def DeadOnce (id : Str) : Prop :=
  bus.deadIds.count id = 1 ∧ id ∉ bus.deliveredIds ∧ id ∉ bus.waitingIds

end MeshMessageBus

/-- Every message is in one place, the messages are told apart by their ids, and the counter counts
those that were delivered. -/
structure Conserved (bus : MeshMessageBus) : Prop where
  sent_nodup : bus.sentIds.Nodup
  place : ∀ id ∈ bus.sentIds, bus.DeliveredOnce id ∨ bus.WaitsOnce id ∨ bus.DeadOnce id
  only : ∀ id, id ∈ bus.deliveredIds ∨ id ∈ bus.waitingIds ∨ id ∈ bus.deadIds → id ∈ bus.sentIds
  delivered : bus.delivered = bus.deliveredIds.toFinset.card
  /-- A message is dead when it was dropped at its sixth attempt. -/
  retries : ∀ env ∈ bus.dead, env.attempts + 1 = 6

/-- The ids of the messages are those of the places in another order.  Within a tick some messages
have been taken out of the outbox and are ready. -/
structure BusInv (ready : List (RetryEnvelope MeshMessageEnvelope)) (s : BusState) : Prop where
  perm : (ready.map (·.payload.messageId) ++
    (s.bus.deliveredIds ++ (s.bus.waitingIds ++ s.bus.deadIds))).Perm s.bus.sentIds
  sent_nodup : s.bus.sentIds.Nodup
  numbered : ∀ id ∈ s.bus.sentIds, ∃ missionId n, n < s.serial ∧ id = messageIdOf missionId n
  seen : ∀ id ∈ s.bus.seenIds, id ∈ s.bus.deliveredIds
  ready_direct : ∀ env ∈ ready, env.payload.receiver ≠ lit "broadcast"
  direct : ∀ env ∈ s.bus.outbox.q, env.payload.receiver ≠ lit "broadcast"
  attempts : ∀ env ∈ s.bus.outbox.q, env.attempts < 6
  retries : ∀ env ∈ s.bus.dead, env.attempts + 1 = 6
  delivered : s.bus.delivered = s.bus.arrived.length
  recent : s.bus.recent = s.bus.arrived.take 24

/-- An element of a list without duplicates stands in one of the parts of a rearrangement. -/
theorem count_of_perm {xs ys zs sent : List Str} (hperm : (xs ++ (ys ++ zs)).Perm sent)
    (hnodup : sent.Nodup) {id : Str} (hid : id ∈ xs) :
    xs.count id = 1 ∧ id ∉ ys ∧ id ∉ zs := by
  have hall := (hperm.nodup_iff.2 hnodup)
  obtain ⟨hxs, hrest, hdisjoint⟩ := List.nodup_append.1 hall
  refine ⟨List.count_eq_one_of_mem hxs hid, fun hmem => ?_, fun hmem => ?_⟩
  · exact hdisjoint id hid id (List.mem_append_left _ hmem) rfl
  · exact hdisjoint id hid id (List.mem_append_right _ hmem) rfl

/-- **Every message is in exactly one place.** -/
theorem BusInv.conserved {s : BusState} (h : BusInv [] s) : Conserved s.bus := by
  have hplaces : (s.bus.deliveredIds ++ (s.bus.waitingIds ++ s.bus.deadIds)).Perm s.bus.sentIds :=
    h.perm
  refine ⟨h.sent_nodup, fun id hid => ?_, fun id hid => ?_, ?_, h.retries⟩
  · obtain hmem | hmem := List.mem_append.1 (hplaces.mem_iff.2 hid)
    · exact Or.inl (count_of_perm hplaces h.sent_nodup hmem)
    · obtain hmem | hmem := List.mem_append.1 hmem
      · have hperm : (s.bus.waitingIds ++ (s.bus.deliveredIds ++ s.bus.deadIds)).Perm
            s.bus.sentIds := (List.perm_append_comm_assoc _ _ _).trans hplaces
        exact Or.inr (Or.inl (count_of_perm hperm h.sent_nodup hmem))
      · have hperm : (s.bus.deadIds ++ (s.bus.deliveredIds ++ s.bus.waitingIds)).Perm
            s.bus.sentIds := by
          rw [← List.append_assoc] at hplaces
          exact List.perm_append_comm.trans hplaces
        exact Or.inr (Or.inr (count_of_perm hperm h.sent_nodup hmem))
  · refine hplaces.mem_iff.1 ?_
    rwa [List.mem_append, List.mem_append]
  · have hnodup : s.bus.deliveredIds.Nodup :=
      (List.nodup_append.1 (hplaces.nodup_iff.2 h.sent_nodup)).1
    rw [List.toFinset_card_of_nodup hnodup, h.delivered, MeshMessageBus.deliveredIds,
      List.length_map]

/-! ### Numbers -/

/-- **A message id has one number**, whatever the mission is called. -/
theorem messageIdOf_inj {missionId missionId' : Str} {m n : ℕ}
    (h : messageIdOf missionId m = messageIdOf missionId' n) : m = n := by
  have htail := (JoinedKeys.append_cons_inj_right (Decimal.minus_notMem_toStr m)
    (Decimal.minus_notMem_toStr n) h).2
  exact Int.ofNat.inj (Decimal.ofInt_injective (Decimal.toStr_injective htail))

/-! ### Sending -/

open MeshMessageBus

variable {s : BusState} {ready : List (RetryEnvelope MeshMessageEnvelope)}

theorem busInv_new (serial : ℕ) : BusInv [] (.new serial) := by
  refine ⟨List.Perm.refl _, List.nodup_nil, ?_, ?_, ?_, ?_, ?_, ?_, rfl, rfl⟩ <;>
  · intro x hx
    cases hx

/-- The counter only grows. -/
theorem BusInv.serial (h : BusInv ready s) {serial : ℕ} (hle : s.serial ≤ serial) :
    BusInv ready { s with serial } := by
  refine ⟨h.perm, h.sent_nodup, fun id hid => ?_, h.seen, h.ready_direct, h.direct, h.attempts,
    h.retries, h.delivered, h.recent⟩
  obtain ⟨missionId, n, hn, rfl⟩ := h.numbered id hid
  exact ⟨missionId, n, Nat.lt_of_lt_of_le hn hle, rfl⟩

/-- The number of a message is new. -/
theorem BusInv.fresh (h : BusInv ready s) (args : EmitArgs) :
    (envelopeOf s.serial args).messageId ∉ s.bus.sentIds := by
  intro hmem
  obtain ⟨missionId, n, hn, hid⟩ := h.numbered _ hmem
  have heq := messageIdOf_inj hid
  omega

/-- A message that is sent is ready at first. -/
theorem BusInv.send (h : BusInv [] s) {args : EmitArgs}
    (hdirect : args.receiver ≠ lit "broadcast") (deliverAtMs : ℚ) :
    BusInv [⟨deliverAtMs, 0, envelopeOf s.serial args⟩]
      ⟨s.serial + 1, { s.bus with sent := s.bus.sent ++ [envelopeOf s.serial args] }⟩ := by
  have hids : (s.bus.sent ++ [envelopeOf s.serial args]).map (·.messageId) =
      s.bus.sentIds ++ [(envelopeOf s.serial args).messageId] := List.map_append
  refine ⟨?_, ?_, fun id hid => ?_, h.seen, ?_, h.direct, h.attempts, h.retries, h.delivered,
    h.recent⟩
  · rw [sentIds, hids]
    exact (h.perm.cons _).trans (List.perm_append_singleton _ _).symm
  · rw [sentIds, hids]
    refine List.nodup_append.2 ⟨h.sent_nodup, List.nodup_singleton _, fun id hid id' hid' => ?_⟩
    rw [List.mem_singleton.1 hid']
    exact fun heq => h.fresh args (heq ▸ hid)
  · rw [sentIds, hids] at hid
    obtain hid | hid := List.mem_append.1 hid
    · obtain ⟨missionId, n, hn, rfl⟩ := h.numbered id hid
      exact ⟨missionId, n, Nat.lt_succ_of_lt hn, rfl⟩
    · rw [List.mem_singleton.1 hid]
      exact ⟨args.missionId, s.serial, Nat.lt_succ_self _, rfl⟩
  · intro env henv
    rw [List.mem_singleton.1 henv]
    exact hdirect

/-! ### From ready to its place -/

/-- What holds of the items of an outbox holds after a new one is put in. -/
theorem forall_enqueue {P : RetryEnvelope MeshMessageEnvelope → Prop}
    {rq : RetryQueue MeshMessageEnvelope} (h : ∀ env ∈ rq.q, P env) {deliverAtMs : ℚ}
    {payload : MeshMessageEnvelope} (hnew : P ⟨deliverAtMs, 0, payload⟩) :
    ∀ env ∈ (rq.enqueue deliverAtMs payload 0).q, P env := by
  intro env henv
  obtain henv | henv := List.mem_append.1 henv
  · exact h env henv
  · exact List.mem_singleton.1 henv ▸ hnew

variable {env : RetryEnvelope MeshMessageEnvelope}

/-- A message that is ready waits again.  Only its retries may be counted meanwhile. -/
theorem BusInv.wait (h : BusInv (env :: ready) s) (deliverAtMs : ℚ) (retryCount : ℕ)
    (buffered dropped : ℕ) :
    BusInv ready ⟨s.serial, { s.bus with
      outbox := s.bus.outbox.enqueue deliverAtMs { env.payload with retryCount } 0
      buffered := buffered
      dropped := dropped }⟩ := by
  have hids : (s.bus.outbox.enqueue deliverAtMs { env.payload with retryCount } 0).q.map
      (·.payload.messageId) = s.bus.waitingIds ++ [env.payload.messageId] := by
    rw [RetryQueue.enqueue, List.map_append]
    rfl
  have hzero : (0 : ℕ) < 6 := by decide
  refine ⟨?_, h.sent_nodup, h.numbered, h.seen,
    fun e he => h.ready_direct e (List.mem_cons_of_mem _ he),
    forall_enqueue h.direct (h.ready_direct env List.mem_cons_self),
    forall_enqueue h.attempts hzero, h.retries, h.delivered, h.recent⟩
  -- the message moves within the list of places, so the ids are counted
  refine List.Perm.trans (List.perm_iff_count.2 fun id => ?_) h.perm
  rw [waitingIds, hids]
  simp only [deliveredIds, deadIds, List.count_append, List.map_cons, List.count_cons,
    List.count_nil]
  omega

/-- A message that is ready is delivered. -/
theorem BusInv.deliver (h : BusInv (env :: ready) s) {seenIds : List Str}
    (hseen : ∀ id ∈ seenIds, id ∈ s.bus.seenIds ∨ id = env.payload.messageId)
    (path : Option (List Str)) :
    BusInv ready ⟨s.serial, pushRecent { s.bus with seenIds, delivered := s.bus.delivered + 1 }
      (markEnvelope env.payload .delivered path)⟩ := by
  refine ⟨?_, h.sent_nodup, h.numbered, fun id hid => ?_,
    fun e he => h.ready_direct e (List.mem_cons_of_mem _ he), h.direct, h.attempts, h.retries,
    congrArg (· + 1) h.delivered, ?_⟩
  · exact List.perm_middle.trans h.perm
  · obtain hid | rfl := hseen id hid
    · exact List.mem_cons_of_mem _ (h.seen id hid)
    · exact List.mem_cons_self
  · show (_ :: s.bus.recent).take 24 = (_ :: s.bus.arrived).take 24
    rw [h.recent, List.take_succ_cons, List.take_succ_cons, List.take_take]
    rfl

/-- **Nothing is taken for a duplicate**: a message that is ready was not delivered before. -/
theorem BusInv.notMem_seenIds (h : BusInv (env :: ready) s) :
    env.payload.messageId ∉ s.bus.seenIds := by
  intro hmem
  -- ready and delivered ids are parts of one list without repetitions
  have hnodup := List.nodup_cons.1 (h.perm.nodup_iff.2 h.sent_nodup)
  exact hnodup.1 (List.mem_append_right _ (List.mem_append_left _ (h.seen _ hmem)))

theorem busInv_deliverReady (h : BusInv (env :: ready) s) (args : TickArgs) :
    BusInv ready ⟨s.serial, deliverReady args s.bus env⟩ := by
  have hnew : ¬ s.bus.seenIds.contains env.payload.messageId = true := by
    simpa using h.notMem_seenIds
  rw [deliverReady, if_neg (h.ready_direct env List.mem_cons_self), if_neg hnew]
  split_ifs
  · exact h.wait _ env.payload.retryCount _ _
  · exact h.deliver (fun id hid => mem_setAdd.1 hid) _

/-! ### Steps -/

/-- **Sending keeps every message in its place.** -/
theorem busInv_emitDirect (h : BusInv [] s) {args : EmitArgs}
    (hdirect : args.receiver ≠ lit "broadcast") :
    BusInv [] ⟨s.serial + 1, s.bus.emitDirect s.serial args⟩ := by
  have hsend := h.send hdirect 0
  rw [MeshMessageBus.emitDirect]
  dsimp only
  split_ifs
  · exact hsend.wait _ (envelopeOf s.serial args).retryCount _ _
  · exact hsend.wait _ ((envelopeOf s.serial args).retryCount + 1) _ _
  · exact hsend.deliver (fun id hid => Or.inl hid) _

/-- What a drain takes out of the outbox is ready. -/
theorem busInv_drain (h : BusInv [] s) (args : TickArgs) :
    let drained := (s.bus.outbox.drain args.nowMs (drainPolicy args) args.rng).2
    BusInv drained.ready ⟨s.serial, { s.bus with
      outbox := ⟨drained.next⟩
      dropped := s.bus.dropped + drained.dead.length
      dead := s.bus.dead ++ drained.dead }⟩ := by
  intro drained
  have hperm : (RetryQueue.payloads drained).Perm (s.bus.outbox.q.map (·.payload)) :=
    RetryQueue.perm_drain s.bus.outbox
  have hattempts : RetryQueue.Attempts (drainPolicy args).maxAttempts drained :=
    RetryQueue.attempts_drain h.attempts
  have hdirect : ∀ e ∈ RetryQueue.payloads drained, e.receiver ≠ lit "broadcast" := by
    intro e he
    obtain ⟨env, henv, rfl⟩ := List.mem_map.1 (hperm.mem_iff.1 he)
    exact h.direct env henv
  refine ⟨?_, h.sent_nodup, h.numbered, h.seen, fun env henv => hdirect _ ?_,
    fun env henv => hdirect _ ?_, hattempts.next, fun env henv => ?_, h.delivered, h.recent⟩
  · -- a drain moves payloads between the places and drops none
    refine List.Perm.trans (List.perm_iff_count.2 fun id => ?_) h.perm
    have hcount := (hperm.map MeshMessageEnvelope.messageId).count_eq id
    simp only [RetryQueue.payloads, List.map_append, List.map_map, List.count_append] at hcount
    simp only [deliveredIds, waitingIds, deadIds, List.map_append, List.count_append,
      List.map_nil, List.count_nil]
    simp only [Function.comp_def] at hcount
    omega
  · exact List.mem_append_left _ (List.mem_map_of_mem henv)
  · exact List.mem_append_right _ (List.mem_append_left _ (List.mem_map_of_mem henv))
  · obtain henv | henv := List.mem_append.1 henv
    · exact h.retries env henv
    · exact hattempts.dead env henv

/-- **A tick keeps every message in its place.** -/
theorem busInv_tick (h : BusInv [] s) (args : TickArgs) :
    BusInv [] ⟨s.serial, s.bus.tick args⟩ := by
  have hfold : ∀ (ready : List (RetryEnvelope MeshMessageEnvelope)) (bus : MeshMessageBus),
      BusInv ready ⟨s.serial, bus⟩ →
        BusInv [] ⟨s.serial, ready.foldl (deliverReady args) bus⟩ := by
    intro ready
    induction ready with
    | nil => exact fun bus hbus => hbus
    | cons env ready ih => exact fun bus hbus => ih _ (busInv_deliverReady hbus args)
  exact hfold _ _ (busInv_drain h args)

/-- Messages are sent to one receiver each. -/
def Direct : BusMove → Prop
  | .emitDirect args => args.receiver ≠ lit "broadcast"
  | _ => True

theorem busInv_step {s' : BusState} {mv : BusMove} (h : BusInv [] s) (hmv : Direct mv)
    (hstep : busStep s mv = some s') : BusInv [] s' := by
  cases mv with
  | emitDirect args =>
      obtain rfl := Option.some.inj hstep
      exact busInv_emitDirect h hmv
  | tick args =>
      obtain rfl := Option.some.inj hstep
      exact busInv_tick h args
  | noteReroute =>
      obtain rfl := Option.some.inj hstep
      exact ⟨h.perm, h.sent_nodup, h.numbered, h.seen, h.ready_direct, h.direct, h.attempts,
        h.retries, h.delivered, h.recent⟩
  | elsewhere =>
      obtain rfl := Option.some.inj hstep
      exact h.serial (Nat.le_succ _)

/-- **No message is lost or delivered twice**: whatever the losses, the links and the draws, every
message that was sent is delivered once, waits in one copy or is dead after its retries, and the
counter counts those that were delivered. -/
theorem messages_conserved {mvs : List BusMove} {serial : ℕ} {s : BusState}
    (hmvs : ∀ mv ∈ mvs, Direct mv) (h : run busStep (.new serial) mvs = some s) :
    Conserved s.bus :=
  (invariant_along (P := fun _ mv => Direct mv) (fun _ _ _ h hmv hstep => busInv_step h hmv hstep)
    (busInv_new serial) (along_of_forall hmvs _) h).conserved

/-- A message to a peer that cannot be reached, one that is dropped and one that arrives, and then a
tick at which all peers can be reached. -/
def threeMessages : List BusMove :=
  [.emitDirect ⟨lit "o", lit "z", lit "m", 100, 1, lit "ping", none, 0, fun _ _ => false,
      fun _ => 1 / 10⟩,
    .emitDirect ⟨lit "o", lit "y", lit "m", 100, 2, lit "ping", some .null, 1 / 2, fun _ _ => true,
      fun _ => 1 / 10⟩,
    .emitDirect ⟨lit "o", lit "x", lit "m", 100, 3, lit "ping", none, 0, fun _ _ => true,
      fun _ => 1 / 10⟩,
    .tick ⟨700, 0, fun _ _ => true, fun _ => 1 / 10⟩]

theorem messages_conserved_threeMessages :
    ∃ s, run busStep (.new 1) threeMessages = some s ∧ Conserved s.bus ∧ s.bus.delivered = 3 := by
  obtain ⟨s, hs⟩ : ∃ s, run busStep (.new 1) threeMessages = some s :=
    Option.isSome_iff_exists.1 (by decide +kernel)
  have hdelivered : ∀ s ∈ run busStep (.new 1) threeMessages, s.bus.delivered = 3 := by
    decide +kernel
  refine ⟨s, hs, messages_conserved (fun mv hmv => ?_) hs, hdelivered s hs⟩
  obtain rfl | rfl | rfl | rfl : mv = _ ∨ mv = _ ∨ mv = _ ∨ mv = _ := by
    simpa [threeMessages] using hmv
  all_goals first | exact trivial | exact fun heq => absurd heq (by decide)

end MeshBus
