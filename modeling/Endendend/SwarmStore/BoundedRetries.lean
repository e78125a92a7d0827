/-
**How often an envelope is sent** (`_outbox_loop` and `_retry_loop` of
`swarm/foxmq_integration.py`).

The record of an envelope counts its retries, and the retry thread sends an envelope only while the
count is below the limit.  The outbox thread counts its failures in the same record, but it then
puts the envelope back in the queue, and makes a new record, which begins to count at zero, when it
takes it from there.  As long as it makes one record of every envelope, each one is sent as often as
the limit allows.  The outbox thread does not look into the table again before it hands an envelope
over, so an envelope that the retry thread sent meanwhile, and that was acknowledged, is sent once
more.

Main definitions:

* `SwarmStore.ClientState.owed` — what was sent, and what the outbox thread is about to send;
* `SwarmStore.FirstRecord`, `SwarmStore.StillPending` — the outbox thread makes no second record,
  and hands over what is still in the table;
* `SwarmStore.SentWithin`, `SwarmStore.NotSettled` — the two parts of what the loops promise;
* `SwarmStore.Counted` — the invariant.

Main results:

* `SwarmStore.Counted.step` — the steps that make no second record keep the invariant;
* `SwarmStore.retries_bounded_iff` — **among the runs without a second record, those keep to the
  limit and send nothing that is settled in which the outbox thread hands over what is still in the
  table**;
* `SwarmStore.firstRecord_of_no_failures` — no second record is made in a run without failures of
  the outbox thread;
* `SwarmStore.seven_sends` — an envelope whose publishes all fail.
-/
import Endendend.SwarmStore.PublishLoops

set_option relaxedAutoImplicit false
set_option autoImplicit false

namespace SwarmStore

open Js (Str KeyedMap)
open Runs (run Along)

variable {Id : Type*} [DecidableEq Id]

/-! ### What the loops promise -/

/-- How often an envelope was handed to `_publish_raw`. -/
def ClientState.sends (s : ClientState Id) (id : Id) : ℕ :=
  (s.sent.map Outgoing.messageId).count id

/-- Every envelope was sent once, and once more for every retry that the limit allows, at most. -/
def SentWithin (config : PublishConfig) (s : ClientState Id) : Prop :=
  ∀ id, (s.sends id : ℤ) ≤ config.publishRetryLimit + 1

/-- The step sends nothing that was acknowledged or dropped. -/
def NotSettled (config : PublishConfig) (s : ClientState Id) (l : PublishLabel Id) : Prop :=
  ∀ item ∈ handedOver config s l, item.messageId ∉ s.settled

/-- The outbox thread does not make a record of an envelope that it has put back in the queue. -/
def FirstRecord (s : ClientState Id) (l : PublishLabel Id) : Prop :=
  ∀ item ∈ recordMade s l, item.messageId ∉ s.recorded

/-- The envelope that the outbox thread hands over is still in the table, and the retry thread is
not about to take it out. -/
def StillPending (s : ClientState Id) (l : PublishLabel Id) : Prop :=
  ∀ item ∈ handedByOutbox s l,
    (s.pending.get? item.messageId).isSome ∧ item.messageId ∉ s.expired

section Decidable

variable (config : PublishConfig) (s : ClientState Id) (l : PublishLabel Id)

instance : Decidable (NotSettled config s l) :=
  inferInstanceAs (Decidable (∀ item ∈ handedOver config s l, item.messageId ∉ s.settled))

instance : Decidable (FirstRecord s l) :=
  inferInstanceAs (Decidable (∀ item ∈ recordMade s l, item.messageId ∉ s.recorded))

instance : Decidable (StillPending s l) :=
  inferInstanceAs (Decidable (∀ item ∈ handedByOutbox s l,
    (s.pending.get? item.messageId).isSome ∧ item.messageId ∉ s.expired))

end Decidable

/-! ### The invariant -/

/-- What was sent, and what the outbox thread is about to send. -/
def ClientState.owed (s : ClientState Id) (id : Id) : ℕ :=
  ((s.sent ++ s.outbox.waiting).map Outgoing.messageId).count id

/-- What the table says about the envelopes.  An envelope that the outbox thread is about to hand
over counts as sent already. -/
structure Counted (config : PublishConfig) (s : ClientState Id) : Prop where
  unseen : ∀ id, id ∉ s.recorded → s.owed id = 0 ∧ s.pending.get? id = none ∧ id ∉ s.settled
  within : ∀ id, (s.owed id : ℤ) ≤ config.publishRetryLimit + 1
  counted : ∀ id r, s.pending.get? id = some r → s.owed id ≤ r.retryCount + 1
  gone : ∀ id, id ∈ s.recorded → s.pending.get? id = none → id ∈ s.settled
  expired : ∀ id, id ∈ s.expired → id ∈ s.settled
  live : ∀ id, (s.pending.get? id).isSome → id ∉ s.expired → id ∉ s.settled

variable {config : PublishConfig} {s s' : ClientState Id} {l : PublishLabel Id}

theorem counted_start (hlimit : 0 ≤ config.publishRetryLimit) :
    Counted config (ClientState.start : ClientState Id) where
  unseen _ _ := ⟨rfl, rfl, List.not_mem_nil⟩
  within _ := by
    change ((0 : ℕ) : ℤ) ≤ _
    omega
  counted _ _ h := by cases h
  gone _ h := absurd h List.not_mem_nil
  expired _ h := absurd h List.not_mem_nil
  live _ h := by cases h

/-- What was sent is at most what is owed. -/
theorem ClientState.sends_le_owed (s : ClientState Id) (id : Id) : s.sends id ≤ s.owed id := by
  rw [sends, owed, List.map_append, List.count_append]
  exact Nat.le_add_right _ _

theorem Counted.sentWithin (h : Counted config s) : SentWithin config s := by
  intro id
  have hle := s.sends_le_owed id
  have hwithin := h.within id
  omega

/-- An envelope that is about to be handed over has had its record made. -/
theorem Counted.recorded_of_waiting (h : Counted config s) {item : Outgoing Id}
    (hitem : item ∈ s.outbox.waiting) : item.messageId ∈ s.recorded := by
  by_contra hnew
  have hzero := (h.unseen item.messageId hnew).1
  rw [ClientState.owed, List.count_eq_zero] at hzero
  exact hzero (List.mem_map_of_mem (List.mem_append_right _ hitem))

/-- An envelope that had its record made is settled unless it is still in the table and stays
there. -/
theorem Counted.settled_iff (h : Counted config s) {id : Id} (hid : id ∈ s.recorded) :
    id ∉ s.settled ↔ (s.pending.get? id).isSome ∧ id ∉ s.expired := by
  constructor
  · intro hlive
    refine ⟨?_, fun hexp => hlive (h.expired id hexp)⟩
    rw [Option.isSome_iff_ne_none]
    exact fun hnone => hlive (h.gone id hid hnone)
  · exact fun hlive => h.live id hlive.1 hlive.2

/-! ### What the steps do to the invariant -/

/-- A step that sends nothing, makes no record and takes none away.  It may count a failure. -/
structure Quiet (s s' : ClientState Id) : Prop where
  owed : s'.sent ++ s'.outbox.waiting = s.sent ++ s.outbox.waiting
  recorded : s'.recorded = s.recorded
  expired : s'.expired = s.expired
  settled : s'.settled = s.settled
  none_iff : ∀ id, s'.pending.get? id = none ↔ s.pending.get? id = none
  retryCount_le : ∀ id r', s'.pending.get? id = some r' →
    ∃ r, s.pending.get? id = some r ∧ r.retryCount ≤ r'.retryCount

theorem Counted.quiet (h : Counted config s) (hq : Quiet s s') : Counted config s' := by
  have howed : ∀ id, s'.owed id = s.owed id := by
    intro id
    rw [ClientState.owed, hq.owed, ClientState.owed]
  constructor
  · intro id hid
    rw [howed, hq.none_iff, hq.settled]
    exact h.unseen id (hq.recorded ▸ hid)
  · intro id
    rw [howed]
    exact h.within id
  · intro id r' hr'
    obtain ⟨r, hr, hle⟩ := hq.retryCount_le id r' hr'
    have hcounted := h.counted id r hr
    rw [howed]
    omega
  · intro id hid hnone
    rw [hq.settled]
    exact h.gone id (hq.recorded ▸ hid) ((hq.none_iff id).1 hnone)
  · intro id hid
    rw [hq.settled]
    exact h.expired id (hq.expired ▸ hid)
  · intro id hsome hexp
    rw [hq.settled]
    refine h.live id ?_ (hq.expired ▸ hexp)
    rw [Option.isSome_iff_ne_none] at hsome ⊢
    exact fun hnone => hsome ((hq.none_iff id).2 hnone)

/-- A step that leaves the table alone. -/
theorem Quiet.of_pending (howed : s'.sent ++ s'.outbox.waiting = s.sent ++ s.outbox.waiting)
    (hrecorded : s'.recorded = s.recorded) (hexpired : s'.expired = s.expired)
    (hsettled : s'.settled = s.settled) (hpending : s'.pending = s.pending) : Quiet s s' where
  owed := howed
  recorded := hrecorded
  expired := hexpired
  settled := hsettled
  none_iff _ := by rw [hpending]
  retryCount_le _ r' hr' := ⟨r', hpending ▸ hr', le_rfl⟩

/-- A step of the outbox thread that changes one record and does not count down. -/
theorem Quiet.amend (s : ClientState Id) {thread : OutboxThread Id} (id : Id)
    {f : PendingPublish Id → PendingPublish Id} (hf : ∀ r, (f r).messageId = r.messageId)
    (hthread : thread.waiting = s.outbox.waiting) (hle : ∀ r, r.retryCount ≤ (f r).retryCount) :
    Quiet s { s with outbox := thread, pending := s.amend id f hf } where
  owed := by rw [hthread]
  recorded := rfl
  expired := rfl
  settled := rfl
  none_iff k := by rw [s.get?_amend, Option.map_eq_none_iff]
  retryCount_le k r' hr' := by
    rw [s.get?_amend] at hr'
    obtain ⟨r, hr, rfl⟩ := Option.map_eq_some_iff.1 hr'
    refine ⟨r, hr, ?_⟩
    split
    · exact hle r
    · exact le_rfl

/-- An envelope that is acknowledged. -/
theorem Counted.settle (h : Counted config s) {id : Id} (hid : (s.pending.get? id).isSome) :
    Counted config (s.settle id) := by
  have hseen : id ∈ s.recorded := by
    by_contra hnew
    rw [(h.unseen id hnew).2.1] at hid
    cases hid
  constructor
  · intro k hk
    obtain ⟨howed, hnone, hsettled⟩ := h.unseen k hk
    have hne : k ≠ id := fun heq => hk (heq ▸ hseen)
    refine ⟨howed, ?_, ?_⟩
    · rw [ClientState.settle, KeyedMap.get?_erase, if_neg hne, hnone]
    · simp [ClientState.settle, hsettled, hne]
  · exact h.within
  · intro k r hr
    rw [ClientState.settle, KeyedMap.get?_erase] at hr
    split at hr
    · cases hr
    · exact h.counted k r hr
  · intro k hk hnone
    rw [ClientState.settle, KeyedMap.get?_erase] at hnone
    rw [ClientState.settle, List.mem_append, List.mem_singleton]
    split at hnone
    · exact Or.inr ‹_›
    · exact Or.inl (h.gone k hk hnone)
  · intro k hk
    exact List.mem_append_left _ (h.expired k hk)
  · intro k hsome hexp
    rw [ClientState.settle, KeyedMap.get?_erase] at hsome
    rw [ClientState.settle, List.mem_append, List.mem_singleton]
    split at hsome
    · cases hsome
    · next hne => exact not_or.2 ⟨h.live k hsome hexp, hne⟩

/-- The first record of an envelope.  From now on it counts as sent. -/
theorem Counted.withRecord (h : Counted config s) (hlimit : 0 ≤ config.publishRetryLimit)
    {item : Outgoing Id} (hout : s.outbox = .taken item) (hitem : item.messageId ∉ s.recorded)
    (now : ℚ) : Counted config (s.withRecord config now item) := by
  obtain ⟨hzero, -, hsettled⟩ := h.unseen item.messageId hitem
  have howed : ∀ id, (s.withRecord config now item).owed id =
      s.owed id + if id = item.messageId then 1 else 0 := by
    intro id
    rw [ClientState.owed, ClientState.owed, hout, ClientState.withRecord, OutboxThread.waiting,
      OutboxThread.waiting, List.append_nil, List.map_append, List.count_append,
      List.map_singleton, List.count_singleton]
    · simp only [beq_iff_eq, @eq_comm _ id]
    · intro _ heq
      cases heq
  have hget : ∀ id, (s.withRecord config now item).pending.get? id =
      if id = item.messageId then _ else s.pending.get? id := fun id => s.pending.get?_put _ id
  constructor
  · intro id hnew
    obtain ⟨hold, hne⟩ := not_or.1 (mt List.mem_append.2 hnew)
    rw [List.mem_singleton] at hne
    obtain ⟨ho, hp, hs⟩ := h.unseen id hold
    refine ⟨?_, ?_, hs⟩
    · rw [howed, ho, if_neg hne]
    · rw [hget, if_neg hne, hp]
  · intro id
    have hwithin := h.within id
    rw [howed]
    split
    · next heq =>
        rw [heq, hzero]
        push_cast
        omega
    · exact hwithin
  · intro id r hr
    rw [hget] at hr
    rw [howed]
    split at hr
    · next heq =>
        obtain rfl := Option.some.inj hr
        rw [if_pos heq, heq, hzero]
    · next hne =>
        rw [if_neg hne]
        exact h.counted id r hr
  · intro id hmem hgone
    rw [hget] at hgone
    split at hgone
    · cases hgone
    · next hne =>
        have hold := (List.mem_append.1 hmem).resolve_right fun hlast =>
          hne (List.mem_singleton.1 hlast)
        exact h.gone id hold hgone
  · exact h.expired
  · intro id hsome hexp
    rw [hget] at hsome
    split at hsome
    · next heq => exact heq ▸ hsettled
    · exact h.live id hsome hexp

/-- The retry thread takes out what has expired, which is settled. -/
theorem Counted.purged (h : Counted config s) : Counted config s.purged := by
  have hget : ∀ id, s.purged.pending.get? id =
      if id ∈ s.expired then none else s.pending.get? id :=
    fun id => s.pending.get?_foldl_erase s.expired id
  constructor
  · intro id hid
    obtain ⟨howed, hnone, hsettled⟩ := h.unseen id hid
    refine ⟨howed, ?_, hsettled⟩
    rw [hget, hnone, ite_self]
  · exact h.within
  · intro id r hr
    rw [hget] at hr
    split at hr
    · cases hr
    · exact h.counted id r hr
  · intro id hid hnone
    rw [hget] at hnone
    split at hnone
    · exact h.expired id ‹_›
    · exact h.gone id hid hnone
  · intro id hid
    exact absurd hid List.not_mem_nil
  · intro id hsome _
    rw [hget] at hsome
    split at hsome
    · cases hsome
    · exact h.live id hsome ‹_›

/-- A pass sends every envelope whose retries it counts, and settles what has expired. -/
theorem Counted.passed (h : Counted config s) (hnone : s.expired = []) (readings : Id → Reading) :
    Counted config (s.passed config readings) := by
  have hget : ∀ id, (s.passed config readings).pending.get? id =
      (s.pending.get? id).map (passRecord config readings) :=
    fun id => get?_retryPass config readings s.pending id
  have howed : ∀ id, (s.passed config readings).owed id = s.owed id +
      if (s.pending.get? id).map (passVerdict config readings) = some .send then 1 else 0 := by
    intro id
    rw [← count_map_passOn, ClientState.owed, ClientState.owed, ClientState.passed,
      List.append_assoc, List.map_append, List.map_append, List.count_append, List.count_append,
      List.map_append, List.count_append, List.map_map, ← Nat.add_assoc]
    exact Nat.add_right_comm _ _ _
  constructor
  · intro id hid
    obtain ⟨ho, hp, hs⟩ := h.unseen id hid
    refine ⟨?_, ?_, ?_⟩
    · rw [howed, ho, hp]
      rfl
    · rw [hget, hp]
      rfl
    · refine mt List.mem_append.1 (not_or.2 ⟨hs, ?_⟩)
      rw [mem_map_passOn, hp]
      intro heq
      cases heq
  · intro id
    have hwithin := h.within id
    rw [howed]
    split
    · next hsend =>
        -- below the limit, one more send is within it
        obtain ⟨r, hr, hv⟩ := Option.map_eq_some_iff.1 hsend
        have hcounted := h.counted id r hr
        have hlt := lt_limit_of_send hv
        push_cast
        omega
    · exact hwithin
  · intro id r' hr'
    rw [hget] at hr'
    obtain ⟨r, hr, rfl⟩ := Option.map_eq_some_iff.1 hr'
    have hcounted := h.counted id r hr
    rw [howed, retryCount_passRecord, hr]
    simp only [Option.map_some, Option.some.injEq]
    omega
  · intro id hid hgone
    rw [hget, Option.map_eq_none_iff] at hgone
    exact List.mem_append_left _ (h.gone id hid hgone)
  · intro id hid
    exact List.mem_append_right _ hid
  · intro id hsome hexp
    rw [hget, Option.isSome_map] at hsome
    refine mt List.mem_append.1 (not_or.2 ⟨h.live id hsome ?_, hexp⟩)
    rw [hnone]
    exact List.not_mem_nil

/-- **The steps that make no second record keep the invariant.** -/
theorem Counted.step (hlimit : 0 ≤ config.publishRetryLimit) (h : Counted config s)
    (hfirst : FirstRecord s l) (hstep : publishStep config s l = some s') : Counted config s' := by
  cases l with
  | enqueue item =>
      simp only [publishStep, ClientState.enqueue] at hstep
      split at hstep <;> cases hstep
      exact h.quiet (.of_pending rfl rfl rfl rfl rfl)
  | take =>
      simp only [publishStep, ClientState.take] at hstep
      split at hstep <;> cases hstep
      refine h.quiet (.of_pending ?_ rfl rfl rfl rfl)
      simp [OutboxThread.waiting, *]
  | record now =>
      simp only [publishStep, ClientState.record] at hstep
      split at hstep <;> cases hstep
      next item hout =>
        refine h.withRecord hlimit hout (hfirst item ?_) now
        simp [recordMade, hout, OutboxThread.held]
  | hand =>
      simp only [publishStep, ClientState.hand] at hstep
      split at hstep <;> cases hstep
      refine h.quiet (.of_pending ?_ rfl rfl rfl rfl)
      simp [OutboxThread.waiting, *]
  | returns mid =>
      simp only [publishStep, ClientState.returns] at hstep
      split at hstep <;> cases hstep
      refine h.quiet (.amend s _ _ ?_ fun _ => le_rfl)
      simp [OutboxThread.waiting, *]
  | fails now =>
      simp only [publishStep, ClientState.fails] at hstep
      split at hstep <;> cases hstep
      refine h.quiet (.amend s _ _ ?_ fun r => Nat.le_succ r.retryCount)
      simp [OutboxThread.waiting, *]
  | requeue =>
      simp only [publishStep, ClientState.requeue] at hstep
      split at hstep
      · split at hstep <;> cases hstep
        refine h.quiet (.of_pending ?_ rfl rfl rfl rfl)
        simp [OutboxThread.waiting, *]
      · cases hstep
  | pass readings =>
      simp only [publishStep, ClientState.pass] at hstep
      split at hstep <;> cases hstep
      exact h.passed ‹_› readings
  | purge =>
      simp only [publishStep, ClientState.purge] at hstep
      split at hstep <;> cases hstep
      exact h.purged
  | ackFor id =>
      obtain rfl := Option.some.inj hstep
      unfold ClientState.handleAck
      split
      · exact h.settle ‹_›
      · exact h
  | published mid =>
      obtain rfl := Option.some.inj hstep
      unfold ClientState.onPublish
      split
      · next r hr =>
          have hin := KeyedMap.mem_values_iff.1 (List.mem_of_find?_eq_some hr)
          exact h.settle (Option.isSome_of_eq_some hin)
      · exact h

/-! ### What holds of a run -/

/-- A step sends nothing that is settled exactly if the outbox thread hands over what is still in
the table. -/
theorem Counted.notSettled_iff (h : Counted config s) (l : PublishLabel Id) :
    NotSettled config s l ↔ StillPending s l := by
  cases l with
  | hand =>
      refine forall₂_congr fun item hitem => ?_
      exact h.settled_iff (h.recorded_of_waiting hitem)
  | pass readings =>
      refine iff_of_true ?_ fun _ hitem => absurd hitem List.not_mem_nil
      intro item hitem
      rw [handedOver] at hitem
      split at hitem
      · next hnone =>
          obtain ⟨r, hr, rfl⟩ := List.mem_map.1 hitem
          obtain ⟨hin, -⟩ := (mem_passOn config readings).1 hr
          refine h.live _ (Option.isSome_of_eq_some hin) ?_
          rw [hnone]
          exact List.not_mem_nil
      · exact absurd hitem List.not_mem_nil
  | _ =>
      refine iff_of_true ?_ ?_
      · exact fun _ hitem => absurd hitem List.not_mem_nil
      · exact fun _ hitem => absurd hitem List.not_mem_nil

/-- In a run without a second record, every envelope is sent as often as the limit allows, at
most. -/
theorem sentWithin_of_firstRecord (hlimit : 0 ≤ config.publishRetryLimit)
    {ls : List (PublishLabel Id)} (hfirst : Along (publishStep config) FirstRecord .start ls)
    (h : run (publishStep config) .start ls = some s) : SentWithin config s :=
  (Runs.invariant_along (fun _ _ _ hs hl hstep => hs.step hlimit hl hstep)
    (counted_start hlimit) hfirst h).sentWithin

/-- **Among the runs in which the outbox thread makes no second record of an envelope, those keep
to the limit and send nothing that is settled in which it hands over what is still in the table.**
-/
theorem retries_bounded_iff (config : PublishConfig) (ls : List (PublishLabel Id))
    (hlimit : 0 ≤ config.publishRetryLimit)
    (hfirst : Along (publishStep config) FirstRecord ClientState.start ls) :
    ((∀ p t, p <+: ls → run (publishStep config) ClientState.start p = some t →
        SentWithin config t) ∧
      Along (publishStep config) (NotSettled config) ClientState.start ls) ↔
        Along (publishStep config) StillPending ClientState.start ls := by
  have hiff : Along (publishStep config) (fun s l => FirstRecord s l ∧ NotSettled config s l)
      ClientState.start ls ↔
        Along (publishStep config) (fun s l => FirstRecord s l ∧ StillPending s l)
          ClientState.start ls :=
    Runs.along_congr (fun _ _ _ hs hl hstep => Counted.step hlimit hs hl.1 hstep)
      (fun _ l hs => and_congr_right fun _ => hs.notSettled_iff l) (counted_start hlimit)
  rw [Runs.along_and, Runs.along_and, and_iff_right hfirst, and_iff_right hfirst] at hiff
  rw [hiff, and_iff_right_iff_imp]
  exact fun _ p t hp ht => sentWithin_of_firstRecord hlimit (hfirst.of_prefix hp) ht

/-- A publish that is acknowledged. -/
def acknowledgedRun (item : Outgoing Id) : List (PublishLabel Id) :=
  [.enqueue item, .take, .record 0, .hand, .returns (some 1), .ackFor item.messageId]

/-- An envelope of a task, numbered. -/
def taskEnvelope (n : ℕ) : Outgoing ℕ where
  messageId := n
  topic := Js.lit "swarm/alpha/task"
  json := Js.lit "{}"
  qos := 2
  retain := false

theorem retries_bounded_iff_acknowledged :
    (∀ p t, p <+: acknowledgedRun (taskEnvelope 1) →
        run (publishStep .default) ClientState.start p = some t → SentWithin .default t) ∧
      Along (publishStep .default) (NotSettled .default) ClientState.start
        (acknowledgedRun (taskEnvelope 1)) :=
  (retries_bounded_iff .default (acknowledgedRun (taskEnvelope 1)) (by decide) (by decide)).2
    (by decide)

/-! ### Publishes that fail -/

/-- The outbox thread takes an envelope, fails to publish it, and puts it back. -/
def failedRound (now : ℚ) : List (PublishLabel Id) :=
  [.take, .record now, .hand, .fails now, .requeue]

/-- A round that fails sends the envelope and leaves the client as it was. -/
theorem run_failedRound (config : PublishConfig) {item : Outgoing Id}
    (hqueue : s.queue = [item]) (hidle : s.outbox = .idle) (now : ℚ) :
    ∃ s', run (publishStep config) s (failedRound now) = some s' ∧
      s'.queue = [item] ∧ s'.outbox = .idle ∧ s'.sent = s.sent ++ [item] := by
  obtain ⟨queue, pending, outbox, expired, enqueued, recorded, sent, settled⟩ := s
  obtain rfl : queue = [item] := hqueue
  obtain rfl : outbox = .idle := hidle
  exact ⟨_, rfl, rfl, rfl, rfl⟩

/-- **No number bounds how often an envelope is sent whose publishes fail.** -/
theorem failed_rounds (config : PublishConfig) (item : Outgoing Id) (now : ℚ) (n : ℕ) :
    ∃ s, run (publishStep config) ClientState.start
        (.enqueue item :: (List.replicate n (failedRound now)).flatten) = some s ∧
      s.sends item.messageId = n := by
  have hrounds : ∀ n, ∃ s, run (publishStep config) ClientState.start
        (.enqueue item :: (List.replicate n (failedRound now)).flatten) = some s ∧
      s.queue = [item] ∧ s.outbox = .idle ∧ s.sent = List.replicate n item := by
    intro n
    induction n with
    | zero => exact ⟨_, rfl, rfl, rfl, rfl⟩
    | succ n ih =>
        obtain ⟨s, hs, hqueue, hidle, hsent⟩ := ih
        obtain ⟨s', hs', hqueue', hidle', hsent'⟩ :=
          run_failedRound config hqueue hidle now
        refine ⟨s', ?_, hqueue', hidle', ?_⟩
        · rw [List.replicate_succ', List.flatten_append, List.flatten_singleton, ← List.cons_append,
            Runs.run_append]
          exact ⟨s, hs, hs'⟩
        · rw [hsent', hsent, List.replicate_succ']
  obtain ⟨s, hs, -, -, hsent⟩ := hrounds n
  refine ⟨s, hs, ?_⟩
  rw [ClientState.sends, hsent, List.map_replicate, List.count_replicate_self]

/-- Seven publishes fail, one more than the default limit allows. -/
theorem seven_sends :
    ∃ s, run (publishStep .default) (ClientState.start : ClientState ℕ)
        (.enqueue (taskEnvelope 1) :: (List.replicate 7 (failedRound 0)).flatten) = some s ∧
      s.sends 1 = 7 ∧ ¬ SentWithin .default s :=
  ⟨_, rfl, by decide, fun h => absurd (h 1) (by decide)⟩

/-- The retry thread sends an envelope that the outbox thread is about to hand over, and it is
acknowledged before that. -/
example :
    ¬ Along (publishStep .default) (NotSettled .default) ClientState.start
      [.enqueue (taskEnvelope 1), .take, .record 0, .pass fun _ => ⟨2, 2, some (some 1)⟩,
        .ackFor 1, .hand] := by
  decide +kernel

/-! ### Runs without failures of the outbox thread -/

/-- The ids of the envelopes that had their record made, and then of those that are still to come,
in the order in which they were queued. -/
def ClientState.line (s : ClientState Id) : List Id :=
  s.recorded ++ (s.outbox.held ++ s.queue).map Outgoing.messageId

/-- Every envelope was queued once, and none was put back. -/
structure QueuedOnce (s : ClientState Id) : Prop where
  nodup : s.line.Nodup
  known : ∀ id ∈ s.line, id ∈ s.enqueued
  notFailed : ∀ item, s.outbox ≠ .failed item

theorem queuedOnce_start : QueuedOnce (ClientState.start : ClientState Id) where
  nodup := List.nodup_nil
  known _ h := absurd h List.not_mem_nil
  notFailed _ h := by cases h

/-- The envelope whose record is made next had none before. -/
theorem QueuedOnce.firstRecord (h : QueuedOnce s) (l : PublishLabel Id) : FirstRecord s l := by
  cases l with
  | record now =>
      intro item hitem hold
      have hdisjoint := (List.nodup_append'.1 h.nodup).2.2
      exact hdisjoint hold (List.mem_map_of_mem (List.mem_append_left _ hitem))
  | _ => exact fun _ hitem => absurd hitem List.not_mem_nil

theorem QueuedOnce.of_line (h : QueuedOnce s) (hline : s'.line = s.line)
    (henqueued : s'.enqueued = s.enqueued) (hnot : ∀ item, s'.outbox ≠ .failed item) :
    QueuedOnce s' where
  nodup := by
    rw [hline]
    exact h.nodup
  known := by
    rw [hline, henqueued]
    exact h.known
  notFailed := hnot

/-- A new envelope comes last. -/
theorem QueuedOnce.enqueue (h : QueuedOnce s) {item : Outgoing Id}
    (hstep : s.enqueue item = some s') : QueuedOnce s' := by
  unfold ClientState.enqueue at hstep
  split at hstep <;> cases hstep
  next hnew =>
    have hline : ClientState.line { s with
        queue := s.queue ++ [item], enqueued := s.enqueued ++ [item.messageId] } =
        s.line ++ [item.messageId] := by
      simp [ClientState.line]
    refine ⟨?_, ?_, h.notFailed⟩
    · rw [hline, List.nodup_append_comm, List.singleton_append, List.nodup_cons]
      exact ⟨fun hin => hnew.2 (h.known _ hin), h.nodup⟩
    · rw [hline]
      intro id hid
      exact List.mem_append.2 ((List.mem_append.1 hid).imp_left (h.known id))

theorem QueuedOnce.step (h : QueuedOnce s) (hl : ∀ now, l ≠ .fails now)
    (hstep : publishStep config s l = some s') : QueuedOnce s' := by
  cases l with
  | enqueue item => exact h.enqueue hstep
  | fails now => exact absurd rfl (hl now)
  | requeue =>
      simp only [publishStep, ClientState.requeue] at hstep
      split at hstep
      · exact absurd ‹_› (h.notFailed _)
      · cases hstep
  | pass readings =>
      simp only [publishStep, ClientState.pass] at hstep
      split at hstep <;> cases hstep
      exact h.of_line rfl rfl h.notFailed
  | purge =>
      simp only [publishStep, ClientState.purge] at hstep
      split at hstep <;> cases hstep
      exact h.of_line rfl rfl h.notFailed
  | ackFor id =>
      obtain rfl := Option.some.inj hstep
      unfold ClientState.handleAck
      split
      · exact h.of_line rfl rfl h.notFailed
      · exact h
  | published mid =>
      obtain rfl := Option.some.inj hstep
      unfold ClientState.onPublish
      split
      · exact h.of_line rfl rfl h.notFailed
      · exact h
  | _ =>
      simp only [publishStep, ClientState.take, ClientState.record, ClientState.hand,
        ClientState.returns] at hstep
      split at hstep <;> cases hstep
      refine h.of_line ?_ rfl ?_
      · simp [ClientState.line, ClientState.withRecord, OutboxThread.held, *]
      · intro item heq
        cases heq

/-- **No second record is made in a run without failures of the outbox thread.** -/
theorem firstRecord_of_no_failures {ls : List (PublishLabel Id)}
    (hls : ∀ l ∈ ls, ∀ now, l ≠ .fails now) :
    Along (publishStep config) FirstRecord ClientState.start ls := by
  have halong : Along (publishStep config) (fun _ l => ∀ now, l ≠ .fails now)
      ClientState.start ls := Runs.along_of_forall hls ClientState.start
  rw [Runs.along_congr (I := QueuedOnce) (fun _ _ _ hs hl hstep => hs.step hl hstep)
    (fun s l hs => (and_iff_left (hs.firstRecord l)).symm) queuedOnce_start,
    Runs.along_and] at halong
  exact halong.2

end SwarmStore
