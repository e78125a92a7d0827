/-
**A mission is settled once** (`settlement/settlement-queue.ts`).

A row of a mission is accepted unless the row that `byMission` names is queued or processing.  So a
mission whose row was settled is accepted like one that is new, and its next row is emitted in its
turn: the mission is settled again.

Main definitions:

* `Settlement.SettledOnce` — no row is emitted that was accepted behind a settled row of its
  mission;
* `Settlement.Unsettled` — a move that does not accept a row of a mission with a settled row.

Main results:

* `Settlement.ChainInv` — what a queue looks like, also behind a promise that is rejected;
* `Settlement.kept_of_step` — what a move does to the rows: a row that has been answered stays as
  it is;
* `Settlement.settledOnce_along` — **no mission is settled twice in a run in which no row of a
  settled mission is accepted, and when all rows have been emitted, only in such a run.**
-/
import Endendend.Settlement.QueueDiscipline

set_option relaxedAutoImplicit false
set_option autoImplicit false

namespace Settlement

open Js Runs

/-- No row is emitted that was accepted behind a settled row of its mission.  A row is accepted only
when the rows of its mission before it have been answered. -/
def SettledOnce (q : SettlementQueue) : Prop :=
  ∀ i j row row', q.row? i = some row → q.row? j = some row' → i < j →
    row.missionId = row'.missionId → row.status = .settled → j ∉ q.emits

/-- A move that does not accept a row of a mission with a settled row. -/
def Unsettled (q : SettlementQueue) : QueueMove → Prop
  | .enqueue missionId _ _ =>
    q.pending missionId = none → ∀ row ∈ q.rows, row.missionId = missionId → row.status ≠ .settled
  | _ => True

instance (q : SettlementQueue) : (mv : QueueMove) → Decidable (Unsettled q mv)
  | .enqueue missionId _ _ => inferInstanceAs (Decidable (q.pending missionId = none →
      ∀ row ∈ q.rows, row.missionId = missionId → row.status ≠ .settled))
  | .react _ | .resolve _ _ | .reject _ _ => .isTrue trivial

/-! ### Behind a promise that is rejected -/

/-- What a queue looks like in every run: as it should, or some rows wait behind a promise that is
rejected. -/
inductive ChainInv (q : SettlementQueue) : Prop
  | intact (h : QueueInv q)
  | stuck (d done : ℕ) (rest : List Drain) (rows : RowsInv q done done)
      (drains : q.drains = List.replicate d .fulfilled ++ .rejected :: rest)
      (rest_chained : ∀ x ∈ rest, x = .chained ∨ x = .rejected)

variable {q q' : SettlementQueue} {mv : QueueMove}

/-- Active rows are found under their missions. -/
theorem ChainInv.mission (h : ChainInv q) : ∀ j row, q.row? j = some row → row.Active →
    q.byMission.get? row.missionId = some j := by
  cases h with
  | intact h =>
      cases h with
      | between _ _ _ rows => exact rows.mission
      | emitting _ _ _ rows => exact rows.mission
      | broken _ _ rows => exact rows.mission
  | stuck _ _ _ rows => exact rows.mission

/-- The row whose emit is in flight is processing. -/
theorem ChainInv.processing (h : ChainInv q) {k r : ℕ}
    (hk : q.drains[k]? = some (Drain.emitting r)) {row : QueuedSettlement}
    (hrow : q.row? r = some row) : row.status = .processing := by
  cases h with
  | intact h =>
      obtain ⟨c, rows, -⟩ := h.of_emitting hk
      exact rows.processing r row hrow le_rfl (Nat.lt_succ_self r)
  | stuck d done rest rows drains rest_chained =>
      cases (SettlementQueue.eq_of_emitting drains rest_chained hk).2

/-- An enqueue behind a rejected promise. -/
theorem ChainInv.enqueue_stuck {d done : ℕ} {rest : List Drain} (rows : RowsInv q done done)
    (drains : q.drains = List.replicate d .fulfilled ++ .rejected :: rest)
    (rest_chained : ∀ x ∈ rest, x = .chained ∨ x = .rejected) (m : Str)
    (manifest : RewardManifestRecord) (now : ℕ) : ChainInv (q.enqueue m manifest now) := by
  rw [SettlementQueue.enqueue]
  split
  · exact .stuck d done rest rows drains rest_chained
  · rename_i hpending
    have hpending := Option.not_isSome_iff_eq_none.1 hpending
    refine .stuck d done (rest ++ [.chained]) (rows.accept hpending _ _ _ _) ?_ ?_
    · show q.drains ++ [.chained] = _
      rw [drains, List.append_assoc, List.cons_append]
    · intro x hx
      obtain hmem | hmem := List.mem_append.1 hx
      · exact rest_chained x hmem
      · exact Or.inl (List.mem_singleton.1 hmem)

/-- A reaction behind a rejected promise rejects one promise more. -/
theorem ChainInv.react_stuck {d done k : ℕ} {rest : List Drain} (rows : RowsInv q done done)
    (drains : q.drains = List.replicate d .fulfilled ++ .rejected :: rest)
    (rest_chained : ∀ x ∈ rest, x = .chained ∨ x = .rejected)
    (hstep : queueStep q (.react k) = some q') : ChainInv q' := by
  rw [queueStep, if_neg ((atRest_of_rejected drains rest_chained).2 k),
    Option.ite_none_right_eq_some] at hstep
  obtain ⟨⟨hchained, -⟩, hstep⟩ := hstep
  obtain rfl := Option.some.inj hstep
  obtain ⟨rest', hset, hrest'⟩ := set_rejected drains rest_chained hchained
  exact .stuck d done rest' ⟨rows.emits, rows.done_le, rows.le_length, rows.finished,
    rows.processing, rows.waiting, rows.mission⟩ hset hrest'

/-- A move that is not harmless leaves rows behind a promise that is rejected. -/
theorem ChainInv.of_not_harmless (h : QueueInv q) (hmv : ¬ Harmless q mv)
    (hstep : queueStep q mv = some q') : ChainInv q' := by
  cases mv with
  | enqueue m manifest now =>
      obtain rfl := Option.some.inj hstep
      obtain ⟨d, rest, rows, drains, rest_chained⟩ := h.of_rejected (not_not.1 hmv)
      exact ChainInv.enqueue_stuck rows drains rest_chained m manifest now
  | react k => exact absurd trivial hmv
  | resolve k hash => exact absurd trivial hmv
  | reject k thrown =>
      obtain ⟨htext, -⟩ := Classical.not_imp.1 hmv
      rw [queueStep] at hstep
      split at hstep
      · rename_i r hk
        rw [htext] at hstep
        obtain rfl := Option.some.inj hstep
        obtain ⟨c, rows, -, drains⟩ := h.of_emitting hk
        have hnote := rows.note (f := fun row => { row with status := .failed }) fun row =>
          not_active_settled (Or.inr rfl)
        -- a rejection without a text rejects the promise, and the calls behind it stay chained
        exact .stuck k (r + 1) (List.replicate c .chained)
          ⟨hnote.emits, hnote.done_le, hnote.le_length, hnote.finished, hnote.processing,
            hnote.waiting, hnote.mission⟩
          (SettlementQueue.set_drains drains _) eq_chained_of_mem_replicate
      · cases hstep

theorem ChainInv.step (h : ChainInv q) (hstep : queueStep q mv = some q') : ChainInv q' := by
  cases h with
  | intact h =>
      by_cases hmv : Harmless q mv
      · exact .intact (h.step hmv hstep)
      · exact ChainInv.of_not_harmless h hmv hstep
  | stuck d done rest rows drains rest_chained =>
      -- no emit is in flight behind a rejected promise, so nothing can be answered
      have hno := (atRest_of_rejected drains rest_chained).1
      cases mv with
      | enqueue m manifest now =>
          obtain rfl := Option.some.inj hstep
          exact ChainInv.enqueue_stuck rows drains rest_chained m manifest now
      | react k => exact ChainInv.react_stuck rows drains rest_chained hstep
      | resolve k hash =>
          rw [queueStep] at hstep
          split at hstep
          · rename_i r hk
            exact absurd hk (hno k r)
          · cases hstep
      | reject k thrown =>
          rw [queueStep] at hstep
          split at hstep
          · rename_i r hk
            exact absurd hk (hno k r)
          · cases hstep

/-! ### What a move does to the rows -/

/-- The rows of a queue go on under their missions, and a row that has been answered stays as it
is. -/
def Kept (q q' : SettlementQueue) : Prop :=
  q'.rows.length = q.rows.length ∧ ∀ i row', q'.row? i = some row' →
    ∃ row, q.row? i = some row ∧ row'.missionId = row.missionId ∧ (¬ row.Active → row' = row)

theorem Kept.refl (q : SettlementQueue) : Kept q q :=
  ⟨rfl, fun _ row hrow => ⟨row, hrow, rfl, fun _ => rfl⟩⟩

theorem Kept.trans {q'' : SettlementQueue} (h : Kept q q') (h' : Kept q' q'') : Kept q q'' := by
  refine ⟨h'.1.trans h.1, fun i row'' hrow'' => ?_⟩
  obtain ⟨row', hrow', hmission', hsame'⟩ := h'.2 i row'' hrow''
  obtain ⟨row, hrow, hmission, hsame⟩ := h.2 i row' hrow'
  refine ⟨row, hrow, hmission'.trans hmission, fun hrest => ?_⟩
  obtain rfl := hsame hrest
  exact hsame' hrest

/-- A row that has been answered is still there. -/
theorem Kept.answered (h : Kept q q') {i : ℕ} {row : QueuedSettlement} (hrow : q.row? i = some row)
    (hrest : ¬ row.Active) : q'.row? i = some row := by
  obtain ⟨row', hrow'⟩ : ∃ row', q'.row? i = some row' := by
    have hlt := (List.getElem?_eq_some_iff.1 hrow).1
    rw [← h.1] at hlt
    exact ⟨_, List.getElem?_eq_getElem hlt⟩
  obtain ⟨before, hbefore, -, hsame⟩ := h.2 i row' hrow'
  obtain rfl := Option.some.inj (hrow.symm.trans hbefore)
  rw [hrow', hsame hrest]

/-- A row that is active is changed under its mission. -/
theorem kept_modify {r : ℕ} {f : QueuedSettlement → QueuedSettlement}
    (hactive : ∀ row, q.row? r = some row → row.Active)
    (hf : ∀ row, (f row).missionId = row.missionId) (hrows : q'.rows = q.rows.modify r f) :
    Kept q q' := by
  refine ⟨by rw [hrows, List.length_modify], fun i row' hrow' => ?_⟩
  rw [SettlementQueue.row?, hrows] at hrow'
  obtain ⟨row, hrow, rfl⟩ := of_row?_modify hrow'
  refine ⟨row, hrow, ?_, fun hrest => ?_⟩
  · split
    · exact hf row
    · rfl
  · rw [if_neg]
    rintro rfl
    exact hrest (hactive row hrow)

theorem kept_drainLoop (k : ℕ) (rest : List ℕ) : Kept q (q.drainLoop k rest) := by
  induction rest with
  | nil => exact Kept.refl q
  | cons r rest ih =>
      rw [SettlementQueue.drainLoop]
      split
      · rename_i hqueued
        have hactive : ∀ row, q.row? r = some row → row.Active := by
          intro row hrow
          rw [hrow] at hqueued
          exact Or.inl (of_decide_eq_true hqueued)
        refine kept_modify hactive (f := fun row => { row with status := .processing }) ?_ rfl
        exact fun _ => rfl
      · exact ih

/-- The answer to an emit is noted, and its call goes on. -/
theorem kept_answer (h : ChainInv q) {k r : ℕ} (hk : q.drains[k]? = some (Drain.emitting r))
    {f : QueuedSettlement → QueuedSettlement} (hf : ∀ row, (f row).missionId = row.missionId) :
    Kept q (q.note r f) :=
  kept_modify (fun _ hrow => Or.inr (h.processing hk hrow)) hf rfl

/-- **What a move does to the rows**: they are kept, or one more is accepted. -/
theorem kept_of_step (h : ChainInv q) (hstep : queueStep q mv = some q') :
    Kept q q' ∨ ∃ m manifest now, mv = .enqueue m manifest now ∧ q.pending m = none ∧
      q'.rows = q.rows ++ [⟨m, manifest, .queued, none, none, now⟩] := by
  cases mv with
  | enqueue m manifest now =>
      obtain rfl := Option.some.inj hstep
      rw [SettlementQueue.enqueue]
      split
      · exact Or.inl (Kept.refl q)
      · rename_i hpending
        exact Or.inr ⟨m, manifest, now, rfl, Option.not_isSome_iff_eq_none.1 hpending, rfl⟩
  | react k =>
      rw [queueStep] at hstep
      split at hstep
      · obtain rfl := Option.some.inj hstep
        exact Or.inl (kept_drainLoop k q.fifo)
      · obtain ⟨-, hstep⟩ := Option.ite_none_right_eq_some.1 hstep
        obtain rfl := Option.some.inj hstep
        exact Or.inl (Kept.refl q)
  | resolve k hash =>
      rw [queueStep] at hstep
      split at hstep
      · rename_i r hk
        obtain rfl := Option.some.inj hstep
        refine Or.inl (Kept.trans (kept_answer h hk ?_) (kept_drainLoop k _))
        exact fun _ => rfl
      · cases hstep
  | reject k thrown =>
      rw [queueStep] at hstep
      split at hstep
      · rename_i r hk
        split at hstep
        · obtain rfl := Option.some.inj hstep
          refine Or.inl (Kept.trans (kept_answer h hk ?_) (kept_drainLoop k _))
          exact fun _ => rfl
        · obtain rfl := Option.some.inj hstep
          refine Or.inl (kept_answer (f := fun row => { row with status := .failed }) h hk ?_)
          exact fun _ => rfl
      · cases hstep

/-! ### Settled once -/

/-- All rows of a mission but the last one have failed. -/
def Retries (q : SettlementQueue) : Prop :=
  ∀ i j row row', q.row? i = some row → q.row? j = some row' → i < j →
    row.missionId = row'.missionId → row.status = .failed

theorem Retries.settledOnce (h : Retries q) : SettledOnce q := by
  intro i j row row' hrow hrow' hlt hmission hsettled
  have hfailed := h i j row row' hrow hrow' hlt hmission
  rw [hsettled] at hfailed
  cases hfailed

theorem not_active_failed {row : QueuedSettlement} (h : row.status = .failed) : ¬ row.Active :=
  not_active_settled (Or.inr h)

theorem Kept.retries (h : Kept q q') (hq : Retries q) : Retries q' := by
  intro i j row row' hrow hrow' hlt hmission
  obtain ⟨before, hbefore, hmission₁, hsame⟩ := h.2 i row hrow
  obtain ⟨before', hbefore', hmission₂, -⟩ := h.2 j row' hrow'
  -- a row that has failed is not active, and only active rows change
  have hfailed := hq i j before before' hbefore hbefore' hlt
    (hmission₁.symm.trans (hmission.trans hmission₂))
  rw [hsame (not_active_failed hfailed)]
  exact hfailed

/-- A row that is neither queued nor processing nor settled has failed. -/
theorem failed_of_not_active {row : QueuedSettlement} (h : ¬ row.Active)
    (hsettled : row.status ≠ .settled) : row.status = .failed := by
  cases hstatus : row.status with
  | queued => exact absurd (Or.inl hstatus) h
  | processing => exact absurd (Or.inr hstatus) h
  | settled => exact absurd hstatus hsettled
  | failed => rfl

/-- No row of a mission is active when another row of it is accepted. -/
theorem not_active_of_pending (h : ChainInv q) {m : Str} (hpending : q.pending m = none) {i : ℕ}
    {row : QueuedSettlement} (hrow : q.row? i = some row) (hmission : row.missionId = m) :
    ¬ row.Active :=
  fun hactive => ne_of_pending hpending hrow hactive (h.mission i row hrow hactive) hmission

theorem Retries.step (hinv : ChainInv q) (h : Retries q) (hmv : Unsettled q mv)
    (hstep : queueStep q mv = some q') : Retries q' := by
  obtain hkept | ⟨m, manifest, now, rfl, hpending, hrows⟩ := kept_of_step hinv hstep
  · exact hkept.retries h
  · intro i j row row' hrow hrow' hlt hmission
    obtain ⟨hrow, hi⟩ | ⟨rfl, rfl⟩ := row?_of_accept hrows hrow
    · obtain ⟨hrow', -⟩ | ⟨rfl, rfl⟩ := row?_of_accept hrows hrow'
      · exact h i j row row' hrow hrow' hlt hmission
      · -- the rows of the mission before the new one
        refine failed_of_not_active (not_active_of_pending hinv hpending hrow hmission) ?_
        exact hmv hpending row (List.mem_of_getElem? hrow) hmission
    · obtain ⟨-, hj⟩ | ⟨rfl, -⟩ := row?_of_accept hrows hrow' <;> omega

/-- A mission has a row behind a settled one. -/
def Resettled (q : SettlementQueue) : Prop :=
  ∃ i j row row', q.row? i = some row ∧ q.row? j = some row' ∧ i < j ∧
    row.missionId = row'.missionId ∧ row.status = .settled

theorem not_active_of_settled {row : QueuedSettlement} (h : row.status = .settled) :
    ¬ row.Active :=
  not_active_settled (Or.inl h)

/-- A row of a mission with a settled row is accepted. -/
theorem resettled_of_accept (hmv : ¬ Unsettled q mv) (hstep : queueStep q mv = some q') :
    Resettled q' := by
  cases mv with
  | enqueue m manifest now =>
      obtain rfl := Option.some.inj hstep
      rw [Unsettled] at hmv
      push Not at hmv
      obtain ⟨hpending, row, hmem, hmission, hsettled⟩ := hmv
      obtain ⟨i, hi, hget⟩ := List.mem_iff_getElem.1 hmem
      rw [SettlementQueue.enqueue, hpending]
      refine ⟨i, q.rows.length, row, ⟨m, manifest, .queued, none, none, now⟩, ?_, ?_, hi, hmission,
        hsettled⟩
      · show (q.rows ++ [_])[i]? = some row
        rw [List.getElem?_append_left hi, List.getElem?_eq_getElem hi, hget]
      · show (q.rows ++ [_])[q.rows.length]? = some _
        rw [List.getElem?_concat_length]
  | react k => exact absurd trivial hmv
  | resolve k hash => exact absurd trivial hmv
  | reject k thrown => exact absurd trivial hmv

theorem Kept.resettled (h : Kept q q') (hq : Resettled q) : Resettled q' := by
  obtain ⟨i, j, row, row', hrow, hrow', hlt, hmission, hsettled⟩ := hq
  obtain ⟨after, hafter⟩ : ∃ after, q'.row? j = some after := by
    have hj := (List.getElem?_eq_some_iff.1 hrow').1
    rw [← h.1] at hj
    exact ⟨_, List.getElem?_eq_getElem hj⟩
  obtain ⟨before, hbefore, hsame, -⟩ := h.2 j after hafter
  obtain rfl := Option.some.inj (hrow'.symm.trans hbefore)
  exact ⟨i, j, row, after, h.answered hrow (not_active_of_settled hsettled), hafter, hlt,
    hmission.trans hsame.symm, hsettled⟩

theorem Resettled.step (hinv : ChainInv q) (h : Resettled q) (hstep : queueStep q mv = some q') :
    Resettled q' := by
  obtain hkept | ⟨m, manifest, now, -, -, hrows⟩ := kept_of_step hinv hstep
  · exact hkept.resettled h
  · obtain ⟨i, j, row, row', hrow, hrow', hrest⟩ := h
    have hold : ∀ {k : ℕ} {old : QueuedSettlement}, q.row? k = some old →
        q'.row? k = some old := by
      intro k old hk
      rw [SettlementQueue.row?, hrows,
        List.getElem?_append_left (List.getElem?_eq_some_iff.1 hk).1]
      exact hk
    exact ⟨i, j, row, row', hold hrow, hold hrow', hrest⟩

theorem chainInv_new : ChainInv .new := .intact queueInv_new

theorem retries_new : Retries .new := by
  intro i j row row' hrow
  cases hrow

/-- A run in which a row of a settled mission is accepted. -/
theorem resettled_of_run {mvs : List QueueMove} (h : run queueStep .new mvs = some q)
    (hmvs : ¬ Along queueStep Unsettled .new mvs) : Resettled q := by
  rw [along_iff_forall_split] at hmvs
  push Not at hmvs
  obtain ⟨pre, mv, post, q₁, rfl, h₁, hmv⟩ := hmvs
  obtain ⟨s, hs, h⟩ := run_append.1 h
  obtain rfl := Option.some.inj (h₁.symm.trans hs)
  obtain ⟨q₂, h₂, h⟩ := run_cons.1 h
  have hinv : ChainInv q₁ := invariant_of_run (fun _ _ _ h hstep => h.step hstep) chainInv_new h₁
  exact (invariant_of_run (I := fun q => ChainInv q ∧ Resettled q)
    (fun _ _ _ h hstep => ⟨h.1.step hstep, h.2.step h.1 hstep⟩)
    ⟨hinv.step h₂, resettled_of_accept hmv h₂⟩ h).2

/-- **When a mission is settled once**: in every run in which no row of a settled mission is
accepted.  When all rows have been emitted, there is no other such run. -/
theorem settledOnce_along {mvs : List QueueMove} (h : run queueStep .new mvs = some q) :
    (Along queueStep Unsettled .new mvs →
      ∀ p q', p <+: mvs → run queueStep .new p = some q' → SettledOnce q') ∧
    (q.emits = List.range q.rows.length → SettledOnce q →
      Along queueStep Unsettled .new mvs) := by
  constructor
  · intro hmvs p q' hp hrun
    -- the invariant is that every row of a mission but the last has failed
    have hinv := invariant_along (I := fun q => ChainInv q ∧ Retries q)
      (fun _ _ _ h hmv hstep => ⟨h.1.step hstep, h.2.step h.1 hmv hstep⟩)
      ⟨chainInv_new, retries_new⟩ (hmvs.of_prefix hp) hrun
    exact hinv.2.settledOnce
  · intro hemits honce
    by_contra hmvs
    -- a settled row and one behind it stay in the queue, and all rows have been emitted
    obtain ⟨i, j, row, row', hrow, hrow', hlt, hmission, hsettled⟩ := resettled_of_run h hmvs
    refine honce i j row row' hrow hrow' hlt hmission hsettled ?_
    rw [hemits, List.mem_range]
    exact (List.getElem?_eq_some_iff.1 hrow').1

/-- A failed settlement is tried again and settled. -/
def secondTry : List QueueMove :=
  [.enqueue (lit "a") (manifestOf (lit "a")) 0, .react 0, .reject 0 (.error (lit "bridge_down")),
    .enqueue (lit "a") (manifestOf (lit "a")) 1, .react 1, .resolve 1 (lit "tx-a")]

theorem settledOnce_along_secondTry : ∃ q, run queueStep .new secondTry = some q ∧
    SettledOnce q ∧ q.emits = [0, 1] := by
  obtain ⟨q, hq⟩ : ∃ q, run queueStep .new secondTry = some q :=
    Option.isSome_iff_exists.1 (by decide +kernel)
  have hemits : ∀ q ∈ run queueStep .new secondTry, q.emits = [0, 1] := by decide +kernel
  exact ⟨q, hq, (settledOnce_along hq).1 (by decide +kernel) secondTry q (List.prefix_refl _) hq,
    hemits q hq⟩

/-- The mission is handed to the queue once more after it was settled. -/
def secondEnqueue : List QueueMove :=
  [.enqueue (lit "a") (manifestOf (lit "a")) 0, .react 0, .resolve 0 (lit "tx-a"),
    .enqueue (lit "a") (manifestOf (lit "a")) 1, .react 1]

/-- It is settled a second time. -/
theorem settled_twice_secondEnqueue : ∃ q, run queueStep .new secondEnqueue = some q ∧
    ¬ SettledOnce q := by
  obtain ⟨q, hq⟩ : ∃ q, run queueStep .new secondEnqueue = some q :=
    Option.isSome_iff_exists.1 (by decide +kernel)
  have hfacts : ∀ q ∈ run queueStep .new secondEnqueue, q.emits = [0, 1] ∧
      (q.row? 0).map (fun row => (row.missionId, row.status)) = some (lit "a", .settled) ∧
      (q.row? 1).map (fun row => row.missionId) = some (lit "a") := by decide +kernel
  obtain ⟨hemits, h₀, h₁⟩ := hfacts q hq
  obtain ⟨row, hrow, heq⟩ := Option.map_eq_some_iff.1 h₀
  obtain ⟨row', hrow', heq'⟩ := Option.map_eq_some_iff.1 h₁
  obtain ⟨hmission, hsettled⟩ := Prod.mk.inj heq
  refine ⟨q, hq, fun honce => ?_⟩
  refine honce 0 1 row row' hrow hrow' Nat.one_pos (hmission.trans heq'.symm) hsettled ?_
  rw [hemits]
  decide

end Settlement
