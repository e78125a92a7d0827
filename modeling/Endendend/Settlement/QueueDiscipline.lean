/-
**The settlement queue and its discipline** (`settlement/settlement-queue.ts`).

Rows are emitted one after the other.  Every row that is accepted chains one more call of
`drainOnce` behind the promise of the call before it, and a call emits all rows that it finds.  It
waits for the answer to each emit, and rows may be accepted meanwhile.

An emit that is rejected is noted and the call goes on with the next row.  But noting it turns what
was thrown into a string, and when that throws as well, the promise of the call is rejected and no
call behind it ever runs.

Main definitions:

* `Settlement.SettlementQueue` — the rows with the calls of `drainOnce` and the history of emits;
* `Settlement.SettlementQueue.enqueue`, `Settlement.SettlementQueue.drainLoop` — the queue, and a
  call up to where it waits;
* `Settlement.queueStep` — an enqueue, a reaction to a promise, or the answer to an emit;
* `Settlement.AtRest` — no emit is in flight and no call is about to run;
* `Settlement.Disciplined` — one emit at a time, in the order of the rows, each row once, none left
  behind, and one row of a mission at a time;
* `Settlement.Harmless` — a move that does not leave a row behind a promise that is rejected.

Main results:

* `Settlement.SettlementQueue.ready_iff` — the call whose turn it is;
* `Settlement.QueueInv` — what a queue looks like while no row is left behind;
* `Settlement.queue_disciplined_iff` — **a queue is disciplined all along a run exactly if all moves
  are harmless.**
-/
import Endendend.Foundation.Runs
import Endendend.Settlement.RewardManifest
import Mathlib.Data.List.Range

set_option relaxedAutoImplicit false
set_option autoImplicit false

namespace Settlement

open Js

inductive QueuedSettlementStatus
  | queued
  | processing
  | settled
  | failed
  deriving DecidableEq

structure QueuedSettlement where
  missionId : Str
  manifest : RewardManifestRecord
  status : QueuedSettlementStatus
  arcTxHash : Option Str
  error : Option Str
  timestamp : ℕ

namespace QueuedSettlement

/-- A row that keeps a second row of its mission out of the queue. -/
def Active (row : QueuedSettlement) : Prop := row.status = .queued ∨ row.status = .processing

instance (row : QueuedSettlement) : Decidable row.Active :=
  inferInstanceAs (Decidable (_ ∨ _))

end QueuedSettlement

/-- What an emit may be rejected with: an `Error`, or any other value with its text under `String`,
if that does not throw. -/
inductive Thrown
  | error (message : Str)
  | value (text : Option Str)
  deriving DecidableEq

/-- The text that is noted for what was thrown. -/
def Thrown.text : Thrown → Option Str
  | .error message => some message
  | .value text => text

/-- Where a call of `drainOnce` is: it is chained and has not begun, it waits for the emit of a row,
or its promise has settled. -/
inductive Drain
  | chained
  | emitting (row : ℕ)
  | fulfilled
  | rejected
  deriving DecidableEq

/-- Rows are objects, named by their number in the order in which they were accepted; the calls of
`drainOnce` are named by the order in which they were chained.  `emits` are the rows for which
`emit` was called so far. -/
structure SettlementQueue where
  rows : List QueuedSettlement
  fifo : List ℕ
  byMission : OrderedMap Str ℕ
  drains : List Drain
  emits : List ℕ

namespace SettlementQueue

def new : SettlementQueue := ⟨[], [], ∅, [], []⟩

variable (q : SettlementQueue)

def row? (r : ℕ) : Option QueuedSettlement := q.rows[r]?

/-- The row of a mission that is queued or processing. -/
def pending (missionId : Str) : Option ℕ :=
  (q.byMission.get? missionId).filter fun r => (q.row? r).any fun row => row.Active

def enqueue (missionId : Str) (manifest : RewardManifestRecord) (now : ℕ) : SettlementQueue :=
  if (q.pending missionId).isSome then q
  else
    { q with
      rows := q.rows ++ [⟨missionId, manifest, .queued, none, none, now⟩]
      byMission := q.byMission.set missionId q.rows.length
      fifo := q.fifo ++ [q.rows.length]
      drains := q.drains ++ [.chained] }

/-- Call `k` of `drainOnce` goes on with the rows that are left, up to the next emit. -/
def drainLoop (k : ℕ) : List ℕ → SettlementQueue
  | [] => { q with fifo := [], drains := q.drains.set k .fulfilled }
  | r :: rest =>
    if (q.row? r).any fun row => row.status = .queued then
      { q with
        fifo := r :: rest
        rows := q.rows.modify r fun row => { row with status := .processing }
        drains := q.drains.set k (.emitting r)
        emits := q.emits ++ [r] }
    else drainLoop k rest

/-- The answer to the emit of a row is noted. -/
def note (r : ℕ) (f : QueuedSettlement → QueuedSettlement) : SettlementQueue :=
  { q with rows := q.rows.modify r f }

/-- The promise behind which call `k` is chained; before the first one there is a promise that is
fulfilled from the start. -/
def tail : ℕ → Option Drain
  | 0 => some .fulfilled
  | k + 1 => q.drains[k]?

/-- A call whose turn has come. -/
def Ready (k : ℕ) : Prop := q.drains[k]? = some .chained ∧ q.tail k = some .fulfilled

instance (k : ℕ) : Decidable (q.Ready k) := inferInstanceAs (Decidable (_ ∧ _))

end SettlementQueue

/-- A row is handed to the queue, the promise before a call is reacted to, or an emit is
answered. -/
inductive QueueMove
  | enqueue (missionId : Str) (manifest : RewardManifestRecord) (now : ℕ)
  | react (k : ℕ)
  | resolve (k : ℕ) (hash : Str)
  | reject (k : ℕ) (thrown : Thrown)

open QueuedSettlementStatus in
def queueStep (q : SettlementQueue) : QueueMove → Option SettlementQueue
  | .enqueue missionId manifest now => some (q.enqueue missionId manifest now)
  | .react k =>
    if q.Ready k then some (q.drainLoop k q.fifo)
    else if q.drains[k]? = some .chained ∧ q.tail k = some .rejected then
      -- a promise that is chained behind a rejected one is rejected without a call
      some { q with drains := q.drains.set k .rejected }
    else none
  | .resolve k hash =>
    match q.drains[k]? with
    | some (.emitting r) =>
      let q := q.note r fun row => { row with arcTxHash := some hash, status := settled }
      some (q.drainLoop k q.fifo.tail)
    | _ => none
  | .reject k thrown =>
    match q.drains[k]? with
    | some (.emitting r) =>
      match thrown.text with
      | some text =>
        let q := q.note r fun row => { row with status := failed, error := some text }
        some (q.drainLoop k q.fifo.tail)
      | none =>
        -- `String` throws inside the handler, and the call ends there
        let q := q.note r fun row => { row with status := failed }
        some { q with drains := q.drains.set k .rejected }
    | _ => none

end Settlement

namespace Settlement

open Js Runs

/-- No emit is in flight, and no call is about to run. -/
def AtRest (q : SettlementQueue) : Prop :=
  (∀ k r : ℕ, q.drains[k]? ≠ some (Drain.emitting r)) ∧ ∀ k, ¬ q.Ready k

/-- What one expects of the queue in every state. -/
structure Disciplined (q : SettlementQueue) : Prop where
  /-- At most one emit is in flight. -/
  oneEmit : ∀ j k r r' : ℕ, q.drains[j]? = some (Drain.emitting r) →
    q.drains[k]? = some (Drain.emitting r') → j = k
  /-- Rows are emitted in the order in which they were accepted, each at most once. -/
  inOrder : q.emits <+: List.range q.rows.length
  /-- When everything has settled, all rows have been emitted. -/
  allEmitted : AtRest q → q.emits = List.range q.rows.length
  /-- Two rows of a mission are not queued or processing at once. -/
  oneActive : ∀ i j row row', q.row? i = some row → q.row? j = some row' → row.Active →
    row'.Active → row.missionId = row'.missionId → i = j

/-! ### The chain of calls -/

namespace SettlementQueue

variable {q : SettlementQueue} {d k r : ℕ} {rest : List Drain}

theorem getElem?_drains_of_lt (h : q.drains = List.replicate d .fulfilled ++ rest) (hk : k < d) :
    q.drains[k]? = some Drain.fulfilled := by
  rw [h, List.getElem?_append_left (by simpa using hk), List.getElem?_replicate_of_lt hk]

theorem getElem?_drains_of_le (h : q.drains = List.replicate d .fulfilled ++ rest) (hk : d ≤ k) :
    q.drains[k]? = rest[k - d]? := by
  rw [h, List.getElem?_append_right (by simpa using hk), List.length_replicate]

/-- **Whose turn it is**: the first call whose promise is not fulfilled, if it is chained. -/
theorem ready_iff (h : q.drains = List.replicate d .fulfilled ++ rest)
    (hrest : .fulfilled ∉ rest) : q.Ready k ↔ k = d ∧ rest.head? = some Drain.chained := by
  have hhead : q.drains[d]? = rest.head? := by
    rw [getElem?_drains_of_le h le_rfl, Nat.sub_self, List.head?_eq_getElem?]
  constructor
  · rintro ⟨hchained, htail⟩
    have hle : d ≤ k := by
      by_contra hlt
      rw [getElem?_drains_of_lt h (by omega)] at hchained
      cases hchained
    cases k with
    | zero =>
        obtain rfl : d = 0 := by omega
        exact ⟨rfl, hhead.symm.trans hchained⟩
    | succ k =>
        have hk : k < d := by
          by_contra hge
          rw [tail, getElem?_drains_of_le h (by omega)] at htail
          exact hrest (List.mem_of_getElem? htail)
        obtain rfl : d = k + 1 := by omega
        exact ⟨rfl, hhead.symm.trans hchained⟩
  · rintro ⟨rfl, hchained⟩
    refine ⟨hhead.trans hchained, ?_⟩
    cases k with
    | zero => rfl
    | succ k => exact getElem?_drains_of_lt h (Nat.lt_succ_self k)

/-- The call that waits for an emit is the first one whose promise is not fulfilled. -/
theorem eq_of_emitting {x : Drain} (h : q.drains = List.replicate d .fulfilled ++ x :: rest)
    (hrest : ∀ y ∈ rest, y = .chained ∨ y = .rejected)
    (hk : q.drains[k]? = some (Drain.emitting r)) : k = d ∧ x = .emitting r := by
  have hle : d ≤ k := by
    by_contra hlt
    rw [getElem?_drains_of_lt h (by omega)] at hk
    cases hk
  rw [getElem?_drains_of_le h hle] at hk
  cases hkd : k - d with
  | zero =>
      rw [hkd] at hk
      exact ⟨by omega, Option.some.inj hk⟩
  | succ m =>
      rw [hkd, List.getElem?_cons_succ] at hk
      obtain heq | heq := hrest _ (List.mem_of_getElem? hk) <;> cases heq

theorem set_drains {x : Drain} (h : q.drains = List.replicate d .fulfilled ++ x :: rest)
    (y : Drain) : q.drains.set d y = List.replicate d .fulfilled ++ y :: rest := by
  rw [h, List.set_append_right _ _ (by simp)]
  simp

end SettlementQueue

/-! ### What a queue looks like -/

/-- The rows, when the first `done` of them have been answered and the first `e` emitted. -/
structure RowsInv (q : SettlementQueue) (done e : ℕ) : Prop where
  emits : q.emits = List.range e
  done_le : done ≤ e
  le_length : e ≤ q.rows.length
  finished : ∀ j row, q.row? j = some row → j < done → ¬ row.Active
  processing : ∀ j row, q.row? j = some row → done ≤ j → j < e → row.status = .processing
  waiting : ∀ j row, q.row? j = some row → e ≤ j → row.status = .queued
  mission : ∀ j row, q.row? j = some row → row.Active → q.byMission.get? row.missionId = some j

/-- The rows that are not answered yet. -/
def unanswered (q : SettlementQueue) (done : ℕ) : List ℕ :=
  List.range' done (q.rows.length - done)

/-- What a queue looks like: between two calls, while an emit is in flight, and after a call was
rejected when no row was left. -/
inductive QueueInv (q : SettlementQueue) : Prop
  | between (d c done : ℕ) (rows : RowsInv q done done) (fifo : q.fifo = unanswered q done)
      (drains : q.drains = List.replicate d .fulfilled ++ List.replicate c .chained)
      (more : done < q.rows.length → 0 < c)
  | emitting (d c done : ℕ) (rows : RowsInv q done (done + 1)) (fifo : q.fifo = unanswered q done)
      (drains : q.drains =
        List.replicate d .fulfilled ++ .emitting done :: List.replicate c .chained)
  | broken (d : ℕ) (rest : List Drain) (rows : RowsInv q q.rows.length q.rows.length)
      (drains : q.drains = List.replicate d .fulfilled ++ .rejected :: rest)
      (rest_chained : ∀ x ∈ rest, x = .chained ∨ x = .rejected)

theorem queueInv_new : QueueInv .new := by
  refine .between 0 0 0 ⟨rfl, le_rfl, le_rfl, ?_, ?_, ?_, ?_⟩ rfl rfl fun h => h <;>
  · intro j row hrow
    cases hrow

variable {q q' : SettlementQueue} {d c done e : ℕ}

theorem eq_chained_of_mem_replicate : ∀ x ∈ List.replicate c Drain.chained,
    x = .chained ∨ x = .rejected :=
  fun _ hx => Or.inl (List.eq_of_mem_replicate hx)

/-- Behind a promise that is rejected nothing runs. -/
theorem atRest_of_rejected {rest : List Drain}
    (h : q.drains = List.replicate d .fulfilled ++ .rejected :: rest)
    (hrest : ∀ x ∈ rest, x = .chained ∨ x = .rejected) : AtRest q := by
  constructor
  · intro k r hk
    cases (SettlementQueue.eq_of_emitting h hrest hk).2
  · intro k hready
    have hno : Drain.fulfilled ∉ .rejected :: rest := by
      intro hmem
      obtain heq | hmem := List.mem_cons.1 hmem
      · cases heq
      · obtain heq | heq := hrest _ hmem <;> cases heq
    cases ((SettlementQueue.ready_iff h hno).1 hready).2

theorem RowsInv.inOrder (h : RowsInv q done e) : q.emits <+: List.range q.rows.length := by
  rw [h.emits]
  obtain ⟨m, hm⟩ := Nat.exists_eq_add_of_le h.le_length
  rw [hm, List.range_add]
  exact List.prefix_append _ _

theorem RowsInv.oneActive (h : RowsInv q done e) : ∀ i j row row', q.row? i = some row →
    q.row? j = some row' → row.Active → row'.Active → row.missionId = row'.missionId → i = j := by
  intro i j row row' hi hj hrow hrow' heq
  have hmission := h.mission i row hi hrow
  rw [heq, h.mission j row' hj hrow'] at hmission
  exact (Option.some.inj hmission).symm

theorem fulfilled_notMem_replicate (c : ℕ) : Drain.fulfilled ∉ List.replicate c .chained := by
  intro h
  cases List.eq_of_mem_replicate h

/-- A queue that looks so is disciplined. -/
theorem QueueInv.disciplined (h : QueueInv q) : Disciplined q := by
  cases h with
  | between d c done rows fifo drains more =>
      have hno : ∀ k r : ℕ, q.drains[k]? ≠ some (Drain.emitting r) := by
        intro k r hk
        rw [drains] at hk
        obtain hmem | hmem := List.mem_append.1 (List.mem_of_getElem? hk) <;>
          cases List.eq_of_mem_replicate hmem
      refine ⟨fun j k r r' hj _ => absurd hj (hno j r), rows.inOrder, ?_, rows.oneActive⟩
      rintro ⟨-, hready⟩
      have hc : c = 0 := by
        by_contra hc
        obtain ⟨m, rfl⟩ := Nat.exists_eq_succ_of_ne_zero hc
        exact hready d ((SettlementQueue.ready_iff drains (fulfilled_notMem_replicate _)).2
          ⟨rfl, rfl⟩)
      have hlength : done = q.rows.length := by
        have hle := rows.le_length
        by_contra hne
        have hpos := more (by omega)
        omega
      rw [rows.emits, hlength]
  | emitting d c done rows fifo drains =>
      have hone : ∀ k r : ℕ, q.drains[k]? = some (Drain.emitting r) → k = d := by
        intro k r hk
        exact (SettlementQueue.eq_of_emitting drains eq_chained_of_mem_replicate hk).1
      refine ⟨fun j k r r' hj hk => (hone j r hj).trans (hone k r' hk).symm, rows.inOrder, ?_,
        rows.oneActive⟩
      rintro ⟨hno, -⟩
      refine absurd ?_ (hno d done)
      rw [SettlementQueue.getElem?_drains_of_le drains le_rfl, Nat.sub_self]
      rfl
  | broken d rest rows drains rest_chained =>
      have hrest := (atRest_of_rejected drains rest_chained).1
      exact ⟨fun j k r r' hj _ => absurd hj (hrest j r), rows.inOrder, fun _ => rows.emits,
        rows.oneActive⟩

/-! ### What a call does -/

theorem of_row?_modify {f : QueuedSettlement → QueuedSettlement} {r j : ℕ} {row : QueuedSettlement}
    (h : (q.rows.modify r f)[j]? = some row) :
    ∃ before, q.row? j = some before ∧ row = if r = j then f before else before := by
  rw [List.getElem?_modify] at h
  obtain ⟨before, hbefore, rfl⟩ := Option.map_eq_some_iff.1 h
  exact ⟨before, hbefore, rfl⟩

/-- The next row is emitted. -/
theorem RowsInv.emit (h : RowsInv q done done) (hlt : done < q.rows.length) (fifo : List ℕ)
    (drains : List Drain) :
    RowsInv { q with
      fifo := fifo
      rows := q.rows.modify done fun row => { row with status := .processing }
      drains := drains
      emits := q.emits ++ [done] } done (done + 1) := by
  refine ⟨?_, Nat.le_succ _, ?_, ?_, ?_, ?_, ?_⟩
  · show q.emits ++ [done] = List.range (done + 1)
    rw [h.emits, List.range_succ]
  · show done + 1 ≤ (q.rows.modify done _).length
    rw [List.length_modify]
    exact hlt
  · intro j row hrow hj
    obtain ⟨before, hbefore, rfl⟩ := of_row?_modify hrow
    rw [if_neg (by omega)]
    exact h.finished j before hbefore hj
  · intro j row hrow hj hj'
    obtain ⟨before, hbefore, rfl⟩ := of_row?_modify hrow
    rw [if_pos (by omega)]
  · intro j row hrow hj
    obtain ⟨before, hbefore, rfl⟩ := of_row?_modify hrow
    rw [if_neg (by omega)]
    exact h.waiting j before hbefore (by omega)
  · intro j row hrow hactive
    obtain ⟨before, hbefore, rfl⟩ := of_row?_modify hrow
    by_cases hj : done = j
    · subst hj
      rw [if_pos rfl]
      exact h.mission done before hbefore (Or.inl (h.waiting done before hbefore le_rfl))
    · rw [if_neg hj] at hactive ⊢
      exact h.mission j before hbefore hactive

/-- The emit that is in flight is answered. -/
theorem RowsInv.note (h : RowsInv q done (done + 1)) {f : QueuedSettlement → QueuedSettlement}
    (hf : ∀ row, ¬ (f row).Active) : RowsInv (q.note done f) (done + 1) (done + 1) := by
  refine ⟨h.emits, le_rfl, ?_, ?_, ?_, ?_, ?_⟩
  · show done + 1 ≤ (q.rows.modify done f).length
    rw [List.length_modify]
    exact h.le_length
  · intro j row hrow hj
    obtain ⟨before, hbefore, rfl⟩ := of_row?_modify hrow
    by_cases hdone : done = j
    · rw [if_pos hdone]
      exact hf before
    · rw [if_neg hdone]
      exact h.finished j before hbefore (by omega)
  · intro j row _ hj hj'
    omega
  · intro j row hrow hj
    obtain ⟨before, hbefore, rfl⟩ := of_row?_modify hrow
    rw [if_neg (by omega)]
    exact h.waiting j before hbefore hj
  · intro j row hrow hactive
    obtain ⟨before, hbefore, rfl⟩ := of_row?_modify hrow
    by_cases hdone : done = j
    · rw [if_pos hdone] at hactive
      exact absurd hactive (hf before)
    · rw [if_neg hdone] at hactive ⊢
      exact h.mission j before hbefore hactive

/-- **What a call does**: it emits the next row, or there is none and its promise is fulfilled. -/
theorem QueueInv.drainLoop {x : Drain} (h : RowsInv q done done)
    (hdrains : q.drains = List.replicate d .fulfilled ++ x :: List.replicate c .chained) :
    QueueInv (q.drainLoop d (unanswered q done)) := by
  by_cases hlt : done < q.rows.length
  · have hlist : unanswered q done =
        done :: List.range' (done + 1) (q.rows.length - (done + 1)) := by
      rw [unanswered, show q.rows.length - done = q.rows.length - (done + 1) + 1 by omega,
        List.range'_succ]
    obtain ⟨row, hrow⟩ : ∃ row, q.row? done = some row := ⟨_, List.getElem?_eq_getElem hlt⟩
    have hqueued := h.waiting done row hrow le_rfl
    rw [hlist, SettlementQueue.drainLoop, if_pos (by simp [hrow, hqueued]), ← hlist]
    refine .emitting d c done (h.emit hlt _ _) ?_ (SettlementQueue.set_drains hdrains _)
    show unanswered q done = List.range' done ((q.rows.modify done _).length - done)
    rw [List.length_modify]
    rfl
  · have hlength : done = q.rows.length := by
      have hle := h.le_length
      omega
    have hlist : unanswered q done = [] := by
      rw [unanswered, hlength, Nat.sub_self]
      rfl
    rw [hlist, SettlementQueue.drainLoop]
    refine .between (d + 1) c done ⟨h.emits, h.done_le, h.le_length, h.finished, h.processing,
      h.waiting, h.mission⟩ hlist.symm ?_ fun hlt' => absurd hlt' hlt
    show q.drains.set d .fulfilled = _
    rw [SettlementQueue.set_drains hdrains, List.replicate_succ', List.append_assoc]
    rfl

/-! ### What is accepted -/

theorem pending_eq_none_of_finished (h : ∀ j row, q.row? j = some row → ¬ row.Active) (m : Str) :
    q.pending m = none := by
  rw [SettlementQueue.pending, Option.filter_eq_none_iff]
  intro r _ hactive
  obtain ⟨row, hrow, hrow'⟩ := (Option.any_eq_true _ _).1 hactive
  exact h r row hrow (of_decide_eq_true hrow')

/-- A row that is active and found under its mission keeps other rows of the mission out. -/
theorem ne_of_pending {m : Str} (hpending : q.pending m = none) {j : ℕ} {row : QueuedSettlement}
    (hrow : q.row? j = some row) (hactive : row.Active)
    (hmission : q.byMission.get? row.missionId = some j) : row.missionId ≠ m := by
  rintro rfl
  rw [SettlementQueue.pending, hmission, Option.filter_eq_none_iff] at hpending
  refine hpending j rfl ?_
  rw [hrow]
  exact decide_eq_true hactive

/-- The rows when one more is accepted. -/
theorem row?_of_accept {new : QueuedSettlement} (hrows : q'.rows = q.rows ++ [new]) {i : ℕ}
    {row : QueuedSettlement} (hrow : q'.row? i = some row) :
    q.row? i = some row ∧ i < q.rows.length ∨ i = q.rows.length ∧ row = new := by
  rw [SettlementQueue.row?, hrows] at hrow
  obtain hlt | hge := Nat.lt_or_ge i q.rows.length
  · rw [List.getElem?_append_left hlt] at hrow
    exact Or.inl ⟨hrow, hlt⟩
  · rw [List.getElem?_append_right hge] at hrow
    obtain ⟨hi, hrow⟩ := List.getElem?_eq_some_iff.1 hrow
    rw [List.length_singleton] at hi
    exact Or.inr ⟨by omega, by simpa using hrow.symm⟩

/-- A row is accepted. -/
theorem RowsInv.accept (h : RowsInv q done e) {m : Str} (hpending : q.pending m = none)
    (manifest : RewardManifestRecord) (now : ℕ) (fifo : List ℕ) (drains : List Drain) :
    RowsInv { q with
      rows := q.rows ++ [⟨m, manifest, .queued, none, none, now⟩]
      byMission := q.byMission.set m q.rows.length
      fifo := fifo
      drains := drains } done e := by
  have hsplit : ∀ j row, (q.rows ++ [⟨m, manifest, .queued, none, none, now⟩])[j]? = some row →
      q.row? j = some row ∧ j < q.rows.length ∨
        j = q.rows.length ∧ row = ⟨m, manifest, .queued, none, none, now⟩ := by
    intro j row hrow
    exact @row?_of_accept q { q with rows := q.rows ++ [_] } _ rfl _ _ hrow
  have hle := h.le_length
  have hdone := h.done_le
  refine ⟨h.emits, h.done_le, ?_, ?_, ?_, ?_, ?_⟩
  · show e ≤ (q.rows ++ [_]).length
    rw [List.length_append]
    omega
  · intro j row hrow hj
    obtain ⟨hold, -⟩ | ⟨rfl, -⟩ := hsplit j row hrow
    · exact h.finished j row hold hj
    · omega
  · intro j row hrow hj hj'
    obtain ⟨hold, -⟩ | ⟨rfl, -⟩ := hsplit j row hrow
    · exact h.processing j row hold hj hj'
    · omega
  · intro j row hrow hj
    obtain ⟨hold, -⟩ | ⟨-, rfl⟩ := hsplit j row hrow
    · exact h.waiting j row hold hj
    · rfl
  · intro j row hrow hactive
    show (q.byMission.set m q.rows.length).get? row.missionId = some j
    obtain ⟨hold, -⟩ | ⟨rfl, rfl⟩ := hsplit j row hrow
    · have hmission := h.mission j row hold hactive
      have hother := ne_of_pending hpending hold hactive hmission
      rw [OrderedMap.get?_set, if_neg hother]
      exact hmission
    · rw [OrderedMap.get?_set_self]

theorem unanswered_accept (hle : done ≤ q.rows.length) {row : QueuedSettlement} :
    unanswered { q with rows := q.rows ++ [row] } done = unanswered q done ++ [q.rows.length] := by
  have hlength : q.rows.length + 1 - done = q.rows.length - done + 1 := by omega
  rw [unanswered, unanswered, List.length_append, List.length_singleton, hlength,
    List.range'_concat]
  simp only [Nat.one_mul, List.append_cancel_left_eq, List.cons.injEq, and_true]
  omega

/-! ### The discipline -/

/-- A move that does not leave a row behind a promise that is rejected: no row waits when noting
what was thrown throws as well, and none is accepted later. -/
def Harmless (q : SettlementQueue) : QueueMove → Prop
  | .enqueue _ _ _ => .rejected ∉ q.drains
  | .react _ => True
  | .resolve _ _ => True
  | .reject _ thrown => thrown.text = none → q.fifo.length ≤ 1

instance (q : SettlementQueue) (mv : QueueMove) : Decidable (Harmless q mv) := by
  cases mv <;> unfold Harmless <;> infer_instance

/-- An emit that is in flight, in a queue that looks so. -/
theorem QueueInv.of_emitting (h : QueueInv q) {k r : ℕ}
    (hk : q.drains[k]? = some (Drain.emitting r)) :
    ∃ c, RowsInv q r (r + 1) ∧ q.fifo = unanswered q r ∧
      q.drains = List.replicate k .fulfilled ++ .emitting r :: List.replicate c .chained := by
  cases h with
  | between d c done rows fifo drains more =>
      rw [drains] at hk
      obtain hmem | hmem := List.mem_append.1 (List.mem_of_getElem? hk) <;>
        cases List.eq_of_mem_replicate hmem
  | emitting d c done rows fifo drains =>
      obtain ⟨rfl, heq⟩ := SettlementQueue.eq_of_emitting drains eq_chained_of_mem_replicate hk
      obtain rfl := Drain.emitting.inj heq
      exact ⟨c, rows, fifo, drains⟩
  | broken d rest rows drains rest_chained =>
      cases (SettlementQueue.eq_of_emitting drains rest_chained hk).2

/-- A promise that is rejected, in a queue that looks so. -/
theorem QueueInv.of_rejected (h : QueueInv q) (hrejected : .rejected ∈ q.drains) :
    ∃ d rest, RowsInv q q.rows.length q.rows.length ∧
      q.drains = List.replicate d .fulfilled ++ .rejected :: rest ∧
      ∀ x ∈ rest, x = .chained ∨ x = .rejected := by
  cases h with
  | between d c done rows fifo drains more =>
      rw [drains] at hrejected
      obtain hmem | hmem := List.mem_append.1 hrejected <;> cases List.eq_of_mem_replicate hmem
  | emitting d c done rows fifo drains =>
      rw [drains] at hrejected
      obtain hmem | hmem := List.mem_append.1 hrejected
      · cases List.eq_of_mem_replicate hmem
      · obtain heq | hmem := List.mem_cons.1 hmem
        · cases heq
        · cases List.eq_of_mem_replicate hmem
  | broken d rest rows drains rest_chained => exact ⟨d, rest, rows, drains, rest_chained⟩

theorem tail_unanswered : (unanswered q done).tail = unanswered q (done + 1) := by
  rw [unanswered, List.tail_range', unanswered, Nat.sub_sub]

/-- An emit is answered, and its call goes on. -/
theorem QueueInv.answer (h : QueueInv q) {k r : ℕ}
    (hk : q.drains[k]? = some (Drain.emitting r)) {f : QueuedSettlement → QueuedSettlement}
    (hf : ∀ row, ¬ (f row).Active) :
    QueueInv ((q.note r f).drainLoop k (q.note r f).fifo.tail) := by
  obtain ⟨c, rows, fifo, drains⟩ := h.of_emitting hk
  have htail : (q.note r f).fifo.tail = unanswered (q.note r f) (r + 1) := by
    show q.fifo.tail = List.range' (r + 1) ((q.rows.modify r f).length - (r + 1))
    rw [fifo, tail_unanswered, List.length_modify]
    rfl
  rw [htail]
  exact QueueInv.drainLoop (rows.note hf) drains

theorem not_active_settled {row : QueuedSettlement}
    (h : row.status = .settled ∨ row.status = .failed) : ¬ row.Active := by
  rintro (hq | hp)
  · rw [hq] at h
    obtain h | h := h <;> cases h
  · rw [hp] at h
    obtain h | h := h <;> cases h

theorem QueueInv.enqueue (h : QueueInv q) (hno : .rejected ∉ q.drains) (m : Str)
    (manifest : RewardManifestRecord) (now : ℕ) : QueueInv (q.enqueue m manifest now) := by
  rw [SettlementQueue.enqueue]
  split
  · exact h
  · rename_i hpending
    have hpending := Option.not_isSome_iff_eq_none.1 hpending
    cases h with
    | between d c done rows fifo drains more =>
        refine .between d (c + 1) done (rows.accept hpending _ _ _ _) ?_ ?_ fun _ => Nat.succ_pos c
        · show q.fifo ++ [q.rows.length] = _
          rw [fifo, ← unanswered_accept rows.le_length]
          rfl
        · show q.drains ++ [.chained] = _
          rw [drains, List.append_assoc, ← List.replicate_succ']
    | emitting d c done rows fifo drains =>
        refine .emitting d (c + 1) done (rows.accept hpending _ _ _ _) ?_ ?_
        · show q.fifo ++ [q.rows.length] = _
          rw [fifo, ← unanswered_accept (rows.done_le.trans rows.le_length)]
          rfl
        · show q.drains ++ [.chained] = _
          rw [drains, List.append_assoc, List.cons_append, ← List.replicate_succ']
    | broken d rest rows drains rest_chained =>
        refine absurd ?_ hno
        rw [drains]
        exact List.mem_append_right _ List.mem_cons_self

/-- Behind a promise that is rejected, one promise more is rejected. -/
theorem set_rejected {k : ℕ} {rest : List Drain}
    (hdrains : q.drains = List.replicate d .fulfilled ++ .rejected :: rest)
    (hrest : ∀ x ∈ rest, x = .chained ∨ x = .rejected)
    (hchained : q.drains[k]? = some Drain.chained) :
    ∃ rest', q.drains.set k .rejected = List.replicate d .fulfilled ++ .rejected :: rest' ∧
      ∀ x ∈ rest', x = .chained ∨ x = .rejected := by
  have hk : d < k := by
    by_contra hle
    obtain hlt | rfl : k < d ∨ k = d := by omega
    · rw [SettlementQueue.getElem?_drains_of_lt hdrains hlt] at hchained
      cases hchained
    · rw [SettlementQueue.getElem?_drains_of_le hdrains le_rfl, Nat.sub_self] at hchained
      cases hchained
  obtain ⟨m, rfl⟩ : ∃ m, k = d + 1 + m := Nat.exists_eq_add_of_le hk
  refine ⟨rest.set m .rejected, ?_, ?_⟩
  · rw [hdrains, List.set_append_right _ _ (by simp; omega), List.length_replicate,
      show d + 1 + m - d = m + 1 by omega]
    rfl
  · intro x hx
    obtain hmem | rfl := List.mem_or_eq_of_mem_set hx
    · exact hrest x hmem
    · exact Or.inr rfl

theorem QueueInv.react (h : QueueInv q) {k : ℕ} (hstep : queueStep q (.react k) = some q') :
    QueueInv q' := by
  rw [queueStep] at hstep
  by_cases hready : q.Ready k
  · rw [if_pos hready] at hstep
    obtain rfl := Option.some.inj hstep
    cases h with
    | between d c done rows fifo drains more =>
        obtain ⟨rfl, hhead⟩ :=
          (SettlementQueue.ready_iff drains (fulfilled_notMem_replicate c)).1 hready
        cases c with
        | zero => cases hhead
        | succ c =>
            rw [fifo]
            exact QueueInv.drainLoop rows drains
    | emitting d c done rows fifo drains =>
        have hno : Drain.fulfilled ∉ .emitting done :: List.replicate c .chained := by
          intro hmem
          obtain heq | hmem := List.mem_cons.1 hmem
          · cases heq
          · exact fulfilled_notMem_replicate c hmem
        cases ((SettlementQueue.ready_iff drains hno).1 hready).2
    | broken d rest rows drains rest_chained =>
        exact absurd hready ((atRest_of_rejected drains rest_chained).2 k)
  · rw [if_neg hready, Option.ite_none_right_eq_some] at hstep
    obtain ⟨⟨hchained, htail⟩, hstep⟩ := hstep
    obtain rfl := Option.some.inj hstep
    have hrejected : Drain.rejected ∈ q.drains := by
      cases k with
      | zero => cases htail
      | succ k => exact List.mem_of_getElem? htail
    obtain ⟨d, rest, rows, drains, rest_chained⟩ := h.of_rejected hrejected
    obtain ⟨rest', hset, hrest'⟩ := set_rejected drains rest_chained hchained
    exact .broken d rest' ⟨rows.emits, rows.done_le, rows.le_length, rows.finished,
      rows.processing, rows.waiting, rows.mission⟩ hset hrest'

/-- An emit is rejected, and noting it throws. -/
theorem RowsInv.reject (h : RowsInv q done (done + 1)) (hlength : done + 1 = q.rows.length)
    (drains : List Drain) {f : QueuedSettlement → QueuedSettlement} (hf : ∀ row, ¬ (f row).Active) :
    RowsInv { q.note done f with drains := drains }
      ({ q.note done f with drains := drains } : SettlementQueue).rows.length
      ({ q.note done f with drains := drains } : SettlementQueue).rows.length := by
  have hnote := h.note hf
  have hrows : (q.rows.modify done f).length = done + 1 := by
    rw [List.length_modify, hlength]
  show RowsInv { q.note done f with drains := drains } (q.rows.modify done f).length
    (q.rows.modify done f).length
  rw [hrows]
  exact ⟨hnote.emits, hnote.done_le, hnote.le_length, hnote.finished, hnote.processing,
    hnote.waiting, hnote.mission⟩

/-- **A harmless move leaves the queue as it should look.** -/
theorem QueueInv.step {mv : QueueMove} (h : QueueInv q) (hmv : Harmless q mv)
    (hstep : queueStep q mv = some q') : QueueInv q' := by
  cases mv with
  | enqueue m manifest now =>
      obtain rfl := Option.some.inj hstep
      exact h.enqueue hmv m manifest now
  | react k => exact h.react hstep
  | resolve k hash =>
      rw [queueStep] at hstep
      split at hstep
      · rename_i r hk
        obtain rfl := Option.some.inj hstep
        exact h.answer hk fun row => not_active_settled (Or.inl rfl)
      · cases hstep
  | reject k thrown =>
      rw [queueStep] at hstep
      split at hstep
      · rename_i r hk
        split at hstep
        · obtain rfl := Option.some.inj hstep
          exact h.answer hk fun row => not_active_settled (Or.inr rfl)
        · rename_i htext
          obtain rfl := Option.some.inj hstep
          obtain ⟨c, rows, fifo, drains⟩ := h.of_emitting hk
          have hone := hmv htext
          rw [fifo, unanswered, List.length_range'] at hone
          have hlength : r + 1 = q.rows.length := by
            have hle := rows.le_length
            omega
          exact .broken k (List.replicate c .chained)
            (rows.reject hlength _ fun row => not_active_settled (Or.inr rfl))
            (SettlementQueue.set_drains drains _) eq_chained_of_mem_replicate
      · cases hstep

/-- A move that is not harmless leaves a row that is never emitted. -/
theorem not_disciplined_of_not_harmless {mv : QueueMove} (h : QueueInv q) (hmv : ¬ Harmless q mv)
    (hstep : queueStep q mv = some q') : ¬ Disciplined q' := by
  intro hdisciplined
  cases mv with
  | enqueue m manifest now =>
      obtain rfl := Option.some.inj hstep
      obtain ⟨d, rest, rows, drains, rest_chained⟩ := h.of_rejected (not_not.1 hmv)
      have hpending : q.pending m = none := by
        refine pending_eq_none_of_finished (fun j row hrow => rows.finished j row hrow ?_) m
        exact (List.getElem?_eq_some_iff.1 hrow).1
      have haccepted : (q.enqueue m manifest now).drains =
          List.replicate d .fulfilled ++ .rejected :: (rest ++ [.chained]) := by
        rw [SettlementQueue.enqueue, hpending]
        show q.drains ++ [.chained] = _
        rw [drains, List.append_assoc]
        rfl
      have hall := hdisciplined.allEmitted (atRest_of_rejected haccepted fun x hx => by
        obtain hmem | hmem := List.mem_append.1 hx
        · exact rest_chained x hmem
        · exact Or.inl (List.mem_singleton.1 hmem))
      rw [SettlementQueue.enqueue, hpending] at hall
      have hlength := congrArg List.length hall
      simp [rows.emits] at hlength
  | react k => exact hmv trivial
  | resolve k hash => exact hmv trivial
  | reject k thrown =>
      obtain ⟨htext, hwaiting⟩ := Classical.not_imp.1 hmv
      rw [queueStep] at hstep
      split at hstep
      · rename_i r hk
        rw [htext] at hstep
        obtain rfl := Option.some.inj hstep
        obtain ⟨c, rows, fifo, drains⟩ := h.of_emitting hk
        rw [fifo, unanswered, List.length_range'] at hwaiting
        have hall := hdisciplined.allEmitted (atRest_of_rejected
          (SettlementQueue.set_drains drains .rejected) eq_chained_of_mem_replicate)
        have hlength : (q.emits).length = (List.range (q.rows.modify r _).length).length :=
          congrArg List.length hall
        rw [rows.emits, List.length_range, List.length_range, List.length_modify] at hlength
        omega
      · cases hstep

/-- **When the queue is disciplined**: all along a run, exactly if no emit is rejected with a value
that cannot be turned into a string while another row waits, or before another row is accepted. -/
theorem queue_disciplined_iff {mvs : List QueueMove} (h : run queueStep .new mvs = some q) :
    (∀ p q', p <+: mvs → run queueStep .new p = some q' → Disciplined q') ↔
      Along queueStep Harmless .new mvs :=
  always_iff_along_of_run (I := QueueInv) (fun _ h => h.disciplined)
    (fun _ _ _ h hmv hstep => h.step hmv hstep)
    (fun _ _ _ h hmv hstep => not_disciplined_of_not_harmless h hmv hstep) queueInv_new h

/-! ### Two missions -/

def manifestOf (missionId : Str) : RewardManifestRecord :=
  ⟨missionId, .complete, lit "0", 0, [], lit "", lit "", 0, lit "", lit "", lit "", 0⟩

/-- Two missions are settled, and the emit of the second one fails. -/
def twoMissions : List QueueMove :=
  [.enqueue (lit "a") (manifestOf (lit "a")) 0, .react 0,
    .enqueue (lit "b") (manifestOf (lit "b")) 1, .resolve 0 (lit "tx-a"),
    .reject 0 (.error (lit "bridge_down")), .react 1]

theorem queue_disciplined_iff_twoMissions : ∃ q, run queueStep .new twoMissions = some q ∧
    ∀ p q', p <+: twoMissions → run queueStep .new p = some q' → Disciplined q' := by
  obtain ⟨q, hq⟩ : ∃ q, run queueStep .new twoMissions = some q :=
    Option.isSome_iff_exists.1 (by decide +kernel)
  exact ⟨q, hq, (queue_disciplined_iff hq).2 (by decide +kernel)⟩

/-- The emit of `a` is rejected with an object that has no text while `b` waits. -/
def withoutText : List QueueMove :=
  [.enqueue (lit "a") (manifestOf (lit "a")) 0, .react 0,
    .enqueue (lit "b") (manifestOf (lit "b")) 1, .reject 0 (.value none)]

/-- The row of `b` is never emitted. -/
theorem row_behind_withoutText : ∃ q, run queueStep .new withoutText = some q ∧ AtRest q ∧
    q.emits = [0] ∧ q.rows.length = 2 ∧ ¬ Disciplined q := by
  obtain ⟨q, hq⟩ : ∃ q, run queueStep .new withoutText = some q :=
    Option.isSome_iff_exists.1 (by decide +kernel)
  have hfacts : ∀ q ∈ run queueStep .new withoutText,
      q.drains = [.rejected, .chained] ∧ q.emits = [0] ∧ q.rows.length = 2 := by decide +kernel
  obtain ⟨hdrains, hemits, hlength⟩ := hfacts q hq
  have hrest : AtRest q := by
    refine atRest_of_rejected (d := 0) hdrains fun x hx => ?_
    exact Or.inl (List.mem_singleton.1 hx)
  refine ⟨q, hq, hrest, hemits, hlength, fun hdisciplined => ?_⟩
  have hall := hdisciplined.allEmitted hrest
  rw [hemits, hlength] at hall
  cases hall

end Settlement
