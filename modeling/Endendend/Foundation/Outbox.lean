/-
**Changes that wait to be handed out.**

A store remembers which of its keys were written since they were last handed out, in the order of
the writes.  Handing out takes keys from the front and gives away what is stored under them.

Main definitions:

* `Outbox` — what is stored, and the keys that wait;
* `Outbox.write`, `Outbox.flush`, `Outbox.handOver` — a write, the keys that are left after handing
  out, and what has been handed out by then;
* `Outbox.Writes` — any number of writes;
* `Outbox.Tracks` — the invariant: whatever differs from what was last handed out waits.

Main results:

* `Outbox.Tracks.writes`, `Outbox.Tracks.flush` — **no change is lost**;
* `Outbox.Tracks.nodup_take` — what is handed out at once is handed out once;
* `Outbox.mem_take_write_iff` — when a write is handed out the next time;
* `Outbox.waiting_flushes` — handing out again and again leaves nothing.
-/
import Endendend.Foundation.OrderedMap
import Mathlib.Logic.Function.Basic
import Mathlib.Logic.Relation

set_option relaxedAutoImplicit false
set_option autoImplicit false

/-- What is stored, and the keys that wait to be handed out. -/
structure Outbox (κ ν : Type*) where
  held : κ → Option ν
  waiting : List κ

namespace Outbox

variable {κ ν : Type*} [DecidableEq κ]

/-- Stores a value; its key waits from now on. -/
def write (o : Outbox κ ν) (k : κ) (v : ν) : Outbox κ ν where
  held := Function.update o.held k (some v)
  waiting := Js.setAdd o.waiting k

/-- The keys that are left after handing out up to `n`. -/
def flush (o : Outbox κ ν) (n : ℕ) : Outbox κ ν := { o with waiting := o.waiting.drop n }

/-- What has been handed out after handing out up to `n` keys. -/
def handOver (o : Outbox κ ν) (n : ℕ) (handed : κ → Option ν) (k : κ) : Option ν :=
  if k ∈ o.waiting.take n then o.held k else handed k

/-- Any number of writes. -/
def Writes : Outbox κ ν → Outbox κ ν → Prop :=
  Relation.ReflTransGen fun o o' => ∃ k v, o' = o.write k v

/-- **The invariant**: the keys that wait are distinct and have a value, and every key whose value
is not the one that was last handed out waits. -/
structure Tracks (o : Outbox κ ν) (handed : κ → Option ν) : Prop where
  nodup : o.waiting.Nodup
  stored : ∀ k ∈ o.waiting, (o.held k).isSome
  covers : ∀ k, o.held k ≠ handed k → k ∈ o.waiting

omit [DecidableEq κ] in
/-- Nothing has to wait where nothing is stored. -/
theorem tracks_empty : Tracks (⟨fun _ => none, []⟩ : Outbox κ ν) fun _ => none :=
  ⟨List.nodup_nil, fun _ h => absurd h List.not_mem_nil, fun _ h => absurd rfl h⟩

theorem Writes.single (o : Outbox κ ν) (k : κ) (v : ν) : Writes o (o.write k v) :=
  Relation.ReflTransGen.single ⟨k, v, rfl⟩

theorem handOver_of_mem {o : Outbox κ ν} {n : ℕ} {handed : κ → Option ν} {k : κ}
    (h : k ∈ o.waiting.take n) : o.handOver n handed k = o.held k := if_pos h

theorem handOver_of_notMem {o : Outbox κ ν} {n : ℕ} {handed : κ → Option ν} {k : κ}
    (h : k ∉ o.waiting.take n) : o.handOver n handed k = handed k := if_neg h

/-- **A key that has just been written is among the next `n`** exactly if fewer than `n` keys wait
before it; one that did not wait goes to the end. -/
theorem mem_take_write_iff [BEq κ] [LawfulBEq κ] {o : Outbox κ ν} {k : κ} {v : ν} {n : ℕ} :
    k ∈ (o.write k v).waiting.take n ↔ o.waiting.idxOf k < n := by
  have hmem : k ∈ Js.setAdd o.waiting k := Js.mem_setAdd.2 (Or.inr rfl)
  have hidx : (Js.setAdd o.waiting k).idxOf k = o.waiting.idxOf k := by
    unfold Js.setAdd
    split
    · rfl
    · next hk => rw [List.idxOf_append_of_notMem hk, List.idxOf_cons_self, List.idxOf_of_notMem hk,
        Nat.add_zero]
  rw [Outbox.write, List.mem_take_iff_idxOf_lt hmem, hidx]

section Tracking

variable {o o' : Outbox κ ν} {handed : κ → Option ν}

theorem Tracks.write (h : Tracks o handed) (k : κ) (v : ν) : Tracks (o.write k v) handed := by
  refine ⟨Js.nodup_setAdd h.nodup, fun k' hk' => ?_, fun k' hk' => ?_⟩
  · by_cases hk : k' = k
    · simp [Outbox.write, hk]
    · have hwaits : k' ∈ o.waiting := (Js.mem_setAdd.1 hk').resolve_right hk
      simpa [Outbox.write, hk] using h.stored k' hwaits
  · by_cases hk : k' = k
    · exact Js.mem_setAdd.2 (Or.inr hk)
    · have hheld : o.held k' ≠ handed k' := by simpa [Outbox.write, hk] using hk'
      exact Js.mem_setAdd.2 (Or.inl (h.covers k' hheld))

/-- **Writes lose no change.** -/
theorem Tracks.writes (h : Tracks o handed) (hw : Writes o o') : Tracks o' handed := by
  induction hw with
  | refl => exact h
  | tail _ hstep ih =>
      obtain ⟨k, v, rfl⟩ := hstep
      exact ih.write k v

/-- **Handing out loses no change.** -/
theorem Tracks.flush (h : Tracks o handed) (n : ℕ) :
    Tracks (o.flush n) (o.handOver n handed) := by
  refine ⟨h.nodup.sublist (List.drop_sublist n _),
    fun k hk => h.stored k (List.mem_of_mem_drop hk), fun k hk => ?_⟩
  unfold handOver at hk
  split at hk
  · exact absurd rfl hk
  · next htake =>
      -- a key that was not handed out has stayed among the others
      have hwaits := h.covers k hk
      rw [← List.take_append_drop n o.waiting] at hwaits
      exact (List.mem_append.1 hwaits).resolve_left htake

omit [DecidableEq κ] in
/-- What is handed out at once is handed out once. -/
theorem Tracks.nodup_take (h : Tracks o handed) (n : ℕ) : (o.waiting.take n).Nodup :=
  h.nodup.sublist (List.take_sublist n _)

end Tracking

omit [DecidableEq κ] in
/-- Taking the first keys of a list out of it leaves the others. -/
theorem filter_notMem_take {l : List κ} (h : l.Nodup) {n : ℕ} {p : κ → Bool}
    (hp : ∀ k, p k = true ↔ k ∉ l.take n) : l.filter p = l.drop n := by
  have hdisj : List.Disjoint (l.take n) (l.drop n) := by
    rw [← List.take_append_drop n l] at h
    exact (List.nodup_append'.1 h).2.2
  have htake : (l.take n).filter p = [] :=
    List.filter_eq_nil_iff.2 fun k hk hpk => (hp k).1 hpk hk
  have hdrop : (l.drop n).filter p = l.drop n :=
    List.filter_eq_self.2 fun k hk => (hp k).2 fun htk => hdisj htk hk
  calc l.filter p
    _ = (l.take n).filter p ++ (l.drop n).filter p := by
        rw [← List.filter_append, List.take_append_drop]
    _ = l.drop n := by rw [htake, hdrop, List.nil_append]

omit [DecidableEq κ] in
/-- **Handing out again and again leaves nothing**, as soon as it has been done as often as keys
wait, with room for one key or more each time. -/
theorem waiting_flushes {o : Outbox κ ν} {ns : List ℕ} (hns : ∀ n ∈ ns, 1 ≤ n)
    (hlen : o.waiting.length ≤ ns.length) : (ns.foldl flush o).waiting = [] := by
  induction ns generalizing o with
  | nil => exact List.length_eq_zero_iff.1 (Nat.le_zero.1 hlen)
  | cons n ns ih =>
      refine ih (fun m hm => hns m (List.mem_cons_of_mem _ hm)) ?_
      have hn : 1 ≤ n := hns n List.mem_cons_self
      simp only [flush, List.length_drop]
      rw [List.length_cons] at hlen
      omega

end Outbox
