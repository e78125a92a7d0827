/-
**Gossiped clocks and suspected partitions** (`mesh_survival/networking/partition_detector.py`,
`mesh_survival/validation/partition_sim.py`).

A node counts its own events and takes over the greatest count of every node that it hears of.
Clocks are sent around as they are; they may get lost, come in twice or out of order.  Two clocks
are held apart by the sum of their differences, and a partition is suspected when that is more than
a threshold.

Main definitions:

* `MeshSurvival.GossipClock`, with `tickLocal`, `observe` and `mergeFinal`;
* `MeshSurvival.PartitionDetector.clockDivergence`, `MeshSurvival.PartitionDetector.status`;
* `MeshSurvival.GossipWorld`, `MeshSurvival.gossipStep` — nodes that count, send and hear.

Main results:

* `MeshSurvival.count_observe` — hearing a clock is taking the greater counts;
* `MeshSurvival.knownInv_run` — **no clock is ahead of the nodes, and a node knows its own count**;
* `MeshSurvival.divergence_bounds` — **how far two clocks are apart, in events not heard of**;
* `MeshSurvival.status_two_nodes` — where only two nodes count, the divergence is the number of
  events that either has not heard of;
* `MeshSurvival.healthy_after_exchange` — after an exchange no partition is suspected.
-/
import Endendend.Foundation.OrderedMap
import Endendend.Foundation.Runs
import Endendend.Foundation.Text
import Mathlib.Algebra.Order.BigOperators.Group.Finset
import Mathlib.Algebra.Order.Group.Abs
import Mathlib.Algebra.Order.Group.Int
import Mathlib.Data.Finset.Basic
import Mathlib.Logic.Function.Basic

set_option relaxedAutoImplicit false
set_option autoImplicit false

namespace MeshSurvival

open Js (Str OrderedMap lit)
open Runs

variable {Id : Type*} [DecidableEq Id]

/-! ### Clocks -/

/-- The counts that a node has heard of. -/
abbrev GossipClock (Id : Type*) := OrderedMap Id ℤ

namespace GossipClock

/-- The count of a node, zero if there is none. -/
def count (c : GossipClock Id) (k : Id) : ℤ := (c.get? k).getD 0

def tickLocal (c : GossipClock Id) (nodeId : Id) : GossipClock Id :=
  c.set nodeId (c.count nodeId + 1)

/-- Takes over the greater counts of another clock. -/
def observe (c remote : GossipClock Id) : GossipClock Id :=
  remote.entries.foldl (fun c p => c.set p.1 (max (c.count p.1) p.2)) c

/-- The clock that `observe` leads to. -/
def mergeFinal (c other : GossipClock Id) : GossipClock Id :=
  other.entries.foldl (fun out p => out.set p.1 (max (out.count p.1) p.2)) c

end GossipClock

open GossipClock

/-- The clocks of the two sides of a split, merged. -/
def mergePartitions (clockA clockB : GossipClock Id) : GossipClock Id :=
  (observe ∅ clockA).mergeFinal clockB

/-! ### The detector -/

structure PartitionDetector where
  divergenceThreshold : ℤ

namespace PartitionDetector

/-- The threshold that is set if no other is given. -/
def default : PartitionDetector := ⟨12⟩

def clockDivergence (a b : GossipClock Id) : ℤ :=
  ∑ k ∈ a.keys.toFinset ∪ b.keys.toFinset, |a.count k - b.count k|

def status (d : PartitionDetector) (local' remote : GossipClock Id) : Str × ℤ :=
  let div := clockDivergence local' remote
  (if div > d.divergenceThreshold then lit "PARTITIONED" else lit "HEALTHY", div)

end PartitionDetector

open PartitionDetector

/-! ### Nodes that gossip -/

/-- The clocks of the nodes, and all clocks that were sent. -/
structure GossipWorld (Id : Type*) where
  clocks : Id → GossipClock Id
  sent : List (GossipClock Id)

/-- What happens: a node counts an event, sends its clock, or hears a clock that was sent, at any
time and as often as it comes in. -/
inductive GossipMove (Id : Type*)
  | tick (node : Id)
  | gossip (node : Id)
  | hear (node : Id) (i : ℕ)
  deriving DecidableEq

def gossipStep (w : GossipWorld Id) : GossipMove Id → Option (GossipWorld Id)
  | .tick node =>
      some { w with clocks := Function.update w.clocks node ((w.clocks node).tickLocal node) }
  | .gossip node => some { w with sent := w.sent ++ [w.clocks node] }
  | .hear node i => w.sent[i]?.map fun vector =>
      { w with clocks := Function.update w.clocks node ((w.clocks node).observe vector) }

def GossipWorld.start : GossipWorld Id := ⟨fun _ => ∅, []⟩

/-- The events of a node in a run. -/
def ticks (mvs : List (GossipMove Id)) (k : Id) : ℕ := mvs.count (.tick k)

/-! ### Counts -/

theorem count_tickLocal (c : GossipClock Id) (n k : Id) :
    (c.tickLocal n).count k = c.count k + if k = n then 1 else 0 := by
  unfold tickLocal
  rw [count, OrderedMap.get?_set]
  split_ifs with hk
  · rw [hk]
    rfl
  · exact (add_zero _).symm

theorem count_eq_zero_of_notMem {c : GossipClock Id} {k : Id} (h : k ∉ c.keys) :
    c.count k = 0 := by
  have hget : c.get? k = none := OrderedMap.getList_eq_none_iff.2 h
  rw [count, hget, Option.getD_none]

/-- **Hearing a clock is taking the greater counts.** -/
theorem count_observe {c : GossipClock Id} (hc : ∀ k, 0 ≤ c.count k) (r : GossipClock Id) (k : Id) :
    (c.observe r).count k = max (c.count k) (r.count k) := by
  have hget : (c.observe r).get? k =
      ((r.get? k).map fun v => max (c.count k) v).or (c.get? k) :=
    OrderedMap.get?_foldl_set (fun cur v => max (cur.getD 0) v) c k r.nodup
  have hk := hc k
  unfold count at hk ⊢
  rw [hget]
  cases r.get? k with
  | none => simpa using hk
  | some v => rfl

theorem observe_nonneg {c : GossipClock Id} (hc : ∀ k, 0 ≤ c.count k) (r : GossipClock Id) (k : Id) :
    0 ≤ (c.observe r).count k := by
  rw [count_observe hc]
  exact le_max_of_le_left (hc k)

/-- The clocks of both sides of a split have the greater counts when they are merged. -/
theorem count_mergePartitions {a b : GossipClock Id} (ha : ∀ k, 0 ≤ a.count k) (k : Id) :
    (mergePartitions a b).count k = max (a.count k) (b.count k) := by
  have hempty : ∀ k : Id, 0 ≤ count ∅ k := fun _ => le_rfl
  have hmerge : mergePartitions a b = (observe ∅ a).observe b := rfl
  rw [hmerge, count_observe (observe_nonneg hempty a), count_observe hempty]
  exact congrArg (max · _) (max_eq_right (ha k))

/-! ### Divergence -/

/-- The divergence may be taken over all nodes that have counted. -/
theorem clockDivergence_eq_sum {a b : GossipClock Id} {nodes : Finset Id}
    (ha : ∀ k, k ∉ nodes → a.count k = 0) (hb : ∀ k, k ∉ nodes → b.count k = 0) :
    clockDivergence a b = ∑ k ∈ nodes, |a.count k - b.count k| := by
  have hkeys : ∀ k, k ∉ a.keys.toFinset ∪ b.keys.toFinset → |a.count k - b.count k| = 0 := by
    intro k hk
    rw [Finset.mem_union, List.mem_toFinset, List.mem_toFinset, not_or] at hk
    rw [count_eq_zero_of_notMem hk.1, count_eq_zero_of_notMem hk.2, sub_zero, abs_zero]
  have hnodes : ∀ k, k ∉ nodes → |a.count k - b.count k| = 0 := by
    intro k hk
    rw [ha k hk, hb k hk, sub_zero, abs_zero]
  have hleft : a.keys.toFinset ∪ b.keys.toFinset ⊆ a.keys.toFinset ∪ b.keys.toFinset ∪ nodes :=
    Finset.subset_union_left
  exact (Finset.sum_subset hleft fun k _ => hkeys k).trans
    (Finset.sum_subset Finset.subset_union_right fun k _ => hnodes k).symm

/-- Two nodes that have each heard the clock of the other have the same counts. -/
theorem clockDivergence_observe {a b : GossipClock Id} (ha : ∀ k, 0 ≤ a.count k)
    (hb : ∀ k, 0 ≤ b.count k) : clockDivergence (a.observe b) (b.observe a) = 0 := by
  refine Finset.sum_eq_zero fun k _ => ?_
  rw [count_observe ha, count_observe hb, max_comm, sub_self, abs_zero]

/-! ### What is known in a run -/

/-- A clock that is not ahead of the nodes. -/
def Behind (t : Id → ℕ) (c : GossipClock Id) : Prop := ∀ k, 0 ≤ c.count k ∧ c.count k ≤ t k

/-- No clock is ahead of the nodes, and every node knows its own count. -/
structure KnownInv (t : Id → ℕ) (w : GossipWorld Id) : Prop where
  clocks : ∀ n, Behind t (w.clocks n)
  sent : ∀ c ∈ w.sent, Behind t c
  own : ∀ n, (w.clocks n).count n = t n

theorem knownInv_tick {t : Id → ℕ} {w : GossipWorld Id} (h : KnownInv t w) (n : Id) :
    KnownInv (fun k => t k + if k = n then 1 else 0)
      { w with clocks := Function.update w.clocks n ((w.clocks n).tickLocal n) } := by
  have hlater : ∀ {c}, Behind t c → Behind (fun k => t k + if k = n then 1 else 0) c := by
    intro c hc k
    refine ⟨(hc k).1, (hc k).2.trans ?_⟩
    exact_mod_cast Nat.le_add_right _ _
  have hticked : Behind (fun k => t k + if k = n then 1 else 0) ((w.clocks n).tickLocal n) := by
    intro k
    obtain ⟨hnonneg, hle⟩ := h.clocks n k
    rw [count_tickLocal]
    push_cast
    split_ifs <;> constructor <;> omega
  refine ⟨?_, fun c hc => hlater (h.sent c hc), ?_⟩
  · exact (Function.forall_update_iff _ fun _ c => Behind _ c).2
      ⟨hticked, fun m _ => hlater (h.clocks m)⟩
  · refine (Function.forall_update_iff _ fun m (c : GossipClock Id) =>
      c.count m = ((t m + if m = n then 1 else 0 : ℕ) : ℤ)).2 ⟨?_, fun m hm => ?_⟩
    · rw [count_tickLocal, h.own n]
      simp
    · rw [if_neg hm, h.own m]
      rfl

theorem knownInv_hear {t : Id → ℕ} {w : GossipWorld Id} (h : KnownInv t w) (n : Id)
    {vector : GossipClock Id} (hv : Behind t vector) :
    KnownInv t { w with clocks := Function.update w.clocks n ((w.clocks n).observe vector) } := by
  have hcount := fun k => count_observe (fun k => (h.clocks n k).1) vector k
  refine ⟨?_, h.sent, ?_⟩
  · refine (Function.forall_update_iff _ fun _ c => Behind _ c).2
      ⟨fun k => ?_, fun m _ => h.clocks m⟩
    rw [hcount]
    exact ⟨le_max_of_le_left (h.clocks n k).1, max_le (h.clocks n k).2 (hv k).2⟩
  · refine (Function.forall_update_iff _ fun m (c : GossipClock Id) =>
      c.count m = t m).2 ⟨?_, fun m _ => h.own m⟩
    rw [hcount, h.own n]
    exact max_eq_left (hv n).2

theorem ticks_concat (mvs : List (GossipMove Id)) (mv : GossipMove Id) (k : Id) :
    ticks (mvs ++ [mv]) k = ticks mvs k + if mv = .tick k then 1 else 0 := by
  rw [ticks, ticks, List.count_append, List.count_singleton]
  simp only [beq_iff_eq]

/-- **No clock is ahead of the nodes, and a node knows its own count**, however clocks are lost,
delayed or heard again. -/
theorem knownInv_run {w : GossipWorld Id} {mvs : List (GossipMove Id)}
    (h : run gossipStep .start mvs = some w) : KnownInv (ticks mvs) w := by
  refine invariant_of_history (I := fun mvs w => KnownInv (ticks mvs) w) ?_ ?_ h
  · exact ⟨fun _ _ => ⟨le_rfl, le_rfl⟩, nofun, fun _ => rfl⟩
  · intro mvs mv w₁ w₂ _ hw₁ hstep
    cases mv with
    | tick n =>
        obtain rfl := Option.some.inj hstep
        have hticks : ticks (mvs ++ [.tick n]) = fun k => ticks mvs k + if k = n then 1 else 0 := by
          funext k
          rw [ticks_concat]
          simp only [GossipMove.tick.injEq, eq_comm]
        rw [hticks]
        exact knownInv_tick hw₁ n
    | gossip n =>
        obtain rfl := Option.some.inj hstep
        have hticks : ticks (mvs ++ [.gossip n]) = ticks mvs := by
          funext k
          simp [ticks_concat]
        rw [hticks]
        refine ⟨hw₁.clocks, fun c hc => ?_, hw₁.own⟩
        rcases List.mem_append.1 hc with hc | hc
        · exact hw₁.sent c hc
        · exact List.mem_singleton.1 hc ▸ hw₁.clocks n
    | hear n i =>
        obtain ⟨vector, hv, rfl⟩ := Option.map_eq_some_iff.1 hstep
        have hticks : ticks (mvs ++ [.hear n i]) = ticks mvs := by
          funext k
          simp [ticks_concat]
        rw [hticks]
        exact knownInv_hear hw₁ n (hw₁.sent vector (List.mem_of_getElem? hv))

/-! ### How far clocks are apart -/

section Bounds

variable {w : GossipWorld Id} {mvs : List (GossipMove Id)} {nodes : Finset Id}

/-- The events of a node that another node has not heard of. -/
def unheard (mvs : List (GossipMove Id)) (w : GossipWorld Id) (listener k : Id) : ℤ :=
  ticks mvs k - (w.clocks listener).count k

variable (h : run gossipStep .start mvs = some w)
include h

theorem unheard_nonneg (listener k : Id) : 0 ≤ unheard mvs w listener k :=
  sub_nonneg.2 ((knownInv_run h).clocks listener k).2

@[simp] theorem unheard_self (n : Id) : unheard mvs w n n = 0 := by
  rw [unheard, (knownInv_run h).own n, sub_self]

/-- The difference of two counts is that of what was not heard of. -/
theorem clockDivergence_eq_unheard (hnodes : ∀ n, .tick n ∈ mvs → n ∈ nodes) (n m : Id) :
    clockDivergence (w.clocks n) (w.clocks m) =
      ∑ k ∈ nodes, |unheard mvs w m k - unheard mvs w n k| := by
  have hzero : ∀ n k, k ∉ nodes → (w.clocks n).count k = 0 := by
    intro n k hk
    obtain ⟨hnonneg, hle⟩ := (knownInv_run h).clocks n k
    have hticks : ticks mvs k = 0 := List.count_eq_zero.2 fun hmem => hk (hnodes k hmem)
    rw [hticks] at hle
    exact le_antisymm hle hnonneg
  rw [clockDivergence_eq_sum (hzero n) (hzero m)]
  refine Finset.sum_congr rfl fun k _ => ?_
  rw [unheard, unheard, sub_sub_sub_cancel_left]

/-- The part of two nodes in the difference of their clocks. -/
theorem sum_pair_unheard {n m : Id} (hne : n ≠ m) :
    ∑ k ∈ {n, m}, |unheard mvs w m k - unheard mvs w n k| =
      unheard mvs w m n + unheard mvs w n m := by
  rw [Finset.sum_pair hne, unheard_self h, unheard_self h, sub_zero, zero_sub, abs_neg,
    abs_of_nonneg (unheard_nonneg h m n), abs_of_nonneg (unheard_nonneg h n m)]

/-- **How far two clocks are apart**: at least the events of either node that the other has not
heard of, and at most, for each node, the events that the one of them has not heard of that is
further behind. -/
theorem divergence_bounds (hnodes : ∀ n, .tick n ∈ mvs → n ∈ nodes) {n m : Id} (hne : n ≠ m) :
    unheard mvs w m n + unheard mvs w n m ≤ clockDivergence (w.clocks n) (w.clocks m) ∧
      clockDivergence (w.clocks n) (w.clocks m) ≤
        ∑ k ∈ nodes, max (unheard mvs w n k) (unheard mvs w m k) := by
  constructor
  · -- over the two nodes themselves
    have hnodes' : ∀ k, .tick k ∈ mvs → k ∈ {n, m} ∪ nodes :=
      fun k hk => Finset.mem_union_right _ (hnodes k hk)
    rw [clockDivergence_eq_unheard h hnodes', ← sum_pair_unheard h hne]
    exact Finset.sum_le_sum_of_subset_of_nonneg Finset.subset_union_left
      fun _ _ _ => abs_nonneg _
  · rw [clockDivergence_eq_unheard h hnodes]
    refine Finset.sum_le_sum fun k _ => ?_
    have hn := unheard_nonneg h n k
    have hm := unheard_nonneg h m k
    exact abs_le.2 ⟨by omega, by omega⟩

/-- **Where only two nodes count, the divergence is the number of events that either has not heard
of**, and a partition is suspected exactly if these are more than the threshold. -/
theorem status_two_nodes {n m : Id} (hne : n ≠ m)
    (hticks : ∀ k, .tick k ∈ mvs → k = n ∨ k = m) (d : PartitionDetector) :
    d.status (w.clocks n) (w.clocks m) =
      (if unheard mvs w m n + unheard mvs w n m > d.divergenceThreshold then lit "PARTITIONED"
        else lit "HEALTHY", unheard mvs w m n + unheard mvs w n m) := by
  have hnodes : ∀ k, .tick k ∈ mvs → k ∈ ({n, m} : Finset Id) := by
    intro k hk
    simpa using hticks k hk
  have hdiv : clockDivergence (w.clocks n) (w.clocks m) =
      unheard mvs w m n + unheard mvs w n m := by
    rw [clockDivergence_eq_unheard h hnodes, sum_pair_unheard h hne]
  rw [PartitionDetector.status, hdiv]

/-- **After an exchange no partition is suspected**: whatever happened before, two nodes that send
each other their clocks and hear them agree. -/
theorem healthy_after_exchange {n m : Id} (hne : n ≠ m) {d : PartitionDetector}
    (hd : 0 ≤ d.divergenceThreshold) :
    ∃ w', run gossipStep .start (mvs ++ [.gossip n, .gossip m, .hear n (w.sent.length + 1),
        .hear m w.sent.length]) = some w' ∧
      d.status (w'.clocks n) (w'.clocks m) = (lit "HEALTHY", 0) := by
  have hinv := knownInv_run h
  have hexchange : run gossipStep w [.gossip n, .gossip m, .hear n (w.sent.length + 1),
      .hear m w.sent.length] =
        some ⟨Function.update (Function.update w.clocks n ((w.clocks n).observe (w.clocks m))) m
          ((w.clocks m).observe (w.clocks n)), w.sent ++ [w.clocks n] ++ [w.clocks m]⟩ := by
    simp [run, gossipStep, Function.update_of_ne hne.symm]
  refine ⟨_, run_append.2 ⟨w, h, hexchange⟩, ?_⟩
  have hdiv := clockDivergence_observe (fun k => (hinv.clocks n k).1) fun k => (hinv.clocks m k).1
  simp only [PartitionDetector.status, Function.update_of_ne hne, Function.update_self, hdiv,
    if_neg hd.not_gt]

end Bounds

/-- A node counts three events and tells another of the first two. -/
def twoOfThree : List (GossipMove ℕ) := [.tick 0, .tick 0, .gossip 0, .hear 1 0, .tick 0]

theorem divergence_bounds_twoOfThree :
    ∃ w, run gossipStep .start twoOfThree = some w ∧
      unheard twoOfThree w 1 0 + unheard twoOfThree w 0 1 ≤
        clockDivergence (w.clocks 0) (w.clocks 1) ∧
      clockDivergence (w.clocks 0) (w.clocks 1) ≤
        ∑ k ∈ {0}, max (unheard twoOfThree w 0 k) (unheard twoOfThree w 1 k) := by
  obtain ⟨w, hw⟩ : ∃ w, run gossipStep .start twoOfThree = some w := ⟨_, rfl⟩
  exact ⟨w, hw, divergence_bounds hw (by simp [twoOfThree]) (by decide)⟩

/-- The other node is one event behind. -/
theorem status_two_nodes_twoOfThree :
    ∃ w, run gossipStep .start twoOfThree = some w ∧
      (⟨0⟩ : PartitionDetector).status (w.clocks 0) (w.clocks 1) =
        (if unheard twoOfThree w 1 0 + unheard twoOfThree w 0 1 > 0 then lit "PARTITIONED"
          else lit "HEALTHY", unheard twoOfThree w 1 0 + unheard twoOfThree w 0 1) := by
  obtain ⟨w, hw⟩ : ∃ w, run gossipStep .start twoOfThree = some w := ⟨_, rfl⟩
  exact ⟨w, hw, status_two_nodes hw (by decide) (by simp [twoOfThree]) ⟨0⟩⟩

theorem healthy_after_exchange_twoOfThree :
    ∃ w w', run gossipStep .start twoOfThree = some w ∧
      run gossipStep .start (twoOfThree ++ [.gossip 0, .gossip 1, .hear 0 (w.sent.length + 1),
        .hear 1 w.sent.length]) = some w' ∧
      (⟨0⟩ : PartitionDetector).status (w'.clocks 0) (w'.clocks 1) = (lit "HEALTHY", 0) := by
  obtain ⟨w, hw⟩ : ∃ w, run gossipStep .start twoOfThree = some w := ⟨_, rfl⟩
  exact ⟨w, (healthy_after_exchange hw (by decide) le_rfl).imp fun _ h => ⟨hw, h⟩⟩

end MeshSurvival
