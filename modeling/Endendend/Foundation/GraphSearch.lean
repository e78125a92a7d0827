/-
**Searching a graph with a work list, and hops.**

A search keeps the vertices it has seen, in the order it saw them, and those of them whose
successors it still has to look at.  When the successors all lie in a finite list, every vertex
waits at most once and the search ends; it has then seen exactly the vertices that a path leads to.

Taking the class of the first vertex off a list until nothing is left divides the list into the
classes of an equivalence.

Main definitions:

* `GraphSearch.Search.run` — **the search**, last seen first visited;
* `GraphSearch.peel` — taking classes off a list.

Main results:

* `GraphSearch.mem_search_iff` — **a search sees what a path leads to, and nothing else**;
* `GraphSearch.perm_flatten_peel` — the parts taken off make up the list;
* `GraphSearch.mem_part_iff` — **two members share a part when they are equivalent**;
* `Hops.dist_le_succ`, `Hops.exists_closer` — how the hop distance to a vertex changes along an
  edge.
-/
import Mathlib.Data.List.Nodup
import Mathlib.Data.List.Perm.Basic
import Mathlib.Logic.Relation
import Mathlib.Combinatorics.SimpleGraph.Metric

set_option relaxedAutoImplicit false
set_option autoImplicit false

namespace GraphSearch

variable {α : Type*}

/-- A graph by the successors of its vertices, which all lie in a finite list. -/
structure Successors (α : Type*) where
  nodes : List α
  next : α → List α
  next_mem : ∀ x, ∀ y ∈ next x, y ∈ nodes

namespace Successors

/-- One edge of the graph. -/
def Step (G : Successors α) (x y : α) : Prop := y ∈ G.next x

end Successors

/-- A search under way: the vertices seen, in order, and those waiting for a visit, last first. -/
structure Search (α : Type*) where
  seen : List α
  waiting : List α

/-! ### The search -/

namespace Search

variable [DecidableEq α]

/-- A vertex that is seen for the first time waits for its visit. -/
def note (s : Search α) (y : α) : Search α :=
  if y ∈ s.seen then s else ⟨s.seen ++ [y], y :: s.waiting⟩

/-- The visits that may still come: a vertex not seen yet may be, a waiting one will be. -/
def toCome (nodes : List α) (s : Search α) : ℕ :=
  nodes.countP (fun x => x ∉ s.seen) + s.waiting.length

theorem toCome_note_le {nodes : List α} {y : α} (hy : y ∈ nodes) (s : Search α) :
    (s.note y).toCome nodes ≤ s.toCome nodes := by
  unfold note
  split
  · exact Nat.le_refl _
  · rename_i hseen
    -- the vertex waits now, and is one less to be seen
    have hlt : nodes.countP (fun x => x ∉ s.seen ++ [y]) < nodes.countP (fun x => x ∉ s.seen) := by
      obtain ⟨l, r, rfl⟩ := List.append_of_mem hy
      have hle : ∀ zs : List α,
          zs.countP (fun x => x ∉ s.seen ++ [y]) ≤ zs.countP (fun x => x ∉ s.seen) := by
        intro zs
        refine List.countP_mono_left fun x _ hx => ?_
        simp only [List.mem_append, not_or, decide_eq_true_eq] at hx ⊢
        exact hx.1
      rw [List.countP_append, List.countP_append, List.countP_cons_of_neg (by simp),
        List.countP_cons_of_pos (by simpa using hseen)]
      have hl := hle l
      have hr := hle r
      omega
    simp only [toCome, List.length_cons]
    omega

theorem toCome_foldl_note_le {nodes : List α} {ys : List α} (hys : ∀ y ∈ ys, y ∈ nodes)
    (s : Search α) : (ys.foldl note s).toCome nodes ≤ s.toCome nodes := by
  induction ys generalizing s with
  | nil => exact Nat.le_refl _
  | cons y ys ih =>
      rw [List.foldl_cons]
      exact Nat.le_trans (ih (fun z hz => hys z (List.mem_cons_of_mem _ hz)) _)
        (toCome_note_le (hys y List.mem_cons_self) s)

/-- A visit of `cur`, which no longer waits: its successors are noted. -/
def visit (G : Successors α) (seen : List α) (cur : α) (rest : List α) : Search α :=
  (G.next cur).foldl note ⟨seen, rest⟩

theorem toCome_visit_lt (G : Successors α) (seen : List α) (cur : α) (rest : List α) :
    (visit G seen cur rest).toCome G.nodes < toCome G.nodes ⟨seen, cur :: rest⟩ := by
  have hle : (visit G seen cur rest).toCome G.nodes ≤ toCome G.nodes ⟨seen, rest⟩ :=
    toCome_foldl_note_le (G.next_mem cur) ⟨seen, rest⟩
  have hone : toCome G.nodes ⟨seen, cur :: rest⟩ = toCome G.nodes ⟨seen, rest⟩ + 1 := rfl
  omega

/-- **The search**: the vertex seen last is visited first, until none waits. -/
def run (G : Successors α) (s : Search α) : List α :=
  match s with
  | ⟨seen, []⟩ => seen
  | ⟨seen, cur :: rest⟩ => run G (visit G seen cur rest)
termination_by s.toCome G.nodes
decreasing_by exact toCome_visit_lt G seen cur rest

/-! ### What a visit keeps -/

theorem mem_seen_note {s : Search α} {x y : α} : x ∈ (s.note y).seen ↔ x ∈ s.seen ∨ x = y := by
  unfold note
  split
  · rename_i hseen
    exact ⟨Or.inl, fun h => h.elim id fun e => e ▸ hseen⟩
  · simp

theorem mem_seen_foldl_note {ys : List α} {s : Search α} {x : α} :
    x ∈ (ys.foldl note s).seen ↔ x ∈ s.seen ∨ x ∈ ys := by
  induction ys generalizing s with
  | nil => simp
  | cons y ys ih => rw [List.foldl_cons, ih, mem_seen_note, List.mem_cons, or_assoc]

/-- A vertex that a visit has seen for the first time waits. -/
theorem mem_waiting_foldl_note {ys : List α} {s : Search α} {x : α} :
    x ∈ (ys.foldl note s).waiting ↔ x ∈ s.waiting ∨ x ∈ ys ∧ x ∉ s.seen := by
  induction ys generalizing s with
  | nil => simp
  | cons y ys ih =>
      rw [List.foldl_cons, ih, mem_seen_note]
      unfold note
      split
      · rename_i hseen
        grind
      · rename_i hseen
        grind

theorem nodup_note {s : Search α} (h : s.seen.Nodup) (y : α) : (s.note y).seen.Nodup := by
  unfold note
  split
  · exact h
  · rename_i hseen
    refine List.nodup_append.2 ⟨h, List.nodup_singleton y, fun x hx z hz e => hseen ?_⟩
    rw [← List.mem_singleton.1 hz, ← e]
    exact hx

theorem nodup_foldl_note {ys : List α} {s : Search α} (h : s.seen.Nodup) :
    (ys.foldl note s).seen.Nodup := by
  induction ys generalizing s with
  | nil => exact h
  | cons y ys ih => exact ih (nodup_note h y)

/-- What holds of a search from `source` at every visit. -/
structure Sound (G : Successors α) (source : α) (s : Search α) : Prop where
  /-- The search has begun. -/
  source_mem : source ∈ s.seen
  /-- A path leads to every vertex seen. -/
  reached : ∀ x ∈ s.seen, Relation.ReflTransGen G.Step source x
  /-- What waits has been seen. -/
  waiting_seen : ∀ x ∈ s.waiting, x ∈ s.seen
  /-- The successors of a visited vertex have been seen. -/
  visited : ∀ x ∈ s.seen, x ∉ s.waiting → ∀ y ∈ G.next x, y ∈ s.seen

omit [DecidableEq α] in
theorem Sound.start (G : Successors α) (source : α) : Sound G source ⟨[source], [source]⟩ where
  source_mem := List.mem_singleton_self source
  reached := fun _ hx => List.mem_singleton.1 hx ▸ Relation.ReflTransGen.refl
  waiting_seen := fun _ hx => hx
  visited := fun _ hx hnot => absurd hx hnot

/-- **A visit keeps it.** -/
theorem Sound.visit {G : Successors α} {source cur : α} {seen rest : List α}
    (h : Sound G source ⟨seen, cur :: rest⟩) :
    Sound G source (visit G seen cur rest) where
  source_mem := mem_seen_foldl_note.2 (Or.inl h.source_mem)
  reached := by
    intro x hx
    rcases mem_seen_foldl_note.1 hx with hx | hx
    · exact h.reached x hx
    · exact (h.reached cur (h.waiting_seen cur List.mem_cons_self)).tail hx
  waiting_seen := by
    intro x hx
    refine mem_seen_foldl_note.2 ((mem_waiting_foldl_note.1 hx).imp ?_ And.left)
    exact fun hx => h.waiting_seen x (List.mem_cons_of_mem _ hx)
  visited := by
    intro x hx hnot y hy
    rw [Search.visit, mem_waiting_foldl_note, not_or] at hnot
    by_cases hcur : x = cur
    · subst hcur
      exact mem_seen_foldl_note.2 (Or.inr hy)
    · have hseen : x ∈ seen := by
        rcases mem_seen_foldl_note.1 hx with hx | hx
        · exact hx
        · exact by_contra fun hno => hnot.2 ⟨hx, hno⟩
      have hwait : x ∉ cur :: rest := by
        simpa [hcur] using hnot.1
      exact mem_seen_foldl_note.2 (Or.inl (h.visited x hseen hwait y hy))

/-- The vertices a search ends with are those a path leads to. -/
theorem mem_run_iff {G : Successors α} {source x : α} {s : Search α} (h : Sound G source s) :
    x ∈ s.run G ↔ Relation.ReflTransGen G.Step source x := by
  fun_induction run G s with
  | case1 seen =>
      refine ⟨h.reached x, fun hpath => ?_⟩
      -- nothing waits, so the seen vertices are closed under successors
      induction hpath with
      | refl => exact h.source_mem
      | tail _ hstep ih => exact h.visited _ ih List.not_mem_nil _ hstep
  | case2 seen cur rest ih => exact ih h.visit

theorem nodup_run {G : Successors α} {s : Search α} (h : s.seen.Nodup) : (s.run G).Nodup := by
  fun_induction run G s with
  | case1 seen => exact h
  | case2 seen cur rest ih => exact ih (nodup_foldl_note h)

end Search

variable [DecidableEq α]

/-- The search from one vertex. -/
def search (G : Successors α) (source : α) : List α := Search.run G ⟨[source], [source]⟩

/-- **A search sees what a path leads to, and nothing else.** -/
theorem mem_search_iff {G : Successors α} {source x : α} :
    x ∈ search G source ↔ Relation.ReflTransGen G.Step source x :=
  Search.mem_run_iff (Search.Sound.start G source)

theorem nodup_search (G : Successors α) (source : α) : (search G source).Nodup :=
  Search.nodup_run (List.nodup_singleton source)

theorem self_mem_search (G : Successors α) (source : α) : source ∈ search G source :=
  mem_search_iff.2 Relation.ReflTransGen.refl

/-! ### Taking classes off a list -/

section Peel

variable (cls : α → List α)

/-- The part of a list that lies in the class of `start`. -/
def part (start : α) (rem : List α) : List α := (cls start).filter fun x => x ∈ rem

variable {cls}

theorem mem_part {start x : α} {rem : List α} :
    x ∈ part cls start rem ↔ x ∈ cls start ∧ x ∈ rem := by
  simp [part]

theorem start_mem_part (hself : ∀ x, x ∈ cls x) (start : α) (rest : List α) :
    start ∈ part cls start (start :: rest) :=
  mem_part.2 ⟨hself start, List.mem_cons_self⟩

/-- **Taking classes off a list**: the first member's class is taken off, until nothing is left. -/
def peel (cls : α → List α) (hself : ∀ x, x ∈ cls x) (rem : List α) : List (List α) :=
  match rem with
  | [] => []
  | start :: rest =>
      part cls start (start :: rest) ::
        peel cls hself ((start :: rest).filter fun x => x ∉ part cls start (start :: rest))
termination_by rem.length
decreasing_by
  refine Nat.lt_of_le_of_ne (List.length_filter_le _ _) fun h => ?_
  have hall := List.length_filter_eq_length_iff.1 h start List.mem_cons_self
  simp only [decide_eq_true_eq] at hall
  exact hall (start_mem_part hself start rest)

variable {hself : ∀ x, x ∈ cls x}

/-- The parts taken off make up the list. -/
theorem perm_flatten_peel (hnodup : ∀ x, (cls x).Nodup) {rem : List α} (hrem : rem.Nodup) :
    (peel cls hself rem).flatten.Perm rem := by
  fun_induction peel cls hself rem with
  | case1 => exact List.Perm.refl []
  | case2 start rest ih =>
      rw [List.flatten_cons]
      have hpart : (part cls start (start :: rest)).Perm
          ((start :: rest).filter fun x => x ∈ part cls start (start :: rest)) := by
        refine (List.perm_ext_iff_of_nodup ((hnodup start).filter _) (hrem.filter _)).2 fun x => ?_
        exact ⟨fun hx => List.mem_filter.2 ⟨(mem_part.1 hx).2, decide_eq_true hx⟩,
          fun hx => of_decide_eq_true (List.mem_filter.1 hx).2⟩
      have hsplit := List.filter_append_perm (fun x => x ∈ part cls start (start :: rest))
        (start :: rest)
      refine (hpart.append ?_).trans hsplit
      simpa using ih (hrem.filter _)

/-- No part is empty. -/
theorem ne_nil_of_mem_peel {rem c : List α} (hc : c ∈ peel cls hself rem) : c ≠ [] := by
  fun_induction peel cls hself rem with
  | case1 => exact absurd hc List.not_mem_nil
  | case2 start rest ih =>
      rcases List.mem_cons.1 hc with rfl | hc
      · exact List.ne_nil_of_mem (start_mem_part hself start rest)
      · exact ih hc

/-- The parts are parts of the list. -/
theorem subset_of_mem_peel {rem c : List α} (hc : c ∈ peel cls hself rem) : c ⊆ rem := by
  fun_induction peel cls hself rem with
  | case1 => exact absurd hc List.not_mem_nil
  | case2 start rest ih =>
      rcases List.mem_cons.1 hc with rfl | hc
      · exact fun x hx => (mem_part.1 hx).2
      · exact fun x hx => (List.mem_filter.1 (ih hc hx)).1

/-- **A part holds the class of each of its members**, as far as the list does. -/
theorem mem_part_iff {r : α → α → Prop} (hr : Equivalence r) (hcls : ∀ x y, y ∈ cls x ↔ r x y)
    {rem c : List α} (hc : c ∈ peel cls hself rem) {x y : α} (hx : x ∈ c) (hy : y ∈ rem) :
    y ∈ c ↔ r x y := by
  fun_induction peel cls hself rem with
  | case1 => exact absurd hy List.not_mem_nil
  | case2 start rest ih =>
      have hin : ∀ z, z ∈ start :: rest → (z ∈ part cls start (start :: rest) ↔ r start z) :=
        fun z hz => by rw [mem_part, hcls]; exact and_iff_left hz
      rcases List.mem_cons.1 hc with rfl | hc
      · have hstart := (hin x (mem_part.1 hx).2).1 hx
        rw [hin y hy]
        exact ⟨fun h => hr.trans (hr.symm hstart) h, hr.trans hstart⟩
      · have hx' := List.mem_filter.1 (subset_of_mem_peel hc hx)
        have hxpart : x ∉ part cls start (start :: rest) := of_decide_eq_true hx'.2
        by_cases hypart : y ∈ part cls start (start :: rest)
        · -- the class of `start` is gone, and `x` is not in it
          refine iff_of_false (fun hyc => ?_) (fun hxy => ?_)
          · exact of_decide_eq_true (List.mem_filter.1 (subset_of_mem_peel hc hyc)).2 hypart
          · exact hxpart ((hin x hx'.1).2 (hr.trans ((hin y hy).1 hypart) (hr.symm hxy)))
        · exact ih hc (List.mem_filter.2 ⟨hy, decide_eq_true hypart⟩)

end Peel

end GraphSearch

namespace Hops

variable {V : Type*} {G : SimpleGraph V} {x y z : V}

/-- A neighbour is at most one hop closer. -/
theorem dist_le_succ (hadj : G.Adj x z) (h : G.Reachable z y) : G.dist x y ≤ G.dist z y + 1 := by
  obtain ⟨p, hp⟩ := h.exists_walk_length_eq_dist
  rw [← hp, ← SimpleGraph.Walk.length_cons hadj p]
  exact SimpleGraph.dist_le _

/-- **Some neighbour is one hop closer.** -/
theorem exists_closer (h : G.Reachable x y) (hne : x ≠ y) :
    ∃ z, G.Adj x z ∧ G.Reachable z y ∧ G.dist z y + 1 = G.dist x y := by
  obtain ⟨p, hp⟩ := h.exists_walk_length_eq_dist
  cases p with
  | nil => exact absurd rfl hne
  | @cons _ z _ hadj q =>
      refine ⟨z, hadj, q.reachable, le_antisymm ?_ (dist_le_succ hadj q.reachable)⟩
      rw [← hp, SimpleGraph.Walk.length_cons]
      exact Nat.succ_le_succ (SimpleGraph.dist_le q)

/-- A vertex within `k + 1` hops is the other one, or it has a neighbour within `k` hops. -/
theorem exists_within (h : G.Reachable x y) (hne : x ≠ y) {k : ℕ} (hk : G.dist x y ≤ k + 1) :
    ∃ z, G.Adj x z ∧ G.Reachable z y ∧ G.dist z y + 1 = G.dist x y ∧ G.dist z y ≤ k := by
  obtain ⟨z, hadj, hz, hdist⟩ := exists_closer h hne
  exact ⟨z, hadj, hz, hdist, by omega⟩

end Hops
