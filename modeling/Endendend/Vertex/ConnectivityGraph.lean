/-
**The connectivity graph of the swarm and its partition clusters.**

The graph is a map of edges, each under a key that does not depend on the order of its ends.  The
nodes reachable from one over edges of at least a given quality are found by a search with a work
list; the clusters take one node after another off the list of ids, together with what is reachable
from it.

Main definitions:

* `Connectivity.ConnectivityGraph` — the edges, with `setEdge` and `removeEdge`;
* `Connectivity.ConnectivityGraph.reachableFrom`,
  `Connectivity.ConnectivityGraph.partitionClusters` — the search and the clusters;
* `Connectivity.ConnectivityGraph.Joined` — two nodes with an edge of enough quality.

Main results:

* `Connectivity.ConnectivityGraph.mem_reachableFrom_iff` — the search finds what a path leads to;
* `Connectivity.ConnectivityGraph.clusters_are_components` — **the clusters are the connected
  components**, largest first.
-/
import Endendend.Foundation.GraphSearch
import Endendend.Foundation.OrderedMap
import Endendend.Foundation.Text
import Mathlib.Data.List.Sort
import Mathlib.Algebra.Order.Ring.Rat

set_option relaxedAutoImplicit false
set_option autoImplicit false

namespace Connectivity

open Js

/-- A link between two nodes. -/
structure GraphEdge where
  a : Str
  b : Str
  quality01 : ℚ
  deriving DecidableEq

/-- Mesh graph: the edges by their keys. -/
structure ConnectivityGraph where
  edges : OrderedMap Str GraphEdge

/-- The key of an edge: its ends, the smaller one first. -/
def edgeKey (a b : Str) : Str := if a < b then a ++ lit "|" ++ b else b ++ lit "|" ++ a

/-- The ends of an edge may be named in either order. -/
theorem edgeKey_comm (a b : Str) : edgeKey a b = edgeKey b a := by
  unfold edgeKey
  rcases lt_trichotomy a b with h | rfl | h
  · rw [if_pos h, if_neg (lt_asymm h)]
  · rfl
  · rw [if_neg (lt_asymm h), if_pos h]

namespace ConnectivityGraph

/-! ### The edges -/

/-- The graph without edges. -/
def empty : ConnectivityGraph := ⟨∅⟩

def setEdge (g : ConnectivityGraph) (edge : GraphEdge) : ConnectivityGraph :=
  ⟨g.edges.set (edgeKey edge.a edge.b) edge⟩

def removeEdge (g : ConnectivityGraph) (a b : Str) : ConnectivityGraph :=
  ⟨g.edges.erase (edgeKey a b)⟩

def getEdge (g : ConnectivityGraph) (a b : Str) : Option GraphEdge := g.edges.get? (edgeKey a b)

def allEdges (g : ConnectivityGraph) : List GraphEdge := g.edges.values

/-- An edge that was set is found from both of its ends. -/
theorem getEdge_setEdge (g : ConnectivityGraph) (e : GraphEdge) :
    (g.setEdge e).getEdge e.a e.b = some e ∧ (g.setEdge e).getEdge e.b e.a = some e := by
  have h : (g.setEdge e).getEdge e.a e.b = some e := by
    unfold getEdge setEdge
    rw [OrderedMap.get?_set, if_pos rfl]
  refine ⟨h, ?_⟩
  rw [← h, getEdge, getEdge, edgeKey_comm]

/-- An edge that was removed is found from neither end. -/
theorem getEdge_removeEdge (g : ConnectivityGraph) (a b : Str) :
    (g.removeEdge a b).getEdge a b = none ∧ (g.removeEdge a b).getEdge b a = none := by
  have h : (g.removeEdge a b).getEdge a b = none := by
    unfold getEdge removeEdge
    rw [OrderedMap.get?_erase, if_pos rfl]
  refine ⟨h, ?_⟩
  rw [← h, getEdge, getEdge, edgeKey_comm]

/-! ### Reachability -/

/-- The other ends of the edges at `cur` that are good enough, in the order of the map. -/
def neighbours (g : ConnectivityGraph) (minQ : ℚ) (cur : Str) : List Str :=
  g.allEdges.filterMap fun e =>
    if e.a ≠ cur ∧ e.b ≠ cur then none
    else if e.quality01 < minQ then none
    else some (if e.a = cur then e.b else e.a)

/-- Two nodes have an edge of quality `minQ` or better. -/
def Joined (g : ConnectivityGraph) (minQ : ℚ) (x y : Str) : Prop :=
  ∃ e ∈ g.allEdges, minQ ≤ e.quality01 ∧ (e.a = x ∧ e.b = y ∨ e.a = y ∧ e.b = x)

theorem mem_neighbours {g : ConnectivityGraph} {minQ : ℚ} {x y : Str} :
    y ∈ g.neighbours minQ x ↔ g.Joined minQ x y := by
  unfold neighbours Joined
  rw [List.mem_filterMap]
  refine exists_congr fun e => and_congr_right fun _ => ?_
  by_cases ha : e.a = x
  · rw [if_neg fun h => h.1 ha, if_pos ha]
    by_cases hq : e.quality01 < minQ
    · simp [hq, not_le.2 hq]
    · rw [if_neg hq, Option.some_inj]
      have hle := not_lt.1 hq
      constructor
      · exact fun h => ⟨hle, Or.inl ⟨ha, h⟩⟩
      · -- a loop has the same other end from both sides
        rintro ⟨-, ⟨-, h⟩ | ⟨h, h'⟩⟩
        · exact h
        · rw [h', ← ha, h]
  · by_cases hb : e.b = x
    · rw [if_neg fun h => h.2 hb, if_neg ha]
      by_cases hq : e.quality01 < minQ
      · simp [hq, not_le.2 hq]
      · rw [if_neg hq, Option.some_inj]
        have hle := not_lt.1 hq
        constructor
        · exact fun h => ⟨hle, Or.inr ⟨h, hb⟩⟩
        · rintro ⟨-, ⟨h, -⟩ | ⟨h, -⟩⟩
          · exact absurd h ha
          · exact h
    · rw [if_pos ⟨ha, hb⟩]
      simp [ha, hb]

/-- The nodes a search may meet are ends of edges. -/
def links (g : ConnectivityGraph) (minQ : ℚ) : GraphSearch.Successors Str where
  nodes := g.allEdges.flatMap fun e => [e.a, e.b]
  next := g.neighbours minQ
  next_mem := by
    intro x y hy
    obtain ⟨e, he, -, ⟨-, h⟩ | ⟨h, -⟩⟩ := mem_neighbours.1 hy
    · exact List.mem_flatMap.2 ⟨e, he, by simp [h]⟩
    · exact List.mem_flatMap.2 ⟨e, he, by simp [h]⟩

/-- Nodes reachable from `source` over edges with quality at least `minQ`. -/
def reachableFrom (g : ConnectivityGraph) (source : Str) (minQ : ℚ) : List Str :=
  GraphSearch.search (g.links minQ) source

/-- **The search finds what a path leads to.** -/
theorem mem_reachableFrom_iff {g : ConnectivityGraph} {minQ : ℚ} {source x : Str} :
    x ∈ g.reachableFrom source minQ ↔ Relation.ReflTransGen (g.Joined minQ) source x := by
  have hstep : (g.links minQ).Step = g.Joined minQ := by
    funext x y
    exact propext mem_neighbours
  rw [← hstep]
  exact GraphSearch.mem_search_iff

theorem nodup_reachableFrom (g : ConnectivityGraph) (source : Str) (minQ : ℚ) :
    (g.reachableFrom source minQ).Nodup :=
  GraphSearch.nodup_search _ source

theorem self_mem_reachableFrom (g : ConnectivityGraph) (source : Str) (minQ : ℚ) :
    source ∈ g.reachableFrom source minQ :=
  GraphSearch.self_mem_search _ source

/-- Edges have no direction, so a path leads back the way it came. -/
theorem path_symm {g : ConnectivityGraph} {minQ : ℚ} {x y : Str}
    (h : Relation.ReflTransGen (g.Joined minQ) x y) :
    Relation.ReflTransGen (g.Joined minQ) y x := by
  have hback : ∀ u v, g.Joined minQ u v → g.Joined minQ v u := by
    rintro u v ⟨e, he, hq, hends⟩
    exact ⟨e, he, hq, hends.symm⟩
  induction h with
  | refl => exact Relation.ReflTransGen.refl
  | tail _ hstep ih => exact Relation.ReflTransGen.head (hback _ _ hstep) ih

theorem equivalence_path (g : ConnectivityGraph) (minQ : ℚ) :
    Equivalence (Relation.ReflTransGen (g.Joined minQ)) :=
  ⟨fun _ => Relation.ReflTransGen.refl, path_symm, Relation.ReflTransGen.trans⟩

/-! ### The clusters -/

/-- What is reachable from the first id that remains is taken off, until none remains. -/
def parts (g : ConnectivityGraph) (nodeIds : List Str) (minQ : ℚ) : List (List Str) :=
  GraphSearch.peel (fun start => g.reachableFrom start minQ)
    (fun start => g.self_mem_reachableFrom start minQ) (uniq nodeIds)

/-- The clusters of the ids, each sorted, the largest first. -/
def partitionClusters (g : ConnectivityGraph) (nodeIds : List Str) (minQ : ℚ) : List (List Str) :=
  ((g.parts nodeIds minQ).map fun part => part.insertionSort (· ≤ ·)).insertionSort
    fun a b => b.length ≤ a.length

theorem mem_partitionClusters {g : ConnectivityGraph} {ids : List Str} {minQ : ℚ} {c : List Str} :
    c ∈ g.partitionClusters ids minQ ↔
      ∃ part ∈ g.parts ids minQ, part.insertionSort (· ≤ ·) = c := by
  rw [partitionClusters, List.mem_insertionSort, List.mem_map]

/-- Neither sort moves an id from one cluster to another. -/
theorem perm_flatten_partitionClusters (g : ConnectivityGraph) (minQ : ℚ) {ids : List Str}
    (hids : ids.Nodup) : (g.partitionClusters ids minQ).flatten.Perm ids := by
  have hparts : (g.parts ids minQ).flatten.Perm (uniq ids) :=
    GraphSearch.perm_flatten_peel (fun start => g.nodup_reachableFrom start minQ) (nodup_uniq ids)
  have hsorted : ((g.parts ids minQ).map fun part => part.insertionSort (· ≤ ·)).flatten.Perm
      (g.parts ids minQ).flatten := by
    refine List.Perm.flatten_congr (List.forall₂_map_left_iff.2 (List.forall₂_same.2 ?_))
    exact fun part _ => List.perm_insertionSort _ part
  rw [uniq_eq_self_iff.2 hids] at hparts
  exact ((List.perm_insertionSort _ _).flatten.trans hsorted).trans hparts

/-- Two ids share a cluster when a path joins them. -/
theorem share_cluster_iff {g : ConnectivityGraph} {minQ : ℚ} {ids : List Str} (hids : ids.Nodup)
    {x y : Str} (hx : x ∈ ids) (hy : y ∈ ids) :
    (∃ c ∈ g.partitionClusters ids minQ, x ∈ c ∧ y ∈ c) ↔
      Relation.ReflTransGen (g.Joined minQ) x y := by
  rw [← uniq_eq_self_iff.2 hids] at hy
  have hpart : ∀ part ∈ g.parts ids minQ, x ∈ part →
      (y ∈ part ↔ Relation.ReflTransGen (g.Joined minQ) x y) := fun part hp hxp =>
    GraphSearch.mem_part_iff (g.equivalence_path minQ) (fun _ _ => mem_reachableFrom_iff) hp hxp hy
  constructor
  · rintro ⟨c, hc, hxc, hyc⟩
    obtain ⟨part, hp, rfl⟩ := mem_partitionClusters.1 hc
    rw [List.mem_insertionSort] at hxc hyc
    exact (hpart part hp hxc).1 hyc
  · intro h
    -- the clusters make up the ids, so `x` is in one of them
    obtain ⟨c, hc, hxc⟩ :=
      List.mem_flatten.1 ((g.perm_flatten_partitionClusters minQ hids).mem_iff.2 hx)
    refine ⟨c, hc, hxc, ?_⟩
    obtain ⟨part, hp, rfl⟩ := mem_partitionClusters.1 hc
    rw [List.mem_insertionSort] at hxc ⊢
    exact (hpart part hp hxc).2 h

/-- The clusters come in non-increasing size. -/
theorem pairwise_length_partitionClusters (g : ConnectivityGraph) (ids : List Str) (minQ : ℚ) :
    (g.partitionClusters ids minQ).Pairwise fun c d => d.length ≤ c.length := by
  have total : Std.Total fun a b : List Str => b.length ≤ a.length :=
    ⟨fun a b => Nat.le_total b.length a.length⟩
  have trans : IsTrans (List Str) fun a b => b.length ≤ a.length :=
    ⟨fun _ _ _ hab hbc => Nat.le_trans hbc hab⟩
  exact List.pairwise_insertionSort _ _

/-- **Partition clusters are the connected components**: what is reachable from a node is what a
path of good enough edges joins to it, the clusters divide the ids, two ids share a cluster exactly
when each is reachable from the other, and the largest clusters come first.  The ids need not hold
the ends of all edges. -/
theorem clusters_are_components (g : ConnectivityGraph) (minQ : ℚ) {ids : List Str}
    (hids : ids.Nodup) :
    (∀ s x, x ∈ g.reachableFrom s minQ ↔ Relation.ReflTransGen (g.Joined minQ) s x) ∧
    (g.partitionClusters ids minQ).flatten.Perm ids ∧
    (∀ c ∈ g.partitionClusters ids minQ, c ≠ []) ∧
    (∀ x ∈ ids, ∀ y ∈ ids, (∃ c ∈ g.partitionClusters ids minQ, x ∈ c ∧ y ∈ c) ↔
      y ∈ g.reachableFrom x minQ ∧ x ∈ g.reachableFrom y minQ) ∧
    (g.partitionClusters ids minQ).Pairwise fun c d => d.length ≤ c.length := by
  refine ⟨fun s x => mem_reachableFrom_iff, g.perm_flatten_partitionClusters minQ hids, ?_, ?_,
    g.pairwise_length_partitionClusters ids minQ⟩
  · intro c hc hnil
    obtain ⟨part, hp, rfl⟩ := mem_partitionClusters.1 hc
    have hlength := (List.perm_insertionSort (· ≤ ·) part).length_eq
    rw [hnil, List.length_nil] at hlength
    exact GraphSearch.ne_nil_of_mem_peel hp (List.eq_nil_of_length_eq_zero hlength.symm)
  · intro x hx y hy
    rw [share_cluster_iff hids hx hy, mem_reachableFrom_iff, mem_reachableFrom_iff]
    exact ⟨fun h => ⟨h, path_symm h⟩, And.left⟩

/-- Three nodes, one edge between two of them and a loop at the third. -/
def twoClusters : ConnectivityGraph :=
  (empty.setEdge ⟨lit "n1", lit "n2", 1 / 2⟩).setEdge ⟨lit "n3", lit "n3", 1⟩

theorem clusters_are_components_twoClusters :
    (twoClusters.partitionClusters [lit "n1", lit "n2", lit "n3"] (1 / 4)).flatten.Perm
      [lit "n1", lit "n2", lit "n3"] :=
  (clusters_are_components twoClusters (1 / 4) (by decide)).2.1

end ConnectivityGraph

end Connectivity
