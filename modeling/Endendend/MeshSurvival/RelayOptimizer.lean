/-
**The widest path of relays** (`mesh_survival/topology/relay_optimizer.py`).

The width of a path is what its worst link delivers.  The search takes the node with the widest path
so far, as in a search for cheapest paths, and stops at the sink.

Main definitions:

* `MeshSurvival.widestPathCapacity` — the search;
* `MeshSurvival.PathOver` — a path over links that deliver enough;
* `MeshSurvival.leastDelivery` — its width.

Main results:

* `MeshSurvival.way_iff` — the ways of the search are the paths, with their widths;
* `MeshSurvival.reachable_iff_path` — a node is reachable if and only if there is a path;
* `MeshSurvival.widest_path_maximin` — **the search ends, finds no path exactly if the sink is not
  reachable, and else a simple path of the greatest width**.
-/
import Endendend.Foundation.BestFirst
import Endendend.MeshSurvival.ConnectivityMatrix

set_option relaxedAutoImplicit false
set_option autoImplicit false

namespace MeshSurvival

open Walks ConnectivityMatrix
open BestFirst (Problem Way Falling)

variable {Id : Type*} [LinearOrder Id]

/-! ### The search -/

/-- The search problem: a link cuts the width down to what it delivers. -/
def widestPath (mat : ConnectivityMatrix Id) (source : Id) (minEdgeDelivery : ℚ) :
    Problem Id ℚ ℚ where
  adj := mat.usable minEdgeDelivery
  ext := min
  source
  start := 1
  worst := 0

/-- The width of the widest path and its nodes; there are none if the nodes are not connected. -/
def widestPathCapacity (mat : ConnectivityMatrix Id) (fuel : ℕ) (source sink : Id)
    (minEdgeDelivery : ℚ) : Option (ℚ × List Id) :=
  let P := widestPath mat source minEdgeDelivery
  (P.search sink fuel P.init).bind fun r =>
    match r.1 with
    | none => some (0, [])
    | some cap =>
      (walkBack r.2.prev (fun _ => true) fuel (some sink)).map fun path => (cap, path.reverse)

/-! ### Paths -/

/-- A path between two nodes over links that deliver at least so much. -/
structure PathOver (mat : ConnectivityMatrix Id) (minDelivery : ℚ) (source sink : Id)
    (path : List Id) : Prop where
  head : path.head? = some source
  last : path.getLast? = some sink
  links : ∀ h ∈ hops path, ∃ d, mat.delivery h.1 h.2 = some d ∧ minDelivery ≤ d

/-- The deliveries of the links of a path. -/
def deliveries (mat : ConnectivityMatrix Id) (path : List Id) : List ℚ :=
  (hops path).filterMap fun h => mat.delivery h.1 h.2

/-- The least of them; no link delivers more than `1`. -/
def leastDelivery (mat : ConnectivityMatrix Id) (path : List Id) : ℚ :=
  (deliveries mat path).foldr min 1

theorem foldr_min_concat (ds : List ℚ) {d : ℚ} (hd : d ≤ 1) :
    (ds ++ [d]).foldr min 1 = min (ds.foldr min 1) d := by
  induction ds with
  | nil => exact (min_eq_left hd).trans (min_eq_right hd).symm
  | cons d' ds ih => rw [List.cons_append, List.foldr_cons, ih, List.foldr_cons, min_assoc]

variable {mat : ConnectivityMatrix Id} {minDelivery : ℚ} {source sink v x : Id}

theorem pathOver_singleton (mat : ConnectivityMatrix Id) (minDelivery : ℚ) (source : Id) :
    PathOver mat minDelivery source source [source] where
  head := rfl
  last := rfl
  links _ hmem := absurd hmem List.not_mem_nil

theorem PathOver.concat {p : List Id} (h : PathOver mat minDelivery source v p) {d : ℚ}
    (hedge : (x, d) ∈ mat.usable minDelivery v) :
    PathOver mat minDelivery source x (p ++ [x]) where
  head := by
    cases p with
    | nil => exact absurd h.head (by simp)
    | cons a p => exact h.head
  last := List.getLast?_concat
  links hop hmem := by
    rw [hops_concat h.last] at hmem
    rcases List.mem_append.1 hmem with hmem | hmem
    · exact h.links hop hmem
    · obtain rfl := List.mem_singleton.1 hmem
      exact ⟨d, mem_usable_iff.1 hedge⟩

theorem leastDelivery_concat {p : List Id} (hlast : p.getLast? = some v) {d : ℚ}
    (hd : mat.delivery v x = some d) :
    leastDelivery mat (p ++ [x]) = min (leastDelivery mat p) d := by
  have hlist : deliveries mat (p ++ [x]) = deliveries mat p ++ [d] := by
    rw [deliveries, hops_concat hlast, List.filterMap_append]
    simp [deliveries, hd]
  rw [leastDelivery, hlist]
  exact foldr_min_concat _ (mat.bounded _ d hd).2

/-- **The ways of the search are the paths, with their widths.** -/
theorem way_iff {p : List Id} {k : ℚ} :
    Way (widestPath mat source minDelivery) v p k ↔
      PathOver mat minDelivery source v p ∧ k = leastDelivery mat p := by
  constructor
  · intro h
    induction h with
    | refl => exact ⟨pathOver_singleton mat minDelivery source, rfl⟩
    | step _ hedge ih =>
        refine ⟨ih.1.concat hedge, ?_⟩
        rw [leastDelivery_concat ih.1.last (mem_usable_iff.1 hedge).1, ← ih.2]
        rfl
  · rintro ⟨h, rfl⟩
    induction p using List.reverseRecOn generalizing v with
    | nil => exact absurd h.head (by simp)
    | append_singleton p x ih =>
        obtain rfl : x = v := Option.some.inj (List.getLast?_concat.symm.trans h.last)
        cases hlast : p.getLast? with
        | none =>
            obtain rfl := List.getLast?_eq_none_iff.1 hlast
            obtain rfl : x = source := Option.some.inj h.head
            exact .refl
        | some u =>
            have hhops := hops_concat hlast x
            obtain ⟨d, hd, hle⟩ := h.links (u, x) (by simp [hhops])
            have hp : PathOver mat minDelivery source u p := by
              refine ⟨?_, hlast, fun hop hmem => h.links hop (by simp [hhops, hmem])⟩
              cases p with
              | nil => exact absurd hlast (by simp)
              | cons a p => exact h.head
            rw [leastDelivery_concat hlast hd]
            exact (ih hp).step (mem_usable_iff.2 ⟨hd, hle⟩)

/-- **A node is reachable if and only if there is a path.** -/
theorem reachable_iff_path :
    Relation.ReflTransGen (mat.links minDelivery).Step source sink ↔
      ∃ p, PathOver mat minDelivery source sink p := by
  constructor
  · intro h
    induction h with
    | refl => exact ⟨[source], pathOver_singleton mat minDelivery source⟩
    | tail _ hstep ih =>
        obtain ⟨p, hp⟩ := ih
        obtain ⟨d, hedge⟩ := step_links_iff.1 hstep
        exact ⟨_, hp.concat hedge⟩
  · rintro ⟨p, hp⟩
    obtain ⟨k, hk⟩ : ∃ k, k = leastDelivery mat p := ⟨_, rfl⟩
    have hway := way_iff.2 ⟨hp, hk⟩
    clear hp hk
    induction hway with
    | refl => exact .refl
    | step _ hedge ih => exact ih.tail (step_links_iff.2 ⟨_, hedge⟩)

/-! ### The widest path -/

theorem falling_widestPath (mat : ConnectivityMatrix Id) (source : Id) {minDelivery : ℚ}
    (hpos : 0 < minDelivery) : Falling (widestPath mat source minDelivery) where
  ext_le := min_le_left
  ext_mono _ _ w h := min_le_min_right w h
  worst_lt_start := zero_lt_one
  worst_lt_ext _ _ hnx _ hk := lt_min hk (hpos.trans_le (mem_usable_iff.1 hnx).2)

/-- Nodes without links have no neighbours. -/
theorem usable_eq_nil (hv : v ∉ mat.nodes) : mat.usable minDelivery v = [] := by
  refine List.eq_nil_iff_forall_not_mem.2 fun nx hnx => hv ?_
  obtain ⟨hd, -⟩ := mem_usable_iff.1 hnx
  refine mem_nodes_of_delivery (a := nx.1) ?_
  rw [mat.delivery_comm, hd]
  rfl

/-- What the search returns, given the reachability of the sink: nothing if it is not reachable, and
else a simple path whose width is the capacity and the greatest one. -/
structure Widest (mat : ConnectivityMatrix Id) (minDelivery : ℚ) (source sink : Id)
    (cap : ℚ) (path : List Id) (found : Bool) : Prop where
  empty_iff : path = [] ↔ found = false
  simple : path ≠ [] → path.Nodup ∧ PathOver mat minDelivery source sink path
  capacity : path ≠ [] → cap = leastDelivery mat path
  greatest : ∀ p, PathOver mat minDelivery source sink p → leastDelivery mat p ≤ cap

/-- **The widest path**: with enough fuel the search ends and finds no path exactly if the sink is
not reachable, and else a simple path whose width is the capacity and the greatest one. -/
theorem widest_path_maximin (mat : ConnectivityMatrix Id) (source sink : Id) {minDelivery : ℚ}
    (hpos : 0 < minDelivery) :
    ∃ bound, ∀ fuel, bound < fuel → ∃ cap path found,
      widestPathCapacity mat fuel source sink minDelivery = some (cap, path) ∧
      mat.reachable fuel source sink minDelivery = some found ∧
      Widest mat minDelivery source sink cap path found := by
  have hfalling := falling_widestPath mat source hpos
  let P := widestPath mat source minDelivery
  have hinit := BestFirst.inv_init P sink
  let L : Finset Id := insert source mat.nodes.toFinset
  have hL : ∀ v p k, Way P v p k → v ∈ L := by
    intro v p k hway
    cases hway with
    | refl => exact Finset.mem_insert_self _ _
    | @step u _ _ _ _ _ hedge =>
        refine Finset.mem_insert_of_mem (List.mem_toFinset.2 (mem_nodes_of_delivery (a := u) ?_))
        rw [(mem_usable_iff.1 hedge).1]
        rfl
  refine ⟨BestFirst.work P mat.nodes P.init + L.card + mat.nodes.length + 1, fun fuel hfuel => ?_⟩
  obtain ⟨found, hreach, hfound⟩ := @reachable_spec Id _ mat source sink minDelivery fuel
    (by omega : mat.nodes.length + 1 < fuel)
  obtain ⟨⟨value, s'⟩, hsearch⟩ := BestFirst.search_isSome (fun v hv => usable_eq_nil hv) hinit
    (by omega : BestFirst.work P mat.nodes P.init < fuel)
  obtain ⟨t, hended⟩ := BestFirst.ended_of_search hinit hsearch
  have hgreatest : ∀ p, PathOver mat minDelivery source sink p →
      ∃ b, value = some b ∧ leastDelivery mat p ≤ b :=
    fun p hp => hended.le_of_way (way_iff.2 ⟨hp, rfl⟩)
  rw [reachable_iff_path] at hfound
  cases value with
  | none =>
      have hnone : ¬ ∃ p, PathOver mat minDelivery source sink p := by
        rintro ⟨p, hp⟩
        obtain ⟨b, hb, -⟩ := hgreatest p hp
        exact absurd hb (by simp)
      refine ⟨0, [], found, ?_, hreach, ?_⟩
      · simp only [widestPathCapacity]
        rw [hsearch]
        rfl
      · have hfalse : found = false := by simpa [hnone] using hfound
        exact ⟨iff_of_true rfl hfalse, fun h => absurd rfl h, fun h => absurd rfl h,
          fun p hp => absurd ⟨p, hp⟩ hnone⟩
  | some cap =>
      obtain ⟨path, hback, hnodup, hway⟩ := hended.way_of_walkBack hL (by omega : L.card < fuel)
      obtain ⟨hpath, hcap⟩ := way_iff.1 hway
      refine ⟨cap, path.reverse, found, ?_, hreach, ?_⟩
      · simp only [widestPathCapacity]
        rw [hsearch]
        simp only [Option.bind_some, hback, Option.map_some]
      · have hne : path.reverse ≠ [] := by
          intro hnil
          exact absurd hpath.head (by simp [hnil])
        have htrue : found = true := hfound.2 ⟨_, hpath⟩
        refine ⟨iff_of_false hne (by simp [htrue]), fun _ => ⟨?_, hpath⟩, fun _ => hcap, ?_⟩
        · exact List.nodup_reverse.2 hnodup
        · intro p hp
          obtain ⟨b, hb, hle⟩ := hgreatest p hp
          exact Option.some.inj hb ▸ hle

/-- Two relays in a row, and a poor link past them. -/
def twoRelays : ConnectivityMatrix ℕ :=
  (((ConnectivityMatrix.empty.setLink 0 1 10 (1 / 2)).setLink 1 2 10 (3 / 5)).setLink
    0 2 10 (1 / 10))

theorem widest_path_maximin_twoRelays :
    (0 : ℚ) < 1 / 50 ∧ ∃ bound, ∀ fuel, bound < fuel → ∃ cap path found,
      widestPathCapacity twoRelays fuel 0 2 (1 / 50) = some (cap, path) ∧
      twoRelays.reachable fuel 0 2 (1 / 50) = some found ∧
      Widest twoRelays (1 / 50) 0 2 cap path found :=
  have hpos : (0 : ℚ) < 1 / 50 := by decide +kernel
  ⟨hpos, widest_path_maximin twoRelays 0 2 hpos⟩

example : widestPathCapacity twoRelays 10 0 2 (1 / 50) = some (1 / 2, [0, 1, 2]) := by
  decide +kernel

end MeshSurvival
