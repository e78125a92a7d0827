/-
**Routes from the operator to the nodes** (`mesh/routeOptimizer.ts`).

The edges of a snapshot become lists of neighbours with weights, a search with a lazy queue finds
the cheapest path to a target, and the backup of a path is the cheapest one that is left when one of
its hops is taken out.  The search may go on for ever where weights are not positive, so it is given
fuel.

The weight of an edge is its latency, more with its loss and divided by its quality.  With positive
latencies, and losses that do not make the factor negative, no weight is negative; the search then
ends, and its path is a cheapest one.  An edge whose loss makes its weight negative keeps the search
going between its two ends.

Main definitions:

* `Mesh.Adj`, `Mesh.buildAdj` — the lists of neighbours;
* `Mesh.shortestPath` — the search, and the path that is followed back from the target;
* `Mesh.RoutePlan`, `Mesh.computeRoutePlans` — a path and its backup for every target;
* `Mesh.links` — the neighbours of a node by the edges of a snapshot.

Main results:

* `Mesh.neighbors_buildAdj` — the lists of neighbours are those of the edges;
* `Mesh.shortestPath_eq_some` — **what is found, for weights of any sign**;
* `Mesh.primary_optimal` — **the search ends with a cheapest simple path, or with none exactly if
  the target is not connected**;
* `Mesh.negative_loss_runs_on` — a snapshot for which it does not end.
-/
import Endendend.Foundation.Dijkstra
import Endendend.Mesh.DiscoveryEngine
import Mathlib.Tactic.Linarith
import Mathlib.Tactic.NormNum

set_option relaxedAutoImplicit false
set_option autoImplicit false

namespace Mesh

open Js Walks Dijkstra

/-! ### Neighbours -/

/-- The neighbours of the nodes, each with the weight of an edge to it. -/
abbrev Adj := OrderedMap Str (List (Str × ℚ))

def edgeWeight (e : GraphEdge) : ℚ :=
  e.latencyMs * (1 + e.loss * (25 / 10)) / max (8 / 100) e.quality01

namespace Adj

/-- A list of neighbours for the node, if it has none. -/
def ensure (m : Adj) (k : Str) : Adj := if (m.get? k).isSome then m else m.set k []

def push (m : Adj) (k : Str) (nx : Str × ℚ) : Adj := m.set k ((m.get? k).getD [] ++ [nx])

def neighbors (m : Adj) (k : Str) : List (Str × ℚ) := (m.get? k).getD []

theorem neighbors_ensure (m : Adj) (k v : Str) : (m.ensure k).neighbors v = m.neighbors v := by
  rw [ensure]
  split
  · rfl
  · next hnone =>
      rw [neighbors, neighbors, OrderedMap.get?_set]
      split
      · next hv =>
          subst hv
          rw [Option.not_isSome_iff_eq_none.1 hnone]
          rfl
      · rfl

theorem neighbors_push (m : Adj) (k : Str) (nx : Str × ℚ) (v : Str) :
    (m.push k nx).neighbors v = m.neighbors v ++ if v = k then [nx] else [] := by
  rw [push, neighbors, neighbors, OrderedMap.get?_set]
  split
  · next hv => rw [hv, Option.getD_some]
  · rw [List.append_nil]

/-- The lists without the entries that lead from one node to the other. -/
def dropHop (adj : Adj) (dropA dropB : Str) : Adj where
  entries := adj.entries.map fun p =>
    (p.1, p.2.filter fun x => ¬ ((x.1 = dropB ∧ p.1 = dropA) ∨ (x.1 = dropA ∧ p.1 = dropB)))
  nodup := by
    rw [List.map_map]
    exact adj.nodup

theorem neighbors_dropHop (adj : Adj) (a b v : Str) :
    (adj.dropHop a b).neighbors v =
      (adj.neighbors v).filter fun x => ¬ ((x.1 = b ∧ v = a) ∨ (x.1 = a ∧ v = b)) := by
  have hget := OrderedMap.getList_map (fun (k : Str) (l : List (Str × ℚ)) =>
    l.filter fun x => ¬ ((x.1 = b ∧ k = a) ∨ (x.1 = a ∧ k = b))) v adj.entries
  rw [neighbors, neighbors, OrderedMap.get?, dropHop, hget, OrderedMap.get?]
  cases OrderedMap.getList v adj.entries <;> rfl

end Adj

def buildAdj (snap : ConnectivitySnapshot) : Adj :=
  snap.edges.foldl (fun m e =>
    let w := edgeWeight e
    (((m.ensure e.a).ensure e.b).push e.a (e.b, w)).push e.b (e.a, w)) ∅

/-- The neighbours of a node by the edges of a snapshot. -/
def links (snap : ConnectivitySnapshot) (v : Str) : List (Str × ℚ) :=
  snap.edges.flatMap fun e =>
    (if v = e.a then [(e.b, edgeWeight e)] else []) ++ if v = e.b then [(e.a, edgeWeight e)] else []

/-- **The lists of neighbours are those of the edges.** -/
theorem neighbors_buildAdj (snap : ConnectivitySnapshot) :
    (buildAdj snap).neighbors = links snap := by
  funext v
  rw [buildAdj, links]
  induction snap.edges using List.reverseRecOn with
  | nil => rfl
  | append_singleton edges e ih =>
      rw [List.foldl_append, List.foldl_cons, List.foldl_nil, List.flatMap_append,
        List.flatMap_singleton, Adj.neighbors_push, Adj.neighbors_push, Adj.neighbors_ensure,
        Adj.neighbors_ensure, ih, List.append_assoc]

/-- A neighbour is the other end of an edge. -/
theorem mem_links {snap : ConnectivitySnapshot} {v : Str} {nx : Str × ℚ} :
    nx ∈ links snap v ↔ ∃ e ∈ snap.edges,
      (v = e.a ∧ nx = (e.b, edgeWeight e)) ∨ (v = e.b ∧ nx = (e.a, edgeWeight e)) := by
  rw [links, List.mem_flatMap]
  refine exists_congr fun e => and_congr_right fun _ => ?_
  rw [List.mem_append]
  refine or_congr ?_ ?_
  · split <;> simp [*]
  · split <;> simp [*]

/-- What holds of the ends of all edges holds along a walk, if it holds of its first node. -/
theorem forall_of_walk {snap : ConnectivitySnapshot} {P : Str → Prop}
    (hids : ∀ e ∈ snap.edges, P e.a ∧ P e.b) {u v : Str} (hu : P u) {p : List Str} {c : ℚ}
    (h : Walk (links snap) u v p c) : ∀ x ∈ p, P x := by
  refine h.forall_mem hu fun v nx hnx => ?_
  obtain ⟨e, he, ⟨-, rfl⟩ | ⟨-, rfl⟩⟩ := mem_links.1 hnx
  · exact (hids e he).2
  · exact (hids e he).1

/-- Nodes that are connected with a node that has an id have one. -/
theorem ne_nil_of_connected {snap : ConnectivitySnapshot}
    (hids : ∀ e ∈ snap.edges, e.a ≠ [] ∧ e.b ≠ []) {fromId v : Str} (hfrom : fromId ≠ [])
    (h : Connected (links snap) fromId v) : v ≠ [] := by
  obtain ⟨p, c, hwalk⟩ := h
  exact forall_of_walk (P := (· ≠ [])) hids hfrom hwalk v (List.mem_of_getLast? hwalk.getLast?)

/-! ### Paths -/

/-- The cheapest path with its cost, or none; without enough fuel there is no answer. -/
def shortestPath (fuel : ℕ) (adj : Adj) (fromId toId : Str) : Option (Option (List Str × ℚ)) :=
  match search adj.neighbors toId fuel (start fromId) with
  | none => none
  | some s =>
    match s.dist toId with
    | none => some none
    | some cost =>
      (walkBack s.prev (· ≠ []) fuel (some toId)).map fun path => some (path.reverse, cost)

section ShortestPath

variable {fuel : ℕ} {adj : Adj} {fromId toId : Str}

/-- An answer comes from a search that has stopped, and from walking back if it is a path. -/
theorem shortestPath_cases {r : Option (List Str × ℚ)}
    (h : shortestPath fuel adj fromId toId = some r) :
    ∃ s, search adj.neighbors toId fuel (start fromId) = some s ∧
      ((s.dist toId = none ∧ r = none) ∨
        ∃ cost p, s.dist toId = some cost ∧ walkBack s.prev (· ≠ []) fuel (some toId) = some p ∧
          r = some (p.reverse, cost)) := by
  rw [shortestPath] at h
  split at h
  · exact absurd h (by simp)
  · next s hs =>
      refine ⟨s, hs, ?_⟩
      split at h
      · next hnone => exact Or.inl ⟨hnone, (Option.some.inj h).symm⟩
      · next cost hcost =>
          obtain ⟨p, hp, heq⟩ := Option.map_eq_some_iff.1 h
          exact Or.inr ⟨cost, p, hcost, hp, heq.symm⟩

/-- **What is found, for weights of any sign.** -/
theorem shortestPath_eq_some {r : Option (List Str × ℚ)}
    (hids : ∀ v, Connected adj.neighbors fromId v → v ≠ [])
    (h : shortestPath fuel adj fromId toId = some r) :
    (r = none ↔ ¬ Connected adj.neighbors fromId toId) ∧
      ∀ path cost, r = some (path, cost) →
        path.Nodup ∧ ∃ c, Walk adj.neighbors fromId toId path c := by
  obtain ⟨s, hs, hcases⟩ := shortestPath_cases h
  obtain ⟨t, hinv, hstop⟩ := Inv.of_search hs
  rw [← hinv.reached_iff hstop]
  rcases hcases with ⟨hnone, rfl⟩ | ⟨cost, p, hcost, hp, rfl⟩
  · exact ⟨by simp [hnone], fun path cost h => absurd h (by simp)⟩
  · refine ⟨by simp [hcost], fun path cost h => ?_⟩
    obtain ⟨rfl, rfl⟩ := Prod.mk.inj (Option.some.inj h)
    refine ⟨List.nodup_reverse.2 (walkBack_nodup hp), ?_⟩
    exact hinv.walk_of_walkBack hstop (fun v hv => decide_eq_true (hids v hv)) hcost hp

/-- **Without negative weights the cost is that of the path, and no walk is cheaper.** -/
theorem shortestPath_cost (hids : ∀ v, Connected adj.neighbors fromId v → v ≠ [])
    (hnn : ∀ v, ∀ nx ∈ adj.neighbors v, 0 ≤ nx.2) {path : List Str} {cost : ℚ}
    (h : shortestPath fuel adj fromId toId = some (some (path, cost))) :
    Walk adj.neighbors fromId toId path cost ∧
      ∀ p c, Walk adj.neighbors fromId toId p c → cost ≤ c := by
  obtain ⟨s, hs, hcases⟩ := shortestPath_cases h
  obtain ⟨t, hset, hstop⟩ := Settling.of_search hnn hs
  rcases hcases with ⟨-, heq⟩ | ⟨cost, p, hcost, hp, heq⟩
  · exact absurd heq (by simp)
  · obtain ⟨rfl, rfl⟩ := Prod.mk.inj (Option.some.inj heq)
    refine ⟨?_, fun q c hwalk => hset.dist_le hnn hstop hcost hwalk⟩
    exact hset.walk_of_walkBack hstop (fun v hv => decide_eq_true (hids v hv)) hcost hp

/-- The rounds that suffice without negative weights. -/
def searchFuel (adj : Adj) : ℕ := (adj.keys.map fun v => (adj.neighbors v).length).sum + 3

/-- The source and all neighbours: the nodes that can be connected. -/
def reachable (adj : Adj) (fromId : Str) : Finset Str :=
  insert fromId ((adj.keys.flatMap adj.neighbors).map Prod.fst).toFinset

theorem neighbors_of_notMem {v : Str} (h : v ∉ adj.keys) : adj.neighbors v = [] := by
  rw [Adj.neighbors, OrderedMap.get?, OrderedMap.getList_eq_none_iff.2 h, Option.getD_none]

theorem mem_reachable {v : Str} (h : Connected adj.neighbors fromId v) :
    v ∈ reachable adj fromId := by
  obtain ⟨p, c, hwalk⟩ := h
  cases hwalk with
  | refl => exact Finset.mem_insert_self _ _
  | @step u _ p c w _ hedge =>
      have hu : u ∈ adj.keys := by
        by_contra hout
        rw [neighbors_of_notMem hout] at hedge
        exact List.not_mem_nil hedge
      have hentry : (v, w) ∈ adj.keys.flatMap adj.neighbors := List.mem_flatMap.2 ⟨u, hu, hedge⟩
      exact Finset.mem_insert_of_mem (List.mem_toFinset.2 (List.mem_map_of_mem hentry))

theorem card_reachable_lt (adj : Adj) (fromId : Str) :
    (reachable adj fromId).card + 2 ≤ searchFuel adj := by
  have hinsert := Finset.card_insert_le fromId
    ((adj.keys.flatMap adj.neighbors).map Prod.fst).toFinset
  have hlist := List.toFinset_card_le ((adj.keys.flatMap adj.neighbors).map Prod.fst)
  rw [List.length_map, List.length_flatMap] at hlist
  rw [reachable, searchFuel]
  omega

/-- **Without negative weights there is an answer.** -/
theorem shortestPath_isSome (hnn : ∀ v, ∀ nx ∈ adj.neighbors v, 0 ≤ nx.2)
    (hfuel : searchFuel adj ≤ fuel) : ∃ r, shortestPath fuel adj fromId toId = some r := by
  have hcard := card_reachable_lt adj fromId
  have hnodes : ∀ v, v ∉ adj.keys → adj.neighbors v = [] := fun v => neighbors_of_notMem
  have hwork : work adj.neighbors adj.keys (start fromId) < fuel := by
    have hle := work_le adj.neighbors adj.keys (start fromId)
    have hone : (start fromId : Search Str ℚ).pq.length = 1 := rfl
    rw [searchFuel] at hfuel
    omega
  obtain ⟨s, hs⟩ : ∃ s, search adj.neighbors toId fuel (start fromId) = some s :=
    Settling.search_isSome hnn hnodes .start hwork
  obtain ⟨t, hset, hstop⟩ := Settling.of_search hnn hs
  rw [shortestPath, hs]
  dsimp only
  cases hcost : s.dist toId with
  | none => exact ⟨none, rfl⟩
  | some cost =>
      obtain ⟨p, hp⟩ : ∃ p, walkBack s.prev (· ≠ []) fuel (some toId) = some p :=
        hset.walkBack_isSome hstop (fun v => mem_reachable) hcost (by omega)
      refine ⟨some (p.reverse, cost), ?_⟩
      dsimp only
      rw [hp, Option.map_some]

end ShortestPath

/-- The quality of the links of a path. -/
def linkQuality (snap : ConnectivitySnapshot) : ℚ → List (Str × Str) → ℚ
  | acc, [] => max (5 / 100) (min 1 acc)
  | acc, (a, b) :: hops =>
    match edgeBetween snap a b with
    | none => 1 / 10
    | some e => linkQuality snap (acc * max (5 / 100) (e.quality01 * (1 - e.loss))) hops

def pathQuality (path : List Str) (snap : ConnectivitySnapshot) : ℚ :=
  if path.length < 2 then 35 / 100 else linkQuality snap 1 (hops path)

/-! ### Plans -/

structure RoutePlan where
  topic : Str
  fromId : Str
  toId : Str
  primaryPath : List Str
  backupPath : List Str
  primaryQuality01 : ℚ
  backupQuality01 : ℚ
  deriving DecidableEq

def topics : List Str :=
  [lit "state_sync", lit "discovery_gossip", lit "task_update", lit "heartbeat_propagation",
    lit "recovery_sync"]

/-- `path.join()`. -/
def joinPath (path : List Str) : Str := (lit ",").intercalate path

/-- The first path that is found without one of the hops and reads differently. -/
def findBackup (fuel : ℕ) (adj : Adj) (fromId toId : Str) (primary : List Str) :
    List (Str × Str) → Option (Option (List Str))
  | [] => some none
  | (dropA, dropB) :: hops =>
    match shortestPath fuel (adj.dropHop dropA dropB) fromId toId with
    | none => none
    | some none => findBackup fuel adj fromId toId primary hops
    | some (some (path, _)) =>
      if joinPath path ≠ joinPath primary then some (some path)
      else findBackup fuel adj fromId toId primary hops

/-- The arguments of `computeRoutePlans`. -/
structure RouteArgs where
  snap : ConnectivitySnapshot
  operatorId : Str
  targets : List Str

/-- The plans with the one for a further target, if it is connected with the operator. -/
def addPlan (fuel : ℕ) (args : RouteArgs) (adj : Adj) (plans : List RoutePlan) (tgt : Str) :
    Option (List RoutePlan) :=
  if tgt = args.operatorId then some plans
  else
    match shortestPath fuel adj args.operatorId tgt with
    | none => none
    | some none => some plans
    | some (some (primary, _)) =>
      (findBackup fuel adj args.operatorId tgt primary (hops primary)).map fun backup =>
        plans ++ [{
          topic := topics.getD (plans.length % topics.length) []
          fromId := args.operatorId
          toId := tgt
          primaryPath := primary
          -- without a backup the primary path is read backwards
          backupPath := if backup.getD [] ≠ [] then backup.getD [] else primary.reverse
          primaryQuality01 := pathQuality primary args.snap
          backupQuality01 := (backup.map (pathQuality · args.snap)).getD (8 / 100) }]

def computeRoutePlans (fuel : ℕ) (args : RouteArgs) : Option (List RoutePlan) :=
  (args.targets.foldlM (addPlan fuel args (buildAdj args.snap)) []).map (·.take 6)

end Mesh

namespace Mesh

open Js Walks Dijkstra

/-! ### Weights -/

theorem edgeWeight_nonneg {e : GraphEdge} (hlatency : 0 < e.latencyMs)
    (hloss : -(4 / 10) ≤ e.loss) : 0 ≤ edgeWeight e := by
  have hfactor : 0 ≤ 1 + e.loss * (25 / 10) := by linarith
  have hquality : 0 ≤ max (8 / 100) e.quality01 := le_max_of_le_left (by norm_num)
  exact div_nonneg (mul_nonneg hlatency.le hfactor) hquality

theorem links_nonneg {snap : ConnectivitySnapshot}
    (hsnap : ∀ e ∈ snap.edges, 0 < e.latencyMs ∧ -(4 / 10) ≤ e.loss) (v : Str) :
    ∀ nx ∈ links snap v, 0 ≤ nx.2 := by
  intro nx hnx
  obtain ⟨e, he, ⟨-, rfl⟩ | ⟨-, rfl⟩⟩ := mem_links.1 hnx
  · exact edgeWeight_nonneg (hsnap e he).1 (hsnap e he).2
  · exact edgeWeight_nonneg (hsnap e he).1 (hsnap e he).2

/-! ### Cheapest paths -/

/-- **The search ends with a cheapest simple path, or with none exactly if the target is not
connected**, when no weight is negative. -/
theorem primary_optimal (snap : ConnectivitySnapshot) (fromId toId : Str) (hfrom : fromId ≠ [])
    (hids : ∀ e ∈ snap.edges, e.a ≠ [] ∧ e.b ≠ [])
    (hsnap : ∀ e ∈ snap.edges, 0 < e.latencyMs ∧ -(4 / 10) ≤ e.loss) {fuel : ℕ}
    (hfuel : searchFuel (buildAdj snap) ≤ fuel) :
    ∃ r, shortestPath fuel (buildAdj snap) fromId toId = some r ∧
      (r = none ↔ ¬ Connected (links snap) fromId toId) ∧
      ∀ path cost, r = some (path, cost) →
        path.Nodup ∧ Walk (links snap) fromId toId path cost ∧
          ∀ p c, Walk (links snap) fromId toId p c → cost ≤ c := by
  have hlinks := neighbors_buildAdj snap
  have hlive : ∀ v, Connected (buildAdj snap).neighbors fromId v → v ≠ [] := fun v hv =>
    ne_nil_of_connected hids hfrom (hlinks ▸ hv)
  have hnn : ∀ v, ∀ nx ∈ (buildAdj snap).neighbors v, 0 ≤ nx.2 := fun v nx hnx =>
    links_nonneg hsnap v nx (hlinks ▸ hnx)
  obtain ⟨r, hr⟩ : ∃ r, shortestPath fuel (buildAdj snap) fromId toId = some r :=
    shortestPath_isSome hnn hfuel
  obtain ⟨hnone, hpath⟩ := shortestPath_eq_some hlive hr
  rw [← hlinks]
  refine ⟨r, hr, hnone, fun path cost heq => ?_⟩
  subst heq
  exact ⟨(hpath path cost rfl).1, shortestPath_cost hlive hnn hr⟩

/-- An operator, a relay and a target, and a slow direct edge. -/
def relaySnapshot : ConnectivitySnapshot where
  edges := [
    { a := lit "o", b := lit "t", latencyMs := 200, loss := 5 / 100, quality01 := 1 / 2 },
    { a := lit "o", b := lit "r", latencyMs := 40, loss := 5 / 100, quality01 := 9 / 10 },
    { a := lit "r", b := lit "t", latencyMs := 40, loss := 5 / 100, quality01 := 9 / 10 }]
  stalePeers := []

theorem primary_optimal_relay :
    ∃ r, shortestPath (searchFuel (buildAdj relaySnapshot)) (buildAdj relaySnapshot) (lit "o")
        (lit "t") = some r ∧
      (r = none ↔ ¬ Connected (links relaySnapshot) (lit "o") (lit "t")) ∧
      ∀ path cost, r = some (path, cost) →
        path.Nodup ∧ Walk (links relaySnapshot) (lit "o") (lit "t") path cost ∧
          ∀ p c, Walk (links relaySnapshot) (lit "o") (lit "t") p c → cost ≤ c :=
  primary_optimal relaySnapshot (lit "o") (lit "t") (by decide) (by decide)
    (by decide +kernel) (Nat.le_refl _)

/-! ### A negative weight -/

def lossyEdge : GraphEdge :=
  { a := lit "a", b := lit "b", latencyMs := 1, loss := -1, quality01 := 1 }

/-- One edge, with a negative loss. -/
def lossySnapshot : ConnectivitySnapshot := ⟨[lossyEdge], []⟩

/-- The search for a third node lowers the distances of the two for ever. -/
theorem negative_loss_runs_on :
    (∀ e ∈ lossySnapshot.edges, e.a ≠ [] ∧ e.b ≠ [] ∧ 0 < e.latencyMs) ∧
      ¬ ∃ fuel r, shortestPath fuel (buildAdj lossySnapshot) (lit "a") (lit "c") = some r := by
  refine ⟨by decide, ?_⟩
  rintro ⟨fuel, r, hr⟩
  have hweight : edgeWeight lossyEdge < 0 := by
    rw [edgeWeight, lossyEdge]
    norm_num
  have ha : links lossySnapshot (lit "a") = [(lit "b", edgeWeight lossyEdge)] := rfl
  have hb : links lossySnapshot (lit "b") = [(lit "a", edgeWeight lossyEdge)] := rfl
  obtain ⟨s, hs, -⟩ := shortestPath_cases hr
  have hnever : search (links lossySnapshot) (lit "c") fuel (start (lit "a")) = none :=
    search_eq_none_of_neg hweight (by decide) ha hb (by decide) (by decide) fuel rfl
      (dist_start (lit "a") (lit "a")) fun e he => absurd (start_dist he).1 (by decide)
  rw [neighbors_buildAdj, hnever] at hs
  exact absurd hs (by simp)

end Mesh
