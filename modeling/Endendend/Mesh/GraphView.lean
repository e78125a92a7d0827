/-
**The view of the mesh graph** (`vertex2/connectivityGraph.ts`).

For the display, the nodes of a snapshot are marked whose failure would separate others.  The source
calls this an estimate; it takes out one node after the other and counts the components that are
left, and what it finds are just the nodes that separate two others.

Main definitions:

* `Mesh.adjacency`, `Mesh.estimateBridges` — the lists of neighbours, and the nodes that are marked;
* `Mesh.buildMeshGraphView` — the view, with its links and the ranks of the nodes;
* `Mesh.Linked`, `Mesh.Separates` — an edge between two nodes, and a node on all paths between two
  others.

Main results:

* `Mesh.reach_graphOf_iff` — the lists of neighbours lead where the edges lead;
* `Mesh.mem_estimateBridges_iff` — **the nodes that are marked are those that separate two others**;
* `Mesh.meshGraphView_marks` — a link of the view is marked exactly if one of its ends separates two
  nodes.
-/
import Endendend.Foundation.Components
import Endendend.Mesh.ConsensusEngine
import Endendend.Mesh.DiscoveryEngine

set_option relaxedAutoImplicit false
set_option autoImplicit false

namespace Mesh

open Js GraphSearch

/-! ### Bridges -/

/-- `adj.get(x)?.add(y)` -/
def addNeighbor (adj : OrderedMap Str (List Str)) (x y : Str) : OrderedMap Str (List Str) :=
  match adj.get? x with
  | some ys => adj.set x (setAdd ys y)
  | none => adj

/-- The neighbours of each node; the far end of an edge need not be a node itself. -/
def adjacency (nodeIds : List Str) (edges : List (Str × Str)) : OrderedMap Str (List Str) :=
  edges.foldl (fun adj e => addNeighbor (addNeighbor adj e.1 e.2) e.2 e.1)
    (nodeIds.foldl (fun adj id => adj.set id []) ∅)

/-- The graph that is searched. -/
def graphOf (adj : OrderedMap Str (List Str)) : Successors Str where
  nodes := adj.values.flatten
  next x := (adj.get? x).getD []
  next_mem := by
    intro x y hy
    cases hget : adj.get? x with
    | none =>
        rw [hget] at hy
        cases hy
    | some ys =>
        rw [hget] at hy
        exact List.mem_flatten.2 ⟨ys, OrderedMap.mem_values_iff.2 ⟨x, hget⟩, hy⟩

/-- The components that are left without a node, or with all of them. -/
def componentsWithout (nodeIds : List Str) (adj : OrderedMap Str (List Str)) :
    Option Str → ℕ
  | none => countComponents (graphOf adj) nodeIds
  | some ignore => countComponents ((graphOf adj).without ignore) (nodeIds.filter (· ≠ ignore))

/-- The nodes without which there are more components. -/
def estimateBridges (nodeIds : List Str) (edges : List (Str × Str)) : List Str :=
  let adj := adjacency nodeIds edges
  let baseline := componentsWithout nodeIds adj none
  uniq (nodeIds.filter fun n => componentsWithout nodeIds adj (some n) > baseline)

/-! ### The neighbours of a node -/

/-- Both ends of an edge between two nodes. -/
def Linked (nodeIds : List Str) (edges : List (Str × Str)) (x y : Str) : Prop :=
  x ∈ nodeIds ∧ y ∈ nodeIds ∧ ((x, y) ∈ edges ∨ (y, x) ∈ edges)

/-- The node is on all paths between two others. -/
def Separates (nodeIds : List Str) (edges : List (Str × Str)) (v : Str) : Prop :=
  ∃ x ∈ nodeIds, ∃ y ∈ nodeIds, x ≠ v ∧ y ≠ v ∧
    Relation.ReflTransGen (Linked nodeIds edges) x y ∧
      ¬ Relation.ReflTransGen (fun a b => Linked nodeIds edges a b ∧ a ≠ v ∧ b ≠ v) x y

variable {nodeIds : List Str} {edges : List (Str × Str)} {x y v : Str}

theorem isSome_addNeighbor (adj : OrderedMap Str (List Str)) (x y k : Str) :
    ((addNeighbor adj x y).get? k).isSome = (adj.get? k).isSome := by
  unfold addNeighbor
  split
  · next ys hys =>
      rw [OrderedMap.get?_set]
      split_ifs with hk
      · rw [hk, hys]
        rfl
      · rfl
  · rfl

theorem mem_next_addNeighbor {adj : OrderedMap Str (List Str)} {x y k z : Str} :
    z ∈ (graphOf (addNeighbor adj x y)).next k ↔
      z ∈ (graphOf adj).next k ∨ (adj.get? k).isSome ∧ k = x ∧ z = y := by
  show z ∈ ((addNeighbor adj x y).get? k).getD [] ↔ z ∈ (adj.get? k).getD [] ∨ _
  unfold addNeighbor
  split
  · next ys hys =>
      rw [OrderedMap.get?_set]
      split_ifs with hk
      · rw [hk, hys]
        simp [mem_setAdd]
      · simp [hk]
  · next hnone =>
      refine (or_iff_left ?_).symm
      rintro ⟨hsome, rfl, -⟩
      rw [hnone] at hsome
      cases hsome

/-- The lists after some edges have been read. -/
theorem mem_next_foldl (adj : OrderedMap Str (List Str)) :
    (((edges.foldl (fun adj e => addNeighbor (addNeighbor adj e.1 e.2) e.2 e.1) adj).get?
        x).isSome = (adj.get? x).isSome) ∧
      (y ∈ (graphOf (edges.foldl
          (fun adj e => addNeighbor (addNeighbor adj e.1 e.2) e.2 e.1) adj)).next x ↔
        y ∈ (graphOf adj).next x ∨ (adj.get? x).isSome ∧ ((x, y) ∈ edges ∨ (y, x) ∈ edges)) := by
  induction edges generalizing adj with
  | nil => simp
  | cons e edges ih =>
      obtain ⟨a, b⟩ := e
      obtain ⟨hsome, hmem⟩ := ih (addNeighbor (addNeighbor adj a b) b a)
      rw [List.foldl_cons]
      refine ⟨by rw [hsome, isSome_addNeighbor, isSome_addNeighbor], ?_⟩
      rw [hmem, mem_next_addNeighbor, mem_next_addNeighbor]
      simp only [isSome_addNeighbor, List.mem_cons, Prod.mk.injEq]
      tauto

theorem get?_foldl_nil (m : OrderedMap Str (List Str)) :
    (nodeIds.foldl (fun adj id => adj.set id []) m).get? x =
      if x ∈ nodeIds then some [] else m.get? x := by
  induction nodeIds generalizing m with
  | nil => simp
  | cons id nodeIds ih =>
      rw [List.foldl_cons, ih, OrderedMap.get?_set]
      by_cases hx : x ∈ nodeIds <;> by_cases hid : x = id <;> simp [hx, hid]

/-- The neighbours of a node are the other ends of its edges. -/
theorem mem_next_adjacency :
    y ∈ (graphOf (adjacency nodeIds edges)).next x ↔
      x ∈ nodeIds ∧ ((x, y) ∈ edges ∨ (y, x) ∈ edges) := by
  have hstart : (nodeIds.foldl (fun adj id => adj.set id []) ∅ : OrderedMap Str (List Str)).get? x =
      if x ∈ nodeIds then some [] else none := get?_foldl_nil ∅
  rw [adjacency, (mem_next_foldl _).2, hstart]
  show y ∈ Option.getD _ [] ∨ _ ↔ _
  rw [hstart]
  by_cases hx : x ∈ nodeIds <;> simp [hx]

/-! ### Paths -/

/-- The lists of neighbours lead from node to node where the edges lead. -/
theorem reach_graphOf_iff (avoid : Str → Prop) {G : Successors Str}
    (hG : ∀ a b, G.Step a b ↔ (a ∈ nodeIds ∧ ((a, b) ∈ edges ∨ (b, a) ∈ edges)) ∧ ¬ avoid b)
    (hx : x ∈ nodeIds ∧ ¬ avoid x) (hy : y ∈ nodeIds) :
    Reach G x y ↔
      Relation.ReflTransGen (fun a b => Linked nodeIds edges a b ∧ ¬ avoid a ∧ ¬ avoid b) x y := by
  constructor
  · intro h
    -- every vertex before the end of a path has successors, so it is a node
    have hpath : ∀ z, Reach G x z → ¬ avoid z ∧ (z ∈ nodeIds →
        Relation.ReflTransGen
          (fun a b => Linked nodeIds edges a b ∧ ¬ avoid a ∧ ¬ avoid b) x z) := by
      intro z hz
      induction hz with
      | refl => exact ⟨hx.2, fun _ => Relation.ReflTransGen.refl⟩
      | @tail b c _ hstep ih =>
          obtain ⟨⟨hb, hedge⟩, hc⟩ := (hG b c).1 hstep
          exact ⟨hc, fun hcn => (ih.2 hb).tail ⟨⟨hb, hcn, hedge⟩, ih.1, hc⟩⟩
    exact (hpath y h).2 hy
  · intro h
    refine Relation.ReflTransGen.mono (fun a b hab => ?_) _ _ h
    exact (hG a b).2 ⟨⟨hab.1.1, hab.1.2.2⟩, hab.2.2⟩

/-- Paths along links lead back. -/
theorem reflTransGen_linked_symm (avoid : Str → Prop)
    (h : Relation.ReflTransGen (fun a b => Linked nodeIds edges a b ∧ ¬ avoid a ∧ ¬ avoid b) x y) :
    Relation.ReflTransGen (fun a b => Linked nodeIds edges a b ∧ ¬ avoid a ∧ ¬ avoid b) y x := by
  have hsymm : Std.Symm fun a b => Linked nodeIds edges a b ∧ ¬ avoid a ∧ ¬ avoid b :=
    ⟨fun a b hab => ⟨⟨hab.1.2.1, hab.1.1, hab.1.2.2.symm⟩, hab.2.2, hab.2.1⟩⟩
  exact Relation.ReflTransGen.stdSymm.symm x y h

/-! ### The nodes that are marked -/

/-- **The nodes that are marked are those that separate two others.** -/
theorem mem_estimateBridges_iff (nodeIds : List Str) (edges : List (Str × Str)) (v : Str) :
    v ∈ estimateBridges nodeIds edges ↔ v ∈ nodeIds ∧ Separates nodeIds edges v := by
  set G := graphOf (adjacency nodeIds edges)
  -- the graph with all nodes, and the graph without `v`
  have hall : ∀ a b, G.Step a b ↔
      (a ∈ nodeIds ∧ ((a, b) ∈ edges ∨ (b, a) ∈ edges)) ∧ ¬ False := fun a b =>
    mem_next_adjacency.trans (and_iff_left not_false).symm
  have hwithout : ∀ a b, (G.without v).Step a b ↔
      (a ∈ nodeIds ∧ ((a, b) ∈ edges ∨ (b, a) ∈ edges)) ∧ ¬ b = v := fun a b =>
    step_without.trans (and_congr_left fun _ => mem_next_adjacency)
  have hfree : (fun a b => Linked nodeIds edges a b ∧ ¬ False ∧ ¬ False) =
      Linked nodeIds edges := by
    funext a b
    simp
  have hreach : ∀ x ∈ nodeIds, ∀ y ∈ nodeIds, Reach G x y ↔
      Relation.ReflTransGen (Linked nodeIds edges) x y := fun x hx y hy =>
    hfree ▸ reach_graphOf_iff (fun _ => False) hall ⟨hx, not_false⟩ hy
  have hreach' : ∀ x ∈ nodeIds, ∀ y ∈ nodeIds, x ≠ v → (Reach (G.without v) x y ↔
      Relation.ReflTransGen (fun a b => Linked nodeIds edges a b ∧ a ≠ v ∧ b ≠ v) x y) :=
    fun x hx y hy hxv => reach_graphOf_iff (· = v) hwithout ⟨hx, hxv⟩ hy
  have hsymm : ∀ x ∈ nodeIds, ∀ y ∈ nodeIds, Reach G x y → Reach G y x := by
    intro x hx y hy h
    rw [hreach x hx y hy, ← hfree] at h
    rw [hreach y hy x hx, ← hfree]
    exact reflTransGen_linked_symm (fun _ => False) h
  have hsymm' : ∀ x ∈ nodeIds, ∀ y ∈ nodeIds, x ≠ v → y ≠ v → Reach (G.without v) x y →
      Reach (G.without v) y x := fun x hx y hy hxv hyv h =>
    (hreach' y hy x hx hyv).2 (reflTransGen_linked_symm (· = v) ((hreach' x hx y hy hxv).1 h))
  unfold estimateBridges Separates
  rw [mem_uniq, List.mem_filter, decide_eq_true_eq]
  refine and_congr_right fun _ => (countComponents_without_lt_iff hsymm hsymm').trans ?_
  refine exists_congr fun x => and_congr_right fun hx => exists_congr fun y =>
    and_congr_right fun hy => and_congr_right fun hxv => and_congr_right fun _ => ?_
  rw [hreach x hx y hy, hreach' x hx y hy hxv]

/-! ### The view -/

/-- What the view reads of a snapshot. -/
structure GraphSnapshot where
  edges : List GraphEdge
  partitionClusters : List (List Str)
  operatorReachable : List Str

structure MeshLinkQuality where
  a : Str
  b : Str
  latencyMs : ℚ
  loss01 : ℚ
  quality01 : ℚ
  isBridge : Bool

/-- A label `P0`, `P1`, … is given by its number. -/
structure MeshGraphView where
  nodes : List Str
  links : List MeshLinkQuality
  bridges : List Str
  relayRank : List (Str × ℚ)
  operatorReachable : List Str
  isolated : List Str
  partitionLabels : OrderedMap Str ℕ

namespace GraphSnapshot

variable (snap : GraphSnapshot)

def ends : List (Str × Str) := snap.edges.map fun e => (e.a, e.b)

def nodes : List Str := uniq (snap.edges.flatMap fun e => [e.a, e.b])

end GraphSnapshot

/-- An edge under the conditions of the network, marked if one of its ends is. -/
def linkOf (vector : NetworkConditionVector) (routeInstability01 : ℚ) (bridges : List Str)
    (e : GraphEdge) : MeshLinkQuality :=
  let stress := clamp01 (1 - e.quality01 + routeInstability01 * (35 / 100))
  { a := e.a
    b := e.b
    latencyMs := max 8 (e.latencyMs + vector.baseLatencyMs * (25 / 100) + vector.jitterMs * stress)
    loss01 := clamp01 (e.loss * (55 / 100) + vector.loss01 * (45 / 100))
    quality01 := clamp01 (e.quality01 * (1 - vector.loss01 * (35 / 100)))
    isBridge := bridges.contains e.a || bridges.contains e.b }

/-- The mean of what the links of a node let through. -/
def relayScore (links : List MeshLinkQuality) (peerId : Str) : ℚ :=
  let own := links.filter fun l => l.a = peerId ∨ l.b = peerId
  clamp01 ((own.map fun l => l.quality01 * (1 - l.loss01)).sum / max 1 (own.length : ℚ))

def buildMeshGraphView (snap : GraphSnapshot) (vector : NetworkConditionVector)
    (routeInstability01 : ℚ) : MeshGraphView :=
  let bridges := estimateBridges snap.nodes snap.ends
  let links := snap.edges.map (linkOf vector routeInstability01 bridges)
  { nodes := snap.nodes
    links
    bridges
    relayRank := (snap.nodes.map fun id => (id, relayScore links id)).insertionSort
      fun p q => q.2 ≤ p.2
    operatorReachable := snap.operatorReachable
    isolated := snap.nodes.filter fun id => !snap.operatorReachable.contains id
    partitionLabels := .ofList (snap.partitionClusters.zipIdx.flatMap fun c =>
      c.1.map fun id => (id, c.2)) }

/-- **A link of the view is marked exactly if one of its ends separates two nodes**, and the nodes
are ranked by the mean of their links, the best one first and each one once. -/
theorem meshGraphView_marks (snap : GraphSnapshot) (vector : NetworkConditionVector)
    (routeInstability01 : ℚ) :
    let view := buildMeshGraphView snap vector routeInstability01
    (∀ l ∈ view.links, l.isBridge = true ↔
      Separates snap.nodes snap.ends l.a ∨ Separates snap.nodes snap.ends l.b) ∧
    (view.relayRank.map Prod.fst).Perm snap.nodes ∧
    view.relayRank.Pairwise (fun p q => q.2 ≤ p.2) ∧
    ∀ p ∈ view.relayRank, p.2 = relayScore view.links p.1 ∧ 0 ≤ p.2 ∧ p.2 ≤ 1 := by
  intro view
  have hperm : view.relayRank.Perm (snap.nodes.map fun id => (id, relayScore view.links id)) :=
    List.perm_insertionSort _ _
  refine ⟨fun l hl => ?_, ?_, ?_, fun p hp => ?_⟩
  · obtain ⟨e, he, rfl⟩ := List.mem_map.1 hl
    have hnode : ∀ x, x = e.a ∨ x = e.b → x ∈ snap.nodes := by
      intro x hx
      rw [GraphSnapshot.nodes, mem_uniq, List.mem_flatMap]
      exact ⟨e, he, by simpa using hx⟩
    simp only [linkOf, Bool.or_eq_true, List.contains_iff_mem, mem_estimateBridges_iff,
      hnode e.a (Or.inl rfl), hnode e.b (Or.inr rfl), true_and]
  · refine (hperm.map Prod.fst).trans ?_
    rw [List.map_map]
    exact List.Perm.of_eq (List.map_id snap.nodes)
  · have hsorted := List.pairwise_insertionSort (fun p q : Str × ℚ => q.2 ≤ p.2)
      (snap.nodes.map fun id => (id, relayScore view.links id))
    exact hsorted
  · obtain ⟨id, -, rfl⟩ := List.mem_map.1 (hperm.mem_iff.1 hp)
    exact ⟨rfl, le_max_left _ _, max_le (by decide) (min_le_left _ _)⟩

end Mesh
