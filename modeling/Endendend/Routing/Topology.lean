/-
**Links between nodes** (`_refresh_neighbors` of `swarm/vertex_node.py`, on the emulator of
`swarm/network_emulator.py`).

Main definitions:

* `Routing.Topology` — which of the registered nodes are linked; links work in both directions and
  lose nothing;
* `Routing.Topology.graph` — the links as a graph;
* `Routing.Topology.neighbors` — the neighbours that a node finds.
-/
import Mathlib.Combinatorics.SimpleGraph.Basic

set_option relaxedAutoImplicit false
set_option autoImplicit false

namespace Routing

variable {Id : Type*}

/-- Registered nodes and the links between them. -/
structure Topology (Id : Type*) where
  ids : List Id
  nodup : ids.Nodup
  linked : Id → Id → Bool
  symm : ∀ a b, linked a b = true → linked b a = true
  irrefl : ∀ a, linked a a = false
  registered : ∀ a b, linked a b = true → a ∈ ids

namespace Topology

variable (T : Topology Id)

/-- The links as a graph. -/
def graph : SimpleGraph Id where
  Adj a b := T.linked a b = true
  symm := ⟨T.symm⟩
  loopless := ⟨fun a h => by simp [T.irrefl a] at h⟩

/-- The registered nodes that a node has a link to. -/
def neighbors (a : Id) : List Id := T.ids.filter (T.linked a)

variable {T}

theorem mem_ids_of_adj {a b : Id} (h : T.graph.Adj a b) : a ∈ T.ids := T.registered a b h

theorem mem_neighbors {a b : Id} : b ∈ T.neighbors a ↔ T.graph.Adj a b := by
  rw [neighbors, List.mem_filter]
  exact ⟨fun h => h.2, fun h => ⟨mem_ids_of_adj (T.symm a b h), h⟩⟩

end Topology

end Routing
