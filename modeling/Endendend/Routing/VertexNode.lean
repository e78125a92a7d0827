/-
**A mesh of vertex nodes** (`swarm/vertex_node.py`, on the emulator of `swarm/network_emulator.py`).

Every node ticks from time to time: it looks at its links, enters its neighbours in its routing
table, drops stale rows and, when it is due, sends the best rows of its table to its neighbours,
which enter them at once.  Messages to a destination go from node to node along the best rows.

Main definitions:

* `Routing.VertexNode`, with `tickMesh` and `handleRoutingUpdate`;
* `Routing.meshStep` — one tick of one node, with the updates that it sends;
* `Routing.handleForward`, `Routing.sendTo` — a message on its way, and what it hands to the
  applications of the nodes.
-/
import Endendend.Routing.RoutingTable
import Endendend.Routing.Topology
import Endendend.Foundation.Runs
import Mathlib.Logic.Function.Basic

set_option relaxedAutoImplicit false
set_option autoImplicit false

namespace Routing

variable {Id : Type*}

/-! ### Nodes -/

structure VertexNode (Id : Type*) where
  nodeId : Id
  routing : RoutingTable Id
  neighbors : List Id
  lastRoutingTick : ℚ
  advSeq : ℤ

/-- The time between two advertisements of a node with few neighbours. -/
def routingPeriodBase : ℚ := 5

/-- The greatest number of destinations in an advertisement. -/
def maxAdvertiseDests : ℕ := 64

/-- The age from which a row is stale. -/
def maxAge : ℚ := 30

/-- What the clock shows in a tick: when each neighbour is entered, when stale rows are dropped, and
when a neighbour that gets the update enters the row for a destination. -/
structure TickClock (Id : Type*) where
  added : Id → ℚ
  cleanup : ℚ
  received : Id → Id → ℚ

/-- The time between two advertisements; `log` is the natural logarithm. -/
def routingPeriod (log : ℚ → ℚ) (neighbors : ℕ) : ℚ :=
  routingPeriodBase * (1 + log (max 1 neighbors : ℕ) / 10)

namespace VertexNode

/-- A node before its first tick. -/
def new (nodeId : Id) : VertexNode Id where
  nodeId
  routing := .new nodeId 3
  neighbors := []
  lastRoutingTick := 0
  advSeq := 0

variable [LinearOrder Id] (node : VertexNode Id)

/-- Looks at the links: rows through nodes that are not neighbours any more are dropped. -/
def refreshNeighbors (peers : List Id) : VertexNode Id :=
  { node with
    routing := (node.neighbors.filter fun n => ¬ peers.contains n).foldl .removeRoutesVia
      node.routing
    neighbors := peers }

/-- Enters the neighbours in the routing table. -/
def addNeighbors (added : Id → ℚ) : VertexNode Id :=
  { node with
    routing := node.neighbors.foldl (fun r n => r.addRoute n n 1 node.advSeq (added n))
      node.routing }

/-- A node when it is about to drop its stale rows. -/
def readied (peers : List Id) (clock : TickClock Id) : VertexNode Id :=
  (node.refreshNeighbors peers).addNeighbors clock.added

/-- Is the node due to advertise its routes? -/
def due (log : ℚ → ℚ) (now : ℚ) (peers : List Id) : Bool :=
  now - node.lastRoutingTick ≥ routingPeriod log peers.length

/-- A tick, and the update that it sends to the neighbours with its number, if one is due. -/
def tickMesh (log : ℚ → ℚ) (now : ℚ) (peers : List Id) (clock : TickClock Id) :
    VertexNode Id × Option (List (Advertised Id) × ℤ) :=
  let due := node.due log now peers
  let node := node.readied peers clock
  let node := { node with routing := node.routing.cleanupStale clock.cleanup maxAge }
  if due then
    let node := { node with lastRoutingTick := now, advSeq := node.advSeq + 1 }
    (node, some (node.routing.advertise (some maxAdvertiseDests), node.advSeq))
  else (node, none)

/-- Enters the routes of a neighbour, at one more than they cost it. -/
def handleRoutingUpdate (sender : Id) (routes : List (Advertised Id)) (packetSeq : ℤ)
    (now : Id → ℚ) : VertexNode Id :=
  { node with
    routing := routes.foldl (fun r item =>
      r.addRoute item.dest sender (item.cost + 1) packetSeq (now item.dest)) node.routing }

end VertexNode

/-! ### The mesh -/

/-- The nodes of a mesh. -/
abbrev Mesh (Id : Type*) := Id → VertexNode Id

/-- The nodes before their first ticks. -/
def newMesh : Mesh Id := VertexNode.new

/-- A tick of a node: the time that it is given, the order in which it goes through its neighbours,
and what the clock shows. -/
structure Tick (Id : Type*) where
  node : Id
  now : ℚ
  peers : List Id
  clock : TickClock Id

variable [LinearOrder Id]

/-- A registered node ticks, and goes through its neighbours. -/
def Enabled (T : Topology Id) (tick : Tick Id) : Prop :=
  T.ids.contains tick.node = true ∧ tick.peers.Perm (T.neighbors tick.node)

instance (T : Topology Id) (tick : Tick Id) : Decidable (Enabled T tick) := by
  unfold Enabled
  infer_instance

/-- The neighbours that an update is sent to enter its routes. -/
def spread (w : Mesh Id) (sender : Id) (routes : List (Advertised Id)) (seq : ℤ)
    (received : Id → Id → ℚ) (peers : List Id) : Mesh Id :=
  peers.foldl (fun w n =>
    Function.update w n ((w n).handleRoutingUpdate sender routes seq (received n))) w

/-- A tick in the mesh. -/
def afterTick (log : ℚ → ℚ) (w : Mesh Id) (tick : Tick Id) : Mesh Id :=
  let r := (w tick.node).tickMesh log tick.now tick.peers tick.clock
  let w := Function.update w tick.node r.1
  match r.2 with
  | none => w
  | some (routes, seq) => spread w tick.node routes seq tick.clock.received tick.peers

/-- Ticks as steps. -/
def meshStep (T : Topology Id) (log : ℚ → ℚ) (w : Mesh Id) (tick : Tick Id) : Option (Mesh Id) :=
  if Enabled T tick then some (afterTick log w tick) else none

/-! ### Messages to a destination -/

/-- A payload that is handed to the application of a node. -/
structure Delivery (Id α : Type*) where
  node : Id
  source : Id
  payload : α
  deriving DecidableEq

variable {α : Type*}

/-- The neighbour to which a message goes on: the best one, or another one if the message has just
come from there. -/
def nextHopOf (node : VertexNode Id) (sender dest : Id) (row : RouteRow Id) : Id :=
  if row.nextHop = sender then
    ((node.routing.getNextHops dest 3).find? (· ≠ sender)).getD row.nextHop
  else row.nextHop

/-- What a message hands to the applications when it comes to a node from a sender, with the number
of hops that it may still make, the one to the node among them; with none left it is dropped. -/
def handleForward (T : Topology Id) (w : Mesh Id) (dest : Id) (payload : α) (source : Id) :
    ℕ → Id → Id → List (Delivery Id α)
  | 0, _, _ => []
  | ttl + 1, sender, node =>
    if dest = node then [⟨node, source, payload⟩]
    else
      match (w node).routing.getBest dest with
      | none => []
      | some row =>
        let nextHop := nextHopOf (w node) sender dest row
        if T.linked node nextHop then handleForward T w dest payload source ttl node nextHop else []

/-- Sends a payload to a destination: whether there is a route, what the applications are handed,
and the mesh after the sender has looked at its links.  A `ttl` below zero counts as none. -/
def sendTo (T : Topology Id) (w : Mesh Id) (sender dest : Id) (payload : α) (ttl : ℤ)
    (peers : List Id) : Bool × List (Delivery Id α) × Mesh Id :=
  let w := Function.update w sender ((w sender).refreshNeighbors peers)
  match (w sender).routing.getBest dest with
  | none => (false, [], w)
  | some row =>
    (true, if T.linked sender row.nextHop then
      handleForward T w dest payload sender ttl.toNat sender row.nextHop else [], w)

end Routing
