/-
**The exploration coordinator of the swarm** (`swarm/explorationManager.ts`).

A step shares the frontier of the map among the nodes that explore.  A node without a share falls
back on the assignment that is remembered for it.  Every explorer works some keys of its assignment
and marks their cells, and after every node the frontier grows.  A map without a frontier gets a
bootstrap first: the cells under some nodes are marked as seen.

Main definitions:

* `Coordination.splitFrontiersAmongNodes` — the shares;
* `Coordination.bootstrap` — what a step does to the map before the shares are made;
* `Coordination.stepNode` — the turn of a node;
* `Coordination.ExplorationCoordinator.step` — the step.
-/
import Endendend.FoxMq.MapSyncEngine
import Endendend.Vertex.Replay

set_option relaxedAutoImplicit false
set_option autoImplicit false

namespace Coordination

open Js FoxMq

/-! ### What a step is given -/

inductive MissionNodeRole
  | explorer
  | relay
  | carrier
  | medic
  | observer
  deriving DecidableEq

inductive AutonomyPolicyKind
  | scout_continue
  | relay_maintain
  | rescue_continue
  | map_indoor
  | coordinator_queue
  deriving DecidableEq

/-- A node with its position in the plane. -/
structure SwarmAgentNode where
  nodeId : Str
  role : MissionNodeRole
  autonomyPolicy : AutonomyPolicyKind
  x : ℚ
  z : ℚ

def SwarmAgentNode.isExplorer (n : SwarmAgentNode) : Bool :=
  decide (n.role = .explorer ∨ n.autonomyPolicy = .scout_continue ∨
    n.autonomyPolicy = .map_indoor)

structure ConnectivitySnapshot where
  edges : List GraphEdge
  operatorReachable : List Str

/-- The quality of the link between a node and the operator, if there is one. -/
def edgeQualityToOperator (graph : ConnectivitySnapshot) (nodeId operatorId : Str) : ℚ :=
  ((graph.edges.find? fun e => decide
    (e.a = nodeId ∧ e.b = operatorId ∨ e.b = nodeId ∧ e.a = operatorId)).map
      (·.quality01)).getD 0

/-- The part of a scenario's profile that a step reads. -/
structure ScenarioMapProfile where
  hazardRate01 : ℚ
  relayImportance01 : ℚ

open Vertex.MissionScenarioKind in
def scenarioMapProfile : Vertex.MissionScenarioKind → ScenarioMapProfile
  | collapsedBuilding => ⟨12 / 100, 62 / 100⟩
  | tunnel => ⟨6 / 100, 78 / 100⟩
  | floodRescue => ⟨15 / 100, 55 / 100⟩
  | wildfire => ⟨22 / 100, 55 / 100⟩
  | hazmat => ⟨28 / 100, 55 / 100⟩
  | indoorSearch => ⟨5 / 100, 55 / 100⟩
  | perimeterSweep => ⟨4 / 100, 48 / 100⟩
  | triageOperation => ⟨8 / 100, 55 / 100⟩
  | nightMission => ⟨9 / 100, 55 / 100⟩
  | extraction => ⟨8 / 100, 50 / 100⟩

/-- The arguments of a step without the map; the draws are numbered. -/
structure StepArgs where
  nodes : List SwarmAgentNode
  connectivityMode : Vertex.VertexConnectivityMode
  graph : ConnectivitySnapshot
  operatorId : Str
  nowMs : ℚ
  rng : ℕ → ℚ
  scenarioMapHint : Str
  scenario : Vertex.MissionScenarioKind

namespace StepArgs

variable (args : StepArgs)

def explorers : List SwarmAgentNode := args.nodes.filter (·.isExplorer)

def opInMesh : Bool :=
  args.graph.edges.any fun e => decide (e.a = args.operatorId ∨ e.b = args.operatorId)

/-- The explorers that can be reached, as far as that matters. -/
def activeExplorers : List SwarmAgentNode :=
  args.explorers.filter fun n =>
    decide (args.connectivityMode = .blackout ∨ args.connectivityMode = .partial_partition) ||
      !args.opInMesh || args.graph.operatorReachable.contains n.nodeId ||
      decide (8 / 100 < edgeQualityToOperator args.graph n.nodeId args.operatorId)

def explorerPool : List SwarmAgentNode :=
  if args.activeExplorers = [] then args.explorers else args.activeExplorers

/-- The nodes among which the frontier is shared. -/
def agentIds : List Str :=
  if args.explorerPool = [] then args.nodes.map (·.nodeId)
  else args.explorerPool.map (·.nodeId)

/-- The nodes whose places are marked when there is no frontier. -/
def seedNodes : List SwarmAgentNode :=
  let seedNodes := (if args.explorerPool = [] then args.explorers else args.explorerPool).take 3
  if seedNodes = [] then args.nodes.take 2 else seedNodes

/-- Is a word part of the hint? -/
def hints (word : Str) : Bool := decide (word <:+: args.scenarioMapHint)

/-- What a cell turns out to be. -/
def rolledState (roll : ℚ) : MapCellState :=
  let prof := scenarioMapProfile args.scenario
  let hazardBias : ℚ :=
    if args.hints (lit "contamination") || args.hints (lit "plume") then 135 / 100 else 1
  let hazard := prof.hazardRate01 * (22 / 100) * hazardBias
  if roll < 55 / 1000 then .blocked
  else if roll < 55 / 1000 + hazard then .hazard
  else if roll < 75 / 1000 + hazard then .unreachable
  else if roll < 9 / 100 + prof.relayImportance01 * (6 / 100) then .relay_critical
  else if roll < 14 / 100 && args.hints (lit "debris") then .blocked
  else .searched

/-- How many keys an explorer takes, by a draw. -/
def pickN (draw : ℚ) : ℕ :=
  (max 1 ⌊1 + draw * (if args.connectivityMode = .degraded then 2 else 3)⌋).toNat

end StepArgs

/-! ### Shares -/

/-- A key goes to the agent whose turn it is. -/
def dealKey (agentIds : List Str) (out : OrderedMap Str (List Str)) (p : Str × ℕ) :
    OrderedMap Str (List Str) :=
  match agentIds[p.2 % agentIds.length]? with
  | none => out
  | some id => out.set id ((out.get? id).getD [] ++ [p.1])

/-- The keys in their order are dealt out to the agents. -/
def splitFrontiersAmongNodes (frontierKeys agentIds : List Str) : OrderedMap Str (List Str) :=
  let out := agentIds.foldl (fun out id => out.set id []) ∅
  if agentIds = [] then out
  else (frontierKeys.insertionSort (· ≤ ·)).zipIdx.foldl (dealKey agentIds) out

structure ExplorationAssignment where
  nodeId : Str
  frontierKeys : List Str
  sectorLabel : Str
  deriving DecidableEq

/-- The state of a node after its turn.  The cells it visited are counted in the source. -/
structure NodeExplorationState where
  nodeId : Str
  visited : List Str
  assignment : Option ExplorationAssignment

/-- The assignment of a share that is not empty. -/
def freshAssignment (nodeId : Str) (assignedKeys : List Str) : Option ExplorationAssignment :=
  if assignedKeys = [] then none
  else
    some
      { nodeId
        frontierKeys := assignedKeys
        sectorLabel := lit "sec-" ++
          (Decimal.ofInt ((nodeId.length + assignedKeys.length) % 24 : ℕ)).toStr }

/-! ### Turns -/

/-- The variables of the loop over the keys that an explorer takes. -/
structure PickLoop where
  map : MonotonicSharedMap
  drawn : ℕ
  node : SwarmAgentNode
  visited : List Str

/-- An explorer goes to a cell and marks it, if the key names one. -/
def visitKey (args : StepArgs) (l : PickLoop) (key : Str) : PickLoop :=
  match parseCellKey key with
  | none => l
  | some (gx, gz) =>
    let jitter : ℚ := if args.hints (lit "low_gps") then 35 / 100 else 15 / 100
    { map := (l.map.applyLocalUpdate gx gz (args.rolledState (args.rng (l.drawn + 2))) args.nowMs
        l.node.nodeId none .local_sensor).1
      drawn := l.drawn + 3
      node :=
        { l.node with
          x := gx.val * 4 + (args.rng l.drawn - 1 / 2) * 4 * jitter
          z := gz.val * 4 + (args.rng (l.drawn + 1) - 1 / 2) * 4 * jitter }
      visited := l.visited ++ [key] }

/-- The variables of the loop over the nodes. -/
structure NodeLoop where
  map : MonotonicSharedMap
  lastAssignments : OrderedMap Str ExplorationAssignment
  drawn : ℕ
  nodes : List SwarmAgentNode
  states : List NodeExplorationState

/-- The keys that a node has to work, if it explores. -/
def workKeys (n : SwarmAgentNode) (assignment : Option ExplorationAssignment) : List Str :=
  if n.isExplorer then (assignment.map (·.frontierKeys)).getD [] else []

/-- An explorer works the first keys of its assignment. -/
def explore (args : StepArgs) (n : SwarmAgentNode) (assignment : Option ExplorationAssignment)
    (map : MonotonicSharedMap) (drawn : ℕ) : PickLoop :=
  let keys := workKeys n assignment
  if keys = [] then ⟨map, drawn, n, []⟩
  else (keys.take (args.pickN (args.rng drawn))).foldl (visitKey args) ⟨map, drawn + 1, n, []⟩

/-- The turn of a node. -/
def stepNode (args : StepArgs) (split : OrderedMap Str (List Str)) (l : NodeLoop)
    (n : SwarmAgentNode) : NodeLoop :=
  let assignedKeys := (split.get? n.nodeId).getD []
  let assignment := (freshAssignment n.nodeId assignedKeys).or (l.lastAssignments.get? n.nodeId)
  let lastAssignments :=
    match assignment with
    | none => l.lastAssignments
    | some a => if a.frontierKeys = [] then l.lastAssignments else l.lastAssignments.set n.nodeId a
  let e := explore args n assignment l.map l.drawn
  { map := e.map.recomputeFrontiers args.nowMs n.nodeId
    lastAssignments
    drawn := e.drawn
    nodes := l.nodes ++ [e.node]
    states := l.states ++ [⟨n.nodeId, e.visited, assignment⟩] }

/-! ### The step -/

/-- The cell under a node is marked as seen. -/
def seedCell (nowMs : ℚ) (map : MonotonicSharedMap) (n : SwarmAgentNode) : MonotonicSharedMap :=
  let (gx, gz) := MonotonicSharedMap.worldToGrid n.x n.z
  (map.applyLocalUpdate gx gz .seen nowMs n.nodeId none .local_sensor).1

/-- A map without a frontier gets some cells that are seen. -/
def bootstrap (args : StepArgs) (map : MonotonicSharedMap) : MonotonicSharedMap :=
  if map.frontierKeys = [] then
    (args.seedNodes.foldl (seedCell args.nowMs) map).recomputeFrontiers args.nowMs
      (lit "bootstrap")
  else map

/-- The shares of a step. -/
def shares (args : StepArgs) (map : MonotonicSharedMap) : OrderedMap Str (List Str) :=
  splitFrontiersAmongNodes (bootstrap args map).frontierKeys args.agentIds

/-- The assignments that are remembered for the nodes. -/
structure ExplorationCoordinator where
  lastAssignments : OrderedMap Str ExplorationAssignment

def ExplorationCoordinator.new : ExplorationCoordinator := ⟨∅⟩

/-- What a step leaves: the remembered assignments, the map, the nodes that have moved, and their
states. -/
def ExplorationCoordinator.step (c : ExplorationCoordinator) (args : StepArgs)
    (map : MonotonicSharedMap) : NodeLoop :=
  args.nodes.foldl (stepNode args (shares args map))
    ⟨bootstrap args map, c.lastAssignments, 0, [], []⟩

end Coordination
