/-
**Scoring the bids of the swarm** (`vertex/bid-scorer.ts`, with the records of
`vertex/swarm-types.ts` and the tags of `vertex/vendor-profiles.ts`).

The score of a bid is computed in exact arithmetic from the task, the node and the bid.  The
distance of two points is a square root and stays a parameter.

Main definitions:

* `Vertex.SwarmAgentNode`, `Vertex.TaskBid`, `Vertex.SwarmTaskSpec` — the records;
* `Vertex.sensorFit`, `Vertex.roleFit`, `Vertex.vendorFit` — how well a node fits a task;
* `Vertex.scoreBid` — the score, with the reasons for it.
-/
import Endendend.Foundation.Coerce
import Endendend.Vertex.MissionPhases
import Mathlib.Algebra.Order.Floor.Ring
import Mathlib.Data.List.Infix
import Mathlib.Data.Rat.Floor

set_option relaxedAutoImplicit false
set_option autoImplicit false

namespace Vertex

open Js

/-! ### Records -/

inductive MissionNodeRole
  | explorer
  | relay
  | carrier
  | medic
  | observer
  deriving DecidableEq

/-- What a node can do, as far as the scorer reads it. -/
structure AgentCapabilityProfile where
  sensors : List Str
  maxPayloadKg : ℚ
  thermalScore : ℚ
  lidarScore : ℚ
  gripperScore : ℚ
  recoveryLatencyMs : ℚ
  deriving DecidableEq

structure Position where
  x : ℚ
  y : ℚ
  z : ℚ
  deriving DecidableEq

structure SwarmAgentNode where
  nodeId : Str
  vendorId : Str
  role : MissionNodeRole
  capabilities : AgentCapabilityProfile
  position : Position
  trust01 : ℚ
  deriving DecidableEq

inductive TaskStatus
  | opened
  | bidding
  | assigned
  | completed
  | expired
  | superseded
  deriving DecidableEq

inductive TaskBidStatus
  | submitted
  | rejected
  | superseded
  | stale
  deriving DecidableEq

structure TaskBid where
  nodeId : Str
  etaSec : ℚ
  confidence01 : ℚ
  battery01 : ℚ
  link01 : ℚ
  submittedAtMs : ℚ
  status : TaskBidStatus
  score : Option ℚ
  scoreReasons : List Str
  deriving DecidableEq

structure SwarmTaskSpec where
  taskId : Str
  taskType : Str
  location : Position
  requirements : List Str
  allowedRoles : List MissionNodeRole
  preferredVendorTraits : List Str
  minBattery01 : ℚ
  minTrust01 : ℚ
  minConnectivity01 : ℚ
  status : TaskStatus
  bids : List TaskBid
  winnerNodeId : Option Str
  fallbackNodeIds : List Str
  commitProofHint : Option Str
  assignmentReason : Option Str
  deriving DecidableEq

/-! ### How well a node fits a task -/

/-- The hits of a node on one requirement of a task. -/
def requirementHits (node : SwarmAgentNode) (r : Str) : ℕ :=
  let k := toLowerCase r
  (if node.capabilities.sensors.any fun s => k <:+: toLowerCase s || toLowerCase s <:+: k then 1
    else 0) +
  (if k = lit "thermal" ∧ 1 / 2 < node.capabilities.thermalScore then 1 else 0) +
  (if k = lit "lidar" ∧ 1 / 2 < node.capabilities.lidarScore then 1 else 0) +
  (if k = lit "relay" ∧ node.role = .relay then 1 else 0) +
  if k = lit "payload" ∧ 15 ≤ node.capabilities.maxPayloadKg then 1 else 0

def sensorFit (task : SwarmTaskSpec) (node : SwarmAgentNode) : ℚ :=
  let hits := (task.requirements.map (requirementHits node)).sum
  if task.requirements ≠ [] then hits / task.requirements.length else 6 / 10

def roleFit (task : SwarmTaskSpec) (node : SwarmAgentNode) : ℚ :=
  if node.role ∈ task.allowedRoles then 1 else 1 / 4

/-- The tags of the vendors. -/
def vendorTags : List (Str × List Str) :=
  [(lit "aero_nordic", [lit "cold_weather", lit "long_range"]),
    (lit "meshworks", [lit "mesh", lit "relay_grade"]),
    (lit "subterra", [lit "indoor", lit "lidar_first"]),
    (lit "heavylift", [lit "payload", lit "extraction"]),
    (lit "cogniflight", [lit "edge_compute", lit "coordination"])]

def vendorFit (task : SwarmTaskSpec) (node : SwarmAgentNode) : ℚ :=
  if task.preferredVendorTraits = [] then 3 / 4
  else
    let tags := ((vendorTags.lookup node.vendorId).getD []).map toLowerCase
    let m := task.preferredVendorTraits.countP fun t => tags.any fun x => toLowerCase t <:+: x
    m / task.preferredVendorTraits.length

/-! ### The score -/

/-- The circumstances of a score. -/
structure ScoreContext where
  phase : MissionPhase
  connectivityMode : VertexConnectivityMode
  swarmLoad : ℚ
  link01 : ℚ
  telemetryHealth01 : ℚ

structure BidScoreResult where
  score : ℚ
  reasons : List Str

/-- A bonus with its reason, if the condition holds. -/
def bonusIf (c : Bool) (bonus : ℚ) (reason : Str) : ℚ × List Str :=
  if c then (bonus, [reason]) else (0, [])

/-- Does some requirement of the task contain the word? -/
def requires (task : SwarmTaskSpec) (word : Str) : Bool :=
  task.requirements.any fun x => word <:+: toLowerCase x

section Score

variable (hypot : ℚ → ℚ → ℚ)

def dist2d (a b : Position) : ℚ := hypot (a.x - b.x) (a.z - b.z)

/-- The score of a bid: capability, role, vendor, battery, link, phase, load, blackout, trust,
recovery and the time of arrival, rounded to three places. -/
def scoreBid (task : SwarmTaskSpec) (node : SwarmAgentNode) (bid : TaskBid) (ctx : ScoreContext) :
    BidScoreResult :=
  let cap := sensorFit task node
  let rfit := roleFit task node
  let vfit := vendorFit task node
  let rangePenalty := dist2d hypot node.position task.location / 120
  let phaseBoost : ℚ :=
    if ctx.phase = .search ∧ 7 / 10 < node.capabilities.thermalScore then 8 / 100 else 0
  let blackoutBoost : ℚ :=
    if ctx.connectivityMode ≠ .normal ∧ node.role = .relay then 12 / 100
    else if ctx.connectivityMode ≠ .normal then 4 / 100 else 0
  let recovery := 1 - min 1 (node.capabilities.recoveryLatencyMs / 4000)
  let evidence := bid.confidence01 * ctx.telemetryHealth01
  let base :=
    cap * (21 / 10) + rfit * (14 / 10) + vfit * (9 / 10) + bid.battery01 * (11 / 10) +
      ctx.link01 * (85 / 100) + node.trust01 + recovery * (55 / 100) + evidence * (9 / 10) -
      rangePenalty * (35 / 100) - min 1 (bid.etaSec / 400) * (4 / 10) -
      ctx.swarmLoad * (15 / 100) + phaseBoost + blackoutBoost
  let thermal :=
    bonusIf (85 / 100 < node.capabilities.thermalScore && requires task "thermal") (15 / 100)
      "thermal sensor fit for hotspot search"
  let relay :=
    bonusIf (node.role = .relay && task.taskType = lit "relay_extension") (2 / 10)
      "relay drone chosen for long-range mesh"
  let lidar :=
    bonusIf (85 / 100 < node.capabilities.lidarScore && requires task "lidar") (12 / 100)
      "LIDAR fit for indoor / low-light mapping"
  let gripper :=
    bonusIf (85 / 100 < node.capabilities.gripperScore && task.taskType = lit "extraction_prep")
      (18 / 100) "payload / gripper fit for extraction"
  let score := base + thermal.1 + relay.1 + lidar.1 + gripper.1
  { score := ⌊score * 1000 + 1 / 2⌋ / 1000
    reasons :=
      (if 7 / 10 < cap then [lit "strong sensor / requirement fit"] else []) ++
        (if 1 ≤ rfit then [lit "role matches task gate"] else []) ++
        (if 6 / 100 < blackoutBoost then [lit "mesh resilience valued during degraded comms"]
          else []) ++
        thermal.2 ++ relay.2 ++ lidar.2 ++ gripper.2 }

end Score

end Vertex
