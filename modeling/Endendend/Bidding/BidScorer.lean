/-
**Scoring bids** (`BidScorer` and `BidDecisionEngine` of `shared/tashi-task-bidding-recovery.ts`).

The score of a bid is computed from the task, the node and the bid in exact arithmetic.  The
distance of two points is a square root and stays a parameter, and so does the text of a number.

Main definitions:

* `Bidding.TaskWorkItem`, `Bidding.NodeProfile`, `Bidding.TaskBid`, `Bidding.WeightedBid` — the
  records;
* `Bidding.score`, `Bidding.chooseBest`, `Bidding.rank` — the score of a bid, the bid with its
  score, and bids in the order of their scores.

Main results:

* `Bidding.mem_rank`, `Bidding.rank_eq_nil_iff` — ranking keeps the bids.
-/
import Endendend.Foundation.Coerce
import Mathlib.Data.List.Infix

set_option relaxedAutoImplicit false
set_option autoImplicit false

namespace Bidding

open Js

/-! ### Records -/

inductive ScenarioKind
  | collapsedBuilding
  | caveTunnel
  | flood
  | wildfire
  | industrial
  | forest
  | night
  | indoor
  | perimeter
  | triage
  deriving DecidableEq

/-- The text of a scenario. -/
def ScenarioKind.text : ScenarioKind → Str
  | collapsedBuilding => "collapsed_building"
  | caveTunnel => "cave_tunnel"
  | flood => "flood"
  | wildfire => "wildfire"
  | industrial => "industrial"
  | forest => "forest"
  | night => "night"
  | indoor => "indoor"
  | perimeter => "perimeter"
  | triage => "triage"

inductive NodeRole
  | explorer
  | relay
  | triage
  | rescuer
  | standby
  | command
  | sensor
  | transport
  | emergency
  deriving DecidableEq

inductive TaskBidStatus
  | opened
  | submitted
  | weighted
  | committed
  | rejected
  | expired
  | cancelled
  deriving DecidableEq

structure XYPoint where
  x : ℚ
  y : ℚ
  z : Option ℚ
  deriving DecidableEq

structure TaskWorkItem where
  taskId : Str
  missionId : Str
  scenario : ScenarioKind
  taskType : Str
  priority : ℚ
  location : Option XYPoint
  requiredCapabilities : List Str
  minTrustScore : ℚ
  minBatteryPct : ℚ
  maxDistanceM : Option ℚ
  rescueTargetId : Option Str
  createdAtMs : ℚ
  expiresAtMs : ℚ
  /-- Is the task one that `getTaskOrThrow` made up from the window? -/
  synthesized : Bool

/-- The profile of a node, as far as the scorer reads it. -/
structure NodeProfile where
  nodeId : Str
  role : NodeRole
  tags : List Str
  indoorSuitability : ℚ
  outdoorSuitability : ℚ
  batteryPct : ℚ
  linkQuality : ℚ
  gpsFix : Bool
  trustScore : ℚ
  reputationScore : ℚ
  location : Option XYPoint

/-- A bid; `rest` are the properties that only the validation reads. -/
structure TaskBid where
  bidId : Str
  taskId : Str
  nodeId : Str
  batteryPct : ℚ
  linkQuality : ℚ
  etaMs : ℚ
  confidence : ℚ
  resources : List (Str × Bool)
  createdAtMs : ℚ
  expiresAtMs : ℚ
  status : TaskBidStatus
  validationReasons : List Str
  validatorScore : ℚ
  rejectReason : Option Str
  cancelReason : Option Str
  rest : List (Str × Json)

structure BidScoreBreakdown where
  total : ℚ
  capability : ℚ
  trust : ℚ
  reputation : ℚ
  battery : ℚ
  linkQuality : ℚ
  distance : ℚ
  eta : ℚ
  confidence : ℚ
  roleFit : ℚ
  scenarioFit : ℚ
  penalties : ℚ
  reasons : List Str

structure WeightedBid extends TaskBid where
  score : BidScoreBreakdown

def clamp (value lo hi : ℚ) : ℚ := max lo (min hi value)

def round2 (value : ℚ) : ℚ := ⌊value * 100 + 1 / 2⌋ / 100

/-! ### The score -/

/-- Points, and the reason that is given for them. -/
abbrev Points := ℚ × List Str

/-- The points if the condition holds. -/
def pointsIf (c : Bool) (points : ℚ) (reason : Str) : Points :=
  if c then (points, [reason]) else (0, [])

def Points.add (p q : Points) : Points := (p.1 + q.1, p.2 ++ q.2)

def capabilityPoints (task : TaskWorkItem) (node : NodeProfile) : Points :=
  let capabilityHits := task.requiredCapabilities.filter fun cap => cap ∈ node.tags
  (if task.requiredCapabilities.length > 0 then
      (capabilityHits.length / task.requiredCapabilities.length : ℚ) * 30
    else 12,
    if capabilityHits.length > 0 then [lit "capabilities:" ++ commaJoin capabilityHits] else [])

def rolePoints (task : TaskWorkItem) (node : NodeProfile) : Points :=
  let taskLower := toLowerCase task.taskType
  let has (word : Str) : Bool := word <:+: taskLower
  (pointsIf (node.role = .relay && has "relay") 14 "role_match:relay").add <|
    (pointsIf (node.role = .explorer && has "search") 12 "role_match:explorer").add <|
      (pointsIf (node.role = .triage && has "triage") 12 "role_match:triage").add <|
        (pointsIf (node.role = .rescuer && (has "rescue" || has "extract")) 14
            "role_match:rescuer").add <|
          pointsIf (node.role = .transport && has "transport") 13 "role_match:transport"

def scenarioPoints (task : TaskWorkItem) (node : NodeProfile) : Points :=
  let someTag (tags : List Str) : Bool := node.tags.any fun t => t ∈ tags
  match task.scenario with
  | .wildfire =>
    pointsIf (someTag [lit "thermal", lit "smoke_resistant", lit "high_temp"]) 15
      "scenario_fit:wildfire"
  | .caveTunnel =>
    pointsIf (someTag [lit "relay", lit "long_range", lit "indoor"]) 15 "scenario_fit:cave_tunnel"
  | .flood => pointsIf (someTag [lit "waterproof", lit "payload"]) 15 "scenario_fit:flood"
  | .indoor => pointsIf (7 / 10 ≤ node.indoorSuitability) 12 "scenario_fit:indoor"
  | .forest => pointsIf (7 / 10 ≤ node.outdoorSuitability) 12 "scenario_fit:forest"
  | _ => (0, [])

def penaltyPoints (task : TaskWorkItem) (node : NodeProfile) : ℚ :=
  (if node.batteryPct < task.minBatteryPct then 30 else 0) +
    (if node.trustScore < task.minTrustScore then 20 else 0) +
    (if node.linkQuality < 2 / 10 then 15 else 0) +
    (if node.gpsFix = false ∧ task.scenario ≠ .caveTunnel ∧ task.scenario ≠ .indoor then 6 else 0)

section Score

variable (distance : XYPoint → XYPoint → ℚ) (numText : ℚ → Str)

def distancePoints (task : TaskWorkItem) (node : NodeProfile) : Points :=
  match task.location, node.location with
  | some a, some b =>
    let dist := distance a b
    (max 0 (12 - dist / max 1 (task.maxDistanceM.getD 500) * 12),
      [lit "distance:" ++ numText (round2 dist)])
  | _, _ => (0, [])

def score (task : TaskWorkItem) (node : NodeProfile) (bid : TaskBid) : BidScoreBreakdown :=
  let capability := capabilityPoints task node
  let roleFit := rolePoints task node
  let scenarioFit := scenarioPoints task node
  let trust := node.trustScore * 18
  let reputation := node.reputationScore * 16
  let battery := node.batteryPct / 100 * 10
  let linkQuality := node.linkQuality * 8
  let confidence := clamp bid.confidence 0 1 * 8
  let distanceScore := distancePoints distance numText task node
  let etaScore := max 0 (10 - bid.etaMs / 1000 * (15 / 10))
  let resource (name : Str) : List Str :=
    if (name, true) ∈ bid.resources then [lit "resource:" ++ name] else []
  let penalties := penaltyPoints task node
  let total :=
    capability.1 + roleFit.1 + scenarioFit.1 + trust + reputation + battery + linkQuality +
      distanceScore.1 + etaScore + confidence - penalties
  { total := round2 total
    capability := round2 capability.1
    trust := round2 trust
    reputation := round2 reputation
    battery := round2 battery
    linkQuality := round2 linkQuality
    distance := round2 distanceScore.1
    eta := round2 etaScore
    confidence := round2 confidence
    roleFit := round2 roleFit.1
    scenarioFit := round2 scenarioFit.1
    penalties := round2 penalties
    reasons :=
      capability.2 ++ roleFit.2 ++ scenarioFit.2 ++ distanceScore.2 ++ resource "relay" ++
        resource "vehicle" ++ resource "gripper" }

/-! ### Ranking -/

/-- The bid with its score. -/
def chooseBest (task : TaskWorkItem) (node : NodeProfile) (bid : TaskBid) : WeightedBid :=
  { bid with status := .weighted, score := score distance numText task node bid }

/-- The order of the ranking: by score, then by arrival, then by confidence. -/
def RanksBefore (a b : WeightedBid) : Prop :=
  b.score.total < a.score.total ∨
    b.score.total = a.score.total ∧
      (a.etaMs < b.etaMs ∨ a.etaMs = b.etaMs ∧ b.confidence ≤ a.confidence)

instance : DecidableRel RanksBefore := fun a b => by
  unfold RanksBefore
  infer_instance

/-- The bids with their scores, the best one first. -/
def rank (task : TaskWorkItem) (bids : List (TaskBid × NodeProfile)) : List WeightedBid :=
  (bids.map fun p => chooseBest distance numText task p.2 p.1).insertionSort RanksBefore

theorem mem_rank {task : TaskWorkItem} {bids : List (TaskBid × NodeProfile)} {b : WeightedBid} :
    b ∈ rank distance numText task bids ↔
      ∃ p ∈ bids, chooseBest distance numText task p.2 p.1 = b := by
  rw [rank, (List.perm_insertionSort _ _).mem_iff, List.mem_map]

theorem rank_eq_nil_iff {task : TaskWorkItem} {bids : List (TaskBid × NodeProfile)} :
    rank distance numText task bids = [] ↔ bids = [] := by
  rw [← List.length_eq_zero_iff, rank, List.length_insertionSort, List.length_map,
    List.length_eq_zero_iff]

end Score

end Bidding
