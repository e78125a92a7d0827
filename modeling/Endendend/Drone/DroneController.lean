/-
**The control loop of a drone** (`swarm/drone_controller.py`, `swarm/chain_manager.py`).

A drone explores, rescues the victims that it has claimed, and hands a rescue over when its battery
is low: it asks for bids, and when the time for them is up it awards the rescue to the ground rover
that is nearest.

Main definitions:

* `Drone.Message`, `Drone.Output` — what a drone receives, and what it does;
* `Drone.Reading` — what a call reads of the clocks, the position and the mock data;
* `Drone.DroneController` — the drone, with the handlers of its messages and `tick`;
* `Drone.Call`, `Drone.DroneController.perform` — everything that can be called from outside.

Main results:

* `Drone.Told` — a drone is told of the targets that its manager claims, and of no others;
* `Drone.turns_to_detected`, `Drone.turns_to_claimed` — **a drone whose manager claims a target
  turns to that target.**
-/
import Endendend.Exploration.ExplorationManager
import Endendend.Targets.TargetManager

set_option relaxedAutoImplicit false
set_option autoImplicit false

namespace Drone

open Py (Str)
open Js (OrderedMap)
open Blackout (DroneRole)
open Targets (Location Target TargetManager locationOf locationKey distance)
open Exploration (ExplorationManager ExplorationUpdate)

/-! ### What a drone reads and does -/

/-- The functions of `math`. -/
structure Maths where
  sqrt : ℚ → ℚ
  hypot : ℚ → ℚ → ℚ
  atan2 : ℚ → ℚ → ℚ
  cos : ℚ → ℚ
  sin : ℚ → ℚ

inductive DroneType
  | aerial
  | ground
  deriving DecidableEq

inductive Behavior
  | explore
  | rescue
  | relay
  deriving DecidableEq

/-- The attribute `swarm_coordinator`, which `tick` reads: the constructor has an argument of this
name, but leaves the attribute unset. -/
inductive Coordinator
  | unset
  | absent
  | present
  deriving DecidableEq

/-- The messages, with the fields that a handler reads; of a rescue that is complete also the
handoff it was for. -/
inductive Message
  | safetyStop
  | safetyClear
  | handoffRequest (handoffId : Str) (victimLocation : List ℚ)
  | handoffBid (handoffId : Str) (bid : Option ℚ) (bidder : Option Str)
  | handoffAccept (handoffId : Str) (victimLocation : List ℚ) (aerial : Option Str)
  | handoffAck (handoffId : Str)
  | rescueComplete (handoffId : Str) (victimLocation : List ℚ)
  | target (message : Targets.Message)
  | exploration (update : ExplorationUpdate)
  | other
  deriving DecidableEq

/-- What a drone does in a call. -/
inductive Output
  | broadcast (message : Message)
  | send (dest : Str) (message : Message)
  | gossip (sending : Exploration.Sending)
  | setVelocity (vx vy : ℚ)
  | raised

/-- What the generator of mock data comes up with. -/
inductive MockEvent
  | victimDetected (location : List ℚ) (confidence : Option ℚ)
  | other

structure Mock where
  batteryPct : ℚ
  generated : Option MockEvent

/-- What a call reads.  A handoff gets its name from the nanoseconds of the clock when it is begun,
and each victim has its own reading. -/
structure Reading where
  start : ℕ
  stop : ℕ
  begun : Location → ℕ
  within : ∀ v, start ≤ begun v ∧ begun v ≤ stop
  now : ℚ
  targetsNow : ℚ
  updateNow : ℚ
  chooseNow : ℚ
  position : Location
  clock : Targets.Clock
  detected : Location → Targets.Clock
  vertex : Exploration.Vertex
  ns : ℤ
  rand : ℤ
  mock : Option Mock

/-- A call in which the clocks stand still, and nothing is detected. -/
def Reading.moment (ns : ℕ) (position : Location) : Reading where
  start := ns
  stop := ns
  begun _ := ns
  within _ := ⟨le_rfl, le_rfl⟩
  now := ns / 10 ^ 9
  targetsNow := ns / 10 ^ 9
  updateNow := ns / 10 ^ 9
  chooseNow := ns / 10 ^ 9
  position
  clock := ⟨ns / 10 ^ 9, ns / 10 ^ 9, ns / 10 ^ 9⟩
  detected _ := ⟨ns / 10 ^ 9, ns / 10 ^ 9, ns / 10 ^ 9⟩
  vertex := ⟨false, none⟩
  ns
  rand := 0
  mock := none

/-! ### The controller -/

structure DroneController where
  nodeId : Str
  droneType : DroneType
  -- does the robot have `set_velocity`?
  steerable : Bool
  victimPositions : List Location
  coordinator : Coordinator
  -- the role is kept by the chain manager
  role : DroneRole
  behavior : Behavior
  targetManager : TargetManager
  rescueTarget : Option Target
  exploration : ExplorationManager
  battery : ℚ
  lastBatteryTick : ℚ
  lowBattery : Bool
  pendingHandoffs : OrderedMap Str Location
  handoffBids : OrderedMap Str (List (Str × ℚ))
  -- the timers that are running, and when they go off
  timers : List (Str × ℕ)
  currentHandoffRescue : Option (Str × Location)
  handoffInitiatedKeys : List Str
  rescuedVictimKeys : List Str
  safetyHalt : Bool

/-- What a call makes a drone do, and the drone after it. -/
abbrev Result := List Output × DroneController

/-- One thing after another. -/
def Result.andThen (res : Result) (f : DroneController → Result) : Result :=
  (res.1 ++ (f res.2).1, (f res.2).2)

def droneMaxSpeed : ℚ := 8

def aerialBatteryCapacity : ℚ := 100

def aerialBatteryDrainRate : ℚ := 2 / 10

def groundBatteryDrainRate : ℚ := 5 / 100

def batteryHandoffThreshold : ℚ := 20

/-- The time for bids, in nanoseconds. -/
def handoffBidWindow : ℕ := 10 * 10 ^ 9

def groundBatteryPerMeter : ℚ := 5 / 10

def groundBatteryReserve : ℚ := 10

def victimDetectionDistance : ℚ := 12

def rescueArrivalDistance : ℚ := 1

def defaultVictimPositions : List Location := [⟨75, 75, 0⟩, ⟨180, 120, 0⟩, ⟨320, 90, 0⟩]

/-- The name of a handoff. -/
def handoffId (ns : ℕ) (nodeId : Str) : Str :=
  ("handoff_" : Str) ++ .ofInt ns ++ "_" ++ nodeId

/-- A place as it is sent. -/
def coordinates (l : Location) : List ℚ := [l.x, l.y, l.z]

/-- The first of the lowest bids. -/
def lowestBid : List (Str × ℚ) → Option (Str × ℚ)
  | [] => none
  | bid :: bids => some (bids.foldl (fun best b => if b.2 < best.2 then b else best) bid)

/-- The target that a manager has claimed for its drone in a call in which it has sent a claim. -/
def ownClaim (r : List Targets.Message × TargetManager) : Option Target :=
  r.1.findSome? fun
    | .targetClaim targetId _ _ => r.2.targets.get? targetId
    | _ => none

/-- Does a claim that comes in win its target for the manager's own drone? -/
def winsForOwner (m : TargetManager) (targetId : Str) (distance : ℚ) (claimant : Str) : Bool :=
  claimant = m.myId ∧ (m.targets.get? targetId).any fun target =>
    target.status = ("pending" : Str) ∧
      Targets.claimWins distance claimant target.assignedDistance target.assignedTo

/-- What the drone is told when its manager handles a message. -/
def toldOf (m : TargetManager) (r : List Targets.Message × TargetManager) :
    Targets.Message → Option Target
  | .targetClaim targetId distance claimant =>
    if winsForOwner m targetId distance claimant then r.2.targets.get? targetId else none
  | _ => ownClaim r

namespace DroneController

def new (nodeId : Str) (droneType : DroneType) (steerable : Bool) (victimPositions : List Location)
    (coordinator : Coordinator) (now : ℚ) : DroneController where
  nodeId
  droneType
  steerable
  victimPositions := if victimPositions = [] then defaultVictimPositions else victimPositions
  coordinator
  role := .standby
  behavior := .explore
  targetManager := .new nodeId
  rescueTarget := none
  exploration := .new nodeId
  battery := aerialBatteryCapacity
  lastBatteryTick := now
  lowBattery := false
  pendingHandoffs := ∅
  handoffBids := ∅
  timers := []
  currentHandoffRescue := none
  handoffInitiatedKeys := []
  rescuedVictimKeys := []
  safetyHalt := false

variable (maths : Maths) (r : Reading) (c : DroneController)

def batteryDrain : ℚ :=
  if c.droneType = .aerial then aerialBatteryDrainRate else groundBatteryDrainRate

/-- The velocity of the robot, if it has one. -/
def setVelocity (vx vy : ℚ) : List Output := if c.steerable then [.setVelocity vx vy] else []

/-! #### Targets -/

/-- The drone turns to a target that its manager has claimed. -/
def onTargetClaimed (target : Target) : DroneController :=
  { c with
    role := if c.role = .explorer then .standby else c.role
    behavior := .rescue
    rescueTarget := some target }

/-- Takes over what the target manager has done. -/
def withTargets (m : List Targets.Message × TargetManager) (claimed : Option Target) : Result :=
  let c := { c with targetManager := m.2 }
  (m.1.map fun x => .broadcast (.target x), claimed.elim c c.onTargetClaimed)

def detectTarget (location : Location) (confidence : ℚ) : Result :=
  let m := c.targetManager.detectTarget maths.sqrt ⟨c.role, r.position⟩ (r.detected location)
    location confidence
  c.withTargets m (ownClaim m)

def handleTargetMessage (sender : Str) (msg : Targets.Message) : Result :=
  let m := c.targetManager.handleMessage maths.sqrt ⟨c.role, r.position⟩ r.clock sender msg
  c.withTargets m (toldOf c.targetManager m msg)

/-! #### Handoffs -/

/-- Asks the rovers to take over the rescue of a victim. -/
def initiateHandoff (victim : Location) : Result :=
  if c.droneType ≠ .aerial ∨ !c.lowBattery then ([], c)
  else
    let hid := handoffId (r.begun victim) c.nodeId
    ([.broadcast (.handoffRequest hid (coordinates victim))],
      { c with
        pendingHandoffs := c.pendingHandoffs.set hid victim
        handoffBids := c.handoffBids.set hid []
        timers := c.timers ++ [(hid, r.begun victim + handoffBidWindow)] })

/-- Bids for a handoff, if the rover is free and its battery lasts. -/
def handleHandoffRequest (sender hid : Str) (victimLocation : List ℚ) : Result :=
  if c.droneType ≠ .ground then ([], c)
  else if c.currentHandoffRescue ≠ none ∨ c.targetManager.claimedTarget ≠ none then ([], c)
  else if c.behavior = .rescue then ([], c)
  else
    match locationOf victimLocation with
    | none => ([], c)
    | some victim =>
      if hid = Str.empty then ([], c)
      else
        let distance := distance maths.sqrt r.position victim
        if c.battery < distance * groundBatteryPerMeter + groundBatteryReserve then ([], c)
        else ([.send sender (.handoffBid hid (some distance) (some c.nodeId))], c)

def handleHandoffBid (sender hid : Str) (bid : Option ℚ) (bidder : Option Str) : DroneController :=
  if c.droneType ≠ .aerial then c
  else if hid = Str.empty ∨ c.pendingHandoffs.get? hid = none then c
  else
    let bids := (c.handoffBids.get? hid).getD []
    { c with
      handoffBids :=
        c.handoffBids.set hid (bids ++ [(bidder.getD sender, bid.getD (10 ^ 9))]) }

/-- Awards a handoff to the lowest bid. -/
def processHandoffBids (hid : Str) : Result :=
  match c.pendingHandoffs.get? hid with
  | none => ([], c)
  | some victim =>
    let bids := (c.handoffBids.get? hid).getD []
    let c := { c with
      handoffBids := c.handoffBids.erase hid
      pendingHandoffs := c.pendingHandoffs.erase hid }
    match lowestBid bids with
    | none =>
      ([], { c with
        handoffInitiatedKeys := c.handoffInitiatedKeys.filter (· ≠ locationKey victim) })
    | some best =>
      ([.send best.1 (.handoffAccept hid (coordinates victim) (some c.nodeId))], c)

/-- The timer of a handoff goes off, if it is time. -/
def timerGoesOff (hid : Str) : Result :=
  match c.timers.find? fun t => t.1 = hid ∧ t.2 ≤ r.start with
  | none => ([], c)
  | some timer => { c with timers := c.timers.erase timer }.processHandoffBids hid

/-- Takes up a handoff that is awarded to the rover, whatever it is doing. -/
def handleHandoffAccept (sender hid : Str) (victimLocation : List ℚ) (aerial : Option Str) :
    Result :=
  if c.droneType ≠ .ground then ([], c)
  else
    match locationOf victimLocation with
    | none => ([], c)
    | some victim =>
      if hid = Str.empty then ([], c)
      else
        ([.send (aerial.getD sender) (.handoffAck hid)],
          { c with
            currentHandoffRescue := some (hid, victim)
            behavior := .rescue
            rescueTarget := none })

def handleHandoffAck (hid : Str) : DroneController :=
  if c.droneType ≠ .aerial then c
  else { c with handoffBids := c.handoffBids.erase hid }

def handleRescueComplete (victimLocation : List ℚ) : DroneController :=
  match locationOf victimLocation with
  | none => c
  | some victim =>
    { c with rescuedVictimKeys := Js.setAdd c.rescuedVictimKeys (locationKey victim) }

/-! #### Messages -/

/-- The handlers of the two messages about safety are not defined. -/
def onP2pMessage (sender : Str) : Message → Result
  | .safetyStop => ([.raised], c)
  | .safetyClear => ([.raised], c)
  | .handoffRequest hid victimLocation => c.handleHandoffRequest maths r sender hid victimLocation
  | .handoffBid hid bid bidder => ([], c.handleHandoffBid sender hid bid bidder)
  | .handoffAccept hid victimLocation aerial =>
    c.handleHandoffAccept sender hid victimLocation aerial
  | .handoffAck hid => ([], c.handleHandoffAck hid)
  | .rescueComplete _ victimLocation => ([], c.handleRescueComplete victimLocation)
  | .target msg => c.handleTargetMessage maths r sender msg
  | .exploration _ | .other => ([], c)

/-- Takes over what the exploration manager has done. -/
def withExploration (m : Option Exploration.Sending × ExplorationManager) : Result :=
  (m.1.toList.map .gossip, { c with exploration := m.2 })

/-- The chain manager keeps the updates of the exploration to itself. -/
def handleMessage (sender : Str) : Message → Result
  | .exploration update =>
    c.withExploration (c.exploration.handleExplorationUpdate sender update r.updateNow r.vertex)
  | msg => c.onP2pMessage maths r sender msg

/-! #### A tick -/

def updateBattery (dt : ℚ) : DroneController :=
  if dt ≤ 0 then c
  else
    let battery := max 0 (c.battery - c.batteryDrain * dt)
    { c with
      battery
      lowBattery := c.droneType = .aerial ∧ battery < batteryHandoffThreshold }

/-- What the drone does about a victim that it is told of. -/
def applyVictimSpatialEffects (location : List ℚ) (confidence : Option ℚ) : Result :=
  match locationOf location with
  | none => ([], c)
  | some victim =>
    let key := locationKey victim
    if c.droneType = .aerial ∧ c.lowBattery ∧ ¬ c.rescuedVictimKeys.contains key ∧
        ¬ c.handoffInitiatedKeys.contains key then
      { c with
        handoffInitiatedKeys := Js.setAdd c.handoffInitiatedKeys key }.initiateHandoff r victim
    else if c.droneType = .aerial then c.detectTarget maths r victim (confidence.getD 1)
    else ([], c)

/-- A victim that is told to the others, and what the drone does about it. -/
def ingestVisionVictim (location : List ℚ) (confidence : Option ℚ) : Result :=
  Result.andThen ([.broadcast (.target (.victimDetected location confidence))], c) fun c =>
    c.applyVictimSpatialEffects maths r location confidence

/-- What a tick does with the mock data. -/
def tickMock : Result :=
  match r.mock with
  | none => ([], c)
  | some mock =>
    let c := { c with
      battery := mock.batteryPct
      lowBattery :=
        if c.droneType = .aerial then mock.batteryPct < batteryHandoffThreshold
        else c.lowBattery }
    match mock.generated with
    | none => ([], c)
    | some (.victimDetected location confidence) =>
      c.ingestVisionVictim maths r location confidence
    | some .other => ([.broadcast .other], c)

def checkForVictim (victim : Location) : Result :=
  if distance maths.sqrt r.position victim ≥ victimDetectionDistance then ([], c)
  else
    let key := locationKey victim
    if c.rescuedVictimKeys.contains key ∨ c.handoffInitiatedKeys.contains key then ([], c)
    else if c.lowBattery then
      { c with
        handoffInitiatedKeys := Js.setAdd c.handoffInitiatedKeys key }.initiateHandoff r victim
    else c.detectTarget maths r victim 1

def checkForVictims : Result :=
  if c.droneType ≠ .aerial then ([], c)
  else
    c.victimPositions.foldl
      (fun res victim => Result.andThen res fun c => c.checkForVictim maths r victim) ([], c)

/-- The velocity towards a place at a distance. -/
def approach (loc : Location) (dist : ℚ) : List Output :=
  let speed := min droneMaxSpeed (dist / 2)
  if dist > 1 / 10 ^ 9 then
    c.setVelocity (speed * (loc.x - r.position.x) / dist) (speed * (loc.y - r.position.y) / dist)
  else c.setVelocity 0 0

def doRelay : Result := (c.setVelocity 0 0, c)

def doRescue : Result :=
  if c.safetyHalt then (c.setVelocity 0 0, c)
  else
    match c.currentHandoffRescue with
    | some (hid, loc) =>
      let dist := distance maths.sqrt loc r.position
      if dist < rescueArrivalDistance then
        ([.broadcast (.rescueComplete hid (coordinates loc))],
          { c with
            rescuedVictimKeys := Js.setAdd c.rescuedVictimKeys (locationKey loc)
            currentHandoffRescue := none
            behavior := .explore })
      else (c.approach r loc dist, c)
    | none =>
      if c.targetManager.claimedTarget = none then
        ([], { c with behavior := .explore, rescueTarget := none })
      else
        match c.rescueTarget with
        | none => ([], { c with behavior := .explore })
        | some target =>
          let dist := distance maths.sqrt target.location r.position
          if dist < rescueArrivalDistance then
            let m := c.targetManager.reachedTarget
            let res := c.withTargets m none
            if m.1.isEmpty then res
            else (res.1, { res.2 with behavior := .explore, rescueTarget := none })
          else (c.approach r target.location dist, c)

def doExplore : Result :=
  if c.safetyHalt then (c.setVelocity 0 0, c)
  else if c.role = .relay then c.doRelay
  else
    let choice :=
      match c.exploration.currentTarget with
      | some cell => (some cell, c.exploration)
      | none => c.exploration.chooseNextTarget r.position.x r.position.y r.chooseNow
    let c := { c with exploration := choice.2 }
    match choice.1 with
    | none => (c.setVelocity 0 0, c)
    | some cell =>
      let place := Exploration.GridMap.cellCenterMeters cell
      let dx := place.1 - r.position.x
      let dy := place.2 - r.position.y
      let distance := maths.hypot dx dy
      if distance < 1 / 2 then ([], { c with exploration := c.exploration.reachedTarget cell })
      else
        let speed := min droneMaxSpeed (distance / 2)
        let angle := maths.atan2 dy dx
        (c.setVelocity (speed * maths.cos angle) (speed * maths.sin angle), c)

/-- The last part of a tick, in which the drone moves. -/
def move : Result :=
  if c.safetyHalt ∧ c.steerable then ([.setVelocity 0 0], c)
  else
    match c.behavior with
    | .rescue => c.doRescue maths r
    | .explore => c.doExplore maths r
    | .relay => c.doRelay

/-- The part of a tick that follows on the coordinator. -/
def tickOn : Result :=
  let targets := c.withTargets (c.targetManager.tick r.targetsNow) none
  let explored := targets.andThen fun c =>
    c.withExploration (c.exploration.update r.updateNow r.vertex r.ns r.rand)
  let checked := Result.andThen explored (checkForVictims maths r)
  Result.andThen checked (move maths r)

/-- What a tick does with the battery; with mock data the battery is theirs. -/
def tickBattery : DroneController :=
  let dt := r.now - c.lastBatteryTick
  let c := { c with lastBatteryTick := r.now }
  if r.mock.isNone then c.updateBattery dt else c

/-- A coordinator has no effect on the drone. -/
def tick : Result :=
  Result.andThen ((c.tickBattery r).tickMock maths r) fun c =>
    match c.coordinator with
    | .unset => ([.raised], c)
    | .absent | .present => c.tickOn maths r

end DroneController

/-- A call of a drone from outside. -/
inductive Call
  | message (sender : Str) (msg : Message)
  | tick
  | visionVictim (location : List ℚ) (confidence : Option ℚ)
  | initiateHandoff (victim : Location)
  | timer (handoffId : Str)

def DroneController.perform (maths : Maths) (r : Reading) (c : DroneController) : Call → Result
  | .message sender msg => c.handleMessage maths r sender msg
  | .tick => c.tick maths r
  | .visionVictim location confidence => c.ingestVisionVictim maths r location confidence
  | .initiateHandoff victim => c.initiateHandoff r victim
  | .timer hid => c.timerGoesOff r hid

/-! ### What a drone is told of its targets -/

/-- A drone is told of the target that its manager claims in a call. -/
structure Told (m : TargetManager) (r : List Targets.Message × TargetManager)
    (claimed : Option Target) : Prop where
  target : ∀ t, claimed = some t → r.2.claimedTarget = some t.id
  silent : claimed = none → r.2.claimedTarget = m.claimedTarget ∨ r.2.claimedTarget = none

variable (m : TargetManager) (sqrt : ℚ → ℚ) (senses : Targets.Senses) (clock : Targets.Clock)

theorem told_nothing : Told m ([], m) none :=
  ⟨fun _ h => (Option.some_ne_none _ h.symm).elim, fun _ => Or.inl rfl⟩

/-- The target of a claim that is sent is the one that is entered. -/
theorem ownClaim_claim (targetId : Str) (distance : ℚ) (claimant : Str) :
    ownClaim ([.targetClaim targetId distance claimant], m) = m.targets.get? targetId := by
  unfold ownClaim
  rw [List.findSome?_cons]
  dsimp only
  cases m.targets.get? targetId <;> rfl

theorem told_tryClaim (targetId : Str) :
    Told m (m.tryClaim sqrt senses clock targetId)
      (ownClaim (m.tryClaim sqrt senses clock targetId)) := by
  rcases Targets.tryClaim_cases m sqrt senses clock targetId with h | ⟨target, ht, -, -, -, h⟩
  · rw [h]
    exact told_nothing m
  · rw [h, ownClaim_claim]
    obtain rfl : target.id = targetId := Js.KeyedMap.key_of_get? ht
    have hget := Js.KeyedMap.get?_put_self m.targets (Targets.assigned target m.myId
      (distance sqrt senses.position target.location) clock.assigned)
    refine ⟨fun t h => ?_, fun hnone => ?_⟩
    · obtain rfl := Option.some.inj (hget.symm.trans h)
      rfl
    · cases hget.symm.trans hnone

theorem told_createAndAnnounceTarget (targetId : Str) (location : Location) (confidence : ℚ)
    (reportedBy : Str) :
    Told m (m.createAndAnnounceTarget sqrt senses clock targetId location confidence reportedBy)
      (ownClaim
        (m.createAndAnnounceTarget sqrt senses clock targetId location confidence reportedBy)) :=
  ⟨(told_tryClaim _ sqrt senses clock targetId).target,
    (told_tryClaim _ sqrt senses clock targetId).silent⟩

theorem told_detectTarget (location : Location) (confidence : ℚ) :
    Told m (m.detectTarget sqrt senses clock location confidence)
      (ownClaim (m.detectTarget sqrt senses clock location confidence)) := by
  unfold TargetManager.detectTarget
  split
  · exact told_nothing m
  · dsimp only
    split
    · exact told_nothing m
    · have h := told_createAndAnnounceTarget { m with
        reportedKeys := m.reportedKeys ++ [locationKey location] } sqrt senses clock
        (Targets.victimId (locationKey location)) location confidence m.myId
      exact ⟨h.target, h.silent⟩

theorem winsForOwner_iff {targetId : Str} {distance : ℚ} {claimant : Str} :
    winsForOwner m targetId distance claimant = true ↔ claimant = m.myId ∧
      ∃ target, m.targets.get? targetId = some target ∧ target.status = ("pending" : Str) ∧
        Targets.claimWins distance claimant target.assignedDistance target.assignedTo = true := by
  simp [winsForOwner, Option.any_eq_true]

/-- A claim that comes in makes the manager claim the target exactly if it is one of its own that
wins. -/
theorem told_handleClaim (targetId : Str) (distance : ℚ) (claimant : Str) :
    Told m ([], m.handleClaim targetId distance claimant clock)
      (if winsForOwner m targetId distance claimant then
        (m.handleClaim targetId distance claimant clock).targets.get? targetId
      else none) := by
  unfold TargetManager.handleClaim
  split
  · next h =>
      obtain ⟨rfl, target, ht, hpending, hwins⟩ := (winsForOwner_iff m).1 h
      rw [Targets.applyClaim_of_wins m ht hpending hwins]
      obtain rfl : target.id = targetId := Js.KeyedMap.key_of_get? ht
      have hget := Js.KeyedMap.get?_put_self m.targets
        (Targets.assigned target m.myId distance clock.assigned)
      refine ⟨fun t h => ?_, fun hnone => ?_⟩
      · obtain rfl := Option.some.inj (hget.symm.trans h)
        exact if_pos rfl
      · cases hget.symm.trans hnone
  · next h =>
      refine ⟨fun _ h => (Option.some_ne_none _ h.symm).elim, fun _ => ?_⟩
      rcases Targets.applyClaim_cases m targetId distance claimant clock.assigned with
        heq | ⟨target, ht, hpending, hw⟩
      · exact Or.inl (congrArg TargetManager.claimedTarget heq)
      · have hother : claimant ≠ m.myId := fun hmine =>
          h ((winsForOwner_iff m).2 ⟨hmine, target, ht, hpending, hw⟩)
        rw [Targets.applyClaim_of_wins m ht hpending hw]
        dsimp only
        rw [if_neg hother]
        split
        · exact Or.inr rfl
        · exact Or.inl rfl

theorem told_handleMessage (sender : Str) (msg : Targets.Message) :
    Told m (m.handleMessage sqrt senses clock sender msg)
      (toldOf m (m.handleMessage sqrt senses clock sender msg) msg) := by
  cases msg with
  | victimDetected location confidence =>
      unfold TargetManager.handleMessage toldOf
      dsimp only
      split
      · unfold TargetManager.ingestPeerVictimDetection
        split
        · exact told_nothing m
        · dsimp only
          split
          · exact told_nothing m
          · exact told_createAndAnnounceTarget m sqrt senses clock _ _ _ _
      · exact told_nothing m
  | targetAnnouncement dict =>
      unfold TargetManager.handleMessage toldOf TargetManager.handleAnnouncement
      dsimp only
      split
      · exact told_nothing m
      · exact ⟨(told_tryClaim _ sqrt senses clock _).target,
          (told_tryClaim _ sqrt senses clock _).silent⟩
  | targetUpdate dict =>
      unfold TargetManager.handleMessage toldOf TargetManager.handleUpdate
      dsimp only
      split
      · exact told_nothing m
      · exact ⟨(told_tryClaim _ sqrt senses clock _).target,
          (told_tryClaim _ sqrt senses clock _).silent⟩
  | targetClaim targetId distance claimant =>
      exact told_handleClaim m clock targetId distance claimant
  | targetResolved targetId =>
      refine ⟨fun _ h => (Option.some_ne_none _ h.symm).elim, fun _ => ?_⟩
      show (m.handleResolved targetId).claimedTarget = m.claimedTarget ∨
        (m.handleResolved targetId).claimedTarget = none
      unfold TargetManager.handleResolved
      dsimp only
      split
      · exact Or.inr rfl
      · exact Or.inl rfl

/-- A drone whose manager claims a target turns to it. -/
theorem Told.turns {c : DroneController} {r : List Targets.Message × TargetManager}
    {claimed : Option Target} (h : Told c.targetManager r claimed) {targetId : Str}
    (hclaimed : (c.withTargets r claimed).2.targetManager.claimedTarget = some targetId) :
    c.targetManager.claimedTarget = some targetId ∨
      (c.withTargets r claimed).2.behavior = .rescue ∧
        (c.withTargets r claimed).2.rescueTarget.map Target.id = some targetId := by
  cases claimed with
  | none =>
      rcases h.silent rfl with h | h
      · exact Or.inl (h.symm.trans hclaimed)
      · cases h.symm.trans hclaimed
  | some t =>
      have ht : some t.id = some targetId := (h.target t rfl).symm.trans hclaimed
      exact Or.inr ⟨rfl, ht⟩

/-- **A drone whose manager claims a target that it has detected turns to that target.** -/
theorem turns_to_detected {maths : Maths} {r : Reading} {c : DroneController} {targetId : Str}
    {location : Location} {confidence : ℚ}
    (h : (c.detectTarget maths r location confidence).2.targetManager.claimedTarget =
      some targetId) :
    c.targetManager.claimedTarget = some targetId ∨
      (c.detectTarget maths r location confidence).2.behavior = .rescue ∧
        (c.detectTarget maths r location confidence).2.rescueTarget.map Target.id =
          some targetId :=
  (told_detectTarget _ _ _ _ _ _).turns h

/-- **A drone whose manager claims a target at a message turns to that target.** -/
theorem turns_to_claimed {maths : Maths} {r : Reading} {c : DroneController} {targetId : Str}
    {sender : Str} {msg : Targets.Message}
    (h : (c.handleTargetMessage maths r sender msg).2.targetManager.claimedTarget =
      some targetId) :
    c.targetManager.claimedTarget = some targetId ∨
      (c.handleTargetMessage maths r sender msg).2.behavior = .rescue ∧
        (c.handleTargetMessage maths r sender msg).2.rescueTarget.map Target.id =
          some targetId :=
  (told_handleMessage _ _ _ _ sender msg).turns h

end Drone
