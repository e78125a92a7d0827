/-
**Targets and claims** (`swarm/target_manager.py`).

A drone keeps a table of the targets it knows of.  It announces what it detects, claims a target
when it learns of it, gives way to a claim from nearer by, and drops a target that is resolved.

Main definitions:

* `Targets.Target`, `Targets.TargetDict` — a record, and the form in which it is sent;
* `Targets.Message` — the messages of the managers;
* `Targets.TargetManager` — the table of a drone, with `claimWins`, `applyClaim`, `tryClaim`,
  `detectTarget`, `handleMessage`, `tick` and `reachedTarget`;
* `Targets.ManagerOp` — these operations, with any messages.

Main results:

* `Targets.fromDict_toDict` — a record survives being sent;
* `Targets.claimWins_iff` — between two claims by named drones, the nearer one wins, and of two
  equally near ones the one with the least id;
* `Targets.applyClaim_of_wins`, `Targets.tryClaim_cases` — what a claim does.
-/
import Endendend.Foundation.OrderedMap
import Endendend.Foundation.PyText
import Endendend.Blackout.StateMachine

set_option relaxedAutoImplicit false
set_option autoImplicit false

namespace Targets

open Py
open Js (OrderedMap KeyedMap)
open Blackout (DroneRole)

/-! ### Records -/

structure Location where
  x : ℚ
  y : ℚ
  z : ℚ
  deriving DecidableEq

/-- The text that stands for a place, rounded to tenths. -/
def locationKey (l : Location) : Str :=
  .ofInt (roundHalfEven (l.x * 10)) ++ "_" ++ .ofInt (roundHalfEven (l.y * 10)) ++ "_" ++
    .ofInt (roundHalfEven (l.z * 10))

/-- The distance of two places; `sqrt` is the square root. -/
def distance (sqrt : ℚ → ℚ) (a b : Location) : ℚ :=
  let dx := a.x - b.x
  let dy := a.y - b.y
  let dz := a.z - b.z
  sqrt (dx * dx + dy * dy + dz * dz)

structure Target where
  id : Str
  location : Location
  timestamp : ℚ
  confidence : ℚ
  reportedBy : Str
  status : Str := "pending"
  assignedTo : Option Str := none
  assignedDistance : Option ℚ := none
  assignedAt : Option ℚ := none
  deriving DecidableEq

/-- A record as it is sent. -/
structure TargetDict where
  id : Str
  location : List ℚ
  timestamp : ℚ
  confidence : ℚ
  reportedBy : Str
  status : Option Str
  assignedTo : Option Str
  assignedDistance : Option ℚ
  assignedAt : Option ℚ
  deriving DecidableEq

def Target.toDict (t : Target) : TargetDict where
  id := t.id
  location := [t.location.x, t.location.y, t.location.z]
  timestamp := t.timestamp
  confidence := t.confidence
  reportedBy := t.reportedBy
  status := some t.status
  assignedTo := t.assignedTo
  assignedDistance := t.assignedDistance
  assignedAt := t.assignedAt

/-- The place in a list of coordinates, if there are enough. -/
def locationOf : List ℚ → Option Location
  | x :: y :: z :: _ => some ⟨x, y, z⟩
  | _ => none

def Target.fromDict (d : TargetDict) : Target where
  id := d.id
  location := (locationOf d.location).getD ⟨0, 0, 0⟩
  timestamp := d.timestamp
  confidence := d.confidence
  reportedBy := d.reportedBy
  status := d.status.getD "pending"
  assignedTo := d.assignedTo
  assignedDistance := d.assignedDistance
  assignedAt := d.assignedAt

/-- A record survives being sent. -/
@[simp] theorem fromDict_toDict (t : Target) : Target.fromDict t.toDict = t := rfl

inductive Message
  | victimDetected (location : List ℚ) (confidence : Option ℚ)
  | targetAnnouncement (target : TargetDict)
  | targetUpdate (target : TargetDict)
  | targetClaim (targetId : Str) (distance : ℚ) (claimant : Str)
  | targetResolved (targetId : Str)
  deriving DecidableEq

/-! ### The manager -/

/-- What a manager knows of its drone while it handles a call. -/
structure Senses where
  role : DroneRole
  position : Location

/-- The readings of the clock in a call, in the order in which they are made: for the time of a new
record, for an attempt to claim, and for an assignment. -/
structure Clock where
  created : ℚ
  attempt : ℚ
  assigned : ℚ
  deriving DecidableEq

structure TargetManager where
  myId : Str
  targets : KeyedMap Target.id
  claimedTarget : Option Str
  reportedKeys : List Str
  lastClaimAttempt : OrderedMap Str ℚ

/-- The least confidence of a detection that counts. -/
def confidenceThreshold : ℚ := 7 / 10

/-- How long an assignment lasts without a resolution. -/
def assignTimeoutSec : ℚ := 45

/-- How long a resolved target is kept. -/
def cleanupTimeout : ℚ := 300

/-- The time between two attempts to claim a target. -/
def claimRetryInterval : ℚ := 2

/-- The id of the target at a place. -/
def victimId (key : Str) : Str := "victim_" ++ key

/-- Does a claim win against the one that is recorded? -/
def claimWins (distance : ℚ) (claimant : Str) (currentDist : Option ℚ)
    (currentHolder : Option Str) : Bool :=
  if !truthy currentHolder then true
  else
    match currentDist with
    | none => true
    | some d =>
      if distance < d then true
      else if distance > d then false
      else currentHolder.any (claimant < ·)

namespace TargetManager

/-- A manager that knows of no target. -/
def new (myId : Str) : TargetManager where
  myId
  targets := ∅
  claimedTarget := none
  reportedKeys := []
  lastClaimAttempt := ∅

variable (m : TargetManager)

/-- Enters a claim in the record of its target, if it wins; the call to the owner of the manager
when it wins a target for itself has no effect here. -/
def applyClaim (targetId : Str) (distance : ℚ) (claimant : Str) (now : ℚ) : TargetManager :=
  match m.targets.get? targetId with
  | none => m
  | some target =>
    if target.status ≠ "pending" then m
    else if claimWins distance claimant target.assignedDistance target.assignedTo then
      { m with
        targets := m.targets.put { target with
          assignedTo := some claimant
          assignedDistance := some distance
          assignedAt := some now }
        claimedTarget :=
          if claimant = m.myId then some targetId
          else if m.claimedTarget = some targetId then none
          else m.claimedTarget }
    else m

def eligibleRole (role : DroneRole) : Bool := role = .standby ∨ role = .explorer

/-- Claims a target, if the drone is free for it and nearer than the one it is assigned to. -/
def tryClaim (sqrt : ℚ → ℚ) (senses : Senses) (clock : Clock) (targetId : Str) :
    List Message × TargetManager :=
  match m.targets.get? targetId with
  | none => ([], m)
  | some target =>
    if target.status ≠ "pending" ∨ m.claimedTarget ≠ none ∨ !eligibleRole senses.role then ([], m)
    else
      let myDistance := distance sqrt senses.position target.location
      let last := (m.lastClaimAttempt.get? targetId).getD 0
      if clock.attempt - last < claimRetryInterval then ([], m)
      else if claimWins myDistance m.myId target.assignedDistance target.assignedTo then
        let m := { m with lastClaimAttempt := m.lastClaimAttempt.set targetId clock.attempt }
        ([.targetClaim targetId myDistance m.myId],
          m.applyClaim targetId myDistance m.myId clock.assigned)
      else ([], m)

def createAndAnnounceTarget (sqrt : ℚ → ℚ) (senses : Senses) (clock : Clock) (targetId : Str)
    (location : Location) (confidence : ℚ) (reportedBy : Str) : List Message × TargetManager :=
  let target : Target :=
    { id := targetId, location, timestamp := clock.created, confidence, reportedBy }
  let m := { m with targets := m.targets.put target }
  let (claims, m) := m.tryClaim sqrt senses clock targetId
  (.targetAnnouncement target.toDict :: claims, m)

def detectTarget (sqrt : ℚ → ℚ) (senses : Senses) (clock : Clock) (location : Location)
    (confidence : ℚ) : List Message × TargetManager :=
  if confidence < confidenceThreshold then ([], m)
  else
    let key := locationKey location
    let targetId := victimId key
    if (m.targets.get? targetId).isSome ∨ m.reportedKeys.contains key then ([], m)
    else
      let m := { m with reportedKeys := m.reportedKeys ++ [key] }
      m.createAndAnnounceTarget sqrt senses clock targetId location confidence m.myId

def ingestPeerVictimDetection (sqrt : ℚ → ℚ) (senses : Senses) (clock : Clock) (sender : Str)
    (location : Location) (confidence : ℚ) : List Message × TargetManager :=
  if confidence < confidenceThreshold then ([], m)
  else
    let targetId := victimId (locationKey location)
    if (m.targets.get? targetId).isSome then ([], m)
    else m.createAndAnnounceTarget sqrt senses clock targetId location confidence sender

def handleAnnouncement (sqrt : ℚ → ℚ) (senses : Senses) (clock : Clock) (dict : TargetDict) :
    List Message × TargetManager :=
  let target := Target.fromDict dict
  if (m.targets.get? target.id).isSome then ([], m)
  else { m with targets := m.targets.put target }.tryClaim sqrt senses clock target.id

def handleUpdate (sqrt : ℚ → ℚ) (senses : Senses) (clock : Clock) (dict : TargetDict) :
    List Message × TargetManager :=
  if dict.id = Str.empty then ([], m)
  else
    let target := Target.fromDict dict
    { m with targets := m.targets.put target }.tryClaim sqrt senses clock target.id

def handleClaim (targetId : Str) (distance : ℚ) (claimant : Str) (clock : Clock) :
    TargetManager :=
  m.applyClaim targetId distance claimant clock.assigned

def handleResolved (targetId : Str) : TargetManager :=
  { m with
    targets := m.targets.erase targetId
    claimedTarget := if m.claimedTarget = some targetId then none else m.claimedTarget
    reportedKeys :=
      match targetId.removePrefix? "victim_" with
      | some key => m.reportedKeys.filter (· ≠ key)
      | none => m.reportedKeys }

def handleMessage (sqrt : ℚ → ℚ) (senses : Senses) (clock : Clock) (sender : Str) :
    Message → List Message × TargetManager
  | .victimDetected location confidence =>
    match locationOf location with
    | some location =>
      m.ingestPeerVictimDetection sqrt senses clock sender location (confidence.getD 1)
    | none => ([], m)
  | .targetAnnouncement dict => m.handleAnnouncement sqrt senses clock dict
  | .targetUpdate dict => m.handleUpdate sqrt senses clock dict
  | .targetClaim targetId distance claimant => ([], m.handleClaim targetId distance claimant clock)
  | .targetResolved targetId => ([], m.handleResolved targetId)

/-- Resolves the target that the drone has claimed, when it gets there. -/
def reachedTarget : List Message × TargetManager :=
  if !truthy m.claimedTarget then ([], m)
  else
    match m.claimedTarget.bind m.targets.get? with
    | none => ([], { m with claimedTarget := none })
    | some target =>
      -- the record is marked as resolved and then removed
      ([.targetResolved target.id],
        { m with targets := m.targets.erase target.id, claimedTarget := none })

/-- Has the assignment of a target timed out? -/
def stale (now : ℚ) (t : Target) : Bool :=
  t.status = "pending" ∧ truthy t.assignedTo ∧ t.assignedAt.any (now - · > assignTimeoutSec)

/-- Takes an assignment back and tells the others. -/
def reclaim (m : TargetManager) (tid : Str) : List Message × TargetManager :=
  match m.targets.get? tid with
  | none => ([], m)
  | some t =>
    let t := { t with assignedTo := none, assignedDistance := none, assignedAt := none }
    ([.targetUpdate t.toDict],
      { m with
        targets := m.targets.put t
        claimedTarget := if m.claimedTarget = some tid then none else m.claimedTarget })

def cleanupOldResolved (now : ℚ) : TargetManager :=
  let toDel := m.targets.values.filter fun t =>
    t.status = ("resolved" : Str) ∧ now - t.timestamp > cleanupTimeout
  { m with targets := toDel.foldl (fun targets t => targets.erase t.id) m.targets }

def tick (now : ℚ) : List Message × TargetManager :=
  let staleIds := (m.targets.values.filter (stale now)).map (·.id)
  let r := staleIds.foldl (fun r tid =>
    ((r.1 ++ (r.2.reclaim tid).1 : List Message), (r.2.reclaim tid).2)) (([] : List Message), m)
  (r.1, r.2.cleanupOldResolved now)

end TargetManager

/-- The operations of a manager, with what the drone senses and what the clock shows. -/
inductive ManagerOp
  | detectTarget (senses : Senses) (clock : Clock) (location : Location) (confidence : ℚ)
  | handleMessage (senses : Senses) (clock : Clock) (sender : Str) (message : Message)
  | tick (now : ℚ)
  | reachedTarget

/-- What an operation sends, and the manager after it. -/
def ManagerOp.act (sqrt : ℚ → ℚ) (m : TargetManager) : ManagerOp → List Message × TargetManager
  | .detectTarget senses clock location confidence =>
    m.detectTarget sqrt senses clock location confidence
  | .handleMessage senses clock sender message => m.handleMessage sqrt senses clock sender message
  | .tick now => m.tick now
  | .reachedTarget => m.reachedTarget

open TargetManager

/-! ### Claims -/

/-- **Between two claims by named drones the nearer one wins**, and of two equally near ones the one
with the least id. -/
theorem claimWins_iff {distance d : ℚ} {claimant holder : Str} (h : holder ≠ Str.empty) :
    claimWins distance claimant (some d) (some holder) =
      decide (toLex (distance, claimant) < (toLex (d, holder) : ℚ ×ₗ Str)) := by
  have htruthy : truthy (some holder) = true := by simp [truthy, h]
  rw [claimWins, htruthy]
  simp only [Bool.not_true, Bool.false_eq_true, if_false, Option.any_some]
  rw [Bool.eq_iff_iff, decide_eq_true_eq, Prod.Lex.toLex_lt_toLex]
  rcases lt_trichotomy distance d with hlt | rfl | hgt
  · simp [hlt]
  · simp
  · simp [hgt, not_lt.2 hgt.le, hgt.ne']

/-- A claim wins against a record that nobody holds. -/
theorem claimWins_of_free {distance : ℚ} {claimant : Str} {d : Option ℚ} {holder : Option Str}
    (h : truthy holder = false) : claimWins distance claimant d holder = true := by
  simp [claimWins, h]

variable (m : TargetManager)

/-- The record of a claim that has won. -/
def assigned (target : Target) (claimant : Str) (distance now : ℚ) : Target :=
  { target with
    assignedTo := some claimant
    assignedDistance := some distance
    assignedAt := some now }

/-- A claim that wins is entered in the record. -/
theorem applyClaim_of_wins {targetId claimant : Str} {distance now : ℚ} {target : Target}
    (ht : m.targets.get? targetId = some target) (hp : target.status = ("pending" : Str))
    (hw : claimWins distance claimant target.assignedDistance target.assignedTo = true) :
    m.applyClaim targetId distance claimant now =
      { m with
        targets := m.targets.put (assigned target claimant distance now)
        claimedTarget :=
          if claimant = m.myId then some targetId
          else if m.claimedTarget = some targetId then none
          else m.claimedTarget } := by
  rw [applyClaim, ht]
  dsimp only
  rw [if_neg (not_not_intro hp), if_pos hw]
  rfl

/-- Any other claim changes nothing. -/
theorem applyClaim_of_loses {targetId claimant : Str} {distance now : ℚ}
    (h : ∀ target, m.targets.get? targetId = some target → target.status = ("pending" : Str) →
      claimWins distance claimant target.assignedDistance target.assignedTo = false) :
    m.applyClaim targetId distance claimant now = m := by
  unfold applyClaim
  split
  · rfl
  · next target ht =>
      split
      · rfl
      · next hp => rw [if_neg (by rw [h target ht (not_not.1 hp)]; simp)]

/-- **A claim** changes nothing, or it wins. -/
theorem applyClaim_cases (targetId : Str) (distance : ℚ) (claimant : Str) (now : ℚ) :
    m.applyClaim targetId distance claimant now = m ∨
      ∃ target, m.targets.get? targetId = some target ∧ target.status = ("pending" : Str) ∧
        claimWins distance claimant target.assignedDistance target.assignedTo = true := by
  by_cases hw : ∃ target, m.targets.get? targetId = some target ∧
      target.status = ("pending" : Str) ∧
      claimWins distance claimant target.assignedDistance target.assignedTo = true
  · exact Or.inr hw
  · refine Or.inl (applyClaim_of_loses m fun target ht hp => ?_)
    by_contra hwin
    exact hw ⟨target, ht, hp, Bool.eq_true_of_not_eq_false hwin⟩

/-- **An attempt to claim** does nothing, or it sends a claim and enters it: the target is pending
and the drone has no other target. -/
theorem tryClaim_cases (sqrt : ℚ → ℚ) (senses : Senses) (clock : Clock) (targetId : Str) :
    m.tryClaim sqrt senses clock targetId = ([], m) ∨
      ∃ target, m.targets.get? targetId = some target ∧ target.status = ("pending" : Str) ∧
        m.claimedTarget = none ∧
        claimWins (distance sqrt senses.position target.location) m.myId target.assignedDistance
          target.assignedTo = true ∧
        m.tryClaim sqrt senses clock targetId =
          ([.targetClaim targetId (distance sqrt senses.position target.location) m.myId],
            { m with
              targets := m.targets.put (assigned target m.myId
                (distance sqrt senses.position target.location) clock.assigned)
              claimedTarget := some targetId
              lastClaimAttempt := m.lastClaimAttempt.set targetId clock.attempt }) := by
  unfold tryClaim
  split
  · exact Or.inl rfl
  · next target ht =>
      split
      · exact Or.inl rfl
      · next hfree =>
          simp only [not_or, not_not] at hfree
          dsimp only
          split
          · exact Or.inl rfl
          · split
            · next hw =>
                refine Or.inr ⟨target, ht, hfree.1, hfree.2.1, hw, Prod.ext rfl ?_⟩
                refine (applyClaim_of_wins { m with
                  lastClaimAttempt := m.lastClaimAttempt.set targetId clock.attempt }
                  ht hfree.1 hw).trans ?_
                rw [if_pos rfl]
            · exact Or.inl rfl

/-- Taking out targets other than `t`. -/
theorem get?_foldl_erase {t : Str} {toDel : List Target} (targets : KeyedMap Target.id)
    (h : ∀ d ∈ toDel, d.id ≠ t) :
    (toDel.foldl (fun targets d => targets.erase d.id) targets).get? t = targets.get? t := by
  induction toDel generalizing targets with
  | nil => rfl
  | cons d toDel ih =>
      rw [List.foldl_cons, ih _ fun d' hd' => h d' (List.mem_cons_of_mem _ hd'),
        KeyedMap.get?_erase, if_neg]
      exact fun heq => h d List.mem_cons_self heq.symm

/-- A drone that has a target does not claim another one. -/
theorem tryClaim_of_claimed {t : Str} (h : m.claimedTarget = some t) (sqrt : ℚ → ℚ)
    (senses : Senses) (clock : Clock) (targetId : Str) :
    m.tryClaim sqrt senses clock targetId = ([], m) := by
  rcases tryClaim_cases m sqrt senses clock targetId with h' | ⟨_, _, _, hnone, _⟩
  · exact h'
  · rw [h] at hnone
    cases hnone

end Targets
