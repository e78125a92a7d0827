/-
**Exploring a grid together** (`swarm/exploration.py`).

Each drone keeps a map of the cells that are explored and of those that a drone has claimed.  Every
few seconds it sends all of it to the others, the claims of other drones included, but not their
times: whoever receives a claim notes it with the time at which it comes in.

Main definitions:

* `Exploration.GridMap` — explored cells, and claims with the times at which they were noted;
* `Exploration.ExplorationManager`, with `update`, `handleExplorationUpdate`, `chooseNextTarget` and
  `reachedTarget`;
* `Exploration.explorers` — the drones as a network;
* `Exploration.flightStep` — a move of the network at a time.
-/
import Endendend.Foundation.Network
import Endendend.Foundation.OrderedMap
import Endendend.Foundation.PyText
import Mathlib.Algebra.Order.Field.Rat

set_option relaxedAutoImplicit false
set_option autoImplicit false

namespace Exploration

open Py (Str)
open Js (OrderedMap)
open Network (Envelope Protocol World Move)

/-! ### The map of a drone -/

/-- A cell of the grid, by its indices. -/
abbrev Cell := ℤ × ℤ

def gridWidth : ℕ := 100

def gridHeight : ℕ := 100

def gridCellSize : ℚ := 5

/-- `int`, which drops the digits behind the point. -/
def truncate (x : ℚ) : ℤ := x.num.tdiv x.den

/-- The cells that are explored, and the claims: who has claimed a cell, and when this was noted. -/
structure GridMap where
  explored : List Cell
  claimed : OrderedMap Cell (Str × ℚ)

namespace GridMap

def claimTimeout : ℚ := 10

def new : GridMap := ⟨[], ∅⟩

variable (g : GridMap)

def cellFromPosition (x y : ℚ) : Cell :=
  let ix := truncate (x / gridCellSize)
  let iy := truncate (y / gridCellSize)
  (max 0 (min (gridWidth - 1) ix), max 0 (min (gridHeight - 1) iy))

/-- The middle of a cell. -/
def cellCenterMeters (cell : Cell) : ℚ × ℚ :=
  ((cell.1 + 1 / 2) * gridCellSize, (cell.2 + 1 / 2) * gridCellSize)

def isExplored (cell : Cell) : Bool := g.explored.contains cell

def markExplored (cell : Cell) : GridMap := ⟨Js.setAdd g.explored cell, g.claimed.erase cell⟩

def setForeignClaim (cell : Cell) (owner : Str) (ts : ℚ) : GridMap :=
  if owner = Str.empty then g else { g with claimed := g.claimed.set cell (owner, ts) }

def claimForSelf (cell : Cell) (myId : Str) (now : ℚ) : GridMap :=
  { g with claimed := g.claimed.set cell (myId, now) }

def releaseSelfClaim (cell : Cell) (myId : Str) : GridMap :=
  if (g.claimed.get? cell).any fun cur => cur.1 = myId then
    { g with claimed := g.claimed.erase cell }
  else g

/-- A claim of another drone that is not stale blocks a cell. -/
def isBlockedFor (cell : Cell) (myId : Str) (now : ℚ) : Bool :=
  (g.claimed.get? cell).any fun cur => decide (cur.1 ≠ myId ∧ ¬ now - cur.2 > claimTimeout)

def cleanupStaleClaims (now : ℚ) : GridMap :=
  { g with claimed := g.claimed.keep fun _ cur => decide (¬ now - cur.2 > claimTimeout) }

/-- The claim of another drone is noted, if the cell is not explored. -/
def noteClaim (myId : Str) (ts : ℚ) (g : GridMap) (entry : Cell × Str) : GridMap :=
  if entry.2 = Str.empty ∨ entry.2 = myId then g
  else if g.isExplored entry.1 then g
  else g.setForeignClaim entry.1 entry.2 ts

/-- The map after an update of another drone. -/
def takeOver (myId : Str) (ts : ℚ) (cells : List Cell) (claims : List (Cell × Str)) : GridMap :=
  claims.foldl (noteClaim myId ts) (cells.foldl markExplored g)

end GridMap

/-! ### Managers -/

/-- What a drone sends: the cells and the claims that it knows, each cell with one claim. -/
structure ExplorationUpdate where
  cells : List Cell
  claims : List (Cell × Str)
  sender : Str
  relayTtl : ℤ
  epidemicId : Option Str
  distinct : (claims.map Prod.fst).Nodup
  deriving DecidableEq

/-- A message on its way to all drones, or to a sample of them. -/
structure Sending where
  message : ExplorationUpdate
  fanout : Option ℕ

/-- What a manager asks its vertex node. -/
structure Vertex where
  meshRouting : Bool
  registeredPeerCount : Option ℕ

structure ExplorationManager where
  myId : Str
  map : GridMap
  currentTarget : Option Cell
  lastBroadcast : ℚ
  epidemicSeen : OrderedMap Str ℚ

def scalableExplorationEnabled : Bool := true

def scalablePeerCountThreshold : ℕ := 16

def explorationGossipFanout : ℕ := 3

def explorationRelayTtl : ℤ := 5

/-- The number of drones as far as it is known; without a count there are two. -/
def networkSize (v : Vertex) : ℕ := (v.registeredPeerCount.map (· + 1)).getD 2

/-- In a large swarm updates go to a sample of the drones, which relay them. -/
def useScalableExploration (v : Vertex) : Bool :=
  scalableExplorationEnabled && !v.meshRouting &&
    decide (networkSize v ≥ scalablePeerCountThreshold)

namespace ExplorationManager

def broadcastInterval : ℚ := 5

def epidemicTtlSec : ℚ := 45

def new (myId : Str) : ExplorationManager := ⟨myId, .new, none, 0, ∅⟩

variable (m : ExplorationManager)

/-- All that a drone knows; `ns` and `rand` make the id of a message that is relayed. -/
def broadcastUpdates (v : Vertex) (ns rand : ℤ) : Sending :=
  let scalable := useScalableExploration v
  let colon : Str := ":"
  { message :=
      { cells := m.map.explored
        claims := m.map.claimed.entries.map fun p => (p.1, p.2.1)
        sender := m.myId
        relayTtl := if scalable then explorationRelayTtl else 0
        epidemicId :=
          if scalable then some (m.myId ++ colon ++ Str.ofInt ns ++ colon ++ Str.ofInt rand)
          else none
        distinct := by
          rw [List.map_map]
          exact m.map.claimed.nodup }
    fanout := if scalable then some explorationGossipFanout else none }

/-- Drops the stale claims, and sends an update when it is time. -/
def update (now : ℚ) (v : Vertex) (ns rand : ℤ) : Option Sending × ExplorationManager :=
  let m := { m with map := m.map.cleanupStaleClaims now }
  if now - m.lastBroadcast > broadcastInterval then
    (some (m.broadcastUpdates v ns rand), { m with lastBroadcast := now })
  else (none, m)

/-- Notes the id of a message that is relayed, and tells whether it is a new one. -/
def noteEpidemic (now : ℚ) : Option Str → ExplorationManager × Bool
  | none => (m, true)
  | some eid =>
    let seen := m.epidemicSeen.keep fun _ ts => decide (¬ now - ts > epidemicTtlSec)
    if (seen.get? eid).isSome then ({ m with epidemicSeen := seen }, false)
    else ({ m with epidemicSeen := seen.set eid now }, true)

/-- The id of a message, if it has one. -/
def epidemicIdOf (msg : ExplorationUpdate) : Option Str :=
  msg.epidemicId.filter fun eid => decide (eid ≠ Str.empty)

/-- Takes over what another drone knows, and relays it in a large swarm. -/
def handleExplorationUpdate (sender : Str) (msg : ExplorationUpdate) (now : ℚ) (v : Vertex) :
    Option Sending × ExplorationManager :=
  if sender = m.myId then (none, m)
  else
    let eid := epidemicIdOf msg
    let noted := m.noteEpidemic now eid
    if noted.2 then
      let m := { noted.1 with map := noted.1.map.takeOver m.myId now msg.cells msg.claims }
      if msg.relayTtl > 0 ∧ useScalableExploration v ∧ eid.isSome then
        (some ⟨{ msg with relayTtl := msg.relayTtl - 1, epidemicId := eid },
          some explorationGossipFanout⟩, m)
      else (none, m)
    else (none, noted.1)

/-- The cells of the grid, column by column. -/
def grid : List Cell :=
  (List.range gridWidth).flatMap fun ix => (List.range gridHeight).map fun iy => (ix, iy)

/-- A cell replaces the best one so far if it is nearer. -/
def nearer (place : Cell) (best : Option (ℤ × Cell)) (cell : Cell) : Option (ℤ × Cell) :=
  let dist := |cell.1 - place.1| + |cell.2 - place.2|
  if best.all fun b => dist < b.1 then some (dist, cell) else best

/-- Keeps its target while that is free, or else claims the nearest free cell. -/
def chooseNextTarget (x y now : ℚ) : Option Cell × ExplorationManager :=
  let place := GridMap.cellFromPosition x y
  let free := fun cell => !m.map.isExplored cell && !m.map.isBlockedFor cell m.myId now
  if m.currentTarget.any free then (m.currentTarget, m)
  else
    match (grid.filter free).foldl (nearer place) none with
    | none => (none, { m with currentTarget := none })
    | some best =>
      (some best.2,
        { m with map := m.map.claimForSelf best.2 m.myId now, currentTarget := some best.2 })

def reachedTarget (cell : Cell) : ExplorationManager :=
  { m with map := (m.map.markExplored cell).releaseSelfClaim cell m.myId, currentTarget := none }

end ExplorationManager

/-! ### The drones as a network -/

/-- What a drone does, apart from handling messages. -/
inductive Action
  | update (v : Vertex) (ns rand : ℤ) (reached : List Str)
  | chooseNextTarget (x y : ℚ)
  | reachedTarget (cell : Cell)

/-- A drone does something at a time. -/
structure Event where
  now : ℚ
  action : Action

/-- What a drone reads while it handles a message, and the drones that its own message reaches. -/
structure Reading where
  now : ℚ
  v : Vertex
  reached : List Str

/-- What is sent goes to the other drones that are reached, or to the first few of them. -/
def envelopes (members : List Str) (i : Str) (reached : List Str) :
    Option Sending → List (Envelope Str ExplorationUpdate)
  | none => []
  | some s =>
    let receivers := members.filter fun r => r ≠ i ∧ reached.contains r
    (s.fanout.elim receivers receivers.take).map fun r => ⟨i, r, s.message⟩

def explorers (members : List Str) :
    Protocol Str ExplorationManager ExplorationUpdate Event Reading where
  members
  act i event m :=
    match event.action with
    | .update v ns rand reached =>
      let r := m.update event.now v ns rand
      (envelopes members i reached r.1, r.2)
    | .chooseNextTarget x y => ([], (m.chooseNextTarget x y event.now).2)
    | .reachedTarget cell => ([], m.reachedTarget cell)
  receive e reading m :=
    let r := m.handleExplorationUpdate e.sender e.message reading.now reading.v
    (envelopes members e.receiver reading.reached r.1, r.2)

/-- The moves of the drones. -/
abbrev ExplorerMove := Move Str ExplorationUpdate Event Reading

/-- When a move is made. -/
def time : ExplorerMove → ℚ
  | .act _ event => event.now
  | .deliver _ reading => reading.now

/-- The drones and the messages in flight, and what the clock showed last. -/
structure Flight where
  world : World Str ExplorationManager ExplorationUpdate
  clock : ℚ

def newFlight : Flight := ⟨⟨.new, []⟩, 0⟩

/-- The clock does not run backwards. -/
def flightStep (members : List Str) (s : Flight) (mv : ExplorerMove) : Option Flight :=
  if s.clock ≤ time mv then
    ((explorers members).step s.world mv).map fun w => ⟨w, time mv⟩
  else none

end Exploration
