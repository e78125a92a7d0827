/-
**Discovering the peers of the mesh** (`mesh/discoveryEngine.ts`).

Every observer keeps a cell for each peer that it has had within two hops.  A call of
`advanceDiscoveryRegistry` visits the peers that are within two hops now: each visit ages the cell,
draws whether the peer is seen, and sets the state of the cell from its age and its sightings.

Main definitions:

* `Mesh.GraphEdge`, `Mesh.ConnectivitySnapshot`, `Mesh.DiscoveryCell` — the records;
* `Mesh.visits` — the peers that a call visits;
* `Mesh.DiscoveryCell.observe` — what a visit makes of a cell;
* `Mesh.advanceDiscoveryRegistry` — the call;
* `Mesh.outcomes` — which visits of a call are sightings.

Main results:

* `Mesh.DiscoveryCell.aged_observe_saw`, `Mesh.DiscoveryCell.Aged.observe` — what one visit does to
  the age of a cell;
* `Mesh.cellMatches_advance` — **what a call makes of each cell**.
-/
import Endendend.Foundation.OrderedMap
import Endendend.Foundation.QuietTail
import Endendend.Foundation.Text
import Mathlib.Algebra.Order.Field.Rat

set_option relaxedAutoImplicit false
set_option autoImplicit false

namespace Mesh

open Js QuietTail

/-! ### The network -/

structure GraphEdge where
  a : Str
  b : Str
  latencyMs : ℚ
  loss : ℚ
  quality01 : ℚ
  deriving DecidableEq

structure ConnectivitySnapshot where
  edges : List GraphEdge
  stalePeers : List Str

inductive NetworkStressMode
  | normal
  | degraded
  | high_latency
  | lossy
  | partitioned
  | recovery
  | offline
  deriving DecidableEq

/-- The first edge between two nodes. -/
def edgeBetween (snap : ConnectivitySnapshot) (a b : Str) : Option GraphEdge :=
  snap.edges.find? fun e => (e.a = a ∧ e.b = b) ∨ (e.a = b ∧ e.b = a)

def neighborsOf (id : Str) (snap : ConnectivitySnapshot) : List Str :=
  snap.edges.filterMap fun e =>
    if e.a = id then some e.b else if e.b = id then some e.a else none

/-- The neighbours of the neighbours, each with the first neighbour that leads to it. -/
def secondHop (obs : Str) (snap : ConnectivitySnapshot) : OrderedMap Str Str :=
  (neighborsOf obs snap).foldl (fun acc n =>
    (neighborsOf n snap).foldl (fun acc m =>
      if m = obs then acc else if (acc.get? m).isSome then acc else acc.set m n) acc) ∅

/-- The nodes within two hops. -/
def candidates (obs : Str) (snap : ConnectivitySnapshot) : List Str :=
  uniq (neighborsOf obs snap ++ (secondHop obs snap).keys)

/-! ### Cells -/

inductive DiscoveryPeerState
  | unknown
  | suspected
  | discovered
  | confirmed
  | stale
  | lost
  | recovered
  deriving DecidableEq

structure DiscoveryCell where
  observerId : Str
  targetId : Str
  state : DiscoveryPeerState
  sightings : ℕ
  ticksSinceSighting : ℕ
  viaRelay : Option Str
  deriving DecidableEq

def STALE_TICKS : ℕ := 6

def LOST_TICKS : ℕ := 14

def CONFIRM_SIGHTINGS : ℕ := 3

def discoveryKey (obs target : Str) : Str := obs ++ lit "→" ++ target

/-- A peer that an observer has within two hops: the edge to it, or a relay if there is none. -/
structure Visit where
  obs : Str
  target : Str
  edge : Option GraphEdge
  relayHint : Option Str
  deriving DecidableEq

def Visit.key (v : Visit) : Str := discoveryKey v.obs v.target

/-- The visit of a peer; a relay counts if its name is not empty. -/
def visitOf (snap : ConnectivitySnapshot) (obs target : Str) : Visit where
  obs
  target
  edge := edgeBetween snap obs target
  relayHint :=
    if (edgeBetween snap obs target).isSome then none
    else ((secondHop obs snap).get? target).filter (· ≠ [])

/-- The visits of a call, in order. -/
def visits (snap : ConnectivitySnapshot) (observerIds : List Str) : List Visit :=
  (observerIds.filter (· ∉ snap.stalePeers)).flatMap fun obs =>
    ((candidates obs snap).filter (· ≠ obs)).map (visitOf snap obs)

namespace DiscoveryCell

/-- The cell of a peer that has not been visited before. -/
def fresh (v : Visit) : DiscoveryCell where
  observerId := v.obs
  targetId := v.target
  state := .unknown
  sightings := 0
  ticksSinceSighting := 99
  viaRelay := none

/-- The state that follows from the age and the sightings. -/
def nextState (cell : DiscoveryCell) : DiscoveryPeerState :=
  if cell.ticksSinceSighting = 0 then
    if CONFIRM_SIGHTINGS ≤ cell.sightings then
      if cell.state = .lost then .recovered else .confirmed
    else if cell.sightings = 1 then .suspected
    else if 2 ≤ cell.sightings then .discovered
    else cell.state
  else
    let state :=
      if cell.state ≠ .unknown ∧ STALE_TICKS < cell.ticksSinceSighting then .stale else cell.state
    if state ≠ .unknown ∧ LOST_TICKS < cell.ticksSinceSighting then .lost else state

/-- The cell after a visit: the peer was seen or not, and a relay may whisper of it. -/
def observe (cell : DiscoveryCell) (v : Visit) (saw whispered : Bool) : DiscoveryCell :=
  let cell := { cell with ticksSinceSighting := cell.ticksSinceSighting + 1 }
  let cell :=
    if saw then
      { cell with
        sightings := cell.sightings + 1
        ticksSinceSighting := 0
        viaRelay :=
          if v.edge.isSome then none else if v.relayHint.isSome then v.relayHint
          else cell.viaRelay }
    else cell
  let cell := { cell with state := cell.nextState }
  if ¬ saw ∧ v.relayHint.isSome ∧ whispered ∧ cell.state = .unknown then
    { cell with state := .suspected, viaRelay := v.relayHint }
  else cell

end DiscoveryCell

/-! ### A call -/

/-- The arguments of a call without the cells; the draws are numbered. -/
structure DiscoveryArgs where
  snap : ConnectivitySnapshot
  observerIds : List Str
  stress : NetworkStressMode
  loss01 : ℚ
  rng : ℕ → ℚ

namespace DiscoveryArgs

def speed (args : DiscoveryArgs) : ℚ :=
  match args.stress with
  | .normal => 92 / 100
  | .degraded => 78 / 100
  | .high_latency => 62 / 100
  | .lossy => 52 / 100
  | .partitioned => 58 / 100
  | .recovery => 72 / 100
  | .offline => 45 / 100

def sightingChance (args : DiscoveryArgs) (v : Visit) : ℚ :=
  let baseQual := (v.edge.map (·.quality01)).getD (if v.relayHint.isSome then 35 / 100 else 0)
  args.speed * baseQual * (1 - args.loss01 * (65 / 100)) * (if v.edge.isSome then 1 else 22 / 100)

/-- The draw with a number shows the peer. -/
def saw (args : DiscoveryArgs) (n : ℕ) (v : Visit) : Bool :=
  decide (args.rng n < args.sightingChance v)

/-- The number of the next draw: a second one is taken for a relay of a peer that was not seen. -/
def nextDraw (args : DiscoveryArgs) (n : ℕ) (v : Visit) : ℕ :=
  if ¬ args.saw n v ∧ v.relayHint.isSome then n + 2 else n + 1

/-- One visit, with the cells and the number of the next draw. -/
def visit (args : DiscoveryArgs) (acc : OrderedMap Str DiscoveryCell × ℕ) (v : Visit) :
    OrderedMap Str DiscoveryCell × ℕ :=
  let (cells, n) := acc
  let cell := (cells.get? v.key).getD (.fresh v)
  let whispered := decide (args.rng (n + 1) < 4 / 100 * args.speed)
  (cells.set v.key (cell.observe v (args.saw n v) whispered), args.nextDraw n v)

end DiscoveryArgs

def advanceDiscoveryRegistry (args : DiscoveryArgs) (cells : OrderedMap Str DiscoveryCell) :
    OrderedMap Str DiscoveryCell :=
  ((visits args.snap args.observerIds).foldl args.visit (cells, 0)).1

/-- The known cells, at most the last 220. -/
def discoveryEntries (cells : OrderedMap Str DiscoveryCell) : List DiscoveryCell :=
  recent 220 (cells.values.filter fun c => c.state ≠ .unknown)

/-- Which visits are sightings, from the number of the next draw on. -/
def outcomesFrom (args : DiscoveryArgs) : ℕ → List Visit → List (Str × Bool)
  | _, [] => []
  | n, v :: vs => (v.key, args.saw n v) :: outcomesFrom args (args.nextDraw n v) vs

/-- The visits of a cell in a call, and which of them are sightings. -/
def outcomes (args : DiscoveryArgs) (key : Str) : List Bool :=
  (outcomesFrom args 0 (visits args.snap args.observerIds)).filterMap fun o =>
    if o.1 = key then some o.2 else none

/-! ### The age of a cell -/

/-- The states that a sighting may leave. -/
def DiscoveryPeerState.isFresh : DiscoveryPeerState → Bool
  | .suspected | .discovered | .confirmed | .recovered => true
  | .unknown | .stale | .lost => false

/-- What becomes of a state as visits pass without a sighting. -/
def DiscoveryPeerState.aged (state : DiscoveryPeerState) (q : ℕ) : DiscoveryPeerState :=
  if LOST_TICKS < q then .lost else if STALE_TICKS < q then .stale else state

/-- A cell that was seen, and has had a number of visits since. -/
structure DiscoveryCell.Aged (q : ℕ) (cell : DiscoveryCell) : Prop where
  seen : 0 < cell.sightings
  ticks : cell.ticksSinceSighting = q
  state : ∃ state : DiscoveryPeerState, state.isFresh ∧ cell.state = state.aged q

theorem DiscoveryCell.Aged.of_fresh {cell : DiscoveryCell} (hseen : 0 < cell.sightings)
    (hticks : cell.ticksSinceSighting = 0) (hfresh : cell.state.isFresh) : cell.Aged 0 :=
  ⟨hseen, hticks, cell.state, hfresh, rfl⟩

theorem DiscoveryCell.Aged.lost_iff {q : ℕ} {cell : DiscoveryCell} (h : cell.Aged q) :
    cell.state = .lost ↔ LOST_TICKS < q := by
  obtain ⟨state, hfresh, heq⟩ := h.state
  rw [heq, DiscoveryPeerState.aged]
  split
  · next hlost => exact iff_of_true rfl hlost
  · next hnot =>
      refine iff_of_false ?_ hnot
      split
      · decide
      · rintro rfl
        exact absurd hfresh (by decide)

/-- A cell is stale or lost after a number of visits. -/
theorem DiscoveryCell.Aged.old_iff {q : ℕ} {cell : DiscoveryCell} (h : cell.Aged q) :
    cell.state = .stale ∨ cell.state = .lost ↔ STALE_TICKS < q := by
  obtain ⟨state, hfresh, heq⟩ := h.state
  rw [heq, DiscoveryPeerState.aged]
  split
  · next hlost =>
      exact iff_of_true (Or.inr rfl) ((by decide : STALE_TICKS < LOST_TICKS).trans hlost)
  · split
    · next hstale => exact iff_of_true (Or.inl rfl) hstale
    · next hnot =>
        refine iff_of_false ?_ hnot
        rintro (rfl | rfl) <;> exact absurd hfresh (by decide)

theorem DiscoveryCell.Aged.known {q : ℕ} {cell : DiscoveryCell} (h : cell.Aged q) :
    cell.state ≠ .unknown := by
  obtain ⟨state, hfresh, heq⟩ := h.state
  rw [heq, DiscoveryPeerState.aged]
  split
  · decide
  · split
    · decide
    · rintro rfl
      exact absurd hfresh (by decide)

/-- A cell that is seen right now is neither unknown nor old. -/
theorem DiscoveryCell.isFresh_nextState {cell : DiscoveryCell}
    (hticks : cell.ticksSinceSighting = 0) (hseen : 0 < cell.sightings) :
    cell.nextState.isFresh := by
  rw [nextState, if_pos hticks]
  split
  · split <;> rfl
  · split
    · rfl
    · rw [if_pos (by omega)]
      rfl

/-- The state of a cell that is known and is not seen right now follows its age. -/
theorem DiscoveryCell.nextState_of_known {cell : DiscoveryCell} (hknown : cell.state ≠ .unknown)
    (hticks : cell.ticksSinceSighting ≠ 0) :
    cell.nextState = cell.state.aged cell.ticksSinceSighting := by
  rw [nextState, if_neg hticks, DiscoveryPeerState.aged]
  simp only [hknown, ne_eq, not_false_eq_true, true_and]
  have hne : (if STALE_TICKS < cell.ticksSinceSighting then DiscoveryPeerState.stale
      else cell.state) ≠ .unknown := by
    split
    · decide
    · exact hknown
  simp only [hne, not_false_eq_true, true_and]

/-- States age step by step. -/
theorem DiscoveryPeerState.aged_aged (state : DiscoveryPeerState) (q : ℕ) :
    (state.aged q).aged (q + 1) = state.aged (q + 1) := by
  unfold aged
  split_ifs <;> first | rfl | omega

/-- A visit that sees the peer starts its age anew. -/
theorem DiscoveryCell.aged_observe_saw (cell : DiscoveryCell) (v : Visit) (whispered : Bool) :
    (cell.observe v true whispered).Aged 0 := by
  rw [observe]
  simp only [if_true, not_true_eq_false, false_and, if_false]
  exact .of_fresh (Nat.succ_pos _) rfl (@isFresh_nextState
    { cell with
      sightings := cell.sightings + 1
      ticksSinceSighting := 0
      viaRelay := if v.edge.isSome then none else if v.relayHint.isSome then v.relayHint
        else cell.viaRelay } rfl (Nat.succ_pos _))

/-- A visit that does not see the peer adds to its age. -/
theorem DiscoveryCell.Aged.observe {q : ℕ} {cell : DiscoveryCell} (h : cell.Aged q) (v : Visit)
    (whispered : Bool) : (cell.observe v false whispered).Aged (q + 1) := by
  have hticks : cell.ticksSinceSighting + 1 = q + 1 := by rw [h.ticks]
  obtain ⟨state, hfresh, heq⟩ := h.state
  have hnext : nextState { cell with ticksSinceSighting := q + 1 } = state.aged (q + 1) := by
    refine (@nextState_of_known { cell with ticksSinceSighting := q + 1 } h.known
      (Nat.succ_ne_zero q)).trans ?_
    change cell.state.aged (q + 1) = _
    rw [heq, DiscoveryPeerState.aged_aged]
  have haged : ({ cell with
      ticksSinceSighting := q + 1
      state := state.aged (q + 1) } : DiscoveryCell).Aged (q + 1) :=
    ⟨h.seen, rfl, state, hfresh, rfl⟩
  rw [DiscoveryCell.observe]
  simp only [hticks, Bool.false_eq_true, if_false, hnext]
  -- nobody whispers of a cell that is known
  rw [if_neg fun hw => haged.known hw.2.2.2]
  exact haged

/-- The cell under a key, after visits of which some are sightings. -/
structure CellMatches (log : List Bool) (cell : Option DiscoveryCell) : Prop where
  isSome_iff : cell.isSome ↔ log ≠ []
  aged : ∀ c, cell = some c → true ∈ log → c.Aged (quiet id log)

theorem CellMatches.observe {log : List Bool} {cell : Option DiscoveryCell}
    (h : CellMatches log cell) (v : Visit) (saw whispered : Bool) :
    CellMatches (log ++ [saw]) (some ((cell.getD (.fresh v)).observe v saw whispered)) := by
  refine ⟨by simp, fun c hc hseen => ?_⟩
  obtain rfl := Option.some.inj hc
  cases saw with
  | true =>
      rw [quiet_concat_of_mark rfl]
      exact DiscoveryCell.aged_observe_saw _ v whispered
  | false =>
      have hold : true ∈ log := by simpa using hseen
      obtain ⟨c₀, rfl⟩ := Option.isSome_iff_exists.1 (h.isSome_iff.2 (List.ne_nil_of_mem hold))
      rw [quiet_concat_of_not_mark rfl]
      exact (h.aged c₀ rfl hold).observe v whispered

theorem cellMatches_foldl (args : DiscoveryArgs) (key : Str) (vs : List Visit) {n : ℕ}
    {cells : OrderedMap Str DiscoveryCell} {log : List Bool}
    (h : CellMatches log (cells.get? key)) :
    CellMatches
      (log ++ (outcomesFrom args n vs).filterMap fun o => if o.1 = key then some o.2 else none)
      ((vs.foldl args.visit (cells, n)).1.get? key) := by
  induction vs generalizing n cells log with
  | nil => simpa [outcomesFrom] using h
  | cons v vs ih =>
      have hcell : (args.visit (cells, n) v).1.get? key =
          if key = v.key then
            some (((cells.get? v.key).getD (.fresh v)).observe v (args.saw n v)
              (decide (args.rng (n + 1) < 4 / 100 * args.speed)))
          else cells.get? key := cells.get?_set v.key key _
      have hdraw : args.visit (cells, n) v = ((args.visit (cells, n) v).1, args.nextDraw n v) := rfl
      rw [List.foldl_cons, outcomesFrom, hdraw]
      by_cases hkey : key = v.key
      · rw [if_pos hkey] at hcell
        subst hkey
        have hnext := h.observe v (args.saw n v) (decide (args.rng (n + 1) < 4 / 100 * args.speed))
        rw [List.filterMap_cons_some (by rw [if_pos rfl]), List.append_cons]
        exact ih (hcell ▸ hnext)
      · rw [if_neg hkey] at hcell
        rw [List.filterMap_cons_none (by rw [if_neg (Ne.symm hkey)])]
        exact ih (hcell ▸ h)

/-- **What a call makes of each cell.** -/
theorem cellMatches_advance (args : DiscoveryArgs) {key : Str}
    {cells : OrderedMap Str DiscoveryCell} {log : List Bool}
    (h : CellMatches log (cells.get? key)) :
    CellMatches (log ++ outcomes args key) ((advanceDiscoveryRegistry args cells).get? key) :=
  cellMatches_foldl args key (visits args.snap args.observerIds) h

end Mesh
