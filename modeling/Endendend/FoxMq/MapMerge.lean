/-
**The join of map cells** (`foxmq/mapMerge.ts`).

A cell that a node holds is joined with a cell that arrives: the state of the higher rank wins, then
the higher version, then the later time, then the higher confidence, then the more trusted proof.
The branches keep different fields of the two sides.

Main definitions:

* `FoxMq.MapCellState`, `FoxMq.MapProofSource`, `FoxMq.MapCellMeta` — a cell and what it consists
  of;
* `FoxMq.mergeMapCellMeta` — the join, with all fields;
* `FoxMq.CellCore`, `FoxMq.joinCore` — the six fields that replicas should agree on, and the join of
  these fields;
* `FoxMq.CellCore.level` — the part of a cell that is compared first.

Main results:

* `FoxMq.core_mergeMapCellMeta` — the six fields of a join depend on the six fields of its sides.
-/
import Endendend.Foundation.Text
import Mathlib.Data.Prod.Lex
import Mathlib.Data.Rat.Lemmas
import Mathlib.Algebra.Order.Ring.Rat
import Mathlib.Tactic.Linarith

set_option relaxedAutoImplicit false
set_option autoImplicit false

namespace FoxMq

open Js

/-! ### Cells -/

/-- What is known of a cell. -/
inductive MapCellState
  | unknown
  | frontier
  | seen
  | searched
  | blocked
  | target
  | safe
  | hazard
  | relay_critical
  | unreachable
  deriving DecidableEq

/-- The rank of a state: a higher one is more knowledge. -/
def cellStateRank : MapCellState → ℕ
  | .unknown => 0
  | .frontier => 1
  | .seen => 2
  | .searched => 3
  | .safe => 4
  | .relay_critical => 5
  | .blocked => 6
  | .hazard => 7
  | .unreachable => 8
  | .target => 9

theorem cellStateRank_injective : Function.Injective cellStateRank := by
  intro s t h
  cases s <;> cases t <;> first | rfl | exact absurd h (by decide)

/-- Where the knowledge of a cell comes from. -/
inductive MapProofSource
  | local_sensor
  | peer_mesh
  | peer_confirm
  | replay
  | recovery
  | operator
  deriving DecidableEq

def proofTrust : MapProofSource → ℕ
  | .local_sensor => 1
  | .peer_mesh => 2
  | .recovery => 2
  | .replay => 2
  | .operator => 3
  | .peer_confirm => 4

/-- The record of a cell. -/
structure MapCellMeta where
  state : MapCellState
  version : ℚ
  updatedAtMs : ℚ
  lastNodeId : Option Str
  confidence01 : Option ℚ
  firstSeenBy : Option Str
  proofSource : Option MapProofSource
  dirtyLocal : Option Bool
  mergeLineage : Option (List Str)
  deriving DecidableEq

/-- The rank of a cell. -/
def rankOf (m : MapCellMeta) : ℕ := cellStateRank m.state

/-- The trust in a proof; a missing one is trusted like a local sensor. -/
def trustOfProof : Option MapProofSource → ℕ
  | some p => proofTrust p
  | none => 1

/-- The trust in a cell. -/
def trustOf (m : MapCellMeta) : ℕ := trustOfProof m.proofSource

def lineageCap : ℕ := 6

/-- A trail with one more entry, cut to the last ones. -/
def appendLineage (base : Option (List Str)) (entry : Str) : List Str :=
  let next := base.getD [] ++ [entry]
  next.drop (next.length - lineageCap)

/-- The proof that a join keeps when it compares the two sides' trust. -/
def betterProof (localProof remoteProof : Option MapProofSource) : Option MapProofSource :=
  if trustOfProof remoteProof ≥ trustOfProof localProof then remoteProof <|> localProof
  else localProof

/-- The join of a cell that a node may hold with one that arrives. -/
def mergeMapCellMeta (held : Option MapCellMeta) (remote : MapCellMeta) (remoteOrigin : Str) :
    MapCellMeta :=
  match held with
  | none =>
      { remote with
        mergeLineage := some (appendLineage remote.mergeLineage (lit "init≤" ++ remoteOrigin))
        dirtyLocal := some (remote.dirtyLocal.getD false) }
  | some mine =>
      let lr := rankOf mine
      let rr := rankOf remote
      let lineage (entry : Str) := some (appendLineage mine.mergeLineage (entry ++ remoteOrigin))
      let firstSeenBy := mine.firstSeenBy <|> remote.firstSeenBy
      let higher := some (max (mine.confidence01.getD 0) (remote.confidence01.getD 0))
      let dirty := some (remote.dirtyLocal.getD false || mine.dirtyLocal.getD false)
      if rr > lr then
        { remote with
          firstSeenBy := firstSeenBy
          mergeLineage := lineage (lit "rank↑")
          dirtyLocal := some (remote.dirtyLocal.getD false) }
      else if rr < lr then
        { mine with mergeLineage := lineage (lit "reject-stale-rank:") }
      else if remote.version > mine.version then
        { remote with
          firstSeenBy := firstSeenBy
          mergeLineage := lineage (lit "ver↑")
          confidence01 := higher
          dirtyLocal := dirty }
      else if remote.version < mine.version then
        { mine with mergeLineage := lineage (lit "keep-ver:") }
      else if remote.updatedAtMs > mine.updatedAtMs then
        { remote with
          proofSource := betterProof mine.proofSource remote.proofSource
          firstSeenBy := firstSeenBy
          confidence01 := higher
          mergeLineage := lineage (lit "time↑")
          dirtyLocal := dirty }
      else if remote.updatedAtMs < mine.updatedAtMs then
        { mine with mergeLineage := lineage (lit "keep-time:") }
      else
        -- as high in rank, version and time: the cell that is held stays, and may take a field over
        let rc := remote.confidence01.getD 0
        let lc := mine.confidence01.getD 0
        if rc > lc then
          { mine with
            confidence01 := some rc
            proofSource := betterProof mine.proofSource remote.proofSource
            mergeLineage := lineage (lit "conf↑") }
        else if trustOf remote > trustOf mine then
          { mine with
            proofSource := remote.proofSource
            lastNodeId := remote.lastNodeId <|> mine.lastNodeId
            mergeLineage := lineage (lit "trust↑") }
        else
          { mine with mergeLineage := lineage (lit "tie:") }

/-- The join under the name of the node that wrote the cell that arrives. -/
def mergeCellMeta (held : Option MapCellMeta) (remote : MapCellMeta) : MapCellMeta :=
  mergeMapCellMeta held remote (remote.lastNodeId.getD (lit "mesh"))

/-! ### The fields that replicas should agree on -/

/-- A cell without its history: who saw it first, the trail of its joins, and whether it has been
published. -/
structure CellCore where
  state : MapCellState
  version : ℚ
  updatedAtMs : ℚ
  lastNodeId : Option Str
  proofSource : Option MapProofSource
  confidence01 : Option ℚ
  deriving DecidableEq

/-- The fields of a cell that replicas should agree on. -/
def MapCellMeta.core (m : MapCellMeta) : CellCore :=
  ⟨m.state, m.version, m.updatedAtMs, m.lastNodeId, m.proofSource, m.confidence01⟩

namespace CellCore

def rank (c : CellCore) : ℕ := cellStateRank c.state

def trust (c : CellCore) : ℕ := trustOfProof c.proofSource

/-- The confidence in a cell; a missing one counts as none at all. -/
def conf (c : CellCore) : ℚ := c.confidence01.getD 0

/-- What is compared first: rank, version, time. -/
def level (c : CellCore) : ℕ ×ₗ ℚ ×ₗ ℚ := toLex (c.rank, toLex (c.version, c.updatedAtMs))

end CellCore

open CellCore

/-- The join of the six fields. -/
def joinCore (a b : CellCore) : CellCore :=
  if b.rank > a.rank then b
  else if b.rank < a.rank then a
  else if b.version > a.version then { b with confidence01 := some (max a.conf b.conf) }
  else if b.version < a.version then a
  else if b.updatedAtMs > a.updatedAtMs then
    { b with
      proofSource := betterProof a.proofSource b.proofSource
      confidence01 := some (max a.conf b.conf) }
  else if b.updatedAtMs < a.updatedAtMs then a
  else if b.conf > a.conf then
    { a with
      confidence01 := some b.conf
      proofSource := betterProof a.proofSource b.proofSource }
  else if b.trust > a.trust then
    { a with proofSource := b.proofSource, lastNodeId := b.lastNodeId <|> a.lastNodeId }
  else a

@[simp] theorem rank_core (m : MapCellMeta) : m.core.rank = rankOf m := rfl

@[simp] theorem trust_core (m : MapCellMeta) : m.core.trust = trustOf m := rfl

@[simp] theorem conf_core (m : MapCellMeta) : m.core.conf = m.confidence01.getD 0 := rfl

@[simp] theorem version_core (m : MapCellMeta) : m.core.version = m.version := rfl

@[simp] theorem updatedAtMs_core (m : MapCellMeta) : m.core.updatedAtMs = m.updatedAtMs := rfl

/-- **The six fields of a join depend on the six fields of its two sides.** -/
theorem core_mergeMapCellMeta (mine remote : MapCellMeta) (remoteOrigin : Str) :
    (mergeMapCellMeta (some mine) remote remoteOrigin).core = joinCore mine.core remote.core := by
  simp only [mergeMapCellMeta, joinCore, rank_core, trust_core, conf_core, version_core,
    updatedAtMs_core, apply_ite MapCellMeta.core]
  rfl

@[simp] theorem core_mergeMapCellMeta_none (remote : MapCellMeta) (remoteOrigin : Str) :
    (mergeMapCellMeta none remote remoteOrigin).core = remote.core := rfl

end FoxMq
