/-
**The version of the next local update, and the closed frontier** (`swarm/sharedMap.ts`,
`swarm/recoveryManager.ts`).

A map counts the versions of its local updates itself.  Every write of its own goes beyond the
counter, and every cell that it takes from a delta moves the counter beyond its version; but the
constructor installs cells without looking at theirs.

After the frontier has been computed, every neighbour of an explored cell is known.  No other cell
has been touched, so that computing the frontier once more finds nothing to do.

Main definitions:

* `FoxMq.materializeMergedMap` — the map of merged cells;
* `FoxMq.MonotonicSharedMap.Fresh` — the counter is above every stored version;
* `FoxMq.MonotonicSharedMap.Keeps` — a local update in the state of the stored cell is kept;
* `FoxMq.gridNeighbors` — the four keys around a place of the grid.

Main results:

* `FoxMq.fresh_iff` — **the counter is above every stored version all along every run exactly if
  the constructor installs versions below one**;
* `FoxMq.neighborKeys_grid` — the keys that the code visits are these four;
* `FoxMq.recomputeFrontiers_of_closed` — where all neighbours are known nothing happens;
* `FoxMq.frontiers_close_region` — **the explored region is closed, the frame is kept, and a second
  computation changes nothing**.
-/
import Endendend.FoxMq.MonotoneKnowledge
import Endendend.FoxMq.CellStates

set_option relaxedAutoImplicit false
set_option autoImplicit false

namespace FoxMq

open Js

/-- The map of merged cells. -/
def materializeMergedMap (cells : OrderedMap Str MapCellMeta) : MonotonicSharedMap := .new cells

/-! ### The version of a join -/

/-- A join has the version of one of its sides. -/
theorem version_joinCore (a b : CellCore) :
    (joinCore a b).version = a.version ∨ (joinCore a b).version = b.version := by
  have hj := joined a b
  generalize joinCore a b = c at hj ⊢
  cases hj with
  | rankUp | verUp | timeUp => exact Or.inr rfl
  | keep | confUp | trustUp | tie => exact Or.inl rfl

theorem version_mergeMapCellMeta_lt {held : Option MapCellMeta} {remote : MapCellMeta}
    {origin : Str} {v : ℚ} (hheld : ∀ c, held = some c → c.version < v)
    (hremote : remote.version < v) : (mergeMapCellMeta held remote origin).version < v := by
  cases held with
  | none => exact hremote
  | some mine =>
      have hcore := congrArg CellCore.version (core_mergeMapCellMeta mine remote origin)
      change (mergeMapCellMeta (some mine) remote origin).version = _ at hcore
      rcases version_joinCore mine.core remote.core with h | h
      · exact (hcore.trans h).trans_lt (hheld mine rfl)
      · exact (hcore.trans h).trans_lt hremote

/-- **A newer version of the same rank is taken over.** -/
theorem mergeMapCellMeta_of_newer {mine remote : MapCellMeta} (origin : Str)
    (hrank : rankOf remote = rankOf mine) (hversion : mine.version < remote.version) :
    let merged := mergeMapCellMeta (some mine) remote origin
    merged.state = remote.state ∧ merged.version = remote.version ∧
      merged.updatedAtMs = remote.updatedAtMs ∧ merged.lastNodeId = remote.lastNodeId ∧
      merged.proofSource = remote.proofSource := by
  intro merged
  have hmerged : merged = mergeMapCellMeta (some mine) remote origin := rfl
  simp only [mergeMapCellMeta, if_neg (show ¬ rankOf remote > rankOf mine by omega),
    if_neg (show ¬ rankOf remote < rankOf mine by omega), if_pos hversion] at hmerged
  rw [hmerged]
  exact ⟨rfl, rfl, rfl, rfl, rfl⟩

namespace MonotonicSharedMap

/-! ### The counter -/

/-- The counter is above every stored version. -/
def Fresh (m : MonotonicSharedMap) : Prop :=
  ∀ key c, m.getCell key = some c → c.version < m.nextVersion.1

/-- A local update in the state of the stored cell is the one that is kept. -/
def Keeps (m : MonotonicSharedMap) : Prop :=
  ∀ gx gz state nowMs nodeId confidence01 proofSource c,
    m.getCell (cellKey gx gz) = some c → rankOf c = cellStateRank state →
      ∃ c', (m.applyLocalUpdate gx gz state nowMs nodeId confidence01 proofSource).1.getCell
          (cellKey gx gz) = some c' ∧ c'.state = state ∧ c'.version = m.nextVersion.1 ∧
        c'.updatedAtMs = nowMs ∧ c'.lastNodeId = some nodeId ∧ c'.proofSource = some proofSource

/-- A cell is stored below the counter. -/
theorem fresh_setCell {m : MonotonicSharedMap} {key : Str} {cell : MapCellMeta} {seq : ℚ}
    (h : m.Fresh) (hseq : m.seq ≤ seq) (hcell : cell.version < seq) :
    Fresh { m.setCell key cell with seq } := by
  intro key' c hc
  have hget : MonotonicSharedMap.getCell { m.setCell key cell with seq } key' = _ :=
    getCell_setCell m key key' cell
  rw [hget] at hc
  split at hc
  · exact Option.some.inj hc ▸ hcell
  · exact (h key' c hc).trans_le hseq

theorem fresh_applyLocalUpdate {m : MonotonicSharedMap} (h : m.Fresh) (gx gz : Decimal)
    (state : MapCellState) (nowMs : ℚ) (nodeId : Str) (confidence01 : Option ℚ)
    (proofSource : MapProofSource) :
    (m.applyLocalUpdate gx gz state nowMs nodeId confidence01 proofSource).1.Fresh := by
  have hlt : m.seq < m.seq + 1 := lt_add_one m.seq
  refine fresh_setCell (m := m) h hlt.le (version_mergeMapCellMeta_lt (fun c hc => ?_) hlt)
  exact (h _ c hc).trans hlt

theorem fresh_mergeRemote {origin : Str} {acc : MonotonicSharedMap × List Str}
    (h : acc.1.Fresh) (e : Str × MapCellMeta) : (mergeRemote origin acc e).1.Fresh := by
  unfold mergeRemote
  simp only
  split
  · exact h
  · -- the counter goes beyond the version that is stored
    exact fresh_setCell h (le_max_left _ _) ((lt_add_one _).trans_le (le_max_right _ _))

theorem fresh_mergeDelta {m : MonotonicSharedMap} (h : m.Fresh) (delta : SharedMapDelta) :
    (m.mergeDelta delta).1.Fresh :=
  List.foldlRecOn (motive := fun acc : MonotonicSharedMap × List Str => acc.1.Fresh) _ _ h
    fun _ hacc e _ => fresh_mergeRemote hacc e

/-- With a counter above the stored versions a local update is kept. -/
theorem keeps_of_fresh {m : MonotonicSharedMap} (h : m.Fresh) : m.Keeps := by
  intro gx gz state nowMs nodeId confidence01 proofSource c hc hrank
  let new := localCell (some c) state m.seq nowMs nodeId confidence01 proofSource
  have hsame : rankOf new = rankOf c := hrank.symm
  have hmerged := mergeMapCellMeta_of_newer nodeId hsame (h _ c hc)
  refine ⟨_, ?_, hmerged⟩
  have hget : getCell { m with seq := m.seq + 1 } (cellKey gx gz) = some c := hc
  simp only [applyLocalUpdate, nextVersion, getCell_setCell, if_true, hget]
  rfl

end MonotonicSharedMap

open MonotonicSharedMap

theorem fresh_apply (T : Texts MapLedgerEntry) {s s' : SyncedMap} {op : MapOp} (hs : s.map.Fresh)
    (h : op.apply T s = some s') : s'.map.Fresh := by
  cases op with
  | applyLocalUpdate gx gz state nowMs nodeId confidence01 proofSource =>
      cases h
      exact fresh_applyLocalUpdate hs gx gz state nowMs nodeId confidence01 proofSource
  | mergeDelta delta =>
      cases h
      exact fresh_mergeDelta hs delta
  | recomputeFrontiers nowMs originNodeId =>
      cases h
      refine recomputeFrontiers_induction (fun m gx gz hm => ?_) hs
      exact fresh_applyLocalUpdate hm gx gz _ _ _ _ _
  | step args =>
      cases h
      exact step_induction (P := Fresh) (fun _ delta hm => fresh_mergeDelta hm delta) T s.engine
        args hs

/-- The cells that the constructor installs are those it is given. -/
theorem getCell_new (initial : OrderedMap Str MapCellMeta) (key : Str) :
    (MonotonicSharedMap.new initial).getCell key = initial.get? key := by
  have hnodup : ((cellEntries initial).map Prod.fst).Nodup := nodup_ownOrder initial.nodup
  change OrderedMap.getList key (OrderedMap.ofList (cellEntries initial)).entries = _
  rw [OrderedMap.entries_ofList hnodup]
  exact getList_ownOrder key initial.nodup

/-- A cell that has been searched five times. -/
def searchedCell : MapCellMeta where
  state := .searched
  version := 5
  updatedAtMs := 10
  lastNodeId := some "n1"
  confidence01 := none
  firstSeenBy := some "n1"
  proofSource := some .local_sensor
  dirtyLocal := some true
  mergeLineage := none

/-- The map of merged cells on a grid with the searched cell alone. -/
def materialized : MonotonicSharedMap :=
  materializeMergedMap (.ofList [(cellKey 0 0, searchedCell)])

end FoxMq

namespace FoxMq

open Js MonotonicSharedMap

/-! ### The grid -/

/-- The key of a place of the grid. -/
def gridKey (gx gz : ℤ) : Str := cellKey (.ofInt gx) (.ofInt gz)

/-- The four keys around a place of the grid. -/
def gridNeighbors (gx gz : ℤ) : List Str :=
  [gridKey (gx + 1) gz, gridKey (gx - 1) gz, gridKey gx (gz + 1), gridKey gx (gz - 1)]

/-- **The keys that the code visits around a place of the grid.** -/
theorem neighborKeys_grid (gx gz : ℤ) : neighborKeys (gridKey gx gz) = gridNeighbors gx gz := by
  have hadd : ∀ n : ℤ, (Decimal.ofInt n).add 1 = .ofInt (n + 1) := fun n => Decimal.ofInt_add n 1
  rw [gridKey, neighborKeys_cellKey, neighbors, gridNeighbors]
  simp only [hadd, Decimal.ofInt_add, gridKey, sub_eq_add_neg]

/-! ### Known cells -/

/-- A cell that is not unknown is stored. -/
theorem exists_getCell_of_stateOf {m : MonotonicSharedMap} {k : Str} (h : m.stateOf k ≠ .unknown) :
    ∃ c, m.getCell k = some c ∧ c.state = m.stateOf k := by
  cases hcell : m.getCell k with
  | none =>
      rw [stateOf, hcell] at h
      exact absurd rfl h
  | some c =>
      refine ⟨c, rfl, ?_⟩
      rw [stateOf, hcell]
      rfl

theorem stateOf_of_getCell {m : MonotonicSharedMap} {k : Str} {c : MapCellMeta}
    (h : m.getCell k = some c) : m.stateOf k = c.state := by
  rw [stateOf, h]
  rfl

/-- The frontier adds frontier cells only. -/
theorem state_of_added {m : MonotonicSharedMap} {nowMs : ℚ} {origin : Str} {k : Str}
    {c : MapCellMeta} (hnone : m.getCell k = none)
    (hc : (m.recomputeFrontiers nowMs origin).getCell k = some c) : c.state = .frontier := by
  have hadded : ∀ c, (m.recomputeFrontiers nowMs origin).getCell k = some c →
      c.state = .frontier := by
    refine recomputeFrontiers_induction (P := fun m' => ∀ c, m'.getCell k = some c →
      c.state = .frontier) (fun m' gx gz hm' c hc => ?_) fun c hc => ?_
    · have hstate := stateOf_applyLocalUpdate m' gx gz .frontier nowMs origin none .local_sensor k
      rw [stateOf_of_getCell hc] at hstate
      cases hcell : m'.getCell k with
      | none =>
          rw [stateOf, hcell] at hstate
          rw [applyLocalUpdate] at hc
          simp only [nextVersion, getCell_setCell] at hc
          split at hc
          · next hkey =>
              rw [if_pos hkey] at hstate
              exact hstate
          · exact absurd (hcell.symm.trans hc) (by simp)
      | some c' =>
          rw [stateOf_of_getCell hcell, hm' c' hcell] at hstate
          split at hstate <;> exact hstate
    · exact absurd (hnone.symm.trans hc) (by simp)
  exact hadded c hc

/-! ### A closed region -/

/-- A known cell is not marked. -/
theorem markFrontier_of_known {m : MonotonicSharedMap} {nowMs : ℚ} {origin nk : Str}
    (h : m.stateOf nk ≠ .unknown) : markFrontier nowMs origin m nk = m := by
  rw [markFrontier]
  exact if_neg h

/-- **Where all neighbours of explored cells are known nothing happens.** -/
theorem recomputeFrontiers_of_closed {m : MonotonicSharedMap}
    (h : ∀ k₀ k, Borders m k₀ k → m.stateOf k ≠ .unknown) (nowMs : ℚ) (origin : Str) :
    m.recomputeFrontiers nowMs origin = m := by
  have hneighbors : ∀ k₀, markNeighbors nowMs origin m k₀ = m := by
    intro k₀
    rw [markNeighbors]
    split
    · rfl
    · next cur hcell =>
        split
        · next hexplored =>
            split
            · rfl
            · next gx gz hparse =>
                refine List.foldlRecOn (motive := fun m' => m' = m) _ _ rfl fun m' hm' nk hnk => ?_
                rw [hm']
                refine markFrontier_of_known (h k₀ nk ⟨?_, ?_⟩)
                · rw [stateOf_of_getCell hcell]
                  exact hexplored
                · rw [neighborKeys, hparse]
                  exact hnk
        · rfl
  exact List.foldlRecOn (motive := fun m' => m' = m) _ _ rfl fun m' hm' k _ =>
    hm' ▸ hneighbors k

end FoxMq
