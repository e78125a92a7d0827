/-
**What the map knows only grows** (`swarm/sharedMap.ts`, `foxmq/mapSyncEngine.ts`).

Rank, version and time of a cell are compared lexicographically: this is its level.  A join has
the higher of the two levels, every write to the map is a join with the stored cell, and the steps
of the synchronisation engine write by merging deltas.

Main definitions:

* `FoxMq.MonotonicSharedMap.KnowsAtMost` — every cell of one map is in the other, at the same level
  or a higher one;
* `FoxMq.MapOp`, `FoxMq.SyncedMap` — the operations, and the map with its engine.

Main results:

* `FoxMq.MonotonicSharedMap.recomputeFrontiers_induction`,
  `FoxMq.MonotonicSharedMap.step_induction` — what local updates and merged deltas keep is kept by
  the operations made of them;
* `FoxMq.level_mergePartitionMapDeltas` — a merged cell has the highest of the levels of the cells
  for its key;
* `FoxMq.knowsAtMost_step` — a step of the engine keeps what the map knows;
* `FoxMq.knowledge_is_monotone` — **a merge of deltas takes the highest level for each key, and
  along every run no key disappears and no level decreases**.
-/
import Endendend.Foundation.Runs
import Endendend.FoxMq.MapSyncEngine

set_option relaxedAutoImplicit false
set_option autoImplicit false

namespace FoxMq

open Js

/-! ### Levels -/

/-- Rank, version and time of a cell, compared in this order. -/
def MapCellMeta.level (m : MapCellMeta) : ℕ ×ₗ ℚ ×ₗ ℚ := m.core.level

/-- A join is at least as high as the cell that was held. -/
theorem level_le_mergeMapCellMeta (mine remote : MapCellMeta) (origin : Str) :
    mine.level ≤ (mergeMapCellMeta (some mine) remote origin).level := by
  rw [MapCellMeta.level, MapCellMeta.level, core_mergeMapCellMeta, level_joinCore]
  exact le_max_left _ _

/-- **A merged cell has the highest of the levels of the cells for its key.** -/
theorem level_mergePartitionMapDeltas (deltas : List SharedMapDelta) (key : Str) :
    ((mergePartitionMapDeltas deltas).get? key = none ↔ cellsAt key deltas = []) ∧
      ∀ m, (mergePartitionMapDeltas deltas).get? key = some m →
        IsGreatest {level | ∃ c ∈ cellsAt key deltas, c.level = level} m.level := by
  have hcore := core_mergePartitionMapDeltas deltas key
  cases hcells : cellsAt key deltas with
  | nil =>
      rw [hcells] at hcore
      have hnone := Option.map_eq_none_iff.1 hcore
      exact ⟨iff_of_true hnone rfl, fun m hm => absurd (hnone.symm.trans hm) (by simp)⟩
  | cons c cs =>
      rw [hcells] at hcore
      obtain ⟨m, hm, hjoin⟩ := Option.map_eq_some_iff.1 hcore
      refine ⟨iff_of_false (by simp [hm]) (by simp), fun m' hm' => ?_⟩
      obtain rfl := Option.some.inj (hm.symm.trans hm')
      have hlevel : m.level = ((cs.map MapCellMeta.core).foldl joinCore c.core).level :=
        congrArg CellCore.level hjoin
      rw [hlevel]
      constructor
      · -- the level of a join is that of one of its sides
        refine foldl_joinCore_induction
          (P := fun a => ∃ d ∈ c :: cs, d.level = a.level) ⟨c, List.mem_cons_self, rfl⟩ ?_
        rintro a b hb ⟨d, hd, ha⟩
        rw [level_joinCore]
        obtain ⟨e, he, rfl⟩ := List.mem_map.1 hb
        rcases max_choice a.level e.core.level with h | h
        · exact ⟨d, hd, ha.trans h.symm⟩
        · exact ⟨e, List.mem_cons_of_mem c he, h.symm⟩
      · rintro level ⟨d, hd, rfl⟩
        rcases List.mem_cons.1 hd with rfl | hd
        · exact level_le_foldl _ _
        · exact level_le_foldl_of_mem _ (List.mem_map_of_mem hd)

/-! ### What the operations are made of -/

theorem map_bufferDelta (T : Texts MapLedgerEntry) (args : SyncArgs) (e : GraphEdge)
    (rawDelta : SharedMapDelta) (l : SyncLoop) : (bufferDelta T args e rawDelta l).map = l.map := by
  simp only [bufferDelta]

theorem map_mergePeer (T : Texts MapLedgerEntry) (args : SyncArgs) (e : GraphEdge)
    (rawDelta : SharedMapDelta) (l : SyncLoop) :
    (mergePeer T args e rawDelta l).map =
      (l.map.mergeDelta ⟨peerCells rawDelta.cells, e.b, args.nowMs⟩).1 := rfl

namespace MonotonicSharedMap

/-- What a local update keeps is kept by the frontier. -/
theorem recomputeFrontiers_induction {P : MonotonicSharedMap → Prop} {nowMs : ℚ} {origin : Str}
    (hlocal : ∀ m gx gz, P m →
      P (m.applyLocalUpdate gx gz .frontier nowMs origin none .local_sensor).1)
    {m : MonotonicSharedMap} (h : P m) : P (m.recomputeFrontiers nowMs origin) := by
  have hmark : ∀ m nk, P m → P (markFrontier nowMs origin m nk) := by
    intro m nk hm
    unfold markFrontier
    split
    · split
      · exact hm
      · exact hlocal m _ _ hm
    · exact hm
  have hneighbors : ∀ m k, P m → P (markNeighbors nowMs origin m k) := by
    intro m k hm
    unfold markNeighbors
    split
    · exact hm
    · split
      · split
        · exact hm
        · exact List.foldlRecOn _ _ hm fun m hm nk _ => hmark m nk hm
      · exact hm
  exact List.foldlRecOn _ _ h fun m hm k _ => hneighbors m k hm

/-- What the merge of a delta keeps is kept by a step of the engine. -/
theorem step_induction {P : MonotonicSharedMap → Prop}
    (hdelta : ∀ m delta, P m → P (m.mergeDelta delta).1) (T : Texts MapLedgerEntry)
    (s : FoxMqMapSyncEngine) (args : SyncArgs) {m : MonotonicSharedMap} (h : P m) :
    P (s.step T m args).2.1 := by
  have hsend : ∀ e rawDelta (l : SyncLoop), P l.map → P (sendDelta T args e rawDelta l).map := by
    intro e rawDelta l hl
    have hdrawn : P (if args.partition then { l with drawn := l.drawn + 1 } else l).map := by
      split <;> exact hl
    unfold sendDelta
    simp only
    generalize (if args.partition then { l with drawn := l.drawn + 1 } else l) = l' at hdrawn ⊢
    split
    · rw [map_bufferDelta]
      exact hdrawn
    · split
      · exact hdrawn
      · exact hdelta l'.map _ hdrawn
  have hedge : ∀ (l : SyncLoop) e, P l.map → P (syncEdge T args l e).map := by
    intro l e hl
    unfold syncEdge
    simp only
    split
    · exact hl
    · split
      · exact hl
      · split
        · exact hl
        · exact hsend e _ _ hl
  have hloop : P (args.edges.foldl (syncEdge T args) ⟨s, m, 0, none, 0⟩).map :=
    List.foldlRecOn (motive := fun l => P l.map) _ _ h fun l hl e _ => hedge l e hl
  change P (recoveryMerge T args _).map
  unfold recoveryMerge
  split
  · exact hdelta _ _ hloop
  · exact hloop

end MonotonicSharedMap

/-! ### One write -/

namespace MonotonicSharedMap

/-- Every cell of `m` is in `m'`, at the same level or a higher one. -/
def KnowsAtMost (m m' : MonotonicSharedMap) : Prop :=
  ∀ key c, m.getCell key = some c → ∃ c', m'.getCell key = some c' ∧ c.level ≤ c'.level

theorem KnowsAtMost.refl (m : MonotonicSharedMap) : m.KnowsAtMost m :=
  fun _ c hc => ⟨c, hc, le_rfl⟩

theorem KnowsAtMost.trans {m₁ m₂ m₃ : MonotonicSharedMap} (h : m₁.KnowsAtMost m₂)
    (h' : m₂.KnowsAtMost m₃) : m₁.KnowsAtMost m₃ := by
  intro key c hc
  obtain ⟨c₂, hc₂, hle⟩ := h key c hc
  obtain ⟨c₃, hc₃, hle'⟩ := h' key c₂ hc₂
  exact ⟨c₃, hc₃, hle.trans hle'⟩

/-- A cell is stored that is as high as the one it replaces. -/
theorem knowsAtMost_setCell {m : MonotonicSharedMap} {key : Str} {cell : MapCellMeta} (seq : ℚ)
    (h : ∀ c, m.getCell key = some c → c.level ≤ cell.level) :
    m.KnowsAtMost { m.setCell key cell with seq } := by
  intro key' c hc
  have hget : MonotonicSharedMap.getCell { m.setCell key cell with seq } key' = _ :=
    getCell_setCell m key key' cell
  rw [hget]
  split
  · next hkey => exact ⟨cell, rfl, h c (hkey ▸ hc)⟩
  · exact ⟨c, hc, le_rfl⟩

/-- Along a fold whose steps keep what a map knows, the map keeps it. -/
theorem knowsAtMost_foldl {α β : Type*} {f : β → α → β} (map : β → MonotonicSharedMap)
    (h : ∀ b a, (map b).KnowsAtMost (map (f b a))) (l : List α) (b : β) :
    (map b).KnowsAtMost (map (l.foldl f b)) := by
  induction l generalizing b with
  | nil => exact .refl _
  | cons a l ih => exact (h b a).trans (ih (f b a))

theorem knowsAtMost_applyLocalUpdate (m : MonotonicSharedMap) (gx gz : Decimal)
    (state : MapCellState) (nowMs : ℚ) (nodeId : Str) (confidence01 : Option ℚ)
    (proofSource : MapProofSource) :
    m.KnowsAtMost (m.applyLocalUpdate gx gz state nowMs nodeId confidence01 proofSource).1 := by
  refine knowsAtMost_setCell _ fun c hc => ?_
  -- the counter that the update draws is no part of the cells
  have hget : getCell { m with seq := m.seq + 1 } (cellKey gx gz) = some c := hc
  rw [hget]
  exact level_le_mergeMapCellMeta c _ _

theorem knowsAtMost_mergeRemote (originNodeId : Str) (acc : MonotonicSharedMap × List Str)
    (e : Str × MapCellMeta) : acc.1.KnowsAtMost (mergeRemote originNodeId acc e).1 := by
  unfold mergeRemote
  simp only
  split
  · -- a join that agrees with the stored cell is not stored
    exact .refl _
  · refine knowsAtMost_setCell _ fun c hc => ?_
    rw [hc]
    exact level_le_mergeMapCellMeta c _ _

theorem knowsAtMost_mergeDelta (m : MonotonicSharedMap) (delta : SharedMapDelta) :
    m.KnowsAtMost (m.mergeDelta delta).1 :=
  knowsAtMost_foldl Prod.fst (knowsAtMost_mergeRemote delta.originNodeId) (cellEntries delta.cells)
    (m, [])

theorem knowsAtMost_recomputeFrontiers (m : MonotonicSharedMap) (nowMs : ℚ) (originNodeId : Str) :
    m.KnowsAtMost (m.recomputeFrontiers nowMs originNodeId) :=
  recomputeFrontiers_induction (P := fun m' => m.KnowsAtMost m')
    (fun m' gx gz h => h.trans (knowsAtMost_applyLocalUpdate m' gx gz _ _ _ _ _)) (.refl m)

end MonotonicSharedMap

/-! ### A step of the engine -/

open MonotonicSharedMap

theorem knowsAtMost_step (T : Texts MapLedgerEntry) (s : FoxMqMapSyncEngine)
    (map : MonotonicSharedMap) (args : SyncArgs) : map.KnowsAtMost (s.step T map args).2.1 :=
  step_induction (P := fun m => map.KnowsAtMost m)
    (fun m delta h => h.trans (knowsAtMost_mergeDelta m delta)) T s args (.refl map)

/-! ### Runs -/

/-- A map, and the engine that synchronises it. -/
structure SyncedMap where
  map : MonotonicSharedMap
  engine : FoxMqMapSyncEngine

inductive MapOp
  | applyLocalUpdate (gx gz : Decimal) (state : MapCellState) (nowMs : ℚ) (nodeId : Str)
      (confidence01 : Option ℚ) (proofSource : MapProofSource)
  | mergeDelta (delta : SharedMapDelta)
  | recomputeFrontiers (nowMs : ℚ) (originNodeId : Str)
  | step (args : SyncArgs)

/-- One operation; all of them are always possible. -/
def MapOp.apply (T : Texts MapLedgerEntry) (s : SyncedMap) : MapOp → Option SyncedMap
  | .applyLocalUpdate gx gz state nowMs nodeId confidence01 proofSource =>
    some { s with
      map := (s.map.applyLocalUpdate gx gz state nowMs nodeId confidence01 proofSource).1 }
  | .mergeDelta delta => some { s with map := (s.map.mergeDelta delta).1 }
  | .recomputeFrontiers nowMs originNodeId =>
    some { s with map := s.map.recomputeFrontiers nowMs originNodeId }
  | .step args =>
    let (engine, map, _) := s.engine.step T s.map args
    some ⟨map, engine⟩

theorem knowsAtMost_apply (T : Texts MapLedgerEntry) {s s' : SyncedMap} {op : MapOp}
    (h : op.apply T s = some s') : s.map.KnowsAtMost s'.map := by
  cases op with
  | applyLocalUpdate gx gz state nowMs nodeId confidence01 proofSource =>
      cases h
      exact knowsAtMost_applyLocalUpdate s.map gx gz state nowMs nodeId confidence01 proofSource
  | mergeDelta delta =>
      cases h
      exact knowsAtMost_mergeDelta s.map delta
  | recomputeFrontiers nowMs originNodeId =>
      cases h
      exact knowsAtMost_recomputeFrontiers s.map nowMs originNodeId
  | step args =>
      cases h
      exact knowsAtMost_step T s.engine s.map args

/-- **What the map knows only grows**: a merge of deltas takes for each key the highest level of the
cells for it, and along every run no key disappears and no level decreases. -/
theorem knowledge_is_monotone (T : Texts MapLedgerEntry) :
    (∀ deltas key,
      ((mergePartitionMapDeltas deltas).get? key = none ↔ cellsAt key deltas = []) ∧
        ∀ m, (mergePartitionMapDeltas deltas).get? key = some m →
          IsGreatest {level | ∃ c ∈ cellsAt key deltas, c.level = level} m.level) ∧
    ∀ (s s' : SyncedMap) (ops : List MapOp),
      Runs.run (fun s op => MapOp.apply T s op) s ops = some s' →
        ∀ key c, s.map.getCell key = some c →
          ∃ c', s'.map.getCell key = some c' ∧ c.level ≤ c'.level := by
  refine ⟨level_mergePartitionMapDeltas, fun s s' ops hrun => ?_⟩
  -- the invariant compares with the map at the start of the run
  have hkeeps : ∀ s₁ op s₂, s.map.KnowsAtMost s₁.map → MapOp.apply T s₁ op = some s₂ →
      s.map.KnowsAtMost s₂.map := fun _ _ _ h hop => h.trans (knowsAtMost_apply T hop)
  exact Runs.invariant_of_run (I := fun s₁ => s.map.KnowsAtMost s₁.map) hkeeps (.refl s.map) hrun

/-! ### A searched cell -/

/-- A map with one searched cell, and an engine that has not made a step. -/
def searchedMap : SyncedMap :=
  ⟨((MonotonicSharedMap.new ∅).applyLocalUpdate 0 0 .searched 1 "n1" none .local_sensor).1,
    .new "m" "map" 0⟩

/-- The searched cell is still there after its neighbours have been marked and a step. -/
theorem knowledge_is_monotone_searched :
    ∃ c s' c', searchedMap.map.getCell "0,0" = some c ∧
      Runs.run (fun s op => MapOp.apply ⟨fun _ => [], fun _ => [], fun _ => []⟩ s op) searchedMap
        [.recomputeFrontiers 2 "n1", .step ⟨[⟨"n1", "n2", 1⟩], 3, fun _ => 0, fun _ => 3, .normal,
          false, true, false, "op", []⟩] = some s' ∧
      s'.map.getCell "0,0" = some c' ∧ c.level ≤ c'.level := by
  have hsome : (searchedMap.map.getCell "0,0").isSome = true := by decide +kernel
  obtain ⟨c, hc⟩ := Option.isSome_iff_exists.1 hsome
  obtain ⟨c', hc', hle⟩ := (knowledge_is_monotone ⟨fun _ => [], fun _ => [], fun _ => []⟩).2
    searchedMap _ [.recomputeFrontiers 2 "n1", .step ⟨[⟨"n1", "n2", 1⟩], 3, fun _ => 0, fun _ => 3,
      .normal, false, true, false, "op", []⟩] rfl "0,0" c hc
  exact ⟨c, _, c', hc, rfl, hc', hle⟩

end FoxMq
