/-
**What a step of the synchronisation leaves alone** (`foxmq/mapSyncEngine.ts`).

The deltas that the engine exchanges and buffers are samples of one map.  The cells of the map only
move on: each local update makes a version that is above all others, so that a sample which was
taken before stands below the cell in every later join.

Main definitions:

* `FoxMq.Precedes` — a core is an earlier one of the same cell, or that core itself;
* `FoxMq.Absorbs` — a join with a core changes neither state nor version nor confidence;
* `FoxMq.SamplesPrecede` — the buffered samples stand in the order in which they were taken, below
  the map;
* `FoxMq.edgeLoop` — the loop of a step over the edges.

Main results:

* `FoxMq.MonotonicSharedMap.mergeDelta_of_absorbs` — a delta that is absorbed changes nothing;
* `FoxMq.precedes_mergePartitionMapDeltas` — samples in their order merge to one of them;
* `FoxMq.sync_invents_nothing` — **a step changes no cell of a map that has been updated locally,
  and the first step outside a partition merges the whole buffer and clears it**.
-/
import Endendend.FoxMq.FreshVersions

set_option relaxedAutoImplicit false
set_option autoImplicit false

namespace FoxMq

open Js CellCore

/-! ### The history of a cell -/

/-- `a` is `b` or an earlier core of the same cell: one of a lower rank, or of a lower version and
no more confidence. -/
inductive Precedes (a b : CellCore) : Prop
  | same (h : a = b)
  | lowerRank (h : a.rank < b.rank)
  | lowerVersion (hr : a.rank = b.rank) (hv : a.version < b.version)
      (hc : b.confidence01 = some b.conf) (hle : a.conf ≤ b.conf)

theorem Precedes.refl (a : CellCore) : Precedes a a := .same rfl

theorem Precedes.trans {a b c : CellCore} (hab : Precedes a b) (hbc : Precedes b c) :
    Precedes a c := by
  cases hab with
  | same h => exact h ▸ hbc
  | lowerRank h =>
      cases hbc with
      | same h' => exact .lowerRank (h' ▸ h)
      | lowerRank h' => exact .lowerRank (h.trans h')
      | lowerVersion hr' => exact .lowerRank (hr' ▸ h)
  | lowerVersion hr hv hc hle =>
      cases hbc with
      | same h' => exact h' ▸ .lowerVersion hr hv hc hle
      | lowerRank h' => exact .lowerRank (hr ▸ h')
      | lowerVersion hr' hv' hc' hle' =>
          exact .lowerVersion (hr.trans hr') (hv.trans hv') hc' (hle.trans hle')

/-- A cell that is joined with a core of a higher version moves on. -/
theorem precedes_joinCore {a b : CellCore} (h : a.version < b.version) :
    Precedes a (joinCore a b) := by
  have hj := joined a b
  generalize joinCore a b = c at hj ⊢
  cases hj with
  | rankUp hr => exact .lowerRank hr
  | keep => exact .refl a
  | verUp hr hv => exact .lowerVersion hr hv rfl (le_max_left _ _)
  | timeUp hr hv => exact absurd hv h.ne
  | confUp hl | trustUp hl | tie hl => exact absurd (level_eq_iff.1 hl).2.1 h.ne'

/-- An earlier core that arrives is refused. -/
theorem joinCore_of_precedes {a b : CellCore} (h : Precedes b a) : joinCore a b = a := by
  have hj := joined a b
  generalize joinCore a b = c at hj ⊢
  cases h with
  | same h =>
      subst h
      cases hj with
      | keep | tie => rfl
      | rankUp hr => exact absurd hr (lt_irrefl _)
      | verUp hr hv => exact absurd hv (lt_irrefl _)
      | timeUp hr hv ht => exact absurd ht (lt_irrefl _)
      | confUp hl hc => exact absurd hc (lt_irrefl _)
      | trustUp hl hc ht => exact absurd ht (lt_irrefl _)
  | lowerRank h =>
      cases hj with
      | keep => rfl
      | rankUp hr => exact absurd hr h.not_gt
      | verUp hr | timeUp hr => exact absurd hr h.ne'
      | confUp hl | trustUp hl | tie hl => exact absurd (level_eq_iff.1 hl).1 h.ne
  | lowerVersion hr hv =>
      cases hj with
      | keep => rfl
      | rankUp hr' => exact absurd hr' hr.le.not_gt
      | verUp hr' hv' => exact absurd hv' hv.not_gt
      | timeUp hr' hv' => exact absurd hv' hv.ne'
      | confUp hl | trustUp hl | tie hl => exact absurd (level_eq_iff.1 hl).2.1 hv.ne

/-- A later core that arrives is taken over as it is. -/
theorem joinCore_of_precedes_right {a b : CellCore} (h : Precedes a b) : joinCore a b = b := by
  cases h with
  | same h => exact h ▸ joinCore_of_precedes (.refl a)
  | lowerRank h => exact if_pos h
  | lowerVersion hr hv hc hle =>
      rw [joinCore, if_neg hr.ge.not_gt, if_neg hr.le.not_gt, if_pos hv, max_eq_right hle, ← hc]

/-- Samples in the order in which they were taken join to one of them. -/
theorem foldl_joinCore_mem {a : CellCore} {cs : List CellCore} (h : (a :: cs).Pairwise Precedes) :
    cs.foldl joinCore a ∈ a :: cs := by
  induction cs generalizing a with
  | nil => exact List.mem_singleton_self a
  | cons c cs ih =>
      obtain ⟨hhead, htail⟩ := List.pairwise_cons.1 h
      rw [List.foldl_cons, joinCore_of_precedes_right (hhead c List.mem_cons_self)]
      exact List.mem_cons_of_mem a (ih htail)

/-- **Samples in their order merge to one of them.** -/
theorem precedes_mergePartitionMapDeltas {deltas : List SharedMapDelta} {key : Str}
    {b : MapCellMeta} (h : ((cellsAt key deltas).map MapCellMeta.core).Pairwise Precedes)
    (hb : (mergePartitionMapDeltas deltas).get? key = some b) :
    ∃ c ∈ cellsAt key deltas, c.core = b.core := by
  have hcore := core_mergePartitionMapDeltas deltas key
  rw [hb, Option.map_some] at hcore
  cases hcells : (cellsAt key deltas).map MapCellMeta.core with
  | nil =>
      rw [hcells] at hcore
      exact absurd hcore (by simp [joinAll])
  | cons a cs =>
      rw [hcells] at hcore h
      have hmem := foldl_joinCore_mem h
      rw [← Option.some.inj hcore, ← hcells] at hmem
      exact List.mem_map.1 hmem

/-! ### Deltas that change nothing -/

/-- A join with `b` changes neither the state nor the version nor the confidence of `a`. -/
structure Absorbs (a b : CellCore) : Prop where
  state : (joinCore a b).state = a.state
  version : (joinCore a b).version = a.version
  confidence01 : (joinCore a b).confidence01 = a.confidence01

theorem absorbs_of_precedes {a b : CellCore} (h : Precedes b a) : Absorbs a b := by
  have hjoin := joinCore_of_precedes h
  exact ⟨congrArg _ hjoin, congrArg _ hjoin, congrArg _ hjoin⟩

/-- A cell absorbs what differs from it in its proof alone. -/
theorem absorbs_of_proof (a : CellCore) (p : Option MapProofSource) :
    Absorbs a { a with proofSource := p } := by
  have hle : CellCore.level { a with proofSource := p } ≤ a.level := le_refl a.level
  rcases joinCore_of_level_le hle with ⟨he, -⟩ | ⟨-, hc, -⟩ | ⟨-, -, -, he⟩
  · exact ⟨congrArg _ he, congrArg _ he, congrArg _ he⟩
  · exact absurd hc (lt_irrefl a.conf)
  · exact ⟨by rw [he], by rw [he], by rw [he]⟩

namespace MonotonicSharedMap

variable {m : MonotonicSharedMap}

/-- The join of a stored cell with one that it absorbs is not stored. -/
theorem mergeRemote_of_absorbs {origin : Str} {changed : List Str} {e : Str × MapCellMeta}
    {c : MapCellMeta} (hc : m.getCell e.1 = some c) (h : Absorbs c.core e.2.core) :
    mergeRemote origin (m, changed) e = (m, changed) := by
  have hcore := core_mergeMapCellMeta c e.2 origin
  have hagrees : agrees (some c)
      { mergeMapCellMeta (some c) e.2 origin with dirtyLocal := some false } = true :=
    decide_eq_true ⟨(congrArg CellCore.state hcore).trans h.state,
      (congrArg CellCore.version hcore).trans h.version,
      (congrArg CellCore.confidence01 hcore).trans h.confidence01⟩
  simp only [mergeRemote, hc, if_pos hagrees]

/-- **A delta that is absorbed changes nothing.** -/
theorem mergeDelta_of_absorbs {delta : SharedMapDelta}
    (h : ∀ key b, delta.cells.get? key = some b →
      ∃ c, m.getCell key = some c ∧ Absorbs c.core b.core) : m.mergeDelta delta = (m, []) := by
  have hall : ∀ e ∈ cellEntries delta.cells, ∃ c, m.getCell e.1 = some c ∧
      Absorbs c.core e.2.core := by
    intro e he
    refine h e.1 e.2 (OrderedMap.mem_entries_iff.1 ?_)
    exact (ownOrder_perm delta.cells.entries).mem_iff.1 he
  unfold mergeDelta
  generalize cellEntries delta.cells = es at hall ⊢
  induction es with
  | nil => rfl
  | cons e es ih =>
      obtain ⟨c, hc, habsorbs⟩ := hall e List.mem_cons_self
      rw [List.foldl_cons, mergeRemote_of_absorbs hc habsorbs]
      exact ih fun e' he' => hall e' (List.mem_cons_of_mem e he')

/-- An exported cell is one of the map. -/
theorem getCell_of_exportDelta {keys : List Str} {origin key : Str} {nowMs : ℚ} {b : MapCellMeta}
    (h : (m.exportDelta keys origin nowMs).cells.get? key = some b) : m.getCell key = some b := by
  have hmem := OrderedMap.mem_of_get?_ofList h
  obtain ⟨k, -, hk⟩ := List.mem_filterMap.1 hmem
  obtain ⟨c, hc, heq⟩ := Option.map_eq_some_iff.1 hk
  obtain ⟨rfl, rfl⟩ := Prod.mk.inj heq
  exact hc

end MonotonicSharedMap

open MonotonicSharedMap

/-- What the peer sends back of a map is absorbed by the map. -/
theorem mergeDelta_peerCells {m : MonotonicSharedMap} {cells : OrderedMap Str MapCellMeta}
    (h : ∀ key b, cells.get? key = some b → m.getCell key = some b) (origin : Str) (nowMs : ℚ) :
    m.mergeDelta ⟨peerCells cells, origin, nowMs⟩ = (m, []) := by
  refine mergeDelta_of_absorbs fun key b hb => ?_
  obtain ⟨⟨k, c⟩, hentry, heq⟩ := List.mem_map.1 (OrderedMap.mem_of_get?_ofList hb)
  obtain ⟨rfl, rfl⟩ := Prod.mk.inj heq
  refine ⟨c, h k c (OrderedMap.mem_entries_iff.1 ?_), absorbs_of_proof c.core _⟩
  exact (ownOrder_perm cells.entries).mem_iff.1 hentry

/-! ### The buffered samples -/

/-- The buffered samples stand in the order in which they were taken, and below the map. -/
structure SamplesPrecede (m : MonotonicSharedMap) (buffer : List SharedMapDelta) : Prop where
  ordered : buffer.Pairwise fun d d' => ∀ key b b', d.cells.get? key = some b →
    d'.cells.get? key = some b' → Precedes b.core b'.core
  below : ∀ d ∈ buffer, ∀ key b, d.cells.get? key = some b →
    ∃ c, m.getCell key = some c ∧ Precedes b.core c.core

theorem SamplesPrecede.nil (m : MonotonicSharedMap) : SamplesPrecede m [] :=
  ⟨List.Pairwise.nil, fun _ hd => absurd hd List.not_mem_nil⟩

/-- One more sample of the map. -/
theorem SamplesPrecede.concat {m : MonotonicSharedMap} {buffer : List SharedMapDelta}
    (h : SamplesPrecede m buffer) {d : SharedMapDelta}
    (hd : ∀ key b, d.cells.get? key = some b → m.getCell key = some b) :
    SamplesPrecede m (buffer ++ [d]) := by
  constructor
  · refine List.pairwise_append.2 ⟨h.ordered, List.pairwise_singleton _ _, ?_⟩
    intro d₁ hd₁ d₂ hd₂ key b b' hb hb'
    obtain rfl := List.mem_singleton.1 hd₂
    obtain ⟨c, hc, hprecedes⟩ := h.below d₁ hd₁ key b hb
    obtain rfl := Option.some.inj (hc.symm.trans (hd key b' hb'))
    exact hprecedes
  · intro d' hd' key b hb
    rcases List.mem_append.1 hd' with hd' | hd'
    · exact h.below d' hd' key b hb
    · obtain rfl := List.mem_singleton.1 hd'
      exact ⟨b, hd key b hb, .refl _⟩

/-- **The buffer as a whole is absorbed by the map.** -/
theorem SamplesPrecede.mergeDelta {m : MonotonicSharedMap} {buffer : List SharedMapDelta}
    (h : SamplesPrecede m buffer) (origin : Str) (nowMs : ℚ) :
    m.mergeDelta ⟨mergePartitionMapDeltas buffer, origin, nowMs⟩ = (m, []) := by
  refine mergeDelta_of_absorbs fun key b hb => ?_
  have hordered : ((cellsAt key buffer).map MapCellMeta.core).Pairwise Precedes := by
    rw [List.pairwise_map]
    exact List.pairwise_filterMap.2
      (h.ordered.imp fun hdd b hb b' hb' => hdd key b b' hb hb')
  obtain ⟨s, hs, hcore⟩ := precedes_mergePartitionMapDeltas hordered hb
  obtain ⟨d, hd, hkey⟩ := List.mem_filterMap.1 hs
  obtain ⟨c, hc, hprecedes⟩ := h.below d hd key s hkey
  exact ⟨c, hc, absorbs_of_precedes (hcore ▸ hprecedes)⟩

/-- A local update leaves the samples below the map. -/
theorem SamplesPrecede.applyLocalUpdate {m : MonotonicSharedMap} {buffer : List SharedMapDelta}
    (h : SamplesPrecede m buffer) (hfresh : m.Fresh) (gx gz : Decimal) (state : MapCellState)
    (nowMs : ℚ) (nodeId : Str) (confidence01 : Option ℚ) (proofSource : MapProofSource) :
    SamplesPrecede (m.applyLocalUpdate gx gz state nowMs nodeId confidence01 proofSource).1
      buffer := by
  refine ⟨h.ordered, fun d hd key b hb => ?_⟩
  obtain ⟨c, hc, hprecedes⟩ := h.below d hd key b hb
  rw [MonotonicSharedMap.applyLocalUpdate]
  simp only [nextVersion, getCell_setCell]
  split
  · next hkey =>
      have hget : getCell { m with seq := m.seq + 1 } (cellKey gx gz) = some c := hkey ▸ hc
      refine ⟨_, rfl, hprecedes.trans ?_⟩
      rw [hget, mergeCellMeta, core_mergeMapCellMeta]
      exact precedes_joinCore (hfresh key c hc)
  · exact ⟨c, hc, hprecedes⟩

/-! ### A step -/

/-- The loop of a step over the edges. -/
def edgeLoop (T : Texts MapLedgerEntry) (s : FoxMqMapSyncEngine) (map : MonotonicSharedMap)
    (args : SyncArgs) : SyncLoop :=
  args.edges.foldl (syncEdge T args) ⟨s, map, 0, none, 0⟩

theorem syncLoop_eq (T : Texts MapLedgerEntry) (s : FoxMqMapSyncEngine) (map : MonotonicSharedMap)
    (args : SyncArgs) : syncLoop T s map args = recoveryMerge T args (edgeLoop T s map args) := rfl

/-- What a step knows of the buffer on its way: the map is the one that it started from. -/
structure LoopKeeps (m : MonotonicSharedMap) (l : SyncLoop) : Prop where
  map : l.map = m
  samples : SamplesPrecede m l.engine.partitionBuffer

section Step

variable {T : Texts MapLedgerEntry} {args : SyncArgs} {m : MonotonicSharedMap}

theorem partitionBuffer_bufferDelta (e : GraphEdge) (rawDelta : SharedMapDelta) (l : SyncLoop) :
    (bufferDelta T args e rawDelta l).engine.partitionBuffer =
      l.engine.partitionBuffer ++ [{ rawDelta with originNodeId := e.a }] := by
  simp only [bufferDelta, FoxMqMapSyncEngine.appendEvent]

theorem partitionBuffer_mergePeer (e : GraphEdge) (rawDelta : SharedMapDelta) (l : SyncLoop) :
    (mergePeer T args e rawDelta l).engine.partitionBuffer = l.engine.partitionBuffer := by
  simp only [mergePeer, FoxMqMapSyncEngine.appendEvent]

theorem loopKeeps_sendDelta {l : SyncLoop} (h : LoopKeeps m l) (e : GraphEdge)
    {rawDelta : SharedMapDelta}
    (hraw : ∀ key b, rawDelta.cells.get? key = some b → m.getCell key = some b) :
    LoopKeeps m (sendDelta T args e rawDelta l) := by
  have hdrawn : LoopKeeps m (if args.partition then { l with drawn := l.drawn + 1 } else l) := by
    split
    · exact ⟨h.map, h.samples⟩
    · exact h
  unfold sendDelta
  simp only
  generalize (if args.partition then { l with drawn := l.drawn + 1 } else l) = l' at hdrawn ⊢
  split
  · refine ⟨(map_bufferDelta T args e rawDelta l').trans hdrawn.map, ?_⟩
    rw [partitionBuffer_bufferDelta]
    exact hdrawn.samples.concat hraw
  · split
    · exact ⟨hdrawn.map, hdrawn.samples⟩
    · refine ⟨?_, ?_⟩
      · rw [map_mergePeer, hdrawn.map, mergeDelta_peerCells hraw]
      · rw [partitionBuffer_mergePeer]
        exact hdrawn.samples

theorem loopKeeps_syncEdge {l : SyncLoop} (h : LoopKeeps m l) (e : GraphEdge) :
    LoopKeeps m (syncEdge T args l e) := by
  unfold syncEdge
  simp only
  split
  · exact h
  · split
    · exact ⟨h.map, h.samples⟩
    · split
      · exact ⟨h.map, h.samples⟩
      · refine loopKeeps_sendDelta ?_ e fun key b hb => ?_
        · exact ⟨h.map, h.samples⟩
        · rw [← h.map]
          exact getCell_of_exportDelta hb

theorem loopKeeps_edgeLoop {s : FoxMqMapSyncEngine} (h : SamplesPrecede m s.partitionBuffer) :
    LoopKeeps m (edgeLoop T s m args) :=
  List.foldlRecOn (motive := LoopKeeps m) _ _ ⟨rfl, h⟩ fun _ hl e _ => loopKeeps_syncEdge hl e

/-- Outside a partition nothing is buffered. -/
theorem partitionBuffer_syncEdge (hpartition : args.partition = false) (l : SyncLoop)
    (e : GraphEdge) :
    (syncEdge T args l e).engine.partitionBuffer = l.engine.partitionBuffer := by
  have hsend : ∀ rawDelta (l' : SyncLoop), (sendDelta T args e rawDelta l').engine.partitionBuffer =
      l'.engine.partitionBuffer := by
    intro rawDelta l'
    unfold sendDelta
    simp only [hpartition, Bool.false_and, Bool.false_eq_true, if_false]
    split
    · rfl
    · rw [partitionBuffer_mergePeer]
  unfold syncEdge
  simp only
  split
  · rfl
  · split
    · rfl
    · split
      · rfl
      · rw [hsend]
        rfl

theorem partitionBuffer_edgeLoop (hpartition : args.partition = false) (s : FoxMqMapSyncEngine) :
    (edgeLoop T s m args).engine.partitionBuffer = s.partitionBuffer :=
  List.foldlRecOn (motive := fun l : SyncLoop => l.engine.partitionBuffer = s.partitionBuffer)
    _ _ rfl fun l hl e _ => (partitionBuffer_syncEdge hpartition l e).trans hl

/-- **A step leaves the map as it is.** -/
theorem loopKeeps_syncLoop {s : FoxMqMapSyncEngine} (h : SamplesPrecede m s.partitionBuffer) :
    LoopKeeps m (syncLoop T s m args) := by
  have hloop : LoopKeeps m (edgeLoop T s m args) := loopKeeps_edgeLoop h
  rw [syncLoop_eq]
  generalize edgeLoop T s m args = l at hloop ⊢
  unfold recoveryMerge
  split
  · refine ⟨?_, .nil m⟩
    change (l.map.mergeDelta _).1 = m
    rw [hloop.map, hloop.samples.mergeDelta]
  · exact hloop

/-- Outside a partition a step clears the buffer. -/
theorem partitionBuffer_syncLoop (hpartition : args.partition = false) (s : FoxMqMapSyncEngine) :
    (syncLoop T s m args).engine.partitionBuffer = [] := by
  rw [syncLoop_eq, recoveryMerge]
  split
  · rfl
  · next hbuffer =>
      by_contra hne
      exact hbuffer ⟨hpartition, hne⟩

/-- Outside a partition a step merges what was buffered before it. -/
theorem map_syncLoop (hpartition : args.partition = false) (s : FoxMqMapSyncEngine) :
    (syncLoop T s m args).map =
      ((edgeLoop T s m args).map.mergeDelta
        ⟨mergePartitionMapDeltas s.partitionBuffer, args.operatorNodeId, args.nowMs⟩).1 := by
  have hbuffer : (edgeLoop T s m args).engine.partitionBuffer = s.partitionBuffer :=
    partitionBuffer_edgeLoop hpartition s
  rw [syncLoop_eq, recoveryMerge]
  split
  · rw [← hbuffer]
  · next hempty =>
      have hnil : s.partitionBuffer = [] := by
        by_contra hne
        exact hempty ⟨hpartition, hbuffer ▸ hne⟩
      rw [hnil]
      rfl

end Step

/-! ### Runs -/

/-- The operation brings no delta from elsewhere. -/
def MapOp.Own : MapOp → Prop
  | .mergeDelta _ => False
  | _ => True

/-- The map counts beyond its versions, and the buffered samples stand below it. -/
structure OwnSamples (s : SyncedMap) : Prop where
  fresh : s.map.Fresh
  samples : SamplesPrecede s.map s.engine.partitionBuffer

theorem ownSamples_apply {T : Texts MapLedgerEntry} {s s' : SyncedMap} {op : MapOp}
    (hs : OwnSamples s) (hop : op.Own) (h : op.apply T s = some s') : OwnSamples s' := by
  have hfresh := fresh_apply T hs.fresh h
  cases op with
  | applyLocalUpdate gx gz state nowMs nodeId confidence01 proofSource =>
      cases h
      exact ⟨hfresh, hs.samples.applyLocalUpdate hs.fresh gx gz state nowMs nodeId _ _⟩
  | mergeDelta delta => exact hop.elim
  | recomputeFrontiers nowMs originNodeId =>
      cases h
      refine ⟨hfresh, ?_⟩
      refine (recomputeFrontiers_induction
        (P := fun m => m.Fresh ∧ SamplesPrecede m s.engine.partitionBuffer)
        (fun m gx gz hm => ?_) ⟨hs.fresh, hs.samples⟩).2
      exact ⟨fresh_applyLocalUpdate hm.1 gx gz _ _ _ _ _,
        hm.2.applyLocalUpdate hm.1 gx gz _ _ _ _ _⟩
  | step args =>
      cases h
      have hloop : LoopKeeps s.map (syncLoop T s.engine s.map args) := loopKeeps_syncLoop hs.samples
      refine ⟨hfresh, ?_⟩
      change SamplesPrecede (syncLoop T s.engine s.map args).map _
      rw [hloop.map]
      exact hloop.samples

/-- **Sync steps do not invent knowledge.**  After every run of local updates, frontiers and steps
on a map that was empty, a step leaves the map exactly as it is; outside a partition it merges all
deltas of the buffer, which the map absorbs, and clears the buffer. -/
theorem sync_invents_nothing (T : Texts MapLedgerEntry) (missionId mapId : Str) (startMs : ℚ)
    {ops : List MapOp} {s : SyncedMap} (hops : ∀ op ∈ ops, op.Own)
    (hrun : Runs.run (fun s op => MapOp.apply T s op) ⟨.new ∅, .new missionId mapId startMs⟩ ops =
      some s) (args : SyncArgs) :
    let after := s.engine.step T s.map args
    after.2.1 = s.map ∧
      (args.partition = false →
        after.1.partitionBuffer = [] ∧
        after.2.1 = ((edgeLoop T s.engine s.map args).map.mergeDelta
          ⟨mergePartitionMapDeltas s.engine.partitionBuffer, args.operatorNodeId, args.nowMs⟩).1 ∧
        ∀ d ∈ s.engine.partitionBuffer, ∀ key b, d.cells.get? key = some b →
          ∃ c, after.2.1.getCell key = some c ∧ Absorbs c.core b.core) := by
  have hstart : OwnSamples ⟨.new ∅, .new missionId mapId startMs⟩ := by
    refine ⟨fun key c hc => ?_, .nil _⟩
    rw [getCell_new] at hc
    exact absurd hc (by simp)
  have hs : OwnSamples s := Runs.invariant_along (P := fun _ op => MapOp.Own op)
    (fun _ _ _ hs hop h => ownSamples_apply hs hop h) hstart (Runs.along_of_forall hops _) hrun
  have hmap : (syncLoop T s.engine s.map args).map = s.map := (loopKeeps_syncLoop hs.samples).map
  refine ⟨hmap, fun hpartition => ⟨partitionBuffer_syncLoop hpartition s.engine,
    map_syncLoop hpartition s.engine, fun d hd key b hb => ?_⟩⟩
  obtain ⟨c, hc, hprecedes⟩ := hs.samples.below d hd key b hb
  refine ⟨c, ?_, absorbs_of_precedes hprecedes⟩
  change (syncLoop T s.engine s.map args).map.getCell key = some c
  rw [hmap, hc]

/-! ### A partition that ends -/

/-- An engine prints nothing of its numbers and cells. -/
def noTexts : Texts MapLedgerEntry := ⟨fun _ => [], fun _ => [], fun _ => []⟩

/-- A step over one edge; the draws are all 0. -/
def oneEdge (partitionManual : Bool) (nowMs : ℚ) : SyncArgs where
  edges := [⟨"n1", "n2", 1⟩]
  nowMs
  rng := fun _ => 0
  dateNow := fun _ => nowMs
  connectivityMode := .normal
  partitionManual
  liveFoxAvailable := true
  mockFallback := false
  operatorNodeId := "op"
  offlineNodeIds := []

/-- A searched cell is buffered with its neighbours during a partition, and merged after it. -/
theorem sync_invents_nothing_after_partition :
    ∃ s, Runs.run (fun s op => MapOp.apply noTexts s op) ⟨.new ∅, .new "m" "map" 0⟩
        [.applyLocalUpdate 0 0 .searched 1 "n1" none .local_sensor, .recomputeFrontiers 2 "n1",
          .step (oneEdge true 3)] = some s ∧
      s.engine.partitionBuffer.length = 1 ∧
      (s.engine.step noTexts s.map (oneEdge false 4)).2.1 = s.map ∧
      (s.engine.step noTexts s.map (oneEdge false 4)).1.partitionBuffer = [] := by
  refine ⟨_, rfl, by decide +kernel, ?_⟩
  have hops : ∀ op ∈ [MapOp.applyLocalUpdate 0 0 .searched 1 "n1" none .local_sensor,
      .recomputeFrontiers 2 "n1", .step (oneEdge true 3)], op.Own := by simp [MapOp.Own]
  have h := sync_invents_nothing noTexts "m" "map" 0 hops rfl (oneEdge false 4)
  exact ⟨h.1, (h.2 rfl).1⟩

end FoxMq
