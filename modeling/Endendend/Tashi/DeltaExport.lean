/-
**What the deltas of the shared map hand out** (`MonotonicSharedMap` of
`shared/tashi-mission-map-machine.ts`).

Every operation that changes the record of a cell puts the cell into the dirty set, and a delta
takes out of the set what it hands out.

Main definitions:

* `Tashi.SharedMap.outbox` — the map as a store whose changed cells wait to be handed out;
* `Tashi.Exporter`, `Tashi.ExportOp`, `Tashi.exportStep` — a map with what its deltas have handed
  out, and its runs;
* `Tashi.Exported`, `Tashi.NothingLost` — what one delta hands out, and that no update is lost.

Main results:

* `Tashi.writes_apply` — **every operation is a number of writes**;
* `Tashi.outbox_delta` — a delta hands out from the front;
* `Tashi.no_update_lost` — **over every run no local update is lost**.
-/
import Endendend.Foundation.Outbox
import Endendend.Foundation.Runs
import Endendend.Tashi.MapKnowledge

set_option relaxedAutoImplicit false
set_option autoImplicit false

namespace Tashi

open Js SharedMap

/-! ### The map as an outbox -/

/-- The map as a store whose changed cells wait to be handed out. -/
def SharedMap.outbox (m : SharedMap) : Outbox Str MapCell := ⟨m.cell, m.dirty⟩

/-- A map that holds one more record and has its cell marked has made a write. -/
theorem outbox_eq_write {m m' : SharedMap} {c : MapCell}
    (hcell : ∀ id, m'.cell id = if id = c.cellId then some c else m.cell id)
    (hdirty : m'.dirty = setAdd m.dirty c.cellId) : m'.outbox = m.outbox.write c.cellId c := by
  have hheld : m'.cell = Function.update m.cell c.cellId (some c) := by
    funext id
    rw [hcell, Function.update_apply]
  simp only [outbox, Outbox.write, hheld, hdirty]

theorem writes_setCell (m : SharedMap) (c : MapCell) :
    m.outbox.Writes ((m.setCell c).markDirty c.cellId).outbox := by
  have hwrite : ((m.setCell c).markDirty c.cellId).outbox = m.outbox.write c.cellId c :=
    outbox_eq_write (fun id => cell_setCell m c id) rfl
  rw [hwrite]
  exact Outbox.Writes.single _ _ _

/-- A mark is a write. -/
theorem outbox_mark (s : CellState) (confidence : ℚ) (metadata : List (Str × Json))
    (m : SharedMap) (x y z : Decimal) (owner : Owner) (now : ℚ) :
    (mark s confidence metadata m x y z owner now).outbox =
      m.outbox.write (cellIdOf x y z) (markedCell s confidence metadata m x y z owner now) := by
  have hid := cellId_markedCell s confidence metadata m x y z owner now
  have hwrite := @outbox_eq_write m (mark s confidence metadata m x y z owner now)
    (markedCell s confidence metadata m x y z owner now)
    (fun id => by rw [cell_mark, hid]) (by rw [dirty_mark, hid])
  rw [hwrite, hid]

theorem writes_upsert (m : SharedMap) (c : MapCell) : m.outbox.Writes (upsert m c).outbox := by
  have hnext : upsert m c = ((m.setCell (absorb (m.cell c.cellId) c)).markDirty
      (absorb (m.cell c.cellId) c).cellId).bump := by
    unfold upsert absorb
    cases m.cell c.cellId <;> rfl
  rw [hnext]
  exact writes_setCell m _

/-- A remote record is written unless it leaves the stored one as it is. -/
theorem writes_mergeCell (m : SharedMap) (stats : MergeStats) (remote : MapCell) :
    m.outbox.Writes (mergeCell (m, stats) remote).1.outbox := by
  cases hc : m.cell remote.cellId with
  | none =>
      rw [mergeCell_of_none hc, ← normalizeCell_cellId remote]
      exact writes_setCell m _
  | some c =>
      by_cases ha : agree (merged c (normalizeCell remote)) c
      · rw [mergeCell_of_agree hc ha]
        exact Relation.ReflTransGen.refl
      · have hid : (resolve c (normalizeCell remote)).cellId = remote.cellId := by
          rw [resolve_cellId, cellId_of_cell hc]
        rw [mergeCell_of_not_agree hc ha, ← hid]
        exact writes_setCell m _

theorem writes_mergeCells (m : SharedMap) (stats : MergeStats) (cs : List MapCell) :
    m.outbox.Writes (cs.foldl mergeCell (m, stats)).1.outbox := by
  induction cs generalizing m stats with
  | nil => exact Relation.ReflTransGen.refl
  | cons c cs ih => exact (writes_mergeCell m stats c).trans (ih _ _)

theorem writes_merge (m : SharedMap) (cs : List MapCell) (sourceVersion : ℚ) :
    m.outbox.Writes (merge m cs sourceVersion).1.outbox := by
  have hversion : (merge m cs sourceVersion).1.outbox = (mergeCells m cs).1.outbox := by
    unfold merge
    simp only
    split <;> split <;> rfl
  rw [hversion]
  exact writes_mergeCells m _ cs

/-- **Every operation is a number of writes.** -/
theorem writes_apply (m : SharedMap) (op : MapOp) : m.outbox.Writes (op.apply m).outbox := by
  cases op with
  | upsert c => exact writes_upsert m c
  | merge remoteCells sourceVersion => exact writes_merge m remoteCells sourceVersion
  | mergeSnapshot s => exact writes_merge m s.values s.version
  | _ => exact outbox_mark _ _ _ m _ _ _ _ _ ▸ Outbox.Writes.single _ _ _

/-- The arguments of a delta. -/
structure DeltaCall where
  maxCells : ℕ
  reason : Str
  sourceNodeId : Str
  deltaId : Str
  now : ℚ

/-- The map after a delta, and the delta. -/
def DeltaCall.make (d : DeltaCall) (m : SharedMap) : SharedMap × MapDelta :=
  delta m d.maxCells d.reason d.sourceNodeId d.deltaId d.now

/-- A delta hands out from the front. -/
theorem outbox_delta {m : SharedMap} (h : m.dirty.Nodup) (d : DeltaCall) :
    (d.make m).1.outbox = m.outbox.flush d.maxCells := by
  have hdrop : (d.make m).1.dirty = m.dirty.drop d.maxCells :=
    Outbox.filter_notMem_take h fun _ => decide_eq_true_iff
  simp only [outbox, Outbox.flush, hdrop]
  rfl

/-! ### Runs -/

/-- A map with the record that was last handed out for each cell. -/
structure Exporter where
  map : SharedMap
  handed : Str → Option MapCell

/-- A new map, of which nothing has been handed out. -/
def Exporter.new (mapId : Str) : Exporter := ⟨.new mapId, fun _ => none⟩

/-- The operations of the map. -/
inductive ExportOp
  | observe (op : MapOp)
  | delta (call : DeltaCall)

/-- What has been handed out after records were handed out. -/
def handOut (handed : Str → Option MapCell) (cells : List MapCell) : Str → Option MapCell :=
  cells.foldl (fun handed c => Function.update handed c.cellId (some c)) handed

/-- One operation. -/
def exportStep (e : Exporter) : ExportOp → Option Exporter
  | .observe op => some { e with map := op.apply e.map }
  | .delta call =>
    some ⟨(call.make e.map).1, handOut e.handed (call.make e.map).2.cells⟩

/-- The invariant of an exporter. -/
def Exporter.Tracks (e : Exporter) : Prop := e.map.outbox.Tracks e.handed

/-- The cells of a delta are the records of the ids that it takes. -/
theorem cells_delta {m : SharedMap} {handed : Str → Option MapCell}
    (h : m.outbox.Tracks handed) (d : DeltaCall) :
    (d.make m).2.cells.map MapCell.cellId = m.dirty.take d.maxCells ∧
      ∀ c ∈ (d.make m).2.cells, m.cell c.cellId = some c := by
  have hstored : ∀ id ∈ m.dirty.take d.maxCells, (m.cell id).isSome :=
    fun id hid => h.stored id (List.mem_of_mem_take hid)
  have hcells : (d.make m).2.cells = (m.dirty.take d.maxCells).filterMap m.cell := rfl
  rw [hcells]
  constructor
  · generalize m.dirty.take d.maxCells = ids at hstored
    induction ids with
    | nil => rfl
    | cons id ids ih =>
        obtain ⟨c, hc⟩ := Option.isSome_iff_exists.1 (hstored id List.mem_cons_self)
        rw [List.filterMap_cons_some hc, List.map_cons, cellId_of_cell hc,
          ih fun id' hid' => hstored id' (List.mem_cons_of_mem _ hid')]
  · intro c hc
    obtain ⟨id, -, hid⟩ := List.mem_filterMap.1 hc
    rw [cellId_of_cell hid, hid]

/-- Records with distinct ids are handed out each for its own id. -/
theorem handOut_of_stored {m : SharedMap} {handed : Str → Option MapCell} {cells : List MapCell}
    (hcells : ∀ c ∈ cells, m.cell c.cellId = some c) (id : Str) :
    handOut handed cells id = if id ∈ cells.map MapCell.cellId then m.cell id else handed id := by
  induction cells generalizing handed with
  | nil => rfl
  | cons c cells ih =>
      have hc := hcells c List.mem_cons_self
      have ih := @ih (Function.update handed c.cellId (some c))
        fun c' hc' => hcells c' (List.mem_cons_of_mem _ hc')
      rw [handOut, List.foldl_cons, ← handOut, ih, Function.update_apply]
      by_cases hid : id = c.cellId
      · simp [hid, hc]
      · simp [hid]

/-- A step keeps the invariant. -/
theorem Exporter.Tracks.step {e e' : Exporter} (h : e.Tracks) (op : ExportOp)
    (hs : exportStep e op = some e') : e'.Tracks := by
  cases op with
  | observe op =>
      obtain rfl := Option.some.inj hs
      exact Outbox.Tracks.writes h (writes_apply e.map op)
  | delta call =>
      obtain rfl := Option.some.inj hs
      obtain ⟨hids, hcells⟩ := cells_delta h call
      have hhanded : handOut e.handed (call.make e.map).2.cells =
          e.map.outbox.handOver call.maxCells e.handed := by
        funext id
        rw [handOut_of_stored hcells, hids]
        by_cases hid : id ∈ e.map.dirty.take call.maxCells
        · rw [if_pos hid, Outbox.handOver_of_mem hid]
          rfl
        · rw [if_neg hid, Outbox.handOver_of_notMem hid]
      simp only [Exporter.Tracks, hhanded, outbox_delta h.nodup]
      exact Outbox.Tracks.flush h call.maxCells

theorem tracks_new (mapId : Str) : (Exporter.new mapId).Tracks := Outbox.tracks_empty

/-- A run keeps the invariant. -/
theorem tracks_of_run {mapId : Str} {ops : List ExportOp} {e : Exporter}
    (h : Runs.run exportStep (.new mapId) ops = some e) : e.Tracks :=
  Runs.invariant_of_run (I := Exporter.Tracks) (fun _ op _ hI hs => hI.step op hs)
    (tracks_new mapId) h

/-- What one delta hands out: at most as many cells as it may, each once and with the record that
is stored, and just these are no longer dirty. -/
structure Exported (m m' : SharedMap) (d : MapDelta) : Prop where
  bounded : d.cells.length ≤ d.maxCells
  distinct : (d.cells.map MapCell.cellId).Nodup
  current : ∀ c ∈ d.cells, m.cell c.cellId = some c ∧ c.cellId ∈ m.dirty
  removed : m'.dirty = m.dirty.filter fun id => id ∉ d.cells.map MapCell.cellId
  cells : m'.cells = m.cells

theorem exported_delta {m : SharedMap} {handed : Str → Option MapCell}
    (h : m.outbox.Tracks handed) (d : DeltaCall) : Exported m (d.make m).1 (d.make m).2 := by
  obtain ⟨hids, hcells⟩ := cells_delta h d
  refine ⟨?_, ?_, fun c hc => ⟨hcells c hc, ?_⟩, ?_, rfl⟩
  · rw [← List.length_map MapCell.cellId, hids]
    exact List.length_take_le _ _
  · rw [hids]
    exact h.nodup_take d.maxCells
  · have hid : c.cellId ∈ m.dirty.take d.maxCells := hids ▸ List.mem_map_of_mem hc
    exact List.mem_of_mem_take hid
  · rw [hids]
    rfl

/-- Deltas one after the other leave nothing dirty. -/
theorem dirty_deltas {m : SharedMap} (h : m.dirty.Nodup) {calls : List DeltaCall}
    (hcalls : ∀ d ∈ calls, 1 ≤ d.maxCells) (hlen : m.dirty.length ≤ calls.length) :
    (calls.foldl (fun m d => (d.make m).1) m).dirty = [] := by
  have hflush : (calls.foldl (fun m d => (d.make m).1) m).outbox =
      (calls.map DeltaCall.maxCells).foldl Outbox.flush m.outbox := by
    clear hlen
    induction calls generalizing m with
    | nil => rfl
    | cons d calls ih =>
        have hnodup : (d.make m).1.dirty.Nodup := h.filter _
        rw [List.foldl_cons, List.map_cons, List.foldl_cons, ← outbox_delta h d]
        exact ih hnodup fun d' hd' => hcalls d' (List.mem_cons_of_mem _ hd')
  have hnil : (calls.foldl (fun m d => (d.make m).1) m).outbox.waiting = [] := by
    rw [hflush]
    refine Outbox.waiting_flushes (fun n hn => ?_) (by rwa [List.length_map])
    obtain ⟨d, hd, rfl⟩ := List.mem_map.1 hn
    exact hcalls d hd
  exact hnil

/-- **No local update is lost**: each cell that differs from what was last handed out for it is
dirty, each delta hands out stored records and takes just these out of the dirty set, and deltas
with room for one cell or more empty it. -/
structure NothingLost (e : Exporter) : Prop where
  dirty : ∀ id c, e.map.cell id = some c → e.handed id ≠ some c → id ∈ e.map.dirty
  exported : ∀ d : DeltaCall, Exported e.map (d.make e.map).1 (d.make e.map).2
  emptied : ∀ calls : List DeltaCall, (∀ d ∈ calls, 1 ≤ d.maxCells) →
    e.map.dirty.length ≤ calls.length → (calls.foldl (fun m d => (d.make m).1) e.map).dirty = []

/-- **No run loses a local update.** -/
theorem no_update_lost {mapId : Str} {ops : List ExportOp} {e : Exporter}
    (h : Runs.run exportStep (.new mapId) ops = some e) : NothingLost e := by
  have htracks := tracks_of_run h
  refine ⟨fun id c hc hne => htracks.covers id ?_, exported_delta htracks,
    fun calls hcalls hlen => dirty_deltas htracks.nodup hcalls hlen⟩
  change e.map.cell id ≠ e.handed id
  rw [hc]
  exact Ne.symm hne

/-- Two cells are marked, and one of them is handed out. -/
def halfExported : List ExportOp :=
  [.observe (.markSeen 0 0 0 .undefined 1 ∅ 10), .observe (.markTarget 1 0 0 .null "victim" 1 20),
    .delta ⟨1, "sync", "local", "delta-1", 30⟩]

/-- The second cell is still dirty. -/
theorem no_update_lost_halfExported :
    ∃ e, Runs.run exportStep (.new "map") halfExported = some e ∧
      e.map.dirty = [cellIdOf 1 0 0] ∧ NothingLost e :=
  ⟨_, rfl, by decide +kernel, @no_update_lost "map" halfExported _ rfl⟩

end Tashi
