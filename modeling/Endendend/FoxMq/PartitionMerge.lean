/-
**Merging the deltas of a partition** (`mergePartitionMapDeltas` of `swarm/recoveryManager.ts`).

After a partition the deltas of all nodes are merged into one record of cells, cell by cell, in the
order of the deltas.

Main definitions:

* `FoxMq.SharedMapDelta` — the cells a node sends;
* `FoxMq.mergePartitionMapDeltas` — the merge;
* `FoxMq.cellsAt` — the cells that the deltas have for a key, in the order of the deltas.

Main results:

* `FoxMq.get?_mergePartitionMapDeltas` — the merge acts on each key by itself;
* `FoxMq.core_mergePartitionMapDeltas` — the six fields of a merged cell are the join of those of
  the cells that the deltas have for its key;
* `FoxMq.exists_perm_cellsAt` — every order of these cells comes from an order of the deltas.
-/
import Endendend.Foundation.OwnKeys
import Endendend.FoxMq.CellJoin

set_option relaxedAutoImplicit false
set_option autoImplicit false

namespace FoxMq

open Js

/-- What a node sends of its map. -/
structure SharedMapDelta where
  cells : OrderedMap Str MapCellMeta
  originNodeId : Str
  emittedAtMs : ℚ

/-- `Object.entries` of a record of cells. -/
def cellEntries (cells : OrderedMap Str MapCellMeta) : List (Str × MapCellMeta) :=
  ownOrder cells.entries

/-- A cell of a delta is merged into the cells gathered so far. -/
def mergeEntry (acc : OrderedMap Str MapCellMeta) (e : Str × MapCellMeta) :
    OrderedMap Str MapCellMeta :=
  acc.set e.1 (mergeCellMeta (acc.get? e.1) e.2)

/-- The cells of all deltas, merged in the order of the deltas. -/
def mergePartitionMapDeltas (deltas : List SharedMapDelta) : OrderedMap Str MapCellMeta :=
  let acc := deltas.foldl (fun acc d => (cellEntries d.cells).foldl mergeEntry acc) ∅
  OrderedMap.ofList acc.entries

/-- The cells that the deltas have for a key. -/
def cellsAt (key : Str) (deltas : List SharedMapDelta) : List MapCellMeta :=
  deltas.filterMap fun d => d.cells.get? key

/-! ### The merge acts on each key by itself -/

theorem get?_mergeEntries (acc cells : OrderedMap Str MapCellMeta) (key : Str) :
    ((cellEntries cells).foldl mergeEntry acc).get? key =
      ((cells.get? key).map (mergeCellMeta (acc.get? key))).or (acc.get? key) := by
  have h := OrderedMap.get?_foldl_set mergeCellMeta acc key (nodup_ownOrder cells.nodup)
  rwa [getList_ownOrder key cells.nodup] at h

theorem get?_foldl_mergeEntries (acc : OrderedMap Str MapCellMeta) (deltas : List SharedMapDelta)
    (key : Str) :
    (deltas.foldl (fun acc d => (cellEntries d.cells).foldl mergeEntry acc) acc).get? key =
      (cellsAt key deltas).foldl (fun held c => some (mergeCellMeta held c)) (acc.get? key) := by
  induction deltas generalizing acc with
  | nil => rfl
  | cons d deltas ih =>
      rw [List.foldl_cons, ih, get?_mergeEntries, cellsAt, cellsAt, List.filterMap_cons]
      cases d.cells.get? key <;> rfl

/-- **The merge acts on each key by itself.** -/
theorem get?_mergePartitionMapDeltas (deltas : List SharedMapDelta) (key : Str) :
    (mergePartitionMapDeltas deltas).get? key =
      (cellsAt key deltas).foldl (fun held c => some (mergeCellMeta held c)) none := by
  have h := get?_foldl_mergeEntries ∅ deltas key
  rw [OrderedMap.get?_empty] at h
  rw [mergePartitionMapDeltas, OrderedMap.ofList, OrderedMap.get?_assign _ _ (OrderedMap.nodup _),
    OrderedMap.get?_empty, Option.or_none, ← h]
  rfl

theorem core_foldl_mergeCellMeta (mine : MapCellMeta) (cs : List MapCellMeta) :
    (cs.foldl (fun held c => some (mergeCellMeta held c)) (some mine)).map MapCellMeta.core =
      some ((cs.map MapCellMeta.core).foldl joinCore mine.core) := by
  induction cs generalizing mine with
  | nil => rfl
  | cons c cs ih =>
      rw [List.foldl_cons, ih, mergeCellMeta, core_mergeMapCellMeta]
      rfl

/-- **The six fields of a merged cell** are the join of those of the cells for its key. -/
theorem core_mergePartitionMapDeltas (deltas : List SharedMapDelta) (key : Str) :
    ((mergePartitionMapDeltas deltas).get? key).map MapCellMeta.core =
      joinAll ((cellsAt key deltas).map MapCellMeta.core) := by
  rw [get?_mergePartitionMapDeltas]
  cases cellsAt key deltas with
  | nil => rfl
  | cons c cs =>
      rw [List.foldl_cons, core_foldl_mergeCellMeta, mergeCellMeta, core_mergeMapCellMeta_none]
      rfl

/-! ### Orders of the deltas and orders of the cells -/

/-- Every order of the images of a list comes from an order of the list. -/
theorem exists_perm_filterMap {α β : Type*} (f : α → Option β) {xs ys : List β} (h : xs.Perm ys) :
    ∀ l : List α, l.filterMap f = xs → ∃ l' : List α, l'.Perm l ∧ l'.filterMap f = ys := by
  induction h with
  | nil => exact fun l hl => ⟨l, .refl l, hl⟩
  | cons x _ ih =>
      intro l hl
      obtain ⟨l₁, a, l₂, rfl, hn, ha, hl₂⟩ := List.filterMap_eq_cons_iff.1 hl
      obtain ⟨l', hp, hl'⟩ := ih l₂ hl₂
      refine ⟨l₁ ++ a :: l', (hp.cons a).append_left l₁, ?_⟩
      rw [List.filterMap_append, List.filterMap_eq_nil_iff.2 hn, List.filterMap_cons_some ha, hl']
      rfl
  | swap x y _ =>
      intro l hl
      obtain ⟨l₁, a, l₂, rfl, hn, ha, hl₂⟩ := List.filterMap_eq_cons_iff.1 hl
      obtain ⟨l₃, b, l₄, rfl, hn', hb, hl₄⟩ := List.filterMap_eq_cons_iff.1 hl₂
      refine ⟨l₁ ++ (l₃ ++ b :: a :: l₄), ?_, ?_⟩
      · refine List.Perm.append_left l₁ ((List.perm_middle.trans ?_))
        refine .trans ?_ (List.Perm.cons a List.perm_middle.symm)
        exact .trans (List.Perm.cons b List.perm_middle) (.swap ..)
      · rw [List.filterMap_append, List.filterMap_append, List.filterMap_eq_nil_iff.2 hn,
          List.filterMap_eq_nil_iff.2 hn', List.filterMap_cons_some hb, List.filterMap_cons_some ha,
          hl₄]
        rfl
  | trans _ _ ih₁ ih₂ =>
      intro l hl
      obtain ⟨l', hp, hl'⟩ := ih₁ l hl
      obtain ⟨l'', hp', hl''⟩ := ih₂ l' hl'
      exact ⟨l'', hp'.trans hp, hl''⟩

/-- **Every order of the cells for a key comes from an order of the deltas.** -/
theorem exists_perm_cellsAt {key : Str} {deltas : List SharedMapDelta} {xs : List CellCore}
    (h : xs.Perm ((cellsAt key deltas).map MapCellMeta.core)) :
    ∃ deltas' : List SharedMapDelta, deltas'.Perm deltas ∧
      (cellsAt key deltas').map MapCellMeta.core = xs := by
  simp only [cellsAt, List.map_filterMap] at h ⊢
  obtain ⟨deltas', hp, hx⟩ := exists_perm_filterMap _ h.symm deltas rfl
  exact ⟨deltas', hp, hx⟩

end FoxMq
