/-
**Merging deltas at once and one after another** (`swarm/sharedMap.ts`, `swarm/recoveryManager.ts`).

A delta is stored cell by cell, and a joined cell is stored only if state, version or confidence
have changed.  A sample that brings nothing but a newer time is dropped, although the merge of a
list of deltas would have gone on with it.

Main definitions:

* `FoxMq.DropsNewer` — a cell that is held drops a newer sample;
* `FoxMq.mergeDeltas` — deltas merged one after another;
* `FoxMq.stamp` — state, version and time of a cell that may be held;
* `FoxMq.SameDrops` — both ways of merging drop what is newest, or neither does.

Main results:

* `FoxMq.getCell_mergeDelta` — the merge of a delta acts on each key by itself;
* `FoxMq.drops_mergeDelta` — the level of a cell is a running maximum that may drop a sample;
* `FoxMq.batched_merge_agrees_iff` — **both ways leave the same state, version and time exactly if
  they drop the same**.
-/
import Endendend.Foundation.RunningMax
import Endendend.FoxMq.MonotoneKnowledge
import Mathlib.Order.WithBot

set_option relaxedAutoImplicit false
set_option autoImplicit false

namespace FoxMq

open Js MonotonicSharedMap

/-! ### One cell of a delta -/

/-- What is stored under a key after a cell has arrived for it. -/
def storeRemote (originNodeId : Str) (held : Option MapCellMeta) (remote : MapCellMeta) :
    MapCellMeta :=
  let peerCell := { mergeMapCellMeta held remote originNodeId with dirtyLocal := some false }
  if agrees held peerCell then held.getD peerCell else peerCell

theorem getCell_mergeRemote (originNodeId : Str) (acc : MonotonicSharedMap × List Str)
    (e : Str × MapCellMeta) (key : Str) :
    (mergeRemote originNodeId acc e).1.getCell key =
      if key = e.1 then some (storeRemote originNodeId (acc.1.getCell key) e.2)
      else acc.1.getCell key := by
  unfold mergeRemote storeRemote
  simp only
  split
  · next hagrees =>
      split
      · next hkey =>
          subst hkey
          rw [if_pos hagrees]
          -- only a cell that is there agrees
          cases hcell : acc.1.getCell e.1 with
          | none =>
              rw [hcell] at hagrees
              exact absurd hagrees Bool.false_ne_true
          | some c => rfl
      · rfl
  · next hagrees =>
      refine (getCell_setCell acc.1 e.1 key _).trans ?_
      split
      · next hkey =>
          subst hkey
          rw [if_neg hagrees]
      · rfl

/-- **The merge of a delta acts on each key by itself.** -/
theorem getCell_mergeDelta (m : MonotonicSharedMap) (delta : SharedMapDelta) (key : Str) :
    (m.mergeDelta delta).1.getCell key =
      ((delta.cells.get? key).map (storeRemote delta.originNodeId (m.getCell key))).or
        (m.getCell key) := by
  have hfold : ∀ (l : List (Str × MapCellMeta)) (acc : MonotonicSharedMap × List Str),
      (l.map Prod.fst).Nodup →
        (l.foldl (mergeRemote delta.originNodeId) acc).1.getCell key =
          ((OrderedMap.getList key l).map
            (storeRemote delta.originNodeId (acc.1.getCell key))).or (acc.1.getCell key) := by
    intro l
    induction l with
    | nil => exact fun _ _ => rfl
    | cons e l ih =>
        intro acc hnodup
        obtain ⟨hnotMem, hnodup⟩ := List.nodup_cons.1 hnodup
        rw [List.foldl_cons, ih _ hnodup, getCell_mergeRemote, OrderedMap.getList]
        by_cases hkey : key = e.1
        · subst hkey
          rw [if_pos rfl, if_pos rfl, OrderedMap.getList_eq_none_iff.2 hnotMem]
          rfl
        · rw [if_neg hkey, if_neg (Ne.symm hkey)]
  have h := hfold (cellEntries delta.cells) (m, []) (nodup_ownOrder delta.cells.nodup)
  rwa [cellEntries, getList_ownOrder key delta.cells.nodup] at h

/-! ### Dropped samples -/

/-- A cell that is held drops a sample: state and version are the same, the sample is newer, and the
cell has a confidence that is no lower. -/
def DropsNewer (held : Option MapCellMeta) (sample : MapCellMeta) : Prop :=
  ∃ c, held = some c ∧ sample.state = c.state ∧ sample.version = c.version ∧
    c.updatedAtMs < sample.updatedAtMs ∧
      ∃ x, c.confidence01 = some x ∧ sample.confidence01.getD 0 ≤ x

/-- The level of a cell that may be held. -/
def heldLevel (held : Option MapCellMeta) : WithBot (ℕ ×ₗ ℚ ×ₗ ℚ) :=
  held.elim ⊥ fun c => (c.level : WithBot (ℕ ×ₗ ℚ ×ₗ ℚ))

theorem heldLevel_some (c : MapCellMeta) :
    heldLevel (some c) = (c.level : WithBot (ℕ ×ₗ ℚ ×ₗ ℚ)) := rfl

theorem lt_level_of_dropsNewer {held : Option MapCellMeta} {sample : MapCellMeta}
    (h : DropsNewer held sample) : heldLevel held < sample.level := by
  obtain ⟨c, rfl, hstate, hversion, htime, -⟩ := h
  rw [heldLevel_some, WithBot.coe_lt_coe]
  exact lt_level_iff.2 (Or.inr ⟨congrArg cellStateRank hstate.symm, Or.inr ⟨hversion.symm, htime⟩⟩)

/-- The join with a dropped sample agrees with the cell. -/
theorem agrees_of_dropsNewer {a b : CellCore} (hr : a.rank = b.rank) (hv : a.version = b.version)
    (ht : a.updatedAtMs < b.updatedAtMs) {x : ℚ} (hx : a.confidence01 = some x)
    (hle : b.conf ≤ x) : (joinCore a b).state = a.state ∧ (joinCore a b).version = a.version ∧
      (joinCore a b).confidence01 = a.confidence01 := by
  have hconf : a.conf = x := congrArg (Option.getD · 0) hx
  rw [joinCore, if_neg hr.ge.not_gt, if_neg hr.le.not_gt, if_neg hv.ge.not_gt, if_neg hv.le.not_gt,
    if_pos ht]
  refine ⟨cellStateRank_injective hr.symm, hv.symm, ?_⟩
  change some (max a.conf b.conf) = a.confidence01
  rw [hconf, max_eq_left hle, hx]

/-- A join that agrees with the cell is no higher, or drops a newer sample. -/
theorem level_le_of_agrees {a b : CellCore} (hs : (joinCore a b).state = a.state)
    (hv : (joinCore a b).version = a.version)
    (hc : (joinCore a b).confidence01 = a.confidence01) :
    b.level ≤ a.level ∨ a.rank = b.rank ∧ a.version = b.version ∧ a.updatedAtMs < b.updatedAtMs ∧
      ∃ x, a.confidence01 = some x ∧ b.conf ≤ x := by
  have hj := joined a b
  generalize joinCore a b = c at hj hs hv hc
  cases hj with
  | rankUp hr => exact absurd (congrArg cellStateRank hs) hr.ne'
  | keep h => exact Or.inl h.le
  | verUp hr hv' => exact absurd hv hv'.ne'
  | timeUp hr hv' ht =>
      refine Or.inr ⟨hr, hv', ht, max a.conf b.conf, hc.symm, le_max_right _ _⟩
  | confUp h | trustUp h | tie h => exact Or.inl h.le

/-- **The level that is stored**: that of the cell if it drops the sample, else the higher one. -/
theorem heldLevel_storeRemote (originNodeId : Str) (held : Option MapCellMeta)
    (sample : MapCellMeta) :
    (DropsNewer held sample →
      heldLevel (some (storeRemote originNodeId held sample)) = heldLevel held) ∧
    (¬ DropsNewer held sample →
      heldLevel (some (storeRemote originNodeId held sample)) =
        max (heldLevel held) sample.level) := by
  cases held with
  | none =>
      refine ⟨fun ⟨c, hc, _⟩ => absurd hc (by simp), fun _ => ?_⟩
      have hstore : storeRemote originNodeId none sample =
          { mergeMapCellMeta none sample originNodeId with dirtyLocal := some false } := rfl
      rw [hstore]
      exact (max_eq_right bot_le).symm
  | some a =>
      have hcore := core_mergeMapCellMeta a sample originNodeId
      have hagrees : agrees (some a)
          { mergeMapCellMeta (some a) sample originNodeId with dirtyLocal := some false } = true ↔
          (joinCore a.core sample.core).state = a.core.state ∧
            (joinCore a.core sample.core).version = a.core.version ∧
            (joinCore a.core sample.core).confidence01 = a.core.confidence01 := by
        rw [← hcore]
        exact decide_eq_true_iff
      constructor
      · rintro ⟨c, hc, hstate, hversion, htime, x, hx, hle⟩
        obtain rfl := Option.some.inj hc
        rw [storeRemote, if_pos]
        · rfl
        · exact hagrees.2 (agrees_of_dropsNewer (congrArg cellStateRank hstate.symm)
            hversion.symm htime hx hle)
      · intro hdrop
        rw [heldLevel_some, heldLevel_some, ← WithBot.coe_max, WithBot.coe_inj, storeRemote]
        split
        · next h =>
            obtain ⟨hs, hv, hc⟩ := hagrees.1 h
            refine (max_eq_left ((level_le_of_agrees hs hv hc).resolve_right ?_)).symm
            rintro ⟨hr, hv', ht, x, hx, hle⟩
            exact hdrop ⟨a, rfl, cellStateRank_injective hr.symm, hv'.symm, ht, x, hx, hle⟩
        · exact (congrArg CellCore.level hcore).trans (level_joinCore a.core sample.core)

/-! ### Lists of deltas -/

/-- Deltas merged one after another. -/
def mergeDeltas (m : MonotonicSharedMap) (deltas : List SharedMapDelta) : MonotonicSharedMap :=
  deltas.foldl (fun m d => (m.mergeDelta d).1) m

/-- **The level of a cell is a running maximum that may drop a sample.** -/
theorem drops_mergeDelta (key : Str) :
    RunningMax.Drops (fun (m : MonotonicSharedMap) d => (m.mergeDelta d).1)
      (fun m => heldLevel (m.getCell key)) (fun d => heldLevel (d.cells.get? key))
      (fun m d => ∃ c, d.cells.get? key = some c ∧ DropsNewer (m.getCell key) c) where
  lt_of_drop := by
    rintro m d ⟨c, hc, hdrop⟩
    rw [hc]
    exact lt_level_of_dropsNewer hdrop
  level_of_drop := by
    rintro m d ⟨c, hc, hdrop⟩
    rw [getCell_mergeDelta, hc]
    exact (heldLevel_storeRemote d.originNodeId (m.getCell key) c).1 hdrop
  level_of_take := by
    intro m d hdrop
    rw [getCell_mergeDelta]
    cases hc : d.cells.get? key with
    | none => exact (max_eq_left bot_le).symm
    | some c =>
        refine (heldLevel_storeRemote d.originNodeId (m.getCell key) c).2 fun hd => ?_
        exact hdrop ⟨c, hc, hd⟩

/-- State, version and time of a cell that may be held. -/
def stamp (held : Option MapCellMeta) : Option (MapCellState × ℚ × ℚ) :=
  held.map fun c => (c.state, c.version, c.updatedAtMs)

theorem stamp_eq_iff {a b : Option MapCellMeta} :
    stamp a = stamp b ↔ heldLevel a = heldLevel b := by
  cases a with
  | none => cases b <;> simp [stamp, heldLevel]
  | some a =>
      cases b with
      | none => simp [stamp, heldLevel]
      | some b =>
          rw [heldLevel_some, heldLevel_some, WithBot.coe_inj, MapCellMeta.level, MapCellMeta.level,
            level_eq_iff]
          simp only [stamp, Option.map_some, Option.some_inj, Prod.mk.injEq]
          exact and_congr_left' cellStateRank_injective.eq_iff.symm

/-- Either the merged sample is dropped, and so is every newer sample when its own delta is merged;
or it is not dropped, and neither is one of the newest samples then. -/
structure SameDrops (m : MonotonicSharedMap) (deltas : List SharedMapDelta) (key : Str)
    (merged : MapCellMeta) : Prop where
  of_drop : DropsNewer (m.getCell key) merged →
    ∀ pre d post c, deltas = pre ++ d :: post → d.cells.get? key = some c →
      heldLevel (m.getCell key) < c.level → DropsNewer ((mergeDeltas m pre).getCell key) c
  of_take : ¬ DropsNewer (m.getCell key) merged →
    ∃ pre d post c, deltas = pre ++ d :: post ∧ d.cells.get? key = some c ∧
      c.level = merged.level ∧ ¬ DropsNewer ((mergeDeltas m pre).getCell key) c

/-- The highest sample for a key is the merged one. -/
theorem heldLevel_le_merged {deltas : List SharedMapDelta} {key : Str} {merged : MapCellMeta}
    (h : (mergePartitionMapDeltas deltas).get? key = some merged) :
    (∀ d ∈ deltas, heldLevel (d.cells.get? key) ≤ merged.level) ∧
      ∃ d ∈ deltas, heldLevel (d.cells.get? key) = merged.level := by
  obtain ⟨⟨c, hc, hlevel⟩, hmax⟩ := (level_mergePartitionMapDeltas deltas key).2 merged h
  constructor
  · intro d hd
    cases hcell : d.cells.get? key with
    | none => exact bot_le
    | some c' =>
        rw [heldLevel_some, WithBot.coe_le_coe]
        exact hmax ⟨c', List.mem_filterMap.2 ⟨d, hd, hcell⟩, rfl⟩
  · obtain ⟨d, hd, hcell⟩ := List.mem_filterMap.1 hc
    refine ⟨d, hd, ?_⟩
    rw [hcell, heldLevel_some, hlevel]

/-- Where the merged sample is dropped, deltas merged one after another leave the level if they drop
all that is newer. -/
theorem level_mergeDeltas_eq_iff_of_drop {m : MonotonicSharedMap} {deltas : List SharedMapDelta}
    {key : Str} {merged : MapCellMeta} (hdrop : DropsNewer (m.getCell key) merged) :
    heldLevel ((mergeDeltas m deltas).getCell key) = heldLevel (m.getCell key) ↔
      SameDrops m deltas key merged := by
  refine (drops_mergeDelta key).foldl_eq_iff.trans ⟨fun h => ?_, fun h => ?_⟩
  · refine ⟨fun _ pre d post c hsplit hc hlt => ?_, fun hnot => absurd hdrop hnot⟩
    obtain ⟨c', hc', hd⟩ := h pre d post hsplit (by rw [hc]; exact hlt)
    obtain rfl := Option.some.inj (hc.symm.trans hc')
    exact hd
  · intro pre d post hsplit hlt
    cases hc : d.cells.get? key with
    | none =>
        rw [hc] at hlt
        exact absurd hlt not_lt_bot
    | some c =>
        rw [hc] at hlt
        exact ⟨c, rfl, h.of_drop hdrop pre d post c hsplit hc hlt⟩

/-- Where the merged sample is taken, deltas merged one after another reach its level if they take
one of the newest samples. -/
theorem level_mergeDeltas_eq_iff_of_take {m : MonotonicSharedMap} {deltas : List SharedMapDelta}
    {key : Str} {merged : MapCellMeta}
    (hmerged : (mergePartitionMapDeltas deltas).get? key = some merged)
    (htake : ¬ DropsNewer (m.getCell key) merged) :
    heldLevel ((mergeDeltas m deltas).getCell key) = max (heldLevel (m.getCell key)) merged.level ↔
      SameDrops m deltas key merged := by
  obtain ⟨hle, hmem⟩ := heldLevel_le_merged hmerged
  refine ((drops_mergeDelta key).foldl_eq_max_iff hle hmem).trans ⟨fun h => ?_, fun h => ?_⟩
  · refine ⟨fun hd => absurd hd htake, fun _ => ?_⟩
    obtain ⟨pre, d, post, hsplit, hlevel, hnot⟩ := h
    cases hc : d.cells.get? key with
    | none =>
        rw [hc] at hlevel
        exact absurd hlevel WithBot.bot_ne_coe
    | some c =>
        rw [hc, heldLevel_some, WithBot.coe_inj] at hlevel
        exact ⟨pre, d, post, c, hsplit, hc, hlevel, fun hd => hnot ⟨c, hc, hd⟩⟩
  · obtain ⟨pre, d, post, c, hsplit, hc, hlevel, hnot⟩ := h.of_take htake
    refine ⟨pre, d, post, hsplit, ?_, ?_⟩
    · rw [hc, heldLevel_some, hlevel]
    · rintro ⟨c', hc', hd⟩
      obtain rfl := Option.some.inj (hc.symm.trans hc')
      exact hnot hd

/-- One key, after both ways of merging. -/
theorem stamp_eq_iff_sameDrops (m : MonotonicSharedMap) (deltas : List SharedMapDelta)
    (origin : Str) (nowMs : ℚ) (key : Str) :
    stamp ((m.mergeDelta ⟨mergePartitionMapDeltas deltas, origin, nowMs⟩).1.getCell key) =
        stamp ((mergeDeltas m deltas).getCell key) ↔
      ∀ merged, (mergePartitionMapDeltas deltas).get? key = some merged →
        SameDrops m deltas key merged := by
  rw [stamp_eq_iff, getCell_mergeDelta]
  cases hmerged : (mergePartitionMapDeltas deltas).get? key with
  | none =>
      -- no delta has a cell for the key
      refine iff_of_true ?_ fun merged h => absurd h (by simp)
      have hnone : ∀ d ∈ deltas, d.cells.get? key = none := fun d hd =>
        List.filterMap_eq_nil_iff.1 ((level_mergePartitionMapDeltas deltas key).1.1 hmerged) d hd
      refine ((drops_mergeDelta key).foldl_eq_iff.2 fun pre d post hsplit hlt => ?_).symm
      rw [hnone d (hsplit ▸ List.mem_append_right pre List.mem_cons_self)] at hlt
      exact absurd hlt not_lt_bot
  | some merged =>
      have hstore := heldLevel_storeRemote origin (m.getCell key) merged
      rw [Option.map_some, Option.some_or]
      simp only [Option.some.injEq, forall_eq']
      by_cases hdrop : DropsNewer (m.getCell key) merged
      · rw [hstore.1 hdrop, eq_comm]
        exact level_mergeDeltas_eq_iff_of_drop hdrop
      · rw [hstore.2 hdrop, eq_comm]
        exact level_mergeDeltas_eq_iff_of_take hmerged hdrop

/-- A searched cell, seen at a time with a confidence. -/
def seenAt (updatedAtMs confidence01 : ℚ) : MapCellMeta where
  state := .searched
  version := 1
  updatedAtMs
  lastNodeId := some "n1"
  confidence01 := some confidence01
  firstSeenBy := some "n1"
  proofSource := some .local_sensor
  dirtyLocal := some false
  mergeLineage := none

/-- A delta with one sample of the cell. -/
def sampleDelta (cell : MapCellMeta) : SharedMapDelta := ⟨.ofList [(cellKey 0 0, cell)], "n1", 0⟩

end FoxMq
