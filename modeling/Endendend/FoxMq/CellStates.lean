/-
**The states of the cells** (`swarm/sharedMap.ts`).

What an update does to the states of the cells: the higher one of two states stays, and the frontier
grows around the explored cells.  Keys of cells are read back as their coordinates.

Main definitions:

* `FoxMq.MonotonicSharedMap.stateOf` — the state of a cell; a cell that is not stored is unknown;
* `FoxMq.higherState` — the state of the higher rank;
* `FoxMq.neighborKeys` — the keys around a key;
* `FoxMq.Marks` — some unknown cells have become the frontier.

Main results:

* `FoxMq.parseCellKey_cellKey` — a key names its coordinates;
* `FoxMq.stateOf_applyLocalUpdate` — an update raises the state of its cell;
* `FoxMq.marks_recomputeFrontiers` — **the unknown neighbours of explored cells become the frontier,
  and nothing else changes.**
-/
import Endendend.Foundation.NumberText
import Endendend.FoxMq.SharedMap
import Mathlib.Data.List.TakeWhile

set_option relaxedAutoImplicit false
set_option autoImplicit false

namespace FoxMq

open Js

/-! ### Keys -/

/-- **A key names its coordinates.** -/
theorem parseCellKey_cellKey (gx gz : Decimal) : parseCellKey (cellKey gx gz) = some (gx, gz) := by
  have hcomma : ∀ x : Decimal, ∀ u ∈ x.toStr, decide (u ≠ unit ',') = true := by
    intro x u hu
    refine decide_eq_true ?_
    rintro rfl
    exact absurd (Decimal.mem_toStr hu) (by decide)
  have hdrop : (cellKey gx gz).dropWhile (· ≠ unit ',') = unit ',' :: gz.toStr := by
    rw [cellKey, List.dropWhile_append_of_pos (hcomma gx), List.dropWhile_cons_of_neg (by simp)]
  have htake : (cellKey gx gz).takeWhile (· ≠ unit ',') = gx.toStr := by
    rw [cellKey, List.takeWhile_append_of_pos (hcomma gx), List.takeWhile_cons_of_neg (by simp),
      List.append_nil]
  have hrest : gz.toStr.takeWhile (· ≠ unit ',') = gz.toStr :=
    List.takeWhile_eq_self_iff.2 (hcomma gz)
  rw [parseCellKey, hdrop, htake]
  simp only [hrest, numberOfText_toStr]

/-- The keys around a key, if it names a place. -/
def neighborKeys (k : Str) : List Str := (parseCellKey k).elim [] fun p => neighbors p.1 p.2

theorem neighborKeys_cellKey (gx gz : Decimal) :
    neighborKeys (cellKey gx gz) = neighbors gx gz := by
  rw [neighborKeys, parseCellKey_cellKey]
  rfl

/-- The keys around a key name places. -/
theorem exists_cellKey_of_mem_neighborKeys {k nk : Str} (h : nk ∈ neighborKeys k) :
    ∃ gx gz, nk = cellKey gx gz := by
  cases hk : parseCellKey k with
  | none =>
      rw [neighborKeys, hk] at h
      exact absurd h List.not_mem_nil
  | some p =>
      rw [neighborKeys, hk] at h
      simp only [Option.elim_some, neighbors, List.mem_cons, List.not_mem_nil, or_false] at h
      obtain rfl | rfl | rfl | rfl := h
      · exact ⟨_, _, rfl⟩
      · exact ⟨_, _, rfl⟩
      · exact ⟨_, _, rfl⟩
      · exact ⟨_, _, rfl⟩

/-! ### States -/

/-- The state of the higher rank. -/
def higherState (s t : MapCellState) : MapCellState :=
  if cellStateRank s < cellStateRank t then t else s

/-- A join keeps the state of the higher rank. -/
theorem state_mergeMapCellMeta (held : Option MapCellMeta) (remote : MapCellMeta) (origin : Str) :
    (mergeMapCellMeta held remote origin).state =
      higherState ((held.map (·.state)).getD .unknown) remote.state := by
  cases held with
  | none =>
      have hunknown : ∀ t, higherState .unknown t = t := fun t => by cases t <;> rfl
      exact (hunknown remote.state).symm
  | some mine =>
      rw [Option.map_some, Option.getD_some, mergeMapCellMeta, higherState]
      by_cases hgt : rankOf remote > rankOf mine
      · simp only [if_pos hgt]
        exact (if_pos hgt).symm
      · simp only [if_neg hgt]
        refine Eq.trans ?_ (if_neg hgt).symm
        -- of two states of one rank it does not matter which one is kept
        by_cases hlt : rankOf remote < rankOf mine
        · simp only [if_pos hlt]
        · have hsame : remote.state = mine.state := by
            refine cellStateRank_injective ?_
            simp only [rankOf] at hgt hlt
            omega
          simp only [if_neg hlt]
          split_ifs <;> first | rfl | exact hsame

namespace MonotonicSharedMap

/-- The state of a cell; a cell that is not stored is unknown. -/
def stateOf (m : MonotonicSharedMap) (key : Str) : MapCellState :=
  ((m.getCell key).map (·.state)).getD .unknown

theorem mem_frontierKeys {m : MonotonicSharedMap} {k : Str} :
    k ∈ m.frontierKeys ↔ m.stateOf k = .frontier := by
  rw [frontierKeys, List.mem_map, stateOf]
  constructor
  · rintro ⟨⟨k', cell⟩, hmem, rfl⟩
    obtain ⟨hentry, hstate⟩ := List.mem_filter.1 hmem
    rw [getCell, OrderedMap.mem_entries_iff.1 hentry]
    exact of_decide_eq_true hstate
  · intro h
    cases hcell : m.getCell k with
    | none =>
        rw [hcell] at h
        cases h
    | some cell =>
        rw [hcell] at h
        exact ⟨(k, cell), List.mem_filter.2 ⟨OrderedMap.mem_entries_iff.2 hcell, decide_eq_true h⟩,
          rfl⟩

theorem nodup_frontierKeys (m : MonotonicSharedMap) : m.frontierKeys.Nodup :=
  m.cells.nodup.sublist (List.filter_sublist.map _)

end MonotonicSharedMap

open MonotonicSharedMap

variable {m m' m'' : MonotonicSharedMap}

/-- **An update raises the state of its cell.** -/
theorem stateOf_applyLocalUpdate (m : MonotonicSharedMap) (gx gz : Decimal) (state : MapCellState)
    (nowMs : ℚ) (nodeId : Str) (confidence01 : Option ℚ) (proofSource : MapProofSource) (k : Str) :
    (m.applyLocalUpdate gx gz state nowMs nodeId confidence01 proofSource).1.stateOf k =
      if k = cellKey gx gz then higherState (m.stateOf k) state else m.stateOf k := by
  rw [stateOf, applyLocalUpdate]
  simp only [nextVersion, getCell_setCell]
  split
  · next hk =>
      rw [Option.map_some, Option.getD_some, mergeCellMeta, state_mergeMapCellMeta, hk]
      rfl
  · rfl

/-! ### The frontier -/

/-- The unknown cells with a property have become the frontier, and nothing else has changed. -/
structure Marks (B : Str → Prop) (m m' : MonotonicSharedMap) : Prop where
  marked : ∀ k, m.stateOf k = .unknown → B k → m'.stateOf k = .frontier
  kept : ∀ k, m.stateOf k ≠ .unknown ∨ ¬ B k → m'.stateOf k = m.stateOf k

theorem Marks.refl {B : Str → Prop} (hB : ∀ k, ¬ B k) (m : MonotonicSharedMap) : Marks B m m :=
  ⟨fun k _ hk => absurd hk (hB k), fun _ _ => rfl⟩

theorem Marks.congr {B B' : Str → Prop} (h : Marks B m m') (hiff : ∀ k, B k ↔ B' k) :
    Marks B' m m' :=
  ⟨fun k hk hB => h.marked k hk ((hiff k).2 hB),
    fun k hk => h.kept k (hk.imp_right fun hB hB' => hB ((hiff k).1 hB'))⟩

theorem Marks.trans {B B' : Str → Prop} (h : Marks B m m') (h' : Marks B' m' m'') :
    Marks (fun k => B k ∨ B' k) m m'' := by
  constructor
  · intro k hk hB
    by_cases hBk : B k
    · have hfrontier := h.marked k hk hBk
      rw [h'.kept k (Or.inl (by rw [hfrontier]; decide)), hfrontier]
    · have hkept := h.kept k (Or.inr hBk)
      exact h'.marked k (hkept.trans hk) (hB.resolve_left hBk)
  · intro k hk
    have hkept := h.kept k (hk.imp_right fun hB hBk => hB (Or.inl hBk))
    have hkept' := h'.kept k (by
      rw [hkept]
      exact hk.imp_right fun hB hBk => hB (Or.inr hBk))
    rw [hkept', hkept]

/-- Marking leaves the explored cells as they are. -/
theorem Marks.isExplored {B : Str → Prop} (h : Marks B m m') (k : Str) :
    (m'.stateOf k).isExplored = (m.stateOf k).isExplored := by
  by_cases hk : m.stateOf k = .unknown
  · by_cases hB : B k
    · rw [h.marked k hk hB, hk]
      rfl
    · rw [h.kept k (Or.inr hB)]
  · rw [h.kept k (Or.inl hk)]

variable (nowMs : ℚ) (origin : Str)

theorem marks_markFrontier (m : MonotonicSharedMap) (gx gz : Decimal) :
    Marks (· = cellKey gx gz) m (markFrontier nowMs origin m (cellKey gx gz)) := by
  rw [markFrontier, parseCellKey_cellKey]
  split
  · next hunknown =>
      refine ⟨fun k hk hkey => ?_, fun k hk => ?_⟩
      · dsimp only
        rw [stateOf_applyLocalUpdate, if_pos hkey, hk]
        rfl
      · dsimp only
        rw [stateOf_applyLocalUpdate, if_neg]
        rintro rfl
        exact hk.elim (fun h => h hunknown) (fun h => h rfl)
  · next hknown =>
      refine ⟨fun k hk hkey => ?_, fun k _ => rfl⟩
      subst hkey
      exact absurd hk hknown

theorem marks_foldl_markFrontier (nks : List Str) (hnks : ∀ nk ∈ nks, ∃ gx gz, nk = cellKey gx gz)
    (m : MonotonicSharedMap) :
    Marks (· ∈ nks) m (nks.foldl (markFrontier nowMs origin) m) := by
  induction nks generalizing m with
  | nil => exact Marks.refl (fun _ => List.not_mem_nil) m
  | cons nk nks ih =>
      obtain ⟨gx, gz, rfl⟩ := hnks nk List.mem_cons_self
      have htail := ih (fun nk hnk => hnks nk (List.mem_cons_of_mem _ hnk))
        (markFrontier nowMs origin m (cellKey gx gz))
      exact ((marks_markFrontier nowMs origin m gx gz).trans htail).congr fun k =>
        List.mem_cons.symm

/-- A key stands next to an explored cell. -/
def Borders (m : MonotonicSharedMap) (k₀ k : Str) : Prop :=
  (m.stateOf k₀).isExplored = true ∧ k ∈ neighborKeys k₀

theorem Marks.borders {B : Str → Prop} (h : Marks B m m') (k₀ k : Str) :
    Borders m' k₀ k ↔ Borders m k₀ k := by
  rw [Borders, Borders, h.isExplored]

theorem marks_markNeighbors (m : MonotonicSharedMap) (k₀ : Str) :
    Marks (Borders m k₀) m (markNeighbors nowMs origin m k₀) := by
  rw [markNeighbors]
  split
  · next hcell =>
      refine Marks.refl (fun k hk => ?_) m
      have hstate : m.stateOf k₀ = .unknown := by rw [stateOf, hcell]; rfl
      rw [Borders, hstate] at hk
      exact absurd hk.1 (by decide)
  · next cur hcell =>
      have hstate : m.stateOf k₀ = cur.state := by rw [stateOf, hcell]; rfl
      split
      · next hexplored =>
          cases hparse : parseCellKey k₀ with
          | none =>
              refine Marks.refl (fun k hk => ?_) m
              rw [Borders, neighborKeys, hparse] at hk
              exact absurd hk.2 List.not_mem_nil
          | some p =>
              have hkeys : neighborKeys k₀ = neighbors p.1 p.2 := by
                rw [neighborKeys, hparse]
                rfl
              refine (marks_foldl_markFrontier nowMs origin (neighbors p.1 p.2) ?_ m).congr ?_
              · exact fun nk hnk => exists_cellKey_of_mem_neighborKeys (hkeys ▸ hnk)
              · intro k
                rw [Borders, hstate, hkeys]
                exact (and_iff_right hexplored).symm
      · next hexplored =>
          refine Marks.refl (fun k hk => hexplored ?_) m
          rw [← hstate]
          exact hk.1

/-- **The unknown neighbours of explored cells become the frontier, and nothing else changes.** -/
theorem marks_recomputeFrontiers (m : MonotonicSharedMap) :
    Marks (fun k => ∃ k₀, Borders m k₀ k) m (m.recomputeFrontiers nowMs origin) := by
  have hfold : ∀ (ks : List Str) (m : MonotonicSharedMap),
      Marks (fun k => ∃ k₀ ∈ ks, Borders m k₀ k) m (ks.foldl (markNeighbors nowMs origin) m) := by
    intro ks
    induction ks with
    | nil =>
        intro m
        refine Marks.refl (fun k hk => ?_) m
        obtain ⟨k₀, hmem, -⟩ := hk
        exact absurd hmem List.not_mem_nil
    | cons k₀ ks ih =>
        intro m
        -- marking does not explore, so the borders of the keys that are left stay the same
        have hhead := marks_markNeighbors nowMs origin m k₀
        refine (hhead.trans (ih (markNeighbors nowMs origin m k₀))).congr fun k => ?_
        simp only [hhead.borders, List.mem_cons, exists_eq_or_imp]
  refine (hfold m.cells.keys m).congr fun k => ⟨?_, ?_⟩
  · rintro ⟨k₀, -, hk⟩
    exact ⟨k₀, hk⟩
  · rintro ⟨k₀, hk⟩
    refine ⟨k₀, ?_, hk⟩
    -- a cell that is explored is stored
    by_contra hmem
    have hcell : m.getCell k₀ = none := OrderedMap.getList_eq_none_iff.2 hmem
    have hstate : m.stateOf k₀ = .unknown := by rw [stateOf, hcell]; rfl
    rw [Borders, hstate] at hk
    exact absurd hk.1 (by decide)

end FoxMq
