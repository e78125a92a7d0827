/-
**Merging the same records twice** (`MonotonicSharedMap.merge` of
`shared/tashi-mission-map-machine.ts`).

A record that has been resolved against a remote one takes nothing more from it.  A record that has
been inserted as it came keeps an owner that is left out, and takes `null` for it the next time.

Main definitions:

* `Tashi.MergesOnce` — a second merge with the same arguments changes nothing;
* `Tashi.OwnersGiven` — the condition: no record is inserted whose owner is left out.

Main results:

* `Tashi.absorbs_absorb_iff` — what a record takes when it meets the same remote one again;
* `Tashi.merges_once_iff_owners_given` — **a second merge changes nothing exactly if the owners of
  the inserted records are given**;
* `Tashi.merges_twice` — a snapshot that is taken over twice.
-/
import Endendend.Tashi.AntiEntropy

set_option relaxedAutoImplicit false
set_option autoImplicit false

namespace Tashi

open Js SharedMap

/-- **A second merge changes nothing**: it reports no change and leaves cells, dirty set and
version. -/
def MergesOnce (m : SharedMap) (cs : List MapCell) (sourceVersion : ℚ) : Prop :=
  let once := (merge m cs sourceVersion).1
  let twice := merge once cs sourceVersion
  twice.2.inserted = 0 ∧ twice.2.updated = 0 ∧ twice.1.cells = once.cells ∧
    twice.1.dirty = once.dirty ∧ twice.1.version = once.version

/-- Every record that is new to the map names its owner or says that there is none. -/
def OwnersGiven (m : SharedMap) (cs : List MapCell) : Prop :=
  ∀ c ∈ cs, m.cell c.cellId = none → c.owner ≠ .undefined

/-! ### One record -/

/-- A record that has been inserted takes nothing from itself, except for its owner. -/
theorem absorbs_normalizeCell_iff {c : MapCell} :
    Absorbs (normalizeCell c) c ↔ c.owner ≠ .undefined := by
  have hstate : (merged (normalizeCell c) (normalizeCell c)).state = c.state := by
    simp [merged, mergeState_eq, normalizeCell]
  have hcost : min (max 0 c.cost) (if max 0 c.cost = 0 then max 0 c.cost else max 0 c.cost) =
      max 0 c.cost := by rw [ite_self, min_self]
  have howner : c.owner.or c.owner = c.owner ↔ c.owner ≠ .undefined := by
    rw [owner_or_eq_iff]
    exact and_iff_left fun _ h => h
  rw [absorbs_iff, ← howner]
  constructor
  · exact fun h => h.2.2.1
  · intro h
    refine ⟨hstate, le_refl _, h, hcost, le_refl _, le_refl _, ?_, nodup_uniq _, fun n hn => ?_⟩
    · exact congrArg metadataText (OrderedMap.assign_self c.metadata)
    · exact mem_uniq.2 hn

/-- Assigning the same fields again changes nothing. -/
theorem assign_assign (a b : OrderedMap Str Json) :
    (a.assign b.entries).assign b.entries = a.assign b.entries := by
  refine OrderedMap.assign_of_get? fun p hp => ?_
  rw [OrderedMap.get?_assign _ _ b.nodup, (OrderedMap.mem_iff_getList b.nodup).1 hp, Option.some_or]

theorem owner_or_or (incoming current : Owner) :
    incoming.or (incoming.or current) = incoming.or current := by
  cases incoming <;> cases current <;> rfl

/-- A cost of zero counts as left out. -/
theorem cost_or_cost (current incoming : ℚ) :
    min (min current (if incoming = 0 then current else incoming))
        (if incoming = 0 then min current (if incoming = 0 then current else incoming)
          else incoming) =
      min current (if incoming = 0 then current else incoming) := by
  by_cases h : incoming = 0
  · simp [h]
  · simp [h]

/-- A record that has been changed by a remote one takes nothing more from it. -/
theorem absorbs_resolve (d c : MapCell) : Absorbs (resolve d (normalizeCell c)) c := by
  by_cases h : Absorbs d c
  · rwa [resolve_of_absorbs h]
  · obtain ⟨-, hlt⟩ := lt_version_of_not_absorbs h
    -- the new version is above the remote one, so the state is kept
    have hstate : (merged (resolve d (normalizeCell c)) (normalizeCell c)).state =
        (resolve d (normalizeCell c)).state := by
      have hgt : ¬ (normalizeCell c).version > (resolve d (normalizeCell c)).version :=
        not_lt.2 hlt.le
      have hne : ¬ ((normalizeCell c).version = (resolve d (normalizeCell c)).version ∧
          (normalizeCell c).lastSeenMs ≥ (resolve d (normalizeCell c)).lastSeenMs) :=
        fun he => absurd he.1 hlt.ne
      simp only [merged, if_neg hgt, if_neg hne]
    have hjoined := resolve_of_not_agree h
    rw [absorbs_iff]
    refine ⟨hstate, ?_, ?_, ?_, ?_, hlt.le, ?_, ?_, ?_⟩ <;> rw [hjoined]
    · exact le_max_right _ _
    · exact owner_or_or c.owner d.owner
    · exact cost_or_cost d.cost (max 0 c.cost)
    · exact le_max_right _ _
    · exact congrArg metadataText (assign_assign d.metadata c.metadata)
    · exact nodup_uniq _
    · intro n hn
      exact mem_uniq.2 (List.mem_append_right _ (mem_uniq.2 hn))

/-- **What a record takes when it meets the same remote one again**: nothing, unless it has been
inserted with its owner left out. -/
theorem absorbs_absorb_iff {cur : Option MapCell} {c : MapCell} :
    Absorbs (absorb cur c) c ↔ (cur = none → c.owner ≠ .undefined) := by
  cases cur with
  | none =>
      rw [absorb, absorbs_normalizeCell_iff]
      exact ⟨fun h _ => h, fun h => h rfl⟩
  | some d => exact iff_of_true (absorbs_resolve d c) fun h => absurd h (Option.some_ne_none d)

/-! ### A list of records -/

/-- A merge without changes leaves the map. -/
theorem foldl_mergeCell_of_quiet {m : SharedMap} {stats : MergeStats} {cs : List MapCell}
    (h : ∀ d ∈ cs, ∃ c, m.cell d.cellId = some c ∧ Absorbs c d) :
    (cs.foldl mergeCell (m, stats)).1 = m := by
  induction cs generalizing stats with
  | nil => rfl
  | cons d cs ih =>
      obtain ⟨c, hc, ha⟩ := h d List.mem_cons_self
      rw [List.foldl_cons, mergeCell_of_agree hc ha]
      exact ih fun d' hd' => h d' (List.mem_cons_of_mem _ hd')

/-- After a merge the version is not below that of the source. -/
theorem le_version_merge (m : SharedMap) (cs : List MapCell) (sourceVersion : ℚ) :
    sourceVersion ≤ (merge m cs sourceVersion).1.version := by
  have hadopt : ∀ m' : SharedMap, sourceVersion ≤
      (if sourceVersion > m'.version then { m' with version := sourceVersion }
        else m').version := by
    intro m'
    split
    · exact le_refl _
    · next h => exact not_lt.1 h
  unfold merge
  simp only
  split
  · exact le_trans (hadopt _) (le_add_of_nonneg_right zero_le_one)
  · exact hadopt _

/-- What a record with distinct ids leaves is what it leaves by itself. -/
theorem cell_merge_of_distinct {m : SharedMap} {cs : List MapCell}
    (h : (cs.map MapCell.cellId).Nodup) {c : MapCell} (hc : c ∈ cs) (sourceVersion : ℚ) :
    (merge m cs sourceVersion).1.cell c.cellId = some (absorb (m.cell c.cellId) c) := by
  have hfilter : (cs.filter fun d => d.cellId = c.cellId) = [c] := by
    induction cs with
    | nil => exact absurd hc List.not_mem_nil
    | cons d cs ih =>
        obtain ⟨hd, hcs⟩ := List.nodup_cons.1 h
        rcases List.mem_cons.1 hc with rfl | hc
        · rw [List.filter_cons_of_pos (by simp), List.filter_eq_nil_iff.2]
          intro d hmem
          have hne : d.cellId ≠ c.cellId := fun heq => hd (heq ▸ List.mem_map_of_mem hmem)
          simpa using hne
        · have hne : d.cellId ≠ c.cellId := fun heq => hd (heq ▸ List.mem_map_of_mem hc)
          rw [List.filter_cons_of_neg (by simpa using hne), ih hcs hc]
  rw [cell_merge, mergeCells, cell_foldl_mergeCell, hfilter]
  rfl

/-- **A second merge changes nothing exactly if the records take nothing from themselves.** -/
theorem merges_once_iff_absorbs {m : SharedMap} {cs : List MapCell}
    (h : (cs.map MapCell.cellId).Nodup) (sourceVersion : ℚ) :
    MergesOnce m cs sourceVersion ↔ ∀ c ∈ cs, Absorbs (absorb (m.cell c.cellId) c) c := by
  have hquiet : (mergeCells (merge m cs sourceVersion).1 cs).2.Quiet ↔
      ∀ c ∈ cs, Absorbs (absorb (m.cell c.cellId) c) c := by
    rw [mergeCells, quiet_foldl_mergeCell_iff, and_iff_right ⟨rfl, rfl⟩]
    refine forall₂_congr fun c hc => ?_
    rw [cell_merge_of_distinct h hc]
    simp
  have hstats : (merge (merge m cs sourceVersion).1 cs sourceVersion).2 =
      (mergeCells (merge m cs sourceVersion).1 cs).2 := rfl
  constructor
  · rintro ⟨hinserted, hupdated, -⟩
    rw [hstats] at hinserted hupdated
    exact hquiet.1 ⟨hinserted, hupdated⟩
  · intro ha
    obtain ⟨hinserted, hupdated⟩ := hquiet.2 ha
    have hsame : (mergeCells (merge m cs sourceVersion).1 cs).1 = (merge m cs sourceVersion).1 :=
      foldl_mergeCell_of_quiet fun c hc =>
        ⟨_, cell_merge_of_distinct h hc sourceVersion, ha c hc⟩
    have hversion : ¬ sourceVersion > (merge m cs sourceVersion).1.version :=
      not_lt.2 (le_version_merge m cs sourceVersion)
    have htwice : (merge (merge m cs sourceVersion).1 cs sourceVersion).1 =
        (merge m cs sourceVersion).1 := by
      rw [merge]
      simp only [hsame, hinserted, hupdated, if_neg hversion, Nat.lt_irrefl, if_false,
        Nat.add_zero, gt_iff_lt]
    exact ⟨hinserted, hupdated, by rw [htwice], by rw [htwice], by rw [htwice]⟩

/-- **A second merge changes nothing exactly if the owners of the inserted records are given.** -/
theorem merges_once_iff_owners_given {m : SharedMap} {cs : List MapCell}
    (h : (cs.map MapCell.cellId).Nodup) (sourceVersion : ℚ) :
    MergesOnce m cs sourceVersion ↔ OwnersGiven m cs := by
  rw [merges_once_iff_absorbs h]
  exact forall₂_congr fun _ _ => absorbs_absorb_iff

/-- A replica that has been given a record without an owner. -/
def ownerless : SharedMap :=
  upsert (.new "remote")
    { cellId := cellIdOf 0 0 0, x := 0, y := 0, z := 0, state := .seen, confidence := 1 / 2
      owner := .undefined, cost := 1, lastSeenMs := 10, version := 1, confirmedBy := []
      metadata := ∅ }

/-- A replica with a mark, which names its owner. -/
def ownerGiven : SharedMap := markSeen (.new "remote") 0 0 0 (.node "n1") (1 / 2) ∅ 10

/-- The snapshot of a replica with a mark. -/
theorem merges_once_iff_owners_given_mark :
    MergesOnce (.new "map") (snapshot ownerGiven 20).values 1 ↔
      OwnersGiven (.new "map") (snapshot ownerGiven 20).values :=
  merges_once_iff_owners_given (by decide +kernel) 1

/-- **A snapshot that is taken over twice**: the second merge changes the cell whose owner is left
out. -/
theorem merges_twice :
    ¬ ∀ (m other : SharedMap) (now sourceVersion : ℚ),
      ((snapshot other now).values.map MapCell.cellId).Nodup →
        MergesOnce m (snapshot other now).values sourceVersion := by
  intro h
  obtain ⟨-, hupdated, -⟩ := h (.new "map") ownerless 20 1 (by decide +kernel)
  exact absurd hupdated (by decide +kernel)

end Tashi
