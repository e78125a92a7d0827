/-
**What the shared map remembers.**

A state of a cell carries a rank.  Local marks and merges never lower the rank that is stored; an
observation from another node is taken over only if the stored record is not newer.

Main definitions:

* `Tashi.MapOp`, `Tashi.MapOp.apply`, `Tashi.MapOp.observations` — the operations and what they
  report;
* `Tashi.KnowledgeKept` — after an operation every cell has at least the rank it had and the ranks
  reported for it;
* `Tashi.Outdated`, `Tashi.Heard` — a record that meets a newer one, and a list of records none of
  which is silenced that way.

Main results:

* `Tashi.le_rankAt_mergeCells_iff` — which ranks a merge reaches;
* `Tashi.knowledgeKept_iff` — **an operation keeps all knowledge exactly if no observation of a
  higher rank meets a newer record**;
* `Tashi.target_sighting_lost` — a target that another node has found is forgotten.
-/
import Endendend.Tashi.SharedMap

set_option relaxedAutoImplicit false
set_option autoImplicit false

namespace Tashi

open Js SharedMap

/-! ### Operations -/

/-- The operations that carry observations. -/
inductive MapOp
  | markSeen (x y z : Decimal) (owner : Owner) (confidence : ℚ) (metadata : OrderedMap Str Json)
      (now : ℚ)
  | markFrontier (x y z : Decimal) (owner : Owner) (now : ℚ)
  | markSearched (x y z : Decimal) (owner : Owner) (confidence now : ℚ)
  | markBlocked (x y z : Decimal) (owner : Owner) (reason : Str) (now : ℚ)
  | markTarget (x y z : Decimal) (owner : Owner) (targetType : Str) (confidence now : ℚ)
  | markSafe (x y z : Decimal) (owner : Owner) (now : ℚ)
  | upsert (c : MapCell)
  | merge (remoteCells : List MapCell) (sourceVersion : ℚ)
  | mergeSnapshot (s : MapSnapshot)

/-- The map after an operation. -/
def MapOp.apply (m : SharedMap) : MapOp → SharedMap
  | markSeen x y z owner confidence metadata now =>
    Tashi.markSeen m x y z owner confidence metadata now
  | markFrontier x y z owner now => Tashi.markFrontier m x y z owner now
  | markSearched x y z owner confidence now => Tashi.markSearched m x y z owner confidence now
  | markBlocked x y z owner reason now => Tashi.markBlocked m x y z owner reason now
  | markTarget x y z owner targetType confidence now =>
    Tashi.markTarget m x y z owner targetType confidence now
  | markSafe x y z owner now => Tashi.markSafe m x y z owner now
  | upsert c => Tashi.upsert m c
  | merge remoteCells sourceVersion => (Tashi.merge m remoteCells sourceVersion).1
  | mergeSnapshot s => (Tashi.mergeSnapshot m s).1

/-- The observations of a list of records. -/
def observed (cs : List MapCell) : List (Str × CellState) := cs.map fun c => (c.cellId, c.state)

/-- The cells an operation touches, each with the state it reports. -/
def MapOp.observations : MapOp → List (Str × CellState)
  | markSeen x y z _ _ _ _ => [(cellIdOf x y z, .seen)]
  | markFrontier x y z _ _ => [(cellIdOf x y z, .frontier)]
  | markSearched x y z _ _ _ => [(cellIdOf x y z, .searched)]
  | markBlocked x y z _ _ _ => [(cellIdOf x y z, .blocked)]
  | markTarget x y z _ _ _ _ => [(cellIdOf x y z, .target)]
  | markSafe x y z _ _ => [(cellIdOf x y z, .safe)]
  | upsert c => observed [c]
  | merge remoteCells _ => observed remoteCells
  | mergeSnapshot s => observed s.values

/-! ### Ranks -/

/-- The rank of a record, that of `unknown` if there is none. -/
def rankOf (c : Option MapCell) : ℕ := (c.map fun c => stateRank c.state).getD 0

/-- The rank stored for an id. -/
def rankAt (m : SharedMap) (id : Str) : ℕ := rankOf (m.cell id)

/-- **An operation keeps all knowledge**: every cell has at least the rank it had before, and at
least each rank that the operation reports for it. -/
def KnowledgeKept (m : SharedMap) (op : MapOp) : Prop :=
  ∀ id, rankAt m id ≤ rankAt (op.apply m) id ∧
    ∀ s, (id, s) ∈ op.observations → stateRank s ≤ rankAt (op.apply m) id

/-- A record meets a newer one: a higher version, or the same version seen later. -/
def Outdated (stored : Option MapCell) (c : MapCell) : Prop :=
  ∃ s ∈ stored, c.version < s.version ∨ c.version = s.version ∧ c.lastSeenMs < s.lastSeenMs

/-- The rank of every record is stored already, or reached by a record of its cell that does not
meet a newer one when its turn comes. -/
def Heard (m : SharedMap) (cs : List MapCell) : Prop :=
  ∀ c ∈ cs, stateRank c.state ≤ rankAt m c.cellId ∨
    ∃ before c' after, cs = before ++ c' :: after ∧ c'.cellId = c.cellId ∧
      stateRank c.state ≤ stateRank c'.state ∧ ¬ Outdated ((mergeCells m before).1.cell c.cellId) c'

/-- The condition on an operation: local marks are always heard. -/
def MapOp.Heard (m : SharedMap) : MapOp → Prop
  | upsert c => stateRank c.state ≤ rankAt m c.cellId ∨ ¬ Outdated (m.cell c.cellId) c
  | merge remoteCells _ => Tashi.Heard m remoteCells
  | mergeSnapshot s => Tashi.Heard m s.values
  | _ => True

/-! ### Marks -/

theorem cell_currentOrCreate (m : SharedMap) (x y z : Decimal) (now : ℚ) :
    (currentOrCreate m x y z now).2.cellId = cellIdOf x y z ∧
      stateRank (currentOrCreate m x y z now).2.state = rankAt m (cellIdOf x y z) ∧
      ∀ id, id ≠ cellIdOf x y z → (currentOrCreate m x y z now).1.cell id = m.cell id := by
  cases hc : m.cell (cellIdOf x y z) with
  | some c =>
      simp only [currentOrCreate, hc]
      exact ⟨cellId_of_cell hc, by simp [rankAt, rankOf, hc], fun _ _ => trivial⟩
  | none =>
      simp only [currentOrCreate, hc]
      refine ⟨trivial, by simp [rankAt, rankOf, hc, stateRank], fun id hid => ?_⟩
      rw [cell_setCell]
      exact if_neg hid

theorem cellId_markedCell (s : CellState) (confidence : ℚ) (metadata : List (Str × Json))
    (m : SharedMap) (x y z : Decimal) (owner : Owner) (now : ℚ) :
    (markedCell s confidence metadata m x y z owner now).cellId = cellIdOf x y z :=
  (cell_currentOrCreate m x y z now).1

/-- A mark stores its record and leaves the other cells. -/
theorem cell_mark (s : CellState) (confidence : ℚ) (metadata : List (Str × Json))
    (m : SharedMap) (x y z : Decimal) (owner : Owner) (now : ℚ) (id : Str) :
    (mark s confidence metadata m x y z owner now).cell id =
      if id = cellIdOf x y z then some (markedCell s confidence metadata m x y z owner now)
      else m.cell id := by
  have hmark : mark s confidence metadata m x y z owner now =
      (((currentOrCreate m x y z now).1.setCell
        (markedCell s confidence metadata m x y z owner now)).markDirty (cellIdOf x y z)).bump :=
    rfl
  rw [hmark, cell_bump, cell_markDirty, cell_setCell, cellId_markedCell]
  refine ite_congr rfl (fun _ => rfl) fun hid => ?_
  exact (cell_currentOrCreate m x y z now).2.2 id hid

/-- A mark puts its cell into the dirty set. -/
theorem dirty_mark (s : CellState) (confidence : ℚ) (metadata : List (Str × Json))
    (m : SharedMap) (x y z : Decimal) (owner : Owner) (now : ℚ) :
    (mark s confidence metadata m x y z owner now).dirty = setAdd m.dirty (cellIdOf x y z) := by
  cases hc : m.cell (cellIdOf x y z) <;> simp [mark, currentOrCreate, hc, bump, markDirty, setCell]

/-- A mark raises the rank of its cell and leaves the others. -/
theorem rankAt_mark (s : CellState) (confidence : ℚ) (metadata : List (Str × Json))
    (m : SharedMap) (x y z : Decimal) (owner : Owner) (now : ℚ) (id : Str) :
    rankAt (mark s confidence metadata m x y z owner now) id =
      if id = cellIdOf x y z then max (rankAt m id) (stateRank s) else rankAt m id := by
  obtain ⟨-, hrank, -⟩ := cell_currentOrCreate m x y z now
  rw [rankAt, cell_mark]
  split
  · next h =>
      rw [rankOf, Option.map_some, Option.getD_some, markedCell, stateRank_mergeState, hrank, h]
  · rfl

theorem marked_kept {s : CellState} {confidence : ℚ} {metadata : List (Str × Json)}
    {m : SharedMap} {x y z : Decimal} {owner : Owner} {now : ℚ} (id : Str) :
    rankAt m id ≤ rankAt (mark s confidence metadata m x y z owner now) id ∧
      ∀ t, (id, t) ∈ [(cellIdOf x y z, s)] →
        stateRank t ≤ rankAt (mark s confidence metadata m x y z owner now) id := by
  rw [rankAt_mark]
  refine ⟨?_, fun t ht => ?_⟩
  · split
    · exact le_max_left _ _
    · exact le_refl _
  · obtain ⟨rfl, rfl⟩ := Prod.mk.inj (List.mem_singleton.1 ht)
    rw [if_pos rfl]
    exact le_max_right _ _

/-! ### Merges -/

theorem state_resolve (c d : MapCell) : (resolve c d).state = (merged c d).state := by
  by_cases h : agree (merged c d) c
  · rw [resolve_of_agree h, h.1]
  · rw [resolve_of_not_agree h]

theorem state_merged (s c : MapCell) :
    (merged s (normalizeCell c)).state =
      if s.version < c.version then mergeState s.state c.state
      else if c.version = s.version ∧ s.lastSeenMs ≤ c.lastSeenMs then mergeState s.state c.state
      else s.state :=
  rfl

/-- A record raises the rank unless it meets a newer one. -/
theorem le_rank_absorb_iff {cur : Option MapCell} {c : MapCell} {k : ℕ} :
    k ≤ stateRank (absorb cur c).state ↔
      k ≤ rankOf cur ∨ k ≤ stateRank c.state ∧ ¬ Outdated cur c := by
  cases cur with
  | none =>
      simp only [absorb, normalizeCell_state, rankOf, Outdated]
      constructor
      · exact fun h => Or.inr ⟨h, by simp⟩
      · rintro (h | ⟨h, -⟩)
        · exact le_trans h (Nat.zero_le _)
        · exact h
  | some s =>
      simp only [absorb, state_resolve, state_merged, rankOf, Outdated, Option.map_some,
        Option.getD_some, Option.mem_some_iff, exists_eq_left', not_or, not_and, not_lt]
      by_cases hlt : s.version < c.version
      · rw [if_pos hlt, stateRank_mergeState, le_max_iff]
        refine or_congr_right (iff_self_and.2 fun _ => ⟨hlt.le, fun h => absurd h hlt.ne'⟩)
      · rw [if_neg hlt]
        by_cases heq : c.version = s.version
        · by_cases htime : s.lastSeenMs ≤ c.lastSeenMs
          · rw [if_pos ⟨heq, htime⟩, stateRank_mergeState, le_max_iff]
            exact or_congr_right (iff_self_and.2 fun _ => ⟨heq.ge, fun _ => htime⟩)
          · rw [if_neg fun h => htime h.2]
            exact ⟨Or.inl, fun h => h.elim id fun h => absurd (h.2.2 heq) htime⟩
        · rw [if_neg fun h => heq h.1]
          refine ⟨Or.inl, fun h => h.elim id fun h => ?_⟩
          exact absurd (lt_of_le_of_ne h.2.1 (Ne.symm heq)) hlt

theorem mergeCells_append (m : SharedMap) (cs : List MapCell) (c : MapCell) :
    mergeCells m (cs ++ [c]) = mergeCell (mergeCells m cs) c := by
  rw [mergeCells, List.foldl_append]
  rfl

/-- **Which ranks a merge reaches**: those stored already, and those of the records that do not meet
a newer one when their turn comes. -/
theorem le_rankAt_mergeCells_iff {m : SharedMap} {cs : List MapCell} {id : Str} {k : ℕ} :
    k ≤ rankAt (mergeCells m cs).1 id ↔
      k ≤ rankAt m id ∨ ∃ before c' after, cs = before ++ c' :: after ∧ c'.cellId = id ∧
        k ≤ stateRank c'.state ∧ ¬ Outdated ((mergeCells m before).1.cell id) c' := by
  induction cs using List.reverseRecOn with
  | nil => simp [mergeCells]
  | append_singleton cs c ih =>
      -- a split of the longer list is one of the shorter, or singles out the new record
      have hsplit : (∃ before c' after, cs ++ [c] = before ++ c' :: after ∧ c'.cellId = id ∧
          k ≤ stateRank c'.state ∧ ¬ Outdated ((mergeCells m before).1.cell id) c') ↔
          (∃ before c' after, cs = before ++ c' :: after ∧ c'.cellId = id ∧
            k ≤ stateRank c'.state ∧ ¬ Outdated ((mergeCells m before).1.cell id) c') ∨
          (c.cellId = id ∧ k ≤ stateRank c.state ∧
            ¬ Outdated ((mergeCells m cs).1.cell id) c) := by
        constructor
        · rintro ⟨before, c', after, hcs, h⟩
          cases after using List.reverseRecOn with
          | nil =>
              obtain ⟨rfl, rfl⟩ := List.append_singleton_inj.1 hcs
              exact Or.inr h
          | append_singleton after c'' =>
              rw [← List.cons_append, ← List.append_assoc] at hcs
              exact Or.inl ⟨before, c', after, (List.append_singleton_inj.1 hcs).1, h⟩
        · rintro (⟨before, c', after, rfl, h⟩ | h)
          · exact ⟨before, c', after ++ [c], by simp, h⟩
          · exact ⟨cs, c, [], rfl, h⟩
      rw [hsplit, ← or_assoc, ← ih, mergeCells_append, rankAt,
        ← Prod.mk.eta (p := mergeCells m cs), cell_mergeCell]
      by_cases hid : id = c.cellId
      · rw [if_pos hid, rankOf, Option.map_some, Option.getD_some, le_rank_absorb_iff]
        simp only [hid, rankAt, true_and]
      · rw [if_neg hid]
        exact ⟨Or.inl, fun h => h.resolve_right fun h => hid h.1.symm⟩

theorem merged_kept_iff {m : SharedMap} {cs : List MapCell} :
    (∀ id, rankAt m id ≤ rankAt (mergeCells m cs).1 id ∧
        ∀ s, (id, s) ∈ observed cs → stateRank s ≤ rankAt (mergeCells m cs).1 id) ↔
      Heard m cs := by
  constructor
  · intro h c hc
    exact le_rankAt_mergeCells_iff.1 ((h c.cellId).2 c.state (List.mem_map_of_mem hc))
  · intro h id
    refine ⟨le_rankAt_mergeCells_iff.2 (Or.inl (le_refl _)), fun s hs => ?_⟩
    obtain ⟨c, hc, hcs⟩ := List.mem_map.1 hs
    obtain ⟨rfl, rfl⟩ := Prod.mk.inj hcs
    exact le_rankAt_mergeCells_iff.2 (h c hc)

theorem rankAt_merge (m : SharedMap) (cs : List MapCell) (sourceVersion : ℚ) (id : Str) :
    rankAt (merge m cs sourceVersion).1 id = rankAt (mergeCells m cs).1 id := by
  rw [rankAt, cell_merge, rankAt]

theorem rankAt_upsert (m : SharedMap) (c : MapCell) (id : Str) :
    rankAt (upsert m c) id =
      if id = c.cellId then stateRank (absorb (m.cell id) c).state else rankAt m id := by
  rw [rankAt, cell_upsert]
  split <;> rfl

/-- **An operation keeps all knowledge exactly if no observation of a higher rank meets a newer
record.** -/
theorem knowledgeKept_iff (m : SharedMap) (op : MapOp) : KnowledgeKept m op ↔ op.Heard m := by
  cases op with
  | upsert c =>
      simp only [KnowledgeKept, MapOp.apply, MapOp.Heard, MapOp.observations, observed,
        List.map_singleton, rankAt_upsert]
      constructor
      · intro h
        have hc := (h c.cellId).2 c.state List.mem_cons_self
        rw [if_pos rfl, le_rank_absorb_iff] at hc
        exact hc.imp id And.right
      · intro h id
        refine ⟨?_, fun s hs => ?_⟩
        · split
          · exact le_rank_absorb_iff.2 (Or.inl (le_refl _))
          · exact le_refl _
        · obtain ⟨rfl, rfl⟩ := Prod.mk.inj (List.mem_singleton.1 hs)
          rw [if_pos rfl, le_rank_absorb_iff]
          exact h.imp id fun h => ⟨le_refl _, h⟩
  | merge remoteCells sourceVersion =>
      simp only [KnowledgeKept, MapOp.apply, MapOp.observations, rankAt_merge]
      exact merged_kept_iff
  | mergeSnapshot s =>
      simp only [KnowledgeKept, MapOp.apply, MapOp.observations, mergeSnapshot, rankAt_merge]
      exact merged_kept_iff
  | _ => exact iff_of_true (fun id => marked_kept id) trivial

/-! ### A sighting that is lost -/

/-- A node has marked a cell as seen twice, so its record has version 2. -/
def seenTwice : SharedMap :=
  markSeen (markSeen (new "m") 0 0 0 .undefined 1 ∅ 10) 0 0 0 .undefined 1 ∅ 20

/-- Another node has marked the same cell as a target once. -/
def targetOnce : SharedMap := markTarget (new "m") 0 0 0 .undefined "victim" 1 30

/-- **A target that another node has found is forgotten**: its record has the higher rank and is the
more recent one, but the lower version. -/
theorem target_sighting_lost :
    ¬ KnowledgeKept seenTwice (.mergeSnapshot (snapshot targetOnce 40)) := by
  intro h
  have htarget := (h (cellIdOf 0 0 0)).2 .target (by decide +kernel)
  exact absurd htarget (by decide +kernel)

end Tashi
