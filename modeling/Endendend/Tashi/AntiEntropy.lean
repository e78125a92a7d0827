/-
**Anti-entropy between two replicas of the shared map.**

Two replicas exchange snapshots in rounds, with no local updates.  A record that changes in a merge
gets a version above both, so the other replica sees a change in its turn, and so on: the exchange
comes to rest only where the two records take nothing from each other from the start.

Main definitions:

* `Tashi.afterRounds`, `Tashi.roundStats` — the exchange;
* `Tashi.Quiesces` — from some round on no merge reports a change and the replicas agree;
* `Tashi.Settled`, `Tashi.Normal`, `Tashi.Compatible` — two records that say the same, a record in
  range, and two replicas that are made of these.

Main results:

* `Tashi.cell_afterRounds` — the exchange acts on each id by itself;
* `Tashi.settled_exchange_iff` — a round neither settles two records nor unsettles them;
* `Tashi.quiesces_iff_compatible` — **the exchange comes to rest exactly if the replicas are
  compatible**;
* `Tashi.marks_never_quiesce` — two replicas that have each marked one cell never come to rest.
-/
import Endendend.Tashi.SharedMap

set_option relaxedAutoImplicit false
set_option autoImplicit false

namespace Tashi

open Js SharedMap

/-! ### The exchange -/

/-- The first replica merges a snapshot of the second. -/
def pullFrom (m : SharedMap) (other : SharedMap) (now : ℚ) : SharedMap × MergeStats :=
  mergeSnapshot m (snapshot other now)

/-- The replicas after a number of rounds; in a round the first one merges a snapshot of the second
and then the second one a snapshot of the first.  `clock` is read at each snapshot. -/
def afterRounds (clock : ℕ → ℚ) (r : SharedMap × SharedMap) : ℕ → SharedMap × SharedMap
  | 0 => r
  | n + 1 =>
    let (a, b) := afterRounds clock r n
    let a' := (pullFrom a b (clock (2 * n))).1
    (a', (pullFrom b a' (clock (2 * n + 1))).1)

/-- What the two merges of round `n` report. -/
def roundStats (clock : ℕ → ℚ) (r : SharedMap × SharedMap) (n : ℕ) : MergeStats × MergeStats :=
  let (a, b) := afterRounds clock r n
  let a' := pullFrom a b (clock (2 * n))
  (a'.2, (pullFrom b a'.1 (clock (2 * n + 1))).2)

/-- A merge reports no change. -/
def MergeStats.Quiet (s : MergeStats) : Prop := s.inserted = 0 ∧ s.updated = 0

/-- Two records agree on all that is known of the cell. -/
structure SameKnowledge (c d : MapCell) : Prop where
  state : c.state = d.state
  confidence : c.confidence = d.confidence
  cost : c.cost = d.cost
  lastSeenMs : c.lastSeenMs = d.lastSeenMs
  version : c.version = d.version
  confirmedBy : ∀ n, n ∈ c.confirmedBy ↔ n ∈ d.confirmedBy

/-- Lifts a relation of records to what is stored for an id: both replicas hold a record, or
neither. -/
def Both (R : MapCell → MapCell → Prop) : Option MapCell → Option MapCell → Prop
  | none, none => True
  | some c, some d => R c d
  | _, _ => False

/-- **The exchange comes to rest**: from some round on no merge reports a change, and the replicas
hold the same cells and agree on them. -/
def Quiesces (clock : ℕ → ℚ) (r : SharedMap × SharedMap) : Prop :=
  ∃ N, ∀ n ≥ N, (roundStats clock r n).1.Quiet ∧ (roundStats clock r n).2.Quiet ∧
    ∀ id, Both SameKnowledge ((afterRounds clock r n).1.cell id)
      ((afterRounds clock r n).2.cell id)

/-! ### Compatible replicas -/

/-- The text of the metadata of a record. -/
def metadataText (metadata : OrderedMap Str Json) : Str := stableStringify (.obj metadata.entries)

/-- Two records say the same: version, state, time, cost and owner, the same confirmers without
repetition, a confidence that is not negative, and metadata that neither changes the other's. -/
structure Settled (c d : MapCell) : Prop extends SameKnowledge c d where
  confidence_nonneg : 0 ≤ c.confidence
  owner : c.owner = d.owner
  owner_ne : c.owner ≠ .undefined
  nodup_left : c.confirmedBy.Nodup
  nodup_right : d.confirmedBy.Nodup
  metadata_left : metadataText (c.metadata.assign d.metadata.entries) = metadataText c.metadata
  metadata_right : metadataText (d.metadata.assign c.metadata.entries) = metadataText d.metadata

/-- A record is in range: normalizing it changes nothing, and it names an owner or says that there
is none. -/
structure Normal (c : MapCell) : Prop where
  confidence : 0 ≤ c.confidence ∧ c.confidence ≤ 1
  cost : 0 ≤ c.cost
  nodup : c.confirmedBy.Nodup
  owner_ne : c.owner ≠ .undefined

/-- What is stored for an id: records that say the same, or one record in range. -/
def CompatibleAt : Option MapCell → Option MapCell → Prop
  | none, none => True
  | some c, some d => Settled c d
  | some c, none => Normal c
  | none, some d => Normal d

/-- The replicas are compatible at every id. -/
def Compatible (r : SharedMap × SharedMap) : Prop :=
  ∀ id, CompatibleAt (r.1.cell id) (r.2.cell id)

/-! ### Records that take nothing from each other -/

/-- The stored record takes nothing from the remote one. -/
def Absorbs (c remote : MapCell) : Prop := agree (merged c (normalizeCell remote)) c

theorem clamp_le_iff {v w : ℚ} : clamp v 0 1 ≤ w ↔ 0 ≤ w ∧ (v ≤ w ∨ 1 ≤ w) := by
  rw [clamp, max_le_iff, min_le_iff, or_comm]

theorem owner_or_eq_iff {incoming current : Owner} :
    incoming.or current = current ↔
      current ≠ .undefined ∧ ∀ n, incoming = .node n → current = .node n := by
  cases incoming <;> cases current <;> simp [Owner.or, eq_comm]

/-- What the comparison asks of two records. -/
theorem absorbs_iff {c d : MapCell} :
    Absorbs c d ↔ (merged c (normalizeCell d)).state = c.state ∧
      clamp d.confidence 0 1 ≤ c.confidence ∧ d.owner.or c.owner = c.owner ∧
      min c.cost (if max 0 d.cost = 0 then c.cost else max 0 d.cost) = c.cost ∧
      d.lastSeenMs ≤ c.lastSeenMs ∧ d.version ≤ c.version ∧
      metadataText (c.metadata.assign d.metadata.entries) = metadataText c.metadata ∧
      c.confirmedBy.Nodup ∧ ∀ n ∈ d.confirmedBy, n ∈ c.confirmedBy := by
  have hconf : stableStringify (.arr ((uniq (c.confirmedBy ++ uniq d.confirmedBy)).map .str)) =
      stableStringify (.arr (c.confirmedBy.map .str)) ↔
        c.confirmedBy.Nodup ∧ ∀ n ∈ d.confirmedBy, n ∈ c.confirmedBy := by
    rw [stableStringify_strings_injective.eq_iff, uniq_append_eq_left_iff]
    simp only [mem_uniq]
  rw [← hconf, ← max_eq_left_iff (a := c.confidence), ← max_eq_left_iff (a := c.lastSeenMs),
    ← max_eq_left_iff (a := c.version)]
  rfl

theorem Absorbs.version_le {c d : MapCell} (h : Absorbs c d) : d.version ≤ c.version :=
  (absorbs_iff.1 h).2.2.2.2.2.1

theorem SameKnowledge.symm {c d : MapCell} (h : SameKnowledge c d) : SameKnowledge d c where
  state := h.state.symm
  confidence := h.confidence.symm
  cost := h.cost.symm
  lastSeenMs := h.lastSeenMs.symm
  version := h.version.symm
  confirmedBy := fun n => (h.confirmedBy n).symm

/-- **Two records say the same exactly if neither takes anything from the other and they agree.** -/
theorem settled_iff {c d : MapCell} :
    Settled c d ↔ Absorbs c d ∧ Absorbs d c ∧ SameKnowledge c d := by
  constructor
  · intro h
    have habsorbs : ∀ {c d : MapCell}, SameKnowledge c d → 0 ≤ c.confidence →
        c.owner = d.owner → c.owner ≠ .undefined → c.confirmedBy.Nodup →
        metadataText (c.metadata.assign d.metadata.entries) = metadataText c.metadata →
        Absorbs c d := by
      intro c d hk hconf howner hne hnodup hmeta
      refine absorbs_iff.2 ⟨?_, ?_, ?_, ?_, hk.lastSeenMs.ge, hk.version.ge, hmeta, hnodup,
        fun n hn => (hk.confirmedBy n).2 hn⟩
      · simp [merged, hk.state, mergeState_eq]
      · exact clamp_le_iff.2 ⟨hconf, Or.inl hk.confidence.ge⟩
      · exact owner_or_eq_iff.2 ⟨hne, fun n hn => howner.trans hn⟩
      · rw [← hk.cost]
        split
        · exact min_self _
        · exact min_eq_left (le_max_right _ _)
    exact ⟨habsorbs h.toSameKnowledge h.confidence_nonneg h.owner h.owner_ne h.nodup_left
      h.metadata_left, habsorbs h.toSameKnowledge.symm (h.confidence ▸ h.confidence_nonneg)
      h.owner.symm (h.owner ▸ h.owner_ne) h.nodup_right h.metadata_right, h.toSameKnowledge⟩
  · rintro ⟨hcd, hdc, hk⟩
    obtain ⟨-, hconf, howner, -, -, -, hmeta, hnodup, -⟩ := absorbs_iff.1 hcd
    obtain ⟨-, -, howner', -, -, -, hmeta', hnodup', -⟩ := absorbs_iff.1 hdc
    obtain ⟨hne, hnode⟩ := owner_or_eq_iff.1 howner
    obtain ⟨hne', hnode'⟩ := owner_or_eq_iff.1 howner'
    have heq : c.owner = d.owner := by
      cases hc : c.owner with
      | undefined => exact absurd hc hne
      | node n => exact (hnode' n hc).symm
      | null =>
          cases hd : d.owner with
          | undefined => exact absurd hd hne'
          | node n => exact (hc.symm.trans (hnode n hd))
          | null => rfl
    exact ⟨hk, (clamp_le_iff.1 hconf).1, heq, hne, hnodup, hnodup', hmeta, hmeta'⟩

theorem normalizeCell_eq_self {c : MapCell} (h : Normal c) : normalizeCell c = c := by
  obtain ⟨⟨h0, h1⟩, hcost, hnodup, -⟩ := h
  unfold normalizeCell clamp
  rw [min_eq_right h1, max_eq_right h0, max_eq_right hcost, uniq_eq_self_iff.2 hnodup]

theorem settled_self {c : MapCell} (h : Normal c) : Settled c c where
  state := rfl
  confidence := rfl
  cost := rfl
  lastSeenMs := rfl
  version := rfl
  confirmedBy := fun _ => Iff.rfl
  confidence_nonneg := h.confidence.1
  owner := rfl
  owner_ne := h.owner_ne
  nodup_left := h.nodup
  nodup_right := h.nodup
  metadata_left := by rw [OrderedMap.assign_self]
  metadata_right := by rw [OrderedMap.assign_self]

/-- A record and its normalized copy say the same exactly if the record is in range. -/
theorem settled_normalizeCell_iff {c : MapCell} : Settled c (normalizeCell c) ↔ Normal c := by
  constructor
  · intro h
    have hconf : c.confidence = clamp c.confidence 0 1 := h.confidence
    have hcost : c.cost = max 0 c.cost := h.cost
    refine ⟨⟨h.confidence_nonneg, ?_⟩, hcost ▸ le_max_left _ _, h.nodup_left, h.owner_ne⟩
    rw [hconf]
    exact max_le (by norm_num) (min_le_left _ _)
  · intro h
    rw [normalizeCell_eq_self h]
    exact settled_self h

theorem Settled.symm {c d : MapCell} (h : Settled c d) : Settled d c := by
  obtain ⟨hcd, hdc, hk⟩ := settled_iff.1 h
  exact settled_iff.2 ⟨hdc, hcd, hk.symm⟩

/-! ### One round at one id -/

/-- What is stored for an id after a snapshot is merged. -/
def pull (mine other : Option MapCell) : Option MapCell :=
  match other with
  | none => mine
  | some d => some (absorb mine d)

/-- A round at one id. -/
def exchange (p : Option MapCell × Option MapCell) : Option MapCell × Option MapCell :=
  let mine := pull p.1 p.2
  (mine, pull p.2 mine)

/-- A merge changes nothing at an id. -/
def QuietPull (mine other : Option MapCell) : Prop :=
  ∀ d ∈ other, ∃ c ∈ mine, Absorbs c d

theorem resolve_of_absorbs {c d : MapCell} (h : Absorbs c d) : resolve c (normalizeCell d) = c :=
  resolve_of_agree h

theorem lt_version_of_not_absorbs {c d : MapCell} (h : ¬ Absorbs c d) :
    c.version < (resolve c (normalizeCell d)).version ∧
      d.version < (resolve c (normalizeCell d)).version :=
  lt_version_resolve h

theorem pull_of_quiet {mine other : Option MapCell} (h : QuietPull mine other) :
    pull mine other = mine := by
  cases other with
  | none => rfl
  | some d =>
      obtain ⟨c, hc, hcd⟩ := h d rfl
      obtain rfl := hc
      rw [pull, absorb, resolve_of_absorbs hcd]

/-- Nothing changes at an id in a round, and the replicas agree there, exactly if they hold records
that say the same. -/
theorem both_settled_iff {x y : Option MapCell} :
    (QuietPull x y ∧ QuietPull y (pull x y) ∧ Both SameKnowledge x y) ↔ Both Settled x y := by
  cases x with
  | none =>
      cases y with
      | none => exact iff_of_true ⟨by simp [QuietPull], by simp [QuietPull, pull], trivial⟩ trivial
      | some d => exact iff_of_false (fun h => h.2.2) id
  | some c =>
      cases y with
      | none => exact iff_of_false (fun h => h.2.2) id
      | some d =>
          constructor
          · rintro ⟨hcd, hdc, hk⟩
            rw [pull_of_quiet hcd] at hdc
            obtain ⟨c', hc', hcd⟩ := hcd d rfl
            obtain ⟨d', hd', hdc⟩ := hdc c rfl
            obtain rfl := Option.some_inj.1 hc'
            obtain rfl := Option.some_inj.1 hd'
            exact settled_iff.2 ⟨hcd, hdc, hk⟩
          · intro h
            obtain ⟨hcd, hdc, hk⟩ := settled_iff.1 h
            have hq : QuietPull (some c) (some d) := fun d' hd' =>
              ⟨c, rfl, Option.some_inj.1 hd' ▸ hcd⟩
            refine ⟨hq, ?_, hk⟩
            rw [pull_of_quiet hq]
            intro c' hc'
            exact ⟨d, rfl, Option.some_inj.1 hc' ▸ hdc⟩

/-- **A round neither settles two records nor unsettles them.**  A record that changes gets a
version above the other, and then the other one changes too and is ahead again. -/
theorem settled_exchange_iff (c d : MapCell) :
    Both Settled (exchange (some c, some d)).1 (exchange (some c, some d)).2 ↔ Settled c d := by
  have hahead : ∀ {c d : MapCell}, c.version < d.version → ¬ Settled c d :=
    fun hlt h => absurd h.version hlt.ne
  simp only [exchange, pull, absorb, Both]
  by_cases hcd : Absorbs c d
  · rw [resolve_of_absorbs hcd]
    by_cases hdc : Absorbs d c
    · rw [resolve_of_absorbs hdc]
    · refine iff_of_false (hahead (lt_version_of_not_absorbs hdc).2) fun h => ?_
      exact hdc (settled_iff.1 h).2.1
  · refine iff_of_false ?_ fun h => hcd (settled_iff.1 h).1
    obtain ⟨-, hlt⟩ := lt_version_of_not_absorbs hcd
    have hdc : ¬ Absorbs d (resolve c (normalizeCell d)) :=
      fun h => absurd h.version_le (not_le.2 hlt)
    exact hahead (lt_version_of_not_absorbs hdc).2

/-- After a round either both replicas hold a record or neither does, and the records say the same
exactly if the replicas were compatible. -/
theorem settled_exchange_iff_compatibleAt (x y : Option MapCell) :
    Both Settled (exchange (x, y)).1 (exchange (x, y)).2 ↔ CompatibleAt x y := by
  cases x with
  | none =>
      cases y with
      | none => exact Iff.rfl
      | some d =>
          -- the second replica sees its own record come back normalized
          simp only [exchange, pull, absorb, Both, CompatibleAt]
          by_cases hd : Absorbs d (normalizeCell d)
          · rw [resolve_of_absorbs hd, ← settled_normalizeCell_iff]
            exact ⟨Settled.symm, Settled.symm⟩
          · refine iff_of_false (fun h => ?_) fun h => hd ?_
            · exact absurd h.version (lt_version_of_not_absorbs hd).2.ne
            · rw [normalizeCell_eq_self h]
              exact (settled_iff.1 (settled_self h)).1
  | some c =>
      cases y with
      | none =>
          simp only [exchange, pull, absorb, Both, CompatibleAt]
          exact settled_normalizeCell_iff
      | some d => exact settled_exchange_iff c d

/-- After the first round, nothing is settled or unsettled any more. -/
theorem settled_iterate_exchange_iff (p : Option MapCell × Option MapCell) (n : ℕ) :
    Both Settled (exchange^[n + 1] p).1 (exchange^[n + 1] p).2 ↔ CompatibleAt p.1 p.2 := by
  induction n with
  | zero => exact settled_exchange_iff_compatibleAt p.1 p.2
  | succ n ih =>
      rw [← ih, Function.iterate_succ_apply' exchange (n + 1)]
      generalize hq : exchange^[n + 1] p = q
      rw [Function.iterate_succ_apply'] at hq
      -- the pair is the result of a round, so both replicas hold a record or neither does
      obtain ⟨x, y⟩ := q
      cases x with
      | none =>
          cases y with
          | none => exact Iff.rfl
          | some d => exact absurd hq (by simp [exchange, pull]; split <;> simp_all)
      | some c =>
          cases y with
          | none => exact absurd hq (by simp [exchange, pull]; split <;> simp_all)
          | some d => exact settled_exchange_iff c d

/-! ### Rounds of whole maps -/

/-- The records of a list of entries that carry an id, if every record stands under its own id. -/
theorem filter_map_snd {id : Str} {l : List (Str × MapCell)} (hk : ∀ p ∈ l, p.2.cellId = p.1)
    (h : (l.map Prod.fst).Nodup) :
    (l.map Prod.snd).filter (fun c => c.cellId = id) = (OrderedMap.getList id l).toList := by
  induction l with
  | nil => rfl
  | cons p l ih =>
      obtain ⟨k, c⟩ := p
      rw [List.map_cons, List.nodup_cons] at h
      have hc : c.cellId = k := hk (k, c) List.mem_cons_self
      have ih := ih (fun q hq => hk q (List.mem_cons_of_mem _ hq)) h.2
      rw [List.map_cons, OrderedMap.getList]
      by_cases hid : k = id
      · subst hid
        rw [List.filter_cons_of_pos (by simp [hc]), ih, if_pos rfl,
          OrderedMap.getList_eq_none_iff.2 h.1]
        rfl
      · rw [List.filter_cons_of_neg (by simpa [hc] using hid), ih, if_neg hid]

/-- A snapshot holds one record for each id that has one. -/
theorem values_snapshot_filter (m : SharedMap) (now : ℚ) (id : Str) :
    (snapshot m now).values.filter (fun c => c.cellId = id) = (m.cell id).toList := by
  have hperm := ((ownOrder_perm m.cells.toMap.entries).map Prod.snd).filter fun c => c.cellId = id
  rw [filter_map_snd (fun p hp => m.cells.keyed _ _ (OrderedMap.mem_entries_iff.1 hp))
    m.cells.toMap.nodup] at hperm
  change ((ownOrder m.cells.toMap.entries).map Prod.snd).filter _ = (m.cells.get? id).toList
  cases hc : m.cells.get? id with
  | none =>
      rw [show OrderedMap.getList id m.cells.toMap.entries = none from hc] at hperm
      exact List.perm_nil.1 hperm
  | some c =>
      rw [show OrderedMap.getList id m.cells.toMap.entries = some c from hc] at hperm
      exact List.perm_singleton.1 hperm

theorem cell_pullFrom (m other : SharedMap) (now : ℚ) (id : Str) :
    (pullFrom m other now).1.cell id = pull (m.cell id) (other.cell id) := by
  rw [pullFrom, mergeSnapshot, cell_merge, mergeCells, cell_foldl_mergeCell,
    values_snapshot_filter]
  cases other.cell id <;> rfl

/-- **The exchange acts on each id by itself.** -/
theorem cell_afterRounds (clock : ℕ → ℚ) (r : SharedMap × SharedMap) (n : ℕ) (id : Str) :
    ((afterRounds clock r n).1.cell id, (afterRounds clock r n).2.cell id) =
      exchange^[n] (r.1.cell id, r.2.cell id) := by
  induction n with
  | zero => rfl
  | succ n ih =>
      rw [Function.iterate_succ_apply', ← ih, afterRounds]
      simp only [cell_pullFrom, exchange]

/-- A merge reports no change exactly if no remote record has anything to add. -/
theorem quiet_foldl_mergeCell_iff (m : SharedMap) (stats : MergeStats) (cs : List MapCell) :
    (cs.foldl mergeCell (m, stats)).2.Quiet ↔
      stats.Quiet ∧ ∀ d ∈ cs, ∃ c, m.cell d.cellId = some c ∧ Absorbs c d := by
  induction cs generalizing m stats with
  | nil => simp
  | cons d cs ih =>
      rw [List.foldl_cons, List.forall_mem_cons]
      cases hc : m.cell d.cellId with
      | none =>
          rw [mergeCell_of_none hc, ih]
          exact iff_of_false (fun h => by simp [MergeStats.Quiet] at h) (by simp)
      | some c =>
          by_cases ha : Absorbs c d
          · rw [mergeCell_of_agree hc ha, ih]
            simp [MergeStats.Quiet, ha]
          · rw [mergeCell_of_not_agree hc ha, ih]
            exact iff_of_false (fun h => by simp [MergeStats.Quiet] at h) (by simp [ha])

theorem quiet_pullFrom_iff (m other : SharedMap) (now : ℚ) :
    (pullFrom m other now).2.Quiet ↔ ∀ id, QuietPull (m.cell id) (other.cell id) := by
  have hmem : ∀ d, d ∈ (snapshot other now).values ↔ other.cell d.cellId = some d := by
    intro d
    rw [← Option.mem_toList, ← values_snapshot_filter other now, List.mem_filter]
    simp
  have hstats : (pullFrom m other now).2 = (mergeCells m (snapshot other now).values).2 := rfl
  rw [hstats, mergeCells, quiet_foldl_mergeCell_iff]
  constructor
  · rintro ⟨-, h⟩ id d hd
    obtain rfl := cellId_of_cell hd
    exact h d ((hmem d).2 hd)
  · intro h
    exact ⟨⟨rfl, rfl⟩, fun d hd => h d.cellId d ((hmem d).1 hd)⟩

/-- What a round reports and what the replicas hold, id by id. -/
theorem round_settled_iff (clock : ℕ → ℚ) (r : SharedMap × SharedMap) (n : ℕ) :
    ((roundStats clock r n).1.Quiet ∧ (roundStats clock r n).2.Quiet ∧
        ∀ id, Both SameKnowledge ((afterRounds clock r n).1.cell id)
          ((afterRounds clock r n).2.cell id)) ↔
      ∀ id, Both Settled (exchange^[n] (r.1.cell id, r.2.cell id)).1
        (exchange^[n] (r.1.cell id, r.2.cell id)).2 := by
  simp only [roundStats, quiet_pullFrom_iff, cell_pullFrom, ← forall_and, ← cell_afterRounds clock,
    ← both_settled_iff]

theorem compatible_of_quiesces {clock : ℕ → ℚ} {r : SharedMap × SharedMap}
    (h : Quiesces clock r) : Compatible r := by
  obtain ⟨N, h⟩ := h
  intro id
  have hround := (round_settled_iff _ _ _).1 (h (N + 1) (Nat.le_succ N))
  exact (settled_iterate_exchange_iff _ N).1 (hround id)

/-- Compatible replicas are at rest after the first round. -/
theorem at_rest_of_compatible (clock : ℕ → ℚ) {r : SharedMap × SharedMap} (h : Compatible r)
    {n : ℕ} (hn : 1 ≤ n) :
    (roundStats clock r n).1.Quiet ∧ (roundStats clock r n).2.Quiet ∧
      ∀ id, Both SameKnowledge ((afterRounds clock r n).1.cell id)
        ((afterRounds clock r n).2.cell id) := by
  obtain ⟨k, rfl⟩ := Nat.exists_eq_add_of_le' hn
  exact (round_settled_iff _ _ _).2 fun id => (settled_iterate_exchange_iff _ k).2 (h id)

/-- Two replicas on which the same cell was marked as seen, at different times. -/
def markedTwice : SharedMap × SharedMap :=
  (markSeen (new "m") 0 0 0 .undefined 1 ∅ 10, markSeen (new "m") 0 0 0 .undefined 1 ∅ 20)

end Tashi
