/-
**When two sides that exchange their snapshots agree** (`store/chainManager.ts`).

Each side merges the snapshot of the other one into its own.  The records of the drones meet in
registers that keep the newest record, the explorers are compared by their depth and then by their
id.  Both do not depend on the side, apart from two corners: a side that lists a drone twice counts
its own last record, and a candidate without an id counts as a drone at depth `-1`.

The two chains do depend on the side: a side keeps its own chain unless the other one is both newer
and at least as long, and it keeps its own shadow chain if that is at least as long.

Main definitions:

* `P2p.SwarmStatePayload.NewestLast` — a drone that is newer here than there ends with its newest
  record;
* `P2p.ExplorerDecided`, `P2p.ChainDecided`, `P2p.ShadowDecided` — the conditions for the other
  parts.

Main results:

* `P2p.get?_combine` — the merged record of a drone is a register's;
* `P2p.mergeExplorer_comm_iff` — when the choice of the explorer does not depend on the side;
* `P2p.sameView_conditions` — when the parts of the two merges agree.
-/
import Endendend.P2p.ChainManager
import Endendend.Foundation.LastWriter

set_option relaxedAutoImplicit false
set_option autoImplicit false

namespace P2p

open Js LastWriter

/-! ### The records of a drone -/

/-- The records of a drone in a list. -/
def recordsOf (id : Str) (drones : List SwarmDrone) : List SwarmDrone :=
  drones.filter fun d => decide (d.id = id)

theorem mem_recordsOf {id : Str} {drones : List SwarmDrone} {d : SwarmDrone} :
    d ∈ recordsOf id drones ↔ d ∈ drones ∧ d.id = id := by
  rw [recordsOf, List.mem_filter, decide_eq_true_iff]

/-- A list that is put into a map leaves the last record of each drone. -/
theorem get?_foldl_put (l : List SwarmDrone) (m : Drones) (id : Str) :
    (l.foldl KeyedMap.put m).get? id = (recordsOf id l).getLast?.or (m.get? id) := by
  induction l generalizing m with
  | nil => rfl
  | cons d l ih =>
      rw [List.foldl_cons, ih, KeyedMap.get?_put, recordsOf, recordsOf, List.filter_cons]
      by_cases hid : d.id = id
      · subst hid
        rw [if_pos rfl, decide_eq_true rfl, if_pos rfl, List.getLast?_cons]
        cases (l.filter fun e => decide (e.id = d.id)).getLast? <;> rfl
      · rw [if_neg (Ne.symm hid), decide_eq_false hid, if_neg Bool.false_ne_true]

/-- The newer records of a list go through the register of each drone. -/
theorem get?_foldl_takeNewer (l : List SwarmDrone) (m : Drones) (id : Str) :
    (l.foldl takeNewer m).get? id =
      register SwarmDrone.timestamp (fun _ => false) (fun d => d) (m.get? id) (recordsOf id l) := by
  induction l generalizing m with
  | nil => rfl
  | cons d l ih =>
      rw [List.foldl_cons, ih, recordsOf, recordsOf, List.filter_cons]
      by_cases hid : d.id = id
      · subst hid
        rw [decide_eq_true rfl, if_pos rfl, register_cons]
        congr 1
        unfold takeNewer
        cases hget : m.get? d.id with
        | none => simp [offer]
        | some cur =>
            by_cases hlt : cur.timestamp < d.timestamp
            · simp [hlt, offer]
            · simp [hlt, offer, hget]
      · rw [decide_eq_false hid, if_neg Bool.false_ne_true]
        congr 1
        unfold takeNewer
        split
        · rw [KeyedMap.get?_put, if_neg (Ne.symm hid)]
        · rfl

/-- **The merged record of a drone**: the own last one, unless the other side has a newer one. -/
theorem get?_combine (own remote : List SwarmDrone) (id : Str) :
    (combine own remote).get? id =
      register SwarmDrone.timestamp (fun _ => false) (fun d => d) (recordsOf id own).getLast?
        (recordsOf id remote) := by
  rw [combine, get?_foldl_takeNewer, get?_foldl_put, KeyedMap.get?_empty, Option.or_none]

/-- A merged record is the own last one or one of the other side, and the newest of these. -/
theorem latest_combine {own remote : List SwarmDrone} {id : Str} {w : SwarmDrone}
    (h : (combine own remote).get? id = some w) :
    Latest SwarmDrone.timestamp
      {d | d ∈ (recordsOf id own).getLast? ∨ d ∈ recordsOf id remote} w := by
  rw [get?_combine] at h
  have hlatest := latest_register h
  rwa [List.map_id'] at hlatest

theorem isSome_combine {own remote : List SwarmDrone} {id : Str} :
    ((combine own remote).get? id).isSome ↔ ∃ d, (d ∈ own ∨ d ∈ remote) ∧ d.id = id := by
  constructor
  · intro h
    obtain ⟨w, hw⟩ := Option.isSome_iff_exists.1 h
    rcases (latest_combine hw).1 with hlast | hmem
    · obtain ⟨hmem, hid⟩ := mem_recordsOf.1 (List.mem_of_getLast? hlast)
      exact ⟨w, Or.inl hmem, hid⟩
    · obtain ⟨hmem, hid⟩ := mem_recordsOf.1 hmem
      exact ⟨w, Or.inr hmem, hid⟩
  · rintro ⟨d, hd | hd, hid⟩
    · rw [get?_combine]
      refine isSome_register (Or.inl (List.getLast?_isSome.2 ?_))
      exact List.ne_nil_of_mem (mem_recordsOf.2 ⟨hd, hid⟩)
    · rw [get?_combine]
      exact isSome_register (Or.inr (List.ne_nil_of_mem (mem_recordsOf.2 ⟨hd, hid⟩)))

/-! ### The conditions -/

namespace SwarmStatePayload

variable (a b : SwarmStatePayload)

/-- A drone of one snapshot that is newer than everything the other one has of it ends with its
newest record.  So it is when no drone is listed twice. -/
def NewestLast : Prop :=
  ∀ d ∈ a.drones, (∀ e ∈ b.drones, e.id = d.id → e.timestamp < d.timestamp) →
    ∀ l ∈ (recordsOf d.id a.drones).getLast?, d.timestamp ≤ l.timestamp

/-- The explorer is null or a drone of the snapshot. -/
def OwnExplorer : Prop := ∀ x, a.explorerId = some x → ∃ d ∈ a.drones, d.id = x

/-- Records with the same id and the same time are the same. -/
def SameRecords : Prop :=
  ∀ d ∈ a.drones ++ b.drones, ∀ e ∈ a.drones ++ b.drones,
    d.id = e.id → d.timestamp = e.timestamp → d = e

end SwarmStatePayload

/-- The choice between two explorers does not depend on the side: they are the same, or each that is
missing or empty meets one that is deeper than `-1`. -/
def ExplorerDecided (drones : Drones) (x y : Option Str) : Prop :=
  x = y ∨ ((present x).isSome ∨ -1 < depthOf y drones) ∧
    ((present y).isSome ∨ -1 < depthOf x drones)

/-- The choice between two chains does not depend on the side: they are the same, or the newer one
is at least as long. -/
def ChainDecided (a b : SwarmStatePayload) : Prop :=
  a.chain = b.chain ∨ a.savedAt < b.savedAt ∧ a.chain.length ≤ b.chain.length ∨
    b.savedAt < a.savedAt ∧ b.chain.length ≤ a.chain.length

/-- The choice between two shadow chains does not depend on the side: they are the same, or one of
them is longer. -/
def ShadowDecided (a b : SwarmStatePayload) : Prop :=
  a.shadowChain = b.shadowChain ∨ a.shadowChain.length ≠ b.shadowChain.length

/-! ### Drones -/

section Drones

variable {a b : SwarmStatePayload}

/-- The side that merges has a record as new as the other side's merge. -/
theorem timestamp_le_of_newestLast {id : Str} {w u : SwarmDrone} (h : a.NewestLast b)
    (hw : (combine a.drones b.drones).get? id = some w)
    (hu : (combine b.drones a.drones).get? id = some u) : u.timestamp ≤ w.timestamp := by
  have hle := (latest_combine hw).2
  rcases (latest_combine hu).1 with hlast | hmem
  · exact hle u (Or.inr (List.mem_of_getLast? hlast))
  · obtain ⟨hmema, rfl⟩ := mem_recordsOf.1 hmem
    -- either the record is newer than all of the other side, and the last own one is as new
    by_cases hnew : ∀ e ∈ b.drones, e.id = u.id → e.timestamp < u.timestamp
    · obtain ⟨l, hl⟩ := Option.isSome_iff_exists.1 (List.getLast?_isSome.2
        (List.ne_nil_of_mem hmem))
      exact (h u hmema hnew l hl).trans (hle l (Or.inl hl))
    · push Not at hnew
      obtain ⟨e, he, hid, hlt⟩ := hnew
      exact hlt.trans (hle e (Or.inr (mem_recordsOf.2 ⟨he, hid⟩)))

/-- A merge that agrees with the other side's counts the newest record. -/
theorem newestLast_of_get? (h : ∀ id, (combine a.drones b.drones).get? id =
    (combine b.drones a.drones).get? id) : a.NewestLast b := by
  intro d hd hnew l hl
  obtain ⟨w, hw⟩ := Option.isSome_iff_exists.1 (isSome_combine.2 ⟨d, Or.inr hd, rfl⟩ :
    ((combine b.drones a.drones).get? d.id).isSome)
  have hdw : d.timestamp ≤ w.timestamp :=
    (latest_combine hw).2 d (Or.inr (mem_recordsOf.2 ⟨hd, rfl⟩))
  rcases (latest_combine ((h d.id).trans hw)).1 with hlast | hmem
  · rw [Option.mem_unique hl hlast]
    exact hdw
  · obtain ⟨hmem, hid⟩ := mem_recordsOf.1 hmem
    exact absurd (hnew w hmem hid) (not_lt.2 hdw)

theorem mem_drones_of_get?_combine {own remote : List SwarmDrone} {id : Str} {w : SwarmDrone}
    (h : (combine own remote).get? id = some w) : (w ∈ own ∨ w ∈ remote) ∧ w.id = id := by
  rcases (latest_combine h).1 with hlast | hmem
  · have hmem := mem_recordsOf.1 (List.mem_of_getLast? hlast)
    exact ⟨Or.inl hmem.1, hmem.2⟩
  · have hmem := mem_recordsOf.1 hmem
    exact ⟨Or.inr hmem.1, hmem.2⟩

/-- **The two maps of records agree** exactly if no side hides a newest record of its own. -/
theorem combine_comm_iff (hsame : a.SameRecords b) :
    (∀ id, (combine a.drones b.drones).get? id = (combine b.drones a.drones).get? id) ↔
      a.NewestLast b ∧ b.NewestLast a := by
  constructor
  · intro h
    exact ⟨newestLast_of_get? h, newestLast_of_get? fun id => (h id).symm⟩
  · rintro ⟨hab, hba⟩ id
    cases hw : (combine a.drones b.drones).get? id with
    | none =>
        symm
        rw [← Option.not_isSome_iff_eq_none, isSome_combine]
        rw [← Option.not_isSome_iff_eq_none, isSome_combine] at hw
        rintro ⟨d, hd, hid⟩
        exact hw ⟨d, hd.symm, hid⟩
    | some w =>
        -- both records are of one time, and then they are the same
        obtain ⟨hmem, hid⟩ := mem_drones_of_get?_combine hw
        obtain ⟨u, hu⟩ := Option.isSome_iff_exists.1 (isSome_combine.2 ⟨w, hmem.symm, hid⟩ :
          ((combine b.drones a.drones).get? id).isSome)
        obtain ⟨hmemu, hidu⟩ := mem_drones_of_get?_combine hu
        have htime : w.timestamp = u.timestamp :=
          le_antisymm (timestamp_le_of_newestLast hba hu hw) (timestamp_le_of_newestLast hab hw hu)
        rw [hu, hsame w (List.mem_append.2 hmem) u (List.mem_append.2 hmemu.symm)
          (hid.trans hidu.symm) htime]

/-- Two maps list the same records exactly if they agree. -/
theorem values_eq_iff {m n : Drones} : (∀ d, d ∈ m.values ↔ d ∈ n.values) ↔
    ∀ id, m.get? id = n.get? id := by
  simp only [KeyedMap.mem_values_iff]
  constructor
  · intro h id
    refine Option.ext fun d => ?_
    constructor
    · intro hd
      have hid : d.id = id := KeyedMap.key_of_get? hd
      exact hid ▸ (h d).1 (hid ▸ hd)
    · intro hd
      have hid : d.id = id := KeyedMap.key_of_get? hd
      exact hid ▸ (h d).2 (hid ▸ hd)
  · intro h d
    rw [h d.id]

end Drones

/-! ### Explorers -/

section Explorers

variable {drones : Drones} {x y : Option Str}

theorem depthOf_of_absent (h : present x = none) : depthOf x drones = -1 := by
  rw [depthOf, h]
  rfl

theorem getD_of_absent (h : present x = none) : x.getD [] = [] := by
  cases x with
  | none => rfl
  | some p => simpa [present] using h

theorem depthOf_congr {m n : Drones} (h : ∀ id, m.get? id = n.get? id) (o : Option Str) :
    depthOf o m = depthOf o n := by
  rw [depthOf, depthOf, funext h]

/-- The choice looks at the depths alone. -/
theorem mergeExplorer_congr {m n : Drones} (h : ∀ id, m.get? id = n.get? id) :
    mergeExplorer m x y = mergeExplorer n x y := by
  have hout : ∀ r, Outranks m r x ↔ Outranks n r x := fun r => by
    rw [Outranks, Outranks, depthOf_congr h, depthOf_congr h]
  unfold mergeExplorer
  cases present y with
  | none => rfl
  | some r => exact if_congr (and_congr_right' (hout r)) rfl rfl

/-- An explorer that meets none is chosen on both sides if it is deep enough. -/
theorem mergeExplorer_absent_iff {r : Str} (hx : present x = none) (hy : present y = some r) :
    mergeExplorer drones x y = mergeExplorer drones y x ↔ -1 < depthOf y drones := by
  obtain ⟨rfl, hr⟩ := present_eq_some_iff.1 hy
  have hne : some r ≠ x := by
    rintro rfl
    rw [hy] at hx
    cases hx
  have hout : Outranks drones r x ↔ -1 < depthOf (some r) drones := by
    rw [Outranks, depthOf_of_absent hx, getD_of_absent hx, or_iff_left]
    exact fun h => absurd h.2 (List.not_lt_nil r)
  rw [mergeExplorer, mergeExplorer, hx, hy]
  dsimp only
  split_ifs with h
  · exact iff_of_true rfl (hout.1 h.2)
  · exact iff_of_false (Ne.symm hne) fun hdeep => h ⟨hne, hout.2 hdeep⟩

/-- Exactly one of two explorers comes before the other. -/
theorem outranks_iff_not (drones : Drones) {p q : Str} (h : p ≠ q) :
    Outranks drones q (some p) ↔ ¬ Outranks drones p (some q) := by
  rw [Outranks, Outranks, Option.getD_some, Option.getD_some]
  rcases lt_trichotomy (depthOf (some p) drones) (depthOf (some q) drones) with hd | hd | hd
  · simp [hd, hd.ne, not_lt.2 hd.le]
  · rcases lt_trichotomy p q with hlt | heq | hlt
    · simp [hd, hlt, not_lt.2 hlt.le]
    · exact absurd heq h
    · simp [hd, hlt, not_lt.2 hlt.le]
  · simp [hd, hd.ne, not_lt.2 hd.le]

/-- **When the choice of the explorer does not depend on the side.** -/
theorem mergeExplorer_comm_iff :
    mergeExplorer drones x y = mergeExplorer drones y x ↔ ExplorerDecided drones x y := by
  by_cases hxy : x = y
  · subst hxy
    exact iff_of_true rfl (Or.inl rfl)
  rw [ExplorerDecided, or_iff_right hxy]
  cases hx : present x with
  | none =>
      cases hy : present y with
      | none =>
          rw [mergeExplorer, mergeExplorer, hx, hy, depthOf_of_absent hy]
          exact iff_of_false hxy fun h => h.1.elim Bool.noConfusion (lt_irrefl _)
      | some q =>
          rw [mergeExplorer_absent_iff hx hy]
          simp
  | some p =>
      cases hy : present y with
      | none =>
          rw [eq_comm, mergeExplorer_absent_iff hy hx]
          simp
      | some q =>
          obtain ⟨rfl, hp⟩ := present_eq_some_iff.1 hx
          obtain ⟨rfl, hq⟩ := present_eq_some_iff.1 hy
          refine iff_of_true ?_ ⟨Or.inl rfl, Or.inl rfl⟩
          have hpq : p ≠ q := fun h => hxy (congrArg some h)
          rw [mergeExplorer, mergeExplorer, hx, hy]
          dsimp only
          -- so one of the two sides takes over the explorer of the other
          have hex := outranks_iff_not drones hpq
          have hne : some q ≠ some p := fun h => hpq (Option.some_inj.1 h).symm
          by_cases h : Outranks drones p (some q)
          · rw [if_neg fun hq => hex.1 hq.2 h, if_pos ⟨hne.symm, h⟩]
          · rw [if_pos ⟨hne, hex.2 h⟩, if_neg fun hp => h hp.2]

theorem mergeExplorer_cases : mergeExplorer drones x y = x ∨ mergeExplorer drones x y = y := by
  unfold mergeExplorer
  cases hy : present y with
  | none => exact Or.inl rfl
  | some r =>
      dsimp only
      split_ifs
      · exact Or.inr (present_eq_some_iff.1 hy).1.symm
      · exact Or.inl rfl

/-- **No candidate with an id is deeper than the chosen explorer.** -/
theorem depthOf_le_mergeExplorer {o : Option Str} (ho : o = x ∨ o = y)
    (hpresent : (present o).isSome) :
    depthOf o drones ≤ depthOf (mergeExplorer drones x y) drones := by
  unfold mergeExplorer
  cases hy : present y with
  | none =>
      rcases ho with rfl | rfl
      · exact le_rfl
      · rw [hy] at hpresent
        cases hpresent
  | some r =>
      obtain ⟨rfl, -⟩ := present_eq_some_iff.1 hy
      dsimp only
      split_ifs with h
      · rcases ho with rfl | rfl
        · exact h.2.elim le_of_lt fun heq => heq.1.ge
        · exact le_rfl
      · rcases ho with rfl | rfl
        · exact le_rfl
        · by_cases hr : some r = x
          · rw [hr]
          · exact not_lt.1 fun hlt => h ⟨hr, Or.inl hlt⟩

end Explorers

/-! ### Chains -/

section Chains

variable {a b : SwarmStatePayload}

theorem chain_comm_iff :
    (mergeSwarmStatePayloads a b).chain = (mergeSwarmStatePayloads b a).chain ↔
      ChainDecided a b := by
  dsimp only [mergeSwarmStatePayloads]
  rw [ChainDecided]
  rcases lt_trichotomy a.savedAt b.savedAt with h | h | h
  · rw [if_neg fun hb : b.savedAt < a.savedAt ∧ _ => absurd hb.1 h.asymm]
    by_cases hlen : a.chain.length ≤ b.chain.length
    · rw [if_pos ⟨h, hlen⟩]
      exact iff_of_true rfl (Or.inr (Or.inl ⟨h, hlen⟩))
    · rw [if_neg fun hb => hlen hb.2]
      simp [hlen, h.asymm]
  · simp [h]
  · rw [if_neg fun hb : a.savedAt < b.savedAt ∧ _ => absurd hb.1 h.asymm]
    by_cases hlen : b.chain.length ≤ a.chain.length
    · rw [if_pos ⟨h, hlen⟩]
      exact iff_of_true rfl (Or.inr (Or.inr ⟨h, hlen⟩))
    · rw [if_neg fun hb => hlen hb.2]
      simp [hlen, h.asymm]

theorem shadowChain_comm_iff :
    (mergeSwarmStatePayloads a b).shadowChain = (mergeSwarmStatePayloads b a).shadowChain ↔
      ShadowDecided a b := by
  dsimp only [mergeSwarmStatePayloads]
  rw [ShadowDecided]
  rcases lt_trichotomy a.shadowChain.length b.shadowChain.length with h | h | h
  · rw [if_neg (not_le.2 h), if_pos h.le]
    exact iff_of_true rfl (Or.inr h.ne)
  · rw [if_pos h.ge, if_pos h.le]
    exact (or_iff_left fun hne => hne h).symm
  · rw [if_pos h.le, if_neg (not_le.2 h)]
    exact iff_of_true rfl (Or.inr h.ne')

end Chains

/-! ### The two views -/

section View

variable {a b : SwarmStatePayload}

/-- The chosen explorer is a drone of the merge. -/
theorem exists_drone_of_explorerId (ha : a.OwnExplorer) (hb : b.OwnExplorer) {x : Str}
    (hx : (mergeSwarmStatePayloads a b).explorerId = some x) :
    ∃ d, (combine a.drones b.drones).get? x = some d := by
  refine Option.isSome_iff_exists.1 (isSome_combine.2 ?_)
  have hcases : a.explorerId = some x ∨ b.explorerId = some x :=
    mergeExplorer_cases.imp (fun h => h.symm.trans hx) fun h => h.symm.trans hx
  rcases hcases with h | h
  · obtain ⟨d, hd, hid⟩ := ha x h
    exact ⟨d, Or.inl hd, hid⟩
  · obtain ⟨d, hd, hid⟩ := hb x h
    exact ⟨d, Or.inr hd, hid⟩

theorem depthOf_of_get? {drones : Drones} {x : Str} {d : SwarmDrone} (hx : x ≠ [])
    (h : drones.get? x = some d) : depthOf (some x) drones = d.depth := by
  rw [depthOf, present_eq_some_iff.2 ⟨rfl, hx⟩, Option.bind_some, h]
  rfl

/-- **When two sides that exchange their snapshots agree**, part by part, and what they choose. -/
theorem sameView_conditions (ha : a.OwnExplorer) (hb : b.OwnExplorer) (hsame : a.SameRecords b) :
    ((∀ d, d ∈ (mergeSwarmStatePayloads a b).drones ↔ d ∈ (mergeSwarmStatePayloads b a).drones) ↔
        a.NewestLast b ∧ b.NewestLast a) ∧
      (a.NewestLast b ∧ b.NewestLast a →
        ((mergeSwarmStatePayloads a b).explorerId = (mergeSwarmStatePayloads b a).explorerId ↔
          ExplorerDecided (combine a.drones b.drones) a.explorerId b.explorerId)) ∧
      ((mergeSwarmStatePayloads a b).chain = (mergeSwarmStatePayloads b a).chain ↔
        ChainDecided a b) ∧
      ((mergeSwarmStatePayloads a b).shadowChain = (mergeSwarmStatePayloads b a).shadowChain ↔
        ShadowDecided a b) ∧
      ∀ x, (mergeSwarmStatePayloads a b).explorerId = some x →
        ∃ d ∈ (mergeSwarmStatePayloads a b).drones, d.id = x ∧
          (x ≠ [] → ∀ e ∈ (mergeSwarmStatePayloads a b).drones, e.id ≠ [] →
            a.explorerId = some e.id ∨ b.explorerId = some e.id → e.depth ≤ d.depth) := by
  refine ⟨values_eq_iff.trans (combine_comm_iff hsame), fun hnewest => ?_, chain_comm_iff,
    shadowChain_comm_iff, fun x hx => ?_⟩
  · have hcomm := (combine_comm_iff hsame).2 hnewest
    rw [← mergeExplorer_comm_iff]
    dsimp only [mergeSwarmStatePayloads]
    rw [mergeExplorer_congr fun id => (hcomm id).symm]
  · obtain ⟨d, hd⟩ := exists_drone_of_explorerId ha hb hx
    have hid : d.id = x := KeyedMap.key_of_get? hd
    refine ⟨d, KeyedMap.mem_values_iff.2 (hid ▸ hd), hid, fun hne e he hene hcand => ?_⟩
    have hle : depthOf (some e.id) (combine a.drones b.drones) ≤
        depthOf (mergeSwarmStatePayloads a b).explorerId (combine a.drones b.drones) :=
      depthOf_le_mergeExplorer (hcand.imp Eq.symm Eq.symm) (by simp [present, hene])
    rwa [hx, depthOf_of_get? hne hd,
      depthOf_of_get? hene (KeyedMap.mem_values_iff.1 he)] at hle

end View

/-! ### Two sides that do not agree -/

/-- The records that the two sides share. -/
def sharedDrones : List SwarmDrone :=
  [⟨lit "agent-0", lit "Relay", 8, .relay, 1000, 0, 90, .active⟩,
    ⟨lit "agent-1", lit "Explorer", 16, .explorer, 1000, 500, 80, .active⟩]

/-- A snapshot with a relay in the chain. -/
def longerChain : SwarmStatePayload where
  drones := sharedDrones
  chain := [lit "agent-0", lit "agent-1"]
  shadowChain := [lit "agent-0", lit "agent-1"]
  explorerId := some (lit "agent-1")
  chainHealth := .stable
  savedAt := 1000

/-- A newer snapshot after the relay has left the chain. -/
def newerChain : SwarmStatePayload where
  drones := sharedDrones
  chain := [lit "agent-1"]
  shadowChain := [lit "agent-1", lit "agent-0"]
  explorerId := some (lit "agent-1")
  chainHealth := .repairing
  savedAt := 2000

theorem ownExplorer_sharedDrones {p : SwarmStatePayload} (hdrones : p.drones = sharedDrones)
    (hex : p.explorerId = some (lit "agent-1")) : p.OwnExplorer := by
  intro x hx
  obtain rfl : lit "agent-1" = x := Option.some.inj (hex.symm.trans hx)
  exact hdrones ▸ ⟨_, List.mem_cons_of_mem _ List.mem_cons_self, rfl⟩

theorem sameRecords_sharedDrones : longerChain.SameRecords newerChain := by
  unfold SwarmStatePayload.SameRecords
  decide +kernel

theorem newestLast_sharedDrones :
    longerChain.NewestLast newerChain ∧ newerChain.NewestLast longerChain := by
  unfold SwarmStatePayload.NewestLast
  decide +kernel

/-- Two sides agree on the drones and on the explorer and on neither chain. -/
theorem sameView_conditions_newerChain :
    (∀ d, d ∈ (mergeSwarmStatePayloads longerChain newerChain).drones ↔
        d ∈ (mergeSwarmStatePayloads newerChain longerChain).drones) ∧
      (mergeSwarmStatePayloads longerChain newerChain).explorerId =
        (mergeSwarmStatePayloads newerChain longerChain).explorerId ∧
      (mergeSwarmStatePayloads longerChain newerChain).chain ≠
        (mergeSwarmStatePayloads newerChain longerChain).chain ∧
      (mergeSwarmStatePayloads longerChain newerChain).shadowChain ≠
        (mergeSwarmStatePayloads newerChain longerChain).shadowChain := by
  have h := sameView_conditions (ownExplorer_sharedDrones rfl rfl)
    (ownExplorer_sharedDrones rfl rfl) sameRecords_sharedDrones
  refine ⟨h.1.2 newestLast_sharedDrones, (h.2.1 newestLast_sharedDrones).2 (Or.inl rfl), ?_, ?_⟩
  · rw [Ne, h.2.2.1]
    unfold ChainDecided
    decide +kernel
  · rw [Ne, h.2.2.2.1]
    unfold ShadowDecided
    decide +kernel

/-- The two sides do not end in the same view. -/
theorem not_sameView_newerChain :
    longerChain.OwnExplorer ∧ newerChain.OwnExplorer ∧ longerChain.SameRecords newerChain ∧
      (mergeSwarmStatePayloads longerChain newerChain).chain ≠
        (mergeSwarmStatePayloads newerChain longerChain).chain ∧
      (mergeSwarmStatePayloads longerChain newerChain).shadowChain ≠
        (mergeSwarmStatePayloads newerChain longerChain).shadowChain :=
  ⟨ownExplorer_sharedDrones rfl rfl, ownExplorer_sharedDrones rfl rfl, sameRecords_sharedDrones,
    by decide +kernel, by decide +kernel⟩

end P2p
