/-
**Gossip with deltas** (`swarm/sar_vertex_foxmq_backend.py`).

Two maps send each other their dirty cells in turn.  A map takes over a cell of the same version and
time, and what it takes over is dirty again, so a cell that both maps agree on goes back and forth;
a cell that is not taken over stays different.

Main definitions:

* `Sar.Exchange`, `Sar.Exchange.turn` — the two maps, and a turn of the one that sends;
* `Sar.Gossip` — the turns for ever;
* `Sar.Gossip.Quiesces` — from some turn on no cells are sent, and the maps agree.

Main results:

* `Sar.Exchange.unsettled_turn` — a cell that is dirty or differs is so after a turn;
* `Sar.Gossip.quiesces_iff` — **the gossip comes to rest exactly if no cell was dirty at the
  start.**
-/
import Mathlib.Data.Set.Finite.Lattice
import Mathlib.Order.Interval.Set.Infinite
import Endendend.Sar.WorldMap

set_option relaxedAutoImplicit false
set_option autoImplicit false

namespace Sar

open Js (Str lit)

/-! ### Merging what is new -/

namespace SharedWorldMap

variable {m : SharedWorldMap} {id : Str} {remote : WorldCell} {remoteCells : List WorldCell}

theorem readable_map_some (cells : List WorldCell) : readable (cells.map some) = cells := by
  induction cells with
  | nil => rfl
  | cons cell cells ih => exact congrArg (cell :: ·) ih

theorem merge_map_some (cells : List WorldCell) (sourceVersion : ℤ) :
    m.merge (cells.map some) sourceVersion =
      { cells.foldl mergeCell m with
        version := max (cells.foldl mergeCell m).version sourceVersion + 1 } := by
  rw [merge, readable_map_some, if_pos]
  simp

theorem mem_dirty_store {cell : WorldCell} :
    id ∈ (m.store cell).dirty ↔ id ∈ m.dirty ∨ id = cell.cellId := Js.mem_setAdd

/-- What is dirty stays dirty, whatever is merged. -/
theorem mem_dirty_mergeCell (h : id ∈ m.dirty) : id ∈ (m.mergeCell remote).dirty := by
  rw [mergeCell]
  split
  · exact mem_dirty_store.2 (Or.inl h)
  · split
    · exact mem_dirty_store.2 (Or.inl h)
    · exact h

theorem mem_dirty_foldl (h : id ∈ m.dirty) : id ∈ (remoteCells.foldl mergeCell m).dirty := by
  induction remoteCells generalizing m with
  | nil => exact h
  | cons remote remoteCells ih => exact ih (mem_dirty_mergeCell h)

/-- A cell that is taken over becomes dirty. -/
theorem mem_dirty_mergeCell_self
    (hnew : ∀ current ∈ m.getCell remote.cellId, remote.NotOlder current) :
    remote.cellId ∈ (m.mergeCell remote).dirty := by
  rw [mergeCell]
  split
  · exact mem_dirty_store.2 (Or.inr rfl)
  · next current hcurrent =>
    rw [if_pos (hnew current hcurrent)]
    exact mem_dirty_store.2 (Or.inr rfl)

theorem getCell_foldl_of_ne (hne : ∀ remote ∈ remoteCells, remote.cellId ≠ id) :
    (remoteCells.foldl mergeCell m).getCell id = m.getCell id := by
  induction remoteCells generalizing m with
  | nil => rfl
  | cons remote remoteCells ih =>
      refine (ih fun r hr => hne r (List.mem_cons_of_mem _ hr)).trans ?_
      rw [getCell_mergeCell, if_neg]
      rintro ⟨rfl, -⟩
      exact hne remote List.mem_cons_self rfl

theorem mem_dirty_foldl_of_new (hmem : remote ∈ remoteCells)
    (hone : ∀ r ∈ remoteCells, r.cellId = remote.cellId → r = remote)
    (hnew : ∀ current ∈ m.getCell remote.cellId, remote.NotOlder current) :
    remote.cellId ∈ (remoteCells.foldl mergeCell m).dirty := by
  induction remoteCells generalizing m with
  | nil => cases hmem
  | cons r remoteCells ih =>
      by_cases hr : r.cellId = remote.cellId
      · obtain rfl := hone r List.mem_cons_self hr
        rw [List.foldl_cons]
        exact mem_dirty_foldl (mem_dirty_mergeCell_self hnew)
      · have hmem' : remote ∈ remoteCells := by
          refine (List.mem_cons.1 hmem).resolve_left ?_
          rintro rfl
          exact hr rfl
        refine ih hmem' (fun s hs => hone s (List.mem_cons_of_mem _ hs)) fun current hcurrent => ?_
        rw [getCell_mergeCell, if_neg fun h => hr h.1.symm] at hcurrent
        exact hnew current hcurrent

/-- **A cell that was merged is dirty, or it is not the one that is there.** -/
theorem mem_dirty_or_ne_of_merged (hmem : remote ∈ remoteCells)
    (hone : ∀ r ∈ remoteCells, r.cellId = remote.cellId → r = remote) :
    remote.cellId ∈ (remoteCells.foldl mergeCell m).dirty ∨
      (remoteCells.foldl mergeCell m).getCell remote.cellId ≠ some remote := by
  by_cases hnew : ∀ current ∈ m.getCell remote.cellId, remote.NotOlder current
  · exact Or.inl (mem_dirty_foldl_of_new hmem hone hnew)
  · obtain ⟨current, hcurrent, holder⟩ : ∃ current ∈ m.getCell remote.cellId,
        ¬ remote.NotOlder current := by simpa using hnew
    right
    have hkept : (remoteCells.foldl mergeCell m).getCell remote.cellId = some current := by
      refine getCell_foldl_mergeCell_of_older hcurrent fun r hr hid => ?_
      rw [hone r hr hid]
      exact holder
    rw [hkept]
    rintro heq
    obtain rfl := Option.some.inj heq
    exact holder current.notOlder_self

/-! ### What a delta sends -/

theorem mem_cells_delta {order : List Str} {k : ℕ} {cell : WorldCell} :
    cell ∈ (m.delta order k).1 ↔
      cell.cellId ∈ order.take k ∧ m.getCell cell.cellId = some cell := by
  constructor
  · intro hcell
    obtain ⟨id, hid, hget⟩ := List.mem_filterMap.1 hcell
    obtain rfl := cellId_of_getCell hget
    exact ⟨hid, hget⟩
  · rintro ⟨hid, hget⟩
    exact List.mem_filterMap.2 ⟨cell.cellId, hid, hget⟩

theorem mem_dirty_delta {order : List Str} {k : ℕ} :
    id ∈ (m.delta order k).2.dirty ↔ id ∈ m.dirty ∧ id ∉ order.take k := by
  simp [delta]

end SharedWorldMap

/-! ### Turns -/

/-- Two maps, of which the first is the next to send. -/
structure Exchange where
  sender : SharedWorldMap
  receiver : SharedWorldMap

namespace Exchange

variable (s : Exchange)

/-- The cells that are sent, where the dirty ids are listed in an order. -/
def sent (order : List Str) : List WorldCell :=
  if s.sender.dirty = [] then [] else (s.sender.delta order SharedWorldMap.maxCells).1

/-- The sender publishes its delta if it has dirty cells, the other merges it, and it is the other's
turn. -/
def turn (order : List Str) : Exchange :=
  if s.sender.dirty = [] then ⟨s.receiver, s.sender⟩
  else
    let (cells, sender) := s.sender.delta order SharedWorldMap.maxCells
    ⟨s.receiver.merge (cells.map some) s.sender.version, sender⟩

/-- A cell that is still to be sent, or on which the maps differ. -/
def Unsettled (id : Str) : Prop :=
  id ∈ s.sender.dirty ∨ id ∈ s.receiver.dirty ∨ s.sender.getCell id ≠ s.receiver.getCell id

variable {s} {order : List Str} {id : Str}

theorem turn_of_clean (h : s.sender.dirty = []) : s.turn order = ⟨s.receiver, s.sender⟩ := by
  rw [turn, if_pos h]

theorem turn_of_dirty (h : s.sender.dirty ≠ []) :
    s.turn order =
      ⟨s.receiver.merge ((s.sender.delta order SharedWorldMap.maxCells).1.map some)
          s.sender.version, (s.sender.delta order SharedWorldMap.maxCells).2⟩ := by
  rw [turn, if_neg h]

/-- A turn sends no cells only if none is dirty. -/
theorem sent_eq_nil_iff (horder : order.Perm s.sender.dirty) :
    s.sent order = [] ↔ s.sender.dirty = [] := by
  constructor
  · intro hsent
    rw [sent] at hsent
    split at hsent
    · assumption
    · next hdirty =>
      obtain ⟨id, ids, rfl⟩ := List.exists_cons_of_ne_nil fun h : order = [] => hdirty (by
        rw [h] at horder
        exact horder.nil_eq.symm)
      have hid : id ∈ s.sender.dirty := horder.subset List.mem_cons_self
      obtain ⟨cell, hcell⟩ := Option.isSome_iff_exists.1 (s.sender.known id hid)
      obtain rfl := SharedWorldMap.cellId_of_getCell hcell
      have hmem : cell ∈ (s.sender.delta (cell.cellId :: ids) SharedWorldMap.maxCells).1 :=
        SharedWorldMap.mem_cells_delta.2 ⟨List.mem_cons_self, hcell⟩
      rw [hsent] at hmem
      cases hmem
  · intro h
    rw [sent, if_pos h]

/-- **A cell that is to be sent, or differs, is so after a turn.** -/
theorem unsettled_turn (horder : order.Perm s.sender.dirty) (h : s.Unsettled id) :
    (s.turn order).Unsettled id := by
  by_cases hclean : s.sender.dirty = []
  · rw [turn_of_clean hclean]
    rcases h with h | h | h
    · exact Or.inr (Or.inl h)
    · exact Or.inl h
    · exact Or.inr (Or.inr h.symm)
  rw [turn_of_dirty hclean, SharedWorldMap.merge_map_some]
  by_cases hsent : id ∈ order.take SharedWorldMap.maxCells
  · -- the cell is sent: the receiver takes it over, or it has a newer one
    obtain ⟨cell, hcell⟩ := Option.isSome_iff_exists.1
      (s.sender.known id (horder.subset (List.mem_of_mem_take hsent)))
    obtain rfl := SharedWorldMap.cellId_of_getCell hcell
    have hmem := SharedWorldMap.mem_cells_delta.2 ⟨hsent, hcell⟩
    have hone : ∀ r ∈ (s.sender.delta order SharedWorldMap.maxCells).1,
        r.cellId = cell.cellId → r = cell := by
      intro r hr hid
      have hget := (SharedWorldMap.mem_cells_delta.1 hr).2
      rw [hid] at hget
      exact Option.some.inj (hget.symm.trans hcell)
    rcases SharedWorldMap.mem_dirty_or_ne_of_merged (m := s.receiver) hmem hone with hdirty | hne
    · exact Or.inl hdirty
    · refine Or.inr (Or.inr fun heq => hne ?_)
      exact heq.trans hcell
  · -- the cell is not sent: nothing changes about it
    rcases h with h | h | h
    · exact Or.inr (Or.inl (SharedWorldMap.mem_dirty_delta.2 ⟨h, hsent⟩))
    · exact Or.inl (SharedWorldMap.mem_dirty_foldl h)
    · refine Or.inr (Or.inr fun heq => h ?_)
      have hother : ∀ r ∈ (s.sender.delta order SharedWorldMap.maxCells).1, r.cellId ≠ id := by
        rintro r hr rfl
        exact hsent (SharedWorldMap.mem_cells_delta.1 hr).1
      exact heq.symm.trans (SharedWorldMap.getCell_foldl_of_ne (m := s.receiver) hother)

end Exchange

/-! ### Gossip -/

/-- Turn after turn, with the orders in which the dirty sets are listed. -/
structure Gossip where
  states : ℕ → Exchange
  orders : ℕ → List Str
  perm : ∀ n, (orders n).Perm (states n).sender.dirty
  next : ∀ n, states (n + 1) = (states n).turn (orders n)

namespace Gossip

variable (g : Gossip)

def sent (n : ℕ) : List WorldCell := (g.states n).sent (g.orders n)

/-- A cell that is dirty when the gossip starts. -/
def DirtyAtStart (id : Str) : Prop :=
  id ∈ (g.states 0).sender.dirty ∨ id ∈ (g.states 0).receiver.dirty

/-- Only finitely many deltas carry cells, and at the end the maps agree on what was dirty. -/
def Quiesces : Prop :=
  { n | g.sent n ≠ [] }.Finite ∧
    ∃ N, ∀ n, N ≤ n → ∀ id, g.DirtyAtStart id →
      (g.states n).sender.getCell id = (g.states n).receiver.getCell id

variable {g} {id : Str}

/-- A cell that is dirty at the start is never settled. -/
theorem unsettled (h : g.DirtyAtStart id) (n : ℕ) : (g.states n).Unsettled id := by
  induction n with
  | zero =>
      rcases h with h | h
      · exact Or.inl h
      · exact Or.inr (Or.inl h)
  | succ n ih =>
      rw [g.next]
      exact Exchange.unsettled_turn (g.perm n) ih

/-- Two turns that send nothing leave nothing to send. -/
theorem clean_of_sent_eq_nil {n : ℕ} (h : g.sent n = []) (h' : g.sent (n + 1) = []) :
    (g.states n).sender.dirty = [] ∧ (g.states n).receiver.dirty = [] := by
  have hsender := (Exchange.sent_eq_nil_iff (g.perm n)).1 h
  have hreceiver := (Exchange.sent_eq_nil_iff (g.perm (n + 1))).1 h'
  rw [g.next, Exchange.turn_of_clean hsender] at hreceiver
  exact ⟨hsender, hreceiver⟩

theorem not_quiesces_of_dirty (h : g.DirtyAtStart id) : ¬ g.Quiesces := by
  rintro ⟨hfinite, N, hagree⟩
  obtain ⟨B, hB⟩ := hfinite.bddAbove
  have hquiet : ∀ n, B < n → g.sent n = [] := by
    intro n hn
    by_contra hsent
    exact absurd (hB hsent) (by omega)
  obtain ⟨hsender, hreceiver⟩ :=
    clean_of_sent_eq_nil (hquiet (max (B + 1) N) (by omega)) (hquiet (max (B + 1) N + 1) (by omega))
  rcases unsettled h (max (B + 1) N) with hdirty | hdirty | hne
  · rw [hsender] at hdirty
    cases hdirty
  · rw [hreceiver] at hdirty
    cases hdirty
  · exact hne (hagree _ (le_max_right _ _) id h)

theorem clean_of_clean_start (h : ∀ id, ¬ g.DirtyAtStart id) (n : ℕ) :
    (g.states n).sender.dirty = [] ∧ (g.states n).receiver.dirty = [] := by
  induction n with
  | zero =>
      constructor
      · exact List.eq_nil_iff_forall_not_mem.2 fun id hid => h id (Or.inl hid)
      · exact List.eq_nil_iff_forall_not_mem.2 fun id hid => h id (Or.inr hid)
  | succ n ih =>
      rw [g.next, Exchange.turn_of_clean ih.1]
      exact ih.symm

/-- **When the gossip comes to rest**: exactly if no cell was dirty at the start. -/
theorem quiesces_iff : g.Quiesces ↔ ∀ id, ¬ g.DirtyAtStart id := by
  constructor
  · intro hquiesces id hid
    exact not_quiesces_of_dirty hid hquiesces
  · intro hclean
    constructor
    · refine Set.finite_empty.subset fun n hn => hn ?_
      exact (Exchange.sent_eq_nil_iff (g.perm n)).2 (clean_of_clean_start hclean n).1
    · exact ⟨0, fun n _ id hid => absurd hid (hclean id)⟩

/-- The gossip of two maps whose dirty sets are listed as they are. -/
def start (s : Exchange) : Gossip where
  states n := (fun s : Exchange => s.turn s.sender.dirty)^[n] s
  orders n := ((fun s : Exchange => s.turn s.sender.dirty)^[n] s).sender.dirty
  perm _ := List.Perm.refl _
  next n := Function.iterate_succ_apply' _ n s

/-- A map has seen one cell, and the other is empty. -/
def oneCellSeen : Exchange where
  sender := SharedWorldMap.new.markSeen 3 4 0 (some (lit "drone-1")) (4 / 5) 100
  receiver := .new

theorem gossip_of_oneCell : ¬ (start oneCellSeen).Quiesces := by
  have hdirty : lit "3:4:0" ∈ oneCellSeen.sender.dirty := by decide +kernel
  exact not_quiesces_of_dirty (Or.inl hdirty)

end Gossip

end Sar
