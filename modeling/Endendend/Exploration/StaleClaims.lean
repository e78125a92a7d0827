/-
**Claims of a drone that is gone** (`swarm/exploration.py`).

A claim blocks a cell for the timeout, counted from the time at which the drone that is blocked has
noted it.  Every update that brings the claim again starts the timeout again, whoever sends it:
drones that keep telling each other of a claim keep it alive without its owner.

Main definitions:

* `Exploration.ExplorationManager.BlockedBy` — a drone is kept from a cell by the claim of another
  one;
* `Exploration.Refreshes` — a move that makes a drone note a claim of another one, now;
* `Exploration.Expired` — nobody is kept from a cell by a drone after `n` timeouts;
* `Exploration.NotLate` — a claim of the drone is not noted during the last of these, or later.

Main results:

* `Exploration.GridMap.isBlockedFor_eq_true_iff` — which claims block a cell;
* `Exploration.GridMap.get?_of_takeOver` — the claims of a map after an update of another drone;
* `Exploration.claim_step` — a claim was there before a move, or the move notes it now;
* `Exploration.claims_expire_iff` — **the claims of a drone expire, all along a run, exactly if none
  of them is noted late.**
-/
import Endendend.Exploration.ExplorationManager
import Endendend.Foundation.Runs
import Mathlib.Tactic.Linarith

set_option relaxedAutoImplicit false
set_option autoImplicit false

namespace Exploration

open Py (Str)
open Js (OrderedMap)
open Runs
open Network (Envelope Protocol World Move)

/-! ### The claims of a map -/

namespace GridMap

variable {g : GridMap} {cell : Cell} {myId : Str} {now : ℚ}

/-- **Which claims block a cell**: those of other drones, noted during the last timeout. -/
theorem isBlockedFor_eq_true_iff : g.isBlockedFor cell myId now = true ↔
    ∃ owner ts, g.claimed.get? cell = some (owner, ts) ∧ owner ≠ myId ∧
      now - ts ≤ claimTimeout := by
  rw [isBlockedFor, Option.any_eq_true]
  simp only [decide_eq_true_eq, Prod.exists, gt_iff_lt, not_lt]

theorem get?_markExplored (g : GridMap) (c cell : Cell) :
    (g.markExplored c).claimed.get? cell = if cell = c then none else g.claimed.get? cell :=
  OrderedMap.get?_erase _ _ _

theorem explored_foldl_markExplored (g : GridMap) (cells : List Cell) (cell : Cell) :
    cell ∈ (cells.foldl markExplored g).explored ↔ cell ∈ g.explored ∨ cell ∈ cells := by
  induction cells generalizing g with
  | nil => simp
  | cons c cells ih =>
      rw [List.foldl_cons, ih]
      simp only [markExplored, Js.mem_setAdd, List.mem_cons, or_assoc]

/-- A cell that is explored has no claim. -/
theorem get?_foldl_markExplored (g : GridMap) (cells : List Cell) (cell : Cell) :
    (cells.foldl markExplored g).claimed.get? cell =
      if cell ∈ cells then none else g.claimed.get? cell := by
  induction cells generalizing g with
  | nil => simp
  | cons c cells ih =>
      rw [List.foldl_cons, ih, get?_markExplored]
      simp only [List.mem_cons]
      by_cases hc : cell = c <;> by_cases hcells : cell ∈ cells <;> simp [hc, hcells]

/-- Does a drone note the claim of an owner on a cell? -/
def Notes (g : GridMap) (myId : Str) (cell : Cell) (owner : Str) : Prop :=
  owner ≠ Str.empty ∧ owner ≠ myId ∧ cell ∉ g.explored

instance (g : GridMap) (myId : Str) (cell : Cell) (owner : Str) :
    Decidable (g.Notes myId cell owner) :=
  inferInstanceAs (Decidable (_ ∧ _ ∧ _))

theorem noteClaim_eq (myId : Str) (ts : ℚ) (g : GridMap) (entry : Cell × Str) :
    noteClaim myId ts g entry =
      if g.Notes myId entry.1 entry.2 then
        { g with claimed := g.claimed.set entry.1 (entry.2, ts) }
      else g := by
  rw [noteClaim, isExplored, setForeignClaim]
  by_cases hempty : entry.2 = Str.empty
  · simp [Notes, hempty]
  · by_cases hown : entry.2 = myId
    · simp [Notes, hown]
    · by_cases hexplored : entry.1 ∈ g.explored <;> simp [Notes, hempty, hown, hexplored]

/-- **The claims after an update**: a claim of the update that is noted has the time of now, and all
other claims stay. -/
theorem get?_foldl_noteClaim (myId : Str) (ts : ℚ) (g : GridMap) {claims : List (Cell × Str)}
    (hdistinct : (claims.map Prod.fst).Nodup) (cell : Cell) :
    (claims.foldl (noteClaim myId ts) g).claimed.get? cell =
      (((OrderedMap.getList cell claims).filter fun owner => decide (g.Notes myId cell owner)).map
        fun owner => (owner, ts)).or (g.claimed.get? cell) := by
  induction claims generalizing g with
  | nil => rfl
  | cons p claims ih =>
      obtain ⟨hp, hdistinct⟩ := List.nodup_cons.1 hdistinct
      have hnotes : ∀ owner, (noteClaim myId ts g p).Notes myId cell owner ↔
          g.Notes myId cell owner := by
        intro owner
        rw [noteClaim_eq]
        split <;> exact Iff.rfl
      rw [List.foldl_cons, ih _ hdistinct, OrderedMap.getList]
      simp only [hnotes]
      by_cases hcell : p.1 = cell
      · subst hcell
        rw [if_pos rfl, OrderedMap.getList_eq_none_iff.2 hp, noteClaim_eq]
        by_cases hnoted : g.Notes myId p.1 p.2 <;> simp [Option.filter_some, hnoted]
      · rw [if_neg hcell]
        refine congrArg _ ?_
        rw [noteClaim_eq]
        split
        · rw [OrderedMap.get?_set, if_neg (Ne.symm hcell)]
        · rfl

variable {cells : List Cell} {claims : List (Cell × Str)}

/-- A claim of the update is noted with the time of now, if the owner is another drone and the cell
is not explored. -/
theorem get?_takeOver_of_mem (ts : ℚ) (hdistinct : (claims.map Prod.fst).Nodup) {owner : Str}
    (hmem : (cell, owner) ∈ claims) (hempty : owner ≠ Str.empty) (hown : owner ≠ myId)
    (hexplored : cell ∉ g.explored) (hcells : cell ∉ cells) :
    (g.takeOver myId ts cells claims).claimed.get? cell = some (owner, ts) := by
  have hnotes : (cells.foldl markExplored g).Notes myId cell owner := by
    refine ⟨hempty, hown, fun hin => ?_⟩
    exact ((explored_foldl_markExplored g cells cell).1 hin).elim hexplored hcells
  rw [takeOver, get?_foldl_noteClaim _ _ _ hdistinct, (OrderedMap.mem_iff_getList hdistinct).1 hmem]
  simp [hnotes]

/-- **A claim after an update was there before, or it is noted now.** -/
theorem get?_of_takeOver {ts ts' : ℚ} (hdistinct : (claims.map Prod.fst).Nodup) {owner : Str}
    (h : (g.takeOver myId ts cells claims).claimed.get? cell = some (owner, ts')) :
    g.claimed.get? cell = some (owner, ts') ∨
      ts' = ts ∧ (cell, owner) ∈ claims ∧ owner ≠ Str.empty ∧ cell ∉ g.explored ∧ cell ∉ cells := by
  rw [takeOver, get?_foldl_noteClaim _ _ _ hdistinct, Option.or_eq_some_iff] at h
  obtain hnoted | ⟨-, hold⟩ := h
  · obtain ⟨owner', hfilter, heq⟩ := Option.map_eq_some_iff.1 hnoted
    obtain ⟨hget, hnotes⟩ := Option.filter_eq_some_iff.1 hfilter
    obtain ⟨rfl, rfl⟩ := Prod.mk.inj heq
    obtain ⟨hempty, -, hexplored⟩ := of_decide_eq_true hnotes
    rw [explored_foldl_markExplored, not_or] at hexplored
    exact Or.inr ⟨rfl, (OrderedMap.mem_iff_getList hdistinct).2 hget, hempty, hexplored⟩
  · rw [get?_foldl_markExplored] at hold
    split at hold
    · cases hold
    · exact Or.inl hold

end GridMap

/-! ### The claims of a drone -/

namespace ExplorationManager

variable {m : ExplorationManager} {cell : Cell} {owner : Str} {now ts : ℚ}

/-- A message of another drone that did not come in before. -/
def Hears (m : ExplorationManager) (sender : Str) (msg : ExplorationUpdate) (now : ℚ) : Prop :=
  sender ≠ m.myId ∧ (m.noteEpidemic now (epidemicIdOf msg)).2 = true

/-- A drone is kept from a cell by the claim of another one. -/
def BlockedBy (m : ExplorationManager) (x : Str) (cell : Cell) (t : ℚ) : Prop :=
  m.map.isBlockedFor cell m.myId t = true ∧ ∃ ts, m.map.claimed.get? cell = some (x, ts)

theorem blockedBy_iff {x : Str} {t : ℚ} : m.BlockedBy x cell t ↔
    x ≠ m.myId ∧ ∃ ts, m.map.claimed.get? cell = some (x, ts) ∧ t - ts ≤ GridMap.claimTimeout := by
  rw [BlockedBy, GridMap.isBlockedFor_eq_true_iff]
  constructor
  · rintro ⟨⟨owner, ts, hclaim, hown, hfresh⟩, ts', hclaim'⟩
    obtain ⟨rfl, rfl⟩ := Prod.mk.inj (Option.some.inj (hclaim.symm.trans hclaim'))
    exact ⟨hown, ts, hclaim, hfresh⟩
  · rintro ⟨hown, ts, hclaim, hfresh⟩
    exact ⟨⟨x, ts, hclaim, hown, hfresh⟩, ts, hclaim⟩

theorem noteEpidemic_rest (m : ExplorationManager) (now : ℚ) (eid : Option Str) :
    (m.noteEpidemic now eid).1.map = m.map ∧ (m.noteEpidemic now eid).1.myId = m.myId := by
  cases eid with
  | none => exact ⟨rfl, rfl⟩
  | some eid =>
      rw [noteEpidemic]
      split <;> exact ⟨rfl, rfl⟩

/-- **What handling an update does to the map**: it takes over what the update brings, or
nothing. -/
theorem handleExplorationUpdate_cases (m : ExplorationManager) (sender : Str)
    (msg : ExplorationUpdate) (now : ℚ) (v : Vertex) :
    (m.handleExplorationUpdate sender msg now v).2.myId = m.myId ∧
      (m.Hears sender msg now ∧ (m.handleExplorationUpdate sender msg now v).2.map =
          m.map.takeOver m.myId now msg.cells msg.claims ∨
        ¬ m.Hears sender msg now ∧ (m.handleExplorationUpdate sender msg now v).2.map = m.map) := by
  obtain ⟨hmap, hid⟩ := m.noteEpidemic_rest now (epidemicIdOf msg)
  rw [handleExplorationUpdate]
  by_cases hsender : sender = m.myId
  · rw [if_pos hsender]
    exact ⟨rfl, Or.inr ⟨fun hears => hears.1 hsender, rfl⟩⟩
  · rw [if_neg hsender]
    dsimp only
    by_cases hnew : (m.noteEpidemic now (epidemicIdOf msg)).2 = true
    · rw [if_pos hnew, hmap, hid]
      split <;> exact ⟨rfl, Or.inl ⟨⟨hsender, hnew⟩, rfl⟩⟩
    · rw [if_neg hnew]
      exact ⟨hid, Or.inr ⟨fun hears => hnew hears.2, hmap⟩⟩

theorem claim_of_update {v : Vertex} {ns rand : ℤ} {claim : Str × ℚ}
    (h : (m.update now v ns rand).2.map.claimed.get? cell = some claim) :
    m.map.claimed.get? cell = some claim := by
  have hclean : (m.map.cleanupStaleClaims now).claimed.get? cell = some claim := by
    rw [update] at h
    split at h <;> exact h
  rw [GridMap.cleanupStaleClaims, OrderedMap.get?_keep] at hclean
  exact (Option.filter_eq_some_iff.1 hclean).1

theorem claim_of_chooseNextTarget {x y : ℚ} (howner : owner ≠ m.myId)
    (h : (m.chooseNextTarget x y now).2.map.claimed.get? cell = some (owner, ts)) :
    m.map.claimed.get? cell = some (owner, ts) := by
  rw [chooseNextTarget] at h
  split at h
  · exact h
  · split at h
    · exact h
    · rw [GridMap.claimForSelf, OrderedMap.get?_set] at h
      split at h
      · exact absurd (congrArg Prod.fst (Option.some.inj h)).symm howner
      · exact h

theorem claim_of_reachedTarget {c : Cell} {claim : Str × ℚ}
    (h : (m.reachedTarget c).map.claimed.get? cell = some claim) :
    m.map.claimed.get? cell = some claim := by
  have hmark : (m.map.markExplored c).claimed.get? cell = some claim := by
    rw [reachedTarget, GridMap.releaseSelfClaim] at h
    split at h
    · rw [OrderedMap.get?_erase] at h
      split at h
      · cases h
      · exact h
    · exact h
  rw [GridMap.get?_markExplored] at hmark
  split at hmark
  · cases hmark
  · exact hmark

theorem myId_chooseNextTarget (m : ExplorationManager) (x y now : ℚ) :
    (m.chooseNextTarget x y now).2.myId = m.myId := by
  rw [chooseNextTarget]
  split
  · rfl
  · split <;> rfl

theorem myId_update (m : ExplorationManager) (now : ℚ) (v : Vertex) (ns rand : ℤ) :
    (m.update now v ns rand).2.myId = m.myId := by
  rw [update]
  split <;> rfl

end ExplorationManager

/-! ### The claims in a flight -/

variable {members : List Str} {s s' : Flight} {mv : ExplorerMove}

theorem flightStep_eq_some (h : flightStep members s mv = some s') :
    s.clock ≤ time mv ∧ (explorers members).step s.world mv = some s'.world ∧
      s'.clock = time mv := by
  obtain ⟨hclock, h⟩ := Option.ite_none_right_eq_some.1 h
  obtain ⟨w, hw, rfl⟩ := Option.map_eq_some_iff.1 h
  exact ⟨hclock, hw, rfl⟩

/-- The claims of another drone that a move does not bring were there before. -/
theorem after_act (i : Str) (event : Event) (w : World Str ExplorationManager ExplorationUpdate) :
    ((explorers members).after w (.act i event)).myId = (w.nodes i).myId ∧
      ∀ {cell owner ts}, owner ≠ (w.nodes i).myId →
        ((explorers members).after w (.act i event)).map.claimed.get? cell = some (owner, ts) →
        (w.nodes i).map.claimed.get? cell = some (owner, ts) := by
  obtain ⟨now, action⟩ := event
  cases action with
  | update v ns rand reached =>
      exact ⟨ExplorationManager.myId_update _ _ _ _ _,
        fun _ h => ExplorationManager.claim_of_update h⟩
  | chooseNextTarget x y =>
      exact ⟨ExplorationManager.myId_chooseNextTarget _ _ _ _,
        fun howner h => ExplorationManager.claim_of_chooseNextTarget howner h⟩
  | reachedTarget c => exact ⟨rfl, fun _ h => ExplorationManager.claim_of_reachedTarget h⟩

/-- Every drone has its own name. -/
def Named (s : Flight) : Prop := ∀ i, (s.world.nodes i).myId = i

theorem named_step (hs : Named s) (h : flightStep members s mv = some s') : Named s' := by
  intro i
  obtain ⟨-, hw, -⟩ := flightStep_eq_some h
  by_cases hi : i = mv.node
  · subst hi
    rw [Protocol.nodes_step hw, ← hs mv.node]
    cases mv with
    | act i event => exact (after_act i event s.world).1
    | deliver e reading =>
        exact (ExplorationManager.handleExplorationUpdate_cases _ _ _ _ _).1
  · rw [Protocol.nodes_step_of_ne hw hi]
    exact hs i

theorem named_run {mvs : List ExplorerMove} (h : run (flightStep members) newFlight mvs = some s) :
    Named s :=
  invariant_of_run (fun _ _ _ hs hstep => named_step hs hstep) (fun _ => rfl) h

/-- A drone other than `x` hears of a claim of `x` in an update, and notes it with the time of
now. -/
def Refreshes (x : Str) (s : Flight) : ExplorerMove → Prop
  | .act _ _ => False
  | .deliver e reading =>
    e.receiver ≠ x ∧ x ≠ Str.empty ∧
      (s.world.nodes e.receiver).Hears e.sender e.message reading.now ∧
      ∃ cell, (cell, x) ∈ e.message.claims ∧
        cell ∉ (s.world.nodes e.receiver).map.explored ∧ cell ∉ e.message.cells

variable {x y : Str} {cell : Cell}

/-- **A claim that another drone knows after a move** was known to it before, or the move refreshes
it. -/
theorem claim_step {ts : ℚ} (hs : Named s) (h : flightStep members s mv = some s') (hy : y ≠ x)
    (hclaim : (s'.world.nodes y).map.claimed.get? cell = some (x, ts)) :
    (s.world.nodes y).map.claimed.get? cell = some (x, ts) ∨
      Refreshes x s mv ∧ ts = time mv := by
  obtain ⟨-, hw, -⟩ := flightStep_eq_some h
  by_cases hnode : y = mv.node
  · subst hnode
    rw [Protocol.nodes_step hw] at hclaim
    cases mv with
    | act i event =>
        refine Or.inl ((after_act i event s.world).2 ?_ hclaim)
        rw [hs i]
        exact hy.symm
    | deliver e reading =>
        obtain ⟨-, ⟨hears, hmap⟩ | ⟨-, hmap⟩⟩ :=
          ExplorationManager.handleExplorationUpdate_cases (s.world.nodes e.receiver) e.sender
            e.message reading.now reading.v
        · have hclaim := (congrArg (fun g => g.claimed.get? cell) hmap).symm.trans hclaim
          refine (GridMap.get?_of_takeOver e.message.distinct hclaim).imp id ?_
          rintro ⟨rfl, hmem, hempty, hexplored, hcells⟩
          exact ⟨⟨hy, hempty, hears, cell, hmem, hexplored, hcells⟩, rfl⟩
        · exact Or.inl ((congrArg (fun g => g.claimed.get? cell) hmap).symm.trans hclaim)
  · rw [Protocol.nodes_step_of_ne hw hnode] at hclaim
    exact Or.inl hclaim

/-- A move that refreshes a claim of `x` keeps a drone from a cell for the timeout from now on. -/
theorem blockedBy_of_refreshes (hs : Named s) (h : flightStep members s mv = some s')
    (hrefresh : Refreshes x s mv) :
    ∃ y ≠ x, ∃ cell, (s'.world.nodes y).BlockedBy x cell (time mv + GridMap.claimTimeout) := by
  obtain ⟨-, hw, -⟩ := flightStep_eq_some h
  cases mv with
  | act i event => exact hrefresh.elim
  | deliver e reading =>
      obtain ⟨hy, hempty, hears, cell, hmem, hexplored, hcells⟩ := hrefresh
      refine ⟨e.receiver, hy, cell, ?_⟩
      obtain ⟨hid, ⟨-, hmap⟩ | ⟨hnot, -⟩⟩ :=
        ExplorationManager.handleExplorationUpdate_cases (s.world.nodes e.receiver) e.sender
          e.message reading.now reading.v
      · have hown : x ≠ (s.world.nodes e.receiver).myId := by
          rw [hs e.receiver]
          exact hy.symm
        have hafter := Protocol.nodes_step hw
        refine ExplorationManager.blockedBy_iff.2 ⟨?_, reading.now, ?_, ?_⟩
        · rw [show (s'.world.nodes e.receiver).myId = (s.world.nodes e.receiver).myId from
            (congrArg ExplorationManager.myId hafter).trans hid]
          exact hown
        · refine (congrArg (fun m => m.map.claimed.get? cell) hafter).trans ?_
          refine (congrArg (fun g => g.claimed.get? cell) hmap).trans ?_
          exact GridMap.get?_takeOver_of_mem _ e.message.distinct hmem hempty hown hexplored hcells
        · exact le_of_eq (add_sub_cancel_left reading.now GridMap.claimTimeout)
      · exact absurd hears hnot

/-! ### When claims expire -/

/-- **Claims of a drone expire**: `n` timeouts after a time, no other drone is kept from a cell by a
claim of `x`, however long nothing more happens. -/
def Expired (n : ℕ) (x : Str) (t₀ : ℚ) (s : Flight) : Prop :=
  ∀ t, s.clock ≤ t → t₀ + n * GridMap.claimTimeout < t →
    ∀ y ≠ x, ∀ cell, ¬ (s.world.nodes y).BlockedBy x cell t

/-- A move that refreshes a claim of `x` is made before the last of the `n` timeouts begins. -/
def NotLate (n : ℕ) (x : Str) (t₀ : ℚ) (s : Flight) (mv : ExplorerMove) : Prop :=
  Refreshes x s mv → time mv ≤ t₀ + (n - 1) * GridMap.claimTimeout

variable {n : ℕ} {t₀ : ℚ} {mvs : List ExplorerMove}

theorem expired_newFlight : Expired n x t₀ newFlight := by
  intro t _ _ y _ cell hblocked
  obtain ⟨-, ts, hclaim, -⟩ := ExplorationManager.blockedBy_iff.1 hblocked
  cases hclaim

/-- A move that is not late keeps the claims expired. -/
theorem expired_step (hs : Named s) (hexpired : Expired n x t₀ s) (hmv : NotLate n x t₀ s mv)
    (h : flightStep members s mv = some s') : Expired n x t₀ s' := by
  intro t hclock ht y hy cell hblocked
  obtain ⟨htime, -, hnow⟩ := flightStep_eq_some h
  obtain ⟨-, ts, hclaim, hfresh⟩ := ExplorationManager.blockedBy_iff.1 hblocked
  obtain hold | ⟨hrefresh, rfl⟩ := claim_step hs h hy hclaim
  · -- the claim was there before, so that it kept the drone from the cell at that time too
    refine hexpired t (htime.trans (hnow ▸ hclock)) ht y hy cell ?_
    refine ExplorationManager.blockedBy_iff.2 ⟨?_, ts, hold, hfresh⟩
    rw [hs y]
    exact hy.symm
  · have hlate := hmv hrefresh
    linarith

/-- A move that is late makes a claim that does not expire in time. -/
theorem not_expired_of_late (hs : Named s) (hmv : ¬ NotLate n x t₀ s mv)
    (h : flightStep members s mv = some s') : ¬ Expired n x t₀ s' := by
  intro hexpired
  obtain ⟨hrefresh, hlate⟩ := Classical.not_imp.1 hmv
  obtain ⟨-, -, hnow⟩ := flightStep_eq_some h
  obtain ⟨y, hy, cell, hblocked⟩ := blockedBy_of_refreshes hs h hrefresh
  refine hexpired _ ?_ ?_ y hy cell hblocked
  · rw [hnow]
    norm_num [GridMap.claimTimeout]
  · linarith

/-- **When the claims of a drone expire**: all along a run, `n` timeouts after `t₀`, exactly if no
move of the run refreshes one of them during the last timeout or later. -/
theorem claims_expire_iff (h : run (flightStep members) newFlight mvs = some s) :
    (∀ p s', p <+: mvs → run (flightStep members) newFlight p = some s' →
        Expired members.length x t₀ s') ↔
      Along (flightStep members) (NotLate members.length x t₀) newFlight mvs := by
  refine always_iff_along_of_run
    (I := fun s => Named s ∧ Expired members.length x t₀ s) (fun _ hs => hs.2) ?_ ?_
    ⟨fun _ => rfl, expired_newFlight⟩ h
  · rintro s₁ mv s₂ ⟨hnamed, hexpired⟩ hmv hstep
    exact ⟨named_step hnamed hstep, expired_step hnamed hexpired hmv hstep⟩
  · rintro s₁ mv s₂ ⟨hnamed, -⟩ hlate hstep
    exact not_expired_of_late hnamed hlate hstep

/-! ### A claim that goes round -/

namespace ExplorationManager

/-- Nothing is nearer than the cell in which a drone is. -/
theorem foldl_nearer_self (place : Cell) (cells : List Cell) (cell : Cell) :
    cells.foldl (nearer place) (some (0, cell)) = some (0, cell) := by
  induction cells with
  | nil => rfl
  | cons c cells ih =>
      have hfar : ¬ |c.1 - place.1| + |c.2 - place.2| < 0 :=
        not_lt.2 (add_nonneg (abs_nonneg _) (abs_nonneg _))
      rw [List.foldl_cons, nearer]
      simpa [hfar] using ih

/-- A drone without a target claims the best cell that is free. -/
theorem chooseNextTarget_of_best (m : ExplorationManager) (x y now : ℚ) (best : ℤ × Cell)
    (htarget : m.currentTarget = none)
    (hbest : (grid.filter fun cell => !m.map.isExplored cell &&
      !m.map.isBlockedFor cell m.myId now).foldl (nearer (GridMap.cellFromPosition x y)) none =
        some best) :
    (m.chooseNextTarget x y now).2 =
      { m with map := m.map.claimForSelf best.2 m.myId now, currentTarget := some best.2 } := by
  rw [chooseNextTarget, hbest, htarget]
  rfl

/-- The first claim of a drone in the corner of the grid. -/
theorem chooseNextTarget_new (myId : Str) (now : ℚ) :
    ((new myId).chooseNextTarget 0 0 now).2 =
      ⟨myId, ⟨[], OrderedMap.set ∅ (0, 0) (myId, now)⟩, some (0, 0), 0, ∅⟩ := by
  have hgrid : grid = (0, 0) :: grid.tail := rfl
  have hplace : GridMap.cellFromPosition 0 0 = (0, 0) := by decide +kernel
  have hfirst : nearer (0, 0) none (0, 0) = some (0, (0, 0)) := by decide
  have hfree : ∀ cell ∈ grid, (!(new myId).map.isExplored cell &&
      !(new myId).map.isBlockedFor cell (new myId).myId now) = true := fun _ _ => rfl
  refine chooseNextTarget_of_best (new myId) 0 0 now (0, (0, 0)) rfl ?_
  rw [List.filter_eq_self.2 hfree, hplace, hgrid, List.foldl_cons, hfirst]
  exact foldl_nearer_self (0, 0) grid.tail (0, 0)

end ExplorationManager

theorem after_chooseNextTarget {members : List Str} (i : Str) (now x y : ℚ)
    (w : World Str ExplorationManager ExplorationUpdate) :
    (explorers members).after w (.act i ⟨now, .chooseNextTarget x y⟩) =
      ((w.nodes i).chooseNextTarget x y now).2 := rfl

/-- Three drones. -/
def drones : List Str := [("x" : Str), ("y" : Str), ("z" : Str)]

def smallSwarm : Vertex := ⟨false, some 2⟩

/-- An update that brings the claim of `x` on the corner of the grid. -/
def claimOfX (sender : Str) : ExplorationUpdate where
  cells := []
  claims := [((0, 0), ("x" : Str))]
  sender := sender
  relayTtl := 0
  epidemicId := none
  distinct := List.nodup_singleton _

/-- A drone sends its update to another one, where it comes in at once. -/
def tells (i j : Str) (now : ℚ) : List ExplorerMove :=
  [.act i ⟨now, .update smallSwarm 0 0 [j]⟩,
    .deliver ⟨i, j, claimOfX i⟩ ⟨now, smallSwarm, []⟩]

/-- `x` claims the corner of the grid. -/
def firstClaim : ExplorerMove := .act ("x" : Str) ⟨0, .chooseNextTarget 0 0⟩

def afterFirstClaim : Flight where
  world :=
    { nodes := Function.update .new ("x" : Str)
        ⟨("x" : Str), ⟨[], OrderedMap.set ∅ (0, 0) (("x" : Str), 0)⟩, some (0, 0), 0, ∅⟩
      inFlight := [] }
  clock := 0

theorem step_firstClaim : flightStep drones newFlight firstClaim = some afterFirstClaim := by
  have hafter : (explorers drones).after newFlight.world firstClaim =
      ⟨("x" : Str), ⟨[], OrderedMap.set ∅ (0, 0) (("x" : Str), 0)⟩, some (0, 0), 0, ∅⟩ := by
    rw [firstClaim, after_chooseNextTarget]
    exact ExplorationManager.chooseNextTarget_new ("x" : Str) 0
  have hstep : (explorers drones).step newFlight.world firstClaim = some afterFirstClaim.world := by
    refine Protocol.step_eq_some.2 ⟨List.mem_cons_self, ?_⟩
    rw [hafter]
    rfl
  rw [flightStep, hstep]
  exact if_pos le_rfl

/-- `x` sends its claim to `y`, and is gone. -/
def lastWords : List ExplorerMove := firstClaim :: tells ("x" : Str) ("y" : Str) 6

/-- The others tell each other of the claim. -/
def rumours : List ExplorerMove :=
  tells ("y" : Str) ("z" : Str) 12 ++ tells ("z" : Str) ("y" : Str) 18 ++
    tells ("y" : Str) ("z" : Str) 24 ++ tells ("z" : Str) ("y" : Str) 30

theorem run_lastWords (mvs : List ExplorerMove) :
    run (flightStep drones) newFlight (lastWords ++ mvs) =
      run (flightStep drones) afterFirstClaim (tells ("x" : Str) ("y" : Str) 6 ++ mvs) := by
  rw [lastWords, List.cons_append, run, step_firstClaim]
  rfl

/-- `x` is gone at 6 and none of its messages is in flight, but more than three timeouts later its
claim keeps `y` from the corner of the grid. -/
theorem claim_of_x_goes_round : ∃ s₁ s₂,
    run (flightStep drones) newFlight lastWords = some s₁ ∧ s₁.clock = 6 ∧
      s₁.world.inFlight = [] ∧
      run (flightStep drones) s₁ rumours = some s₂ ∧ (∀ mv ∈ rumours, mv.node ≠ ("x" : Str)) ∧
      ¬ Expired drones.length ("x" : Str) 6 s₂ := by
  obtain ⟨s₂, h₂⟩ : ∃ s₂, run (flightStep drones) newFlight (lastWords ++ rumours) = some s₂ := by
    rw [run_lastWords]
    exact Option.isSome_iff_exists.1 (by decide +kernel)
  obtain ⟨s₁, h₁, hrest⟩ := run_append.1 h₂
  have hquiet : s₁.clock = 6 ∧ s₁.world.inFlight = [] := by
    have h : ∀ s ∈ run (flightStep drones) afterFirstClaim (tells ("x" : Str) ("y" : Str) 6 ++ []),
        s.clock = 6 ∧ s.world.inFlight = [] := by decide +kernel
    rw [← run_lastWords, List.append_nil] at h
    exact h s₁ h₁
  have hclaim : s₂.clock = 30 ∧
      (s₂.world.nodes ("y" : Str)).map.claimed.get? (0, 0) = some (("x" : Str), 30) := by
    have h : ∀ s ∈ run (flightStep drones) afterFirstClaim
        (tells ("x" : Str) ("y" : Str) 6 ++ rumours), s.clock = 30 ∧
          (s.world.nodes ("y" : Str)).map.claimed.get? (0, 0) = some (("x" : Str), 30) := by
      decide +kernel
    rw [← run_lastWords] at h
    exact h s₂ h₂
  have hxy : ("y" : Str) ≠ ("x" : Str) := by decide
  refine ⟨s₁, s₂, h₁, hquiet.1, hquiet.2, hrest, by decide, fun hexpired => ?_⟩
  refine hexpired 40 ?_ ?_ ("y" : Str) hxy (0, 0) ?_
  · rw [hclaim.1]
    norm_num
  · norm_num [drones, GridMap.claimTimeout]
  · refine ExplorationManager.blockedBy_iff.2 ⟨?_, 30, hclaim.2, ?_⟩
    · rw [named_run h₂ ("y" : Str)]
      exact hxy.symm
    · norm_num [GridMap.claimTimeout]

/-- Until then the claim of `x` was noted once, and early. -/
theorem claims_expire_iff_lastWords : ∃ s,
    run (flightStep drones) newFlight lastWords = some s ∧
      ∀ p s', p <+: lastWords → run (flightStep drones) newFlight p = some s' →
        Expired drones.length ("x" : Str) 6 s' := by
  obtain ⟨s, h⟩ : ∃ s, run (flightStep drones) newFlight lastWords = some s := by
    rw [← List.append_nil lastWords, run_lastWords]
    exact Option.isSome_iff_exists.1 (by decide +kernel)
  have hearly : ∀ mv ∈ lastWords, time mv ≤ 6 + (drones.length - 1) * GridMap.claimTimeout := by
    decide +kernel
  refine ⟨s, h, (claims_expire_iff h).2 ?_⟩
  refine Along.mono ?_ (along_of_forall hearly newFlight)
  intro _ mv htime _
  exact htime

end Exploration
