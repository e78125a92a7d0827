/-
**Two drones and one cell** (`swarm/exploration.py`).

Two drones have chosen the same cell.  Each sends one update, receives the other's, and chooses
again.  An update carries the own claim unless it is stale, or was replaced by the claim of the
other one; whoever receives it yields if it chooses before the timeout.  Nothing decides between the
two claims: if both updates are on their way at the same time, both drones yield.

Main definitions:

* `Exploration.GridMap.ClaimsUnexplored` — no cell that is claimed is explored;
* `Exploration.Contenders`, `Exploration.Contest`, `Exploration.contestStep` — the two drones, and
  the updates between them;
* `Exploration.Talk`, `Exploration.talkStep` — who tells whom of its claim, read off the order and
  the times alone;
* `Exploration.OneKeeps` — exactly one drone still has the cell as its target.

Main results:

* `Exploration.claimsUnexplored_run` — in every flight the cells that are claimed are unexplored;
* `Exploration.follows_step` — a drone knows of the claim that it was told of last;
* `Exploration.oneKeeps_iff` — **exactly one drone keeps the cell exactly if exactly one of them is
  told of the other's claim and chooses again in time.**
-/
import Endendend.Exploration.StaleClaims

set_option relaxedAutoImplicit false
set_option autoImplicit false

namespace Exploration

open Py (Str)
open Js (OrderedMap)
open Runs
open Network (Envelope Protocol World Move)

/-! ### Claims are on unexplored cells -/

namespace GridMap

variable {g : GridMap} {cell : Cell} {myId : Str} {ts : ℚ} {cells : List Cell}
  {claims : List (Cell × Str)}

def ClaimsUnexplored (g : GridMap) : Prop :=
  ∀ cell claim, g.claimed.get? cell = some claim → cell ∉ g.explored

theorem explored_foldl_noteClaim (myId : Str) (ts : ℚ) (g : GridMap)
    (claims : List (Cell × Str)) :
    (claims.foldl (noteClaim myId ts) g).explored = g.explored := by
  induction claims generalizing g with
  | nil => rfl
  | cons p claims ih =>
      rw [List.foldl_cons, ih, noteClaim_eq]
      split <;> rfl

theorem mem_explored_takeOver : cell ∈ (g.takeOver myId ts cells claims).explored ↔
    cell ∈ g.explored ∨ cell ∈ cells := by
  rw [takeOver, explored_foldl_noteClaim, explored_foldl_markExplored]

/-- An update that brings no claim of another drone on a cell leaves the claim on it as it is. -/
theorem get?_takeOver_of_not_noted (hdistinct : (claims.map Prod.fst).Nodup) (hcells : cell ∉ cells)
    (hnone : ∀ owner, (cell, owner) ∈ claims → owner = Str.empty ∨ owner = myId) :
    (g.takeOver myId ts cells claims).claimed.get? cell = g.claimed.get? cell := by
  rw [takeOver, get?_foldl_noteClaim _ _ _ hdistinct, get?_foldl_markExplored, if_neg hcells]
  have hskipped : (OrderedMap.getList cell claims).filter (fun owner =>
      decide ((cells.foldl markExplored g).Notes myId cell owner)) = none := by
    rw [Option.filter_eq_none_iff]
    intro owner howner hnotes
    have hmem := (OrderedMap.mem_iff_getList hdistinct).2 howner
    obtain ⟨hempty, hown, -⟩ := of_decide_eq_true hnotes
    exact (hnone owner hmem).elim hempty hown
  rw [hskipped]
  rfl

theorem ClaimsUnexplored.takeOver (h : g.ClaimsUnexplored)
    (hdistinct : (claims.map Prod.fst).Nodup) :
    (g.takeOver myId ts cells claims).ClaimsUnexplored := by
  rintro cell ⟨owner, ts'⟩ hclaim
  rw [mem_explored_takeOver, not_or]
  obtain hold | ⟨-, -, -, hnot⟩ := get?_of_takeOver hdistinct hclaim
  · refine ⟨h cell _ hold, fun hcells => ?_⟩
    rw [GridMap.takeOver, get?_foldl_noteClaim _ _ _ hdistinct, get?_foldl_markExplored,
      if_pos hcells, Option.or_none] at hclaim
    obtain ⟨owner', hfilter, -⟩ := Option.map_eq_some_iff.1 hclaim
    obtain ⟨-, -, hnot⟩ := of_decide_eq_true (Option.filter_eq_some_iff.1 hfilter).2
    exact hnot ((explored_foldl_markExplored g cells cell).2 (Or.inr hcells))
  · exact hnot

end GridMap

namespace ExplorationManager

variable {m : ExplorationManager} {now : ℚ}

theorem map_update (m : ExplorationManager) (now : ℚ) (v : Vertex) (ns rand : ℤ) :
    (m.update now v ns rand).2.map = m.map.cleanupStaleClaims now := by
  rw [update]
  split <;> rfl

theorem claimsUnexplored_update (h : m.map.ClaimsUnexplored) (v : Vertex) (ns rand : ℤ) :
    (m.update now v ns rand).2.map.ClaimsUnexplored := by
  intro cell claim hclaim
  rw [map_update]
  exact h cell claim (claim_of_update hclaim)

/-- The cell that is chosen is one of those that are free. -/
theorem mem_of_foldl_nearer {place : Cell} {l : List Cell} {best : Option (ℤ × Cell)}
    {b : ℤ × Cell} (h : l.foldl (nearer place) best = some b) : best = some b ∨ b.2 ∈ l := by
  induction l generalizing best with
  | nil => exact Or.inl h
  | cons cell l ih =>
      obtain hbest | hmem := ih h
      · rw [nearer] at hbest
        split at hbest
        · obtain rfl := Option.some.inj hbest
          exact Or.inr List.mem_cons_self
        · exact Or.inl hbest
      · exact Or.inr (List.mem_cons_of_mem _ hmem)

/-- **What choosing a target does**: the target is kept, or there is none, or a free cell is
claimed. -/
theorem chooseNextTarget_cases (m : ExplorationManager) (x y now : ℚ) :
    (m.currentTarget.any fun cell =>
        !m.map.isExplored cell && !m.map.isBlockedFor cell m.myId now) = true ∧
      (m.chooseNextTarget x y now).2 = m ∨
    (m.currentTarget.any fun cell =>
        !m.map.isExplored cell && !m.map.isBlockedFor cell m.myId now) = false ∧
      ((m.chooseNextTarget x y now).2 = { m with currentTarget := none } ∨
        ∃ cell, m.map.isExplored cell = false ∧ m.map.isBlockedFor cell m.myId now = false ∧
          (m.chooseNextTarget x y now).2 =
            { m with map := m.map.claimForSelf cell m.myId now, currentTarget := some cell }) := by
  rw [chooseNextTarget]
  by_cases hfree : (m.currentTarget.any fun cell =>
      !m.map.isExplored cell && !m.map.isBlockedFor cell m.myId now) = true
  · rw [if_pos hfree]
    exact Or.inl ⟨hfree, rfl⟩
  · rw [if_neg hfree]
    refine Or.inr ⟨Bool.eq_false_of_not_eq_true hfree, ?_⟩
    split
    · exact Or.inl rfl
    · next best hbest =>
      obtain hnone | hmem := mem_of_foldl_nearer hbest
      · cases hnone
      · have hcell := (List.mem_filter.1 hmem).2
        rw [Bool.and_eq_true, Bool.not_eq_true', Bool.not_eq_true'] at hcell
        exact Or.inr ⟨best.2, hcell.1, hcell.2, rfl⟩

theorem claimsUnexplored_chooseNextTarget (h : m.map.ClaimsUnexplored) (x y : ℚ) :
    (m.chooseNextTarget x y now).2.map.ClaimsUnexplored := by
  obtain ⟨-, heq⟩ | ⟨-, heq | ⟨cell, hfree, -, heq⟩⟩ := m.chooseNextTarget_cases x y now
  · rw [heq]
    exact h
  · rw [heq]
    exact h
  · rw [heq]
    intro cell' claim hclaim
    have hget : (m.map.claimed.set cell (m.myId, now)).get? cell' = some claim := hclaim
    rw [OrderedMap.get?_set] at hget
    split at hget
    · next hsame =>
      subst hsame
      intro hexplored
      exact absurd (List.contains_iff_mem.2 hexplored) (ne_true_of_eq_false hfree)
    · exact h cell' claim hget

theorem claimsUnexplored_handle (h : m.map.ClaimsUnexplored) (sender : Str)
    (msg : ExplorationUpdate) (v : Vertex) :
    (m.handleExplorationUpdate sender msg now v).2.map.ClaimsUnexplored := by
  obtain ⟨-, ⟨-, hmap⟩ | ⟨-, hmap⟩⟩ := m.handleExplorationUpdate_cases sender msg now v
  · rw [hmap]
    exact h.takeOver msg.distinct
  · rw [hmap]
    exact h

theorem claimsUnexplored_reachedTarget (h : m.map.ClaimsUnexplored) (c : Cell) :
    (m.reachedTarget c).map.ClaimsUnexplored := by
  intro cell claim hclaim hexplored
  have hmark : (m.map.markExplored c).claimed.get? cell = some claim ∧
      cell ∈ (m.map.markExplored c).explored := by
    rw [reachedTarget, GridMap.releaseSelfClaim] at hclaim hexplored
    split at hclaim
    · next hself =>
      rw [if_pos hself] at hexplored
      rw [OrderedMap.get?_erase] at hclaim
      split at hclaim
      · cases hclaim
      · exact ⟨hclaim, hexplored⟩
    · next hself =>
      rw [if_neg hself] at hexplored
      exact ⟨hclaim, hexplored⟩
  obtain ⟨hget, hmem⟩ := hmark
  rw [GridMap.get?_markExplored] at hget
  split at hget
  · cases hget
  · next hne =>
    refine h cell claim hget ((Js.mem_setAdd.1 hmem).resolve_right hne)

end ExplorationManager

variable {members : List Str} {s s' : Flight} {mv : ExplorerMove}

/-- **In every flight the cells that are claimed are unexplored.** -/
theorem claimsUnexplored_run {mvs : List ExplorerMove}
    (h : run (flightStep members) newFlight mvs = some s) (i : Str) :
    (s.world.nodes i).map.ClaimsUnexplored := by
  refine invariant_of_run (I := fun s : Flight => ∀ i, (s.world.nodes i).map.ClaimsUnexplored)
    ?_ (fun i cell claim hclaim => by cases hclaim) h i
  intro s mv s' hs hstep i
  obtain ⟨-, hw, -⟩ := flightStep_eq_some hstep
  by_cases hi : i = mv.node
  · subst hi
    rw [Protocol.nodes_step hw]
    cases mv with
    | act i event =>
        obtain ⟨now, action⟩ := event
        cases action with
        | update v ns rand reached =>
            exact ExplorationManager.claimsUnexplored_update (hs i) v ns rand
        | chooseNextTarget x y =>
            exact ExplorationManager.claimsUnexplored_chooseNextTarget (hs i) x y
        | reachedTarget c => exact ExplorationManager.claimsUnexplored_reachedTarget (hs i) c
    | deliver e reading =>
        exact ExplorationManager.claimsUnexplored_handle (hs e.receiver) e.sender e.message
          reading.v
  · rw [Protocol.nodes_step_of_ne hw hi]
    exact hs i

/-! ### The two drones -/

inductive Side
  | left
  | right
  deriving DecidableEq

namespace Side

def other : Side → Side
  | left => right
  | right => left

end Side

/-- Two drones that have chosen the same cell, with the times at which they have claimed it. -/
structure Contenders where
  cell : Cell
  managers : Side → ExplorationManager
  since : Side → ℚ
  clock : ℚ
  names_ne : ∀ i, (managers i.other).myId ≠ (managers i).myId
  targets : ∀ i, (managers i).currentTarget = some cell
  claims : ∀ i, (managers i).map.claimed.get? cell = some ((managers i).myId, since i)
  live : ∀ i, clock - since i ≤ GridMap.claimTimeout
  unexplored : ∀ i, (managers i).map.ClaimsUnexplored

/-- The drones, the updates that they have sent, and who has received and chosen. -/
structure Contest where
  managers : Side → ExplorationManager
  sent : Side → Option ExplorationUpdate
  received : Side → Bool
  chosen : Side → Bool
  clock : ℚ

namespace Contenders

variable (p : Contenders)

def contest : Contest := ⟨p.managers, fun _ => none, fun _ => false, fun _ => false, p.clock⟩

def name (i : Side) : Str := (p.managers i).myId

end Contenders

inductive Deed
  | broadcast (v : Vertex) (ns rand : ℤ)
  | receive (v : Vertex)
  | choose (x y : ℚ)

/-- A drone does something at a time. -/
structure Turn where
  side : Side
  now : ℚ
  deed : Deed

instance (m : ExplorationManager) (sender : Str) (msg : ExplorationUpdate) (now : ℚ) :
    Decidable (m.Hears sender msg now) :=
  inferInstanceAs (Decidable (_ ∧ _))

/-- Each drone sends one update, receives the other's, and chooses again when both have done
this. -/
def contestStep (s : Contest) (t : Turn) : Option Contest :=
  if s.clock ≤ t.now then
    match t.deed with
    | .broadcast v ns rand =>
      let updated := (s.managers t.side).update t.now v ns rand
      if s.sent t.side = none then
        updated.1.map fun sending =>
          { s with
            managers := Function.update s.managers t.side updated.2
            sent := Function.update s.sent t.side (some sending.message)
            clock := t.now }
      else none
    | .receive v =>
      let sender := (s.managers t.side.other).myId
      (s.sent t.side.other).bind fun msg =>
        if s.received t.side = false ∧ (s.managers t.side).Hears sender msg t.now then
          some
            { s with
              managers := Function.update s.managers t.side
                ((s.managers t.side).handleExplorationUpdate sender msg t.now v).2
              received := Function.update s.received t.side true
              clock := t.now }
        else none
    | .choose x y =>
      if (s.received .left ∧ s.received .right) ∧ s.chosen t.side = false then
        some
          { s with
            managers := Function.update s.managers t.side
              ((s.managers t.side).chooseNextTarget x y t.now).2
            chosen := Function.update s.chosen t.side true
            clock := t.now }
      else none
  else none

/-- Exactly one drone has the cell as its target. -/
def OneKeeps (p : Contenders) (s : Contest) : Prop :=
  ∃ i, (s.managers i).currentTarget = some p.cell ∧
    (s.managers i.other).currentTarget ≠ some p.cell

/-! ### Who tells whom -/

/-- Whose update brings its own claim, who was told of the other's claim and when, and who yields
to it. -/
structure Talk where
  tells : Side → Bool
  told : Side → Option ℚ
  yields : Side → Bool

/-- A drone tells of its claim if that is not stale and it was not told of the other's before; and
it yields if it chooses before the timeout after it was told. -/
def talkStep (p : Contenders) (talk : Talk) (t : Turn) : Talk :=
  match t.deed with
  | .broadcast _ _ _ =>
    { talk with
      tells := Function.update talk.tells t.side
        (decide (talk.told t.side = none ∧ t.now - p.since t.side ≤ GridMap.claimTimeout)) }
  | .receive _ =>
    if talk.tells t.side.other = true ∧ p.name t.side.other ≠ Str.empty then
      { talk with told := Function.update talk.told t.side (some t.now) }
    else talk
  | .choose _ _ =>
    { talk with
      yields := Function.update talk.yields t.side
        ((talk.told t.side).any fun r => t.now - r ≤ GridMap.claimTimeout) }

def talkOf (p : Contenders) (ts : List Turn) : Talk :=
  ts.foldl (talkStep p) ⟨fun _ => false, fun _ => none, fun _ => false⟩

/-- The claim that a drone has noted last: its own, or the one that it was told of. -/
def Contenders.lastClaim (p : Contenders) (talk : Talk) (i : Side) : Str × ℚ :=
  (talk.told i).elim (p.name i, p.since i) fun r => (p.name i.other, r)

/-- **What a drone knows**: the claim that it has noted last, unless it was dropped as a stale
one. -/
structure Follows (p : Contenders) (s : Contest) (talk : Talk) (i : Side) : Prop where
  name : (s.managers i).myId = p.name i
  unexplored : p.cell ∉ (s.managers i).map.explored
  claim : (s.managers i).map.claimed.get? p.cell = some (p.lastClaim talk i) ∨
    (s.managers i).map.claimed.get? p.cell = none ∧
      GridMap.claimTimeout < s.clock - (p.lastClaim talk i).2
  cells : ∀ msg ∈ s.sent i, p.cell ∉ msg.cells
  owners : ∀ msg ∈ s.sent i, ∀ owner, (p.cell, owner) ∈ msg.claims →
    owner = p.name i ∨ owner = p.name i.other
  tells : ∀ msg ∈ s.sent i, (p.cell, p.name i) ∈ msg.claims ↔ talk.tells i = true
  target : s.chosen i = false → (s.managers i).currentTarget = some p.cell
  yields : s.chosen i = true →
    ((s.managers i).currentTarget = some p.cell ↔ talk.yields i = false)

/-! ### What the drones do -/

namespace ExplorationManager

variable {m m' : ExplorationManager} {now : ℚ} {cell : Cell}

/-- **What a drone sends**: the cells that it has explored, and the claims that are not stale. -/
theorem update_eq_some {v : Vertex} {ns rand : ℤ} {sending : Sending}
    (h : (m.update now v ns rand).1 = some sending) :
    sending.message.cells = m.map.explored ∧
      ∀ cell owner, (cell, owner) ∈ sending.message.claims ↔
        ∃ ts, m.map.claimed.get? cell = some (owner, ts) ∧ now - ts ≤ GridMap.claimTimeout := by
  rw [update] at h
  split at h
  · obtain rfl := Option.some.inj h
    refine ⟨rfl, fun cell owner => ?_⟩
    change (cell, owner) ∈ (m.map.cleanupStaleClaims now).claimed.entries.map _ ↔ _
    rw [List.mem_map]
    constructor
    · rintro ⟨⟨cell', owner', ts⟩, hmem, heq⟩
      obtain ⟨rfl, rfl⟩ := Prod.mk.inj heq
      rw [OrderedMap.mem_entries_iff, GridMap.cleanupStaleClaims, OrderedMap.get?_keep,
        Option.filter_eq_some_iff, decide_eq_true_iff, not_lt] at hmem
      exact ⟨ts, hmem⟩
    · rintro ⟨ts, hget, hfresh⟩
      refine ⟨(cell, owner, ts), ?_, rfl⟩
      rw [OrderedMap.mem_entries_iff, GridMap.cleanupStaleClaims, OrderedMap.get?_keep,
        Option.filter_eq_some_iff, decide_eq_true_iff, not_lt]
      exact ⟨hget, hfresh⟩
  · cases h

theorem currentTarget_update (m : ExplorationManager) (now : ℚ) (v : Vertex) (ns rand : ℤ) :
    (m.update now v ns rand).2.currentTarget = m.currentTarget := by
  rw [update]
  split <;> rfl

theorem currentTarget_handle (m : ExplorationManager) (sender : Str) (msg : ExplorationUpdate)
    (now : ℚ) (v : Vertex) :
    (m.handleExplorationUpdate sender msg now v).2.currentTarget = m.currentTarget := by
  have hnoted : ∀ eid, (m.noteEpidemic now eid).1.currentTarget = m.currentTarget := by
    intro eid
    cases eid with
    | none => rfl
    | some eid =>
        rw [noteEpidemic]
        split <;> rfl
  rw [handleExplorationUpdate]
  split
  · rfl
  · dsimp only
    split
    · split <;> exact hnoted _
    · exact hnoted _

theorem map_handle_of_hears {sender : Str} {msg : ExplorationUpdate} {v : Vertex}
    (h : m.Hears sender msg now) : (m.handleExplorationUpdate sender msg now v).2.map =
      m.map.takeOver m.myId now msg.cells msg.claims := by
  obtain ⟨-, ⟨-, hmap⟩ | ⟨hnot, -⟩⟩ := m.handleExplorationUpdate_cases sender msg now v
  · exact hmap
  · exact absurd h hnot

/-- **A drone whose target is unexplored keeps it exactly if it is not blocked**; the claim on it
stays. -/
theorem chooseNextTarget_target (htarget : m.currentTarget = some cell)
    (hexplored : cell ∉ m.map.explored) (x y now : ℚ) :
    ((m.chooseNextTarget x y now).2.currentTarget = some cell ↔
        m.map.isBlockedFor cell m.myId now = false) ∧
      (m.chooseNextTarget x y now).2.map.explored = m.map.explored ∧
      (m.chooseNextTarget x y now).2.map.claimed.get? cell = m.map.claimed.get? cell := by
  have hunexplored : m.map.isExplored cell = false := by
    rw [GridMap.isExplored, List.contains_eq_mem, decide_eq_false hexplored]
  obtain ⟨hfree, heq⟩ | ⟨hfree, heq⟩ := m.chooseNextTarget_cases x y now
  · rw [htarget, Option.any_some, hunexplored, Bool.not_false, Bool.true_and,
      Bool.not_eq_true'] at hfree
    rw [heq]
    exact ⟨iff_of_true htarget hfree, rfl, rfl⟩
  · rw [htarget, Option.any_some, hunexplored, Bool.not_false, Bool.true_and,
      Bool.not_eq_false'] at hfree
    obtain heq | ⟨cell', -, hfree', heq⟩ := heq
    · rw [heq, hfree]
      exact ⟨iff_of_false (fun h => by cases h) (by decide), rfl, rfl⟩
    · have hne : cell' ≠ cell := by
        rintro rfl
        exact absurd hfree (ne_true_of_eq_false hfree')
      rw [heq, hfree]
      refine ⟨iff_of_false (fun h => hne (Option.some.inj h)) (by decide), rfl, ?_⟩
      exact (OrderedMap.get?_set _ _ _ _).trans (if_neg hne.symm)

end ExplorationManager

/-! ### What the drones know -/

variable {p : Contenders} {c c' : Contest} {talk : Talk} {i : Side} {t : Turn}

theorem Follows.name_ne (h : Follows p c talk i) : p.name i.other ≠ (c.managers i).myId := by
  rw [h.name]
  exact p.names_ne i

/-- What a drone knows stays while the other one does something. -/
theorem Follows.frame {talk' : Talk} (h : Follows p c talk i)
    (hmanager : c'.managers i = c.managers i) (hsent : c'.sent i = c.sent i)
    (hchosen : c'.chosen i = c.chosen i) (hclock : c.clock ≤ c'.clock)
    (htells : talk'.tells i = talk.tells i) (htold : talk'.told i = talk.told i)
    (hyields : talk'.yields i = talk.yields i) : Follows p c' talk' i := by
  have hlast : p.lastClaim talk' i = p.lastClaim talk i := by
    rw [Contenders.lastClaim, htold, Contenders.lastClaim]
  constructor
  · exact hmanager ▸ h.name
  · exact hmanager ▸ h.unexplored
  · rw [hmanager, hlast]
    exact h.claim.imp_right fun ⟨hnone, hstale⟩ => ⟨hnone, by linarith⟩
  · exact hsent ▸ h.cells
  · exact hsent ▸ h.owners
  · rw [hsent, htells]
    exact h.tells
  · rw [hchosen, hmanager]
    exact h.target
  · rw [hchosen, hmanager, hyields]
    exact h.yields

/-- The claim that is noted last, while it is fresh. -/
theorem Follows.claim_iff (h : Follows p c talk i) {now : ℚ} (hclock : c.clock ≤ now)
    (owner : Str) (ts : ℚ) :
    (c.managers i).map.claimed.get? p.cell = some (owner, ts) ∧
        now - ts ≤ GridMap.claimTimeout ↔
      (owner, ts) = p.lastClaim talk i ∧ now - ts ≤ GridMap.claimTimeout := by
  refine and_congr_left fun hfresh => ?_
  obtain hclaim | ⟨hnone, hstale⟩ := h.claim
  · rw [hclaim, Option.some.injEq, eq_comm]
  · rw [hnone]
    refine iff_of_false (fun h => by cases h) fun heq => ?_
    rw [← heq] at hstale
    dsimp only at hstale
    linarith

theorem follows_broadcast {v : Vertex} {ns rand : ℤ} {now : ℚ} {sending : Sending}
    (h : Follows p c talk i) (hclock : c.clock ≤ now)
    (hsending : ((c.managers i).update now v ns rand).1 = some sending)
    (hmanager : c'.managers i = ((c.managers i).update now v ns rand).2)
    (hsent : c'.sent i = some sending.message)
    (hchosen : c'.chosen i = c.chosen i) (hnow : c'.clock = now) :
    Follows p c' (talkStep p talk ⟨i, now, .broadcast v ns rand⟩) i := by
  obtain ⟨hcells, hclaims⟩ := ExplorationManager.update_eq_some hsending
  have hclaims' : ∀ owner, (p.cell, owner) ∈ sending.message.claims ↔
      owner = (p.lastClaim talk i).1 ∧ now - (p.lastClaim talk i).2 ≤ GridMap.claimTimeout := by
    intro owner
    rw [hclaims]
    simp only [h.claim_iff hclock, Prod.ext_iff]
    constructor
    · rintro ⟨ts, ⟨rfl, rfl⟩, hfresh⟩
      exact ⟨rfl, hfresh⟩
    · rintro ⟨rfl, hfresh⟩
      exact ⟨_, ⟨rfl, rfl⟩, hfresh⟩
  have hlast : p.lastClaim (talkStep p talk ⟨i, now, .broadcast v ns rand⟩) i =
      p.lastClaim talk i := rfl
  constructor
  · rw [hmanager, ExplorationManager.myId_update]
    exact h.name
  · rw [hmanager, ExplorationManager.map_update]
    exact h.unexplored
  · rw [hmanager, ExplorationManager.map_update, hlast, hnow, GridMap.cleanupStaleClaims,
      OrderedMap.get?_keep]
    by_cases hfresh : now - (p.lastClaim talk i).2 ≤ GridMap.claimTimeout
    · obtain hclaim | ⟨-, hstale⟩ := h.claim
      · left
        rw [hclaim, Option.filter_some, if_pos (decide_eq_true (not_lt.2 hfresh))]
      · linarith
    · refine Or.inr ⟨?_, not_le.1 hfresh⟩
      rw [Option.filter_eq_none_iff]
      rintro ⟨owner, ts⟩ hget hkept
      obtain ⟨hlastClaim, hfresh'⟩ :=
        (h.claim_iff hclock owner ts).1 ⟨hget, not_lt.1 (of_decide_eq_true hkept)⟩
      rw [← hlastClaim] at hfresh
      exact hfresh hfresh'
  · intro msg hmsg
    obtain rfl := Option.some.inj (hsent.symm.trans hmsg)
    rw [hcells]
    exact h.unexplored
  · intro msg hmsg owner howner
    obtain rfl := Option.some.inj (hsent.symm.trans hmsg)
    obtain ⟨rfl, -⟩ := (hclaims' owner).1 howner
    rw [Contenders.lastClaim]
    cases talk.told i with
    | none => exact Or.inl rfl
    | some r => exact Or.inr rfl
  · intro msg hmsg
    obtain rfl := Option.some.inj (hsent.symm.trans hmsg)
    change _ ↔ Function.update talk.tells i (decide (talk.told i = none ∧
      now - p.since i ≤ GridMap.claimTimeout)) i = true
    rw [hclaims', Contenders.lastClaim, Function.update_self, decide_eq_true_iff]
    cases talk.told i with
    | none => simp
    | some r => exact iff_of_false (fun h => p.names_ne i h.1.symm) fun h => by cases h.1
  · rw [hchosen, hmanager, ExplorationManager.currentTarget_update]
    exact h.target
  · rw [hchosen, hmanager, ExplorationManager.currentTarget_update]
    exact h.yields

theorem follows_receive {v : Vertex} {now : ℚ} {msg : ExplorationUpdate}
    (h : Follows p c talk i) (hother : Follows p c talk i.other) (hclock : c.clock ≤ now)
    (hmsg : c.sent i.other = some msg)
    (hears : (c.managers i).Hears (c.managers i.other).myId msg now)
    (hmanager : c'.managers i = ((c.managers i).handleExplorationUpdate
      (c.managers i.other).myId msg now v).2)
    (hsent : c'.sent i = c.sent i) (hchosen : c'.chosen i = c.chosen i) (hnow : c'.clock = now) :
    Follows p c' (talkStep p talk ⟨i, now, .receive v⟩) i := by
  have hmap : (c'.managers i).map =
      (c.managers i).map.takeOver (c.managers i).myId now msg.cells msg.claims := by
    rw [hmanager]
    exact ExplorationManager.map_handle_of_hears hears
  have hcells := hother.cells msg hmsg
  have htells := hother.tells msg hmsg
  have htalk : (talkStep p talk ⟨i, now, .receive v⟩).tells = talk.tells ∧
      (talkStep p talk ⟨i, now, .receive v⟩).yields = talk.yields := by
    rw [talkStep]
    dsimp only
    split <;> exact ⟨rfl, rfl⟩
  constructor
  · rw [hmanager, (ExplorationManager.handleExplorationUpdate_cases _ _ _ _ _).1]
    exact h.name
  · rw [hmap, GridMap.mem_explored_takeOver, not_or]
    exact ⟨h.unexplored, hcells⟩
  · rw [hmap, hnow, talkStep]
    dsimp only
    by_cases htold : talk.tells i.other = true ∧ p.name i.other ≠ Str.empty
    · -- the claim of the other drone is noted
      have hlast : p.lastClaim { talk with told := Function.update talk.told i (some now) } i =
          (p.name i.other, now) := by
        rw [Contenders.lastClaim]
        dsimp only
        rw [Function.update_self]
        rfl
      rw [if_pos htold, hlast]
      exact Or.inl (GridMap.get?_takeOver_of_mem now msg.distinct (htells.2 htold.1) htold.2
        h.name_ne h.unexplored hcells)
    · -- the update brings no claim of the other drone
      have hnone : ∀ owner, (p.cell, owner) ∈ msg.claims →
          owner = Str.empty ∨ owner = (c.managers i).myId := by
        intro owner howner
        rw [h.name]
        obtain rfl | rfl := hother.owners msg hmsg owner howner
        · left
          by_contra hempty
          exact htold ⟨htells.1 howner, hempty⟩
        · right
          cases i <;> rfl
      rw [if_neg htold, GridMap.get?_takeOver_of_not_noted msg.distinct hcells hnone]
      exact h.claim.imp_right fun ⟨hget, hstale⟩ => ⟨hget, by linarith⟩
  · exact hsent ▸ h.cells
  · exact hsent ▸ h.owners
  · rw [hsent, htalk.1]
    exact h.tells
  · rw [hchosen, hmanager, ExplorationManager.currentTarget_handle]
    exact h.target
  · rw [hchosen, hmanager, ExplorationManager.currentTarget_handle, htalk.2]
    exact h.yields

theorem follows_choose {x y now : ℚ} (h : Follows p c talk i) (hclock : c.clock ≤ now)
    (hunchosen : c.chosen i = false)
    (hmanager : c'.managers i = ((c.managers i).chooseNextTarget x y now).2)
    (hsent : c'.sent i = c.sent i) (hchosen : c'.chosen i = true) (hnow : c'.clock = now) :
    Follows p c' (talkStep p talk ⟨i, now, .choose x y⟩) i := by
  obtain ⟨htarget, hexplored, hclaim⟩ :=
    ExplorationManager.chooseNextTarget_target (h.target hunchosen) h.unexplored x y now
  have hlast : p.lastClaim (talkStep p talk ⟨i, now, .choose x y⟩) i = p.lastClaim talk i := rfl
  constructor
  · rw [hmanager, ExplorationManager.myId_chooseNextTarget]
    exact h.name
  · rw [hmanager, hexplored]
    exact h.unexplored
  · rw [hmanager, hclaim, hlast, hnow]
    exact h.claim.imp_right fun ⟨hget, hstale⟩ => ⟨hget, by linarith⟩
  · exact hsent ▸ h.cells
  · exact hsent ▸ h.owners
  · rw [hsent]
    exact h.tells
  · rw [hchosen]
    intro hnot
    cases hnot
  · intro _
    change _ ↔ Function.update talk.yields i
      ((talk.told i).any fun r => now - r ≤ GridMap.claimTimeout) i = false
    rw [hmanager, htarget, Function.update_self]
    refine not_iff_not.1 ?_
    rw [Bool.not_eq_false, Bool.not_eq_false, GridMap.isBlockedFor_eq_true_iff, Option.any_eq_true]
    constructor
    · rintro ⟨owner, ts, hget, hne, hfresh⟩
      obtain ⟨heq, -⟩ := (h.claim_iff hclock owner ts).1 ⟨hget, hfresh⟩
      rw [Contenders.lastClaim] at heq
      cases htold : talk.told i with
      | none =>
          rw [htold] at heq
          exact absurd ((Prod.mk.inj heq).1.trans h.name.symm) hne
      | some r =>
          rw [htold] at heq
          obtain ⟨-, rfl⟩ := Prod.mk.inj heq
          exact ⟨_, rfl, decide_eq_true hfresh⟩
    · rintro ⟨r, htold, hfresh⟩
      have hlast : p.lastClaim talk i = (p.name i.other, r) := by
        rw [Contenders.lastClaim, htold]
        rfl
      obtain ⟨hget, -⟩ := (h.claim_iff hclock _ r).2 ⟨hlast.symm, of_decide_eq_true hfresh⟩
      exact ⟨_, r, hget, h.name_ne, of_decide_eq_true hfresh⟩

theorem contestStep_clock (h : contestStep c t = some c') : c.clock ≤ t.now ∧ c'.clock = t.now := by
  obtain ⟨hclock, h⟩ := Option.ite_none_right_eq_some.1 h
  refine ⟨hclock, ?_⟩
  split at h
  · obtain ⟨-, h⟩ := Option.ite_none_right_eq_some.1 h
    obtain ⟨sending, -, rfl⟩ := Option.map_eq_some_iff.1 h
    rfl
  · obtain ⟨msg, -, h⟩ := Option.bind_eq_some_iff.1 h
    obtain ⟨-, h⟩ := Option.ite_none_right_eq_some.1 h
    obtain rfl := Option.some.inj h
    rfl
  · obtain ⟨-, h⟩ := Option.ite_none_right_eq_some.1 h
    obtain rfl := Option.some.inj h
    rfl

/-- **A drone knows of the claim that it was told of last**, whatever the drones do. -/
theorem follows_step (h : ∀ i, Follows p c talk i) (hstep : contestStep c t = some c') (i : Side) :
    Follows p c' (talkStep p talk t) i := by
  obtain ⟨hclock, hnow⟩ := contestStep_clock hstep
  obtain ⟨j, now, deed⟩ := t
  dsimp only at hclock hnow
  obtain ⟨-, hstep⟩ := Option.ite_none_right_eq_some.1 hstep
  cases deed with
  | broadcast v ns rand =>
      obtain ⟨-, hstep⟩ := Option.ite_none_right_eq_some.1 hstep
      obtain ⟨sending, hsending, rfl⟩ := Option.map_eq_some_iff.1 hstep
      by_cases hi : i = j
      · subst hi
        exact follows_broadcast (h i) hclock hsending (Function.update_self ..)
          (Function.update_self ..) rfl rfl
      · exact (h i).frame (Function.update_of_ne hi ..) (Function.update_of_ne hi ..) rfl hclock
          (Function.update_of_ne hi ..) rfl rfl
  | receive v =>
      obtain ⟨msg, hmsg, hstep⟩ := Option.bind_eq_some_iff.1 hstep
      obtain ⟨⟨-, hears⟩, hstep⟩ := Option.ite_none_right_eq_some.1 hstep
      obtain rfl := Option.some.inj hstep
      by_cases hi : i = j
      · subst hi
        exact follows_receive (h i) (h i.other) hclock hmsg hears (Function.update_self ..) rfl rfl
          rfl
      · have htalk : (talkStep p talk ⟨j, now, .receive v⟩).tells i = talk.tells i ∧
            (talkStep p talk ⟨j, now, .receive v⟩).told i = talk.told i ∧
            (talkStep p talk ⟨j, now, .receive v⟩).yields i = talk.yields i := by
          rw [talkStep]
          dsimp only
          split
          · exact ⟨rfl, Function.update_of_ne hi .., rfl⟩
          · exact ⟨rfl, rfl, rfl⟩
        exact (h i).frame (Function.update_of_ne hi ..) rfl rfl hclock htalk.1 htalk.2.1
          htalk.2.2
  | choose x y =>
      obtain ⟨⟨-, hunchosen⟩, hstep⟩ := Option.ite_none_right_eq_some.1 hstep
      obtain rfl := Option.some.inj hstep
      by_cases hi : i = j
      · subst hi
        exact follows_choose (h i) hclock hunchosen (Function.update_self ..) rfl
          (Function.update_self ..) rfl
      · exact (h i).frame (Function.update_of_ne hi ..) rfl (Function.update_of_ne hi ..) hclock
          rfl rfl (Function.update_of_ne hi ..)

theorem follows_run {ts : List Turn} (h : run contestStep p.contest ts = some c) (i : Side) :
    Follows p c (talkOf p ts) i := by
  refine invariant_of_history (I := fun ts c => ∀ i, Follows p c (talkOf p ts) i) ?_ ?_ h i
  · intro i
    constructor
    · rfl
    · exact p.unexplored i p.cell _ (p.claims i)
    · exact Or.inl (p.claims i)
    · intro msg hmsg
      cases hmsg
    · intro msg hmsg
      cases hmsg
    · intro msg hmsg
      cases hmsg
    · exact fun _ => p.targets i
    · intro hchosen
      cases hchosen
  · intro ts t c₁ c₂ _ hfollows hstep i
    rw [talkOf, List.foldl_append]
    exact follows_step hfollows hstep i

/-- **When exactly one drone keeps the cell**: exactly if one of them is told of the other's claim
and chooses before the timeout, and the other one is not. -/
theorem oneKeeps_iff {ts : List Turn} (h : run contestStep p.contest ts = some c)
    (hdone : ∀ i, c.chosen i = true) :
    OneKeeps p c ↔ (talkOf p ts).yields .left ≠ (talkOf p ts).yields .right := by
  have htarget : ∀ i, (c.managers i).currentTarget = some p.cell ↔
      (talkOf p ts).yields i = false := fun i => (follows_run h i).yields (hdone i)
  constructor
  · rintro ⟨i, hkeeps, hyields⟩ hsame
    rw [htarget] at hkeeps
    rw [Ne, htarget] at hyields
    cases i with
    | left => exact hyields (hsame.symm.trans hkeeps)
    | right => exact hyields (hsame.trans hkeeps)
  · intro hne
    cases hleft : (talkOf p ts).yields .left with
    | false =>
        refine ⟨.left, (htarget _).2 hleft, fun hright => hne ?_⟩
        exact hleft.trans ((htarget .right).1 hright).symm
    | true =>
        have hright : (talkOf p ts).yields .right = false := by
          rw [hleft] at hne
          exact Bool.eq_false_of_not_eq_true hne.symm
        refine ⟨.right, (htarget _).2 hright, fun hkeeps => hne ?_⟩
        exact ((htarget .left).1 hkeeps).trans hright.symm

/-! ### Two updates on their way at once -/

def contender (name : Str) : ExplorationManager :=
  ⟨name, ⟨[], OrderedMap.empty.set (3, 4) (name, 0)⟩, some (3, 4), 0, ∅⟩

/-- Two drones that have both claimed a cell at the beginning. -/
def twoDrones : Contenders where
  cell := (3, 4)
  managers
    | .left => contender "drone-a"
    | .right => contender "drone-b"
  since _ := 0
  clock := 0
  names_ne i := by cases i <;> decide +kernel
  targets i := by cases i <;> rfl
  claims i := by cases i <;> rfl
  live i := by simp [GridMap.claimTimeout]
  unexplored i cell claim _ h := by cases i <;> cases h

/-- Both send their updates before they receive the other's. -/
def crossedTurns : List Turn :=
  [⟨.left, 6, .broadcast ⟨false, some 1⟩ 0 0⟩, ⟨.right, 6, .broadcast ⟨false, some 1⟩ 0 0⟩,
    ⟨.left, 7, .receive ⟨false, some 1⟩⟩, ⟨.right, 7, .receive ⟨false, some 1⟩⟩,
    ⟨.left, 8, .choose 0 0⟩, ⟨.right, 8, .choose 0 0⟩]

/-- The right drone hears of the left one's claim before it sends its own update. -/
def orderlyTurns : List Turn :=
  [⟨.left, 6, .broadcast ⟨false, some 1⟩ 0 0⟩, ⟨.right, 7, .receive ⟨false, some 1⟩⟩,
    ⟨.right, 8, .broadcast ⟨false, some 1⟩ 0 0⟩, ⟨.left, 9, .receive ⟨false, some 1⟩⟩,
    ⟨.left, 10, .choose 0 0⟩, ⟨.right, 10, .choose 0 0⟩]

theorem oneKeeps_orderlyTurns :
    ∃ c, run contestStep twoDrones.contest orderlyTurns = some c ∧ OneKeeps twoDrones c := by
  obtain ⟨c, hc⟩ : ∃ c, run contestStep twoDrones.contest orderlyTurns = some c :=
    Option.isSome_iff_exists.1 (by decide +kernel)
  have hdone : ∀ c ∈ run contestStep twoDrones.contest orderlyTurns,
      c.chosen .left = true ∧ c.chosen .right = true := by
    decide +kernel
  refine ⟨c, hc, (oneKeeps_iff hc fun i => ?_).2 (by decide +kernel)⟩
  cases i with
  | left => exact (hdone c hc).1
  | right => exact (hdone c hc).2

/-- **Nobody keeps the cell.** -/
theorem abandoned_crossedTurns : ∃ c, run contestStep twoDrones.contest crossedTurns = some c ∧
    (∀ i, c.chosen i = true) ∧ ¬ OneKeeps twoDrones c := by
  obtain ⟨c, hc⟩ : ∃ c, run contestStep twoDrones.contest crossedTurns = some c :=
    Option.isSome_iff_exists.1 (by decide +kernel)
  have hchosen : ∀ c ∈ run contestStep twoDrones.contest crossedTurns,
      c.chosen .left = true ∧ c.chosen .right = true := by
    decide +kernel
  have hdone : ∀ i, c.chosen i = true := by
    intro i
    cases i with
    | left => exact (hchosen c hc).1
    | right => exact (hchosen c hc).2
  have hyields : (talkOf twoDrones crossedTurns).yields .left = true ∧
      (talkOf twoDrones crossedTurns).yields .right = true := by
    decide +kernel
  refine ⟨c, hc, hdone, ?_⟩
  rintro ⟨i, hkeeps, -⟩
  have hnot := ((follows_run hc i).yields (hdone i)).1 hkeeps
  cases i with
  | left => cases hnot.symm.trans hyields.1
  | right => cases hnot.symm.trans hyields.2

end Exploration
