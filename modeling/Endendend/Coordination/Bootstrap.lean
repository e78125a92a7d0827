/-
**The bootstrap of an exploration** (`swarm/explorationManager.ts`, `swarm/sharedMap.ts`).

The bootstrap marks cells as seen, but the frontier grows around explored cells, and a cell that is
only seen is not explored.  So a map without a frontier and without explored cells gets no frontier
from its bootstrap, and no share is made.  Only what the explorers remember from earlier steps can
make the frontier grow again.

Main definitions:

* `Coordination.takenCells` — the cells that the explorers take from remembered assignments;
* `Coordination.seedKeys` — the cells that the bootstrap marks;
* `Coordination.Grown` — the map when some keys have been worked.

Main results:

* `Coordination.frontierKeys_bootstrap` — **the bootstrap leaves no frontier**;
* `Coordination.grown_step` — what a step does to the map then;
* `Coordination.explores_iff` — **a step leaves a frontier exactly if a taken cell has a neighbour
  that is neither seen nor taken.**
-/
import Endendend.Coordination.ExplorationCoordinator
import Endendend.FoxMq.CellStates

set_option relaxedAutoImplicit false
set_option autoImplicit false

namespace Coordination

open Js FoxMq MonotonicSharedMap

/-- The cells that explorers take from what is remembered for them, when the nodes make their draws
from a number on.  An explorer draws how many keys it takes, and three times for every cell. -/
def takenCells (args : StepArgs) (last : OrderedMap Str ExplorationAssignment) :
    ℕ → List SwarmAgentNode → List (Decimal × Decimal)
  | _, [] => []
  | drawn, n :: ns =>
    let keys := workKeys n (last.get? n.nodeId)
    if keys = [] then takenCells args last drawn ns
    else
      let cells := (keys.take (args.pickN (args.rng drawn))).filterMap parseCellKey
      cells ++ takenCells args last (drawn + 1 + 3 * cells.length) ns

/-- The keys of some cells. -/
def keysOf (cells : List (Decimal × Decimal)) : List Str := cells.map fun p => cellKey p.1 p.2

theorem mem_keysOf_cons {p : Decimal × Decimal} {cells : List (Decimal × Decimal)} {k : Str} :
    k ∈ keysOf (p :: cells) ↔ k = cellKey p.1 p.2 ∨ k ∈ keysOf cells := List.mem_cons

theorem keysOf_append (cells cells' : List (Decimal × Decimal)) :
    keysOf (cells ++ cells') = keysOf cells ++ keysOf cells' := List.map_append

/-- The keys of the cells that a bootstrap marks. -/
def seedKeys (args : StepArgs) : List Str :=
  keysOf (args.seedNodes.map fun n => worldToGrid n.x n.z)

/-- Some node receives an assignment, and there is a frontier. -/
def Explores (l : NodeLoop) : Prop :=
  l.map.frontierKeys ≠ [] ∧ ∃ st ∈ l.states, st.assignment.isSome

variable {args : StepArgs} {m m' m'' : MonotonicSharedMap}

/-! ### The bootstrap -/

/-- Every cell is unknown or seen. -/
def Calm (m : MonotonicSharedMap) : Prop := ∀ k, m.stateOf k = .unknown ∨ m.stateOf k = .seen

theorem calm_of_empty (hfrontier : m.frontierKeys = [])
    (hexplored : ∀ k, (m.stateOf k).isExplored = false) : Calm m := by
  intro k
  have hk := hexplored k
  have hno : m.stateOf k ≠ .frontier := by
    intro h
    have hmem := mem_frontierKeys.2 h
    rw [hfrontier] at hmem
    exact absurd hmem List.not_mem_nil
  cases hstate : m.stateOf k with
  | unknown => exact Or.inl rfl
  | seen => exact Or.inr rfl
  | frontier => exact absurd hstate hno
  | searched => rw [hstate] at hk; exact absurd hk (by decide)
  | blocked => rw [hstate] at hk; exact absurd hk (by decide)
  | target => rw [hstate] at hk; exact absurd hk (by decide)
  | safe => rw [hstate] at hk; exact absurd hk (by decide)
  | hazard => rw [hstate] at hk; exact absurd hk (by decide)
  | relay_critical => rw [hstate] at hk; exact absurd hk (by decide)
  | unreachable => rw [hstate] at hk; exact absurd hk (by decide)

theorem Calm.frontierKeys (h : Calm m) : m.frontierKeys = [] := by
  refine List.eq_nil_iff_forall_not_mem.2 fun k hk => ?_
  have hstate := mem_frontierKeys.1 hk
  obtain hk | hk := h k <;> rw [hk] at hstate <;> cases hstate

theorem Calm.isExplored (h : Calm m) (k : Str) : (m.stateOf k).isExplored = false := by
  obtain hk | hk := h k <;> rw [hk] <;> rfl

/-- Some cells are marked as seen. -/
theorem stateOf_foldl_seedCell (nowMs : ℚ) (ns : List SwarmAgentNode) (h : Calm m) (k : Str) :
    (ns.foldl (seedCell nowMs) m).stateOf k =
      if k ∈ keysOf (ns.map fun n => worldToGrid n.x n.z) then .seen else m.stateOf k := by
  induction ns generalizing m with
  | nil => rfl
  | cons n ns ih =>
      -- a seed raises an unknown cell to seen, and leaves a seen one
      have hseed : ∀ k, (seedCell nowMs m n).stateOf k =
          if k = cellKey (worldToGrid n.x n.z).1 (worldToGrid n.x n.z).2 then .seen
          else m.stateOf k := by
        intro k
        rw [seedCell, stateOf_applyLocalUpdate]
        split
        · obtain hk | hk := h k <;> rw [hk] <;> rfl
        · rfl
      have hcalm : Calm (seedCell nowMs m n) := by
        intro k
        rw [hseed]
        split
        · exact Or.inr rfl
        · exact h k
      rw [List.foldl_cons, ih hcalm, hseed, List.map_cons]
      by_cases hk : k = cellKey (worldToGrid n.x n.z).1 (worldToGrid n.x n.z).2
      · rw [if_pos hk, ite_self, if_pos (mem_keysOf_cons.2 (Or.inl hk))]
      · rw [if_neg hk]
        simp only [mem_keysOf_cons, hk, false_or]

/-- The states after a bootstrap. -/
theorem stateOf_bootstrap (h : Calm m) (k : Str) :
    (bootstrap args m).stateOf k = if k ∈ seedKeys args then .seen else m.stateOf k := by
  have hcalm : Calm (args.seedNodes.foldl (seedCell args.nowMs) m) := by
    intro k
    rw [stateOf_foldl_seedCell args.nowMs args.seedNodes h]
    split
    · exact Or.inr rfl
    · exact h k
  rw [bootstrap, if_pos h.frontierKeys,
    (marks_recomputeFrontiers args.nowMs (lit "bootstrap") _).kept, stateOf_foldl_seedCell _ _ h]
  · rfl
  · -- nothing borders on an explored cell
    refine Or.inr ?_
    rintro ⟨k₀, hk₀, -⟩
    rw [hcalm.isExplored] at hk₀
    cases hk₀

theorem calm_bootstrap (h : Calm m) : Calm (bootstrap args m) := by
  intro k
  rw [stateOf_bootstrap h]
  split
  · exact Or.inr rfl
  · exact h k

/-- **The bootstrap leaves no frontier.** -/
theorem frontierKeys_bootstrap (h : Calm m) : (bootstrap args m).frontierKeys = [] :=
  (calm_bootstrap h).frontierKeys

/-- Without a frontier there are no shares. -/
theorem shares_bootstrap (args : StepArgs) (h : Calm m) (id : Str) :
    ((shares args m).get? id).getD [] = [] := by
  have hempty : ∀ (ids : List Str) (out : OrderedMap Str (List Str)),
      (out.get? id).getD [] = [] →
        ((ids.foldl (fun out id => out.set id []) out).get? id).getD [] = [] := by
    intro ids
    induction ids with
    | nil => exact fun out hout => hout
    | cons i ids ih =>
        intro out hout
        refine ih _ ?_
        rw [OrderedMap.get?_set]
        split
        · rfl
        · exact hout
  rw [shares, splitFrontiersAmongNodes, frontierKeys_bootstrap h]
  split
  · exact hempty _ _ rfl
  · exact hempty _ _ rfl

/-! ### Work -/

/-- Some keys are worked: their cells are explored, and the other ones are left alone. -/
structure Works (ks : List Str) (m m' : MonotonicSharedMap) : Prop where
  worked : ∀ k ∈ ks, (m'.stateOf k).isExplored = true
  kept : ∀ k ∉ ks, m'.stateOf k = m.stateOf k

theorem Works.refl (m : MonotonicSharedMap) : Works [] m m :=
  ⟨fun _ hk => absurd hk List.not_mem_nil, fun _ _ => rfl⟩

theorem Works.trans {ks ks' : List Str} (h : Works ks m m') (h' : Works ks' m' m'') :
    Works (ks ++ ks') m m'' := by
  constructor
  · intro k hk
    by_cases hk' : k ∈ ks'
    · exact h'.worked k hk'
    · rw [h'.kept k hk']
      exact h.worked k ((List.mem_append.1 hk).resolve_right hk')
  · intro k hk
    rw [List.mem_append, not_or] at hk
    rw [h'.kept k hk.2, h.kept k hk.1]

theorem isExplored_rolledState (args : StepArgs) (roll : ℚ) :
    (args.rolledState roll).isExplored = true := by
  unfold StepArgs.rolledState
  dsimp only
  split_ifs <;> rfl

theorem isExplored_higherState (s : MapCellState) {t : MapCellState} (ht : t.isExplored = true) :
    (higherState s t).isExplored = true := by
  cases t <;> first | cases s <;> rfl | cases ht

theorem works_foldl_visitKey (args : StepArgs) (keys : List Str) (l : PickLoop) :
    Works (keysOf (keys.filterMap parseCellKey)) l.map (keys.foldl (visitKey args) l).map ∧
      (keys.foldl (visitKey args) l).drawn =
        l.drawn + 3 * (keys.filterMap parseCellKey).length := by
  induction keys generalizing l with
  | nil => exact ⟨Works.refl l.map, rfl⟩
  | cons key keys ih =>
      obtain ⟨htail, hdrawn⟩ := ih (visitKey args l key)
      cases hparse : parseCellKey key with
      | none =>
          have hvisit : visitKey args l key = l := by rw [visitKey, hparse]
          rw [List.foldl_cons, List.filterMap_cons, hparse, hvisit]
          rw [hvisit] at htail hdrawn
          exact ⟨htail, hdrawn⟩
      | some p =>
          -- the state that is rolled is an explored one, and no update lowers a state
          have hhead : Works [cellKey p.1 p.2] l.map (visitKey args l key).map := by
            rw [visitKey, hparse]
            refine ⟨fun k hk => ?_, fun k hk => ?_⟩
            · dsimp only
              rw [stateOf_applyLocalUpdate, if_pos (List.mem_singleton.1 hk)]
              exact isExplored_higherState _ (isExplored_rolledState args _)
            · dsimp only
              rw [stateOf_applyLocalUpdate, if_neg fun heq => hk (List.mem_singleton.2 heq)]
          have hdraws : (visitKey args l key).drawn = l.drawn + 3 := by rw [visitKey, hparse]
          rw [List.foldl_cons, List.filterMap_cons, hparse]
          refine ⟨hhead.trans htail, ?_⟩
          rw [hdrawn, hdraws, List.length_cons]
          omega

/-! ### What a step does to the map -/

/-- The map when some keys have been worked: around them is the frontier, as far as the cells were
not seen before. -/
structure Grown (before : MonotonicSharedMap) (ks : List Str) (m : MonotonicSharedMap) : Prop where
  worked : ∀ k ∈ ks, (m.stateOf k).isExplored = true
  seen : ∀ k ∉ ks, before.stateOf k = .seen → m.stateOf k = .seen
  frontier : ∀ k ∉ ks, before.stateOf k = .unknown → (∃ w ∈ ks, k ∈ neighborKeys w) →
    m.stateOf k = .frontier
  unknown : ∀ k ∉ ks, before.stateOf k = .unknown → (¬ ∃ w ∈ ks, k ∈ neighborKeys w) →
    m.stateOf k = .unknown

theorem grown_nil (m : MonotonicSharedMap) : Grown m [] m :=
  ⟨fun _ hk => absurd hk List.not_mem_nil, fun _ _ hk => hk,
    fun _ _ _ ⟨_, hw, _⟩ => absurd hw List.not_mem_nil, fun _ _ hk _ => hk⟩

/-- The explored cells of such a map are those that were worked. -/
theorem Grown.isExplored_iff {before : MonotonicSharedMap} {ks : List Str} (hcalm : Calm before)
    (h : Grown before ks m) (k : Str) : (m.stateOf k).isExplored = true ↔ k ∈ ks := by
  refine ⟨fun hk => ?_, h.worked k⟩
  by_contra hmem
  obtain hbefore | hbefore := hcalm k
  · by_cases hw : ∃ w ∈ ks, k ∈ neighborKeys w
    · rw [h.frontier k hmem hbefore hw] at hk
      cases hk
    · rw [h.unknown k hmem hbefore hw] at hk
      cases hk
  · rw [h.seen k hmem hbefore] at hk
    cases hk

/-- More keys are worked, and the frontier grows. -/
theorem Grown.work {before : MonotonicSharedMap} {ks ks' : List Str} (hcalm : Calm before)
    (h : Grown before ks m) (hworks : Works ks' m m') (nowMs : ℚ) (origin : Str) :
    Grown before (ks ++ ks') (m'.recomputeFrontiers nowMs origin) := by
  have hmarks := marks_recomputeFrontiers nowMs origin m'
  have hexplored : ∀ k, (m'.stateOf k).isExplored = true ↔ k ∈ ks ++ ks' := by
    intro k
    rw [List.mem_append]
    by_cases hk : k ∈ ks'
    · exact iff_of_true (hworks.worked k hk) (Or.inr hk)
    · rw [hworks.kept k hk, h.isExplored_iff hcalm]
      exact (or_iff_left hk).symm
  have hborders : ∀ k, (∃ k₀, Borders m' k₀ k) ↔ ∃ w ∈ ks ++ ks', k ∈ neighborKeys w := by
    intro k
    simp only [Borders, hexplored]
  have hkept : ∀ k ∉ ks ++ ks', k ∉ ks ∧ m'.stateOf k = m.stateOf k := by
    intro k hk
    rw [List.mem_append, not_or] at hk
    exact ⟨hk.1, hworks.kept k hk.2⟩
  refine ⟨fun k hk => ?_, fun k hk hseen => ?_, fun k hk hbefore hw => ?_,
    fun k hk hbefore hw => ?_⟩
  · rw [hmarks.isExplored]
    exact (hexplored k).2 hk
  · obtain ⟨hks, hm'⟩ := hkept k hk
    have hstate : m'.stateOf k = .seen := hm'.trans (h.seen k hks hseen)
    rw [hmarks.kept k (Or.inl (by rw [hstate]; decide)), hstate]
  · -- a neighbour of an earlier worked key is in the frontier already
    obtain ⟨hks, hm'⟩ := hkept k hk
    by_cases hold : ∃ w ∈ ks, k ∈ neighborKeys w
    · have hstate : m'.stateOf k = .frontier := hm'.trans (h.frontier k hks hbefore hold)
      rw [hmarks.kept k (Or.inl (by rw [hstate]; decide)), hstate]
    · exact hmarks.marked k (hm'.trans (h.unknown k hks hbefore hold)) ((hborders k).2 hw)
  · obtain ⟨hks, hm'⟩ := hkept k hk
    have hold : ¬ ∃ w ∈ ks, k ∈ neighborKeys w := by
      rintro ⟨w, hw', hnk⟩
      exact hw ⟨w, List.mem_append_left _ hw', hnk⟩
    rw [hmarks.kept k (Or.inr fun hB => hw ((hborders k).1 hB)), hm']
    exact h.unknown k hks hbefore hold

/-- The turn of a node that has no share. -/
theorem grown_stepNode (args : StepArgs) {before : MonotonicSharedMap} {ks : List Str}
    {l : NodeLoop} {split : OrderedMap Str (List Str)} (hsplit : ∀ id, (split.get? id).getD [] = [])
    (hcalm : Calm before) (h : Grown before ks l.map) (n : SwarmAgentNode)
    (ns : List SwarmAgentNode) :
    let l' := stepNode args split l n
    l'.lastAssignments = l.lastAssignments ∧
      l'.states.map (·.assignment) = l.states.map (·.assignment) ++
        [l.lastAssignments.get? n.nodeId] ∧
      ∃ cells, Grown before (ks ++ keysOf cells) l'.map ∧
        takenCells args l.lastAssignments l.drawn (n :: ns) =
          cells ++ takenCells args l.lastAssignments l'.drawn ns := by
  have hassign : (freshAssignment n.nodeId ((split.get? n.nodeId).getD [])).or
      (l.lastAssignments.get? n.nodeId) = l.lastAssignments.get? n.nodeId := by
    rw [hsplit, freshAssignment, if_pos rfl]
    rfl
  intro l'
  refine ⟨?_, ?_, ?_⟩
  · -- what is remembered is stored again
    simp only [l', stepNode, hassign]
    cases hlast : l.lastAssignments.get? n.nodeId with
    | none => rfl
    | some a =>
        dsimp only
        split
        · rfl
        · exact OrderedMap.set_of_get? hlast
  · simp only [l', stepNode, hassign, List.map_append, List.map_singleton]
  · rw [takenCells]
    simp only [l', stepNode, hassign, explore]
    by_cases hkeys : workKeys n (l.lastAssignments.get? n.nodeId) = []
    · simp only [if_pos hkeys]
      exact ⟨[], h.work hcalm (Works.refl l.map) _ _, rfl⟩
    · simp only [if_neg hkeys]
      obtain ⟨hworks, hdrawn⟩ := works_foldl_visitKey args
        ((workKeys n (l.lastAssignments.get? n.nodeId)).take (args.pickN (args.rng l.drawn)))
        ⟨l.map, l.drawn + 1, n, []⟩
      refine ⟨_, h.work hcalm hworks _ _, ?_⟩
      rw [hdrawn]

/-- **What a step does to the map** when there are no shares: the taken cells are worked. -/
theorem grown_foldl_stepNode (args : StepArgs) {before : MonotonicSharedMap}
    {split : OrderedMap Str (List Str)} (hsplit : ∀ id, (split.get? id).getD [] = [])
    (hcalm : Calm before) (ns : List SwarmAgentNode) (ks : List Str) (l : NodeLoop)
    (h : Grown before ks l.map) :
    let l' := ns.foldl (stepNode args split) l
    Grown before (ks ++ keysOf (takenCells args l.lastAssignments l.drawn ns)) l'.map ∧
      l'.states.map (·.assignment) = l.states.map (·.assignment) ++
        ns.map fun n => l.lastAssignments.get? n.nodeId := by
  induction ns generalizing ks l with
  | nil =>
      intro l'
      rw [takenCells, keysOf, List.map_nil, List.append_nil, List.map_nil, List.append_nil]
      exact ⟨h, rfl⟩
  | cons n ns ih =>
      obtain ⟨hlast, hstates, cells, hgrown, htaken⟩ :=
        grown_stepNode args hsplit hcalm h n ns
      obtain ⟨hgrown', hstates'⟩ := ih _ _ hgrown
      rw [htaken, keysOf_append, ← List.append_assoc]
      rw [hlast] at hgrown' hstates'
      refine ⟨hgrown', ?_⟩
      rw [List.foldl_cons, hstates', hstates, List.append_assoc, List.map_cons]
      rfl

/-- The same for a whole step. -/
theorem grown_step (args : StepArgs) (c : ExplorationCoordinator) (hcalm : Calm m) :
    Grown (bootstrap args m) (keysOf (takenCells args c.lastAssignments 0 args.nodes))
        (c.step args m).map ∧
      (c.step args m).states.map (·.assignment) =
        args.nodes.map fun n => c.lastAssignments.get? n.nodeId := by
  have h := grown_foldl_stepNode args (shares_bootstrap args hcalm)
    (calm_bootstrap hcalm) args.nodes [] ⟨bootstrap args m, c.lastAssignments, 0, [], []⟩
    (grown_nil _)
  exact h

/-! ### When an exploration goes on -/

/-- Where the frontier of such a map is. -/
theorem Grown.frontierKeys_ne_nil_iff {before : MonotonicSharedMap} {ks : List Str}
    (hcalm : Calm before) (h : Grown before ks m) :
    m.frontierKeys ≠ [] ↔
      ∃ w ∈ ks, ∃ nk ∈ neighborKeys w, before.stateOf nk = .unknown ∧ nk ∉ ks := by
  constructor
  · intro hleft
    obtain ⟨nk, hnk⟩ := List.exists_mem_of_ne_nil _ hleft
    have hstate := mem_frontierKeys.1 hnk
    have hmem : nk ∉ ks := by
      intro hmem
      have hworked := h.worked nk hmem
      rw [hstate] at hworked
      cases hworked
    obtain hbefore | hbefore := hcalm nk
    · by_cases hw : ∃ w ∈ ks, nk ∈ neighborKeys w
      · obtain ⟨w, hw, hnk⟩ := hw
        exact ⟨w, hw, nk, hnk, hbefore, hmem⟩
      · rw [h.unknown nk hmem hbefore hw] at hstate
        cases hstate
    · rw [h.seen nk hmem hbefore] at hstate
      cases hstate
  · rintro ⟨w, hw, nk, hnk, hbefore, hmem⟩
    exact List.ne_nil_of_mem (mem_frontierKeys.2 (h.frontier nk hmem hbefore ⟨w, hw, hnk⟩))

/-- The cells that the bootstrap leaves unknown. -/
theorem stateOf_bootstrap_eq_unknown_iff (h : Calm m) (k : Str) :
    (bootstrap args m).stateOf k = .unknown ↔ m.stateOf k ≠ .seen ∧ k ∉ seedKeys args := by
  rw [stateOf_bootstrap h]
  split
  · next hseed => exact iff_of_false (by decide) fun hk => hk.2 hseed
  · next hseed =>
      obtain hk | hk := h k <;> rw [hk]
      · exact iff_of_true rfl ⟨by decide, hseed⟩
      · exact iff_of_false (by decide) fun hk => hk.1 rfl

/-- Taken cells are remembered for some node. -/
theorem exists_assignment_of_takenCells {last : OrderedMap Str ExplorationAssignment}
    {ns : List SwarmAgentNode} {drawn : ℕ} (h : takenCells args last drawn ns ≠ []) :
    ∃ n ∈ ns, (last.get? n.nodeId).isSome := by
  induction ns generalizing drawn with
  | nil => exact absurd rfl h
  | cons n ns ih =>
      rw [takenCells] at h
      cases hlast : last.get? n.nodeId with
      | some a => exact ⟨n, List.mem_cons_self, by rw [hlast]; rfl⟩
      | none =>
          have hnone : workKeys n (none : Option ExplorationAssignment) = [] := by
            rw [workKeys]
            exact ite_self _
          rw [hlast, if_pos hnone] at h
          obtain ⟨n', hmem, hsome⟩ := ih h
          exact ⟨n', List.mem_cons_of_mem _ hmem, hsome⟩

/-- **When an exploration goes on**: a step from a map without a frontier and without explored cells
leaves a frontier exactly if an explorer takes, from what is remembered for it, a cell with a
neighbour that was not seen, is not marked by the bootstrap, and is not taken itself. -/
theorem explores_iff (c : ExplorationCoordinator) (hfrontier : m.frontierKeys = [])
    (hexplored : ∀ k, (m.stateOf k).isExplored = false) :
    Explores (c.step args m) ↔
      ∃ p ∈ takenCells args c.lastAssignments 0 args.nodes, ∃ nk ∈ neighbors p.1 p.2,
        m.stateOf nk ≠ .seen ∧ nk ∉ seedKeys args ∧
          nk ∉ keysOf (takenCells args c.lastAssignments 0 args.nodes) := by
  -- there are no shares, so the nodes work only what is remembered for them
  have hcalm := calm_of_empty hfrontier hexplored
  obtain ⟨hgrown, hstates⟩ := grown_step args c hcalm
  have hleft := hgrown.frontierKeys_ne_nil_iff (calm_bootstrap hcalm)
  simp only [stateOf_bootstrap_eq_unknown_iff hcalm, and_assoc] at hleft
  rw [Explores, hleft]
  constructor
  · rintro ⟨⟨w, hw, nk, hnk, hcell⟩, -⟩
    obtain ⟨p, hp, rfl⟩ := List.mem_map.1 hw
    rw [neighborKeys_cellKey] at hnk
    exact ⟨p, hp, nk, hnk, hcell⟩
  · rintro ⟨p, hp, nk, hnk, hcell⟩
    refine ⟨⟨cellKey p.1 p.2, List.mem_map.2 ⟨p, hp, rfl⟩, nk, ?_, hcell⟩, ?_⟩
    · rw [neighborKeys_cellKey]
      exact hnk
    · -- what was taken is the assignment of some node
      obtain ⟨n, hn, hsome⟩ := exists_assignment_of_takenCells (List.ne_nil_of_mem hp)
      have hmem : c.lastAssignments.get? n.nodeId ∈ (c.step args m).states.map (·.assignment) := by
        rw [hstates]
        exact List.mem_map.2 ⟨n, hn, rfl⟩
      obtain ⟨st, hst, heq⟩ := List.mem_map.1 hmem
      exact ⟨st, hst, heq ▸ hsome⟩

/-- An explorer at the origin, alone. -/
def scout : StepArgs where
  nodes := [⟨lit "n1", .explorer, .scout_continue, 0, 0⟩]
  connectivityMode := .normal
  graph := ⟨[], []⟩
  operatorId := lit "op"
  nowMs := 1000
  rng := fun _ => 1 / 2
  scenarioMapHint := []
  scenario := .tunnel

/-- The explorer remembers a cell. -/
theorem explores_iff_scout :
    Explores (ExplorationCoordinator.step
      ⟨.ofList [(lit "n1", ⟨lit "n1", [lit "5,5"], lit "sec-3"⟩)]⟩ scout (.new ∅)) :=
  (@explores_iff scout _ _ rfl fun _ => rfl).2 (by decide +kernel)

/-- **The exploration of an empty map does not begin**: the explorer marks the cell under it as
seen, there is no frontier, and it gets no assignment. -/
theorem stalled_scout : ¬ Explores (ExplorationCoordinator.new.step scout (.new ∅)) ∧
    (ExplorationCoordinator.new.step scout (.new ∅)).map.frontierKeys = [] := by
  have hmap : (ExplorationCoordinator.new.step scout (.new ∅)).map.frontierKeys = [] := by
    decide +kernel
  exact ⟨fun h => h.1 hmap, hmap⟩

end Coordination
