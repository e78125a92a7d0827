/-
**Shares of the frontier** (`swarm/explorationManager.ts`).

The shares that a step makes are disjoint parts of the frontier.  But a node that gets no share
works on with the last one that it got in an earlier step, and since then its keys may have been
worked, or have become a part of another node's share.

Main definitions:

* `Coordination.coordStep` — a coordinator that is stepped with any nodes and any map;
* `Coordination.WorkedOnce` — no key is worked twice in a step;
* `Coordination.shareOf`, `Coordination.lastShare` — the share of a node in a step, and the last one
  in a run;
* `Coordination.SharedFairly` — what holds of the shares of a step.

Main results:

* `Coordination.disjoint_split` — shares of different agents are disjoint;
* `Coordination.get?_run` — **what is remembered for a node is its last share**;
* `Coordination.sharedFairly_of_run` — every step of a run shares the frontier fairly, and a node
  without a share returns its last one.
-/
import Endendend.Coordination.ExplorationCoordinator
import Endendend.Foundation.Runs
import Endendend.FoxMq.CellStates

set_option relaxedAutoImplicit false
set_option autoImplicit false

namespace Coordination

open Js FoxMq MonotonicSharedMap Runs

/-- A step may be given any nodes, any network and any map. -/
abbrev CoordMove : Type := StepArgs × MonotonicSharedMap

def coordStep (c : ExplorationCoordinator) (mv : CoordMove) : Option ExplorationCoordinator :=
  some ⟨(c.step mv.1 mv.2).lastAssignments⟩

/-- The keys of an assignment that a node returns. -/
def NodeExplorationState.keys (st : NodeExplorationState) : List Str :=
  (st.assignment.map (·.frontierKeys)).getD []

/-- No key is worked twice in a step: the assignments are disjoint, and what is worked was in the
frontier when the shares were made. -/
def WorkedOnce (c : ExplorationCoordinator) (mv : CoordMove) : Prop :=
  (∀ st ∈ (c.step mv.1 mv.2).states, ∀ st' ∈ (c.step mv.1 mv.2).states, st.nodeId ≠ st'.nodeId →
    st.keys.Disjoint st'.keys) ∧
  ∀ st ∈ (c.step mv.1 mv.2).states, ∀ k ∈ st.visited, k ∈ (bootstrap mv.1 mv.2).frontierKeys

/-! ### Shares -/

/-- The share of an agent: the keys whose turn is its turn. -/
theorem get?_foldl_dealKey (agentIds : List Str) (ps : List (Str × ℕ))
    (out : OrderedMap Str (List Str)) (id : Str) :
    ((ps.foldl (dealKey agentIds) out).get? id).getD [] = (out.get? id).getD [] ++
      (ps.filter fun p => agentIds[p.2 % agentIds.length]? = some id).map Prod.fst := by
  induction ps generalizing out with
  | nil => exact (List.append_nil _).symm
  | cons p ps ih =>
      rw [List.foldl_cons, ih, dealKey]
      cases hturn : agentIds[p.2 % agentIds.length]? with
      | none => rw [List.filter_cons_of_neg (by simp [hturn])]
      | some i =>
          dsimp only
          rw [OrderedMap.get?_set]
          by_cases hi : id = i
          · rw [if_pos hi, List.filter_cons_of_pos (by simp [hturn, hi]), List.map_cons,
              Option.getD_some, hi, List.append_assoc]
            rfl
          · rw [if_neg hi, List.filter_cons_of_neg (by simpa [hturn] using Ne.symm hi)]

/-- Before the keys are dealt out, every share is empty, and only agents have one. -/
theorem get?_foldl_set_nil (ids : List Str) (out : OrderedMap Str (List Str)) (id : Str) :
    (ids.foldl (fun out id => out.set id []) out).get? id =
      if id ∈ ids then some [] else out.get? id := by
  induction ids generalizing out with
  | nil => rfl
  | cons i ids ih =>
      rw [List.foldl_cons, ih, OrderedMap.get?_set]
      by_cases hi : id = i
      · simp [hi]
      · simp [hi]

/-- The share of an agent. -/
theorem split_eq (keys ids : List Str) (id : Str) :
    ((splitFrontiersAmongNodes keys ids).get? id).getD [] =
      ((keys.insertionSort (· ≤ ·)).zipIdx.filter fun p =>
        ids[p.2 % ids.length]? = some id).map Prod.fst := by
  have hempty : ((ids.foldl (fun out id => out.set id []) (∅ : OrderedMap Str (List Str))).get?
      id).getD [] = [] := by
    rw [get?_foldl_set_nil]
    split <;> rfl
  rw [splitFrontiersAmongNodes]
  split
  · next hids =>
      rw [hempty, hids]
      refine (List.map_eq_nil_iff.2 (List.filter_eq_nil_iff.2 fun p _ => ?_)).symm
      simp
  · rw [get?_foldl_dealKey, hempty, List.nil_append]

/-- A share is a part of the frontier. -/
theorem mem_of_mem_split {keys ids : List Str} {id k : Str}
    (h : k ∈ ((splitFrontiersAmongNodes keys ids).get? id).getD []) : k ∈ keys ∧ id ∈ ids := by
  rw [split_eq] at h
  obtain ⟨⟨k', i⟩, hmem, rfl⟩ := List.mem_map.1 h
  obtain ⟨hzip, hturn⟩ := List.mem_filter.1 hmem
  have hkey := List.mem_of_getElem? (List.mk_mem_zipIdx_iff_getElem?.1 hzip)
  refine ⟨(List.perm_insertionSort _ keys).mem_iff.1 hkey, ?_⟩
  exact List.mem_of_getElem? (of_decide_eq_true hturn)

/-- **Shares of different agents are disjoint.** -/
theorem disjoint_split {keys ids : List Str} (hkeys : keys.Nodup) {id id' : Str} (hne : id ≠ id') :
    (((splitFrontiersAmongNodes keys ids).get? id).getD []).Disjoint
      (((splitFrontiersAmongNodes keys ids).get? id').getD []) := by
  have hnodup : (keys.insertionSort (· ≤ ·)).Nodup :=
    (List.perm_insertionSort _ keys).nodup_iff.2 hkeys
  rw [split_eq, split_eq]
  intro k hk hk'
  obtain ⟨⟨k₁, i⟩, hmem, rfl⟩ := List.mem_map.1 hk
  obtain ⟨⟨k₂, j⟩, hmem', heq⟩ := List.mem_map.1 hk'
  obtain rfl : k₂ = k₁ := heq
  obtain ⟨hi, hturn⟩ := List.mem_filter.1 hmem
  obtain ⟨hj, hturn'⟩ := List.mem_filter.1 hmem'
  have hi := List.mk_mem_zipIdx_iff_getElem?.1 hi
  have hj := List.mk_mem_zipIdx_iff_getElem?.1 hj
  -- a key stands at one place, so it is one agent's turn
  obtain ⟨hilt, -⟩ := List.getElem?_eq_some_iff.1 hi
  obtain rfl : i = j := (List.getElem?_inj hilt hnodup).1 (hi.trans hj.symm)
  exact hne (Option.some.inj ((of_decide_eq_true hturn).symm.trans (of_decide_eq_true hturn')))

/-! ### What is remembered -/

/-- The share of a node in a step, if it gets one. -/
def shareOf (id : Str) (mv : CoordMove) : Option ExplorationAssignment :=
  freshAssignment id (((shares mv.1 mv.2).get? id).getD [])

/-- The last share of a node. -/
def lastShare (id : Str) (mvs : List CoordMove) : Option ExplorationAssignment :=
  (mvs.filterMap (shareOf id)).getLast?

theorem frontierKeys_freshAssignment {id : Str} {keys : List Str} {a : ExplorationAssignment}
    (h : freshAssignment id keys = some a) : a.frontierKeys = keys ∧ keys ≠ [] := by
  unfold freshAssignment at h
  split at h
  · cases h
  · next hkeys =>
      obtain rfl := Option.some.inj h
      exact ⟨rfl, hkeys⟩

/-- The keys of a share were in the frontier. -/
theorem mem_frontierKeys_of_shareOf {id k : Str} {mv : CoordMove} {a : ExplorationAssignment}
    (h : shareOf id mv = some a) (hk : k ∈ a.frontierKeys) :
    k ∈ (bootstrap mv.1 mv.2).frontierKeys := by
  obtain ⟨hkeys, -⟩ := frontierKeys_freshAssignment h
  rw [hkeys] at hk
  exact (mem_of_mem_split hk).1

/-- Only nodes of the step get a share. -/
theorem mem_nodes_of_shareOf {id : Str} {mv : CoordMove} {a : ExplorationAssignment}
    (h : shareOf id mv = some a) : ∃ n ∈ mv.1.nodes, n.nodeId = id := by
  obtain ⟨k, hk⟩ := List.exists_mem_of_ne_nil _ (frontierKeys_freshAssignment h).2
  have hid : id ∈ mv.1.agentIds := (mem_of_mem_split hk).2
  unfold StepArgs.agentIds at hid
  split at hid
  · exact List.mem_map.1 hid
  · obtain ⟨n, hn, rfl⟩ := List.mem_map.1 hid
    refine ⟨n, ?_, rfl⟩
    unfold StepArgs.explorerPool StepArgs.activeExplorers StepArgs.explorers at hn
    split at hn
    · exact List.mem_of_mem_filter hn
    · exact List.mem_of_mem_filter (List.mem_of_mem_filter hn)

variable {args : StepArgs} {m : MonotonicSharedMap}

/-- What is remembered after the turn of a node. -/
theorem get?_stepNode (l : NodeLoop) (n : SwarmAgentNode) (id : Str) :
    (stepNode args (shares args m) l n).lastAssignments.get? id =
      if id = n.nodeId then (shareOf id (args, m)).or (l.lastAssignments.get? id)
      else l.lastAssignments.get? id := by
  have hshare : freshAssignment n.nodeId (((shares args m).get? n.nodeId).getD []) =
      shareOf n.nodeId (args, m) := rfl
  rw [stepNode]
  dsimp only
  rw [hshare]
  cases hfresh : shareOf n.nodeId (args, m) with
  | some a =>
      have hkeys := frontierKeys_freshAssignment hfresh
      rw [← hkeys.1] at hkeys
      rw [Option.some_or]
      dsimp only
      rw [if_neg hkeys.2, OrderedMap.get?_set]
      split
      · next hid => rw [hid, hfresh, Option.some_or]
      · rfl
  | none =>
      rw [Option.none_or]
      have hkeep : (if id = n.nodeId then (shareOf id (args, m)).or (l.lastAssignments.get? id)
          else l.lastAssignments.get? id) = l.lastAssignments.get? id := by
        split
        · next hid => rw [hid, hfresh, Option.none_or]
        · rfl
      rw [hkeep]
      -- what is remembered is stored again
      cases hlast : l.lastAssignments.get? n.nodeId with
      | none => rfl
      | some a =>
          dsimp only
          split
          · rfl
          · rw [OrderedMap.set_of_get? hlast]

theorem or_idem_left (a b : Option ExplorationAssignment) : a.or (a.or b) = a.or b := by
  rw [← Option.or_assoc, Option.or_self]

/-- What is remembered after the turns of some nodes. -/
theorem get?_foldl_stepNode (args : StepArgs) (m : MonotonicSharedMap)
    (ns : List SwarmAgentNode) (l : NodeLoop) (id : Str) :
    (ns.foldl (stepNode args (shares args m)) l).lastAssignments.get? id =
      if id ∈ ns.map (·.nodeId) then (shareOf id (args, m)).or (l.lastAssignments.get? id)
      else l.lastAssignments.get? id := by
  induction ns generalizing l with
  | nil => rfl
  | cons n ns ih =>
      rw [List.foldl_cons, ih, get?_stepNode, List.map_cons]
      by_cases hn : id = n.nodeId
      · rw [if_pos hn, if_pos (List.mem_cons.2 (Or.inl hn)), or_idem_left, ite_self]
      · rw [if_neg hn]
        simp only [List.mem_cons, hn, false_or]

/-- What is remembered after a step. -/
theorem get?_step (c : ExplorationCoordinator) (mv : CoordMove) (id : Str) :
    (c.step mv.1 mv.2).lastAssignments.get? id =
      (shareOf id mv).or (c.lastAssignments.get? id) := by
  have h := get?_foldl_stepNode mv.1 mv.2 mv.1.nodes
    ⟨bootstrap mv.1 mv.2, c.lastAssignments, 0, [], []⟩ id
  refine h.trans ?_
  split
  · rfl
  · next hid =>
      cases hshare : shareOf id mv with
      | none => rfl
      | some a =>
          obtain ⟨n, hn, rfl⟩ := mem_nodes_of_shareOf hshare
          exact absurd (List.mem_map.2 ⟨n, hn, rfl⟩) hid

/-- **What is remembered for a node is its last share.** -/
theorem get?_run {mvs : List CoordMove} {c : ExplorationCoordinator}
    (h : run coordStep .new mvs = some c) (id : Str) :
    c.lastAssignments.get? id = lastShare id mvs := by
  refine invariant_of_history (I := fun mvs c => c.lastAssignments.get? id = lastShare id mvs) rfl
    (fun mvs mv c₁ c₂ _ ih hstep => ?_) h
  obtain rfl := Option.some.inj hstep
  rw [get?_step, ih, lastShare, lastShare, List.filterMap_append, List.filterMap_cons,
    List.filterMap_nil]
  cases hshare : shareOf id mv with
  | none => rw [Option.none_or, List.append_nil]
  | some a => rw [Option.some_or, List.getLast?_append, List.getLast?_singleton, Option.some_or]

/-! ### The states of the nodes -/

theorem mem_visited_foldl_visitKey {keys : List Str} {l : PickLoop} {k : Str}
    (h : k ∈ (keys.foldl (visitKey args) l).visited) : k ∈ l.visited ∨ k ∈ keys := by
  induction keys generalizing l with
  | nil => exact Or.inl h
  | cons key keys ih =>
      obtain hk | hk := ih h
      · unfold visitKey at hk
        split at hk
        · exact Or.inl hk
        · exact (List.mem_append.1 hk).imp_right fun hk =>
            List.mem_cons.2 (Or.inl (List.mem_singleton.1 hk))
      · exact Or.inr (List.mem_cons_of_mem _ hk)

/-- A node visits keys of its assignment. -/
theorem mem_keys_of_visited {n : SwarmAgentNode} {assignment : Option ExplorationAssignment}
    {map : MonotonicSharedMap} {drawn : ℕ} {k : Str}
    (h : k ∈ (explore args n assignment map drawn).visited) :
    k ∈ (assignment.map (·.frontierKeys)).getD [] := by
  unfold explore at h
  dsimp only at h
  split at h
  · exact absurd h List.not_mem_nil
  · obtain hk | hk := mem_visited_foldl_visitKey h
    · exact absurd hk List.not_mem_nil
    · have hwork := List.mem_of_mem_take hk
      unfold workKeys at hwork
      split at hwork
      · exact hwork
      · exact absurd hwork List.not_mem_nil

/-- What a step says of a node: its share, or what was remembered for it. -/
theorem states_foldl_stepNode (args : StepArgs) (m : MonotonicSharedMap)
    (ns : List SwarmAgentNode) (l : NodeLoop)
    {last : OrderedMap Str ExplorationAssignment}
    (hlast : ∀ id, (shareOf id (args, m)).or (l.lastAssignments.get? id) =
      (shareOf id (args, m)).or (last.get? id)) :
    ∀ st ∈ (ns.foldl (stepNode args (shares args m)) l).states, st ∈ l.states ∨
      st.assignment = (shareOf st.nodeId (args, m)).or (last.get? st.nodeId) ∧
        ∀ k ∈ st.visited, k ∈ st.keys := by
  induction ns generalizing l with
  | nil => exact fun st hst => Or.inl hst
  | cons n ns ih =>
      intro st hst
      -- a turn stores the node's own share, which changes nothing under `or`
      have hnext : ∀ id,
          (shareOf id (args, m)).or ((stepNode args (shares args m) l n).lastAssignments.get? id) =
            (shareOf id (args, m)).or (last.get? id) := by
        intro id
        rw [get?_stepNode, ← hlast]
        split
        · exact or_idem_left _ _
        · rfl
      obtain hmem | hst := ih (stepNode args (shares args m) l n) hnext st hst
      · obtain hmem | hmem := List.mem_append.1 hmem
        · exact Or.inl hmem
        · rw [List.mem_singleton.1 hmem]
          exact Or.inr ⟨hlast n.nodeId, fun k hk => mem_keys_of_visited hk⟩
      · exact Or.inr hst

theorem states_step (c : ExplorationCoordinator) (mv : CoordMove) {st : NodeExplorationState}
    (hst : st ∈ (c.step mv.1 mv.2).states) :
    st.assignment = (shareOf st.nodeId mv).or (c.lastAssignments.get? st.nodeId) ∧
      ∀ k ∈ st.visited, k ∈ st.keys := by
  have h := states_foldl_stepNode mv.1 mv.2 mv.1.nodes
    ⟨bootstrap mv.1 mv.2, c.lastAssignments, 0, [], []⟩ (fun _ => rfl) st hst
  exact h.resolve_left List.not_mem_nil

/-! ### A step of a run -/

/-- The shares of a step, after some earlier ones. -/
structure SharedFairly (earlier : List CoordMove) (c : ExplorationCoordinator) (mv : CoordMove) :
    Prop where
  /-- The assignments of two nodes that get a share are disjoint. -/
  disjoint : ∀ st ∈ (c.step mv.1 mv.2).states, ∀ st' ∈ (c.step mv.1 mv.2).states,
    st.nodeId ≠ st'.nodeId → (shareOf st.nodeId mv).isSome → (shareOf st'.nodeId mv).isSome →
      st.keys.Disjoint st'.keys
  /-- A node that gets a share works keys of the frontier. -/
  frontier : ∀ st ∈ (c.step mv.1 mv.2).states, (shareOf st.nodeId mv).isSome →
    ∀ k ∈ st.visited, k ∈ (bootstrap mv.1 mv.2).frontierKeys
  /-- A node without a share returns its last one. -/
  remembered : ∀ st ∈ (c.step mv.1 mv.2).states, shareOf st.nodeId mv = none →
    st.assignment = lastShare st.nodeId earlier
  /-- What such a node works was in the frontier of the step that it got the share in. -/
  earlierFrontier : ∀ st ∈ (c.step mv.1 mv.2).states, shareOf st.nodeId mv = none →
    st.visited ≠ [] → ∃ mv' ∈ earlier, shareOf st.nodeId mv' = st.assignment ∧
      ∀ k ∈ st.visited, k ∈ (bootstrap mv'.1 mv'.2).frontierKeys

theorem keys_of_shareOf {st : NodeExplorationState} {mv : CoordMove}
    {last : OrderedMap Str ExplorationAssignment}
    (h : st.assignment = (shareOf st.nodeId mv).or (last.get? st.nodeId))
    (hsome : (shareOf st.nodeId mv).isSome) :
    st.keys = ((shares mv.1 mv.2).get? st.nodeId).getD [] := by
  obtain ⟨a, ha⟩ := Option.isSome_iff_exists.1 hsome
  rw [ha, Option.some_or] at h
  rw [NodeExplorationState.keys, h]
  exact (frontierKeys_freshAssignment ha).1

/-- **Every step of a run shares the frontier fairly**, and a node without a share returns the last
one that it got. -/
theorem sharedFairly_of_run {mvs : List CoordMove} {c : ExplorationCoordinator}
    (h : run coordStep .new mvs = some c) (mv : CoordMove) : SharedFairly mvs c mv := by
  have hremembered : ∀ st ∈ (c.step mv.1 mv.2).states, shareOf st.nodeId mv = none →
      st.assignment = lastShare st.nodeId mvs := by
    intro st hst hnone
    have hstate := (states_step c mv hst).1
    rw [hnone, Option.none_or, get?_run h] at hstate
    exact hstate
  refine ⟨fun st hst st' hst' hne hsome hsome' => ?_, fun st hst hsome k hk => ?_, hremembered,
    fun st hst hnone hvisited => ?_⟩
  · rw [keys_of_shareOf (states_step c mv hst).1 hsome,
      keys_of_shareOf (states_step c mv hst').1 hsome']
    -- both assignments are shares of one split
    exact disjoint_split (nodup_frontierKeys _) hne
  · obtain ⟨hstate, hkeys⟩ := states_step c mv hst
    have hmem := hkeys k hk
    rw [keys_of_shareOf hstate hsome] at hmem
    exact (mem_of_mem_split hmem).1
  · obtain ⟨-, hkeys⟩ := states_step c mv hst
    obtain ⟨k₀, hk₀⟩ := List.exists_mem_of_ne_nil _ hvisited
    have hassignment := hremembered st hst hnone
    cases ha : st.assignment with
    | none =>
        have hmem := hkeys k₀ hk₀
        rw [NodeExplorationState.keys, ha] at hmem
        exact absurd hmem List.not_mem_nil
    | some a =>
        rw [ha] at hassignment
        obtain ⟨mv', hmv', hshare⟩ :=
          List.mem_filterMap.1 (List.mem_of_getLast? hassignment.symm)
        refine ⟨mv', hmv', hshare, fun k hk => mem_frontierKeys_of_shareOf hshare ?_⟩
        have hmem := hkeys k hk
        rw [NodeExplorationState.keys, ha] at hmem
        exact hmem

/-! ### Two explorers -/

def explorerNode (nodeId : Str) : SwarmAgentNode := ⟨nodeId, .explorer, .scout_continue, 0, 0⟩

def frontierCell : MapCellMeta := ⟨.frontier, 1, 0, none, none, none, none, none, none⟩

/-- One explorer and two frontier cells. -/
def alone : CoordMove :=
  (⟨[explorerNode (lit "n1")], .normal, ⟨[], []⟩, lit "op", 1000, fun _ => 0, [], .tunnel⟩,
    .new (.ofList [(lit "0,0", frontierCell), (lit "5,5", frontierCell)]))

/-- The map after the first step, a second explorer, and the first one out of reach. -/
def outOfReach : CoordMove :=
  (⟨[explorerNode (lit "n1"), explorerNode (lit "n2")], .normal,
      ⟨[⟨lit "op", lit "n2", 1⟩], [lit "n2"]⟩, lit "op", 2000, fun _ => 0, [], .tunnel⟩,
    (ExplorationCoordinator.new.step alone.1 alone.2).map)

/-- The first explorer returns its share of the first step, and the second one shares the frontier
with nobody. -/
theorem sharedFairly_of_run_outOfReach : ∃ c, run coordStep .new [alone] = some c ∧
    SharedFairly [alone] c outOfReach :=
  ⟨_, rfl, sharedFairly_of_run rfl outOfReach⟩

/-- **A key is assigned twice**: what the first explorer returns overlaps with the share of the
second one. -/
theorem not_workedOnce_outOfReach : ∃ c, run coordStep .new [alone] = some c ∧
    ¬ WorkedOnce c outOfReach := by
  refine ⟨⟨(ExplorationCoordinator.new.step alone.1 alone.2).lastAssignments⟩, rfl, ?_⟩
  have hstates : ∃ st ∈ (ExplorationCoordinator.step
        ⟨(ExplorationCoordinator.new.step alone.1 alone.2).lastAssignments⟩ outOfReach.1
        outOfReach.2).states,
      ∃ st' ∈ (ExplorationCoordinator.step
        ⟨(ExplorationCoordinator.new.step alone.1 alone.2).lastAssignments⟩ outOfReach.1
        outOfReach.2).states,
      st.nodeId ≠ st'.nodeId ∧ lit "5,5" ∈ st.keys ∧ lit "5,5" ∈ st'.keys := by decide +kernel
  obtain ⟨st, hst, st', hst', hne, hk, hk'⟩ := hstates
  exact fun h => h.1 st hst st' hst' hne hk hk'

end Coordination
