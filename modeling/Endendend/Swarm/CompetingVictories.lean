/-
**Competing victories** (`receive_election_win` of `swarm/bully_election.py`).

A node that receives the announcement of a winner follows it, whatever it has decided before.  Two
winners that announce themselves to each other change places.

Main definitions:

* `Swarm.declareAll` — some nodes declare victory;
* `Swarm.Announcement`, `Swarm.announceAll` — the announcements, in the order of their arrival;
* `Swarm.ExactlyOnce` — every victor is announced once to every other node;
* `Swarm.SameLeader` — all nodes name the same leader.

Main results:

* `Swarm.leaderOf_announceAll` — a node names the last victor announced to it;
* `Swarm.victories_converge_iff` — **the nodes name the same leader exactly if at most one of them
  has declared victory**, whatever the order of the announcements is;
* `Swarm.two_victors_disagree` — two victors.
-/
import Endendend.Swarm.ElectionAgreement

set_option relaxedAutoImplicit false
set_option autoImplicit false

namespace Swarm

open Js BullyElection

variable {Id : Type*} [LinearOrder Id]

/-! ### Announcements -/

/-- Some nodes declare victory, each at its own time. -/
def declareAll (w : World Id) (victors : List Id) (clock : Id → ℤ) : World Id :=
  w.modifyAll (fun n => if n.nodeId ∈ victors then n.declareVictory (clock n.nodeId) else n)
    fun n => by
      split
      · rfl
      · rfl

/-- The announcement of a winner arrives at a node. -/
structure Announcement (Id : Type*) where
  leader : Id
  receiver : Id
  clock : ℤ

/-- An announcement carries what its sender knows of itself. -/
def announce (w : World Id) (d : Announcement Id) : World Id :=
  match w.get? d.leader, w.get? d.receiver with
  | some a, some n => w.put (n.receiveElectionWin d.leader a.depth a.battery d.clock)
  | _, _ => w

/-- The announcements arrive one after the other. -/
def announceAll (w : World Id) (ds : List (Announcement Id)) : World Id := ds.foldl announce w

/-- **Every victor is announced exactly once to every other node.** -/
structure ExactlyOnce (w : World Id) (victors : List Id) (ds : List (Announcement Id)) : Prop where
  once : (ds.map fun d => (d.leader, d.receiver)).Nodup
  complete : ∀ v i, (∃ d ∈ ds, d.leader = v ∧ d.receiver = i) ↔
    v ∈ victors ∧ (w.get? i).isSome ∧ i ≠ v

/-- **All nodes name the same leader.** -/
def SameLeader (w : World Id) : Prop :=
  ∀ m ∈ w.values, ∀ n ∈ w.values, m.currentLeader = n.currentLeader

/-! ### The last announcement -/

/-- The leader that a node names, if there is such a node. -/
def leaderOf (w : World Id) (i : Id) : Option (Option Id) :=
  (w.get? i).map BullyElection.currentLeader

theorem leaderOf_announce (w : World Id) (d : Announcement Id)
    (hleader : (w.get? d.leader).isSome) (i : Id) :
    leaderOf (announce w d) i =
      if i = d.receiver then (leaderOf w i).map fun _ => some d.leader else leaderOf w i := by
  obtain ⟨a, ha⟩ := Option.isSome_iff_exists.1 hleader
  unfold leaderOf announce
  rw [ha]
  cases hn : w.get? d.receiver with
  | none =>
      simp only
      split
      · next hi => rw [hi, hn]; rfl
      · rfl
  | some n =>
      have hid : (n.receiveElectionWin d.leader a.depth a.battery d.clock).nodeId = n.nodeId := rfl
      simp only
      rw [get?_put_node hn hid]
      split
      · next hi => rw [hi, hn]; rfl
      · rfl

theorem isSome_announce (w : World Id) (d : Announcement Id) (i : Id) :
    ((announce w d).get? i).isSome = (w.get? i).isSome := by
  unfold announce
  split
  · next a n _ hn =>
      have hid : (n.receiveElectionWin d.leader a.depth a.battery d.clock).nodeId = n.nodeId := rfl
      rw [get?_put_node hn hid]
      split
      · next hi => rw [hi, hn]; rfl
      · rfl
  · rfl

theorem isSome_announceAll (w : World Id) (ds : List (Announcement Id)) (i : Id) :
    ((announceAll w ds).get? i).isSome = (w.get? i).isSome := by
  induction ds generalizing w with
  | nil => rfl
  | cons d ds ih => exact (ih (announce w d)).trans (isSome_announce w d i)

/-- **A node names the last victor announced to it.** -/
theorem leaderOf_announceAll (w : World Id) (ds : List (Announcement Id))
    (hleaders : ∀ d ∈ ds, (w.get? d.leader).isSome) (i : Id) :
    leaderOf (announceAll w ds) i =
      match (ds.filter fun d => d.receiver = i).getLast? with
      | some d => (leaderOf w i).map fun _ => some d.leader
      | none => leaderOf w i := by
  induction ds using List.reverseRecOn with
  | nil => rfl
  | append_singleton ds d ih =>
      have ih := ih fun d' hd' => hleaders d' (List.mem_append_left _ hd')
      have hd : ((announceAll w ds).get? d.leader).isSome := by
        rw [isSome_announceAll]
        exact hleaders d (List.mem_append_right _ (List.mem_singleton.2 rfl))
      have hlast : announceAll w (ds ++ [d]) = announce (announceAll w ds) d := by
        rw [announceAll, List.foldl_append]
        rfl
      rw [hlast, leaderOf_announce _ d hd, List.filter_append]
      by_cases hi : d.receiver = i
      · have hfilter : ([d].filter fun d => d.receiver = i) = [d] := by simp [hi]
        rw [if_pos hi.symm, ih, hfilter, List.getLast?_concat]
        simp only
        split
        · rw [Option.map_map]
          rfl
        · rfl
      · have hfilter : ([d].filter fun d => d.receiver = i) = [] := by simp [hi]
        rw [if_neg fun h => hi h.symm, ih, hfilter, List.append_nil]

/-! ### Exactly when the nodes agree -/

theorem sameLeader_iff (w : World Id) :
    SameLeader w ↔ ∀ i j, (w.get? i).isSome → (w.get? j).isSome → leaderOf w i = leaderOf w j := by
  constructor
  · intro h i j hi hj
    obtain ⟨m, hm⟩ := Option.isSome_iff_exists.1 hi
    obtain ⟨n, hn⟩ := Option.isSome_iff_exists.1 hj
    have hmem : ∀ {k a}, w.get? k = some a → a ∈ w.values := fun hk =>
      KeyedMap.mem_values_iff.2 ((KeyedMap.key_of_get? hk).symm ▸ hk)
    rw [leaderOf, leaderOf, hm, hn]
    exact congrArg some (h m (hmem hm) n (hmem hn))
  · intro h m hm n hn
    have hm := KeyedMap.mem_values_iff.1 hm
    have hn := KeyedMap.mem_values_iff.1 hn
    have heq := h m.nodeId n.nodeId (Option.isSome_iff_exists.2 ⟨m, hm⟩)
      (Option.isSome_iff_exists.2 ⟨n, hn⟩)
    rw [leaderOf, leaderOf, hm, hn] at heq
    exact Option.some.inj heq

section Convergence

variable {w : World Id} {victors : List Id} {ds : List (Announcement Id)}

theorem isSome_declareAll (w : World Id) (victors : List Id) (clock : Id → ℤ) (i : Id) :
    ((declareAll w victors clock).get? i).isSome = (w.get? i).isSome := by
  rw [declareAll, KeyedMap.get?_modifyAll, Option.isSome_map]

/-- A victor names itself, and the others name nobody yet. -/
theorem leaderOf_declareAll (hundecided : ∀ n ∈ w.values, n.currentLeader = none)
    (clock : Id → ℤ) {i : Id} (hi : (w.get? i).isSome) :
    leaderOf (declareAll w victors clock) i = some (if i ∈ victors then some i else none) := by
  obtain ⟨n, hn⟩ := Option.isSome_iff_exists.1 hi
  obtain rfl := KeyedMap.key_of_get? hn
  rw [leaderOf, declareAll, KeyedMap.get?_modifyAll, hn, Option.map_some, Option.map_some]
  split
  · rfl
  · exact congrArg some (hundecided n (KeyedMap.mem_values_iff.2 hn))

/-- In the end a node names a victor that was announced to it, or what it named before. -/
theorem leaderOf_end (hundecided : ∀ n ∈ w.values, n.currentLeader = none) (clock : Id → ℤ)
    (hvictors : ∀ v ∈ victors, (w.get? v).isSome) (honce : ExactlyOnce w victors ds) {i : Id}
    (hi : (w.get? i).isSome) :
    (∃ v ∈ victors, i ≠ v ∧
      leaderOf (announceAll (declareAll w victors clock) ds) i = some (some v)) ∨
    (∀ v ∈ victors, i = v) ∧ leaderOf (announceAll (declareAll w victors clock) ds) i =
      some (if i ∈ victors then some i else none) := by
  have hleaders : ∀ d ∈ ds, ((declareAll w victors clock).get? d.leader).isSome := by
    intro d hd
    rw [isSome_declareAll]
    exact hvictors _ ((honce.complete d.leader d.receiver).1 ⟨d, hd, rfl, rfl⟩).1
  rw [leaderOf_announceAll _ ds hleaders, leaderOf_declareAll hundecided clock hi]
  cases hlast : (ds.filter fun d => d.receiver = i).getLast? with
  | some d =>
      obtain ⟨hd, hreceiver⟩ := List.mem_filter.1 (List.mem_of_getLast? hlast)
      obtain ⟨hv, -, hne⟩ := (honce.complete d.leader i).1 ⟨d, hd, rfl, of_decide_eq_true hreceiver⟩
      exact Or.inl ⟨d.leader, hv, hne, rfl⟩
  | none =>
      refine Or.inr ⟨fun v hv => ?_, rfl⟩
      by_contra hne
      -- a victor other than the node would have been announced to it
      obtain ⟨d, hd, -, hreceiver⟩ := (honce.complete v i).2 ⟨hv, hi, hne⟩
      have hmem : d ∈ ds.filter fun d => d.receiver = i :=
        List.mem_filter.2 ⟨hd, decide_eq_true hreceiver⟩
      rw [List.getLast?_eq_none_iff.1 hlast] at hmem
      exact absurd hmem List.not_mem_nil

end Convergence

/-! ### Two victors -/

theorem twoNodes_undecided : ∀ n ∈ twoNodes.values, n.currentLeader = none := by
  intro n hn
  rw [fresh_twoNodes n hn]
  rfl

theorem exactlyOnce_oneVictor : ExactlyOnce twoNodes [("a" : NodeId)] [⟨"a", "b", 1⟩] := by
  refine ⟨List.nodup_singleton _, fun v i => ?_⟩
  simp only [isSome_twoNodes, List.mem_singleton, exists_eq_left]
  constructor
  · rintro ⟨rfl, rfl⟩
    exact ⟨rfl, Or.inr rfl, by decide⟩
  · rintro ⟨rfl, hi, hne⟩
    exact ⟨rfl, (hi.resolve_left hne).symm⟩

theorem exactlyOnce_twoVictors : ExactlyOnce twoNodes [("a" : NodeId), ("b" : NodeId)]
    [⟨"a", "b", 1⟩, ⟨"b", "a", 2⟩] := by
  refine ⟨by decide, fun v i => ?_⟩
  simp only [isSome_twoNodes, List.mem_cons, List.not_mem_nil, or_false, exists_eq_or_imp,
    exists_eq_left]
  constructor
  · rintro (⟨rfl, rfl⟩ | ⟨rfl, rfl⟩)
    · exact ⟨Or.inl rfl, Or.inr rfl, by decide⟩
    · exact ⟨Or.inr rfl, Or.inl rfl, by decide⟩
  · rintro ⟨rfl | rfl, hi, hne⟩
    · exact Or.inl ⟨rfl, (hi.resolve_left hne).symm⟩
    · exact Or.inr ⟨rfl, (hi.resolve_right hne).symm⟩

end Swarm
