/-
**Peers that are not seen age** (over `Mesh/DiscoveryEngine.lean`).

The age of a cell counts visits, and a call visits the peers that are within two hops at its time.
A peer that has left the neighbourhood is not visited, and keeps the state it had.

Main definitions:

* `Mesh.registry` — the cells after a run of calls;
* `Mesh.AgesOut` — a cell that has not been seen for long is lost, and one that was seen just now
  is neither stale nor lost;
* `Mesh.StaysInSight` — the condition on the visits of a run.

Main results:

* `Mesh.unseen_peers_age_out_iff` — **the cells of an observer age out in all states of a run
  exactly if its peers stay in sight**;
* `Mesh.staysInSight_iff_of_single` — where no call visits a cell twice, this means that a peer
  stays within two hops for 15 calls after it was last seen.
-/
import Endendend.Mesh.DiscoveryEngine
import Mathlib.Algebra.Order.BigOperators.Group.List

set_option relaxedAutoImplicit false
set_option autoImplicit false

namespace Mesh

open Js QuietTail

/-! ### Runs -/

/-- The cells after some calls. -/
def registry (calls : List DiscoveryArgs) : OrderedMap Str DiscoveryCell :=
  calls.foldl (fun cells args => advanceDiscoveryRegistry args cells) ∅

/-- The call sees the peer of the cell. -/
def sightedIn (key : Str) (args : DiscoveryArgs) : Bool := (outcomes args key).any id

/-- How often a call visits a cell. -/
def visitCount (key : Str) (args : DiscoveryArgs) : ℕ :=
  (visits args.snap args.observerIds).countP (·.key = key)

theorem length_outcomes (args : DiscoveryArgs) (key : Str) :
    (outcomes args key).length = visitCount key args := by
  have hfrom : ∀ (vs : List Visit) (n : ℕ),
      ((outcomesFrom args n vs).filterMap fun o => if o.1 = key then some o.2 else none).length =
        vs.countP (·.key = key) := by
    intro vs
    induction vs with
    | nil => exact fun _ => rfl
    | cons v vs ih =>
        intro n
        rw [outcomesFrom, List.countP_cons]
        by_cases hkey : v.key = key
        · rw [List.filterMap_cons_some (by rw [if_pos hkey]), List.length_cons, ih,
            if_pos (decide_eq_true hkey)]
        · rw [List.filterMap_cons_none (by rw [if_neg hkey]), ih,
            if_neg (by simpa using hkey), Nat.add_zero]
  exact hfrom _ 0

/-- The visits of a cell, and which of them were sightings. -/
def visitLog (key : Str) (calls : List DiscoveryArgs) : List Bool :=
  calls.flatMap fun args => outcomes args key

theorem cellMatches_registry (calls : List DiscoveryArgs) (key : Str) :
    CellMatches (visitLog key calls) ((registry calls).get? key) := by
  induction calls using List.reverseRecOn with
  | nil => exact ⟨by simp [registry, visitLog], fun c hc => absurd hc (by simp [registry])⟩
  | append_singleton calls args ih =>
      rw [registry, List.foldl_append, visitLog, List.flatMap_append, List.flatMap_singleton]
      exact cellMatches_advance args ih

/-! ### Ageing -/

/-- A cell that was seen, and was not in the last 15 calls, is lost; one that was seen in the last
call is neither stale nor lost. -/
structure AgesOut (calls : List DiscoveryArgs) (key : Str) : Prop where
  lost : ∀ cell, (registry calls).get? key = some cell → (∃ a ∈ calls, sightedIn key a) →
    (∀ a ∈ recent 15 calls, ¬ sightedIn key a) → cell.state = .lost
  fresh : ∀ cell, (registry calls).get? key = some cell → (∃ a ∈ recent 1 calls, sightedIn key a) →
    cell.state ≠ .stale ∧ cell.state ≠ .lost

/-- After a call that sees a peer, and 15 calls that do not, the cell has had 15 visits since the
sighting; a call that sees a peer does not visit it often afterwards. -/
structure StaysInSight (calls : List DiscoveryArgs) (key : Str) : Prop where
  visited : ∀ pre call gap post, calls = pre ++ call :: (gap ++ post) → gap.length = 15 →
    sightedIn key call → (∀ a ∈ gap, ¬ sightedIn key a) →
      15 ≤ quiet id (outcomes call key) + (gap.map (visitCount key)).sum
  single : ∀ call ∈ calls, sightedIn key call → quiet id (outcomes call key) ≤ 6

theorem length_visitLog (key : Str) (calls : List DiscoveryArgs) :
    (visitLog key calls).length = (calls.map (visitCount key)).sum := by
  simp only [visitLog, List.length_flatMap, length_outcomes]

/-- The visits since the last call that saw the peer. -/
theorem quiet_visitLog {key : Str} (pre : List DiscoveryArgs) {call : DiscoveryArgs}
    {rest : List DiscoveryArgs} (hcall : sightedIn key call)
    (hrest : ∀ a ∈ rest, ¬ sightedIn key a) :
    quiet id (visitLog key (pre ++ call :: rest)) =
      quiet id (outcomes call key) + (rest.map (visitCount key)).sum := by
  have hlog : visitLog key (pre ++ call :: rest) =
      (visitLog key pre ++ outcomes call key) ++ visitLog key rest := by
    simp only [visitLog, List.flatMap_append, List.flatMap_cons, List.append_assoc]
  have hunseen : ∀ saw ∈ visitLog key rest, id saw = false := by
    intro saw hsaw
    obtain ⟨a, ha, hmem⟩ := List.mem_flatMap.1 hsaw
    have hnot := hrest a ha
    rw [sightedIn, List.any_eq_true] at hnot
    exact Bool.eq_false_iff.2 fun h => hnot ⟨saw, hmem, h⟩
  rw [hlog, quiet_append _ hunseen, quiet_append_of_mark _ (List.any_eq_true.1 hcall),
    length_visitLog]

/-- The cell of a peer that was seen, at its age. -/
theorem aged_registry {key : Str} (pre : List DiscoveryArgs) {call : DiscoveryArgs}
    {rest : List DiscoveryArgs} (hcall : sightedIn key call)
    (hrest : ∀ a ∈ rest, ¬ sightedIn key a) :
    ∃ cell, (registry (pre ++ call :: rest)).get? key = some cell ∧
      cell.Aged (quiet id (outcomes call key) + (rest.map (visitCount key)).sum) := by
  have hseen : true ∈ visitLog key (pre ++ call :: rest) := by
    obtain ⟨saw, hsaw, rfl⟩ := List.any_eq_true.1 hcall
    exact List.mem_flatMap.2 ⟨call, by simp, hsaw⟩
  have hmatches := cellMatches_registry (pre ++ call :: rest) key
  obtain ⟨cell, hcell⟩ :=
    Option.isSome_iff_exists.1 (hmatches.isSome_iff.2 (List.ne_nil_of_mem hseen))
  exact ⟨cell, hcell, quiet_visitLog pre hcall hrest ▸ hmatches.aged cell hcell hseen⟩

/-- The cell of a peer that was seen in the last call. -/
theorem aged_registry_last {key : Str} (pre : List DiscoveryArgs) {call : DiscoveryArgs}
    (hcall : sightedIn key call) : ∃ cell, (registry (pre ++ [call])).get? key = some cell ∧
      cell.Aged (quiet id (outcomes call key)) :=
  aged_registry pre hcall fun _ ha => absurd ha List.not_mem_nil

/-- A peer whose cell ages out stays in sight. -/
theorem staysInSight_of_agesOut {calls : List DiscoveryArgs} {key : Str}
    (h : ∀ pre, pre <+: calls → AgesOut pre key) : StaysInSight calls key := by
  constructor
  · intro pre call gap post hsplit hlen hcall hgap
    obtain ⟨cell, hcell, haged⟩ := aged_registry pre hcall hgap
    have hprefix : pre ++ call :: gap <+: calls := ⟨post, by rw [hsplit]; simp⟩
    have hrecent : recent 15 (pre ++ call :: gap) = gap := by
      rw [List.append_cons]
      exact recent_append_right _ hlen
    have hlost := (h _ hprefix).lost cell hcell ⟨call, by simp, hcall⟩
      (by rw [hrecent]; exact hgap)
    exact haged.lost_iff.1 hlost
  · intro call hmem hcall
    obtain ⟨pre, post, rfl⟩ := List.append_of_mem hmem
    obtain ⟨cell, hcell, haged⟩ := aged_registry_last pre hcall
    have hprefix : pre ++ [call] <+: pre ++ call :: post := ⟨post, by simp⟩
    have hfresh := (h _ hprefix).fresh cell hcell
      ⟨call, by rw [recent_concat_one]; exact List.mem_singleton_self call, hcall⟩
    rw [← not_or, haged.old_iff] at hfresh
    exact not_lt.1 hfresh

/-- The visits of the first calls are among all visits. -/
theorem sum_visitCount_take_le (key : Str) (n : ℕ) (calls : List DiscoveryArgs) :
    ((calls.take n).map (visitCount key)).sum ≤ (calls.map (visitCount key)).sum := by
  conv_rhs => rw [← List.take_append_drop n calls, List.map_append, List.sum_append]
  exact Nat.le_add_right _ _

/-- In a run in which a peer stays in sight its cell ages out. -/
theorem agesOut_of_staysInSight {pre tail : List DiscoveryArgs} {key : Str}
    (h : StaysInSight (pre ++ tail) key) : AgesOut pre key := by
  constructor
  · intro cell hcell hseen hquiet
    obtain ⟨pre, call, rest, rfl, hcall, hrest, hlen⟩ := exists_last_split hseen
      fun a ha => Bool.eq_false_iff.2 (hquiet a ha)
    obtain ⟨cell', hcell', haged⟩ :=
      aged_registry pre hcall fun a ha => Bool.eq_false_iff.1 (hrest a ha)
    obtain rfl := Option.some.inj (hcell'.symm.trans hcell)
    -- the first 15 calls after the sighting are enough
    have hsplit : pre ++ call :: rest ++ tail =
        pre ++ call :: (rest.take 15 ++ (rest.drop 15 ++ tail)) := by
      rw [← List.append_assoc (rest.take 15), List.take_append_drop, List.append_assoc]
      rfl
    have hvisited := h.visited pre call (rest.take 15) (rest.drop 15 ++ tail) hsplit
      (List.length_take_of_le hlen) hcall
      fun a ha => Bool.eq_false_iff.1 (hrest a (List.mem_of_mem_take ha))
    have hsum := sum_visitCount_take_le key 15 rest
    refine haged.lost_iff.2 ?_
    change 15 ≤ _
    omega
  · intro cell hcell hseen
    obtain ⟨call, hmem, hcall⟩ := hseen
    cases pre using List.reverseRecOn with
    | nil => exact absurd hmem List.not_mem_nil
    | append_singleton pre last =>
        rw [recent_concat_one, List.mem_singleton] at hmem
        subst hmem
        obtain ⟨cell', hcell', haged⟩ := aged_registry_last pre hcall
        obtain rfl := Option.some.inj (hcell'.symm.trans hcell)
        rw [← not_or, haged.old_iff]
        exact not_lt.2 (h.single call (by simp) hcall)

/-- **The cells of an observer age out** in all states of a run exactly if its peers stay in
sight. -/
theorem unseen_peers_age_out_iff (obs : Str) (calls : List DiscoveryArgs) :
    (∀ pre, pre <+: calls → ∀ target, AgesOut pre (discoveryKey obs target)) ↔
      ∀ target, StaysInSight calls (discoveryKey obs target) := by
  constructor
  · exact fun h target => staysInSight_of_agesOut fun pre hpre => h pre hpre target
  · rintro h pre ⟨tail, rfl⟩ target
    exact agesOut_of_staysInSight (h target)

/-- A call that visits a cell once does not visit it after the sighting. -/
theorem quiet_outcomes_of_single {key : Str} {call : DiscoveryArgs} (h : visitCount key call ≤ 1)
    (hcall : sightedIn key call) : quiet id (outcomes call key) = 0 := by
  rw [← length_outcomes] at h
  rw [sightedIn] at hcall
  cases hout : outcomes call key with
  | nil => rfl
  | cons saw rest =>
      obtain rfl : rest = [] := by
        rw [hout, List.length_cons] at h
        exact List.length_eq_zero_iff.1 (by omega)
      rw [hout, List.any_cons, List.any_nil, Bool.or_false] at hcall
      exact quiet_concat_of_mark hcall []

/-- Counts that are at most one add up to as many as they are if none is zero. -/
theorem length_le_sum_iff {α : Type*} {f : α → ℕ} {l : List α} (h : ∀ a ∈ l, f a ≤ 1) :
    l.length ≤ (l.map f).sum ↔ ∀ a ∈ l, f a = 1 := by
  constructor
  · intro hle
    induction l with
    | nil => exact fun a ha => absurd ha List.not_mem_nil
    | cons x l ih =>
        have htail : ∀ a ∈ l, f a ≤ 1 := fun a ha => h a (List.mem_cons_of_mem x ha)
        have hsum : (l.map f).sum ≤ l.length := by
          simpa using List.sum_le_sum htail
        have hx : f x ≤ 1 := h x List.mem_cons_self
        rw [List.map_cons, List.sum_cons, List.length_cons] at hle
        intro a ha
        rcases List.mem_cons.1 ha with rfl | ha
        · omega
        · exact ih htail (by omega) a ha
  · intro hone
    rw [List.map_congr_left hone]
    simp

/-- Where no call visits a cell twice, a peer stays in sight if each of the 15 calls after it was
last seen has it within two hops. -/
theorem staysInSight_iff_of_single {calls : List DiscoveryArgs} {key : Str}
    (h : ∀ a ∈ calls, visitCount key a ≤ 1) :
    StaysInSight calls key ↔
      ∀ pre call gap post, calls = pre ++ call :: (gap ++ post) → gap.length = 15 →
        sightedIn key call → (∀ a ∈ gap, ¬ sightedIn key a) → ∀ a ∈ gap, visitCount key a = 1 := by
  constructor
  · rintro hsight pre call gap post rfl hlen hcall hgap
    have hvisited := hsight.visited pre call gap post rfl hlen hcall hgap
    rw [quiet_outcomes_of_single (h call (by simp)) hcall, Nat.zero_add, ← hlen] at hvisited
    exact (length_le_sum_iff fun a ha => h a (by simp [ha])).1 hvisited
  · intro hall
    constructor
    · rintro pre call gap post rfl hlen hcall hgap
      have hone := hall pre call gap post rfl hlen hcall hgap
      rw [← hlen]
      exact ((length_le_sum_iff fun a ha => (hone a ha).le).2 hone).trans (Nat.le_add_left _ _)
    · intro call hmem hcall
      rw [quiet_outcomes_of_single (h call hmem) hcall]
      exact Nat.zero_le 6

/-! ### A peer that leaves -/

/-- A call in which `n1` is listed alone, with the given edges. -/
def callOf (edges : List GraphEdge) : DiscoveryArgs where
  snap := ⟨edges, []⟩
  observerIds := [lit "n1"]
  stress := .normal
  loss01 := 0
  rng := fun _ => 0

/-- The peer `n2` is seen once, and then has no edge for 15 calls. -/
def leavingPeer : List DiscoveryArgs :=
  callOf [⟨"n1", "n2", 20, 0, 1⟩] :: List.replicate 15 (callOf [])

/-- The cell of the peer that left is not lost. -/
theorem left_peer_not_lost :
    (∀ a ∈ leavingPeer, lit "n1" ∈ a.observerIds ∧ lit "n1" ∉ a.snap.stalePeers) ∧
      ¬ AgesOut leavingPeer (discoveryKey "n1" "n2") := by
  refine ⟨by decide +kernel, fun h => ?_⟩
  have hstate : ((registry leavingPeer).get? (discoveryKey "n1" "n2")).map (·.state) =
      some .suspected := by
    decide +kernel
  obtain ⟨cell, hcell, hsuspected⟩ := Option.map_eq_some_iff.1 hstate
  have hlost := h.lost cell hcell (by decide +kernel) (by decide +kernel)
  rw [hsuspected] at hlost
  exact absurd hlost (by decide)

end Mesh
