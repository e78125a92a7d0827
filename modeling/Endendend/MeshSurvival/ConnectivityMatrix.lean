/-
**The matrix of links** (`mesh_survival/topology/connectivity_matrix.py`).

A link is kept under its two ends in their order, with its latency and the part of the messages that
are delivered.

Main definitions:

* `MeshSurvival.ConnectivityMatrix` with `setLink`, `removeLink`, `latency`, `delivery` and
  `neighbors`;
* `MeshSurvival.ConnectivityMatrix.usable` — the neighbours over links that deliver enough;
* `MeshSurvival.ConnectivityMatrix.reachable` — the search for a node.

Main results:

* `MeshSurvival.ConnectivityMatrix.mem_usable_iff` — the links that are used;
* `MeshSurvival.ConnectivityMatrix.reachable_spec` — **the search ends, and finds a node exactly if
  links that deliver enough lead to it**.
-/
import Endendend.Foundation.GraphSearch
import Endendend.Foundation.OrderedMap
import Mathlib.Algebra.Order.Ring.Rat
import Mathlib.Data.List.Sort

set_option relaxedAutoImplicit false
set_option autoImplicit false

namespace MeshSurvival

open Js (OrderedMap uniq)

variable {Id : Type*} [LinearOrder Id]

/-! ### Links -/

/-- The two ends of a link in their order. -/
def linkKey (a b : Id) : Id × Id := if a ≤ b then (a, b) else (b, a)

theorem linkKey_le (a b : Id) : (linkKey a b).1 ≤ (linkKey a b).2 := by
  unfold linkKey
  split
  · assumption
  · next h => exact (not_le.1 h).le

theorem linkKey_comm (a b : Id) : linkKey a b = linkKey b a := by
  unfold linkKey
  rcases lt_trichotomy a b with h | h | h
  · rw [if_pos h.le, if_neg h.not_ge]
  · rw [h]
  · rw [if_neg h.not_ge, if_pos h.le]

theorem linkKey_of_le {a b : Id} (h : a ≤ b) : linkKey a b = (a, b) := if_pos h

/-- Both maps have the same links, each under its ends in order, and the part that is delivered is
one. -/
structure ConnectivityMatrix (Id : Type*) [LinearOrder Id] where
  lat : OrderedMap (Id × Id) ℚ
  deliv : OrderedMap (Id × Id) ℚ
  ordered : ∀ k, (lat.get? k).isSome → k.1 ≤ k.2
  paired : ∀ k, (lat.get? k).isSome = (deliv.get? k).isSome
  bounded : ∀ k d, deliv.get? k = some d → 0 ≤ d ∧ d ≤ 1

namespace ConnectivityMatrix

def empty : ConnectivityMatrix Id where
  lat := ∅
  deliv := ∅
  ordered _ h := absurd h (by simp)
  paired _ := rfl
  bounded _ _ h := absurd h (by simp)

variable (mat : ConnectivityMatrix Id)

def setLink (a b : Id) (latencyMs delivery : ℚ) : ConnectivityMatrix Id where
  lat := mat.lat.set (linkKey a b) latencyMs
  deliv := mat.deliv.set (linkKey a b) (min 1 (max 0 delivery))
  ordered k h := by
    rw [OrderedMap.get?_set] at h
    split at h
    · next hk => exact hk ▸ linkKey_le a b
    · exact mat.ordered k h
  paired k := by
    rw [OrderedMap.get?_set, OrderedMap.get?_set]
    split
    · rfl
    · exact mat.paired k
  bounded k d h := by
    rw [OrderedMap.get?_set] at h
    split at h
    · obtain rfl := Option.some.inj h
      exact ⟨le_min zero_le_one (le_max_left 0 delivery), min_le_left _ _⟩
    · exact mat.bounded k d h

def removeLink (a b : Id) : ConnectivityMatrix Id where
  lat := mat.lat.erase (linkKey a b)
  deliv := mat.deliv.erase (linkKey a b)
  ordered k h := by
    rw [OrderedMap.get?_erase] at h
    split at h
    · exact absurd h (by simp)
    · exact mat.ordered k h
  paired k := by
    rw [OrderedMap.get?_erase, OrderedMap.get?_erase]
    split
    · rfl
    · exact mat.paired k
  bounded k d h := by
    rw [OrderedMap.get?_erase] at h
    split at h
    · exact absurd h (by simp)
    · exact mat.bounded k d h

def latency (a b : Id) : Option ℚ := mat.lat.get? (linkKey a b)

def delivery (a b : Id) : Option ℚ := mat.deliv.get? (linkKey a b)

theorem delivery_comm (a b : Id) : mat.delivery a b = mat.delivery b a := by
  rw [delivery, linkKey_comm, delivery]

/-- The other end of a link of a node. -/
def otherEnd (node : Id) (k : Id × Id) : Option Id :=
  if k.1 = node then some k.2 else if k.2 = node then some k.1 else none

/-- The nodes with a link to a node, in order. -/
def neighbors (node : Id) : List Id :=
  (uniq (mat.lat.keys.filterMap (otherEnd node))).insertionSort (· ≤ ·)

variable {mat}

theorem mem_neighbors_iff {a b : Id} : b ∈ mat.neighbors a ↔ (mat.delivery a b).isSome := by
  have hkeys : ∀ k, k ∈ mat.lat.keys ↔ (mat.lat.get? k).isSome := fun k => by
    rw [← not_iff_not, Option.not_isSome_iff_eq_none]
    exact OrderedMap.getList_eq_none_iff.symm
  rw [neighbors, (List.perm_insertionSort _ _).mem_iff, Js.mem_uniq, List.mem_filterMap, delivery,
    ← mat.paired]
  constructor
  · rintro ⟨⟨x, y⟩, hmem, hend⟩
    have hsome := (hkeys _).1 hmem
    have hle : x ≤ y := mat.ordered _ hsome
    unfold otherEnd at hend
    split at hend
    · next heq =>
        obtain rfl : x = a := heq
        obtain rfl : y = b := Option.some.inj hend
        rwa [linkKey_of_le hle]
    · split at hend
      · next heq =>
          obtain rfl : y = a := heq
          obtain rfl : x = b := Option.some.inj hend
          rwa [linkKey_comm, linkKey_of_le hle]
      · exact absurd hend (by simp)
  · intro hsome
    refine ⟨linkKey a b, (hkeys _).2 hsome, ?_⟩
    unfold linkKey otherEnd
    split
    · exact if_pos rfl
    · next hlt =>
        have hne : b ≠ a := fun heq => hlt heq.ge
        simp [hne]

/-- A neighbour, with what the link to it delivers, if that is enough. -/
def enough (mat : ConnectivityMatrix Id) (minDelivery : ℚ) (n m : Id) : Option (Id × ℚ) :=
  (mat.delivery n m).bind fun d => if d < minDelivery then none else some (m, d)

/-- The neighbours over links that deliver enough. -/
def usable (mat : ConnectivityMatrix Id) (minDelivery : ℚ) (n : Id) : List (Id × ℚ) :=
  (mat.neighbors n).filterMap (mat.enough minDelivery n)

/-- **The links that are used.** -/
theorem mem_usable_iff {minDelivery d : ℚ} {n m : Id} :
    (m, d) ∈ mat.usable minDelivery n ↔ mat.delivery n m = some d ∧ minDelivery ≤ d := by
  rw [usable, List.mem_filterMap]
  constructor
  · rintro ⟨x, -, hx⟩
    obtain ⟨d', hd', hif⟩ := Option.bind_eq_some_iff.1 hx
    split at hif
    · exact absurd hif (by simp)
    · next hle =>
        obtain ⟨rfl, rfl⟩ := Prod.mk.inj (Option.some.inj hif)
        exact ⟨hd', not_lt.1 hle⟩
  · rintro ⟨hd, hle⟩
    refine ⟨m, mem_neighbors_iff.2 (by rw [hd]; rfl), ?_⟩
    rw [enough, hd, Option.bind_some, if_neg (not_lt.2 hle)]

/-! ### Reaching a node -/

open GraphSearch

/-- The nodes at the ends of links. -/
def nodes (mat : ConnectivityMatrix Id) : List Id :=
  mat.lat.keys.flatMap fun k => [k.1, k.2]

theorem mem_nodes_of_delivery {a b : Id} (h : (mat.delivery a b).isSome) : b ∈ mat.nodes := by
  rw [delivery, ← mat.paired] at h
  have hmem : linkKey a b ∈ mat.lat.keys := by
    by_contra hnot
    have hnone : mat.lat.get? (linkKey a b) = none := OrderedMap.getList_eq_none_iff.2 hnot
    rw [hnone] at h
    exact absurd h (by simp)
  refine List.mem_flatMap.2 ⟨linkKey a b, hmem, ?_⟩
  unfold linkKey
  split <;> simp

/-- The graph of the links that deliver enough. -/
def links (mat : ConnectivityMatrix Id) (minDelivery : ℚ) : Successors Id where
  nodes := mat.nodes
  next n := (mat.usable minDelivery n).map Prod.fst
  next_mem n m h := by
    obtain ⟨⟨m, d⟩, hmem, rfl⟩ := List.mem_map.1 h
    refine mem_nodes_of_delivery (a := n) ?_
    rw [(mem_usable_iff.1 hmem).1]
    rfl

theorem step_links_iff {minDelivery : ℚ} {n m : Id} :
    (mat.links minDelivery).Step n m ↔ ∃ d, (m, d) ∈ mat.usable minDelivery n := by
  constructor
  · intro h
    obtain ⟨⟨m, d⟩, hmem, rfl⟩ := List.mem_map.1 h
    exact ⟨d, hmem⟩
  · rintro ⟨d, hmem⟩
    exact List.mem_map.2 ⟨_, hmem, rfl⟩

omit [LinearOrder Id] in
/-- The neighbours of a node are looked at: nothing is left if one of them is the destination. -/
def look [DecidableEq Id] (dst : Id) : Search Id → List Id → Option (Search Id)
  | s, [] => some s
  | s, m :: ms =>
    if m ∈ s.seen then look dst s ms
    else if m = dst then none
    else look dst ⟨s.seen ++ [m], m :: s.waiting⟩ ms

/-- The loop of the search; without fuel there is no answer. -/
def reachableLoop (mat : ConnectivityMatrix Id) (dst : Id) (minDelivery : ℚ) :
    ℕ → Search Id → Option Bool
  | 0, _ => none
  | fuel + 1, s =>
    match s.waiting with
    | [] => some false
    | n :: stack =>
      match look dst ⟨s.seen, stack⟩ ((mat.links minDelivery).next n) with
      | none => some true
      | some s => reachableLoop mat dst minDelivery fuel s

/-- Do links that deliver enough lead from a node to another one? -/
def reachable (mat : ConnectivityMatrix Id) (fuel : ℕ) (src dst : Id) (minDelivery : ℚ) :
    Option Bool :=
  if src = dst then some true else reachableLoop mat dst minDelivery fuel ⟨[src], [src]⟩

theorem look_eq {dst : Id} {s : Search Id} (h : dst ∉ s.seen) (ms : List Id) :
    look dst s ms = if dst ∈ ms then none else some (ms.foldl Search.note s) := by
  induction ms generalizing s with
  | nil => rfl
  | cons m ms ih =>
      rw [look, List.foldl_cons, Search.note]
      by_cases hseen : m ∈ s.seen
      · have hne : dst ≠ m := fun heq => h (heq ▸ hseen)
        rw [if_pos hseen, if_pos hseen, ih h]
        simp [hne]
      · rw [if_neg hseen, if_neg hseen]
        by_cases hdst : m = dst
        · rw [if_pos hdst, if_pos (hdst ▸ List.mem_cons_self)]
        · have hne : dst ≠ m := fun heq => hdst heq.symm
          rw [if_neg hdst, ih (by simp [h, hne])]
          simp [hne]

/-- The loop ends, and finds the destination exactly if a path leads to it. -/
theorem reachableLoop_spec {src dst : Id} {minDelivery : ℚ} {fuel : ℕ} {s : Search Id}
    (hsound : Search.Sound (mat.links minDelivery) src s) (hdst : dst ∉ s.seen)
    (hfuel : s.toCome mat.nodes < fuel) :
    ∃ found, reachableLoop mat dst minDelivery fuel s = some found ∧
      (found = true ↔ Relation.ReflTransGen (mat.links minDelivery).Step src dst) := by
  induction fuel generalizing s with
  | zero => exact absurd hfuel (Nat.not_lt_zero _)
  | succ fuel ih =>
      obtain ⟨seen, waiting⟩ := s
      cases waiting with
      | nil =>
          refine ⟨false, rfl, iff_of_false Bool.false_ne_true fun hpath => hdst ?_⟩
          have hrun := (Search.mem_run_iff hsound).2 hpath
          rwa [Search.run] at hrun
      | cons n stack =>
          have hlook := look_eq (s := ⟨seen, stack⟩) hdst ((mat.links minDelivery).next n)
          rw [reachableLoop]
          simp only [hlook]
          by_cases hmem : dst ∈ (mat.links minDelivery).next n
          · rw [if_pos hmem]
            have hn := hsound.reached n (hsound.waiting_seen n List.mem_cons_self)
            exact ⟨true, rfl, iff_of_true rfl (hn.tail hmem)⟩
          · rw [if_neg hmem]
            have hless : (Search.visit (mat.links minDelivery) seen n stack).toCome mat.nodes <
                Search.toCome mat.nodes ⟨seen, n :: stack⟩ :=
              Search.toCome_visit_lt (mat.links minDelivery) seen n stack
            refine ih hsound.visit (fun hin => ?_) (by
              rw [Search.visit] at hless
              omega)
            exact (Search.mem_seen_foldl_note.1 hin).elim hdst hmem

/-- **The search ends, and finds a node exactly if links that deliver enough lead to it.** -/
theorem reachable_spec (src dst : Id) (minDelivery : ℚ) {fuel : ℕ}
    (hfuel : mat.nodes.length + 1 < fuel) :
    ∃ found, mat.reachable fuel src dst minDelivery = some found ∧
      (found = true ↔ Relation.ReflTransGen (mat.links minDelivery).Step src dst) := by
  unfold reachable
  by_cases heq : src = dst
  · subst heq
    rw [if_pos rfl]
    exact ⟨true, rfl, iff_of_true rfl .refl⟩
  · rw [if_neg heq]
    refine reachableLoop_spec (Search.Sound.start _ src) (fun h => heq ?_) ?_
    · exact (List.mem_singleton.1 h).symm
    · have hle : mat.nodes.countP (fun x => x ∉ [src]) ≤ mat.nodes.length :=
        List.countP_le_length
      rw [Search.toCome]
      exact lt_of_le_of_lt (Nat.add_le_add_right hle _) hfuel

end ConnectivityMatrix

end MeshSurvival
