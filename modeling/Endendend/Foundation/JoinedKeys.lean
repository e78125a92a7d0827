/-
**Keys that are joined with a separator.**

Strings that are joined with a mark below all of their characters compare as the list of the
strings, and can be taken apart again.  A list that is sorted by such a key keeps two elements with
the same key in the order in which they came.

Main results:

* `JoinedKeys.append_cons_lt_iff` — **joined keys compare part by part**;
* `JoinedKeys.append_cons_inj_right` — the last part of a joined key can be read off;
* `JoinedKeys.insertionSort_cons_cons` — where two elements with the same key end up;
* `JoinedKeys.map_insertionSort_eq` — the keys of a sorted list do not depend on the order in which
  its elements came.
-/
import Mathlib.Data.List.Sort
import Mathlib.Data.List.Lex

set_option relaxedAutoImplicit false
set_option autoImplicit false

namespace JoinedKeys

/-! ### Joined strings -/

section Join

variable {α : Type*}

/-- **Joined keys compare part by part**, if the mark is below all characters of the first parts. -/
theorem append_cons_lt_iff [LinearOrder α] {mark : α} {x y r r' : List α}
    (hx : ∀ u ∈ x, mark < u) (hy : ∀ u ∈ y, mark < u) :
    x ++ mark :: r < y ++ mark :: r' ↔ x < y ∨ x = y ∧ r < r' := by
  induction x generalizing y with
  | nil =>
      cases y with
      | nil => simp
      | cons b y =>
          have hb : mark < b := hy b List.mem_cons_self
          simp [List.cons_lt_cons_iff, hb]
  | cons a x ih =>
      have ha : mark < a := hx a List.mem_cons_self
      cases y with
      | nil => simp [List.cons_lt_cons_iff, ha.asymm, ha.ne']
      | cons b y =>
          have hrest := ih (fun u hu => hx u (List.mem_cons_of_mem _ hu))
            fun u hu => hy u (List.mem_cons_of_mem _ hu)
          rw [List.cons_append, List.cons_append, List.cons_lt_cons_iff, List.cons_lt_cons_iff,
            hrest, List.cons.injEq, and_or_left, or_assoc, and_assoc]

/-- A list is read up to the first place where a mark occurs. -/
theorem append_cons_inj_left {mark : α} {x x' z z' : List α} (hx : mark ∉ x) (hx' : mark ∉ x')
    (h : x ++ mark :: z = x' ++ mark :: z') : x = x' ∧ z = z' := by
  induction x generalizing x' with
  | nil =>
      cases x' with
      | nil => exact ⟨rfl, (List.cons.inj h).2⟩
      | cons a x' => exact absurd ((List.cons.inj h).1 ▸ List.mem_cons_self) hx'
  | cons a x ih =>
      cases x' with
      | nil => exact absurd ((List.cons.inj h).1 ▸ List.mem_cons_self) hx
      | cons a' x' =>
          obtain ⟨rfl, htail⟩ := List.cons.inj h
          obtain ⟨rfl, rfl⟩ := ih (fun hm => hx (List.mem_cons_of_mem _ hm))
            (fun hm => hx' (List.mem_cons_of_mem _ hm)) htail
          exact ⟨rfl, rfl⟩

/-- A list is read back to the last place where a mark occurs. -/
theorem append_cons_inj_right {mark : α} {x x' z z' : List α} (hz : mark ∉ z) (hz' : mark ∉ z')
    (h : x ++ mark :: z = x' ++ mark :: z') : x = x' ∧ z = z' := by
  -- read from its end, a list has its last mark first
  have hrev : z.reverse ++ mark :: x.reverse = z'.reverse ++ mark :: x'.reverse := by
    simpa using congrArg List.reverse h
  obtain ⟨hzz, hxx⟩ := append_cons_inj_left (fun hm => hz (List.mem_reverse.1 hm))
    (fun hm => hz' (List.mem_reverse.1 hm)) hrev
  exact ⟨List.reverse_injective hxx, List.reverse_injective hzz⟩

end Join

/-! ### Sorting by a key -/

section ByKey

variable {α κ : Type*} [LinearOrder κ] {key : α → κ}

/-- Two elements of a list can be taken to its front. -/
theorem exists_perm_cons_cons {a b : α} {l : List α} (ha : a ∈ l) (hb : b ∈ l) (hab : a ≠ b) :
    ∃ rest, (a :: b :: rest).Perm l := by
  obtain ⟨s, t, rfl⟩ := List.append_of_mem ha
  have hb' : b ∈ s ++ t := by
    rcases List.mem_append.1 hb with hs | ht
    · exact List.mem_append_left t hs
    · exact List.mem_append_right s ((List.mem_cons.1 ht).resolve_left (Ne.symm hab))
  obtain ⟨s', t', hst⟩ := List.append_of_mem hb'
  have hfront : (b :: (s' ++ t')).Perm (s ++ t) := hst ▸ List.perm_middle.symm
  exact ⟨s' ++ t', (hfront.cons a).trans List.perm_middle.symm⟩

/-- Two elements with the same key are put at the same place. -/
theorem orderedInsert_orderedInsert {a b : α} (h : key a = key b) (s : List α) :
    ∃ p q, (s.orderedInsert (fun x y => key x ≤ key y) b).orderedInsert
        (fun x y => key x ≤ key y) a = p ++ a :: b :: q ∧
      (s.orderedInsert (fun x y => key x ≤ key y) a).orderedInsert
        (fun x y => key x ≤ key y) b = p ++ b :: a :: q := by
  induction s with
  | nil => exact ⟨[], [], by simp [h], by simp [h]⟩
  | cons c s ih =>
      -- both stop before the first element whose key is not smaller
      by_cases hc : key b ≤ key c
      · exact ⟨[], c :: s, by simp [h, hc], by simp [h, hc]⟩
      · obtain ⟨p, q, hab, hba⟩ := ih
        exact ⟨c :: p, q, by simp [h, hc, hab], by simp [h, hc, hba]⟩

/-- **Two elements with the same key that come first end up next to each other, in their order.** -/
theorem insertionSort_cons_cons {a b : α} (h : key a = key b) (l : List α) :
    ∃ p q, (a :: b :: l).insertionSort (fun x y => key x ≤ key y) = p ++ a :: b :: q ∧
      (b :: a :: l).insertionSort (fun x y => key x ≤ key y) = p ++ b :: a :: q :=
  orderedInsert_orderedInsert h _

theorem pairwise_insertionSort (l : List α) :
    (l.insertionSort fun x y => key x ≤ key y).Pairwise fun x y => key x ≤ key y := by
  have htotal : Std.Total fun x y : α => key x ≤ key y := ⟨fun x y => le_total _ _⟩
  have htrans : IsTrans α fun x y : α => key x ≤ key y := ⟨fun x y z => le_trans⟩
  exact List.pairwise_insertionSort _ l

/-- **The keys of a sorted list do not depend on the order in which its elements came.** -/
theorem map_insertionSort_eq {l l' : List α} (h : l.Perm l') :
    (l.insertionSort fun x y => key x ≤ key y).map key =
      (l'.insertionSort fun x y => key x ≤ key y).map key := by
  have hperm := ((List.perm_insertionSort (fun x y : α => key x ≤ key y) l).trans
    (h.trans (List.perm_insertionSort (fun x y : α => key x ≤ key y) l').symm)).map key
  exact hperm.eq_of_pairwise' (List.pairwise_map.2 (pairwise_insertionSort l))
    (List.pairwise_map.2 (pairwise_insertionSort l'))

/-- Of two elements with different keys the one with the smaller key comes first. -/
theorem rel_of_key_lt {l : List α} {r : α → α → Prop}
    (h : (l.insertionSort fun x y => key x ≤ key y).Pairwise r) {a b : α} (ha : a ∈ l)
    (hb : b ∈ l) (hlt : key a < key b) : r a b := by
  have hsorted := List.pairwise_iff_getElem.1
    (pairwise_insertionSort l : List.Pairwise (fun x y => key x ≤ key y) _)
  obtain ⟨i, hi, rfl⟩ :=
    List.getElem_of_mem ((List.mem_insertionSort fun x y : α => key x ≤ key y).2 ha)
  obtain ⟨j, hj, rfl⟩ :=
    List.getElem_of_mem ((List.mem_insertionSort fun x y : α => key x ≤ key y).2 hb)
  rcases lt_trichotomy i j with hij | rfl | hij
  · exact List.pairwise_iff_getElem.1 h i j hi hj hij
  · exact absurd hlt (lt_irrefl _)
  · exact absurd hlt (not_lt.2 (hsorted j i hj hi hij))

end ByKey

end JoinedKeys
