/-
**Closed lists, and even-odd ray casting.**

A list of corners is walked along from its first element to its last one and back to the first.  The
edges of the walk do not depend on where it starts, and a property of the corners changes along it
an even number of times.

A closed list of corners in the plane is crossed by the ray that goes from a point to the right.  An
edge is crossed if one of its ends is above the point and the other one is not, and if it meets the
level of the point to the right of it.

Main definitions:

* `CyclicEdges.steps` — the pairs of elements that follow each other in a list;
* `CyclicEdges.edges` — the steps of a list that is closed;
* `CyclicEdges.Changes` — a property holds at one end of an edge only;
* `Plane.turn` — twice the area of a triangle, with its sign;
* `Plane.IsConvexPolygon` — three corners in the order of the list never turn to the other side;
* `Plane.boundary`, `Plane.region` — the edges, and the convex hull of the corners;
* `Plane.Crosses` — an edge is crossed by the ray.

Main results:

* `CyclicEdges.perm_edges_of_isRotated`, `CyclicEdges.perm_edges_reverse` — **the edges do not
  depend on where the list starts**, and are turned round with it;
* `CyclicEdges.even_changes` — **a property changes an even number of times**;
* `CyclicEdges.exists_step` — it changes at some step between two elements that differ in it;
* `CyclicEdges.exists_isRotated` — a list may be started where it changes;
* `CyclicEdges.foldl_toggle` — a loop that counts the steps in a flag;
* `Plane.countP_crosses_of_isRotated`, `Plane.countP_crosses_reverse` — where the list starts and in
  which direction it goes does not matter;
* `Plane.mem_region_of_odd` — a point from which an odd number of edges is crossed is in the region;
* `Plane.odd_crosses_iff` — **from a point that is not on the boundary of a convex polygon an odd
  number of edges is crossed exactly if it is in the region.**
-/
import Mathlib.Data.List.Rotate
import Mathlib.Algebra.Group.Nat.Even
import Mathlib.Analysis.Convex.Hull
import Mathlib.Tactic.FieldSimp
import Mathlib.Tactic.Linarith
import Mathlib.Tactic.LinearCombination

set_option relaxedAutoImplicit false
set_option autoImplicit false

namespace CyclicEdges

variable {α : Type*}

/-- The pairs of elements that follow each other. -/
def steps (l : List α) : List (α × α) := l.zip l.tail

/-- The edges of a list that is closed. -/
def edges (l : List α) : List (α × α) := l.zip (l.rotate 1)

/-! ### Steps -/

@[simp] theorem steps_nil : steps ([] : List α) = [] := rfl

@[simp] theorem steps_singleton (a : α) : steps [a] = [] := rfl

@[simp] theorem steps_cons_cons (a b : α) (l : List α) :
    steps (a :: b :: l) = (a, b) :: steps (b :: l) := rfl

/-- A walk is cut at one of its elements. -/
theorem steps_append_cons (l r : List α) (a : α) :
    steps (l ++ a :: r) = steps (l ++ [a]) ++ steps (a :: r) := by
  induction l with
  | nil => rfl
  | cons x l ih =>
      cases l with
      | nil => rfl
      | cons y l =>
          rw [List.cons_append, List.cons_append, List.cons_append, List.cons_append,
            steps_cons_cons, steps_cons_cons, List.cons_append]
          exact congrArg _ ih

theorem mem_of_mem_steps {l : List α} {e : α × α} (h : e ∈ steps l) : e.1 ∈ l ∧ e.2 ∈ l :=
  ⟨(List.of_mem_zip h).1, List.mem_of_mem_tail (List.of_mem_zip h).2⟩

theorem steps_reverse (l : List α) : steps l.reverse = ((steps l).map Prod.swap).reverse := by
  induction l with
  | nil => rfl
  | cons a l ih =>
      cases l with
      | nil => rfl
      | cons b l =>
          rw [List.reverse_cons, List.reverse_cons, List.append_assoc, List.singleton_append,
            steps_append_cons, ← List.reverse_cons, ih, steps_cons_cons a, List.map_cons,
            List.reverse_cons]
          rfl

/-! ### Closed lists -/

theorem edges_cons (a : α) (l : List α) : edges (a :: l) = steps (a :: l ++ [a]) := by
  have hlength : (a :: l).length = (l ++ [a]).length := by simp
  -- the last element of the walk has no step
  have hzip : (a :: l ++ [a]).zip (l ++ [a] ++ []) = (a :: l).zip (l ++ [a]) ++ [a].zip [] :=
    List.zip_append hlength
  rw [List.append_nil, List.zip_nil_right, List.append_nil] at hzip
  rw [edges, List.rotate_cons_succ, List.rotate_zero, ← hzip]
  rfl

/-- The edge from the last element to the first one. -/
theorem edges_append_singleton (a c : α) (l : List α) :
    edges (a :: l ++ [c]) = steps (a :: l ++ [c]) ++ [(c, a)] := by
  rw [List.cons_append, edges_cons, List.cons_append, List.append_assoc, List.singleton_append,
    ← List.cons_append, steps_append_cons]
  rfl

theorem mem_of_mem_edges {l : List α} {e : α × α} (h : e ∈ edges l) : e.1 ∈ l ∧ e.2 ∈ l :=
  ⟨(List.of_mem_zip h).1, List.mem_rotate.1 (List.of_mem_zip h).2⟩

theorem edges_rotate (l : List α) (n : ℕ) : edges (l.rotate n) = (edges l).rotate n := by
  rw [edges, List.rotate_rotate, Nat.add_comm, ← List.rotate_rotate]
  exact (List.zipWith_rotate_distrib Prod.mk l (l.rotate 1) n (by simp)).symm

/-- **The edges do not depend on where the list starts.** -/
theorem perm_edges_of_isRotated {l l' : List α} (h : l.IsRotated l') :
    (edges l).Perm (edges l') := by
  obtain ⟨n, rfl⟩ := h
  rw [edges_rotate]
  exact (List.rotate_perm _ n).symm

/-- **The edges of a list that is walked the other way** are turned round. -/
theorem perm_edges_reverse (l : List α) : (edges l.reverse).Perm ((edges l).map Prod.swap) := by
  cases l with
  | nil => exact .refl _
  | cons a l =>
      -- the walk back begins where the walk began
      have hstart : (a :: l).reverse.IsRotated (a :: l.reverse) := by
        rw [List.reverse_cons]
        exact List.isRotated_append
      have hback : a :: l.reverse ++ [a] = (a :: l ++ [a]).reverse := by simp
      refine (perm_edges_of_isRotated hstart).trans ?_
      rw [edges_cons, edges_cons, hback, steps_reverse]
      exact List.reverse_perm _

/-! ### Changes -/

/-- A property holds at one end of an edge only. -/
def Changes (s : α → Prop) (e : α × α) : Prop := ¬ (s e.1 ↔ s e.2)

instance (s : α → Prop) [DecidablePred s] : DecidablePred (Changes s) := fun _ =>
  inferInstanceAs (Decidable (¬ _))

variable (s : α → Prop) [DecidablePred s]

/-- Between elements that agree a property changes an even number of times. -/
theorem even_changes_steps (a b : α) (l : List α) :
    Even ((steps (a :: l ++ [b])).countP (Changes s ·)) ↔ (s a ↔ s b) := by
  induction l generalizing a with
  | nil =>
      by_cases h : s a ↔ s b
      · simp [Changes, h]
      · simp [Changes, h]
  | cons c l ih =>
      rw [List.cons_append, List.cons_append, steps_cons_cons, List.countP_cons, Nat.even_add,
        ← List.cons_append, ih c]
      by_cases h : s a ↔ s c
      · simp [Changes, h]
      · simp only [Changes, h, not_false_eq_true, decide_true, if_true, Nat.not_even_one, iff_false]
        tauto

/-- **A property changes an even number of times along a closed list.** -/
theorem even_changes (l : List α) : Even ((edges l).countP (Changes s ·)) := by
  cases l with
  | nil => exact ⟨0, rfl⟩
  | cons a l =>
      rw [edges_cons]
      exact (even_changes_steps s a a l).2 Iff.rfl

variable {s}

omit [DecidablePred s] in
theorem countP_steps_eq_zero {l : List α} {c : Prop} (h : ∀ a ∈ l, s a ↔ c) {p : α × α → Bool}
    (hp : ∀ e, p e = true → Changes s e) : (steps l).countP p = 0 := by
  refine List.countP_eq_zero.2 fun e he hpe => hp e hpe ?_
  obtain ⟨h₁, h₂⟩ := mem_of_mem_steps he
  rw [h _ h₁, h _ h₂]

omit [DecidablePred s] in
/-- A property that holds at the beginning and not at the end changes at some step. -/
theorem exists_step {a b : α} {l : List α} (ha : s a) (hb : ¬ s b) :
    ∃ e ∈ steps (a :: l ++ [b]), s e.1 ∧ ¬ s e.2 := by
  induction l generalizing a with
  | nil => exact ⟨(a, b), List.mem_singleton_self _, ha, hb⟩
  | cons c l ih =>
      by_cases hc : s c
      · obtain ⟨e, he, hends⟩ := ih hc
        exact ⟨e, List.mem_cons_of_mem _ he, hends⟩
      · exact ⟨(a, c), List.mem_cons_self, ha, hc⟩

omit [DecidablePred s] in
/-- The last element with a property. -/
theorem exists_last {l : List α} (h : ∃ a ∈ l, s a) :
    ∃ l₁ c l₂, l = l₁ ++ c :: l₂ ∧ s c ∧ ∀ x ∈ l₂, ¬ s x := by
  induction l with
  | nil => exact absurd h (by simp)
  | cons x l ih =>
      by_cases hlater : ∃ a ∈ l, s a
      · obtain ⟨l₁, c, l₂, rfl, hc, hrest⟩ := ih hlater
        exact ⟨x :: l₁, c, l₂, rfl, hc, hrest⟩
      · obtain ⟨a, ha, hs⟩ := h
        have hx : a = x := (List.mem_cons.1 ha).resolve_right fun hmem => hlater ⟨a, hmem, hs⟩
        exact ⟨[], x, l, rfl, hx ▸ hs, fun y hy hsy => hlater ⟨y, hy, hsy⟩⟩

omit [DecidablePred s] in
/-- **A list may be started where a property changes**: right after its last element with it. -/
theorem exists_isRotated {l : List α} (hs : ∃ a ∈ l, s a) (hn : ∃ b ∈ l, ¬ s b) :
    ∃ d m c, l.IsRotated (d :: m ++ [c]) ∧ ¬ s d ∧ s c := by
  obtain ⟨b, hb, hsb⟩ := hn
  obtain ⟨l₀, l₃, rfl⟩ := List.append_of_mem hb
  obtain ⟨l₁, c, l₂, hsplit, hc, hrest⟩ :
      ∃ l₁ c l₂, b :: l₃ ++ l₀ = l₁ ++ c :: l₂ ∧ s c ∧ ∀ x ∈ l₂, ¬ s x := by
    refine exists_last ?_
    obtain ⟨a, ha, hsa⟩ := hs
    exact ⟨a, (List.perm_append_comm.subset ha), hsa⟩
  have hrot : (l₀ ++ b :: l₃).IsRotated (l₂ ++ (l₁ ++ [c])) := by
    refine List.isRotated_append.trans ?_
    rw [hsplit, List.append_cons l₁ c l₂]
    exact List.isRotated_append
  cases l₂ with
  | cons d m => exact ⟨d, m ++ l₁, c, by simpa using hrot, hrest d List.mem_cons_self, hc⟩
  | nil =>
      cases l₁ with
      | nil =>
          obtain ⟨rfl, -⟩ := List.cons.inj hsplit
          exact absurd hc hsb
      | cons d m =>
          obtain ⟨rfl, -⟩ := List.cons.inj hsplit
          exact ⟨b, m, c, by simpa using hrot, hsb, hc⟩

/-! ### A loop over the steps -/

/-- **A flag that is turned at some steps** tells whether their number is odd. -/
theorem foldl_toggle (p : α → α → Prop) [∀ a b, Decidable (p a b)] (a : α) (l : List α)
    (flag : Bool) :
    (l.foldl (fun (x : Bool × α) b => (if p x.2 b then !x.1 else x.1, b)) (flag, a)).1 = true ↔
      (flag = true ↔ Even ((steps (a :: l)).countP fun e => p e.1 e.2)) := by
  induction l generalizing a flag with
  | nil => simp
  | cons b l ih =>
      rw [List.foldl_cons, ih, steps_cons_cons, List.countP_cons]
      by_cases h : p a b
      · simp only [h, if_true, decide_true, Nat.even_add_one]
        cases flag <;> simp
      · simp [h]

end CyclicEdges

namespace Plane

open CyclicEdges

variable {𝕜 : Type*} [Field 𝕜] [LinearOrder 𝕜]

/-- Twice the area of a triangle; it is positive if the third corner is to the left of the line from
the first to the second. -/
def turn (a b c : 𝕜 × 𝕜) : 𝕜 := (b.1 - a.1) * (c.2 - a.2) - (b.2 - a.2) * (c.1 - a.1)

/-- Three corners in the order of the list never turn right. -/
def LeftTurning (ps : List (𝕜 × 𝕜)) : Prop :=
  ∀ a b c, [a, b, c].Sublist ps → 0 ≤ turn a b c

/-- **A convex polygon**, in either direction. -/
def IsConvexPolygon (ps : List (𝕜 × 𝕜)) : Prop := LeftTurning ps ∨ LeftTurning ps.reverse

/-- The points on the edges. -/
def boundary (ps : List (𝕜 × 𝕜)) : Set (𝕜 × 𝕜) := {p | ∃ e ∈ edges ps, p ∈ segment 𝕜 e.1 e.2}

/-- The convex hull of the corners. -/
def region (ps : List (𝕜 × 𝕜)) : Set (𝕜 × 𝕜) := convexHull 𝕜 {v | v ∈ ps}

/-- A corner is above a point. -/
def Above (p v : 𝕜 × 𝕜) : Prop := p.2 < v.2

instance (p : 𝕜 × 𝕜) : DecidablePred (Above p) := fun v => inferInstanceAs (Decidable (p.2 < v.2))

/-- Where the line through an edge meets the level of a point. -/
def meetX (p : 𝕜 × 𝕜) (e : (𝕜 × 𝕜) × (𝕜 × 𝕜)) : 𝕜 :=
  (e.1.1 - e.2.1) * (p.2 - e.2.2) / (e.1.2 - e.2.2) + e.2.1

/-- **An edge is crossed** by the ray from a point to the right. -/
def Crosses (p : 𝕜 × 𝕜) (e : (𝕜 × 𝕜) × (𝕜 × 𝕜)) : Prop := Changes (Above p) e ∧ p.1 < meetX p e

instance (p : 𝕜 × 𝕜) : DecidablePred (Crosses p) := fun _ => inferInstanceAs (Decidable (_ ∧ _))

/-! ### Turns -/

omit [LinearOrder 𝕜]

theorem turn_rotate (a b c : 𝕜 × 𝕜) : turn b c a = turn a b c := by
  simp only [turn]
  ring

theorem turn_self_right (a b : 𝕜 × 𝕜) : turn a b b = 0 := by
  simp only [turn]
  ring

theorem turn_self_left (a b : 𝕜 × 𝕜) : turn a b a = 0 := by
  simp only [turn]
  ring

/-- Four points in the plane. -/
theorem turn_mul (d x a b c : 𝕜 × 𝕜) :
    (x.2 - d.2) * turn a b c =
      (b.2 - a.2) * (turn d x c - turn d x a) - (c.2 - a.2) * (turn d x b - turn d x a) := by
  simp only [turn]
  ring

variable [LinearOrder 𝕜]

theorem LeftTurning.of_isRotated {ps qs : List (𝕜 × 𝕜)} (h : LeftTurning ps)
    (hrot : ps.IsRotated qs) : LeftTurning qs := by
  obtain ⟨n, rfl⟩ := hrot
  intro a b c hsub
  rw [List.rotate_eq_drop_append_take_mod] at hsub
  obtain ⟨s, t, hst, hs, ht⟩ := List.sublist_append_iff.1 hsub
  have hback : (t ++ s).Sublist ps := by
    have happend := ht.append hs
    rwa [List.take_append_drop] at happend
  -- what is left of the three corners in the front part comes last in the rotated list
  rcases s with _ | ⟨x, _ | ⟨y, _ | ⟨z, s⟩⟩⟩
  · obtain rfl : [a, b, c] = t := hst
    exact h a b c (by simpa using hback)
  · simp only [List.cons_append, List.nil_append, List.cons.injEq] at hst
    obtain ⟨rfl, rfl⟩ := hst
    exact turn_rotate a b c ▸ h b c a hback
  · simp only [List.cons_append, List.nil_append, List.cons.injEq] at hst
    obtain ⟨rfl, rfl, rfl⟩ := hst
    exact turn_rotate c a b ▸ h c a b hback
  · simp only [List.cons_append, List.cons.injEq] at hst
    obtain ⟨rfl, rfl, rfl, hnil⟩ := hst
    obtain ⟨rfl, rfl⟩ := List.append_eq_nil_iff.1 hnil.symm
    exact h a b c hback

/-! ### Where the list starts and in which direction it goes -/

omit [Field 𝕜] in
theorem changes_swap (p : 𝕜 × 𝕜) (e : (𝕜 × 𝕜) × (𝕜 × 𝕜)) :
    Changes (Above p) e.swap ↔ Changes (Above p) e := not_congr Iff.comm

omit [Field 𝕜] in
theorem ne_of_changes {p : 𝕜 × 𝕜} {e : (𝕜 × 𝕜) × (𝕜 × 𝕜)} (h : Changes (Above p) e) :
    e.1.2 ≠ e.2.2 := fun heq => h (by rw [Above, Above, heq])

theorem crosses_swap (p : 𝕜 × 𝕜) (e : (𝕜 × 𝕜) × (𝕜 × 𝕜)) :
    Crosses p e.swap ↔ Crosses p e := by
  rw [Crosses, Crosses, changes_swap]
  refine and_congr_right fun h => ?_
  have hne := sub_ne_zero.2 (ne_of_changes h)
  have hne' := sub_ne_zero.2 (ne_of_changes h).symm
  have hmeet : meetX p e.swap = meetX p e := by
    simp only [meetX, Prod.fst_swap, Prod.snd_swap]
    field_simp
    ring
  rw [hmeet]

/-- **The list may start anywhere.** -/
theorem countP_crosses_of_isRotated (p : 𝕜 × 𝕜) {ps qs : List (𝕜 × 𝕜)} (h : ps.IsRotated qs) :
    (edges ps).countP (Crosses p ·) = (edges qs).countP (Crosses p ·) :=
  (perm_edges_of_isRotated h).countP_eq _

/-- **The list may be reversed.** -/
theorem countP_crosses_reverse (p : 𝕜 × 𝕜) (ps : List (𝕜 × 𝕜)) :
    (edges ps.reverse).countP (Crosses p ·) = (edges ps).countP (Crosses p ·) := by
  rw [(perm_edges_reverse ps).countP_eq, List.countP_map]
  refine List.countP_congr fun e _ => ?_
  simp only [Function.comp_apply, decide_eq_true_eq, crosses_swap]

/-! ### Edges and their meeting points -/

variable [IsStrictOrderedRing 𝕜] {p : 𝕜 × 𝕜} {e : (𝕜 × 𝕜) × (𝕜 × 𝕜)} {ps : List (𝕜 × 𝕜)}

omit [LinearOrder 𝕜] [IsStrictOrderedRing 𝕜] in
theorem meetX_sub (h : e.1.2 ≠ e.2.2) : meetX p e - p.1 = turn e.1 e.2 p / (e.2.2 - e.1.2) := by
  have hne := sub_ne_zero.2 h
  have hne' := sub_ne_zero.2 h.symm
  simp only [meetX, turn]
  field_simp
  ring

/-- An edge that goes up is crossed from the points to its left. -/
theorem crosses_up_iff (h₁ : ¬ Above p e.1) (h₂ : Above p e.2) :
    Crosses p e ↔ 0 < turn e.1 e.2 p := by
  have hlt : e.1.2 < e.2.2 := (not_lt.1 h₁).trans_lt h₂
  have hchanges : Changes (Above p) e := fun h => h₁ (h.2 h₂)
  rw [Crosses, and_iff_right hchanges, ← sub_pos, meetX_sub hlt.ne,
    div_pos_iff_of_pos_right (sub_pos.2 hlt)]

/-- An edge that goes down is crossed from the points to its right. -/
theorem crosses_down_iff (h₁ : Above p e.1) (h₂ : ¬ Above p e.2) :
    Crosses p e ↔ turn e.1 e.2 p < 0 := by
  have hlt : e.2.2 < e.1.2 := (not_lt.1 h₂).trans_lt h₁
  have hchanges : Changes (Above p) e := fun h => h₂ (h.1 h₁)
  have hneg : e.2.2 - e.1.2 < 0 := sub_neg.2 hlt
  rw [Crosses, and_iff_right hchanges, ← sub_pos, meetX_sub hlt.ne', div_pos_iff,
    or_iff_right fun h => h.2.asymm hneg, and_iff_left hneg]

/-- Where an edge that changes sides meets the level of a point, it has a point. -/
theorem meet_mem_segment (h : Changes (Above p) e) : (meetX p e, p.2) ∈ segment 𝕜 e.1 e.2 := by
  have hne := sub_ne_zero.2 (ne_of_changes h)
  have hne' := sub_ne_zero.2 (ne_of_changes h).symm
  have hbetween : 0 ≤ (p.2 - e.1.2) / (e.2.2 - e.1.2) ∧
      0 ≤ (e.2.2 - p.2) / (e.2.2 - e.1.2) := by
    by_cases h₁ : Above p e.1
    · have h₂ : ¬ Above p e.2 := fun h₂ => h (iff_of_true h₁ h₂)
      have hlt : e.2.2 < e.1.2 := (not_lt.1 h₂).trans_lt h₁
      exact ⟨div_nonneg_of_nonpos (sub_nonpos.2 h₁.le) (sub_nonpos.2 hlt.le),
        div_nonneg_of_nonpos (sub_nonpos.2 (not_lt.1 h₂)) (sub_nonpos.2 hlt.le)⟩
    · have h₂ : Above p e.2 := by_contra fun h₂ => h (iff_of_false h₁ h₂)
      have hlt : e.1.2 < e.2.2 := (not_lt.1 h₁).trans_lt h₂
      exact ⟨div_nonneg (sub_nonneg.2 (not_lt.1 h₁)) (sub_nonneg.2 hlt.le),
        div_nonneg (sub_nonneg.2 h₂.le) (sub_nonneg.2 hlt.le)⟩
  refine ⟨(e.2.2 - p.2) / (e.2.2 - e.1.2), (p.2 - e.1.2) / (e.2.2 - e.1.2), hbetween.2,
    hbetween.1, ?_, ?_⟩
  · field_simp
    ring
  · refine Prod.ext ?_ ?_
    · simp only [meetX, Prod.fst_add, Prod.smul_fst, smul_eq_mul]
      field_simp
      ring
    · simp only [Prod.snd_add, Prod.smul_snd, smul_eq_mul]
      field_simp
      ring

/-- A point in line with an edge that changes sides is on it. -/
theorem mem_segment_of_turn_eq_zero (h : Changes (Above p) e) (hturn : turn e.1 e.2 p = 0) :
    p ∈ segment 𝕜 e.1 e.2 := by
  have hmeet := meetX_sub (p := p) (ne_of_changes h)
  rw [hturn, zero_div, sub_eq_zero] at hmeet
  have hp : (meetX p e, p.2) = p := Prod.ext hmeet rfl
  exact hp ▸ meet_mem_segment h

/-- A point on an edge is in line with it. -/
theorem turn_eq_zero_of_mem_segment (h : p ∈ segment 𝕜 e.1 e.2) : turn e.1 e.2 p = 0 := by
  obtain ⟨s, t, -, -, hst, rfl⟩ := h
  obtain rfl : s = 1 - t := by linear_combination hst
  simp only [turn, Prod.fst_add, Prod.snd_add, Prod.smul_fst, Prod.smul_snd, smul_eq_mul]
  ring

/-- A point between the ends of a level edge is on it. -/
theorem mem_segment_of_level (h₁ : e.1.2 = p.2) (h₂ : e.2.2 = p.2) (hlt : p.1 < e.1.1)
    (hle : e.2.1 ≤ p.1) : p ∈ segment 𝕜 e.1 e.2 := by
  have hpos : 0 < e.1.1 - e.2.1 := sub_pos.2 (hle.trans_lt hlt)
  refine ⟨(p.1 - e.2.1) / (e.1.1 - e.2.1), (e.1.1 - p.1) / (e.1.1 - e.2.1),
    div_nonneg (sub_nonneg.2 hle) hpos.le, div_nonneg (sub_nonneg.2 hlt.le) hpos.le, ?_, ?_⟩
  · field_simp
    ring
  · refine Prod.ext ?_ ?_
    · simp only [Prod.fst_add, Prod.smul_fst, smul_eq_mul]
      field_simp
      ring
    · simp only [Prod.snd_add, Prod.smul_snd, smul_eq_mul, h₁, h₂]
      field_simp
      ring

/-! ### The region -/

omit [IsStrictOrderedRing 𝕜] in
theorem segment_subset_region (h : e ∈ edges ps) : segment 𝕜 e.1 e.2 ⊆ region ps := by
  obtain ⟨h₁, h₂⟩ := mem_of_mem_edges h
  exact (convex_convexHull 𝕜 _).segment_subset (subset_convexHull 𝕜 _ h₁)
    (subset_convexHull 𝕜 _ h₂)

/-- **A point from which an odd number of edges is crossed is in the region**: as the number of
edges that meet its level is even, some are met to the left of it, too. -/
theorem mem_region_of_odd (hodd : Odd ((edges ps).countP (Crosses p ·))) : p ∈ region ps := by
  have hsplit := List.countP_eq_countP_filter_add (edges ps) (Changes (Above p) ·) (Crosses p ·)
  have hcrosses : ((edges ps).filter (Crosses p ·)).countP (Changes (Above p) ·) =
      (edges ps).countP (Crosses p ·) := by
    rw [List.countP_filter]
    refine List.countP_congr fun e _ => ?_
    simp only [Bool.and_eq_true, decide_eq_true_eq]
    exact and_iff_right_of_imp And.left
  have heven := even_changes (Above p) ps
  rw [hsplit, hcrosses, Nat.even_add, iff_false_left (Nat.not_even_iff_odd.2 hodd),
    Nat.not_even_iff_odd] at heven
  obtain ⟨e, he, hright⟩ := List.countP_pos_iff.1 hodd.pos
  obtain ⟨e', he', hleft⟩ := List.countP_pos_iff.1 heven.pos
  rw [List.mem_filter] at he'
  simp only [decide_eq_true_eq, Bool.not_eq_true', decide_eq_false_iff_not] at hright hleft he'
  have hle : meetX p e' ≤ p.1 := not_lt.1 fun hlt => he'.2 ⟨hleft, hlt⟩
  -- the point is between two points of the region on its level
  refine (convex_convexHull 𝕜 _).segment_subset
    (segment_subset_region he (meet_mem_segment hright.1))
    (segment_subset_region he'.1 (meet_mem_segment hleft)) ?_
  exact mem_segment_of_level (e := ((meetX p e, p.2), (meetX p e', p.2))) rfl rfl hright.2 hle

/-- Points to the left of a line, with all corners. -/
theorem turn_nonneg_of_mem_region {a b : 𝕜 × 𝕜} (h : ∀ v ∈ ps, 0 ≤ turn a b v)
    (hp : p ∈ region ps) : 0 ≤ turn a b p := by
  refine convexHull_min (t := {q | 0 ≤ turn a b q}) h ?_ hp
  refine convex_iff_forall_pos.2 fun x hx y hy s t hs ht hst => ?_
  have hlinear : turn a b (s • x + t • y) = s * turn a b x + t * turn a b y := by
    obtain rfl : t = 1 - s := by linear_combination hst
    simp only [turn, Prod.fst_add, Prod.snd_add, Prod.smul_fst, Prod.smul_snd, smul_eq_mul]
    ring
  show 0 ≤ turn a b (s • x + t • y)
  rw [hlinear]
  exact add_nonneg (mul_nonneg hs.le hx) (mul_nonneg ht.le hy)

/-- Not all corners are above a point of the region. -/
theorem exists_not_above (hp : p ∈ region ps) : ∃ v ∈ ps, ¬ Above p v := by
  by_contra hno
  push Not at hno
  refine lt_irrefl p.2 (convexHull_min (t := {q : 𝕜 × 𝕜 | p.2 < q.2}) hno ?_ hp)
  refine convex_iff_forall_pos.2 fun x hx y hy s t hs ht hst => ?_
  simp only [Set.mem_ofPred_eq, Prod.snd_add, Prod.smul_snd, smul_eq_mul] at hx hy ⊢
  calc p.2 = s * p.2 + t * p.2 := by rw [← add_mul, hst, one_mul]
    _ < s * x.2 + t * y.2 :=
      add_lt_add (mul_lt_mul_of_pos_left hx hs) (mul_lt_mul_of_pos_left hy ht)

/-- If no corner is above a point of the region, there are corners on its level, on both sides. -/
theorem exists_level (hp : p ∈ region ps) (hbelow : ∀ v ∈ ps, v.2 ≤ p.2) (s : 𝕜) :
    ∃ v ∈ ps, v.2 = p.2 ∧ s * v.1 ≤ s * p.1 := by
  by_contra hno
  push Not at hno
  have hall : {v | v ∈ ps} ⊆ {q : 𝕜 × 𝕜 | q.2 < p.2 ∨ q.2 = p.2 ∧ s * p.1 < s * q.1} := by
    intro v hv
    rcases (hbelow v hv).lt_or_eq with hlt | heq
    · exact Or.inl hlt
    · exact Or.inr ⟨heq, hno v hv heq⟩
  refine (convexHull_min hall ?_ hp).elim (lt_irrefl _) fun h => lt_irrefl _ h.2
  refine convex_iff_forall_pos.2 fun x hx y hy a b ha hb hab => ?_
  simp only [Set.mem_ofPred_eq, Prod.snd_add, Prod.smul_snd, Prod.fst_add, Prod.smul_fst,
    smul_eq_mul] at hx hy ⊢
  have hle : ∀ z : 𝕜 × 𝕜, z.2 < p.2 ∨ z.2 = p.2 ∧ s * p.1 < s * z.1 → z.2 ≤ p.2 :=
    fun z hz => hz.elim le_of_lt fun h => h.1.le
  have hlevel : p.2 = a * p.2 + b * p.2 := by rw [← add_mul, hab, one_mul]
  rcases hx with hx | ⟨hx, hx'⟩
  · refine Or.inl ?_
    rw [hlevel]
    exact add_lt_add_of_lt_of_le (mul_lt_mul_of_pos_left hx ha)
      (mul_le_mul_of_nonneg_left (hle y hy) hb.le)
  · rcases hy with hy | ⟨hy, hy'⟩
    · refine Or.inl ?_
      rw [hlevel]
      exact add_lt_add_of_le_of_lt (mul_le_mul_of_nonneg_left hx.le ha.le)
        (mul_lt_mul_of_pos_left hy hb)
    · refine Or.inr ⟨by rw [hx, hy, ← hlevel], ?_⟩
      calc s * p.1 = a * (s * p.1) + b * (s * p.1) := by rw [← add_mul, hab, one_mul]
        _ < a * (s * x.1) + b * (s * y.1) :=
          add_lt_add (mul_lt_mul_of_pos_left hx' ha) (mul_lt_mul_of_pos_left hy' hb)
        _ = s * (a * x.1 + b * y.1) := by ring

/-! ### Convex polygons -/

omit [IsStrictOrderedRing 𝕜] in
theorem region_of_isRotated {qs : List (𝕜 × 𝕜)} (h : ps.IsRotated qs) : region ps = region qs :=
  congrArg (convexHull 𝕜) (Set.ext fun _ => h.perm.mem_iff)

omit [IsStrictOrderedRing 𝕜] in
theorem boundary_of_isRotated {qs : List (𝕜 × 𝕜)} (h : ps.IsRotated qs) :
    boundary ps = boundary qs := by
  refine Set.ext fun p => ?_
  simp only [boundary, Set.mem_ofPred_eq, (perm_edges_of_isRotated h).mem_iff]

variable {a b c d : 𝕜 × 𝕜} {l m : List (𝕜 × 𝕜)}

omit [IsStrictOrderedRing 𝕜] in
/-- All corners are to the left of the edge that closes the list. -/
theorem LeftTurning.closing (h : LeftTurning (d :: m ++ [c])) :
    ∀ v ∈ d :: m ++ [c], 0 ≤ turn c d v := by
  intro v hv
  rcases List.mem_append.1 hv with hv | hv
  · rcases List.mem_cons.1 hv with rfl | hv
    · exact (turn_self_right c v).ge
    · rw [← turn_rotate]
      refine h d v c ?_
      exact (List.singleton_sublist.2 hv).append (List.Sublist.refl [c]) |>.cons_cons d
  · rw [List.mem_singleton.1 hv]
    exact (turn_self_left c d).ge

/-- A point of the region that is not on the boundary is to the left of an edge that changes
sides. -/
theorem LeftTurning.turn_pos (h : LeftTurning (d :: m ++ [c]))
    (hp : p ∈ region (d :: m ++ [c])) (hb : p ∉ boundary (d :: m ++ [c]))
    (hchanges : Changes (Above p) (c, d)) : 0 < turn c d p := by
  refine (turn_nonneg_of_mem_region h.closing hp).lt_of_ne fun hzero => hb ?_
  refine ⟨(c, d), ?_, mem_segment_of_turn_eq_zero hchanges hzero.symm⟩
  rw [edges_append_singleton]
  exact List.mem_append_right _ (List.mem_singleton_self _)

/-- The same for an edge inside the list. -/
theorem LeftTurning.turn_pos_of_step (h : LeftTurning ps) (hp : p ∈ region ps)
    (hb : p ∉ boundary ps) {l₁ l₂ : List (𝕜 × 𝕜)} (hsplit : ps = l₁ ++ a :: b :: l₂)
    (hchanges : Changes (Above p) (a, b)) : 0 < turn a b p := by
  have hrot : (l₁ ++ [a] ++ b :: l₂).IsRotated (b :: l₂ ++ (l₁ ++ [a])) := List.isRotated_append
  rw [← List.append_cons, ← hsplit, ← List.append_assoc, List.cons_append] at hrot
  exact (h.of_isRotated hrot).turn_pos (region_of_isRotated hrot ▸ hp)
    (boundary_of_isRotated hrot ▸ hb) hchanges

/-- **Corners that are below, above, below and above a point are in line.** -/
theorem LeftTurning.alternating (h : LeftTurning ps) {w x y z : 𝕜 × 𝕜}
    (hsub : [w, x, y, z].Sublist ps) (hw : ¬ Above p w) (hx : Above p x) (hy : ¬ Above p y)
    (hz : Above p z) : turn w x y = 0 ∧ turn w x z = 0 := by
  have hwxy : 0 ≤ turn w x y := h w x y (List.Sublist.trans (by simp) hsub)
  have hwxz : 0 ≤ turn w x z := h w x z (List.Sublist.trans (by simp) hsub)
  have hwyz : 0 ≤ turn w y z := h w y z (List.Sublist.trans (by simp) hsub)
  have hxyz : 0 ≤ turn x y z := h x y z (List.Sublist.trans (by simp) hsub)
  rw [Above, not_lt] at hw hy
  -- the heights, weighed with the areas of the triangles that leave them out
  have hsum : turn w y z * (x.2 - p.2) + turn w x y * (z.2 - p.2) =
      turn x y z * (w.2 - p.2) + turn w x z * (y.2 - p.2) := by
    simp only [turn]
    ring
  have hneg : turn x y z * (w.2 - p.2) + turn w x z * (y.2 - p.2) ≤ 0 :=
    add_nonpos (mul_nonpos_of_nonneg_of_nonpos hxyz (sub_nonpos.2 hw))
      (mul_nonpos_of_nonneg_of_nonpos hwxz (sub_nonpos.2 hy))
  have h₁ : 0 ≤ turn w y z * (x.2 - p.2) := mul_nonneg hwyz (sub_nonneg.2 hx.le)
  have h₂ : 0 ≤ turn w x y * (z.2 - p.2) := mul_nonneg hwxy (sub_nonneg.2 hz.le)
  have hzero₁ : turn w y z = 0 :=
    (mul_eq_zero.1 (by linarith : turn w y z * (x.2 - p.2) = 0)).resolve_right (sub_pos.2 hx).ne'
  have hzero₂ : turn w x y = 0 :=
    (mul_eq_zero.1 (by linarith : turn w x y * (z.2 - p.2) = 0)).resolve_right (sub_pos.2 hz).ne'
  have harea : turn w x y + turn w y z = turn w x z + turn x y z := by
    simp only [turn]
    ring
  exact ⟨hzero₂, by linarith⟩

/-- Two edges that change sides in opposite directions are not in line, with a point to the left of
both. -/
theorem not_in_line (hab : a.2 < b.2) (hdc : d.2 < c.2) (hc : turn a b c = 0)
    (hd : turn a b d = 0) (hp : 0 < turn a b p) : ¬ 0 < turn c d p := by
  intro hpos
  have hmul := turn_mul a b c d p
  rw [hc, hd, sub_zero, sub_zero, mul_zero, sub_zero] at hmul
  have hleft : 0 < (b.2 - a.2) * turn c d p := mul_pos (sub_pos.2 hab) hpos
  have hright : (d.2 - c.2) * turn a b p < 0 := mul_neg_of_neg_of_pos (sub_neg.2 hdc) hp
  exact (hmul ▸ hleft).asymm hright

/-- What is above a point in a convex polygon comes after what is not, if the list starts there. -/
theorem LeftTurning.not_above_of_mem (h : LeftTurning (d :: m ++ [c]))
    (hp : p ∈ region (d :: m ++ [c])) (hb : p ∉ boundary (d :: m ++ [c])) (hd : ¬ Above p d)
    (hc : Above p c) {l₁ l₂ : List (𝕜 × 𝕜)} (hsplit : d :: m ++ [c] = l₁ ++ a :: b :: l₂)
    (ha : ¬ Above p a) (hab : Above p b) : ∀ x ∈ l₁, ¬ Above p x := by
  intro x hx hxp
  have hclosing : 0 < turn c d p := h.turn_pos hp hb fun hch => hd (hch.1 hc)
  have hup : 0 < turn a b p := h.turn_pos_of_step hp hb hsplit fun hch => ha (hch.2 hab)
  -- the list begins with `d` and ends with `c`
  obtain ⟨l₁, rfl⟩ : ∃ l, l₁ = d :: l := by
    cases l₁ with
    | nil => exact absurd hx List.not_mem_nil
    | cons y l => exact ⟨l, by rw [(List.cons.inj hsplit).1]⟩
  have hxl : x ∈ l₁ := (List.mem_cons.1 hx).resolve_left fun heq => hd (heq ▸ hxp)
  have hcl : c ∈ b :: l₂ := by
    have hlast := congrArg List.getLast? hsplit
    rw [List.getLast?_append, List.getLast?_singleton, List.getLast?_append,
      List.getLast?_cons_cons] at hlast
    refine List.mem_of_getLast? (l := b :: l₂) ?_
    simpa [List.getLast?_cons] using hlast.symm
  have hsub : ∀ z ∈ b :: l₂, [d, x, a, z].Sublist (d :: m ++ [c]) := by
    intro z hz
    rw [hsplit]
    refine List.Sublist.cons_cons d ?_
    exact (List.singleton_sublist.2 hxl).append
      ((List.singleton_sublist.2 hz).cons_cons a)
  obtain ⟨hxa, hxb⟩ := h.alternating (hsub b List.mem_cons_self) hd hxp ha hab
  obtain ⟨-, hxc⟩ := h.alternating (hsub c hcl) hd hxp ha hc
  rw [Above] at hxp hc hab
  rw [Above, not_lt] at hd ha
  have hne : x.2 - d.2 ≠ 0 := (sub_pos.2 (hd.trans_lt hxp)).ne'
  have habc := turn_mul d x a b c
  have habd := turn_mul d x a b d
  rw [hxa, hxb, hxc, sub_self, mul_zero, mul_zero, sub_zero] at habc
  rw [hxa, hxb, turn_self_left, sub_self, mul_zero, mul_zero, sub_zero] at habd
  exact not_in_line (ha.trans_lt hab) (hd.trans_lt hc) ((mul_eq_zero.1 habc).resolve_left hne)
    ((mul_eq_zero.1 habd).resolve_left hne) hup hclosing

/-- **A convex polygon with corners on both sides of the level of a point**: one edge is crossed. -/
theorem LeftTurning.countP_crosses (h : LeftTurning (d :: m ++ [c]))
    (hp : p ∈ region (d :: m ++ [c])) (hb : p ∉ boundary (d :: m ++ [c])) (hd : ¬ Above p d)
    (hc : Above p c) : (edges (d :: m ++ [c])).countP (Crosses p ·) = 1 := by
  obtain ⟨l₁, a, l₂, hsplit, ha, hrest⟩ :=
    exists_last (s := fun v => ¬ Above p v) (l := d :: m ++ [c]) ⟨d, List.mem_cons_self, hd⟩
  cases l₂ with
  | nil =>
      have hlast := List.append_inj_right' hsplit rfl
      exact absurd hc ((List.cons.inj hlast).1 ▸ ha)
  | cons b l₂ =>
      have habove : ∀ x ∈ b :: l₂, Above p x := fun x hx => not_not.1 (hrest x hx)
      have hab : Above p b := habove b List.mem_cons_self
      have hbelow := h.not_above_of_mem hp hb hd hc hsplit ha hab
      have hclosing : 0 < turn c d p := h.turn_pos hp hb fun hch => hd (hch.1 hc)
      have hup : 0 < turn a b p := h.turn_pos_of_step hp hb hsplit fun hch => ha (hch.2 hab)
      have hfirst : (steps (l₁ ++ [a])).countP (Crosses p ·) = 0 := by
        refine countP_steps_eq_zero (s := Above p) (c := False) (fun v hv => ?_) fun e he =>
          (of_decide_eq_true he).1
        rw [iff_false]
        rcases List.mem_append.1 hv with hv | hv
        · exact hbelow v hv
        · exact List.mem_singleton.1 hv ▸ ha
      have hsecond : (steps (b :: l₂)).countP (Crosses p ·) = 0 :=
        countP_steps_eq_zero (s := Above p) (c := True)
          (fun v hv => iff_true_intro (habove v hv)) fun e he => (of_decide_eq_true he).1
      have hcrossed : Crosses p (a, b) := (crosses_up_iff ha hab).2 hup
      have hnot : ¬ Crosses p (c, d) := fun hcross =>
        hclosing.asymm ((crosses_down_iff hc hd).1 hcross)
      rw [edges_append_singleton, hsplit, List.countP_append, steps_append_cons,
        List.countP_append, hfirst, steps_cons_cons, List.countP_cons, hsecond,
        List.countP_singleton, if_pos (decide_eq_true hcrossed),
        if_neg (by simpa using hnot)]

/-- The corners are on the boundary. -/
theorem mem_boundary_of_mem {v : 𝕜 × 𝕜} (hv : v ∈ ps) : v ∈ boundary ps := by
  obtain ⟨l₁, l₂, rfl⟩ := List.append_of_mem hv
  have hrot : (l₁ ++ v :: l₂).IsRotated (v :: (l₂ ++ l₁)) := List.isRotated_append
  rw [boundary_of_isRotated hrot]
  -- the edge that begins at the corner
  have hedge : ∀ l : List (𝕜 × 𝕜), ∃ w, (v, w) ∈ edges (v :: l) := fun l => by
    rw [edges_cons]
    cases l with
    | nil => exact ⟨v, List.mem_cons_self⟩
    | cons w l => exact ⟨w, List.mem_cons_self⟩
  obtain ⟨w, hw⟩ := hedge (l₂ ++ l₁)
  exact ⟨(v, w), hw, left_mem_segment 𝕜 v w⟩

/-- **A point of the region with no corner above it is on the boundary.** -/
theorem LeftTurning.mem_boundary_of_level (h : LeftTurning ps) (hp : p ∈ region ps)
    (hbelow : ∀ v ∈ ps, v.2 ≤ p.2) : p ∈ boundary ps := by
  obtain ⟨u, hu, hu₂, hu₁⟩ := exists_level hp hbelow 1
  obtain ⟨w, hw, hw₂, hw₁⟩ := exists_level hp hbelow (-1)
  rw [one_mul, one_mul] at hu₁
  rw [neg_one_mul, neg_one_mul, neg_le_neg_iff] at hw₁
  rcases hw₁.eq_or_lt with heq | hlt
  · have hpw : p = w := Prod.ext heq hw₂.symm
    exact mem_boundary_of_mem (hpw ▸ hw)
  · obtain ⟨l₀, l₃, rfl⟩ := List.append_of_mem hu
    have hrot : (l₀ ++ u :: l₃).IsRotated (u :: (l₃ ++ l₀)) := List.isRotated_append
    have hwu : w ≠ u := fun heq => (hlt.trans_le (heq ▸ hu₁)).false
    have hwl : w ∈ l₃ ++ l₀ := (List.mem_cons.1 (hrot.mem_iff.1 hw)).resolve_left hwu
    obtain ⟨l₁, l₂, hsplit⟩ := List.append_of_mem hwl
    rw [hsplit] at hrot
    rw [boundary_of_isRotated hrot]
    -- the corners between `w` and `u` are on the level of the point
    have hlevel : ∀ v ∈ w :: l₂ ++ [u], v.2 = p.2 := by
      intro v hv
      rcases List.mem_append.1 hv with hv | hv
      · rcases List.mem_cons.1 hv with rfl | hv
        · exact hw₂
        · have hsub : [u, w, v].Sublist (u :: (l₁ ++ w :: l₂)) := by
            refine List.Sublist.cons_cons u ?_
            exact ((List.singleton_sublist.2 hv).cons_cons w).trans
              (List.sublist_append_right l₁ (w :: l₂))
          have hturn := h.of_isRotated hrot u w v hsub
          rw [turn, hw₂, hu₂, sub_self, zero_mul, sub_zero] at hturn
          have hge : 0 ≤ v.2 - p.2 :=
            nonneg_of_mul_nonneg_right hturn (sub_pos.2 (hu₁.trans_lt hlt))
          exact le_antisymm (hbelow v (hrot.mem_iff.2 (by simp [hv]))) (sub_nonneg.1 hge)
      · rw [List.mem_singleton.1 hv, hu₂]
    obtain ⟨e, he, hright, hleft⟩ :=
      exists_step (s := fun v : 𝕜 × 𝕜 => p.1 < v.1) (l := l₂) hlt (not_lt.2 hu₁)
    obtain ⟨h₁, h₂⟩ := mem_of_mem_steps he
    refine ⟨e, ?_, mem_segment_of_level (hlevel _ h₁) (hlevel _ h₂) hright (not_lt.1 hleft)⟩
    have hwalk : u :: (l₁ ++ w :: l₂) ++ [u] = u :: l₁ ++ w :: (l₂ ++ [u]) := by simp
    rw [edges_cons, hwalk, steps_append_cons]
    exact List.mem_append_right _ he

/-- From a point of the region that is not on the boundary an odd number of edges is crossed. -/
theorem LeftTurning.odd_crosses (h : LeftTurning ps) (hp : p ∈ region ps) (hb : p ∉ boundary ps) :
    Odd ((edges ps).countP (Crosses p ·)) := by
  by_cases habove : ∃ v ∈ ps, Above p v
  · obtain ⟨d, m, c, hrot, hd, hc⟩ := exists_isRotated habove (exists_not_above hp)
    rw [countP_crosses_of_isRotated p hrot, (h.of_isRotated hrot).countP_crosses
      (region_of_isRotated hrot ▸ hp) (boundary_of_isRotated hrot ▸ hb) hd hc]
    exact odd_one
  · refine absurd (h.mem_boundary_of_level hp fun v hv => ?_) hb
    exact not_lt.1 fun hlt => habove ⟨v, hv, hlt⟩

omit [IsStrictOrderedRing 𝕜] in
theorem boundary_reverse (ps : List (𝕜 × 𝕜)) :
    boundary ps.reverse = boundary ps := by
  refine Set.ext fun p => ?_
  simp only [boundary, Set.mem_ofPred_eq, (perm_edges_reverse ps).mem_iff, List.mem_map]
  constructor
  · rintro ⟨_, ⟨e, he, rfl⟩, hp⟩
    exact ⟨e, he, segment_symm 𝕜 e.1 e.2 ▸ hp⟩
  · rintro ⟨e, he, hp⟩
    exact ⟨_, ⟨e, he, rfl⟩, segment_symm 𝕜 e.1 e.2 ▸ hp⟩

omit [IsStrictOrderedRing 𝕜] in
theorem region_reverse (ps : List (𝕜 × 𝕜)) : region ps.reverse = region ps :=
  congrArg (convexHull 𝕜) (Set.ext fun _ => List.mem_reverse)

/-- **From a point that is not on the boundary of a convex polygon an odd number of edges is crossed
exactly if it is in the region.** -/
theorem odd_crosses_iff (h : IsConvexPolygon ps) (hb : p ∉ boundary ps) :
    Odd ((edges ps).countP (Crosses p ·)) ↔ p ∈ region ps := by
  refine ⟨mem_region_of_odd, fun hp => ?_⟩
  rcases h with h | h
  · exact h.odd_crosses hp hb
  · rw [← countP_crosses_reverse]
    exact h.odd_crosses (region_reverse ps ▸ hp) (boundary_reverse ps ▸ hb)

end Plane
