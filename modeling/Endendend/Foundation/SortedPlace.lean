/-
**The place of an element after a stable sort.**

A stable sort leaves elements that the order takes for equal in the order they came in.  So the
number of elements that end up before a given one can be read off the unsorted list: of those that
stood before it the ones that may stay there, and of those that stood behind it the ones that must
move ahead.

Main results:

* `SortedPlace.takeWhile_eq_filter` — a property that is lost for good along a list;
* `SortedPlace.insertionSort_split` — **what stands before an element of a sorted list**;
* `SortedPlace.exists_unsorted_split` — and where in the unsorted list an element came from.
-/
import Mathlib.Data.List.Sort
import Mathlib.Data.List.TakeWhile

set_option relaxedAutoImplicit false
set_option autoImplicit false

namespace SortedPlace

variable {α : Type*} {r : α → α → Prop} [DecidableRel r]

/-- If no element behind one without the property has it, the elements with the property are the
first ones. -/
theorem takeWhile_eq_filter {p : α → Bool} {l : List α}
    (h : l.Pairwise fun x y => p y → p x) : l.takeWhile p = l.filter p := by
  induction l with
  | nil => rfl
  | cons a l ih =>
      obtain ⟨ha, hl⟩ := List.pairwise_cons.1 h
      cases hp : p a with
      | true => rw [List.takeWhile_cons_of_pos hp, List.filter_cons_of_pos hp, ih hl]
      | false =>
          rw [List.takeWhile_cons_of_neg (by simp [hp]), List.filter_cons_of_neg (by simp [hp])]
          refine (List.filter_eq_nil_iff.2 fun y hy hpy => ?_).symm
          exact absurd (ha y hy hpy) (by simp [hp])

/-- An element that may stand before `a` is inserted before it. -/
theorem orderedInsert_append_of_rel {a c : α} (h : r c a) (before after : List α) :
    (before ++ a :: after).orderedInsert r c = before.orderedInsert r c ++ a :: after := by
  induction before with
  | nil => rw [List.nil_append, List.orderedInsert_cons_of_le r after h]; rfl
  | cons b before ih =>
      rw [List.cons_append]
      by_cases hcb : r c b
      · rw [List.orderedInsert_cons_of_le r _ hcb, List.orderedInsert_cons_of_le r _ hcb]
        rfl
      · rw [List.orderedInsert_of_not_le r _ hcb, List.orderedInsert_of_not_le r _ hcb, ih]
        rfl

/-- An element that may stand before none of them is inserted behind them. -/
theorem orderedInsert_append_of_not_rel {c : α} {before : List α} (h : ∀ b ∈ before, ¬ r c b)
    (after : List α) : (before ++ after).orderedInsert r c = before ++ after.orderedInsert r c := by
  induction before with
  | nil => rfl
  | cons b before ih =>
      rw [List.cons_append, List.orderedInsert_of_not_le r _ (h b List.mem_cons_self),
        ih fun x hx => h x (List.mem_cons_of_mem _ hx)]
      rfl

variable (r) in
/-- What stands before an element in the sorted list, if it is taken from between `pre` and `post`:
of the elements that stood before it those that may, and of those behind it those that must. -/
def ahead (pre : List α) (a : α) (post : List α) : List α :=
  (pre.filter fun c => r c a) ++ post.filter fun c => ¬ r a c

theorem ahead_cons_of_rel {a c : α} (h : r c a) (pre post : List α) :
    ahead r (c :: pre) a post = c :: ahead r pre a post := by
  unfold ahead
  rw [List.filter_cons_of_pos (by simp [h]), List.cons_append]

theorem ahead_cons_of_not_rel {a c : α} (h : ¬ r c a) (pre post : List α) :
    ahead r (c :: pre) a post = ahead r pre a post := by
  unfold ahead
  rw [List.filter_cons_of_neg (by simp [h])]

variable [Std.Total r] [IsTrans α r]

/-- The first element of the unsorted list is put behind those that must be ahead of it. -/
theorem takeWhile_perm_ahead (a : α) (post : List α) :
    ((post.insertionSort r).takeWhile fun c => ¬ r a c).Perm (ahead r [] a post) := by
  rw [takeWhile_eq_filter, ahead, List.filter_nil, List.nil_append]
  · exact (List.perm_insertionSort r post).filter _
  · refine (List.pairwise_insertionSort r post).imp fun {x y} hxy hy => ?_
    simp only [decide_not, Bool.not_eq_true', decide_eq_false_iff_not] at hy ⊢
    exact fun hax => hy (IsTrans.trans a x y hax hxy)

variable (r) in
/-- **What stands before an element of a sorted list**: of the elements that stood before it those
that may, and of the elements that stood behind it those that must. -/
theorem insertionSort_split (pre post : List α) (a : α) :
    ∃ before after, (pre ++ a :: post).insertionSort r = before ++ a :: after ∧
      before.Perm (ahead r pre a post) := by
  induction pre with
  | nil =>
      refine ⟨_, (post.insertionSort r).dropWhile fun c => ¬ r a c, ?_, takeWhile_perm_ahead a post⟩
      rw [List.nil_append, List.insertionSort_cons, List.orderedInsert_eq_take_drop]
  | cons c pre ih =>
      obtain ⟨before, after, hsort, hperm⟩ := ih
      rw [List.cons_append, List.insertionSort_cons, hsort]
      by_cases hca : r c a
      · refine ⟨before.orderedInsert r c, after, orderedInsert_append_of_rel hca before after, ?_⟩
        rw [ahead_cons_of_rel hca]
        exact (List.perm_orderedInsert r c before).trans (hperm.cons c)
      · have hsorted : (before ++ a :: after).Pairwise r :=
          hsort ▸ List.pairwise_insertionSort r (pre ++ a :: post)
        have hbefore : ∀ b ∈ before, ¬ r c b := by
          intro b hb hcb
          have hba := (List.pairwise_append.1 hsorted).2.2 b hb a List.mem_cons_self
          exact hca (IsTrans.trans c b a hcb hba)
        refine ⟨before, after.orderedInsert r c, ?_, ?_⟩
        · rw [orderedInsert_append_of_not_rel hbefore, List.orderedInsert_of_not_le r _ hca]
        · rwa [ahead_cons_of_not_rel hca]

/-- **Where an element of the sorted list came from.** -/
theorem exists_unsorted_split {l before after : List α} {a : α}
    (h : l.insertionSort r = before ++ a :: after) :
    ∃ pre post, l = pre ++ a :: post ∧ before.Perm (ahead r pre a post) := by
  induction l generalizing before after with
  | nil => simp at h
  | cons c l ih =>
      have hsorted := List.pairwise_insertionSort r (c :: l)
      rw [h] at hsorted
      rw [List.insertionSort_cons, List.orderedInsert_eq_take_drop] at h
      have hperm := takeWhile_perm_ahead (r := r) c l
      have hsplit :=
        List.takeWhile_append_dropWhile (p := fun b => ¬ r c b) (l := l.insertionSort r)
      have hsmall : ∀ b ∈ (l.insertionSort r).takeWhile fun b => ¬ r c b, ¬ r c b := by
        intro b hb
        simpa using List.mem_takeWhile_imp hb
      generalize (l.insertionSort r).takeWhile (fun b => ¬ r c b) = small at h hperm hsplit hsmall
      generalize (l.insertionSort r).dropWhile (fun b => ¬ r c b) = large at h hsplit
      -- `a` is `c` itself, or stands behind it, or before it
      rcases List.append_eq_append_iff.1 h with ⟨mid, rfl, hmid⟩ | ⟨mid, rfl, hmid⟩
      · cases mid with
        | nil =>
            obtain ⟨rfl, -⟩ := List.cons.inj hmid
            exact ⟨[], l, rfl, by simpa using hperm⟩
        | cons d mid =>
            obtain ⟨rfl, rfl⟩ := List.cons.inj hmid
            have hl : l.insertionSort r = (small ++ mid) ++ a :: after := by
              rw [← hsplit, List.append_assoc]
              rfl
            obtain ⟨pre, post, rfl, hpre⟩ := ih hl
            have hca : r c a := (List.pairwise_append.1 hsorted).2.2 c (by simp) a (by simp)
            refine ⟨c :: pre, post, rfl, ?_⟩
            rw [ahead_cons_of_rel hca]
            exact List.perm_middle.trans (hpre.cons c)
      · cases mid with
        | nil =>
            obtain ⟨rfl, -⟩ := List.cons.inj hmid
            exact ⟨[], l, rfl, by simpa using hperm⟩
        | cons d mid =>
            obtain ⟨rfl, rfl⟩ := List.cons.inj hmid
            have hl : l.insertionSort r = before ++ a :: (mid ++ large) := by
              rw [← hsplit, List.append_assoc]
              rfl
            obtain ⟨pre, post, rfl, hpre⟩ := ih hl
            refine ⟨c :: pre, post, rfl, ?_⟩
            rwa [ahead_cons_of_not_rel (hsmall a (by simp))]

variable (r) in
/-- The number of elements before an element of a sorted list. -/
theorem exists_split_length (pre post : List α) (a : α) :
    ∃ before after, (pre ++ a :: post).insertionSort r = before ++ a :: after ∧
      before.length = (pre.countP fun c => r c a) + post.countP fun c => ¬ r a c := by
  obtain ⟨before, after, hsort, hperm⟩ := insertionSort_split r pre post a
  refine ⟨before, after, hsort, ?_⟩
  rw [hperm.length_eq, ahead, List.length_append, List.countP_eq_length_filter,
    List.countP_eq_length_filter]

/-- A relation between the elements of a list and those that stand before them. -/
theorem pairwise_iff_forall_split {R : α → α → Prop} {l : List α} :
    l.Pairwise R ↔ ∀ pre b post, l = pre ++ b :: post → ∀ c ∈ pre, R c b := by
  induction l with
  | nil => simp
  | cons a l ih =>
      rw [List.pairwise_cons, ih]
      constructor
      · rintro ⟨ha, hl⟩ pre b post hsplit c hc
        cases pre with
        | nil => exact absurd hc List.not_mem_nil
        | cons d pre =>
            obtain ⟨rfl, rfl⟩ := List.cons.inj hsplit
            rcases List.mem_cons.1 hc with rfl | hc
            · exact ha b (by simp)
            · exact hl pre b post rfl c hc
      · intro h
        refine ⟨fun b hb => ?_, fun pre b post hsplit c hc => ?_⟩
        · obtain ⟨pre, post, rfl⟩ := List.append_of_mem hb
          exact h (a :: pre) b post rfl a List.mem_cons_self
        · exact h (a :: pre) b post (by rw [hsplit]; rfl) c (List.mem_cons_of_mem a hc)

end SortedPlace
