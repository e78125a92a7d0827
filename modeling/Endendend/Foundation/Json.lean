/-
**JSON values, the text `JSON.stringify` prints for them, and the order of object keys.**

A value is a tree.  An object is the list of its fields in the order the language enumerates them,
so two objects that differ in the order of their keys only are different trees and the same value;
`Js.Json.Same` is that second notion.

Main definitions:

* `Js.Json`, `Js.Json.stringify` — values and their text;
* `Js.Json.Same` — equal up to the order of object keys, at every depth;
* `Js.Json.sortKeys` — the value with the keys of every object in increasing order.

Main results:

* `Js.Json.stringify_append_inj`, `Js.Json.stringify_injective` — **the text determines the
  value**, also when more text follows;
* `Js.Json.same_of_sortKeys_eq` — values that agree once their keys are sorted are the same up to
  the order of their keys.
-/
import Endendend.Foundation.Decimal
import Mathlib.Data.List.Sort
import Mathlib.Data.List.Perm.Basic
import Mathlib.Data.List.Forall2

set_option relaxedAutoImplicit false
set_option autoImplicit false

namespace Js

/-- A JSON value. -/
inductive Json
  | null
  | bool (b : Bool)
  | num (x : Decimal)
  | str (s : Str)
  | arr (items : List Json)
  | obj (fields : List (Str × Json))

/-- The texts with commas between them. -/
def commaJoin : List Str → Str
  | [] => []
  | [t] => t
  | t :: u :: ts => t ++ unit ',' :: commaJoin (u :: ts)

namespace Json

/-- Induction over values, with the hypothesis for every item and every field. -/
theorem induct {P : Json → Prop} (null : P null) (bool : ∀ b, P (bool b)) (num : ∀ x, P (num x))
    (str : ∀ s, P (str s)) (arr : ∀ xs, (∀ x ∈ xs, P x) → P (arr xs))
    (obj : ∀ fs, (∀ p ∈ fs, P p.2) → P (obj fs)) : ∀ v, P v :=
  @Json.rec P (fun xs => ∀ x ∈ xs, P x) (fun fs => ∀ p ∈ fs, P p.2) (fun p => P p.2)
    null bool num str arr obj
    (fun _ h => absurd h List.not_mem_nil)
    (fun _ _ hx hxs y hy => (List.mem_cons.1 hy).elim (fun h => h ▸ hx) (hxs y))
    (fun _ h => absurd h List.not_mem_nil)
    (fun _ _ hp hfs q hq => (List.mem_cons.1 hq).elim (fun h => h ▸ hp) (hfs q))
    (fun _ _ h => h)

/-! ### Printing -/

mutual

/-- What `JSON.stringify` prints for a value. -/
def stringify : Json → Str
  | null => lit "null"
  | bool true => lit "true"
  | bool false => lit "false"
  | num x => x.toStr
  | str s => quote s
  | arr xs => unit '[' :: (commaJoin (itemTexts xs) ++ [unit ']'])
  | obj fs => unit '{' :: (commaJoin (fieldTexts fs) ++ [unit '}'])

/-- The texts of the items of an array. -/
def itemTexts : List Json → List Str
  | [] => []
  | x :: xs => stringify x :: itemTexts xs

/-- The texts of the fields of an object. -/
def fieldTexts : List (Str × Json) → List Str
  | [] => []
  | (k, v) :: fs => (quote k ++ unit ':' :: stringify v) :: fieldTexts fs

end

/-- The text of one field. -/
def fieldText (p : Str × Json) : Str := quote p.1 ++ unit ':' :: stringify p.2

theorem itemTexts_eq_map (xs : List Json) : itemTexts xs = xs.map stringify := by
  induction xs with
  | nil => rfl
  | cons x xs ih => rw [itemTexts, ih, List.map_cons]

theorem fieldTexts_eq_map (fs : List (Str × Json)) : fieldTexts fs = fs.map fieldText := by
  induction fs with
  | nil => rfl
  | cons p fs ih => rw [fieldTexts, ih, List.map_cons, fieldText]

/-! ### The text determines the value -/

/-- Nothing follows, or a comma or a closing bracket. -/
def Ends (r : Str) : Prop := ∀ u ∈ r.head?, u = unit ',' ∨ u = unit ']' ∨ u = unit '}'

theorem Ends.stop {r : Str} (h : Ends r) : Decimal.Stop r := by
  intro u hu
  rcases h u hu with rfl | rfl | rfl <;> decide

/-- A list printed with commas and a closing bracket can be read back, if its items can. -/
theorem commaJoin_append_inj {α : Type*} {f : α → Str} {c : CodeUnit} (hc : c ≠ unit ',')
    {xs ys : List α} {r r' : Str}
    (hf : ∀ x ∈ xs, ∀ (y : α) (s s' : Str), (∃ t, s = unit ',' :: t ∨ s = c :: t) →
      (∃ t, s' = unit ',' :: t ∨ s' = c :: t) → f x ++ s = f y ++ s' → x = y ∧ s = s')
    (hne : ∀ x s s', f x ++ s ≠ c :: s')
    (h : commaJoin (xs.map f) ++ c :: r = commaJoin (ys.map f) ++ c :: r') :
    xs = ys ∧ r = r' := by
  have hjoin : ∀ (x : α) (l : List α) (r : Str), ∃ s, (∃ t, s = unit ',' :: t ∨ s = c :: t) ∧
      commaJoin ((x :: l).map f) ++ c :: r = f x ++ s ∧
        (l = [] → s = c :: r) ∧ (l ≠ [] → s = unit ',' :: (commaJoin (l.map f) ++ c :: r)) := by
    intro x l r
    cases l with
    | nil => exact ⟨c :: r, ⟨r, Or.inr rfl⟩, rfl, fun _ => rfl, fun h => absurd rfl h⟩
    | cons y l =>
        refine ⟨_, ⟨_, Or.inl rfl⟩, ?_, fun h => absurd h (List.cons_ne_nil _ _), fun _ => rfl⟩
        simp [commaJoin]
  induction xs generalizing ys with
  | nil =>
      cases ys with
      | nil => exact ⟨rfl, (List.cons.inj h).2⟩
      | cons y ys =>
          obtain ⟨s, -, hs, -⟩ := hjoin y ys r'
          exact absurd (h.trans hs).symm (hne y s r)
  | cons x xs ih =>
      obtain ⟨s, hsd, hs, hs₀, hs₁⟩ := hjoin x xs r
      cases ys with
      | nil => exact absurd (hs.symm.trans h) (hne x s r')
      | cons y ys =>
          obtain ⟨s', hsd', hs', hs₀', hs₁'⟩ := hjoin y ys r'
          obtain ⟨rfl, hss⟩ := hf x List.mem_cons_self y s s' hsd hsd' (hs ▸ hs' ▸ h)
          by_cases hx : xs = [] <;> by_cases hy : ys = []
          · rw [hs₀ hx, hs₀' hy] at hss
            exact ⟨by rw [hx, hy], (List.cons.inj hss).2⟩
          · rw [hs₀ hx, hs₁' hy] at hss
            exact absurd (List.cons.inj hss).1 hc
          · rw [hs₁ hx, hs₀' hy] at hss
            exact absurd (List.cons.inj hss).1.symm hc
          · rw [hs₁ hx, hs₁' hy] at hss
            obtain ⟨rfl, hr⟩ := ih (fun z hz => hf z (List.mem_cons_of_mem _ hz))
              (List.cons.inj hss).2
            exact ⟨rfl, hr⟩

/-- The kinds of values that start differently. -/
def kind : Json → ℕ
  | null => 0
  | bool true => 1
  | bool false => 2
  | str _ => 3
  | arr _ => 4
  | obj _ => 5
  | num _ => 6

/-- The kind a first character announces. -/
def kindOf (u : CodeUnit) : ℕ :=
  if u = unit 'n' then 0 else if u = unit 't' then 1 else if u = unit 'f' then 2
  else if u = unit '"' then 3 else if u = unit '[' then 4 else if u = unit '{' then 5
  else if Decimal.isDigit u ∨ u = unit '-' then 6 else 7

theorem kindOf_digit {u : CodeUnit} (h : Decimal.isDigit u = true) : kindOf u = 6 := by
  unfold kindOf
  split_ifs <;> simp_all <;> revert h <;> decide

theorem stringify_head (v : Json) : ∃ u s, stringify v = u :: s ∧ kindOf u = kind v := by
  cases v with
  | null => exact ⟨_, _, rfl, by decide⟩
  | bool b => cases b <;> exact ⟨_, _, rfl, by decide⟩
  | num x =>
      rw [stringify, Decimal.toStr]
      split
      · exact ⟨_, _, rfl, show kindOf (unit '-') = 6 by decide⟩
      · obtain ⟨u, s, hs, hu⟩ := x.absLayout_text_head
        exact ⟨u, s, hs, kindOf_digit hu⟩
  | str s => exact ⟨_, _, rfl, show kindOf (unit '"') = 3 by decide⟩
  | arr xs => exact ⟨_, _, rfl, show kindOf (unit '[') = 4 by decide⟩
  | obj fs => exact ⟨_, _, rfl, show kindOf (unit '{') = 5 by decide⟩

/-- No value starts with a closing bracket. -/
theorem stringify_append_ne (v : Json) (s s' : Str) : stringify v ++ s ≠ unit ']' :: s' := by
  intro h
  obtain ⟨u, t, ht, hu⟩ := stringify_head v
  rw [ht, List.cons_append] at h
  rw [(List.cons.inj h).1, show kindOf (unit ']') = 7 by decide] at hu
  cases v with
  | bool b => cases b <;> exact absurd hu (by simp [kind])
  | _ => exact absurd hu (by simp [kind])

theorem kind_eq_of_append {v w : Json} {r r' : Str} (h : stringify v ++ r = stringify w ++ r') :
    kind v = kind w := by
  obtain ⟨u, s, hs, hu⟩ := stringify_head v
  obtain ⟨u', s', hs', hu'⟩ := stringify_head w
  rw [hs, hs', List.cons_append, List.cons_append] at h
  rw [← hu, ← hu', (List.cons.inj h).1]

/-- **The text of a value ends where it ends**: from a text that starts with a value, and goes on
with a comma or a closing bracket, both the value and the rest can be read off. -/
theorem stringify_append_inj (v : Json) : ∀ (w : Json) {r r' : Str}, Ends r → Ends r' →
    stringify v ++ r = stringify w ++ r' → v = w ∧ r = r' := by
  have hends : ∀ (s : Str), (∃ t, s = unit ',' :: t ∨ s = unit ']' :: t) → Ends s := by
    rintro s ⟨t, rfl | rfl⟩ u hu
    · exact Or.inl (Option.some_inj.1 hu).symm
    · exact Or.inr (Or.inl (Option.some_inj.1 hu).symm)
  have hends' : ∀ (s : Str), (∃ t, s = unit ',' :: t ∨ s = unit '}' :: t) → Ends s := by
    rintro s ⟨t, rfl | rfl⟩ u hu
    · exact Or.inl (Option.some_inj.1 hu).symm
    · exact Or.inr (Or.inr (Option.some_inj.1 hu).symm)
  induction v using induct with
  | null =>
      intro w r r' hr hr' h
      have hk := kind_eq_of_append h
      cases w with
      | null => exact ⟨rfl, List.append_cancel_left h⟩
      | bool b => cases b <;> exact absurd hk (by simp [kind])
      | _ => exact absurd hk (by simp [kind])
  | bool b =>
      intro w r r' hr hr' h
      have hk := kind_eq_of_append h
      cases w with
      | bool c =>
          obtain rfl : b = c := by cases b <;> cases c <;> first | rfl | exact absurd hk (by decide)
          exact ⟨rfl, List.append_cancel_left h⟩
      | _ => cases b <;> exact absurd hk (by simp [kind])
  | num x =>
      intro w r r' hr hr' h
      have hk := kind_eq_of_append h
      cases w with
      | num y =>
          obtain ⟨rfl, hrr⟩ := Decimal.toStr_append_inj hr.stop hr'.stop h
          exact ⟨rfl, hrr⟩
      | bool b => cases b <;> exact absurd hk (by simp [kind])
      | _ => exact absurd hk (by simp [kind])
  | str s =>
      intro w r r' hr hr' h
      have hk := kind_eq_of_append h
      cases w with
      | str t =>
          obtain ⟨rfl, hrr⟩ := quote_append_inj h
          exact ⟨rfl, hrr⟩
      | bool b => cases b <;> exact absurd hk (by simp [kind])
      | _ => exact absurd hk (by simp [kind])
  | arr xs ih =>
      intro w r r' hr hr' h
      have hk := kind_eq_of_append h
      cases w with
      | arr ys =>
          simp only [stringify, itemTexts_eq_map, List.cons_append, List.append_assoc,
            List.nil_append, List.cons.injEq, true_and] at h
          obtain ⟨rfl, hrr⟩ := commaJoin_append_inj (by decide)
            (fun x hx y s s' hs hs' hxy => ih x hx y (hends s hs) (hends s' hs') hxy)
            stringify_append_ne h
          exact ⟨rfl, hrr⟩
      | bool b => cases b <;> exact absurd hk (by simp [kind])
      | _ => exact absurd hk (by simp [kind])
  | obj fs ih =>
      intro w r r' hr hr' h
      have hk := kind_eq_of_append h
      cases w with
      | obj gs =>
          simp only [stringify, fieldTexts_eq_map, List.cons_append, List.append_assoc,
            List.nil_append, List.cons.injEq, true_and] at h
          have hfield : ∀ p ∈ fs, ∀ (q : Str × Json) (s s' : Str),
              (∃ t, s = unit ',' :: t ∨ s = unit '}' :: t) →
              (∃ t, s' = unit ',' :: t ∨ s' = unit '}' :: t) →
              fieldText p ++ s = fieldText q ++ s' → p = q ∧ s = s' := by
            intro p hp q s s' hs hs' hpq
            simp only [fieldText, List.append_assoc, List.cons_append] at hpq
            obtain ⟨hkey, hrest⟩ := quote_append_inj hpq
            obtain ⟨hval, hss⟩ := ih p hp q.2 (hends' s hs) (hends' s' hs') (List.cons.inj hrest).2
            exact ⟨Prod.ext hkey hval, hss⟩
          obtain ⟨rfl, hrr⟩ := commaJoin_append_inj (by decide) hfield
            (fun p s s' hp => absurd (List.cons.inj hp).1 (by decide)) h
          exact ⟨rfl, hrr⟩
      | bool b => cases b <;> exact absurd hk (by simp [kind])
      | _ => exact absurd hk (by simp [kind])

/-- **The text determines the value.** -/
theorem stringify_injective : Function.Injective stringify := by
  intro v w h
  have hnil : Ends [] := by simp [Ends]
  exact (stringify_append_inj v w hnil hnil (congrArg (· ++ []) h)).1

/-! ### Equality up to the order of keys -/

/-- Equal up to the order in which objects list their fields, at every depth. -/
inductive Same : Json → Json → Prop
  | null : Same null null
  | bool (b : Bool) : Same (bool b) (bool b)
  | num (x : Decimal) : Same (num x) (num x)
  | str (s : Str) : Same (str s) (str s)
  | arr {xs ys : List Json} (h : List.Forall₂ Same xs ys) : Same (arr xs) (arr ys)
  | obj {fs hs gs : List (Str × Json)} (hp : fs.Perm hs)
      (hk : hs.map Prod.fst = gs.map Prod.fst)
      (hv : List.Forall₂ (fun p q => Same p.2 q.2) hs gs) : Same (obj fs) (obj gs)

/-- The order of fields by their keys. -/
def KeyLe {α : Type*} (p q : Str × α) : Prop := p.1 ≤ q.1

instance {α : Type*} : DecidableRel (KeyLe (α := α)) :=
  fun p q => inferInstanceAs (Decidable (p.1 ≤ q.1))

mutual

/-- The value with the keys of every object in increasing order. -/
def sortKeys : Json → Json
  | null => null
  | bool b => bool b
  | num x => num x
  | str s => str s
  | arr xs => arr (sortItems xs)
  | obj fs => obj ((sortFields fs).insertionSort KeyLe)

def sortItems : List Json → List Json
  | [] => []
  | x :: xs => sortKeys x :: sortItems xs

/-- The fields in the order they stand, with sorted values. -/
def sortFields : List (Str × Json) → List (Str × Json)
  | [] => []
  | (k, v) :: fs => (k, sortKeys v) :: sortFields fs

end

theorem sortItems_eq_map (xs : List Json) : sortItems xs = xs.map sortKeys := by
  induction xs with
  | nil => rfl
  | cons x xs ih => rw [sortItems, ih, List.map_cons]

theorem sortFields_eq_map (fs : List (Str × Json)) :
    sortFields fs = fs.map fun p => (p.1, sortKeys p.2) := by
  induction fs with
  | nil => rfl
  | cons p fs ih => rw [sortFields, ih, List.map_cons]

/-- Two lists whose images are permutations of each other are themselves, up to a permutation of
the first, related item by item by having the same image. -/
theorem perm_of_map_perm {α β : Type*} {f : α → β} {xs ys : List α}
    (h : (xs.map f).Perm (ys.map f)) :
    ∃ zs, xs.Perm zs ∧ List.Forall₂ (fun x y => f x = f y) zs ys := by
  have hr : Relation.Comp (List.Forall₂ fun x y => f x = y) List.Perm xs (ys.map f) :=
    ⟨xs.map f, List.forall₂_map_right_iff.2 (List.forall₂_same.2 fun _ _ => rfl), h⟩
  rw [List.forall₂_comp_perm_eq_perm_comp_forall₂] at hr
  obtain ⟨zs, hp, hz⟩ := hr
  exact ⟨zs, hp, List.forall₂_map_right_iff.1 hz⟩

/-- **Values that agree once their keys are sorted are the same up to the order of their keys.** -/
theorem same_of_sortKeys_eq (v : Json) : ∀ w, sortKeys v = sortKeys w → Same v w := by
  induction v using induct with
  | null => intro w h; cases w <;> simp only [sortKeys, reduceCtorEq] at h; exact .null
  | bool b =>
      intro w h
      cases w <;> simp only [sortKeys, reduceCtorEq, bool.injEq] at h
      exact h ▸ .bool b
  | num x =>
      intro w h
      cases w <;> simp only [sortKeys, reduceCtorEq, num.injEq] at h
      exact h ▸ .num x
  | str s =>
      intro w h
      cases w <;> simp only [sortKeys, reduceCtorEq, str.injEq] at h
      exact h ▸ .str s
  | arr xs ih =>
      intro w h
      cases w <;> simp only [sortKeys, reduceCtorEq, arr.injEq, sortItems_eq_map] at h
      next ys =>
        refine .arr (List.forall₂_iff_get.2 ⟨by simpa using congrArg List.length h, ?_⟩)
        intro i hx hy
        refine ih _ (List.get_mem xs ⟨i, hx⟩) _ ?_
        simpa [List.getElem?_eq_getElem hx, List.getElem?_eq_getElem hy] using
          congrArg (fun l => l[i]?) h
  | obj fs ih =>
      intro w h
      cases w <;> simp only [sortKeys, reduceCtorEq, obj.injEq, sortFields_eq_map] at h
      next gs =>
        have hperm : (fs.map fun p => (p.1, sortKeys p.2)).Perm
            (gs.map fun p => (p.1, sortKeys p.2)) :=
          (List.perm_insertionSort KeyLe _).symm.trans (h ▸ List.perm_insertionSort KeyLe _)
        obtain ⟨hs, hp, hv⟩ := perm_of_map_perm hperm
        have hmem := (List.forall₂_and_left hs gs).2 ⟨fun p hp' => ih p (hp.mem_iff.2 hp'), hv⟩
        refine .obj hp ?_ (hmem.imp fun p q h => h.1 q.2 (congrArg Prod.snd h.2))
        exact List.forall₂_eq_eq_eq ▸ List.forall₂_map_left_iff.2
          (List.forall₂_map_right_iff.2 (hv.imp fun _ _ h => congrArg Prod.fst h))

end Json

end Js
