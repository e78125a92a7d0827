/-
**Numbers with a fixed number of decimals.**

`x.toFixed(f)` prints a number with `f` digits after the point, and `parseFloat` reads the number a
text begins with.

Main definitions:

* `Js.fixedUnits`, `Js.toFixed` — the rounded number in units of the last digit, and its text;
* `Js.parseFloat` — the number at the beginning of a text.

Main results:

* `Js.parseFloat_toFixed` — **a printed number is read back rounded**, whatever follows it;
* `Js.parseFloat_toFixed_exact` — a number that fits its digits is read back as it is.
-/
import Endendend.Foundation.Coerce
import Mathlib.Algebra.Order.Floor.Semiring
import Mathlib.Algebra.Order.Archimedean.Basic
import Mathlib.Tactic.FieldSimp

set_option relaxedAutoImplicit false
set_option autoImplicit false

namespace Js

open Decimal

/-! ### Printing -/

/-- A number that is not negative, in units of its `f`-th digit after the point; halves are rounded
up. -/
def fixedUnits (f : ℕ) (x : ℚ) : ℕ := ⌊x * 10 ^ f + 1 / 2⌋₊

/-- The last `f` decimal digits. -/
def padDigits : ℕ → ℕ → List ℕ
  | 0, _ => []
  | f + 1, n => padDigits f (n / 10) ++ [n % 10]

/-- The digits of a number with `f` digits after the point. -/
def fixedLayout (f n : ℕ) : Layout := ⟨digits (n / 10 ^ f), padDigits f (n % 10 ^ f), none⟩

/-- `x.toFixed(f)`, for numbers below `10 ^ 21`. -/
def toFixed (f : ℕ) (x : ℚ) : Str :=
  if x < 0 then unit '-' :: (fixedLayout f (fixedUnits f (-x))).text
  else (fixedLayout f (fixedUnits f x)).text

/-! ### Reading -/

/-- The exponent a text begins with, if it begins with one. -/
def exponentPrefix : Str → ℤ
  | u :: v :: t =>
    if u = unit 'e' ∨ u = unit 'E' then
      let digitsOf (s : Str) : ℤ := ofDigits ((s.takeWhile isDigit).map fun u => u.val - 48)
      if v = unit '-' then -digitsOf t else if v = unit '+' then digitsOf t else digitsOf (v :: t)
    else 0
  | _ => 0

/-- The number without a sign that a text begins with. -/
def parseUnsigned (s : Str) : Option ℚ :=
  let int := s.takeWhile isDigit
  let rest := s.dropWhile isDigit
  let frac := if rest.head? = some (unit '.') then rest.tail.takeWhile isDigit else []
  let rest := if rest.head? = some (unit '.') then rest.tail.dropWhile isDigit else rest
  if int ++ frac = [] then none
  else
    some (ofDigits ((int ++ frac).map fun u => u.val - 48) *
      10 ^ (exponentPrefix rest - frac.length))

/-- `parseFloat(s)`, if it is finite. -/
def parseFloat (s : Str) : Option ℚ :=
  match s.dropWhile isSpace with
  | [] => none
  | u :: t =>
    if u = unit '-' then (parseUnsigned t).map Neg.neg
    else if u = unit '+' then parseUnsigned t
    else parseUnsigned (u :: t)

/-! ### Reading what was printed -/

theorem length_padDigits (f n : ℕ) : (padDigits f n).length = f := by
  induction f generalizing n with
  | zero => rfl
  | succ f ih => rw [padDigits, List.length_append, ih, List.length_singleton]

theorem padDigits_lt (f n : ℕ) : ∀ d ∈ padDigits f n, d < 10 := by
  induction f generalizing n with
  | zero => exact fun d hd => absurd hd List.not_mem_nil
  | succ f ih =>
      intro d hd
      rcases List.mem_append.1 hd with hd | hd
      · exact ih (n / 10) d hd
      · rw [List.mem_singleton.1 hd]
        exact Nat.mod_lt n (by decide)

theorem ofDigits_padDigits {f n : ℕ} (h : n < 10 ^ f) : ofDigits (padDigits f n) = n := by
  induction f generalizing n with
  | zero => rw [Nat.pow_zero, Nat.lt_one_iff] at h; rw [h]; rfl
  | succ f ih =>
      have hdiv : n / 10 < 10 ^ f := by
        rw [Nat.div_lt_iff_lt_mul (by decide)]
        rwa [← Nat.pow_succ]
      rw [padDigits, ofDigits_append, ih hdiv, List.length_singleton]
      change n / 10 * 10 ^ 1 + (10 * 0 + n % 10) = n
      omega

theorem fixedLayout_digital (f n : ℕ) : (fixedLayout f n).Digital :=
  ⟨digits_lt _, padDigits_lt f _⟩

theorem fixedLayout_val (f n : ℕ) : (fixedLayout f n).val = n / 10 ^ f := by
  have hmod : n % 10 ^ f < 10 ^ f := Nat.mod_lt n (by positivity)
  rw [Layout.val, fixedLayout, ofDigits_append, ofDigits_digits, ofDigits_padDigits hmod,
    length_padDigits, Nat.div_add_mod' n (10 ^ f), Option.getD_none, zero_sub, zpow_neg,
    zpow_natCast, div_eq_mul_inv]

/-- Reading a run of digits stops where it ends. -/
theorem span_digitsText {ds : List ℕ} {r : Str} (hd : ∀ d ∈ ds, d < 10) (hr : NoDigit r) :
    (digitsText ds ++ r).takeWhile isDigit = digitsText ds ∧
      (digitsText ds ++ r).dropWhile isDigit = r := by
  have hall : ∀ u ∈ digitsText ds, isDigit u = true := by
    intro u hu
    obtain ⟨d, hd', rfl⟩ := List.mem_map.1 hu
    exact isDigit_hexDigit (hd d hd')
  rw [List.takeWhile_append_of_pos hall, List.dropWhile_append_of_pos hall]
  rcases r with - | ⟨u, r⟩
  · exact ⟨List.append_nil _, rfl⟩
  · have hu : isDigit u = false := hr u rfl
    rw [List.takeWhile_cons_of_neg (by rw [hu]; decide), List.append_nil,
      List.dropWhile_cons_of_neg (by rw [hu]; decide)]
    exact ⟨rfl, rfl⟩

theorem map_val_digitsText {ds : List ℕ} (hd : ∀ d ∈ ds, d < 10) :
    (digitsText ds).map (fun u => u.val - 48) = ds := by
  rw [digitsText, List.map_map]
  refine (List.map_congr_left fun d hmem => ?_).trans (List.map_id ds)
  have hlt := hd d hmem
  simp only [Function.comp_apply, hexDigit_val (show d < 16 by omega), if_pos hlt]
  simp

/-- Nothing follows a printed number that could belong to it. -/
def NoNumber (r : Str) : Prop :=
  ∀ u ∈ r.head?, isDigit u = false ∧ u ≠ unit '.' ∧ u ≠ unit 'e' ∧ u ≠ unit 'E'

theorem exponentPrefix_of_noNumber {r : Str} (hr : NoNumber r) : exponentPrefix r = 0 := by
  rcases r with - | ⟨u, - | ⟨v, r⟩⟩
  · rfl
  · rfl
  · obtain ⟨-, -, he, hE⟩ := hr u rfl
    rw [exponentPrefix, if_neg (not_or.2 ⟨he, hE⟩)]

/-- A layout without an exponent is read back. -/
theorem parseUnsigned_text {a : Layout} (ha : a.Digital) (hint : a.int ≠ []) (hexp : a.exp = none)
    {r : Str} (hr : NoNumber r) : parseUnsigned (a.text ++ r) = some a.val := by
  have hr' : NoDigit r := fun u hu => (hr u hu).1
  have htext : a.text ++ r = digitsText a.int ++ (fracText a.frac ++ r) := by
    rw [Layout.text, hexp, expText, List.append_nil, List.append_assoc]
  have hne : digitsText a.int ≠ [] := fun h => hint (List.map_eq_nil_iff.1 h)
  rw [htext, parseUnsigned, Layout.val, hexp]
  by_cases hfrac : a.frac = []
  · have hnd : NoDigit (fracText a.frac ++ r) := by
      rw [hfrac]
      exact hr'
    obtain ⟨htake, hdrop⟩ := span_digitsText ha.1 hnd
    have hhead : r.head? ≠ some (unit '.') := fun h => (hr _ h).2.1 rfl
    have hempty : fracText a.frac ++ r = r := by rw [hfrac]; rfl
    rw [hempty] at htake hdrop ⊢
    simp only [htake, hdrop, if_neg hhead, List.append_nil, if_neg hne, hfrac,
      map_val_digitsText ha.1, exponentPrefix_of_noNumber hr, List.length_nil, Option.getD_none]
  · have hcons : fracText a.frac ++ r = unit '.' :: (digitsText a.frac ++ r) := by
      rw [fracText, if_neg hfrac]
      rfl
    have hnd : NoDigit (fracText a.frac ++ r) := by
      rw [hcons]
      rintro u hu
      obtain rfl := Option.some.inj hu
      decide
    obtain ⟨htake, hdrop⟩ := span_digitsText ha.1 hnd
    obtain ⟨htake', hdrop'⟩ := span_digitsText ha.2 hr'
    have hne' : digitsText a.int ++ digitsText a.frac ≠ [] := fun h =>
      hne (List.append_eq_nil_iff.1 h).1
    rw [hcons] at htake hdrop ⊢
    simp only [htake, hdrop, List.head?_cons, if_true, List.tail_cons, htake', hdrop',
      if_neg hne', List.map_append, map_val_digitsText ha.1, map_val_digitsText ha.2,
      exponentPrefix_of_noNumber hr, Option.getD_none]
    rw [digitsText, List.length_map]

/-- A printed number begins with a digit. -/
theorem parseFloat_text {a : Layout} (ha : a.Digital) (hint : a.int ≠ []) (hexp : a.exp = none)
    {r : Str} (hr : NoNumber r) : parseFloat (a.text ++ r) = some a.val := by
  rw [← parseUnsigned_text ha hint hexp hr]
  obtain ⟨d, ds, hds⟩ := List.exists_cons_of_ne_nil hint
  have hd : d < 10 := ha.1 d (hds ▸ List.mem_cons_self)
  have hcons : ∃ t, a.text ++ r = hexDigit d :: t :=
    ⟨digitsText ds ++ (fracText a.frac ++ expText a.exp) ++ r, by
      rw [Layout.text, hds]
      rfl⟩
  obtain ⟨t, ht⟩ := hcons
  have hdigit : ∀ d < 10, isSpace (hexDigit d) = false ∧ hexDigit d ≠ unit '-' ∧
      hexDigit d ≠ unit '+' := by decide
  obtain ⟨hspace, hminus, hplus⟩ := hdigit d hd
  rw [ht, parseFloat, List.dropWhile_cons_of_neg (by rw [hspace]; decide)]
  simp only [if_neg hminus, if_neg hplus]

/-- **A printed number is read back rounded**, whatever follows it. -/
theorem parseFloat_toFixed {f : ℕ} {x : ℚ} (hx : 0 ≤ x) {r : Str} (hr : NoNumber r) :
    parseFloat (toFixed f x ++ r) = some ((fixedUnits f x : ℚ) / 10 ^ f) := by
  rw [toFixed, if_neg hx.not_gt, parseFloat_text (fixedLayout_digital f _) (digits_ne_nil _) rfl hr,
    fixedLayout_val]

/-- A number that fits its digits is not rounded. -/
theorem fixedUnits_exact (f n : ℕ) : fixedUnits f (n / 10 ^ f) = n := by
  have hpow : (10 : ℚ) ^ f ≠ 0 := by positivity
  rw [fixedUnits, div_mul_cancel₀ _ hpow, Nat.floor_eq_iff (by positivity)]
  constructor <;> linarith

/-- **A number that fits its digits is read back as it is.** -/
theorem parseFloat_toFixed_exact {f : ℕ} {x : ℚ} {n : ℕ} (hx : x = n / 10 ^ f) {r : Str}
    (hr : NoNumber r) : parseFloat (toFixed f x ++ r) = some x := by
  have hpos : 0 ≤ x := by rw [hx]; positivity
  rw [parseFloat_toFixed hpos hr, hx, fixedUnits_exact]

end Js
