/-
**Finite numbers and how they are printed.**

A finite number is identified by the decimal that prints it: a mantissa and a power of ten, with no
trailing zero in the mantissa.  Every finite double is one of these (its shortest decimal that reads
back to it), `-0` being the same number as `0`, so a statement about all decimals covers all finite
doubles.

Main definitions:

* `Js.Decimal`, `Js.Decimal.val` — a number and its value;
* `Js.Decimal.toStr` — `Number.prototype.toString`, with the four layouts of the language.

Main results:

* `Js.Decimal.val_injective` — the normal form is unique, so the order of the values orders the
  numbers;
* `Js.Decimal.toStr_append_inj` — **a printed number ends where it ends**, if what follows it starts
  with a character that no number contains.
-/
import Endendend.Foundation.Text
import Mathlib.Data.Nat.Digits.Defs
import Mathlib.Data.Rat.Floor
import Mathlib.Tactic.Ring
import Mathlib.Tactic.Positivity
import Mathlib.Tactic.FieldSimp
import Mathlib.Tactic.NormNum

set_option relaxedAutoImplicit false
set_option autoImplicit false

namespace Js

/-- A finite number: `mantissa * 10 ^ exponent`, in normal form. -/
structure Decimal where
  mantissa : ℤ
  exponent : ℤ
  /-- The mantissa has no trailing zero, and zero is written in one way. -/
  normal : mantissa % 10 ≠ 0 ∨ mantissa = 0 ∧ exponent = 0
  deriving DecidableEq

namespace Decimal

/-- The value of a number. -/
def val (x : Decimal) : ℚ := x.mantissa * 10 ^ x.exponent

theorem pow_dvd_of_val_eq {x y : Decimal} (h : x.val = y.val) (hle : x.exponent ≤ y.exponent) :
    x.mantissa = y.mantissa * 10 ^ (y.exponent - x.exponent).toNat := by
  obtain ⟨k, hk⟩ := Int.eq_ofNat_of_zero_le (Int.sub_nonneg.2 hle)
  have hy : y.exponent = k + x.exponent := by omega
  have h10 : (10 : ℚ) ^ x.exponent ≠ 0 := zpow_ne_zero _ (by norm_num)
  unfold val at h
  rw [hy, zpow_add₀ (by norm_num), zpow_natCast, ← mul_assoc] at h
  have h' : (x.mantissa : ℚ) = y.mantissa * 10 ^ k := mul_right_cancel₀ h10 h
  rw [show (y.exponent - x.exponent).toNat = k by omega]
  exact_mod_cast h'

theorem eq_of_val_eq_of_le {x y : Decimal} (h : x.val = y.val) (hle : x.exponent ≤ y.exponent) :
    x = y := by
  have hm := pow_dvd_of_val_eq h hle
  obtain ⟨k, hk⟩ : ∃ k, (y.exponent - x.exponent).toNat = k := ⟨_, rfl⟩
  rw [hk] at hm
  obtain ⟨mx, ex, hx⟩ := x
  obtain ⟨my, ey, hy⟩ := y
  simp only at hm hle hk hx hy
  cases k with
  | zero =>
      obtain rfl : ex = ey := by omega
      obtain rfl : mx = my := by simpa using hm
      rfl
  | succ k =>
      have hdvd : mx % 10 = 0 := by
        rw [hm, pow_succ, ← mul_assoc]
        exact Int.mul_emod_left _ _
      obtain ⟨rfl, rfl⟩ := hx.resolve_left fun hne => hne hdvd
      have hmy : my = 0 := by
        rcases mul_eq_zero.1 hm.symm with h0 | h0
        · exact h0
        · exact absurd h0 (by positivity)
      obtain ⟨rfl, rfl⟩ := hy.resolve_left fun hne => hne (by rw [hmy]; rfl)
      rfl

/-- **The normal form is unique.** -/
theorem val_injective : Function.Injective val := by
  intro x y h
  rcases le_total x.exponent y.exponent with hle | hle
  · exact eq_of_val_eq_of_le h hle
  · exact (eq_of_val_eq_of_le h.symm hle).symm

/-- The mantissa of a number at a smaller exponent. -/
def scaled (x : Decimal) (e : ℤ) : ℤ := x.mantissa * 10 ^ (x.exponent - e).toNat

theorem val_eq_scaled {x : Decimal} {e : ℤ} (h : e ≤ x.exponent) :
    x.val = x.scaled e * 10 ^ e := by
  have hx : x.exponent = ((x.exponent - e).toNat : ℤ) + e := by omega
  unfold val scaled
  conv_lhs => rw [hx, zpow_add₀ (by norm_num), zpow_natCast]
  push_cast
  ring

theorem val_le_val_iff (x y : Decimal) :
    x.scaled (min x.exponent y.exponent) ≤ y.scaled (min x.exponent y.exponent) ↔
      x.val ≤ y.val := by
  rw [val_eq_scaled (min_le_left x.exponent y.exponent),
    val_eq_scaled (min_le_right x.exponent y.exponent),
    mul_le_mul_iff_of_pos_right (zpow_pos (by norm_num) _), Int.cast_le]

/-- Numbers are ordered by their values; the order is decided on integers. -/
instance : LinearOrder Decimal where
  le x y := x.val ≤ y.val
  le_refl _ := le_refl _
  le_trans _ _ _ := le_trans
  le_antisymm _ _ h h' := val_injective (le_antisymm h h')
  le_total _ _ := le_total _ _
  toDecidableLE x y := decidable_of_iff _ (val_le_val_iff x y)

/-- Moves the trailing zeros of a mantissa into the exponent; `fuel` bounds their number. -/
def strip : ℕ → ℤ → ℤ → ℤ × ℤ
  | 0, m, e => (m, e)
  | fuel + 1, m, e => if m % 10 = 0 then strip fuel (m / 10) (e + 1) else (m, e)

theorem strip_normal : ∀ (fuel : ℕ) (m e : ℤ), m ≠ 0 → m.natAbs < 10 ^ fuel →
    (strip fuel m e).1 % 10 ≠ 0
  | 0, m, e, h0, h => absurd (Int.natAbs_eq_zero.1 (by simpa using h)) h0
  | fuel + 1, m, e, h0, h => by
      unfold strip
      split
      · next hm =>
          refine strip_normal fuel _ _ (by omega) ?_
          rw [pow_succ] at h
          omega
      · next hm => exact hm

/-- The number of a mantissa and an exponent. -/
def mk' (m e : ℤ) : Decimal :=
  if h : m = 0 then ⟨0, 0, Or.inr ⟨rfl, rfl⟩⟩
  else
    ⟨(strip m.natAbs m e).1, (strip m.natAbs m e).2,
      Or.inl (strip_normal _ _ _ h (Nat.lt_pow_self (by decide)))⟩

/-- The number of an integer. -/
def ofInt (m : ℤ) : Decimal := mk' m 0

instance (n : ℕ) : OfNat Decimal n := ⟨ofInt n⟩

theorem strip_val (fuel : ℕ) (m e : ℤ) :
    ((strip fuel m e).1 : ℚ) * 10 ^ (strip fuel m e).2 = m * 10 ^ e := by
  induction fuel generalizing m e with
  | zero => rfl
  | succ fuel ih =>
      unfold strip
      split
      · next hm =>
          have hdiv : (m : ℚ) = (m / 10 : ℤ) * 10 := by
            exact_mod_cast (Int.ediv_mul_cancel (Int.dvd_of_emod_eq_zero hm)).symm
          rw [ih, zpow_add₀ (by norm_num), zpow_one, hdiv]
          ring
      · rfl

theorem val_mk' (m e : ℤ) : (mk' m e).val = m * 10 ^ e := by
  unfold mk'
  split
  · next h => simp [val, h]
  · exact strip_val _ m e

theorem ofInt_injective : Function.Injective ofInt := by
  intro m n h
  have hval := congrArg val h
  simpa [ofInt, val_mk'] using hval

/-! ### Digits -/

/-- The decimal digits of a natural number, the first one first. -/
def digits (n : ℕ) : List ℕ := if n = 0 then [0] else (Nat.digits 10 n).reverse

/-- The number written by decimal digits, the first one first. -/
def ofDigits (ds : List ℕ) : ℕ := ds.foldl (fun a d => 10 * a + d) 0

theorem ofDigits_append (ds es : List ℕ) :
    ofDigits (ds ++ es) = ofDigits ds * 10 ^ es.length + ofDigits es := by
  induction es using List.reverseRecOn with
  | nil => simp [ofDigits]
  | append_singleton es d ih =>
      have hstep : ∀ l : List ℕ, ofDigits (l ++ [d]) = 10 * ofDigits l + d := by
        intro l
        simp [ofDigits]
      rw [← List.append_assoc, hstep, hstep, ih, List.length_append, List.length_singleton]
      ring

theorem ofDigits_replicate_zero (k : ℕ) : ofDigits (List.replicate k 0) = 0 := by
  induction k with
  | zero => rfl
  | succ k ih => simpa [ofDigits, List.replicate_succ] using ih

theorem ofDigits_digits (n : ℕ) : ofDigits (digits n) = n := by
  have hrev : ∀ l : List ℕ, ofDigits l.reverse = Nat.ofDigits 10 l := by
    intro l
    induction l with
    | nil => rfl
    | cons d l ih =>
        rw [List.reverse_cons, ofDigits_append, ih, Nat.ofDigits_cons]
        simp [ofDigits, Nat.mul_comm, Nat.add_comm]
  unfold digits
  split
  · next h => simp [h, ofDigits]
  · rw [hrev, Nat.ofDigits_digits]

theorem digits_lt (n : ℕ) : ∀ d ∈ digits n, d < 10 := by
  intro d hd
  unfold digits at hd
  split at hd
  · simp_all
  · exact Nat.digits_lt_base (by decide) (List.mem_reverse.1 hd)

theorem digits_ne_nil (n : ℕ) : digits n ≠ [] := by
  unfold digits
  split
  · simp
  · next h => simpa using Nat.digits_ne_nil_iff_ne_zero.2 h

theorem digits_inj {m n : ℕ} (h : digits m = digits n) : m = n := by
  rw [← ofDigits_digits m, h, ofDigits_digits]

/-- The text of a list of digits. -/
def digitsText (ds : List ℕ) : Str := ds.map hexDigit

/-- Is the code unit a decimal digit? -/
def isDigit (u : CodeUnit) : Bool := decide (48 ≤ u.val ∧ u.val ≤ 57)

/-- Nothing follows, or something that is no digit. -/
def NoDigit (r : Str) : Prop := ∀ u ∈ r.head?, isDigit u = false

theorem isDigit_hexDigit {d : ℕ} (h : d < 10) : isDigit (hexDigit d) = true := by
  have := hexDigit_val (show d < 16 by omega)
  rw [if_pos h] at this
  simp [isDigit, this]
  omega

/-- A run of digits ends at the first character that is no digit. -/
theorem digitsText_append_inj {ds es : List ℕ} {r r' : Str} (hd : ∀ d ∈ ds, d < 10)
    (he : ∀ d ∈ es, d < 10) (hr : NoDigit r) (hr' : NoDigit r')
    (h : digitsText ds ++ r = digitsText es ++ r') : ds = es ∧ r = r' := by
  have hstop : ∀ {d : ℕ} {l : List ℕ} {r r' : Str}, d < 10 → NoDigit r →
      r = digitsText (d :: l) ++ r' → False := by
    intro d l r r' hd hr h
    have := hr (hexDigit d) (by simp [h, digitsText])
    rw [isDigit_hexDigit hd] at this
    exact absurd this (by decide)
  induction ds generalizing es with
  | nil =>
      cases es with
      | nil => simpa [digitsText] using h
      | cons e es => exact (hstop (he e List.mem_cons_self) hr h).elim
  | cons d ds ih =>
      cases es with
      | nil => exact (hstop (hd d List.mem_cons_self) hr' h.symm).elim
      | cons e es =>
          simp only [digitsText, List.map_cons, List.cons_append, List.cons.injEq] at h
          obtain ⟨hde, h⟩ := h
          have hd' := hd d List.mem_cons_self
          have he' := he e List.mem_cons_self
          obtain rfl := hexDigit_inj (by omega) (by omega) hde
          obtain ⟨rfl, hr⟩ := ih (fun x hx => hd x (List.mem_cons_of_mem _ hx))
            (fun x hx => he x (List.mem_cons_of_mem _ hx)) h
          exact ⟨rfl, hr⟩

/-! ### Layouts -/

/-- A printed number without its sign: digits before the point, digits after it, and the exponent
if there is one. -/
structure Layout where
  int : List ℕ
  frac : List ℕ
  exp : Option ℤ

/-- The value of a layout. -/
def Layout.val (a : Layout) : ℚ :=
  ofDigits (a.int ++ a.frac) * 10 ^ (a.exp.getD 0 - a.frac.length)

/-- Both digit lists of a layout are made of decimal digits. -/
def Layout.Digital (a : Layout) : Prop := (∀ d ∈ a.int, d < 10) ∧ ∀ d ∈ a.frac, d < 10

/-- The point and the digits after it, if there are any. -/
def fracText (ds : List ℕ) : Str := if ds = [] then [] else unit '.' :: digitsText ds

/-- The exponent part, if there is one. -/
def expText : Option ℤ → Str
  | none => []
  | some e =>
    unit 'e' :: (if 0 ≤ e then unit '+' else unit '-') :: digitsText (digits e.natAbs)

def Layout.text (a : Layout) : Str := digitsText a.int ++ (fracText a.frac ++ expText a.exp)

/-- The layout of the number whose digits are `ds` and whose point stands after the first `n` of
them: an integer, a fraction, a fraction below one, or an exponent form. -/
def layout (ds : List ℕ) (n : ℤ) : Layout :=
  if ds.length ≤ n ∧ n ≤ 21 then ⟨ds ++ List.replicate (n - ds.length).toNat 0, [], none⟩
  else if 0 < n ∧ n ≤ 21 then ⟨ds.take n.toNat, ds.drop n.toNat, none⟩
  else if -6 < n ∧ n ≤ 0 then ⟨[0], List.replicate (-n).toNat 0 ++ ds, none⟩
  else ⟨ds.take 1, ds.drop 1, some (n - 1)⟩

theorem layout_digital {ds : List ℕ} (hd : ∀ d ∈ ds, d < 10) (n : ℤ) : (layout ds n).Digital := by
  have hzero : ∀ (k d : ℕ), d ∈ List.replicate k 0 → d < 10 := by
    intro k d h
    rw [List.eq_of_mem_replicate h]
    decide
  unfold layout
  split_ifs
  · refine ⟨fun d h => ?_, by simp⟩
    rcases List.mem_append.1 h with h | h
    · exact hd d h
    · exact hzero _ d h
  · exact ⟨fun d h => hd d (List.mem_of_mem_take h), fun d h => hd d (List.mem_of_mem_drop h)⟩
  · refine ⟨by simp, fun d h => ?_⟩
    rcases List.mem_append.1 h with h | h
    · exact hzero _ d h
    · exact hd d h
  · exact ⟨fun d h => hd d (List.mem_of_mem_take h), fun d h => hd d (List.mem_of_mem_drop h)⟩

/-- **Every layout has the value it is meant to have.** -/
theorem layout_val {ds : List ℕ} (hne : ds ≠ []) (n : ℤ) :
    (layout ds n).val = ofDigits ds * 10 ^ (n - ds.length) := by
  have hlen : 0 < ds.length := List.length_pos_iff.2 hne
  unfold layout
  split_ifs with h₁ h₂ h₃
  · obtain ⟨k, hk⟩ : ∃ k : ℕ, n - ds.length = k := ⟨(n - ds.length).toNat, by omega⟩
    simp only [Layout.val, hk, Int.toNat_natCast, List.append_nil, ofDigits_append,
      ofDigits_replicate_zero, List.length_replicate, List.length_nil, Option.getD_none]
    push_cast
    simp
  · simp only [Layout.val, List.take_append_drop, List.length_drop, Option.getD_none]
    congr 2
    omega
  · simp only [Layout.val, List.cons_append, List.nil_append, List.length_append,
      List.length_replicate, Option.getD_none]
    have hz : ofDigits (0 :: (List.replicate (-n).toNat 0 ++ ds)) = ofDigits ds := by
      rw [← List.cons_append, ← List.replicate_succ, ofDigits_append, ofDigits_replicate_zero,
        Nat.zero_mul, Nat.zero_add]
    rw [hz]
    congr 2
    omega
  · simp only [Layout.val, List.take_append_drop, List.length_drop, Option.getD_some]
    congr 2
    omega

/-! ### Printing and reading back -/

/-- Nothing follows, or something that cannot continue a number. -/
def Stop (r : Str) : Prop := ∀ u ∈ r.head?, isDigit u = false ∧ u ≠ unit '.' ∧ u ≠ unit 'e'

theorem stop_nil : Stop [] := fun u hu => absurd hu (by simp)

theorem noDigit_exp {e : Option ℤ} {r : Str} (hr : Stop r) : NoDigit (expText e ++ r) := by
  cases e with
  | none => exact fun u hu => (hr u hu).1
  | some e =>
      intro u hu
      obtain rfl : unit 'e' = u := by simpa [expText] using hu
      decide

theorem noDigit_frac {ds : List ℕ} {e : Option ℤ} {r : Str} (hr : Stop r) :
    NoDigit (fracText ds ++ (expText e ++ r)) := by
  unfold fracText
  split
  · exact noDigit_exp hr
  · intro u hu
    obtain rfl : unit '.' = u := by simpa using hu
    decide

theorem expText_append_inj {e f : Option ℤ} {r r' : Str} (hr : Stop r) (hr' : Stop r')
    (h : expText e ++ r = expText f ++ r') : e = f ∧ r = r' := by
  have hstop : ∀ {e : ℤ} {r r' : Str}, Stop r → r = expText (some e) ++ r' → False := by
    intro e r r' hr h
    exact (hr (unit 'e') (by simp [h, expText])).2.2 rfl
  cases e with
  | none =>
      cases f with
      | none => exact ⟨rfl, h⟩
      | some f => exact (hstop hr h).elim
  | some e =>
      cases f with
      | none => exact (hstop hr' h.symm).elim
      | some f =>
          simp only [expText, List.cons_append, List.cons.injEq, true_and] at h
          obtain ⟨hs, h⟩ := h
          obtain ⟨hd, hrr⟩ := digitsText_append_inj (digits_lt _) (digits_lt _)
            (fun u hu => (hr u hu).1) (fun u hu => (hr' u hu).1) h
          have habs := digits_inj hd
          have hsign : (0 ≤ e) ↔ (0 ≤ f) := by
            by_cases he : 0 ≤ e <;> by_cases hf : 0 ≤ f <;>
              simp only [he, hf, if_true, if_false] at hs ⊢ <;> revert hs <;> decide
          exact ⟨congrArg some (by omega), hrr⟩

theorem fracText_append_inj {ds es : List ℕ} {e f : Option ℤ} {r r' : Str}
    (hd : ∀ d ∈ ds, d < 10) (he : ∀ d ∈ es, d < 10) (hr : Stop r) (hr' : Stop r')
    (h : fracText ds ++ (expText e ++ r) = fracText es ++ (expText f ++ r')) :
    ds = es ∧ expText e ++ r = expText f ++ r' := by
  have hdot : ∀ {e : Option ℤ} {r s : Str}, Stop r → expText e ++ r ≠ unit '.' :: s := by
    intro e r s hr h
    cases e with
    | none => exact (hr (unit '.') (by simpa [expText] using congrArg List.head? h)).2.1 rfl
    | some e => exact absurd (List.cons.inj h).1 (by decide)
  unfold fracText at h
  split at h <;> split at h
  · next hds hes => exact ⟨hds.trans hes.symm, h⟩
  · exact absurd h (hdot hr)
  · exact absurd h.symm (hdot hr')
  · exact digitsText_append_inj hd he (noDigit_exp hr) (noDigit_exp hr') (List.cons.inj h).2

/-- A layout can be read off its text. -/
theorem Layout.text_append_inj {a b : Layout} (ha : a.Digital) (hb : b.Digital) {r r' : Str}
    (hr : Stop r) (hr' : Stop r') (h : a.text ++ r = b.text ++ r') : a = b ∧ r = r' := by
  obtain ⟨ia, fa, ea⟩ := a
  obtain ⟨ib, fb, eb⟩ := b
  simp only [Layout.text, List.append_assoc] at h
  obtain ⟨hia, hfa⟩ := ha
  obtain ⟨hib, hfb⟩ := hb
  simp only at hia hfa hib hfb
  obtain ⟨rfl, h₁⟩ := digitsText_append_inj hia hib (noDigit_frac hr) (noDigit_frac hr') h
  obtain ⟨rfl, h₂⟩ := fracText_append_inj hfa hfb hr hr' h₁
  obtain ⟨rfl, h₃⟩ := expText_append_inj hr hr' h₂
  exact ⟨rfl, h₃⟩

/-- The layout of the absolute value of a number. -/
def absLayout (x : Decimal) : Layout :=
  layout (digits x.mantissa.natAbs) (x.exponent + (digits x.mantissa.natAbs).length)

/-- What `Number.prototype.toString` prints. -/
def toStr (x : Decimal) : Str :=
  if x.mantissa < 0 then unit '-' :: x.absLayout.text else x.absLayout.text

theorem absLayout_digital (x : Decimal) : x.absLayout.Digital := layout_digital (digits_lt _) _

theorem absLayout_val (x : Decimal) :
    x.absLayout.val = |(x.mantissa : ℚ)| * 10 ^ x.exponent := by
  rw [absLayout, layout_val (digits_ne_nil _), ofDigits_digits, add_sub_cancel_right,
    Nat.cast_natAbs, Int.cast_abs]

theorem absLayout_int_ne_nil (x : Decimal) : x.absLayout.int ≠ [] := by
  have hne := digits_ne_nil x.mantissa.natAbs
  have hlen := List.length_pos_iff.2 hne
  unfold absLayout layout
  split_ifs with h₁ h₂
  · simp [hne]
  · have : (x.exponent + (digits x.mantissa.natAbs).length).toNat ≠ 0 := by omega
    simp [hne, this]
  · simp
  · simp [hne]

/-- A printed absolute value starts with a digit. -/
theorem absLayout_text_head (x : Decimal) :
    ∃ u s, x.absLayout.text = u :: s ∧ isDigit u = true := by
  obtain ⟨d, ds, hds⟩ := List.exists_cons_of_ne_nil x.absLayout_int_ne_nil
  refine ⟨hexDigit d, _, by rw [Layout.text, hds]; rfl, isDigit_hexDigit ?_⟩
  exact x.absLayout_digital.1 d (hds ▸ List.mem_cons_self)

theorem le_strip_exponent (fuel : ℕ) (m e : ℤ) : e ≤ (strip fuel m e).2 := by
  induction fuel generalizing m e with
  | zero => exact le_rfl
  | succ fuel ih =>
      unfold strip
      split
      · exact (Int.le_add_one le_rfl).trans (ih _ _)
      · exact le_rfl

theorem ofInt_exponent_nonneg (m : ℤ) : 0 ≤ (ofInt m).exponent := by
  unfold ofInt mk'
  split
  · exact le_rfl
  · exact le_strip_exponent _ _ _

theorem ofInt_mantissa_nonneg (n : ℕ) : 0 ≤ (ofInt n).mantissa := by
  by_contra hneg
  have hval : (ofInt n).val = n := by
    rw [ofInt, val_mk']
    simp
  have hlt : (ofInt n).val < 0 :=
    mul_neg_of_neg_of_pos (Int.cast_lt_zero.2 (not_le.1 hneg)) (zpow_pos (by norm_num) _)
  rw [hval] at hlt
  exact absurd hlt (not_lt.2 (Nat.cast_nonneg n))

theorem minus_notMem_digitsText {ds : List ℕ} (h : ∀ d ∈ ds, d < 10) :
    unit '-' ∉ digitsText ds := by
  intro hmem
  obtain ⟨d, hd, heq⟩ := List.mem_map.1 hmem
  have hdigit := isDigit_hexDigit (h d hd)
  rw [heq] at hdigit
  exact absurd hdigit (by decide)

/-- No minus sign stands in the text of a natural number. -/
theorem minus_notMem_toStr (n : ℕ) : unit '-' ∉ (ofInt n).toStr := by
  have hexp : ∀ e ∈ (ofInt n).absLayout.exp, 0 ≤ e := by
    have hlen := List.length_pos_iff.2 (digits_ne_nil (ofInt n).mantissa.natAbs)
    have hexponent := ofInt_exponent_nonneg n
    unfold absLayout layout
    split_ifs <;> intro e he <;> cases he
    omega
  obtain ⟨hint, hfrac⟩ := (ofInt n).absLayout_digital
  rw [toStr, if_neg (not_lt.2 (ofInt_mantissa_nonneg n)), Layout.text]
  simp only [List.mem_append, not_or]
  refine ⟨minus_notMem_digitsText hint, ?_, ?_⟩
  · unfold fracText
    split
    · exact List.not_mem_nil
    · rw [List.mem_cons, not_or]
      exact ⟨by decide, minus_notMem_digitsText hfrac⟩
  · cases h : (ofInt n).absLayout.exp with
    | none => exact List.not_mem_nil
    | some e =>
        rw [expText, if_pos (hexp e h), List.mem_cons, List.mem_cons, not_or, not_or]
        exact ⟨by decide, by decide, minus_notMem_digitsText (digits_lt _)⟩

/-- **A printed number ends where it ends.** -/
theorem toStr_append_inj {x y : Decimal} {r r' : Str} (hr : Stop r) (hr' : Stop r')
    (h : x.toStr ++ r = y.toStr ++ r') : x = y ∧ r = r' := by
  have hminus : ∀ (z : Decimal) (s t : Str), unit '-' :: s ≠ z.absLayout.text ++ t := by
    intro z s t hz
    obtain ⟨u, v, huv, hu⟩ := z.absLayout_text_head
    rw [huv, List.cons_append] at hz
    exact absurd ((List.cons.inj hz).1 ▸ hu) (by decide)
  have habs : ∀ {x y : Decimal} {r r' : Str}, (x.mantissa < 0 ↔ y.mantissa < 0) → Stop r →
      Stop r' → x.absLayout.text ++ r = y.absLayout.text ++ r' → x = y ∧ r = r' := by
    intro x y r r' hsign hr hr' h
    obtain ⟨hl, hrr⟩ := Layout.text_append_inj x.absLayout_digital y.absLayout_digital hr hr' h
    have hval := x.absLayout_val.symm.trans ((congrArg Layout.val hl).trans y.absLayout_val)
    refine ⟨val_injective ?_, hrr⟩
    unfold val
    by_cases hx : x.mantissa < 0
    · rw [abs_of_neg (Int.cast_lt_zero.2 hx), abs_of_neg (Int.cast_lt_zero.2 (hsign.1 hx)),
        neg_mul, neg_mul] at hval
      exact neg_injective hval
    · have hy := fun hy => hx (hsign.2 hy)
      rwa [abs_of_nonneg (Int.cast_nonneg (not_lt.1 hx)),
        abs_of_nonneg (Int.cast_nonneg (not_lt.1 hy))] at hval
  unfold toStr at h
  split at h <;> split at h
  · next hx hy => exact habs (iff_of_true hx hy) hr hr' (List.cons.inj h).2
  · exact absurd h (hminus y _ _)
  · exact absurd h.symm (hminus x _ _)
  · next hx hy => exact habs (iff_of_false hx hy) hr hr' h

theorem toStr_injective : Function.Injective toStr := fun _ _ h =>
  (toStr_append_inj stop_nil stop_nil (congrArg (· ++ []) h)).1

end Decimal

end Js
