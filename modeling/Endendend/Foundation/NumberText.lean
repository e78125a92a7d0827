/-
**Printed numbers are read back, and printed values have no control characters.**

`Number(s)` of the text of a number is the number again, so texts that are made of printed numbers
name what was printed.  `JSON.stringify` escapes the control characters of strings, and prints
nothing below a blank elsewhere, so such a character can separate the text of a value from what
stands before it.

Main results:

* `Js.Decimal.mem_toStr` — the characters of a printed number;
* `Js.numberOfText_toStr` — **a printed number is read back**;
* `Js.printable_of_mem_quote` — a quoted string has no control character;
* `Js.Json.printable_of_mem_stringify` — **nor has the text of a value.**
-/
import Endendend.Foundation.Fixed
import Endendend.Foundation.Json

set_option relaxedAutoImplicit false
set_option autoImplicit false

namespace Js

open Decimal

/-! ### Characters -/

/-- What a printed number is made of. -/
def IsNumeral (u : CodeUnit) : Prop :=
  isDigit u = true ∨ u = unit '.' ∨ u = unit 'e' ∨ u = unit '+' ∨ u = unit '-'

instance : DecidablePred IsNumeral := fun _ => inferInstanceAs (Decidable (_ ∨ _))

theorem isNumeral_of_mem_digitsText {ds : List ℕ} (hd : ∀ d ∈ ds, d < 10) {u : CodeUnit}
    (hu : u ∈ digitsText ds) : IsNumeral u := by
  obtain ⟨d, hmem, rfl⟩ := List.mem_map.1 hu
  exact Or.inl (isDigit_hexDigit (hd d hmem))

theorem isNumeral_of_mem_text {a : Layout} (ha : a.Digital) {u : CodeUnit} (hu : u ∈ a.text) :
    IsNumeral u := by
  rw [Layout.text, List.mem_append, List.mem_append] at hu
  obtain hu | hu | hu := hu
  · exact isNumeral_of_mem_digitsText ha.1 hu
  · unfold fracText at hu
    split at hu
    · exact absurd hu List.not_mem_nil
    · obtain rfl | hu := List.mem_cons.1 hu
      · decide
      · exact isNumeral_of_mem_digitsText ha.2 hu
  · cases h : a.exp with
    | none =>
        rw [h] at hu
        exact absurd hu List.not_mem_nil
    | some e =>
        rw [h, expText, List.mem_cons, List.mem_cons] at hu
        obtain rfl | rfl | hu := hu
        · decide
        · split <;> decide
        · exact isNumeral_of_mem_digitsText (digits_lt _) hu

theorem Decimal.mem_toStr {x : Decimal} {u : CodeUnit} (hu : u ∈ x.toStr) : IsNumeral u := by
  unfold toStr at hu
  split at hu
  · obtain rfl | hu := List.mem_cons.1 hu
    · decide
    · exact isNumeral_of_mem_text x.absLayout_digital hu
  · exact isNumeral_of_mem_text x.absLayout_digital hu

theorem trim_of_forall {s : Str} (h : ∀ u ∈ s, isSpace u = false) : trim s = s := by
  have hdrop : ∀ t : Str, (∀ u ∈ t, isSpace u = false) → t.dropWhile isSpace = t := by
    intro t ht
    cases t with
    | nil => rfl
    | cons u t => rw [List.dropWhile_cons_of_neg (by rw [ht u List.mem_cons_self]; decide)]
  rw [trim, hdrop s h, hdrop s.reverse fun u hu => h u (List.mem_reverse.1 hu),
    List.reverse_reverse]

theorem isSpace_of_isNumeral {u : CodeUnit} (h : IsNumeral u) : isSpace u = false := by
  obtain h | rfl | rfl | rfl | rfl := h
  · have hval := of_decide_eq_true h
    simp only [isSpace, List.mem_cons, List.not_mem_nil, or_false, decide_eq_false_iff_not]
    omega
  all_goals decide

/-! ### Digits and exponents -/

theorem digitValue_hexDigit {d : ℕ} (hd : d < 10) : digitValue (hexDigit d) = some d := by
  have hval := hexDigit_val (show d < 16 by omega)
  rw [if_pos hd] at hval
  rw [digitValue, if_pos (by omega), hval, Nat.add_sub_cancel_left]

theorem digitsValue_digitsText {ds : List ℕ} (hne : ds ≠ []) (hd : ∀ d ∈ ds, d < 10) :
    digitsValue 10 (digitsText ds) = some (ofDigits ds) := by
  have hfold : ∀ (ds : List ℕ) (n : ℕ), (∀ d ∈ ds, d < 10) →
      (digitsText ds).foldlM (fun n u =>
        (digitValue u).bind fun d => if d < 10 then some (10 * n + d) else none) n =
        some (ds.foldl (fun a d => 10 * a + d) n) := by
    intro ds
    induction ds with
    | nil => exact fun n _ => rfl
    | cons d ds ih =>
        intro n hd
        have hlt := hd d List.mem_cons_self
        rw [digitsText, List.map_cons, List.foldlM_cons, digitValue_hexDigit hlt, Option.bind_some,
          if_pos hlt]
        exact ih _ fun e he => hd e (List.mem_cons_of_mem _ he)
  have hnil : digitsText ds ≠ [] := fun h => hne (List.map_eq_nil_iff.1 h)
  rw [digitsValue, if_neg hnil]
  exact hfold ds 0 hd

theorem exponentOfText_expText (e : Option ℤ) : exponentOfText (expText e) = some (e.getD 0) := by
  cases e with
  | none => rfl
  | some e =>
      have hvalue : digitsValue 10 (digitsText (digits e.natAbs)) = some e.natAbs := by
        rw [digitsValue_digitsText (digits_ne_nil _) (digits_lt _), ofDigits_digits]
      rw [expText, exponentOfText, if_pos (Or.inl rfl)]
      by_cases he : 0 ≤ e
      · rw [if_pos he]
        rw [if_neg (by decide), if_pos rfl, hvalue, Option.map_some, Option.getD_some]
        exact congrArg some (Int.natAbs_of_nonneg he)
      · rw [if_neg he, if_pos rfl, hvalue]
        exact congrArg some (show -(e.natAbs : ℤ) = e by omega)

/-- A printed number without its sign is read back. -/
theorem decimalOfText_text {a : Layout} (ha : a.Digital) (hint : a.int ≠ []) :
    decimalOfText a.text =
      some (mk' (ofDigits (a.int ++ a.frac)) (a.exp.getD 0 - a.frac.length)) := by
  have hne : a.int ++ a.frac ≠ [] := fun h => hint (List.append_eq_nil_iff.1 h).1
  have hdigits : ∀ d ∈ a.int ++ a.frac, d < 10 := fun d hd =>
    (List.mem_append.1 hd).elim (ha.1 d) (ha.2 d)
  have hboth : digitsText a.int ++ digitsText a.frac = digitsText (a.int ++ a.frac) :=
    List.map_append.symm
  have hvalue := digitsValue_digitsText hne hdigits
  have hexp := exponentOfText_expText a.exp
  have hfracStop : NoDigit (fracText a.frac ++ expText a.exp) := by
    have h := @noDigit_frac a.frac a.exp _ stop_nil
    rwa [List.append_nil] at h
  have hexpStop : NoDigit (expText a.exp) := by
    have h := noDigit_exp (e := a.exp) stop_nil
    rwa [List.append_nil] at h
  obtain ⟨htake, hdrop⟩ := span_digitsText ha.1 hfracStop
  rw [decimalOfText, Layout.text, htake, hdrop]
  by_cases hfrac : a.frac = []
  · -- without a fraction no point is printed, and the digits are followed by the exponent
    have hhead : (expText a.exp).head? ≠ some (unit '.') := by
      cases a.exp with
      | none => exact fun h => absurd h (by simp [expText])
      | some e => exact fun h => absurd (Option.some.inj h) (by decide)
    rw [hfrac, List.append_nil] at hvalue
    simp only [hfrac, fracText, if_true, List.nil_append, if_neg hhead, List.append_nil, hvalue,
      hexp, List.length_nil]
  · obtain ⟨htake', hdrop'⟩ := span_digitsText ha.2 hexpStop
    simp only [fracText, if_neg hfrac, List.cons_append, List.head?_cons, if_true, List.tail_cons,
      htake', hdrop', hboth, hvalue, hexp]
    rw [digitsText, List.length_map]

/-- **A printed number is read back.** -/
theorem numberOfText_toStr (x : Decimal) : numberOfText x.toStr = some x := by
  have htrim : trim x.toStr = x.toStr :=
    trim_of_forall fun u hu => isSpace_of_isNumeral (mem_toStr hu)
  obtain ⟨u, s, htext, hu⟩ := x.absLayout_text_head
  have hval := x.absLayout_val
  rw [Layout.val] at hval
  have hread := decimalOfText_text x.absLayout_digital x.absLayout_int_ne_nil
  rw [numberOfText, htrim]
  by_cases hneg : x.mantissa < 0
  · -- the sign is printed in front and read off first
    rw [toStr, if_pos hneg]
    dsimp only
    rw [if_pos rfl, hread, Option.map_some]
    refine congrArg some (val_injective ?_)
    have hmk := val_mk' (ofDigits (x.absLayout.int ++ x.absLayout.frac))
      (x.absLayout.exp.getD 0 - x.absLayout.frac.length)
    rw [Int.cast_natCast, hval, abs_of_neg (Int.cast_lt_zero.2 hneg), val] at hmk
    rw [val_mk', Int.cast_neg, neg_mul, hmk, neg_mul, neg_neg, val]
  · -- a printed number has no prefix of another base, as no letter but `e` is in it
    have hbase : ∀ v ∈ s, v ≠ unit 'x' ∧ v ≠ unit 'X' ∧ v ≠ unit 'o' ∧ v ≠ unit 'O' ∧
        v ≠ unit 'b' ∧ v ≠ unit 'B' := by
      intro v hv
      have hnumeral : IsNumeral v := by
        refine isNumeral_of_mem_text x.absLayout_digital ?_
        rw [htext]
        exact List.mem_cons_of_mem _ hv
      refine ⟨?_, ?_, ?_, ?_, ?_, ?_⟩ <;>
      · rintro rfl
        exact absurd hnumeral (by decide)
    have hsign : u ≠ unit '-' ∧ u ≠ unit '+' := by
      constructor <;>
      · rintro rfl
        exact absurd hu (by decide)
    have hx : decimalOfText (u :: s) = some x := by
      rw [← htext, hread]
      refine congrArg some (val_injective ?_)
      rw [val_mk', Int.cast_natCast, hval, abs_of_nonneg (Int.cast_nonneg (not_lt.1 hneg)), val]
    rw [toStr, if_neg hneg, htext]
    dsimp only
    rw [if_neg hsign.1, if_neg hsign.2]
    cases s with
    | nil => exact hx
    | cons v s =>
        obtain ⟨h₁, h₂, h₃, h₄, h₅, h₆⟩ := hbase v List.mem_cons_self
        dsimp only
        rw [if_neg (by tauto), if_neg (by tauto), if_neg (by tauto)]
        exact hx

end Js

namespace Js

/-- No control character. -/
def Printable (u : CodeUnit) : Prop := 32 ≤ u.val

instance : DecidablePred Printable := fun u => inferInstanceAs (Decidable (32 ≤ u.val))

theorem printable_of_all {s : Str} (h : s.all (fun u => decide (Printable u)) = true) :
    ∀ v ∈ s, Printable v :=
  fun v hv => of_decide_eq_true (List.all_eq_true.1 h v hv)

theorem printable_hexDigit (n : ℕ) : Printable (hexDigit (n % 16)) := by
  have hval := hexDigit_val (Nat.mod_lt n (by decide : 0 < 16))
  rw [Printable, hval]
  split <;> omega

theorem printable_of_mem_unicodeEscape {u v : CodeUnit} (h : v ∈ unicodeEscape u) :
    Printable v := by
  simp only [unicodeEscape, List.mem_cons, List.not_mem_nil, or_false] at h
  rcases h with rfl | rfl | rfl | rfl | rfl | rfl
  · decide
  · decide
  all_goals exact printable_hexDigit _

theorem printable_of_mem_escapeUnit {u v : CodeUnit} (h : v ∈ escapeUnit u) : Printable v := by
  unfold escapeUnit at h
  split at h
  · next c hc =>
      have hall : shortEscapes.all (fun p => decide (Printable p.2)) = true := by decide
      rcases List.mem_cons.1 h with rfl | h
      · decide
      · exact List.mem_singleton.1 h ▸
          of_decide_eq_true (List.all_eq_true.1 hall _ (mem_shortEscapes hc))
  · split at h
    · exact printable_of_mem_unicodeEscape h
    · next hlow => exact List.mem_singleton.1 h ▸ not_lt.1 hlow

theorem printable_of_mem_quoteBody {s : Str} {paired : Bool} {v : CodeUnit}
    (h : v ∈ quoteBody paired s) : Printable v := by
  -- half of a pair stands for itself if the other half is there, and is escaped otherwise
  have hraw : ∀ (b : Bool) (u : CodeUnit), Printable u → v ∈ (if b then [u] else unicodeEscape u) →
      Printable v := by
    intro b u hu hv
    cases b with
    | true => exact List.mem_singleton.1 hv ▸ hu
    | false => exact printable_of_mem_unicodeEscape hv
  induction s generalizing paired with
  | nil => cases h
  | cons u s ih =>
      unfold quoteBody at h
      by_cases hhigh : isHighSurrogate u = true
      · rw [if_pos hhigh] at h
        have hu := of_decide_eq_true hhigh
        rcases List.mem_append.1 h with h | h
        · exact hraw (startsLow s) u (le_trans (by decide) hu.1) h
        · exact ih h
      · rw [if_neg hhigh] at h
        by_cases hlow : isLowSurrogate u = true
        · rw [if_pos hlow] at h
          have hu := of_decide_eq_true hlow
          rcases List.mem_append.1 h with h | h
          · exact hraw paired u (le_trans (by decide) hu.1) h
          · exact ih h
        · rw [if_neg hlow] at h
          rcases List.mem_append.1 h with h | h
          · exact printable_of_mem_escapeUnit h
          · exact ih h

/-- A quoted string has no control character. -/
theorem printable_of_mem_quote {s : Str} {v : CodeUnit} (h : v ∈ quote s) : Printable v := by
  rcases List.mem_cons.1 h with rfl | h
  · decide
  · rcases List.mem_append.1 h with h | h
    · exact printable_of_mem_quoteBody h
    · exact List.mem_singleton.1 h ▸ by decide

theorem printable_of_isNumeral {u : CodeUnit} (h : IsNumeral u) : Printable u := by
  obtain h | rfl | rfl | rfl | rfl := h
  · have hval := of_decide_eq_true h
    exact le_trans (by decide) hval.1
  all_goals decide

namespace Json

theorem printable_of_mem_commaJoin {l : List Str} (hl : ∀ s ∈ l, ∀ u ∈ s, Printable u)
    {v : CodeUnit} (h : v ∈ commaJoin l) : Printable v := by
  induction l with
  | nil => cases h
  | cons s l ih =>
      cases l with
      | nil => exact hl s List.mem_cons_self v h
      | cons t l =>
          rcases List.mem_append.1 h with h | h
          · exact hl s List.mem_cons_self v h
          · rcases List.mem_cons.1 h with rfl | h
            · decide
            · exact ih (fun r hr => hl r (List.mem_cons_of_mem _ hr)) h

/-- **The text of a value has no control character.** -/
theorem printable_of_mem_stringify (j : Json) : ∀ v ∈ stringify j, Printable v := by
  induction j using induct with
  | null => exact printable_of_all (s := lit "null") (by decide)
  | bool b =>
      cases b with
      | true => exact printable_of_all (s := lit "true") (by decide)
      | false => exact printable_of_all (s := lit "false") (by decide)
  | num x => exact fun v hv => printable_of_isNumeral (Decimal.mem_toStr hv)
  | str s => exact fun v hv => printable_of_mem_quote hv
  | arr xs ih =>
      intro v hv
      rcases List.mem_cons.1 hv with rfl | hv
      · decide
      · rcases List.mem_append.1 hv with hv | hv
        · refine printable_of_mem_commaJoin (fun s hs => ?_) hv
          rw [itemTexts_eq_map] at hs
          obtain ⟨x, hx, rfl⟩ := List.mem_map.1 hs
          exact ih x hx
        · exact List.mem_singleton.1 hv ▸ by decide
  | obj fs ih =>
      intro v hv
      rcases List.mem_cons.1 hv with rfl | hv
      · decide
      · rcases List.mem_append.1 hv with hv | hv
        · refine printable_of_mem_commaJoin (fun s hs u hu => ?_) hv
          rw [fieldTexts_eq_map] at hs
          obtain ⟨p, hp, rfl⟩ := List.mem_map.1 hs
          rcases List.mem_append.1 hu with hu | hu
          · exact printable_of_mem_quote hu
          · rcases List.mem_cons.1 hu with rfl | hu
            · decide
            · exact ih p hp u hu
        · exact List.mem_singleton.1 hv ▸ by decide

end Json
end Js
