/-
**Coercions of the language.**

What `String(v)` and `Number(v)` give on JSON values, and `trim` and `toLowerCase` on strings.
`Number` is modelled as far as `Number.isFinite` accepts its result: `NaN` and the infinities are
`none`, and the digits of a literal are not rounded.

Main definitions:

* `Js.trim`, `Js.toLowerCase` — on strings;
* `Js.Json.toText` — `String(v)`;
* `Js.numberOfText`, `Js.Json.toNumber` — `Number(v)`, if it is finite;
* `Js.Json.truthy` — whether `if (v)` takes the branch;
* `Js.nullish` — `v ?? d`.
-/
import Endendend.Foundation.Json

set_option relaxedAutoImplicit false
set_option autoImplicit false

namespace Js

/-! ### Strings -/

/-- White space and line terminators. -/
def isSpace (u : CodeUnit) : Bool :=
  decide (9 ≤ u.val ∧ u.val ≤ 13 ∨ 0x2000 ≤ u.val ∧ u.val ≤ 0x200A ∨
    u.val ∈ [0x20, 0xA0, 0x1680, 0x2028, 0x2029, 0x202F, 0x205F, 0x3000, 0xFEFF])

/-- The string without the white space at its ends. -/
def trim (s : Str) : Str := ((s.dropWhile isSpace).reverse.dropWhile isSpace).reverse

/-- Lower case, on the ASCII letters. -/
def toLowerCase (s : Str) : Str :=
  s.map fun u => if 65 ≤ u.val ∧ u.val ≤ 90 then codeUnit (u.val + 32) else u

/-- The letters and digits of the larger bases. -/
def digitValue (u : CodeUnit) : Option ℕ :=
  if 48 ≤ u.val ∧ u.val ≤ 57 then some (u.val - 48)
  else if 97 ≤ u.val ∧ u.val ≤ 102 then some (u.val - 87)
  else if 65 ≤ u.val ∧ u.val ≤ 70 then some (u.val - 55)
  else none

/-- The value of a non-empty string of digits of a base. -/
def digitsValue (base : ℕ) (s : Str) : Option ℕ :=
  if s = [] then none
  else
    s.foldlM (fun n u =>
      (digitValue u).bind fun d => if d < base then some (base * n + d) else none) 0

/-- The exponent that ends a decimal literal: nothing, or `e` and an integer. -/
def exponentOfText : Str → Option ℤ
  | [] => some 0
  | u :: s =>
    if u = unit 'e' ∨ u = unit 'E' then
      match s with
      | [] => none
      | v :: t =>
        if v = unit '-' then (digitsValue 10 t).map fun n => -(n : ℤ)
        else if v = unit '+' then (digitsValue 10 t).map Int.ofNat
        else (digitsValue 10 (v :: t)).map Int.ofNat
    else none

/-- A decimal literal without a sign. -/
def decimalOfText (s : Str) : Option Decimal :=
  let int := s.takeWhile Decimal.isDigit
  let rest := s.dropWhile Decimal.isDigit
  let frac := if rest.head? = some (unit '.') then rest.tail.takeWhile Decimal.isDigit else []
  let rest := if rest.head? = some (unit '.') then rest.tail.dropWhile Decimal.isDigit else rest
  match digitsValue 10 (int ++ frac), exponentOfText rest with
  | some n, some e => some (.mk' n (e - frac.length))
  | _, _ => none

/-- `Number(s)`, if it is finite. -/
def numberOfText (s : Str) : Option Decimal :=
  match trim s with
  | [] => some 0
  | u :: t =>
    if u = unit '-' then (decimalOfText t).map fun x => .mk' (-x.mantissa) x.exponent
    else if u = unit '+' then decimalOfText t
    else
      match t with
      | v :: r =>
        if u = unit '0' ∧ (v = unit 'x' ∨ v = unit 'X') then
          (digitsValue 16 r).map fun n => .ofInt n
        else if u = unit '0' ∧ (v = unit 'o' ∨ v = unit 'O') then
          (digitsValue 8 r).map fun n => .ofInt n
        else if u = unit '0' ∧ (v = unit 'b' ∨ v = unit 'B') then
          (digitsValue 2 r).map fun n => .ofInt n
        else decimalOfText (u :: t)
      | [] => decimalOfText (u :: t)

/-- The sum of two numbers. -/
def Decimal.add (x y : Decimal) : Decimal :=
  let e := min x.exponent y.exponent
  .mk' (x.scaled e + y.scaled e) e

/-- The sum of two numbers has the sum of their values. -/
theorem Decimal.val_add (x y : Decimal) : (x.add y).val = x.val + y.val := by
  rw [Decimal.add, val_mk', val_eq_scaled (min_le_left x.exponent y.exponent),
    val_eq_scaled (min_le_right x.exponent y.exponent)]
  push_cast
  ring

theorem Decimal.ofInt_add (m n : ℤ) : (ofInt m).add (ofInt n) = ofInt (m + n) := by
  refine val_injective ?_
  rw [val_add, ofInt, ofInt, ofInt, val_mk', val_mk', val_mk']
  push_cast
  ring

/-- `Math.floor`. -/
def Decimal.floor (x : Decimal) : Decimal := .ofInt ⌊x.val⌋

/-! ### Values -/

namespace Json

mutual

/-- `String(v)`. -/
def toText : Json → Str
  | null => "null"
  | bool true => "true"
  | bool false => "false"
  | num x => x.toStr
  | str s => s
  | arr xs => commaJoin (toTexts xs)
  | obj _ => "[object Object]"

/-- The items of an array as `join` prints them: `null` prints as nothing. -/
def toTexts : List Json → List Str
  | [] => []
  | null :: xs => [] :: toTexts xs
  | x :: xs => toText x :: toTexts xs

end

/-- `Number(v)`, if it is finite. -/
def toNumber : Json → Option Decimal
  | null => some 0
  | bool b => some (if b then 1 else 0)
  | num x => some x
  | str s => numberOfText s
  | arr xs => numberOfText (toText (arr xs))
  | obj _ => none

/-- Whether a condition on the value holds. -/
def truthy : Json → Bool
  | null => false
  | bool b => b
  | num x => x ≠ 0
  | str s => s ≠ []
  | arr _ => true
  | obj _ => true

end Json

/-- `v ?? d`. -/
def nullish (v : Option Json) (d : Json) : Json :=
  match v with
  | none => d
  | some .null => d
  | some v => v

example : numberOfText " 12.50e1 " = some 125 := by decide

example : numberOfText "0x1F" = some 31 := by decide

end Js
