/-
**Strings of code points.**

The strings of the Python sources: lists of code points, compared one after the other.

Main definitions:

* `Py.Str` — a string, with its order, `append` and `removePrefix?`;
* `Py.Str.strip`, `Py.Str.split` — a string without a character at its ends, and the parts between
  the places where the character stands;
* `Py.Str.outer` — how often a string begins and ends with a character;
* `Py.truthy` — a string that is there and not empty;
* `Py.roundHalfEven` — `round`, which takes a number half way between two integers to the even one.

Main results:

* `Py.Str.stamp_inj` — a number can be read off a text in which an underscore follows it;
* `Py.Str.split_eq` — **stripping a string takes the empty parts at its ends away**.
-/
import Endendend.Foundation.JoinedKeys
import Mathlib.Data.List.DropRight
import Mathlib.Data.List.Lex
import Mathlib.Data.Rat.Floor

set_option relaxedAutoImplicit false
set_option autoImplicit false

namespace Py

/-- A string, as the list of its code points. -/
structure Str where
  codePoints : List ℕ

namespace Str

instance : Coe String Str := ⟨fun s => ⟨s.toList.map Char.toNat⟩⟩

theorem codePoints_injective : Function.Injective codePoints := by
  rintro ⟨a⟩ ⟨b⟩ h
  exact congrArg mk h

instance : LinearOrder Str := LinearOrder.lift' codePoints codePoints_injective

/-- The empty string, which counts as false. -/
def empty : Str := ⟨[]⟩

def append (s t : Str) : Str := ⟨s.codePoints ++ t.codePoints⟩

instance : Append Str := ⟨append⟩

/-- What follows a prefix, if the string starts with it. -/
def removePrefix? (s p : Str) : Option Str :=
  if p.codePoints.isPrefixOf s.codePoints then some ⟨s.codePoints.drop p.codePoints.length⟩
  else none

@[simp] theorem codePoints_append (s t : Str) :
    (s ++ t).codePoints = s.codePoints ++ t.codePoints := rfl

/-- The text of an integer. -/
def ofInt (n : ℤ) : Str := (toString n : String)

/-- The number that a list of digits stands for. -/
def digitsValue (ds : List Char) : ℕ := ds.foldl (fun n d => 10 * n + (d.toNat - 48)) 0

theorem digitsValue_toDigits (n : ℕ) : digitsValue (Nat.toDigits 10 n) = n := by
  induction n using Nat.strong_induction_on with
  | h n ih =>
      have hdigit : ∀ d < 10, d.digitChar.toNat - 48 = d := by decide
      have hlast : n % 10 < 10 := Nat.mod_lt n (by decide)
      by_cases hn : n < 10
      · rw [Nat.toDigits_of_lt_base hn]
        exact (Nat.zero_add _).trans (hdigit n hn)
      · have hsplit : 10 * (n / 10) + n % 10 = n := Nat.div_add_mod n 10
        have hdigits :
            Nat.toDigits 10 n = Nat.toDigits 10 (n / 10) ++ Nat.toDigits 10 (n % 10) := by
          rw [Nat.toDigits_append_toDigits (by decide) (by omega) hlast, hsplit]
        have hvalue : digitsValue (Nat.toDigits 10 n) =
            10 * digitsValue (Nat.toDigits 10 (n / 10)) + ((n % 10).digitChar.toNat - 48) := by
          rw [hdigits, Nat.toDigits_of_lt_base hlast]
          exact List.foldl_append
        rw [hvalue, ih (n / 10) (by omega), hdigit _ hlast, hsplit]

theorem codePoints_ofInt (n : ℕ) : (ofInt n).codePoints = (Nat.toDigits 10 n).map Char.toNat := by
  show (Nat.repr n).toList.map Char.toNat = _
  rw [Nat.toList_repr]

/-- **A number can be read off a text in which an underscore follows it.** -/
theorem stamp_inj {p s t : Str} {m n : ℕ} :
    p ++ ofInt m ++ "_" ++ s = p ++ ofInt n ++ "_" ++ t ↔ m = n ∧ s = t := by
  constructor
  · intro h
    have hno : ∀ n, 95 ∉ (Nat.toDigits 10 n).map Char.toNat := by
      intro n hmem
      obtain ⟨d, hd, hd95⟩ := List.mem_map.1 hmem
      obtain rfl : d = '_' := Char.toNat_inj.1 hd95
      exact Nat.underscore_not_in_toDigits hd
    have hpoints := congrArg codePoints h
    simp only [codePoints_append, codePoints_ofInt, List.append_assoc] at hpoints
    obtain ⟨hdigits, hrest⟩ := JoinedKeys.append_cons_inj_left (hno m) (hno n)
      (List.append_cancel_left hpoints)
    have hsame := List.map_injective_iff.2 (fun _ _ h => Char.toNat_inj.1 h) hdigits
    have hvalue := congrArg digitsValue hsame
    rw [digitsValue_toDigits, digitsValue_toDigits] at hvalue
    exact ⟨hvalue, codePoints_injective hrest⟩
  · rintro ⟨rfl, rfl⟩
    rfl

/-! ### Stripping and splitting -/

/-- `s.strip(c)` -/
def strip (s : Str) (c : ℕ) : Str := ⟨(s.codePoints.dropWhile (· == c)).rdropWhile (· == c)⟩

/-- `s.split(c)` -/
def split (s : Str) (c : ℕ) : List Str := (s.codePoints.splitOn c).map mk

/-- How often a string begins and, after that, ends with a character. -/
def outer (s : Str) (c : ℕ) : ℕ × ℕ :=
  ((s.codePoints.takeWhile (· == c)).length,
    ((s.codePoints.dropWhile (· == c)).rtakeWhile (· == c)).length)

theorem split_ne_nil (s : Str) (c : ℕ) : s.split c ≠ [] := by
  rw [split, Ne, List.map_eq_nil_iff]
  exact List.splitOn_ne_nil c s.codePoints

/-- A string, cut into what it begins with, the rest, and what it ends with. -/
theorem codePoints_eq (s : Str) (c : ℕ) :
    s.codePoints = List.replicate (s.outer c).1 c ++
      ((s.strip c).codePoints ++ List.replicate (s.outer c).2 c) := by
  have hfront : s.codePoints.takeWhile (· == c) =
      List.replicate (s.codePoints.takeWhile (· == c)).length c :=
    List.eq_replicate_iff.2 ⟨rfl, fun x hx =>
      eq_of_beq (List.mem_takeWhile_imp (p := (· == c)) hx)⟩
  have hback : (s.codePoints.dropWhile (· == c)).rtakeWhile (· == c) =
      List.replicate ((s.codePoints.dropWhile (· == c)).rtakeWhile (· == c)).length c :=
    List.eq_replicate_iff.2 ⟨rfl, fun x hx =>
      eq_of_beq (List.mem_rtakeWhile_imp (p := (· == c)) hx)⟩
  rw [outer, strip, ← hfront, ← hback, List.rdropWhile_append_rtakeWhile,
    List.takeWhile_append_dropWhile]

theorem splitOn_replicate_append (c n : ℕ) (l : List ℕ) :
    (List.replicate n c ++ l).splitOn c = List.replicate n [] ++ l.splitOn c := by
  induction n with
  | zero => rfl
  | succ n ih =>
      rw [List.replicate_succ, List.cons_append, List.splitOn_cons_eq_if_modifyHead,
        if_pos (beq_self_eq_true c), ih, List.replicate_succ, List.cons_append]

theorem splitOn_append_replicate (c n : ℕ) (l : List ℕ) :
    (l ++ List.replicate n c).splitOn c = l.splitOn c ++ List.replicate n [] := by
  induction n generalizing l with
  | zero => rw [List.replicate_zero, List.append_nil, List.replicate_zero, List.append_nil]
  | succ n ih =>
      rw [List.replicate_succ, List.append_cons, ih, List.splitOn_append_cons_self,
        List.splitOn_nil, List.replicate_succ, ← List.append_cons]

/-- **Stripping a string takes the empty parts at its ends away.** -/
theorem split_eq (s : Str) (c : ℕ) :
    s.split c = List.replicate (s.outer c).1 empty ++
      ((s.strip c).split c ++ List.replicate (s.outer c).2 empty) := by
  have hempty : ∀ n, (List.replicate n []).map mk = List.replicate n empty := fun n =>
    List.map_replicate
  rw [split, codePoints_eq s c, splitOn_replicate_append, splitOn_append_replicate,
    List.map_append, List.map_append, hempty, hempty]
  rfl

end Str

/-- Does an optional string count as true? -/
def truthy (s : Option Str) : Bool := s.any (· ≠ Str.empty)

/-- Rounds to the nearest integer, and half way between two of them to the even one. -/
def roundHalfEven (x : ℚ) : ℤ :=
  if x - ⌊x⌋ < 1 / 2 then ⌊x⌋
  else if x - ⌊x⌋ > 1 / 2 then ⌊x⌋ + 1
  else if ⌊x⌋ % 2 = 0 then ⌊x⌋
  else ⌊x⌋ + 1

end Py
