/-
**JavaScript strings and their JSON quotation.**

A string is the list of its UTF-16 code units, which is what the language compares, sorts and
concatenates.  Lone surrogates are strings like any other, and `JSON.stringify` escapes them.

Main definitions:

* `Js.Str`, `Js.lit` — strings, and the string of a source literal;
* `Js.quote` — what `JSON.stringify` prints for a string.

Main results:

* `Js.quote_append_inj` — **a quoted string ends where it ends**: from a text that starts with a
  quoted string both the string and the rest of the text can be read off.
-/
import Mathlib.Data.List.Lex
import Mathlib.Data.Fin.Basic
import Mathlib.Order.Fin.Basic

set_option relaxedAutoImplicit false
set_option autoImplicit false

namespace Js

/-- A UTF-16 code unit. -/
abbrev CodeUnit := Fin 65536

/-- The code unit with a number. -/
def codeUnit (n : ℕ) : CodeUnit := Fin.ofNat _ n

/-- A string: its UTF-16 code units, ordered as the language orders strings. -/
abbrev Str := List CodeUnit

/-- Membership in a list of strings is decided by comparing code units. -/
instance : LawfulBEq Str := inferInstance

/-- The code units of one character. -/
def utf16 (c : Char) : Str :=
  if c.toNat < 0x10000 then [Fin.ofNat _ c.toNat]
  else
    [Fin.ofNat _ (0xD800 + (c.toNat - 0x10000) / 0x400),
      Fin.ofNat _ (0xDC00 + (c.toNat - 0x10000) % 0x400)]

/-- The string of a source literal. -/
def lit (s : String) : Str := s.toList.flatMap utf16

instance : Coe String Str := ⟨lit⟩

/-- The code unit of an ASCII character. -/
def unit (c : Char) : CodeUnit := Fin.ofNat _ c.toNat

/-! ### Escapes -/

/-- A lower-case hexadecimal digit. -/
def hexDigit (d : ℕ) : CodeUnit := if d < 10 then Fin.ofNat _ (48 + d) else Fin.ofNat _ (87 + d)

theorem hexDigit_val {d : ℕ} (h : d < 16) :
    (hexDigit d).val = if d < 10 then 48 + d else 87 + d := by
  unfold hexDigit
  split <;> simp only [Fin.ofNat] <;> omega

theorem hexDigit_inj {d e : ℕ} (hd : d < 16) (he : e < 16) (h : hexDigit d = hexDigit e) :
    d = e := by
  have := congrArg Fin.val h
  rw [hexDigit_val hd, hexDigit_val he] at this
  split at this <;> split at this <;> omega

/-- `\u` and the four hexadecimal digits of a code unit. -/
def unicodeEscape (u : CodeUnit) : Str :=
  [unit '\\', unit 'u', hexDigit (u.val / 4096 % 16), hexDigit (u.val / 256 % 16),
    hexDigit (u.val / 16 % 16), hexDigit (u.val % 16)]

/-- The code units with a short escape, and the letters of the escapes. -/
def shortEscapes : List (CodeUnit × CodeUnit) :=
  [(8, unit 'b'), (9, unit 't'), (10, unit 'n'), (12, unit 'f'), (13, unit 'r'),
    (34, unit '"'), (92, unit '\\')]

/-- The letter of a short escape, for the code units that have one. -/
def shortEscape (u : CodeUnit) : Option CodeUnit := shortEscapes.lookup u

/-- How a code unit that is no surrogate is printed inside quotes. -/
def escapeUnit (u : CodeUnit) : Str :=
  match shortEscape u with
  | some c => [unit '\\', c]
  | none => if u.val < 32 then unicodeEscape u else [u]

def isHighSurrogate (u : CodeUnit) : Bool := decide (0xD800 ≤ u.val ∧ u.val ≤ 0xDBFF)

def isLowSurrogate (u : CodeUnit) : Bool := decide (0xDC00 ≤ u.val ∧ u.val ≤ 0xDFFF)

/-- Does the text start with a low surrogate? -/
def startsLow : Str → Bool
  | [] => false
  | u :: _ => isLowSurrogate u

/-- The text between the quotes.  `paired` says that the unit before was a high surrogate, so that
a low surrogate here completes a character; a surrogate without its partner is escaped. -/
def quoteBody (paired : Bool) : Str → Str
  | [] => []
  | u :: s =>
    if isHighSurrogate u then
      (if startsLow s then [u] else unicodeEscape u) ++ quoteBody true s
    else if isLowSurrogate u then
      (if paired then [u] else unicodeEscape u) ++ quoteBody false s
    else escapeUnit u ++ quoteBody false s

/-- What `JSON.stringify` prints for a string. -/
def quote (s : Str) : Str := unit '"' :: (quoteBody false s ++ [unit '"'])

/-! ### Reading a quoted string back -/

/-- The ways a code unit is printed inside quotes. -/
inductive Chunk (u : CodeUnit) : Str → Prop
  | raw (hq : u ≠ unit '"') (hb : u ≠ unit '\\') : Chunk u [u]
  | short {c : CodeUnit} (h : shortEscape u = some c) : Chunk u [unit '\\', c]
  | hex : Chunk u (unicodeEscape u)

theorem unicodeEscape_inj {u v : CodeUnit} (h : unicodeEscape u = unicodeEscape v) : u = v := by
  simp only [unicodeEscape, List.cons.injEq, and_true, true_and] at h
  obtain ⟨h₃, h₂, h₁, h₀⟩ := h
  have e₃ := hexDigit_inj (Nat.mod_lt _ (by decide)) (Nat.mod_lt _ (by decide)) h₃
  have e₂ := hexDigit_inj (Nat.mod_lt _ (by decide)) (Nat.mod_lt _ (by decide)) h₂
  have e₁ := hexDigit_inj (Nat.mod_lt _ (by decide)) (Nat.mod_lt _ (by decide)) h₁
  have e₀ := hexDigit_inj (Nat.mod_lt _ (by decide)) (Nat.mod_lt _ (by decide)) h₀
  have hu := u.isLt
  have hv := v.isLt
  exact Fin.ext (by omega)

theorem mem_shortEscapes {u c : CodeUnit} (h : shortEscape u = some c) :
    (u, c) ∈ shortEscapes := by
  unfold shortEscape at h
  obtain ⟨l, r, hlr, -⟩ := List.lookup_eq_some_iff.1 h
  exact hlr ▸ List.mem_append_right l List.mem_cons_self

theorem shortEscape_inj {u v c : CodeUnit} (hu : shortEscape u = some c)
    (hv : shortEscape v = some c) : u = v := by
  have hall : (shortEscapes.all fun p =>
      shortEscapes.all fun q => p.2 ≠ q.2 ∨ p.1 = q.1) = true := by
    decide
  simp only [List.all_eq_true, decide_eq_true_eq] at hall
  exact (hall _ (mem_shortEscapes hu) _ (mem_shortEscapes hv)).resolve_left fun h => h rfl

theorem shortEscape_ne_u {u c : CodeUnit} (h : shortEscape u = some c) : c ≠ unit 'u' := by
  have hall : (shortEscapes.all fun p => p.2 ≠ unit 'u') = true := by decide
  simp only [List.all_eq_true, decide_eq_true_eq] at hall
  exact hall _ (mem_shortEscapes h)

theorem chunk_escapeUnit (u : CodeUnit) : Chunk u (escapeUnit u) := by
  unfold escapeUnit
  cases h : shortEscape u with
  | some c => exact .short h
  | none =>
      simp only
      split
      · exact .hex
      · refine .raw ?_ ?_ <;> rintro rfl <;> revert h <;> decide

theorem quoteBody_cons (paired : Bool) (u : CodeUnit) (s : Str) :
    quoteBody paired (u :: s) =
      if isHighSurrogate u then
        (if startsLow s then [u] else unicodeEscape u) ++ quoteBody true s
      else if isLowSurrogate u then
        (if paired then [u] else unicodeEscape u) ++ quoteBody false s
      else escapeUnit u ++ quoteBody false s := rfl

theorem chunk_quoteBody (paired : Bool) (u : CodeUnit) (s : Str) :
    ∃ c p, Chunk u c ∧ quoteBody paired (u :: s) = c ++ quoteBody p s := by
  have hraw : isHighSurrogate u = true ∨ isLowSurrogate u = true → Chunk u [u] := by
    intro h
    refine .raw ?_ ?_ <;> rintro rfl <;> revert h <;> decide
  rw [quoteBody_cons]
  by_cases hh : isHighSurrogate u = true
  · rw [if_pos hh]
    refine ⟨_, true, ?_, rfl⟩
    split
    · exact hraw (Or.inl hh)
    · exact .hex
  · rw [if_neg hh]
    by_cases hl : isLowSurrogate u = true
    · rw [if_pos hl]
      refine ⟨_, false, ?_, rfl⟩
      split
      · exact hraw (Or.inr hl)
      · exact .hex
    · rw [if_neg hl]
      exact ⟨_, false, chunk_escapeUnit u, rfl⟩

/-- A printed code unit can be told from what follows it. -/
theorem Chunk.append_inj {u v : CodeUnit} {c d r r' : Str} (hc : Chunk u c) (hd : Chunk v d)
    (h : c ++ r = d ++ r') : u = v ∧ r = r' := by
  cases hc with
  | raw hq hb =>
      cases hd with
      | raw _ _ => simpa using h
      | short _ => exact absurd (List.cons.inj h).1 hb
      | hex => exact absurd (List.cons.inj h).1 hb
  | @short c hc =>
      cases hd with
      | raw _ hb => exact absurd (List.cons.inj h).1.symm hb
      | short hd =>
          simp only [List.cons_append, List.nil_append, List.cons.injEq, true_and] at h
          obtain ⟨rfl, hr⟩ := h
          exact ⟨shortEscape_inj hc hd, hr⟩
      | hex =>
          simp only [unicodeEscape, List.cons_append, List.cons.injEq, true_and] at h
          exact absurd h.1 (shortEscape_ne_u hc)
  | hex =>
      cases hd with
      | raw _ hb => exact absurd (List.cons.inj h).1.symm hb
      | short hd =>
          simp only [unicodeEscape, List.cons_append, List.cons.injEq, true_and] at h
          exact absurd h.1.symm (shortEscape_ne_u hd)
      | hex =>
          obtain ⟨he, hr⟩ := List.append_inj h rfl
          exact ⟨unicodeEscape_inj he, hr⟩

/-- No printed code unit starts with the closing quote. -/
theorem Chunk.ne_quote {u : CodeUnit} {c : Str} (hc : Chunk u c) :
    ∃ x y, c = x :: y ∧ x ≠ unit '"' := by
  cases hc with
  | raw hq _ => exact ⟨_, _, rfl, hq⟩
  | short _ => exact ⟨_, _, rfl, by decide⟩
  | hex => exact ⟨_, _, rfl, by decide⟩

theorem quoteBody_append_inj {p q : Bool} {s t r r' : Str}
    (h : quoteBody p s ++ unit '"' :: r = quoteBody q t ++ unit '"' :: r') : s = t ∧ r = r' := by
  induction s generalizing p q t with
  | nil =>
      cases t with
      | nil => simpa [quoteBody] using h
      | cons v t =>
          obtain ⟨d, p', hd, he⟩ := chunk_quoteBody q v t
          obtain ⟨x, y, rfl, hx⟩ := hd.ne_quote
          rw [he] at h
          exact absurd (List.cons.inj h).1.symm hx
  | cons u s ih =>
      obtain ⟨c, p', hc, hcs⟩ := chunk_quoteBody p u s
      cases t with
      | nil =>
          obtain ⟨x, y, rfl, hx⟩ := hc.ne_quote
          rw [hcs] at h
          exact absurd (List.cons.inj h).1 hx
      | cons v t =>
          obtain ⟨d, q', hd, hdt⟩ := chunk_quoteBody q v t
          rw [hcs, hdt, List.append_assoc, List.append_assoc] at h
          obtain ⟨rfl, h⟩ := hc.append_inj hd h
          obtain ⟨rfl, hr⟩ := ih h
          exact ⟨rfl, hr⟩

/-- **A quoted string ends where it ends.** -/
theorem quote_append_inj {s t r r' : Str} (h : quote s ++ r = quote t ++ r') : s = t ∧ r = r' := by
  simp only [quote, List.cons_append, List.append_assoc, List.nil_append, List.cons.injEq,
    true_and] at h
  exact quoteBody_append_inj h

end Js
