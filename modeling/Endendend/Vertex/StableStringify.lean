/-
**The hash input of the mission ledger** (`vertex/hash-chain.ts`).

Main definitions:

* `Vertex.stableStringify` — JSON with the keys of every object sorted;
* `Vertex.sha256Hex` — the digest of a string as lower-case hexadecimal digits; the digest itself is
  the platform's and stays a parameter.

Main results:

* `Vertex.stableStringify_eq` — it prints the value with all keys sorted;
* `Vertex.same_of_stableStringify_eq` — **two values printed alike are the same up to the order of
  keys**;
* `Vertex.exists_field_of_stableStringify_eq` — the fields of two objects printed alike agree;
* `Vertex.bar_notMem_sha256Hex` — a digest contains no `|`.
-/
import Endendend.Foundation.Json

set_option relaxedAutoImplicit false
set_option autoImplicit false

namespace Vertex

open Js

/-! ### Sorted JSON -/

/-- The text of a field whose value is printed already. -/
def keyText (p : Str × Str) : Str := quote p.1 ++ unit ':' :: p.2

mutual

/-- Deterministic JSON for hashing: the keys of every object are sorted. -/
def stableStringify : Json → Str
  | .arr xs => unit '[' :: (commaJoin (stableItems xs) ++ [unit ']'])
  | .obj fs =>
      let parts := ((stableFields fs).insertionSort Json.KeyLe).map keyText
      unit '{' :: (commaJoin parts ++ [unit '}'])
  | .null => Json.stringify .null
  | .bool b => Json.stringify (.bool b)
  | .num x => Json.stringify (.num x)
  | .str s => Json.stringify (.str s)

def stableItems : List Json → List Str
  | [] => []
  | x :: xs => stableStringify x :: stableItems xs

def stableFields : List (Str × Json) → List (Str × Str)
  | [] => []
  | (k, v) :: fs => (k, stableStringify v) :: stableFields fs

end

theorem stableItems_eq_map (xs : List Json) : stableItems xs = xs.map stableStringify := by
  induction xs with
  | nil => rfl
  | cons x xs ih => rw [stableItems, ih, List.map_cons]

theorem stableFields_eq_map (fs : List (Str × Json)) :
    stableFields fs = fs.map fun p => (p.1, stableStringify p.2) := by
  induction fs with
  | nil => rfl
  | cons p fs ih => rw [stableFields, ih, List.map_cons]

/-- Sorting by keys does not look at the values. -/
theorem map_insertionSort_keyLe {α β : Type*} (f : α → β) (l : List (Str × α)) :
    (l.map fun p => (p.1, f p.2)).insertionSort Json.KeyLe =
      (l.insertionSort Json.KeyLe).map fun p => (p.1, f p.2) :=
  (List.map_insertionSort Json.KeyLe Json.KeyLe (fun p : Str × α => (p.1, f p.2)) l
    fun _ _ _ _ => Iff.rfl).symm

/-- **It prints the value with all keys sorted.** -/
theorem stableStringify_eq (v : Json) : stableStringify v = v.sortKeys.stringify := by
  induction v using Json.induct with
  | arr xs ih =>
      rw [stableStringify, stableItems_eq_map, Json.sortKeys, Json.sortItems_eq_map, Json.stringify,
        Json.itemTexts_eq_map, List.map_map, List.map_congr_left ih]
      rfl
  | obj fs ih =>
      have hfs : (fs.map fun p => (p.1, stableStringify p.2)) =
          (fs.map fun p => (p.1, p.2.sortKeys)).map fun p => (p.1, p.2.stringify) := by
        rw [List.map_map]
        exact List.map_congr_left fun p hp => by rw [ih p hp]; rfl
      rw [stableStringify, stableFields_eq_map, Json.sortKeys, Json.sortFields_eq_map,
        Json.stringify, Json.fieldTexts_eq_map, hfs, map_insertionSort_keyLe, List.map_map]
      rfl
  | _ => rfl

/-- **Two values printed alike are the same up to the order of keys.** -/
theorem same_of_stableStringify_eq {v w : Json} (h : stableStringify v = stableStringify w) :
    Json.Same v w := by
  rw [stableStringify_eq, stableStringify_eq] at h
  exact Json.same_of_sortKeys_eq _ _ (Json.stringify_injective h)

/-- **The fields of two objects that are printed alike agree**, up to the order of keys. -/
theorem exists_field_of_stableStringify_eq {fs gs : List (Str × Json)}
    (h : stableStringify (.obj fs) = stableStringify (.obj gs)) {k : Str} {v : Json}
    (hv : (k, v) ∈ fs) : ∃ w, (k, w) ∈ gs ∧ v.sortKeys = w.sortKeys := by
  rw [stableStringify_eq, stableStringify_eq] at h
  have hobj := Json.stringify_injective h
  simp only [Json.sortKeys, Json.obj.injEq, Json.sortFields_eq_map] at hobj
  have hmem : (k, v.sortKeys) ∈
      (fs.map fun p => (p.1, p.2.sortKeys)).insertionSort Json.KeyLe :=
    (List.mem_insertionSort _).2 (List.mem_map.2 ⟨(k, v), hv, rfl⟩)
  rw [hobj, List.mem_insertionSort] at hmem
  obtain ⟨⟨k', w⟩, hw, hkw⟩ := List.mem_map.1 hmem
  obtain ⟨rfl, hvw⟩ := Prod.mk.inj hkw
  exact ⟨w, hw, hvw.symm⟩

/-! ### Digests -/

/-- The two digits of a byte: `b.toString(16).padStart(2, "0")`. -/
def hexByte (b : UInt8) : Str := [hexDigit (b.toNat / 16), hexDigit (b.toNat % 16)]

/-- `crypto.subtle.digest("SHA-256", …)` of the encoded string, written in hexadecimal. -/
def sha256Hex (subtleDigest : Str → List UInt8) (input : Str) : Str :=
  (subtleDigest input).flatMap hexByte

theorem hexDigit_mem {d : ℕ} (h : d < 16) : hexDigit d ∈ lit "0123456789abcdef" := by
  have : ∀ d < 16, hexDigit d ∈ lit "0123456789abcdef" := by decide
  exact this d h

theorem mem_sha256Hex {subtleDigest : Str → List UInt8} {input : Str} {u : CodeUnit}
    (h : u ∈ sha256Hex subtleDigest input) : u ∈ lit "0123456789abcdef" := by
  obtain ⟨b, -, hu⟩ := List.mem_flatMap.1 h
  have hb : b.toNat < 256 := b.toNat_lt
  rcases List.mem_cons.1 hu with rfl | hu
  · exact hexDigit_mem (by omega)
  · rw [List.mem_singleton.1 hu]
    exact hexDigit_mem (by omega)

theorem bar_notMem_sha256Hex (subtleDigest : Str → List UInt8) (input : Str) :
    unit '|' ∉ sha256Hex subtleDigest input :=
  fun h => absurd (mem_sha256Hex h) (by decide)

/-- A digest is never the marker a chain starts from. -/
theorem sha256Hex_ne_genesis (subtleDigest : Str → List UInt8) (input : Str) :
    sha256Hex subtleDigest input ≠ lit "genesis" := by
  intro h
  have hg : unit 'g' ∈ sha256Hex subtleDigest input := h ▸ (by decide : unit 'g' ∈ lit "genesis")
  exact absurd (mem_sha256Hex hg) (by decide)

end Vertex
