/-
**The deterministic JSON of the Tashi backend** (`stableStringify` of
`shared/tashi-mission-map-machine.ts` and `shared/tashi-task-bidding-recovery.ts`).

Values are rebuilt with sorted keys and then printed.  They are trees here, so no reference is met
twice.

Main definitions:

* `Tashi.helper`, `Tashi.stableStringify`.

Main results:

* `Tashi.helper_eq_of_stableStringify_eq` — the text determines the rebuilt value;
* `Tashi.mem_helperFields_of_stableStringify_eq` — the text of an object determines its fields;
* `Tashi.stableStringify_strings_injective` — it determines a list of strings.
-/
import Endendend.Foundation.OwnKeys

set_option relaxedAutoImplicit false
set_option autoImplicit false

namespace Tashi

open Js

mutual

/-- The value rebuilt, with the keys of every object assigned in sorted order. -/
def helper : Json → Json
  | .arr xs => .arr (helperItems xs)
  | .obj fs => .obj (plainAssign ((helperFields fs).insertionSort Json.KeyLe))
  | .null => .null
  | .bool b => .bool b
  | .num x => .num x
  | .str s => .str s

def helperItems : List Json → List Json
  | [] => []
  | x :: xs => helper x :: helperItems xs

def helperFields : List (Str × Json) → List (Str × Json)
  | [] => []
  | (k, v) :: fs => (k, helper v) :: helperFields fs

end

/-- The text of the rebuilt value. -/
def stableStringify (value : Json) : Str := (helper value).stringify

/-- **The text determines the rebuilt value.** -/
theorem helper_eq_of_stableStringify_eq {v w : Json} (h : stableStringify v = stableStringify w) :
    helper v = helper w :=
  Json.stringify_injective h

theorem helperFields_eq_map (fs : List (Str × Json)) :
    helperFields fs = fs.map fun p => (p.1, helper p.2) := by
  induction fs with
  | nil => rfl
  | cons p fs ih => rw [helperFields, ih, List.map_cons]

/-- **The text of an object determines its fields**, as they are rebuilt. -/
theorem mem_helperFields_of_stableStringify_eq {fs gs : List (Str × Json)}
    (h : stableStringify (.obj fs) = stableStringify (.obj gs)) {k : Str} {v : Json}
    (hk : k ≠ lit "__proto__") (hv : (k, v) ∈ helperFields fs) : (k, v) ∈ helperFields gs := by
  have hobj := helper_eq_of_stableStringify_eq h
  simp only [helper, Json.obj.injEq] at hobj
  have hmem : ∀ l : List (Str × Json),
      (k, v) ∈ plainAssign (l.insertionSort Json.KeyLe) ↔ (k, v) ∈ l := by
    intro l
    rw [plainAssign, (ownOrder_perm _).mem_iff, List.mem_filter,
      (List.perm_insertionSort _ _).mem_iff]
    simp [hk]
  rw [← hmem, ← hobj, hmem]
  exact hv

theorem helperItems_map_str (xs : List Str) :
    helperItems (xs.map Json.str) = xs.map Json.str := by
  induction xs with
  | nil => rfl
  | cons x xs ih => rw [List.map_cons, helperItems, ih, helper]

/-- The text determines a list of strings. -/
theorem stableStringify_strings_injective :
    Function.Injective fun xs : List Str => stableStringify (.arr (xs.map .str)) := by
  intro xs ys h
  have hv := helper_eq_of_stableStringify_eq h
  simp only [helper, helperItems_map_str, Json.arr.injEq] at hv
  exact List.map_injective_iff.2 (fun s t hst => Json.str.inj hst) hv

end Tashi
