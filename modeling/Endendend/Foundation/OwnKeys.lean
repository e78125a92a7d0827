/-
**The order in which an object lists its keys.**

`Object.keys`, `Object.values` and `JSON.stringify` list the array indices among the keys first, in
increasing order, and then the other keys in the order of their insertion.

Main definitions:

* `Js.arrayIndex` — the array index a key is, if it is one;
* `Js.ownOrder` — entries in the order the object lists them;
* `Js.plainAssign` — the entries of an object literal after `out[key] = value` for each of them: the
  key `__proto__` sets no property.

Main results:

* `Js.ownOrder_perm` — an object lists each entry once.
-/
import Endendend.Foundation.Json
import Endendend.Foundation.OrderedMap

set_option relaxedAutoImplicit false
set_option autoImplicit false

namespace Js

/-- The array index a key is: a numeral without leading zeros below `2 ^ 32 - 1`. -/
def arrayIndex (k : Str) : Option ℕ :=
  let value := Decimal.ofDigits (k.map fun u => u.val - 48)
  if k ≠ [] ∧ k.all Decimal.isDigit ∧ (k.head? = some (unit '0') → k.length = 1) ∧
      value < 2 ^ 32 - 1 then
    some value
  else none

/-- The order of the array indices. -/
def IndexLe {α : Type*} (p q : Str × α) : Prop :=
  (arrayIndex p.1).getD 0 ≤ (arrayIndex q.1).getD 0

instance {α : Type*} : DecidableRel (@IndexLe α) :=
  fun p q => inferInstanceAs (Decidable ((arrayIndex p.1).getD 0 ≤ (arrayIndex q.1).getD 0))

/-- Entries in the order the object lists them. -/
def ownOrder {α : Type*} (l : List (Str × α)) : List (Str × α) :=
  (l.filter fun p => (arrayIndex p.1).isSome).insertionSort IndexLe ++
    l.filter fun p => !(arrayIndex p.1).isSome

/-- **An object lists each entry once.** -/
theorem ownOrder_perm {α : Type*} (l : List (Str × α)) : (ownOrder l).Perm l :=
  ((List.perm_insertionSort _ _).append_right _).trans (List.filter_append_perm _ l)

theorem nodup_ownOrder {α : Type*} {l : List (Str × α)} (h : (l.map Prod.fst).Nodup) :
    ((ownOrder l).map Prod.fst).Nodup :=
  ((ownOrder_perm l).map Prod.fst).nodup_iff.2 h

/-- Listing the entries in another order changes no value. -/
theorem getList_ownOrder {α : Type*} (k : Str) {l : List (Str × α)} (h : (l.map Prod.fst).Nodup) :
    OrderedMap.getList k (ownOrder l) = OrderedMap.getList k l := by
  refine Option.ext fun v => ?_
  rw [← OrderedMap.mem_iff_getList (nodup_ownOrder h), ← OrderedMap.mem_iff_getList h,
    (ownOrder_perm l).mem_iff]

/-- The order depends on the keys alone. -/
theorem ownOrder_map {α β : Type*} (f : Str × α → β) (l : List (Str × α)) :
    ownOrder (l.map fun p => (p.1, f p)) = (ownOrder l).map fun p => (p.1, f p) := by
  unfold ownOrder
  rw [List.filter_map, List.filter_map, List.map_append,
    List.map_insertionSort IndexLe IndexLe (fun p : Str × α => (p.1, f p)) _
      fun _ _ _ _ => Iff.rfl]
  rfl

/-- The entries that assignments to a new object leave. -/
def plainAssign {α : Type*} (l : List (Str × α)) : List (Str × α) :=
  ownOrder (l.filter fun p => p.1 ≠ lit "__proto__")

end Js
