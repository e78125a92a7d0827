/-
**JSON data in Python.**

A dictionary with string keys, the equality of JSON values, a file that was written with sorted keys
and read again, and deques with a greatest length.

Main definitions:

* `Js.OrderedMap.mapValues`, `Js.OrderedMap.sorted` — a map with other values, or with its keys in
  increasing order;
* `Py.canon`, `Py.canonDict` — what two values have in common exactly if `==` holds: a Boolean is a
  number, and the order of keys does not count;
* `Py.reread`, `Py.rereadDict` — what `json.loads` makes of the text with sorted keys;
* `Py.Deque` — a deque that drops its oldest items when it is full.

Main results:

* `Js.Json.same_sortKeys` — sorting the keys changes the order of keys only;
* `Js.OrderedMap.get?_present` — a field that may have no value is found if it has one;
* `Py.sameDict_reread` — **a dictionary that was written and read is the same dictionary**;
* `Py.get?_of_canonDict_eq` — equal dictionaries have equal values.
-/
import Endendend.Foundation.Json
import Endendend.Foundation.OrderedMap
import Mathlib.Data.Option.Basic

set_option relaxedAutoImplicit false
set_option autoImplicit false

namespace Js

namespace OrderedMap

variable {α β γ : Type*}

/-- The map with a function applied to its values. -/
def mapValues (f : β → γ) (m : OrderedMap α β) : OrderedMap α γ where
  entries := m.entries.map fun p => (p.1, f p.2)
  nodup := by
    rw [List.map_map]
    exact m.nodup

/-- The map with its keys in increasing order. -/
def sorted (m : OrderedMap Str β) : OrderedMap Str β where
  entries := m.entries.insertionSort Json.KeyLe
  nodup := ((List.perm_insertionSort Json.KeyLe m.entries).map Prod.fst).nodup_iff.2 m.nodup

theorem get?_mapValues [DecidableEq α] (f : β → γ) (m : OrderedMap α β) (k : α) :
    (m.mapValues f).get? k = (m.get? k).map f :=
  getList_map (fun _ => f) k m.entries

/-- The order of the entries does not matter for a lookup. -/
theorem getList_of_perm [DecidableEq α] {l l' : List (α × β)} (h : l.Perm l')
    (hl : (l.map Prod.fst).Nodup) (k : α) : getList k l = getList k l' := by
  refine Option.ext fun v => ?_
  rw [← mem_iff_getList hl, ← mem_iff_getList ((h.map Prod.fst).nodup_iff.1 hl), h.mem_iff]

@[simp] theorem get?_sorted (m : OrderedMap Str β) (k : Str) : m.sorted.get? k = m.get? k :=
  (getList_of_perm (List.perm_insertionSort Json.KeyLe m.entries).symm m.nodup k).symm

theorem mapValues_mapValues {δ : Type*} (f : β → γ) (g : γ → δ) (m : OrderedMap α β) :
    (m.mapValues f).mapValues g = m.mapValues (g ∘ f) := by
  simp only [mapValues, List.map_map]
  rfl

/-- The order of the keys does not depend on the values. -/
theorem sorted_mapValues (f : β → γ) (m : OrderedMap Str β) :
    (m.mapValues f).sorted = m.sorted.mapValues f := by
  have h := List.map_insertionSort Json.KeyLe Json.KeyLe (fun p : Str × β => (p.1, f p.2))
    m.entries fun _ _ _ _ => Iff.rfl
  simp only [sorted, mapValues, h]

/-- The fields that have a value. -/
def present (l : List (α × Option β)) : List (α × β) := l.filterMap fun p => p.2.map (p.1, ·)

theorem map_fst_present (l : List (α × Option β)) :
    ((present l).map Prod.fst).Sublist (l.map Prod.fst) := by
  induction l with
  | nil => exact List.Sublist.refl _
  | cons p l ih =>
      obtain ⟨k, v⟩ := p
      cases v with
      | none => exact ih.cons k
      | some v => exact ih.cons_cons k

/-- **A field that may have no value is found if it has one.** -/
theorem get?_present [DecidableEq α] {l : List (α × Option β)} (h : (l.map Prod.fst).Nodup)
    {k : α} {v : Option β} (hmem : (k, v) ∈ l) : (ofList (present l)).get? k = v := by
  have hnodup : ((present l).map Prod.fst).Nodup := h.sublist (map_fst_present l)
  refine Option.ext fun w => ?_
  constructor
  · intro hw
    obtain ⟨⟨k', v'⟩, hmem', heq⟩ := List.mem_filterMap.1 (mem_of_get?_ofList hw)
    obtain ⟨w', hw', heq⟩ := Option.map_eq_some_iff.1 heq
    obtain ⟨rfl, rfl⟩ := Prod.mk.inj heq
    -- a name stands for one field
    have hfield := List.inj_on_of_nodup_map h hmem hmem' rfl
    exact (Prod.mk.inj hfield).2.trans hw'
  · rintro rfl
    exact get?_ofList hnodup (List.mem_filterMap.2 ⟨(k, some w), hmem, rfl⟩)

end OrderedMap

namespace Json

instance : DecidableEq Json := fun _ _ => decidable_of_iff _ stringify_injective.eq_iff

/-- **Sorting the keys changes the order of keys only.** -/
theorem same_sortKeys (v : Json) : Same v (sortKeys v) := by
  induction v using induct with
  | null => exact .null
  | bool b => exact .bool b
  | num x => exact .num x
  | str s => exact .str s
  | arr xs ih =>
      rw [sortKeys, sortItems_eq_map]
      exact .arr (List.forall₂_map_right_iff.2 (List.forall₂_same.2 ih))
  | obj fs ih =>
      rw [sortKeys, sortFields_eq_map]
      -- the fields in the order of the sorted keys, but with their own values
      have hcomp : Relation.Comp (List.Forall₂ fun p q : Str × Json => p.1 = q.1 ∧ Same p.2 q.2)
          List.Perm fs ((fs.map fun p => (p.1, sortKeys p.2)).insertionSort KeyLe) := by
        refine ⟨fs.map fun p => (p.1, sortKeys p.2), ?_, (List.perm_insertionSort KeyLe _).symm⟩
        exact List.forall₂_map_right_iff.2 (List.forall₂_same.2 fun p hp => ⟨rfl, ih p hp⟩)
      rw [List.forall₂_comp_perm_eq_perm_comp_forall₂] at hcomp
      obtain ⟨hs, hp, hv⟩ := hcomp
      refine .obj hp ?_ (hv.imp fun _ _ h => h.2)
      exact List.forall₂_eq_eq_eq ▸ List.forall₂_map_left_iff.2
        (List.forall₂_map_right_iff.2 (hv.imp fun _ _ h => h.1))

instance {α : Type*} : Std.Total (KeyLe (α := α)) := ⟨fun p q => le_total p.1 q.1⟩

instance {α : Type*} : IsTrans (Str × α) KeyLe := ⟨fun _ _ _ => le_trans⟩

/-- Sorting the keys again changes nothing. -/
@[simp] theorem sortKeys_sortKeys (v : Json) : sortKeys (sortKeys v) = sortKeys v := by
  induction v using induct with
  | null => rfl
  | bool b => rfl
  | num x => rfl
  | str s => rfl
  | arr xs ih =>
      rw [sortKeys, sortKeys, sortItems_eq_map, sortItems_eq_map, List.map_map]
      exact congrArg arr (List.map_congr_left ih)
  | obj fs ih =>
      rw [sortKeys, sortKeys, sortFields_eq_map, sortFields_eq_map,
        List.map_insertionSort KeyLe KeyLe (fun p : Str × Json => (p.1, sortKeys p.2)) _
          fun _ _ _ _ => Iff.rfl, List.map_map]
      have hmap : fs.map ((fun p : Str × Json => (p.1, sortKeys p.2)) ∘
          fun p => (p.1, sortKeys p.2)) = fs.map fun p => (p.1, sortKeys p.2) :=
        List.map_congr_left fun p hp => Prod.ext rfl (ih p hp)
      rw [hmap, (List.pairwise_insertionSort KeyLe _).insertionSort_eq]

end Json

end Js

namespace Py

open Js (Json OrderedMap Decimal)
open Js.Json

/-- A dictionary with string keys. -/
abbrev Dict := OrderedMap Js.Str Json

/-- A dictionary as a value. -/
def Dict.toJson (d : Dict) : Json := .obj d.entries

/-- Whether a value counts as true. -/
def holds : Json → Bool
  | .null => false
  | .bool b => b
  | .num x => decide (x ≠ 0)
  | .str s => decide (s ≠ [])
  | .arr xs => !xs.isEmpty
  | .obj fs => !fs.isEmpty

/-! ### Equality -/

mutual

/-- The value with `True` and `False` as the numbers that they are equal to. -/
def numbered : Json → Json
  | .null => .null
  | .bool b => .num (Decimal.ofInt (if b then 1 else 0))
  | .num x => .num x
  | .str s => .str s
  | .arr xs => .arr (numberedItems xs)
  | .obj fs => .obj (numberedFields fs)

def numberedItems : List Json → List Json
  | [] => []
  | x :: xs => numbered x :: numberedItems xs

def numberedFields : List (Js.Str × Json) → List (Js.Str × Json)
  | [] => []
  | (k, v) :: fs => (k, numbered v) :: numberedFields fs

end

theorem numberedFields_eq_map (fs : List (Js.Str × Json)) :
    numberedFields fs = fs.map fun p => (p.1, numbered p.2) := by
  induction fs with
  | nil => rfl
  | cons p fs ih => rw [numberedFields, ih, List.map_cons]

/-- Two values are equal exactly if this is the same. -/
def canon (v : Json) : Json := sortKeys (numbered v)

/-- Two dictionaries are equal exactly if this is the same. -/
def canonDict (d : Dict) : Json := canon d.toJson

theorem canonDict_eq (d : Dict) : canonDict d = .obj (d.mapValues canon).sorted.entries := by
  rw [canonDict, canon, Dict.toJson, numbered, sortKeys, sortFields_eq_map, numberedFields_eq_map,
    List.map_map]
  rfl

/-- **Equal dictionaries have equal values.** -/
theorem get?_of_canonDict_eq {d e : Dict} (h : canonDict d = canonDict e) (k : Js.Str) :
    (d.get? k).map canon = (e.get? k).map canon := by
  rw [canonDict_eq, canonDict_eq] at h
  have hentries := congrArg (OrderedMap.getList k) (Json.obj.inj h)
  rw [← OrderedMap.get?_mapValues, ← OrderedMap.get?_mapValues, ← OrderedMap.get?_sorted,
    ← OrderedMap.get?_sorted (e.mapValues canon)]
  exact hentries

/-! ### Files -/

/-- What is read of a value that was written with sorted keys. -/
def reread (v : Json) : Json := sortKeys v

/-- What is read of a dictionary that was written with sorted keys. -/
def rereadDict (d : Dict) : Dict := (d.mapValues reread).sorted

theorem get?_rereadDict (d : Dict) (k : Js.Str) :
    (rereadDict d).get? k = (d.get? k).map reread := by
  rw [rereadDict, OrderedMap.get?_sorted, OrderedMap.get?_mapValues]

/-- What is read of a dictionary is a dictionary. -/
theorem reread_toJson (d : Dict) : reread d.toJson = (rereadDict d).toJson := by
  rw [reread, Dict.toJson, sortKeys, sortFields_eq_map]
  rfl

@[simp] theorem reread_reread (v : Json) : reread (reread v) = reread v := sortKeys_sortKeys v

theorem reread_arr (xs : List Json) : reread (.arr xs) = .arr (xs.map reread) := by
  rw [reread, sortKeys, sortItems_eq_map]
  rfl

/-- A dictionary of given fields is read with its keys in order. -/
theorem reread_ofList {l : List (Js.Str × Json)} (h : (l.map Prod.fst).Nodup) :
    reread (Dict.toJson (.ofList l)) =
      .obj ((l.map fun p => (p.1, reread p.2)).insertionSort KeyLe) := by
  rw [Dict.toJson, OrderedMap.entries_ofList h, reread, sortKeys, sortFields_eq_map]
  rfl

/-- **Dictionaries that are read alike have values that are read alike.** -/
theorem get?_of_reread_eq {d e : Dict} (h : reread d.toJson = reread e.toJson) (k : Js.Str) :
    (d.get? k).map reread = (e.get? k).map reread := by
  rw [reread_toJson, reread_toJson] at h
  have hentries : (rereadDict d).get? k = (rereadDict e).get? k :=
    congrArg (OrderedMap.getList k) (Json.obj.inj h)
  rwa [get?_rereadDict, get?_rereadDict] at hentries

/-- The same for a field that stands at the same place in both. -/
theorem reread_field_eq {l l' : List (Js.Str × Json)} (hl : (l.map Prod.fst).Nodup)
    (hl' : (l'.map Prod.fst).Nodup)
    (h : reread (Dict.toJson (.ofList l)) = reread (Dict.toJson (.ofList l'))) (n : ℕ)
    {k : Js.Str} {v v' : Json} (hv : l[n]? = some (k, v)) (hv' : l'[n]? = some (k, v')) :
    reread v = reread v' := by
  have hget := get?_of_reread_eq h k
  rw [OrderedMap.get?_ofList hl (List.mem_of_getElem? hv),
    OrderedMap.get?_ofList hl' (List.mem_of_getElem? hv')] at hget
  exact Option.some.inj hget

/-- Dictionaries that differ in the order of keys only, at every depth. -/
def SameDict (d e : Dict) : Prop := ∀ k, Option.Rel Same (d.get? k) (e.get? k)

/-- **A dictionary that was written and read is the same dictionary.** -/
theorem sameDict_reread (d : Dict) : SameDict d (rereadDict d) := by
  intro k
  rw [get?_rereadDict]
  cases d.get? k with
  | none => exact .none
  | some v => exact .some (same_sortKeys v)

/-! ### Deques -/

/-- A deque of at most `n` items. -/
structure Deque (α : Type*) (n : ℕ) where
  items : List α
  bounded : items.length ≤ n

namespace Deque

variable {α : Type*} {n : ℕ}

def empty : Deque α n := ⟨[], Nat.zero_le n⟩

/-- Adds an item; the oldest one is dropped if the deque is full. -/
def push (d : Deque α n) (x : α) : Deque α n where
  items := (d.items ++ [x]).drop ((d.items ++ [x]).length - n)
  bounded := by
    rw [List.length_drop]
    omega

/-- Adds items one after the other. -/
def extend (d : Deque α n) (l : List α) : Deque α n := l.foldl push d

theorem items_push {d : Deque α n} (h : d.items.length < n) (x : α) :
    (d.push x).items = d.items ++ [x] := by
  have hlen : (d.items ++ [x]).length - n = 0 := by
    rw [List.length_append, List.length_singleton]
    omega
  change (d.items ++ [x]).drop ((d.items ++ [x]).length - n) = _
  rw [hlen, List.drop_zero]

/-- **Nothing is dropped while there is room.** -/
theorem items_extend {d : Deque α n} {l : List α} (h : d.items.length + l.length ≤ n) :
    (d.extend l).items = d.items ++ l := by
  induction l generalizing d with
  | nil => exact (List.append_nil _).symm
  | cons x l ih =>
      rw [List.length_cons] at h
      have hpush := items_push (d := d) (by omega) x
      have hroom : (d.push x).items.length + l.length ≤ n := by
        rw [hpush, List.length_append, List.length_singleton]
        omega
      rw [extend, List.foldl_cons, ← extend, ih hroom, hpush, List.append_assoc]
      rfl

end Deque

end Py
