/-
**Maps that remember the order of insertion.**

The `Map` of the language, and its plain objects used as dictionaries: keys are distinct, a new key
goes to the end, and setting a key that is present keeps its place.

Main definitions:

* `Js.OrderedMap` — the map; that the keys are distinct is a field;
* `get?`, `set`, `erase`, `assign` (the spread `{ ...m, ...n }`), `ofList`, `keys`, `values`;
* `Js.OrderedMap.group` — the items of a list under their keys;
* `Js.KeyedMap` — a map that stores every value under its own key;
* `Js.setAdd`, `Js.uniq` — a `Set` as the list of its elements, and `[...new Set(xs)]`.

Main results:

* `Js.OrderedMap.get?_set`, `get?_assign` — what a lookup sees after an update;
* `Js.OrderedMap.mem_entries_iff` — the entries are the successful lookups;
* `Js.OrderedMap.entries_foldl_rows` — rows that are built item by item are made from the groups;
* `Js.OrderedMap.countP_values_le` — a map that keeps what is counted counts as many;
* `Js.uniq_append_eq_left_iff`, `Js.length_eq_iff_subset` — when a union of sets adds nothing, and
  when two sets have as many elements.
-/
import Mathlib.Data.List.Nodup
import Mathlib.Data.List.Basic
import Mathlib.Data.List.Induction
import Mathlib.Data.List.Perm.Subperm

set_option relaxedAutoImplicit false
set_option autoImplicit false

namespace Js

/-- A map with distinct keys, in the order of their insertion. -/
structure OrderedMap (α β : Type*) where
  entries : List (α × β)
  nodup : (entries.map Prod.fst).Nodup
  deriving DecidableEq

namespace OrderedMap

variable {α β : Type*}

/-- The map without entries. -/
def empty : OrderedMap α β := ⟨[], List.nodup_nil⟩

instance : EmptyCollection (OrderedMap α β) := ⟨empty⟩

instance : Inhabited (OrderedMap α β) := ⟨empty⟩

/-- The keys, in the order of insertion. -/
def keys (m : OrderedMap α β) : List α := m.entries.map Prod.fst

/-- The values, in the order of insertion of their keys. -/
def values (m : OrderedMap α β) : List β := m.entries.map Prod.snd

theorem eq_of_entries {m n : OrderedMap α β} (h : m.entries = n.entries) : m = n := by
  cases m
  cases n
  cases h
  rfl

variable [DecidableEq α]

/-- The value of the first entry with the key. -/
def getList (k : α) : List (α × β) → Option β
  | [] => none
  | (k', v) :: l => if k' = k then some v else getList k l

/-- Replaces the value of the first entry with the key, or adds an entry at the end. -/
def setList (k : α) (v : β) : List (α × β) → List (α × β)
  | [] => [(k, v)]
  | (k', v') :: l => if k' = k then (k', v) :: l else (k', v') :: setList k v l

theorem getList_setList (k k' : α) (v : β) (l : List (α × β)) :
    getList k' (setList k v l) = if k' = k then some v else getList k' l := by
  induction l with
  | nil => simp only [setList, getList, eq_comm]
  | cons p l ih =>
      obtain ⟨k₁, v₁⟩ := p
      unfold setList
      split
      · next h =>
          subst h
          by_cases hk : k' = k₁
          · simp [getList, hk]
          · simp [getList, hk, Ne.symm hk]
      · next h =>
          by_cases hk : k₁ = k'
          · subst hk; simp [getList, h]
          · simp [getList, hk, ih]

theorem mem_keys_setList {k k' : α} {v : β} {l : List (α × β)} :
    k' ∈ (setList k v l).map Prod.fst ↔ k' = k ∨ k' ∈ l.map Prod.fst := by
  induction l with
  | nil => simp [setList]
  | cons p l ih =>
      unfold setList
      split
      · next h => subst h; simp
      · simp only [List.map_cons, List.mem_cons, ih]; tauto

theorem nodup_setList {k : α} {v : β} {l : List (α × β)} (h : (l.map Prod.fst).Nodup) :
    ((setList k v l).map Prod.fst).Nodup := by
  induction l with
  | nil => simp [setList]
  | cons p l ih =>
      rw [List.map_cons, List.nodup_cons] at h
      unfold setList
      split
      · rwa [List.map_cons, List.nodup_cons]
      · next hne =>
          rw [List.map_cons, List.nodup_cons, mem_keys_setList]
          exact ⟨fun hk => hk.elim hne h.1, ih h.2⟩

theorem mem_iff_getList {k : α} {v : β} {l : List (α × β)} (h : (l.map Prod.fst).Nodup) :
    (k, v) ∈ l ↔ getList k l = some v := by
  induction l with
  | nil => simp [getList]
  | cons p l ih =>
      obtain ⟨k₁, v₁⟩ := p
      rw [List.map_cons, List.nodup_cons] at h
      rw [List.mem_cons, getList]
      split
      · next hk =>
          subst hk
          simp only [Prod.mk.injEq, true_and, Option.some.injEq]
          exact ⟨fun hm => hm.elim Eq.symm fun hm => absurd (List.mem_map_of_mem hm) h.1,
            fun hv => Or.inl hv.symm⟩
      · next hk =>
          rw [ih h.2, Prod.mk.injEq]
          exact ⟨fun hm => hm.elim (fun he => absurd he.1.symm hk) id, Or.inr⟩

theorem getList_eq_none_iff {k : α} {l : List (α × β)} :
    getList k l = none ↔ k ∉ l.map Prod.fst := by
  induction l with
  | nil => simp [getList]
  | cons p l ih =>
      rw [getList, List.map_cons, List.mem_cons]
      split
      · next h => simp [h]
      · next h => rw [ih, not_or]; exact ⟨fun hn => ⟨Ne.symm h, hn⟩, And.right⟩

/-- The value of a key. -/
def get? (m : OrderedMap α β) (k : α) : Option β := getList k m.entries

/-- Sets the value of a key. -/
def set (m : OrderedMap α β) (k : α) (v : β) : OrderedMap α β :=
  ⟨setList k v m.entries, nodup_setList m.nodup⟩

/-- Removes a key. -/
def erase (m : OrderedMap α β) (k : α) : OrderedMap α β :=
  ⟨m.entries.filter fun p => p.1 ≠ k, m.nodup.sublist (List.filter_sublist.map Prod.fst)⟩

/-- The entries that meet a condition. -/
def keep (m : OrderedMap α β) (p : α → β → Bool) : OrderedMap α β :=
  ⟨m.entries.filter fun q => p q.1 q.2, m.nodup.sublist (List.filter_sublist.map Prod.fst)⟩

/-- Sets the keys of a list one after the other: the spread `{ ...m, ...n }`. -/
def assign (m : OrderedMap α β) (l : List (α × β)) : OrderedMap α β :=
  l.foldl (fun m p => m.set p.1 p.2) m

/-- The map with the entries of a list, a later entry of a key replacing an earlier one. -/
def ofList (l : List (α × β)) : OrderedMap α β := (∅ : OrderedMap α β).assign l

@[simp] theorem get?_empty (k : α) : (∅ : OrderedMap α β).get? k = none := rfl

theorem get?_set (m : OrderedMap α β) (k k' : α) (v : β) :
    (m.set k v).get? k' = if k' = k then some v else m.get? k' :=
  getList_setList k k' v m.entries

/-- Setting a key keeps the keys that are there. -/
theorem isSome_get?_set {m : OrderedMap α β} {k : α} (h : (m.get? k).isSome) (k' : α) (v : β) :
    ((m.set k' v).get? k).isSome := by
  rw [get?_set]
  split
  · rfl
  · exact h

/-- Setting a key that is there adds none. -/
theorem isSome_get?_set_iff {m : OrderedMap α β} {k : α} {v : β} (h : m.get? k = some v) (v' : β)
    (k' : α) : ((m.set k v').get? k').isSome ↔ (m.get? k').isSome := by
  rw [get?_set]
  split
  · next heq => simp [heq, h]
  · rfl

theorem isSome_get?_assign {m : OrderedMap α β} {k : α} (h : (m.get? k).isSome)
    (l : List (α × β)) : ((m.assign l).get? k).isSome := by
  induction l generalizing m with
  | nil => exact h
  | cons p l ih => exact ih (isSome_get?_set h p.1 p.2)

/-- Two maps in which keys are set together have the same keys. -/
theorem isSome_set {γ : Type*} {m : OrderedMap α β} {n : OrderedMap α γ}
    (h : ∀ k, (m.get? k).isSome = (n.get? k).isSome) (k : α) (v : β) (w : γ) (k' : α) :
    ((m.set k v).get? k').isSome = ((n.set k w).get? k').isSome := by
  rw [get?_set, get?_set]
  split
  · rfl
  · exact h k'

@[simp] theorem get?_set_self (m : OrderedMap α β) (k : α) (v : β) :
    (m.set k v).get? k = some v := by
  rw [get?_set, if_pos rfl]

theorem get?_erase (m : OrderedMap α β) (k k' : α) :
    (m.erase k).get? k' = if k' = k then none else m.get? k' := by
  change getList k' (m.entries.filter fun p => p.1 ≠ k) =
    if k' = k then none else getList k' m.entries
  induction m.entries with
  | nil => simp [getList]
  | cons p l ih =>
      rw [List.filter_cons]
      by_cases hp : p.1 = k
      · rw [if_neg (by simpa using hp), ih]
        split
        · rfl
        · next hk => rw [getList, if_neg fun h => hk (h.symm.trans hp)]
      · rw [if_pos (by simpa using hp), getList, getList, ih]
        split
        · next hk => rw [if_neg fun h => hp (hk.trans h)]
        · rfl

/-- **The entries are the successful lookups.** -/
theorem mem_entries_iff {m : OrderedMap α β} {k : α} {v : β} :
    (k, v) ∈ m.entries ↔ m.get? k = some v :=
  mem_iff_getList m.nodup

/-- An entry is kept if it meets the condition. -/
theorem get?_keep (m : OrderedMap α β) (p : α → β → Bool) (k : α) :
    (m.keep p).get? k = (m.get? k).filter (p k) := by
  refine Option.ext fun v => ?_
  have hmem : (k, v) ∈ (m.keep p).entries ↔ (k, v) ∈ m.entries ∧ p k v = true := List.mem_filter
  rw [mem_entries_iff, mem_entries_iff] at hmem
  rw [hmem, Option.filter_eq_some_iff]

theorem mem_values_iff {m : OrderedMap α β} {v : β} :
    v ∈ m.values ↔ ∃ k, m.get? k = some v := by
  simp only [values, List.mem_map, Prod.exists, mem_entries_iff, exists_eq_right]

/-- **A map that meets a condition at all keys where another one meets it** meets it as often. -/
theorem countP_values_le {γ : Type*} {m : OrderedMap α β} {n : OrderedMap α γ} {p : β → Bool}
    {q : γ → Bool}
    (h : ∀ k v, m.get? k = some v → p v = true → ∃ w, n.get? k = some w ∧ q w = true) :
    m.values.countP p ≤ n.values.countP q := by
  have hm : m.values.countP p = ((m.entries.filter fun e => p e.2).map Prod.fst).length := by
    rw [values, List.countP_map, List.countP_eq_length_filter, List.length_map]
    rfl
  have hn : n.values.countP q = ((n.entries.filter fun e => q e.2).map Prod.fst).length := by
    rw [values, List.countP_map, List.countP_eq_length_filter, List.length_map]
    rfl
  rw [hm, hn]
  have hnodup : ((m.entries.filter fun e => p e.2).map Prod.fst).Nodup :=
    m.nodup.sublist (List.filter_sublist.map Prod.fst)
  refine (List.subperm_of_subset hnodup fun k hk => ?_).length_le
  obtain ⟨⟨k', v⟩, hmem, rfl⟩ := List.mem_map.1 hk
  obtain ⟨hentry, hp⟩ := List.mem_filter.1 hmem
  obtain ⟨w, hw, hq⟩ := h k' v (mem_entries_iff.1 hentry) hp
  exact List.mem_map.2 ⟨(k', w), List.mem_filter.2 ⟨mem_entries_iff.2 hw, hq⟩, rfl⟩

theorem get?_assign (m : OrderedMap α β) (k : α) {l : List (α × β)}
    (h : (l.map Prod.fst).Nodup) : (m.assign l).get? k = (getList k l).or (m.get? k) := by
  induction l generalizing m with
  | nil => rfl
  | cons p l ih =>
      rw [List.map_cons, List.nodup_cons] at h
      rw [assign, List.foldl_cons, ← assign, ih (m.set p.1 p.2) h.2, get?_set, getList]
      by_cases hk : p.1 = k
      · subst hk
        rw [if_pos rfl, if_pos rfl, getList_eq_none_iff.2 h.1, Option.none_or, Option.some_or]
      · rw [if_neg (Ne.symm hk), if_neg hk]

/-- A list of distinct keys is read entry by entry. -/
theorem get?_ofList {l : List (α × β)} (h : (l.map Prod.fst).Nodup) {k : α} {v : β}
    (hmem : (k, v) ∈ l) : (ofList l).get? k = some v := by
  rw [ofList, get?_assign _ _ h, (mem_iff_getList h).1 hmem]
  rfl

/-- What is found in a list of entries is one of them. -/
theorem mem_of_get?_assign {m : OrderedMap α β} {l : List (α × β)} {k : α} {v : β}
    (h : (m.assign l).get? k = some v) : (k, v) ∈ l ∨ m.get? k = some v := by
  induction l generalizing m with
  | nil => exact Or.inr h
  | cons p l ih =>
      rcases ih h with hl | hset
      · exact Or.inl (List.mem_cons_of_mem p hl)
      · rw [get?_set] at hset
        split at hset
        · next hk =>
            obtain rfl := Option.some.inj hset
            exact Or.inl (hk ▸ List.mem_cons_self)
        · exact Or.inr hset

theorem mem_of_get?_ofList {l : List (α × β)} {k : α} {v : β} (h : (ofList l).get? k = some v) :
    (k, v) ∈ l :=
  (mem_of_get?_assign h).resolve_right fun h => absurd h (by simp)

/-- **Updating distinct keys one after the other** updates each key once. -/
theorem get?_foldl_set {γ : Type*} (f : Option β → γ → β) (m : OrderedMap α β) (k : α)
    {l : List (α × γ)} (h : (l.map Prod.fst).Nodup) :
    (l.foldl (fun m p => m.set p.1 (f (m.get? p.1) p.2)) m).get? k =
      ((getList k l).map (f (m.get? k))).or (m.get? k) := by
  induction l generalizing m with
  | nil => rfl
  | cons p l ih =>
      rw [List.map_cons, List.nodup_cons] at h
      rw [List.foldl_cons, ih _ h.2, get?_set, getList]
      by_cases hk : p.1 = k
      · subst hk
        rw [if_pos rfl, if_pos rfl, getList_eq_none_iff.2 h.1]
        rfl
      · rw [if_neg (Ne.symm hk), if_neg hk]

theorem setList_of_mem {k : α} {v : β} {l : List (α × β)} (h : (l.map Prod.fst).Nodup)
    (hm : (k, v) ∈ l) : setList k v l = l := by
  induction l with
  | nil => exact absurd hm List.not_mem_nil
  | cons p l ih =>
      rw [List.map_cons, List.nodup_cons] at h
      unfold setList
      split
      · next hk =>
          rcases List.mem_cons.1 hm with rfl | hm
          · rfl
          · exact absurd (hk ▸ List.mem_map_of_mem (f := Prod.fst) hm) h.1
      · next hk =>
          rcases List.mem_cons.1 hm with rfl | hm
          · exact absurd rfl hk
          · rw [ih h.2 hm]

/-- Setting a key to the value it has changes nothing. -/
theorem set_of_get? {m : OrderedMap α β} {k : α} {v : β} (h : m.get? k = some v) :
    m.set k v = m := by
  obtain ⟨entries, nodup⟩ := m
  exact (mk.injEq ..).mpr (setList_of_mem nodup (mem_entries_iff.2 h))

/-- Among lists under keys, the elements of a new list take the place of those of the old one. -/
theorem countP_flatten_setList {γ : Type*} (p : γ → Bool) (k : α) (v : List γ)
    (l : List (α × List γ)) :
    (((setList k v l).map Prod.snd).flatten).countP p + ((getList k l).getD []).countP p =
      ((l.map Prod.snd).flatten).countP p + v.countP p := by
  induction l with
  | nil => simp [setList, getList]
  | cons q l ih =>
      obtain ⟨k', v'⟩ := q
      by_cases h : k' = k
      · simp only [setList, getList, if_pos h, List.map_cons, List.flatten_cons,
          List.countP_append, Option.getD_some]
        omega
      · simp only [setList, getList, if_neg h, List.map_cons, List.flatten_cons,
          List.countP_append]
        omega

theorem countP_flatten_set {γ : Type*} (p : γ → Bool) (m : OrderedMap α (List γ)) (k : α)
    (v : List γ) :
    (m.set k v).values.flatten.countP p + ((m.get? k).getD []).countP p =
      m.values.flatten.countP p + v.countP p :=
  countP_flatten_setList p k v m.entries

/-- A new key goes to the end. -/
theorem setList_of_getList_eq_none {k : α} {v : β} {l : List (α × β)} (h : getList k l = none) :
    setList k v l = l ++ [(k, v)] := by
  induction l with
  | nil => rfl
  | cons p l ih =>
      obtain ⟨k₁, v₁⟩ := p
      rw [getList] at h
      split at h
      · exact absurd h (by simp)
      · next hk => rw [setList, if_neg hk, ih h, List.cons_append]

/-- Setting keys to the values they have changes nothing. -/
theorem assign_of_get? {m : OrderedMap α β} {l : List (α × β)}
    (h : ∀ p ∈ l, m.get? p.1 = some p.2) : m.assign l = m := by
  induction l with
  | nil => rfl
  | cons p l ih =>
      rw [assign, List.foldl_cons, set_of_get? (h p List.mem_cons_self)]
      exact ih fun q hq => h q (List.mem_cons_of_mem _ hq)

/-- Setting new keys adds them at the end. -/
theorem entries_assign {m : OrderedMap α β} {l : List (α × β)}
    (h : ((m.entries ++ l).map Prod.fst).Nodup) : (m.assign l).entries = m.entries ++ l := by
  induction l generalizing m with
  | nil => exact (List.append_nil _).symm
  | cons p l ih =>
      have hset : (m.set p.1 p.2).entries = m.entries ++ [p] := by
        refine setList_of_getList_eq_none (getList_eq_none_iff.2 fun hp => ?_)
        rw [List.map_append, List.map_cons, List.nodup_append] at h
        exact h.2.2 _ hp _ List.mem_cons_self rfl
      rw [assign, List.foldl_cons, ← assign, ih (by simpa [hset] using h), hset, List.append_assoc]
      rfl

theorem entries_ofList {l : List (α × β)} (h : (l.map Prod.fst).Nodup) : (ofList l).entries = l :=
  entries_assign h

@[simp] theorem ofList_entries (m : OrderedMap α β) : ofList m.entries = m :=
  eq_of_entries (entries_ofList m.nodup)

/-- The last entry of a list without repeated keys is removed. -/
theorem erase_ofList_concat {l : List (α × β)} {k : α} {v : β}
    (h : ((l ++ [(k, v)]).map Prod.fst).Nodup) : (ofList (l ++ [(k, v)])).erase k = ofList l := by
  have hparts := List.nodup_append.1 (List.map_append .. ▸ h)
  have hkeep : ∀ p ∈ l, decide (p.1 ≠ k) = true := fun p hp =>
    decide_eq_true (hparts.2.2 p.1 (List.mem_map_of_mem hp) k List.mem_cons_self)
  have hlast : [(k, v)].filter (fun p => decide (p.1 ≠ k)) = [] := by simp
  refine eq_of_entries ?_
  show (ofList (l ++ [(k, v)])).entries.filter _ = (ofList l).entries
  rw [entries_ofList h, entries_ofList hparts.1, List.filter_append, List.filter_eq_self.2 hkeep,
    hlast, List.append_nil]

@[simp] theorem assign_self (m : OrderedMap α β) : m.assign m.entries = m :=
  assign_of_get? fun _ hp => mem_entries_iff.1 hp

/-! ### Groups -/

theorem getList_map {γ : Type*} (f : α → β → γ) (k : α) (l : List (α × β)) :
    getList k (l.map fun p => (p.1, f p.1 p.2)) = (getList k l).map (f k) := by
  induction l with
  | nil => rfl
  | cons p l ih =>
      rw [List.map_cons, getList, getList]
      by_cases hk : p.1 = k
      · rw [if_pos hk, if_pos hk, hk]
        rfl
      · rw [if_neg hk, if_neg hk, ih]

theorem setList_map {γ : Type*} (f : α → β → γ) (k : α) (v : β) (l : List (α × β)) :
    setList k (f k v) (l.map fun p => (p.1, f p.1 p.2)) =
      (setList k v l).map fun p => (p.1, f p.1 p.2) := by
  induction l with
  | nil => rfl
  | cons p l ih =>
      rw [List.map_cons, setList, setList]
      by_cases hk : p.1 = k
      · rw [if_pos hk, if_pos hk, List.map_cons, hk]
      · rw [if_neg hk, if_neg hk, List.map_cons, ih]

/-- The items of a list under their keys, each key at the place of its first item. -/
def group {γ : Type*} (key : γ → α) (l : List γ) : OrderedMap α (List γ) :=
  l.foldl (fun m e => m.set (key e) ((m.get? (key e)).getD [] ++ [e])) ∅

/-- **Rows built item by item** are made from the groups. -/
theorem entries_foldl_rows {γ : Type*} (key : γ → α) (row : α → List γ → β)
    (add : α → β → γ → β) (hadd : ∀ k es e, row k (es ++ [e]) = add k (row k es) e) (l : List γ) :
    (l.foldl (fun m e => m.set (key e) (add (key e) ((m.get? (key e)).getD (row (key e) [])) e))
      (∅ : OrderedMap α β)).entries =
        (group key l).entries.map fun p => (p.1, row p.1 p.2) := by
  suffices h : ∀ (m : OrderedMap α β) (g : OrderedMap α (List γ)),
      m.entries = g.entries.map (fun p => (p.1, row p.1 p.2)) →
      (l.foldl (fun m e => m.set (key e) (add (key e) ((m.get? (key e)).getD (row (key e) [])) e))
        m).entries = (l.foldl (fun m e => m.set (key e) ((m.get? (key e)).getD [] ++ [e]))
          g).entries.map fun p => (p.1, row p.1 p.2) from
    h ∅ ∅ rfl
  induction l with
  | nil => exact fun m g h => h
  | cons e l ih =>
      intro m g h
      rw [List.foldl_cons, List.foldl_cons]
      refine ih _ _ ?_
      have hrow : (m.get? (key e)).getD (row (key e) []) =
          row (key e) ((g.get? (key e)).getD []) := by
        rw [get?, h, getList_map, get?]
        cases getList (key e) g.entries <;> rfl
      rw [hrow, ← hadd]
      change setList (key e) _ m.entries = _
      rw [h, setList_map]
      rfl

/-- **The group of a key** has the items with that key. -/
theorem get?_group {γ : Type*} (key : γ → α) (l : List γ) (k : α) :
    (group key l).get? k =
      if l.filter (fun e => key e = k) = [] then none else some (l.filter fun e => key e = k) := by
  induction l using List.reverseRecOn with
  | nil => rfl
  | append_singleton l e ih =>
      rw [group, List.foldl_append, List.foldl_cons, List.foldl_nil, ← group, get?_set,
        List.filter_append]
      by_cases hk : k = key e
      · subst hk
        rw [if_pos rfl, ih, List.filter_cons_of_pos (by simp), List.filter_nil,
          if_neg (List.append_ne_nil_of_right_ne_nil _ (List.cons_ne_nil e []))]
        split
        · next h => rw [h]; rfl
        · rfl
      · rw [if_neg hk, ih, List.filter_cons_of_neg (by simpa using Ne.symm hk), List.filter_nil,
          List.append_nil]

/-- Groups are not empty and have one key. -/
theorem mem_group {γ : Type*} {key : γ → α} {l : List γ} {k : α} {es : List γ}
    (h : (k, es) ∈ (group key l).entries) : es = l.filter fun e => key e = k := by
  rw [mem_entries_iff, get?_group] at h
  split at h
  · exact absurd h (Option.some_ne_none es).symm
  · exact (Option.some.inj h).symm

/-- Every item is in the group of its key. -/
theorem mem_group_of_mem {γ : Type*} {key : γ → α} {l : List γ} {e : γ} (h : e ∈ l) :
    (key e, l.filter fun e' => key e' = key e) ∈ (group key l).entries := by
  rw [mem_entries_iff, get?_group, if_neg]
  exact List.ne_nil_of_mem (List.mem_filter.2 ⟨h, decide_eq_true rfl⟩)

end OrderedMap

/-! ### Values under their own keys -/

/-- A map that stores every value under its own key. -/
structure KeyedMap {α β : Type*} [DecidableEq α] (key : β → α) where
  toMap : OrderedMap α β
  keyed : ∀ k v, toMap.get? k = some v → key v = k

namespace KeyedMap

variable {α β : Type*} [DecidableEq α] {key : β → α}

instance : EmptyCollection (KeyedMap key) := ⟨∅, fun _ _ h => by simp at h⟩

/-- The value with a key. -/
def get? (m : KeyedMap key) (k : α) : Option β := m.toMap.get? k

/-- The values, in the order of insertion of their keys. -/
def values (m : KeyedMap key) : List β := m.toMap.values

/-- Stores a value under its key. -/
def put (m : KeyedMap key) (v : β) : KeyedMap key where
  toMap := m.toMap.set (key v) v
  keyed := by
    intro k v' h
    rw [OrderedMap.get?_set] at h
    split at h
    · next hk => rw [← Option.some_inj.1 h, hk]
    · exact m.keyed k v' h

@[simp] theorem get?_empty (k : α) : (∅ : KeyedMap key).get? k = none := rfl

theorem get?_put (m : KeyedMap key) (v : β) (k : α) :
    (m.put v).get? k = if k = key v then some v else m.get? k :=
  m.toMap.get?_set (key v) k v

@[simp] theorem get?_put_self (m : KeyedMap key) (v : β) : (m.put v).get? (key v) = some v := by
  rw [get?_put, if_pos rfl]

/-- Removes the value with a key. -/
def erase (m : KeyedMap key) (k : α) : KeyedMap key where
  toMap := m.toMap.erase k
  keyed := by
    intro k' v h
    rw [OrderedMap.get?_erase] at h
    split at h
    · cases h
    · exact m.keyed k' v h

theorem get?_erase (m : KeyedMap key) (k k' : α) :
    (m.erase k).get? k' = if k' = k then none else m.get? k' :=
  m.toMap.get?_erase k k'

/-- Several keys are removed one after the other. -/
theorem get?_foldl_erase (m : KeyedMap key) (ks : List α) (k : α) :
    (ks.foldl erase m).get? k = if k ∈ ks then none else m.get? k := by
  induction ks generalizing m with
  | nil => rfl
  | cons k' ks ih =>
      rw [List.foldl_cons, ih, get?_erase]
      by_cases hk : k = k' <;> simp [hk]

/-- Changes every value; no key changes. -/
def modifyAll (m : KeyedMap key) (f : β → β) (hf : ∀ v, key (f v) = key v) : KeyedMap key where
  toMap :=
    ⟨m.toMap.entries.map fun p => (p.1, f p.2), by
      rw [List.map_map]
      exact m.toMap.nodup⟩
  keyed := by
    intro k v h
    obtain ⟨⟨k', v'⟩, hp, heq⟩ := List.mem_map.1 (OrderedMap.mem_entries_iff.2 h)
    obtain ⟨rfl, rfl⟩ := Prod.mk.inj heq
    rw [hf, m.keyed k' v' (OrderedMap.mem_entries_iff.1 hp)]

@[simp] theorem values_modifyAll (m : KeyedMap key) (f : β → β) (hf : ∀ v, key (f v) = key v) :
    (m.modifyAll f hf).values = m.values.map f := by
  simp only [values, OrderedMap.values, modifyAll, List.map_map]
  rfl

theorem get?_modifyAll (m : KeyedMap key) (f : β → β) (hf : ∀ v, key (f v) = key v) (k : α) :
    (m.modifyAll f hf).get? k = (m.get? k).map f :=
  OrderedMap.getList_map (fun _ v => f v) k m.toMap.entries

/-- A value under a new key comes last. -/
theorem values_put_of_fresh {m : KeyedMap key} {v : β} (h : m.get? (key v) = none) :
    (m.put v).values = m.values ++ [v] := by
  have hset : OrderedMap.setList (key v) v m.toMap.entries = m.toMap.entries ++ [(key v, v)] :=
    OrderedMap.setList_of_getList_eq_none h
  simp only [values, OrderedMap.values, put, OrderedMap.set, hset, List.map_append,
    List.map_singleton]

/-- No two values have the same key. -/
theorem nodup_map_values (m : KeyedMap key) : (m.values.map key).Nodup := by
  have hkeys : m.values.map key = m.toMap.keys := by
    rw [values, OrderedMap.values, List.map_map]
    exact List.map_congr_left fun p hp => m.keyed p.1 p.2 (OrderedMap.mem_entries_iff.1 hp)
  exact hkeys ▸ m.toMap.nodup

theorem key_of_get? {m : KeyedMap key} {k : α} {v : β} (h : m.get? k = some v) : key v = k :=
  m.keyed k v h

/-- **A value is in the map exactly if its key leads to it.** -/
theorem mem_values_iff {m : KeyedMap key} {v : β} : v ∈ m.values ↔ m.get? (key v) = some v := by
  rw [values, OrderedMap.mem_values_iff]
  constructor
  · rintro ⟨k, hk⟩
    rwa [get?, m.keyed k v hk]
  · intro h
    exact ⟨key v, h⟩

/-- A value that is stored takes the place of the one with its key. -/
theorem mem_values_put_iff {m : KeyedMap key} {v w : β} :
    w ∈ (m.put v).values ↔ w = v ∨ w ∈ m.values ∧ key w ≠ key v := by
  rw [mem_values_iff, get?_put, mem_values_iff]
  split
  · next hkey =>
      rw [Option.some.injEq, eq_comm]
      exact ⟨Or.inl, fun h => h.resolve_right fun hand => hand.2 hkey⟩
  · next hkey =>
      refine ⟨fun hw => Or.inr ⟨hw, hkey⟩, fun h => ?_⟩
      exact (h.resolve_left fun heq => hkey (congrArg key heq)).1

theorem mem_values_put {m : KeyedMap key} {v w : β} (h : w ∈ (m.put v).values) :
    w = v ∨ w ∈ m.values :=
  (mem_values_put_iff.1 h).imp_right And.left

end KeyedMap

/-! ### Sets -/

section Sets

variable {α : Type*} [DecidableEq α]

/-- Adds an element to a set. -/
def setAdd (s : List α) (x : α) : List α := if x ∈ s then s else s ++ [x]

/-- `[...new Set(xs)]`: every element at its first place. -/
def uniq (xs : List α) : List α := xs.foldl setAdd []

theorem mem_setAdd {s : List α} {x y : α} : y ∈ setAdd s x ↔ y ∈ s ∨ y = x := by
  unfold setAdd
  split
  · next h => exact ⟨Or.inl, fun hy => hy.elim id fun hy => hy ▸ h⟩
  · simp

theorem nodup_setAdd {s : List α} {x : α} (h : s.Nodup) : (setAdd s x).Nodup := by
  unfold setAdd
  split
  · exact h
  · next hx =>
      refine List.nodup_append.2 ⟨h, List.nodup_singleton x, fun y hy z hz => ?_⟩
      rw [List.mem_singleton.1 hz]
      intro hyx
      exact hx (hyx ▸ hy)

theorem mem_foldl_setAdd {s xs : List α} {y : α} : y ∈ xs.foldl setAdd s ↔ y ∈ s ∨ y ∈ xs := by
  induction xs generalizing s with
  | nil => simp
  | cons x xs ih => rw [List.foldl_cons, ih, mem_setAdd, List.mem_cons, or_assoc]

theorem nodup_foldl_setAdd {s xs : List α} (h : s.Nodup) : (xs.foldl setAdd s).Nodup := by
  induction xs generalizing s with
  | nil => exact h
  | cons x xs ih => exact ih (nodup_setAdd h)

theorem foldl_setAdd_of_subset {s xs : List α} (h : ∀ x ∈ xs, x ∈ s) : xs.foldl setAdd s = s := by
  induction xs with
  | nil => rfl
  | cons x xs ih =>
      rw [List.foldl_cons, setAdd, if_pos (h x List.mem_cons_self)]
      exact ih fun y hy => h y (List.mem_cons_of_mem _ hy)

theorem foldl_setAdd_of_disjoint {s xs : List α} (h : xs.Nodup) (hs : ∀ x ∈ xs, x ∉ s) :
    xs.foldl setAdd s = s ++ xs := by
  induction xs generalizing s with
  | nil => simp
  | cons x xs ih =>
      obtain ⟨hx, h⟩ := List.nodup_cons.1 h
      rw [List.foldl_cons, setAdd, if_neg (hs x List.mem_cons_self), ih h, List.append_assoc]
      · rfl
      · intro y hy hys
        rcases List.mem_append.1 hys with hys | hys
        · exact hs y (List.mem_cons_of_mem _ hy) hys
        · exact hx (List.mem_singleton.1 hys ▸ hy)

@[simp] theorem mem_uniq {xs : List α} {y : α} : y ∈ uniq xs ↔ y ∈ xs := by
  simp [uniq, mem_foldl_setAdd]

theorem nodup_uniq (xs : List α) : (uniq xs).Nodup := nodup_foldl_setAdd List.nodup_nil

theorem uniq_eq_self_iff {xs : List α} : uniq xs = xs ↔ xs.Nodup := by
  constructor
  · intro h
    exact h ▸ nodup_uniq xs
  · intro h
    exact (foldl_setAdd_of_disjoint h fun _ _ => List.not_mem_nil).trans (List.nil_append _)

/-- **A union adds nothing** exactly if the first list is a set that has all elements of the
second. -/
theorem uniq_append_eq_left_iff {xs ys : List α} :
    uniq (xs ++ ys) = xs ↔ xs.Nodup ∧ ∀ y ∈ ys, y ∈ xs := by
  constructor
  · intro h
    refine ⟨h ▸ nodup_uniq _, fun y hy => ?_⟩
    rw [← h, mem_uniq]
    exact List.mem_append_right _ hy
  · rintro ⟨h, hys⟩
    have hxs : xs.foldl setAdd [] = xs := uniq_eq_self_iff.2 h
    rw [uniq, List.foldl_append, hxs, foldl_setAdd_of_subset hys]

/-- A set has two elements exactly if its list has two that differ. -/
theorem two_le_length_uniq_iff {xs : List α} :
    2 ≤ (uniq xs).length ↔ ∃ x ∈ xs, ∃ y ∈ xs, x ≠ y := by
  have hmem : ∀ z, z ∈ uniq xs ↔ z ∈ xs := fun z => mem_uniq
  have hnodup : (uniq xs).Nodup := nodup_uniq xs
  simp only [← hmem]
  cases hu : uniq xs with
  | nil => simp
  | cons x rest =>
      cases rest with
      | nil => simp
      | cons y rest =>
          rw [hu] at hnodup
          have hne : x ≠ y := fun h => (List.nodup_cons.1 hnodup).1 (h ▸ List.mem_cons_self)
          refine iff_of_true (by simp) ⟨x, List.mem_cons_self, y, ?_, hne⟩
          exact List.mem_cons_of_mem x List.mem_cons_self

/-- A set counts as many elements as a set in it exactly if it has no others. -/
theorem length_eq_iff_subset {α : Type*} {xs ys : List α} (hxs : xs.Nodup) (hys : ys.Nodup)
    (h : ys ⊆ xs) : xs.length = ys.length ↔ xs ⊆ ys := by
  constructor
  · intro hlen
    exact ((hys.subperm h).perm_of_length_le (Nat.le_of_eq hlen)).symm.subset
  · intro hsub
    exact Nat.le_antisymm (hxs.subperm hsub).length_le (hys.subperm h).length_le

end Sets

end Js
