/-
**Registers that keep the latest write.**

A register holds at most one write.  Writes are compared by a stamp from a linear order: a later one
replaces what the register holds, an earlier one is dropped, and on a tie it depends on the way by
which the write comes in.  Whatever the order, a register ends with a latest of its writes; which
of them it is depends on the order only when there are two.

Main definitions:

* `LastWriter.offer` — a write that comes in, and replaces on a tie or not;
* `LastWriter.register` — the register after a list of writes;
* `LastWriter.Latest` — a latest of some writes.

Main results:

* `LastWriter.latest_register` — **a register ends with a latest of the writes that came in**;
* `LastWriter.register_congr` — **registers that took the same writes, only one of them latest, hold
  the same**;
* `LastWriter.register_eq_of_le` — a register that does not replace on ties keeps the first of the
  latest writes.
-/
import Mathlib.Order.Defs.LinearOrder
import Mathlib.Data.Set.Basic
import Mathlib.Data.List.Basic
import Mathlib.Data.Option.Basic

set_option relaxedAutoImplicit false
set_option autoImplicit false

namespace LastWriter

variable {σ α β : Type*} [LinearOrder σ] (stamp : α → σ)

/-- A write comes in: it is kept if there is none, if it is later than the one that is there, and
if it is as late and replaces on a tie. -/
def offer (late : Bool) : Option α → α → Option α
  | none, w => some w
  | some v, w => if stamp v < stamp w ∨ (late ∧ stamp v = stamp w) then some w else some v

/-- The register after some writes, each of which replaces on a tie or not. -/
def register (late : β → Bool) (write : β → α) (r : Option α) (l : List β) : Option α :=
  l.foldl (fun r b => offer stamp (late b) r (write b)) r

/-- A write of the set, and none of the set is later. -/
def Latest (S : Set α) (w : α) : Prop := w ∈ S ∧ ∀ v ∈ S, stamp v ≤ stamp w

variable {stamp}

theorem offer_some (late : Bool) (v w : α) : offer stamp late (some v) w =
    if stamp v < stamp w ∨ (late ∧ stamp v = stamp w) then some w else some v := rfl

/-- What an offer leaves is one of the two, and neither of them is later. -/
theorem latest_offer {late : Bool} {r : Option α} {w v : α} (h : offer stamp late r w = some v) :
    Latest stamp {x | x ∈ r ∨ x = w} v := by
  cases r with
  | none =>
      obtain rfl := Option.some.inj h
      refine ⟨Or.inr rfl, fun x hx => ?_⟩
      obtain hx | rfl := hx
      · cases hx
      · exact le_rfl
  | some u =>
      rw [offer_some] at h
      split at h
      · next hlt =>
          obtain rfl := Option.some.inj h
          refine ⟨Or.inr rfl, fun x hx => ?_⟩
          obtain hx | rfl := hx
          · obtain rfl := Option.some.inj hx
            exact hlt.elim le_of_lt fun heq => le_of_eq heq.2
          · exact le_rfl
      · next hlt =>
          obtain rfl := Option.some.inj h
          refine ⟨Or.inl rfl, fun x hx => ?_⟩
          obtain hx | rfl := hx
          · exact le_of_eq (congrArg stamp (Option.some.inj hx).symm)
          · exact not_lt.1 fun hx => hlt (Or.inl hx)

theorem isSome_offer (late : Bool) (r : Option α) (w : α) : (offer stamp late r w).isSome := by
  cases r with
  | none => rfl
  | some v =>
      rw [offer_some]
      split <;> rfl

/-- A write that is not later, and does not replace on a tie, changes nothing. -/
theorem offer_of_le {v w : α} (h : stamp w ≤ stamp v) :
    offer stamp false (some v) w = some v := by
  rw [offer_some, if_neg]
  simp only [Bool.false_eq_true, false_and, or_false]
  exact not_lt.2 h

theorem offer_of_lt {late : Bool} {v w : α} (h : stamp v < stamp w) :
    offer stamp late (some v) w = some w := by
  rw [offer_some, if_pos (Or.inl h)]

/-- What is offered is kept or dropped, and what is replaced is not later. -/
theorem offer_cases (late : Bool) (r : Option α) (w : α) :
    offer stamp late r w = r ∨
      offer stamp late r w = some w ∧ ∀ v ∈ r, stamp v ≤ stamp w := by
  cases r with
  | none => exact Or.inr ⟨rfl, fun v hv => by cases hv⟩
  | some v =>
      rw [offer_some]
      split
      · next h =>
          refine Or.inr ⟨rfl, fun v' hv' => ?_⟩
          obtain rfl := Option.some.inj hv'
          exact h.elim le_of_lt fun htie => le_of_eq htie.2
      · exact Or.inl rfl

/-- Where ties do not replace, what is replaced is earlier. -/
theorem offer_cases_strict (r : Option α) (w : α) :
    offer stamp false r w = r ∨
      offer stamp false r w = some w ∧ ∀ v ∈ r, stamp v < stamp w := by
  cases r with
  | none => exact Or.inr ⟨rfl, fun v hv => by cases hv⟩
  | some v =>
      by_cases hle : stamp w ≤ stamp v
      · exact Or.inl (offer_of_le hle)
      · refine Or.inr ⟨offer_of_lt (not_le.1 hle), fun v' hv' => ?_⟩
        obtain rfl := Option.some.inj hv'
        exact not_le.1 hle

section Register

variable {late : β → Bool} {write : β → α}

theorem register_cons (r : Option α) (b : β) (l : List β) :
    register stamp late write r (b :: l) =
      register stamp late write (offer stamp (late b) r (write b)) l := rfl

/-- **A register ends with a latest of the writes that came in.** -/
theorem latest_register {r : Option α} {l : List β} {w : α}
    (h : register stamp late write r l = some w) :
    Latest stamp {x | x ∈ r ∨ x ∈ l.map write} w := by
  induction l generalizing r with
  | nil =>
      obtain rfl := h
      refine ⟨Or.inl rfl, fun x hx => ?_⟩
      obtain hx | hx := hx
      · obtain rfl := Option.some.inj hx
        exact le_rfl
      · cases hx
  | cons b l ih =>
      obtain ⟨hmem, hle⟩ := ih h
      have hsome : (offer stamp (late b) r (write b)).isSome := isSome_offer _ _ _
      obtain ⟨v, hv⟩ := Option.isSome_iff_exists.1 hsome
      obtain ⟨hvmem, hvle⟩ := latest_offer hv
      have hvw : stamp v ≤ stamp w := hle v (Or.inl hv)
      constructor
      · obtain hmem | hmem := hmem
        · obtain rfl : v = w := Option.some.inj (hv.symm.trans hmem)
          exact hvmem.imp_right fun heq => List.mem_cons.2 (Or.inl heq)
        · exact Or.inr (List.mem_cons_of_mem _ hmem)
      · intro x hx
        obtain hx | hx := hx
        · exact (hvle x (Or.inl hx)).trans hvw
        · obtain rfl | hx := List.mem_cons.1 hx
          · exact (hvle _ (Or.inr rfl)).trans hvw
          · exact hle x (Or.inr hx)

theorem isSome_register {r : Option α} {l : List β} (h : r.isSome ∨ l ≠ []) :
    (register stamp late write r l).isSome := by
  induction l generalizing r with
  | nil => exact h.resolve_right fun hne => hne rfl
  | cons b l ih => exact ih (Or.inl (isSome_offer (late b) r (write b)))

/-- The register after some writes of which only one is latest. -/
theorem register_eq {r : Option α} {l : List β} {w : α}
    (h : Latest stamp {x | x ∈ r ∨ x ∈ l.map write} w)
    (huniq : ∀ v, Latest stamp {x | x ∈ r ∨ x ∈ l.map write} v → v = w) :
    register stamp late write r l = some w := by
  have hsome : (register stamp late write r l).isSome := by
    refine isSome_register ?_
    obtain hw | hw := h.1
    · exact Or.inl (Option.isSome_iff_exists.2 ⟨w, hw⟩)
    · exact Or.inr fun hnil => by simp [hnil] at hw
  obtain ⟨v, hv⟩ := Option.isSome_iff_exists.1 hsome
  rw [hv, huniq v (latest_register hv)]

/-- **Registers that took the same writes, only one of which is the latest, hold the same.** -/
theorem register_congr {γ : Type*} {late' : γ → Bool} {write' : γ → α} {r r' : Option α}
    {l : List β} {l' : List γ}
    (hsame : ∀ x, (x ∈ r ∨ x ∈ l.map write) ↔ (x ∈ r' ∨ x ∈ l'.map write'))
    (huniq : ∀ v w, Latest stamp {x | x ∈ r ∨ x ∈ l.map write} v →
      Latest stamp {x | x ∈ r ∨ x ∈ l.map write} w → v = w) :
    register stamp late write r l = register stamp late' write' r' l' := by
  have hset : {x | x ∈ r ∨ x ∈ l.map write} = {x | x ∈ r' ∨ x ∈ l'.map write'} := Set.ext hsame
  cases hw : register stamp late write r l with
  | some w =>
      have hlatest := latest_register hw
      symm
      refine register_eq (hset ▸ hlatest) fun v hv => ?_
      exact huniq v w (hset.symm ▸ hv) hlatest
  | none =>
      symm
      by_contra hne
      obtain ⟨w, hw'⟩ := Option.isSome_iff_exists.1 (Option.isSome_iff_ne_none.2 hne)
      have hlatest : Latest stamp {x | x ∈ r ∨ x ∈ l.map write} w := hset ▸ latest_register hw'
      rw [register_eq hlatest fun v hv => huniq v w hv hlatest] at hw
      cases hw

/-- **The first of the latest writes stays** in a register that does not replace on ties. -/
theorem register_eq_of_le {v : α} {l : List β} (hlate : ∀ b ∈ l, late b = false)
    (hle : ∀ b ∈ l, stamp (write b) ≤ stamp v) :
    register stamp late write (some v) l = some v := by
  induction l with
  | nil => rfl
  | cons b l ih =>
      rw [register_cons, hlate b List.mem_cons_self, offer_of_le (hle b List.mem_cons_self)]
      exact ih (fun b hb => hlate b (List.mem_cons_of_mem _ hb))
        fun b hb => hle b (List.mem_cons_of_mem _ hb)

end Register

end LastWriter
