/-
**Hash chains.**

Every row of a chain names the digest of the row before it, and its own digest is computed from that
name and from its body.  The digest function, the digests and the bodies are arbitrary.

Main definitions:

* `HashChain.Row` — a row: the digest it points back to, its body, its own digest;
* `HashChain.Linked` — every row points to the digest before it and carries its own correctly;
* `HashChain.tail` — the digest of the last row, or the one the chain starts from.

Main results:

* `HashChain.linked_append` — a chain is linked exactly if its two parts are;
* `HashChain.bodies_of_tail_eq` — **the tail seals the chain**: two linked chains with the same tail
  have the same length and, row by row, the same bodies;
* `HashChain.forall₂_of_tail_eq` — the same when only the rows at hand have no collision.
-/
import Mathlib.Data.List.Basic
import Mathlib.Data.List.Forall2
import Mathlib.Data.List.Induction

set_option relaxedAutoImplicit false
set_option autoImplicit false

/-- A row of a hash chain. -/
structure HashChain.Row (H B : Type*) where
  prev : H
  body : B
  hash : H

namespace HashChain

variable {H B : Type*} (digest : H → B → H)

/-- Each row points to the digest before it, the first one to `p`, and carries its own digest. -/
def Linked : H → List (Row H B) → Prop
  | _, [] => True
  | p, r :: rs => r.prev = p ∧ r.hash = digest p r.body ∧ Linked r.hash rs

/-- The digest of the last row, `p` if there is none. -/
def tail : H → List (Row H B) → H
  | p, [] => p
  | _, r :: rs => tail r.hash rs

@[simp] theorem linked_nil (p : H) : Linked digest p ([] : List (Row H B)) := trivial

@[simp] theorem tail_nil (p : H) : tail p ([] : List (Row H B)) = p := rfl

@[simp] theorem tail_concat (p : H) (rs : List (Row H B)) (r : Row H B) :
    tail p (rs ++ [r]) = r.hash := by
  induction rs generalizing p with
  | nil => rfl
  | cons r₀ rs ih => exact ih r₀.hash

variable {digest}

theorem linked_append {p : H} {rs ss : List (Row H B)} :
    Linked digest p (rs ++ ss) ↔ Linked digest p rs ∧ Linked digest (tail p rs) ss := by
  induction rs generalizing p with
  | nil => simp
  | cons r rs ih => simp only [List.cons_append, Linked, tail, ih, and_assoc]

/-- A row may be pushed exactly if it points to the tail and its digest is right. -/
theorem linked_concat {p : H} {rs : List (Row H B)} {r : Row H B} :
    Linked digest p (rs ++ [r]) ↔
      Linked digest p rs ∧ r.prev = tail p rs ∧ r.hash = digest (tail p rs) r.body := by
  simp only [linked_append, Linked, and_true]

/-! ### The tail seals the chain -/

section Sealed

/- `G` holds of the digests that occur as heads; on these the digest function has no collision,
up to the equality `R` of bodies that it is meant to see. -/
variable {G : H → Prop} {R : B → B → Prop} {g : H}

/-- The tail of a linked chain is the start or a computed digest. -/
theorem good_tail (hg : G g) (hd : ∀ p b, G (digest p b)) {rs : List (Row H B)}
    (h : Linked digest g rs) : G (tail g rs) := by
  induction rs using List.reverseRecOn with
  | nil => exact hg
  | append_singleton rs r _ =>
      rw [tail_concat, (linked_concat.1 h).2.2]
      exact hd _ _

/-- **The tail seals the chain.**  The last rows have the same digest, so they point to the same
digest and have the same body; going back, neither chain can reach its start before the other,
because no digest is the start. -/
theorem bodies_of_tail_eq (hg : G g) (hd : ∀ p b, G (digest p b)) (hne : ∀ p b, digest p b ≠ g)
    (hinj : ∀ p b q c, G p → G q → digest p b = digest q c → p = q ∧ R b c)
    {rs ss : List (Row H B)} (hr : Linked digest g rs) (hs : Linked digest g ss)
    (h : tail g rs = tail g ss) : List.Forall₂ R (rs.map Row.body) (ss.map Row.body) := by
  induction rs using List.reverseRecOn generalizing ss with
  | nil =>
      cases ss using List.reverseRecOn with
      | nil => exact .nil
      | append_singleton ss s =>
          rw [tail_concat, (linked_concat.1 hs).2.2] at h
          exact absurd h.symm (hne _ _)
  | append_singleton rs r ih =>
      obtain ⟨hr, -, hrd⟩ := linked_concat.1 hr
      cases ss using List.reverseRecOn with
      | nil =>
          rw [tail_concat, hrd] at h
          exact absurd h (hne _ _)
      | append_singleton ss s =>
          obtain ⟨hs, -, hsd⟩ := linked_concat.1 hs
          rw [tail_concat, tail_concat, hrd, hsd] at h
          obtain ⟨htail, hbody⟩ := hinj _ _ _ _ (good_tail hg hd hr) (good_tail hg hd hs) h
          rw [List.map_append, List.map_append]
          exact List.rel_append (ih hr hs htail) (.cons hbody .nil)

end Sealed

/-- **The tail seals the chain**, and it is enough that no digest of its rows is the start and that
none of them collide. -/
theorem forall₂_of_tail_eq {R : B → B → Prop} {g : H} {rs ss : List (Row H B)}
    (hne : ∀ r ∈ rs ++ ss, r.hash ≠ g)
    (hinj : ∀ r ∈ rs, ∀ s ∈ ss, r.hash = s.hash → r.prev = s.prev ∧ R r.body s.body)
    (hr : Linked digest g rs) (hs : Linked digest g ss) (h : tail g rs = tail g ss) :
    List.Forall₂ R (rs.map Row.body) (ss.map Row.body) := by
  induction rs using List.reverseRecOn generalizing ss with
  | nil =>
      cases ss using List.reverseRecOn with
      | nil => exact .nil
      | append_singleton ss s =>
          rw [tail_concat] at h
          exact absurd h.symm (hne s (by simp))
  | append_singleton rs r ih =>
      cases ss using List.reverseRecOn with
      | nil =>
          rw [tail_concat] at h
          exact absurd h (hne r (by simp))
      | append_singleton ss s =>
          rw [tail_concat, tail_concat] at h
          obtain ⟨hprev, hbody⟩ := hinj r (by simp) s (by simp) h
          obtain ⟨hr, hrprev, -⟩ := linked_concat.1 hr
          obtain ⟨hs, hsprev, -⟩ := linked_concat.1 hs
          have htail : tail g rs = tail g ss := hrprev.symm.trans (hprev.trans hsprev)
          rw [List.map_append, List.map_append]
          refine List.rel_append (ih ?_ ?_ hr hs htail) (.cons hbody .nil)
          · intro x hx
            refine hne x ?_
            rcases List.mem_append.1 hx with hx | hx <;> simp [hx]
          · exact fun x hx y hy => hinj x (List.mem_append_left _ hx) y (List.mem_append_left _ hy)

end HashChain
