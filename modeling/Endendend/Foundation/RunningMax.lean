/-
**A running maximum that may drop a term.**

A state has a level, and each step either raises it to the level of the term that arrives or drops
the term.  Where every step takes its term, the level after a run is the maximum; here is what the
level is in general, and when it is that of the start or the maximum of all.

Main definitions:

* `RunningMax.Drops` — the laws of a step: a dropped term was higher than the state, and leaves the
  level as it is.

Main results:

* `RunningMax.Drops.foldl_eq_iff` — the level stays exactly if every higher term is dropped;
* `RunningMax.Drops.foldl_eq_max_iff` — **the level becomes the maximum exactly if one of the
  highest terms is not dropped**.
-/
import Mathlib.Data.List.Basic
import Mathlib.Data.List.Induction
import Mathlib.Order.Lattice

set_option relaxedAutoImplicit false
set_option autoImplicit false

namespace RunningMax

variable {σ τ L : Type*} [LinearOrder L]

/-- A step drops a term only where it is higher than the state, and then leaves the level alone;
otherwise the level becomes the higher one of the two. -/
structure Drops (step : σ → τ → σ) (level : σ → L) (height : τ → L) (drop : σ → τ → Prop) :
    Prop where
  lt_of_drop : ∀ s t, drop s t → level s < height t
  level_of_drop : ∀ s t, drop s t → level (step s t) = level s
  level_of_take : ∀ s t, ¬ drop s t → level (step s t) = max (level s) (height t)

namespace Drops

variable {step : σ → τ → σ} {level : σ → L} {height : τ → L} {drop : σ → τ → Prop}
  (h : Drops step level height drop)

include h

theorem le_step (s : σ) (t : τ) : level s ≤ level (step s t) := by
  by_cases hd : drop s t
  · rw [h.level_of_drop s t hd]
  · rw [h.level_of_take s t hd]
    exact le_max_left _ _

theorem step_le (s : σ) (t : τ) : level (step s t) ≤ max (level s) (height t) := by
  by_cases hd : drop s t
  · rw [h.level_of_drop s t hd]
    exact le_max_left _ _
  · exact (h.level_of_take s t hd).le

/-- The level does not fall. -/
theorem le_foldl (s : σ) (ts : List τ) : level s ≤ level (ts.foldl step s) := by
  induction ts generalizing s with
  | nil => exact le_refl _
  | cons t ts ih => exact (h.le_step s t).trans (ih (step s t))

/-- The level does not rise above all terms. -/
theorem foldl_le {s : σ} {ts : List τ} {M : L} (hs : level s ≤ M) (hts : ∀ t ∈ ts, height t ≤ M) :
    level (ts.foldl step s) ≤ M := by
  induction ts generalizing s with
  | nil => exact hs
  | cons t ts ih =>
      refine ih ?_ fun t' ht' => hts t' (List.mem_cons_of_mem t ht')
      exact (h.step_le s t).trans (max_le hs (hts t List.mem_cons_self))

/-- **The level stays exactly if every higher term is dropped.** -/
theorem foldl_eq_iff {s : σ} {ts : List τ} :
    level (ts.foldl step s) = level s ↔
      ∀ pre t post, ts = pre ++ t :: post → level s < height t → drop (pre.foldl step s) t := by
  induction ts using List.reverseRecOn with
  | nil => simp
  | append_singleton ts t ih =>
      rw [List.foldl_append, List.foldl_cons, List.foldl_nil]
      have hle : level s ≤ level (ts.foldl step s) := h.le_foldl s ts
      constructor
      · intro heq
        have hts : level (ts.foldl step s) = level s :=
          le_antisymm (heq ▸ h.le_step _ t) hle
        intro pre t' post hsplit hlt
        cases post using List.reverseRecOn with
        | nil =>
            obtain ⟨rfl, hlast⟩ := List.append_inj' hsplit rfl
            obtain rfl := (List.cons.inj hlast).1
            by_contra hd
            rw [h.level_of_take _ _ hd, hts, max_eq_right hlt.le] at heq
            exact absurd heq hlt.ne'
        | append_singleton post t'' =>
            rw [← List.cons_append, ← List.append_assoc] at hsplit
            exact ih.1 hts pre t' post (List.append_inj' hsplit rfl).1 hlt
      · intro hall
        have hts : level (ts.foldl step s) = level s := by
          refine ih.2 fun pre t' post hsplit hlt => ?_
          refine hall pre t' (post ++ [t]) ?_ hlt
          rw [hsplit, List.append_assoc, List.cons_append]
        by_cases hd : drop (ts.foldl step s) t
        · rw [h.level_of_drop _ _ hd, hts]
        · have hnot : ¬ level s < height t := fun hlt => hd (hall ts t [] rfl hlt)
          rw [h.level_of_take _ _ hd, hts, max_eq_left (not_lt.1 hnot)]

/-- **The level becomes the maximum exactly if one of the highest terms is not dropped.** -/
theorem foldl_eq_max_iff {s : σ} {ts : List τ} {M : L} (hM : ∀ t ∈ ts, height t ≤ M)
    (hmem : ∃ t ∈ ts, height t = M) :
    level (ts.foldl step s) = max (level s) M ↔
      ∃ pre t post, ts = pre ++ t :: post ∧ height t = M ∧ ¬ drop (pre.foldl step s) t := by
  constructor
  · intro heq
    by_contra hnone
    have hdrop : ∀ pre t post, ts = pre ++ t :: post → height t = M →
        drop (pre.foldl step s) t := by
      intro pre t post hsplit ht
      by_contra hd
      exact hnone ⟨pre, t, post, hsplit, ht, hd⟩
    -- then the level stays below the maximum
    have hbelow : ∀ p q, ts = p ++ q → level s < M → level (p.foldl step s) < M := by
      intro p
      induction p using List.reverseRecOn with
      | nil => exact fun _ _ hs => hs
      | append_singleton p t ih =>
          intro q hsplit hs
          rw [List.append_assoc] at hsplit
          have hp := ih _ hsplit hs
          rw [List.foldl_append, List.foldl_cons, List.foldl_nil]
          by_cases ht : height t = M
          · rw [h.level_of_drop _ _ (hdrop p t q hsplit ht)]
            exact hp
          · have hle := hM t (hsplit ▸ List.mem_append_right p List.mem_cons_self)
            exact (h.step_le _ t).trans_lt (max_lt hp (lt_of_le_of_ne hle ht))
    obtain ⟨t, ht, htM⟩ := hmem
    obtain ⟨pre, post, hsplit⟩ := List.append_of_mem ht
    have hlt := h.lt_of_drop _ _ (hdrop pre t post hsplit htM)
    have hs : level s < M := ((h.le_foldl s pre).trans_lt hlt).trans_eq htM
    have hend := hbelow ts [] (List.append_nil ts).symm hs
    rw [heq, max_eq_right hs.le] at hend
    exact absurd hend (lt_irrefl M)
  · rintro ⟨pre, t, post, rfl, ht, hd⟩
    have hall : ∀ t' ∈ pre ++ t :: post, height t' ≤ max (level s) M := fun t' ht' =>
      (hM t' ht').trans (le_max_right _ _)
    refine le_antisymm (h.foldl_le (le_max_left _ _) hall) (max_le (h.le_foldl s _) ?_)
    rw [List.foldl_append, List.foldl_cons]
    refine le_trans ?_ (h.le_foldl _ post)
    rw [h.level_of_take _ _ hd, ht]
    exact le_max_right _ _

end Drops

end RunningMax
