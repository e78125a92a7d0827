/-
**How long it has been quiet.**

A log has entries of interest, and what counts at its end is how many entries came since the last of
them.

Main definitions:

* `QuietTail.quiet` — the number of entries after the last one of interest;
* `QuietTail.recent` — the last entries of a log.

Main results:

* `QuietTail.quiet_append`, `QuietTail.quiet_append_of_mark` — what an addition does to the count;
* `QuietTail.exists_last_split` — **a log that has been quiet for long splits after its last entry
  of interest**;
* `QuietTail.recent_append`, `QuietTail.recent_concat_recent` — what an addition does to the last
  entries;
* `QuietTail.nodup_window_concat` — a log that takes only what is not among its last entries has no
  repetition in any window.
-/
import Mathlib.Data.List.DropRight
import Mathlib.Data.List.Induction
import Mathlib.Data.List.Nodup

set_option relaxedAutoImplicit false
set_option autoImplicit false

namespace QuietTail

variable {α : Type*}

/-- The number of entries after the last one of interest. -/
def quiet (p : α → Bool) (l : List α) : ℕ := (l.rtakeWhile fun x => !p x).length

/-- The last entries of a log. -/
def recent (n : ℕ) (l : List α) : List α := l.drop (l.length - n)

variable {p : α → Bool}

theorem quiet_concat_of_mark {x : α} (h : p x = true) (l : List α) : quiet p (l ++ [x]) = 0 := by
  rw [quiet, List.rtakeWhile_concat_neg _ _ _ (by simp [h]), List.length_nil]

theorem quiet_concat_of_not_mark {x : α} (h : p x = false) (l : List α) :
    quiet p (l ++ [x]) = quiet p l + 1 := by
  rw [quiet, List.rtakeWhile_concat_pos _ _ _ (by simp [h]), List.length_append,
    List.length_singleton, quiet]

/-- **Entries without interest** add to the count, whatever else the log has. -/
theorem quiet_append (l : List α) {m : List α} (h : ∀ x ∈ m, p x = false) :
    quiet p (l ++ m) = quiet p l + m.length := by
  induction m using List.reverseRecOn with
  | nil => simp
  | append_singleton m x ih =>
      rw [← List.append_assoc, quiet_concat_of_not_mark (h x (by simp)),
        ih fun y hy => h y (List.mem_append_left _ hy), List.length_append, List.length_singleton,
        Nat.add_assoc]

/-- An entry of interest makes what was before it irrelevant. -/
theorem quiet_append_of_mark (l : List α) {m : List α} (h : ∃ x ∈ m, p x = true) :
    quiet p (l ++ m) = quiet p m := by
  induction m using List.reverseRecOn with
  | nil => simp at h
  | append_singleton m x ih =>
      rw [← List.append_assoc]
      cases hx : p x with
      | true => rw [quiet_concat_of_mark hx, quiet_concat_of_mark hx]
      | false =>
          have hm : ∃ y ∈ m, p y = true := by
            obtain ⟨y, hy, hpy⟩ := h
            rcases List.mem_append.1 hy with hy | hy
            · exact ⟨y, hy, hpy⟩
            · rw [List.mem_singleton.1 hy, hx] at hpy
              exact absurd hpy (by decide)
          rw [quiet_concat_of_not_mark hx, quiet_concat_of_not_mark hx, ih hm]

theorem recent_append_right (l : List α) {m : List α} {n : ℕ} (h : m.length = n) :
    recent n (l ++ m) = m := by
  rw [recent, List.length_append, h, Nat.add_sub_cancel, List.drop_left]

theorem recent_concat_one (l : List α) (x : α) : recent 1 (l ++ [x]) = [x] :=
  recent_append_right l rfl

/-- An entry with few entries after it is among the last ones. -/
theorem mem_recent (pre : List α) {rest : List α} {x : α} {n : ℕ} (h : rest.length < n) :
    x ∈ recent n (pre ++ x :: rest) := by
  have hle : (pre ++ x :: rest).length - n ≤ pre.length := by
    rw [List.length_append, List.length_cons]
    omega
  rw [recent, List.drop_append_of_le_length hle]
  exact List.mem_append_right _ List.mem_cons_self

/-- **A log that has been quiet for long** ends, after its last entry of interest, with many entries
of none. -/
theorem exists_last_split {l : List α} {n : ℕ} (h : ∃ x ∈ l, p x = true)
    (hquiet : ∀ x ∈ recent n l, p x = false) :
    ∃ pre x rest, l = pre ++ x :: rest ∧ p x = true ∧ (∀ y ∈ rest, p y = false) ∧
      n ≤ rest.length := by
  have hsplit : l.rdropWhile (fun x => !p x) ++ l.rtakeWhile (fun x => !p x) = l :=
    List.rdropWhile_append_rtakeWhile
  have hrest : ∀ y ∈ l.rtakeWhile fun x => !p x, p y = false := fun y hy => by
    simpa using List.mem_rtakeWhile_imp hy
  have hne : l.rdropWhile (fun x => !p x) ≠ [] := by
    intro hnil
    rw [hnil, List.nil_append] at hsplit
    obtain ⟨x, hx, hpx⟩ := h
    rw [hrest x (hsplit.symm ▸ hx)] at hpx
    exact absurd hpx (by decide)
  have hlast := List.rdropWhile_last_not (fun x => !p x) l hne
  rw [← List.dropLast_append_getLast hne, List.append_assoc, List.singleton_append] at hsplit
  refine ⟨_, _, _, hsplit.symm, by simpa using hlast, hrest, ?_⟩
  -- otherwise the last entry of interest is among the recent ones
  by_contra hshort
  have hmem := hsplit ▸ mem_recent (l.rdropWhile fun x => !p x).dropLast (not_le.1 hshort)
  exact hlast (by simpa using hquiet _ hmem)

/-! ### Windows -/

theorem recent_of_length_le {l : List α} {n : ℕ} (h : l.length ≤ n) : recent n l = l := by
  rw [recent, Nat.sub_eq_zero_of_le h, List.drop_zero]

theorem length_recent (n : ℕ) (l : List α) : (recent n l).length = min n l.length := by
  rw [recent, List.length_drop]
  omega

/-- The last entries after one more: the oldest one goes if there is no room. -/
theorem recent_concat {n : ℕ} (hn : 0 < n) (l : List α) (x : α) :
    recent n (l ++ [x]) =
      (if (recent n l).length = n then (recent n l).tail else recent n l) ++ [x] := by
  rw [length_recent]
  split_ifs with hfull
  · rw [recent, recent, List.tail_drop, List.length_append, List.length_singleton,
      List.drop_append_of_le_length (by omega)]
    exact congrArg (fun k => l.drop k ++ [x]) (by omega)
  · rw [recent_of_length_le (by rw [List.length_append, List.length_singleton]; omega),
      recent_of_length_le (by omega)]

/-- The last entries of two logs, one after the other. -/
theorem recent_append (n : ℕ) (l m : List α) :
    recent n (l ++ m) = recent (n - m.length) l ++ recent n m := by
  rw [recent, recent, recent, List.drop_append, List.length_append]
  refine congrArg₂ (· ++ ·) ?_ (congrArg (m.drop ·) (by omega))
  rcases le_total m.length n with hle | hle
  · exact congrArg (l.drop ·) (by omega)
  · rw [List.drop_of_length_le (by omega), List.drop_of_length_le (by omega)]

theorem recent_recent {m n : ℕ} (h : m ≤ n) (l : List α) : recent m (recent n l) = recent m l := by
  rw [recent, recent, recent, List.length_drop, List.drop_drop]
  exact congrArg (l.drop ·) (by omega)

/-- What is older than the last entries does not count later either. -/
theorem recent_concat_recent (n : ℕ) (l : List α) (x : α) :
    recent n (recent n l ++ [x]) = recent n (l ++ [x]) := by
  rw [recent_append, recent_append, recent_recent (Nat.sub_le _ _)]

/-- **Where what stays follows what goes**: if all entries after one that stays also stay, a filter
takes out a first part of the log. -/
theorem exists_split_filter {l : List α} (h : l.Pairwise fun x y => p x = true → p y = true) :
    ∃ old, l = old ++ l.filter p ∧ ∀ x ∈ old, p x = false := by
  induction l with
  | nil => exact ⟨[], rfl, by simp⟩
  | cons x l ih =>
      obtain ⟨hx, hl⟩ := List.pairwise_cons.1 h
      cases hpx : p x with
      | true =>
          have hall : ∀ y ∈ x :: l, p y = true :=
            List.forall_mem_cons.2 ⟨hpx, fun y hy => hx y hy hpx⟩
          exact ⟨[], (List.filter_eq_self.2 hall).symm, by simp⟩
      | false =>
          obtain ⟨old, hsplit, hold⟩ := ih hl
          refine ⟨x :: old, ?_, List.forall_mem_cons.2 ⟨hpx, hold⟩⟩
          rw [List.filter_cons_of_neg (by simp [hpx]), List.cons_append, ← hsplit]

/-- No entry is repeated among `n + 1` in a row. -/
def WindowNodup (n : ℕ) (l : List α) : Prop := ∀ w, w <:+: l → w.length ≤ n + 1 → w.Nodup

/-- **A log that takes only what is not among its last entries** has no repetition in any window. -/
theorem nodup_window_concat {n : ℕ} {l : List α} {x : α} (h : WindowNodup n l)
    (hx : x ∉ recent n l) : WindowNodup n (l ++ [x]) := by
  intro w hw hlength
  obtain ⟨pre, post, heq⟩ := hw
  obtain rfl | ⟨post, y, rfl⟩ := post.eq_nil_or_concat'
  · -- the window ends with the new entry
    rw [List.append_nil] at heq
    obtain rfl | ⟨w, y, rfl⟩ := w.eq_nil_or_concat'
    · exact List.nodup_nil
    · rw [← List.append_assoc] at heq
      obtain ⟨rfl, hxy⟩ := List.append_inj' heq rfl
      obtain rfl := (List.cons.inj hxy).1
      rw [List.length_append, List.length_singleton] at hlength
      have hrecent : ∀ z ∈ w, z ∈ recent n (pre ++ w) := by
        intro z hz
        rw [recent, List.drop_append_of_le_length (by rw [List.length_append]; omega)]
        exact List.mem_append_right _ hz
      refine List.nodup_append.2 ⟨?_, List.nodup_singleton _, fun z hz z' hz' heq => ?_⟩
      · exact h w (List.suffix_append pre w).isInfix (by omega)
      · rw [List.mem_singleton.1 hz'] at heq
        exact hx (heq ▸ hrecent z hz)
  · rw [← List.append_assoc] at heq
    obtain ⟨rfl, -⟩ := List.append_inj' heq rfl
    exact h w ⟨pre, post, rfl⟩ hlength

end QuietTail
