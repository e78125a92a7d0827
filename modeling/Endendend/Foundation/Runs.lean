/-
**Runs of a labelled transition system.**

A system is a partial step function `step : σ → ℓ → Option σ`: the label says which move is made,
and `none` says that the move is not enabled.  Everything that is asynchronous in a program (which
of several suspended calls resumes next, in which order messages arrive, what the clock shows) is
in the labels, so a statement about every list of labels is a statement about every interleaving.

Main definitions:

* `Runs.run` — the state reached by a list of labels;
* `Runs.Along` — a condition on the state before each step and the label of the step, met by every
  step of a run;
* `Runs.Sometime` — such a condition, met by some step of a run;
* `Runs.emitted` — what the steps of a run emit, in order;
* `Runs.Simulates` — every step of one system is a step of another, seen through a map of states.

Main results:

* `Runs.mem_emitted` — what a run emits is emitted by one of its steps;
* `Runs.along_iff_forall_split` — the steps of a run, each with the state before it;
* `Runs.always_iff_along` — when a property holds in all states of a run;
* `Runs.always_iff_along_of_run` — the same with an invariant, along a run that was made;
* `Runs.along_congr` — conditions that agree in the states of an invariant;
* `Runs.invariant_of_run` — a property kept by every step holds at the end of every run;
* `Runs.invariant_along` — the same when only the steps that meet a condition keep it;
* `Runs.iff_along` — when a step keeps a property *exactly* if it meets a condition, a run ends
  with the property exactly if it began with it and all its steps met the condition;
* `Runs.invariant_of_history` — an invariant may speak of the steps made so far;
* `Runs.Simulates.run`, `Runs.Simulates.along_iff`, `Runs.Simulates.emitted_eq` — **a run of the one
  system is a run of the other**, with the same conditions along it and with what it emits.
-/
import Mathlib.Data.List.Basic
import Mathlib.Data.List.Induction

set_option relaxedAutoImplicit false
set_option autoImplicit false

namespace Runs

variable {σ ℓ : Type*} (step : σ → ℓ → Option σ)

/-- The state reached from a state by the labels in order, if each of them is enabled. -/
def run : σ → List ℓ → Option σ
  | s, [] => some s
  | s, l :: ls => (step s l).bind fun s' => run s' ls

/-- Every step of the run meets `P`, read off the state before the step and its label. -/
def Along (P : σ → ℓ → Prop) : σ → List ℓ → Prop
  | _, [] => True
  | s, l :: ls => P s l ∧ ∀ s', step s l = some s' → Along P s' ls

instance decidableAlong (P : σ → ℓ → Prop) [∀ s l, Decidable (P s l)] :
    ∀ (s : σ) (ls : List ℓ), Decidable (Along step P s ls)
  | _, [] => isTrue trivial
  | s, l :: ls =>
    have : DecidablePred fun s' => Along step P s' ls := fun s' => decidableAlong P s' ls
    inferInstanceAs (Decidable (P s l ∧ ∀ s' ∈ step s l, Along step P s' ls))

/-- Some step of the run meets `P`, read off the state before the step and its label. -/
def Sometime (P : σ → ℓ → Prop) : σ → List ℓ → Prop
  | _, [] => False
  | s, l :: ls => P s l ∨ ∃ s', step s l = some s' ∧ Sometime P s' ls

instance decidableSometime (P : σ → ℓ → Prop) [∀ s l, Decidable (P s l)] :
    ∀ (s : σ) (ls : List ℓ), Decidable (Sometime step P s ls)
  | _, [] => isFalse id
  | s, l :: ls =>
    have : DecidablePred fun s' => Sometime step P s' ls := fun s' => decidableSometime P s' ls
    inferInstanceAs (Decidable (P s l ∨ ∃ s' ∈ step s l, Sometime step P s' ls))

/-- What the steps of a run emit, read off the state before each step and its label. -/
def emitted {τ : Type*} (f : σ → ℓ → Option τ) : σ → List ℓ → List τ
  | _, [] => []
  | s, l :: ls => (f s l).toList ++ ((step s l).map fun s' => emitted f s' ls).getD []

@[simp] theorem run_nil (s : σ) : run step s [] = some s := rfl

@[simp] theorem along_nil (P : σ → ℓ → Prop) (s : σ) : Along step P s [] := trivial

variable {step}

theorem run_cons {s s'' : σ} {l : ℓ} {ls : List ℓ} :
    run step s (l :: ls) = some s'' ↔ ∃ s', step s l = some s' ∧ run step s' ls = some s'' :=
  Option.bind_eq_some_iff

theorem run_append {s s'' : σ} {ls ls' : List ℓ} :
    run step s (ls ++ ls') = some s'' ↔
      ∃ s', run step s ls = some s' ∧ run step s' ls' = some s'' := by
  induction ls generalizing s with
  | nil => simp
  | cons l ls ih =>
      rw [List.cons_append, run_cons]
      constructor
      · rintro ⟨s₁, h₁, h⟩
        obtain ⟨s', hs', h'⟩ := ih.1 h
        exact ⟨s', run_cons.2 ⟨s₁, h₁, hs'⟩, h'⟩
      · rintro ⟨s', hs', h'⟩
        obtain ⟨s₁, h₁, h⟩ := run_cons.1 hs'
        exact ⟨s₁, h₁, ih.2 ⟨s', h, h'⟩⟩

theorem along_cons {P : σ → ℓ → Prop} {s s' : σ} {l : ℓ} {ls : List ℓ} (h : step s l = some s') :
    Along step P s (l :: ls) ↔ P s l ∧ Along step P s' ls := by
  simp [Along, h]

theorem run_concat {s s'' : σ} {ls : List ℓ} {l : ℓ} :
    run step s (ls ++ [l]) = some s'' ↔ ∃ s', run step s ls = some s' ∧ step s' l = some s'' := by
  simp only [run_append, run_cons, run_nil, Option.some.injEq, exists_eq_right]

/-- If every label is always enabled, every list of labels is a run. -/
theorem exists_run (htotal : ∀ s l, ∃ s', step s l = some s') (s : σ) (ls : List ℓ) :
    ∃ s', run step s ls = some s' := by
  induction ls generalizing s with
  | nil => exact ⟨s, rfl⟩
  | cons l ls ih =>
      obtain ⟨s₁, h₁⟩ := htotal s l
      obtain ⟨s', hs'⟩ := ih s₁
      exact ⟨s', run_cons.2 ⟨s₁, h₁, hs'⟩⟩

/-- The steps of a run one after the other. -/
theorem sometime_concat {P : σ → ℓ → Prop} {s s' : σ} {ls : List ℓ} {l : ℓ}
    (h : run step s ls = some s') :
    Sometime step P s (ls ++ [l]) ↔ Sometime step P s ls ∨ P s' l := by
  induction ls generalizing s with
  | nil =>
      obtain rfl := Option.some.inj h
      simp [Sometime]
  | cons l' ls ih =>
      obtain ⟨s₁, h₁, h⟩ := run_cons.1 h
      rw [List.cons_append, Sometime, Sometime, or_assoc]
      refine or_congr_right ?_
      simp only [h₁, Option.some.injEq, exists_eq_left', ih h]

theorem along_concat {P : σ → ℓ → Prop} {s s' : σ} {ls : List ℓ} {l : ℓ}
    (h : run step s ls = some s') :
    Along step P s (ls ++ [l]) ↔ Along step P s ls ∧ P s' l := by
  induction ls generalizing s with
  | nil =>
      obtain rfl := Option.some.inj h
      simp [Along]
  | cons l' ls ih =>
      obtain ⟨s₁, h₁, h⟩ := run_cons.1 h
      rw [List.cons_append, along_cons h₁, along_cons h₁, ih h, and_assoc]

theorem emitted_concat {τ : Type*} (f : σ → ℓ → Option τ) {s s' : σ} {ls : List ℓ} (l : ℓ)
    (h : run step s ls = some s') :
    emitted step f s (ls ++ [l]) = emitted step f s ls ++ (f s' l).toList := by
  induction ls generalizing s with
  | nil =>
      obtain rfl := Option.some.inj h
      cases hs : step s l <;> simp [emitted, hs]
  | cons l' ls ih =>
      obtain ⟨s₁, h₁, h⟩ := run_cons.1 h
      simp only [List.cons_append, emitted, h₁, Option.map_some, Option.getD_some, ih h,
        List.append_assoc]

/-- What a run emits is emitted by one of its steps. -/
theorem emitted_map {τ τ' : Type*} (g : τ → τ') (f : σ → ℓ → Option τ) (s : σ) (ls : List ℓ) :
    emitted step (fun s l => (f s l).map g) s ls = (emitted step f s ls).map g := by
  induction ls generalizing s with
  | nil => rfl
  | cons l ls ih =>
      rw [emitted, emitted, List.map_append]
      cases f s l <;> cases step s l <;> simp [ih]

theorem mem_emitted {τ : Type*} {f : σ → ℓ → Option τ} {s : σ} {ls : List ℓ} {t : τ} :
    t ∈ emitted step f s ls ↔
      ∃ pre l s', pre ++ [l] <+: ls ∧ run step s pre = some s' ∧ t ∈ f s' l := by
  induction ls generalizing s with
  | nil => simp [emitted]
  | cons l ls ih =>
      rw [emitted, List.mem_append, Option.mem_toList]
      constructor
      · rintro (ht | ht)
        · exact ⟨[], l, s, List.prefix_append [l] ls, rfl, ht⟩
        · cases hs : step s l with
          | none => simp [hs] at ht
          | some s₁ =>
              simp only [hs, Option.map_some, Option.getD_some] at ht
              obtain ⟨pre, l', s', hpre, hs', ht⟩ := ih.1 ht
              exact ⟨l :: pre, l', s', List.cons_prefix_cons.2 ⟨rfl, hpre⟩,
                run_cons.2 ⟨s₁, hs, hs'⟩, ht⟩
      · rintro ⟨pre, l', s', hpre, hs', ht⟩
        cases pre with
        | nil =>
            obtain ⟨rfl, -⟩ := List.cons_prefix_cons.1 hpre
            obtain rfl := Option.some.inj hs'
            exact Or.inl ht
        | cons l₀ pre =>
            obtain ⟨rfl, hrest⟩ := List.cons_prefix_cons.1 hpre
            obtain ⟨s₁, hs, hs'⟩ := run_cons.1 hs'
            simp only [hs, Option.map_some, Option.getD_some]
            exact Or.inr (ih.2 ⟨pre, l', s', hrest, hs', ht⟩)

/-- The steps of a run, each with the state that the steps before it reach. -/
theorem along_iff_forall_split {P : σ → ℓ → Prop} {s : σ} {ls : List ℓ} :
    Along step P s ls ↔
      ∀ pre l post s', ls = pre ++ l :: post → run step s pre = some s' → P s' l := by
  induction ls generalizing s with
  | nil => simp
  | cons l ls ih =>
      constructor
      · rintro ⟨hP, h⟩ pre l' post s' hsplit hs'
        cases pre with
        | nil =>
            obtain ⟨rfl, -⟩ := List.cons.inj hsplit
            obtain rfl := Option.some.inj hs'
            exact hP
        | cons l₀ pre =>
            obtain ⟨rfl, hrest⟩ := List.cons.inj hsplit
            obtain ⟨s₁, h₁, hs'⟩ := run_cons.1 hs'
            exact ih.1 (h s₁ h₁) pre l' post s' hrest hs'
      · intro h
        refine ⟨h [] l ls s rfl rfl, fun s₁ h₁ => ih.2 fun pre l' post s' hsplit hs' => ?_⟩
        exact h (l :: pre) l' post s' (congrArg _ hsplit) (run_cons.2 ⟨s₁, h₁, hs'⟩)

/-- **Conditions for a property to hold all the time.**  If a step from a state with `Q` ends with
`Q` exactly if it meets `P`, then `Q` holds in all states of a run exactly if it holds in the first
one and all steps meet `P`. -/
theorem always_iff_along {P : σ → ℓ → Prop} {Q : σ → Prop}
    (hstep : ∀ s l, Q s → (P s l ↔ ∀ s', step s l = some s' → Q s')) {s : σ} {ls : List ℓ} :
    (∀ p t, p <+: ls → run step s p = some t → Q t) ↔ Q s ∧ Along step P s ls := by
  induction ls generalizing s with
  | nil =>
      simp only [List.prefix_nil, along_nil, and_true]
      constructor
      · exact fun h => h [] s rfl rfl
      · rintro h p t rfl ht
        exact Option.some.inj ht ▸ h
  | cons l ls ih =>
      constructor
      · intro h
        have hs : Q s := h [] s List.nil_prefix rfl
        have htail : ∀ s', step s l = some s' → Q s' ∧ Along step P s' ls := by
          intro s' hs'
          refine ih.1 fun p t hp ht => ?_
          exact h (l :: p) t (List.prefix_cons_inj l |>.2 hp) (run_cons.2 ⟨s', hs', ht⟩)
        exact ⟨hs, (hstep s l hs).2 fun s' hs' => (htail s' hs').1, fun s' hs' => (htail s' hs').2⟩
      · rintro ⟨hs, hP, hrest⟩ p t hp ht
        cases p with
        | nil => exact Option.some.inj ht ▸ hs
        | cons l' p =>
            obtain ⟨rfl, hrest'⟩ := List.cons_prefix_cons.1 hp
            obtain ⟨s', hs', ht⟩ := run_cons.1 ht
            exact ih.2 ⟨(hstep s l' hs).1 hP s' hs', hrest s' hs'⟩ p t hrest' ht

/-- **Conditions for a property to hold all along a run.**  If the steps that meet `P` keep an
invariant with `Q`, and every other step ends without `Q`, then `Q` holds in all states of a run
exactly if all steps meet `P`. -/
theorem always_iff_along_of_run {I Q : σ → Prop} {P : σ → ℓ → Prop} (hQ : ∀ s, I s → Q s)
    (hkeep : ∀ s l s', I s → P s l → step s l = some s' → I s')
    (hbreak : ∀ s l s', I s → ¬ P s l → step s l = some s' → ¬ Q s') {s s' : σ} {ls : List ℓ}
    (h₀ : I s) (h : run step s ls = some s') :
    (∀ p t, p <+: ls → run step s p = some t → Q t) ↔ Along step P s ls := by
  induction ls generalizing s with
  | nil =>
      refine iff_of_true ?_ trivial
      intro p t hp ht
      obtain rfl := List.prefix_nil.1 hp
      exact Option.some.inj ht ▸ hQ s h₀
  | cons l ls ih =>
      obtain ⟨s₁, h₁, htail⟩ := run_cons.1 h
      rw [along_cons h₁]
      constructor
      · intro hall
        have hP : P s l := by
          by_contra hP
          refine hbreak s l s₁ h₀ hP h₁ (hall [l] s₁ (List.prefix_append [l] ls) ?_)
          exact run_cons.2 ⟨s₁, h₁, rfl⟩
        refine ⟨hP, (ih (hkeep s l s₁ h₀ hP h₁) htail).1 fun p t hp ht => ?_⟩
        exact hall (l :: p) t (List.prefix_cons_inj l |>.2 hp) (run_cons.2 ⟨s₁, h₁, ht⟩)
      · rintro ⟨hP, hrest⟩ p t hp ht
        cases p with
        | nil => exact Option.some.inj ht ▸ hQ s h₀
        | cons l' p =>
            obtain ⟨rfl, hp'⟩ := List.cons_prefix_cons.1 hp
            obtain ⟨s₂, h₂, ht⟩ := run_cons.1 ht
            obtain rfl := Option.some.inj (h₁.symm.trans h₂)
            exact (ih (hkeep s l' s₁ h₀ hP h₁) htail).2 hrest p t hp' ht

/-- A run-wide condition may be weakened step by step. -/
theorem Along.mono {P Q : σ → ℓ → Prop} (hPQ : ∀ s l, P s l → Q s l) :
    ∀ {ls : List ℓ} {s : σ}, Along step P s ls → Along step Q s ls
  | [], _, _ => trivial
  | _ :: _, _, h => ⟨hPQ _ _ h.1, fun s' hs' => (h.2 s' hs').mono hPQ⟩

/-- The first steps of a run. -/
theorem Along.of_prefix {P : σ → ℓ → Prop} {p ls : List ℓ} {s : σ} (h : Along step P s ls)
    (hp : p <+: ls) : Along step P s p := by
  induction p generalizing s ls with
  | nil => trivial
  | cons l p ih =>
      obtain ⟨ls', rfl, hp'⟩ := List.cons_prefix_iff.1 hp
      exact ⟨h.1, fun s' hs' => ih (h.2 s' hs') hp'⟩

/-- The last steps of a run. -/
theorem Along.of_append {P : σ → ℓ → Prop} {p ls : List ℓ} {s s' : σ}
    (h : Along step P s (p ++ ls)) (hp : run step s p = some s') : Along step P s' ls := by
  induction p generalizing s with
  | nil => exact Option.some.inj hp ▸ h
  | cons l p ih =>
      obtain ⟨s₁, h₁, hp⟩ := run_cons.1 hp
      exact ih (h.2 s₁ h₁) hp

/-- Two conditions are met by all steps of a run if each of them is. -/
theorem along_and {P Q : σ → ℓ → Prop} {s : σ} {ls : List ℓ} :
    Along step (fun s l => P s l ∧ Q s l) s ls ↔ Along step P s ls ∧ Along step Q s ls := by
  induction ls generalizing s with
  | nil => exact (and_self_iff).symm
  | cons l ls ih =>
      simp only [Along, ih]
      constructor
      · exact fun h => ⟨⟨h.1.1, fun s' hs' => (h.2 s' hs').1⟩, h.1.2, fun s' hs' => (h.2 s' hs').2⟩
      · exact fun h => ⟨⟨h.1.1, h.2.1⟩, fun s' hs' => ⟨h.1.2 s' hs', h.2.2 s' hs'⟩⟩

/-- Two conditions that mean the same in the states of an invariant `I`, which the first of them
keeps, are met by the same runs. -/
theorem along_congr {I : σ → Prop} {P Q : σ → ℓ → Prop}
    (hkeep : ∀ s l s', I s → P s l → step s l = some s' → I s')
    (hiff : ∀ s l, I s → (P s l ↔ Q s l)) {s : σ} {ls : List ℓ} (h : I s) :
    Along step P s ls ↔ Along step Q s ls := by
  induction ls generalizing s with
  | nil => exact Iff.rfl
  | cons l ls ih =>
      rw [Along, Along, ← hiff s l h]
      refine and_congr_right fun hP => forall_congr' fun s' => ?_
      exact forall_congr' fun hs' => ih (hkeep s l s' h hP hs')

/-- A condition on the labels alone. -/
theorem along_of_forall {P : ℓ → Prop} {ls : List ℓ} (h : ∀ l ∈ ls, P l) (s : σ) :
    Along step (fun _ l => P l) s ls := by
  induction ls generalizing s with
  | nil => trivial
  | cons l ls ih =>
      have ih := ih fun l hl => h l (List.mem_cons_of_mem _ hl)
      exact ⟨h l List.mem_cons_self, fun s' _ => ih s'⟩

/-- **Invariants.**  A property that every step keeps holds at the end of every run. -/
theorem invariant_of_run {I : σ → Prop}
    (hstep : ∀ s l s', I s → step s l = some s' → I s') {s s' : σ} {ls : List ℓ}
    (h₀ : I s) (h : run step s ls = some s') : I s' := by
  induction ls generalizing s with
  | nil => simpa [← Option.some_inj.1 h] using h₀
  | cons l ls ih =>
      obtain ⟨s₁, h₁, h⟩ := run_cons.1 h
      exact ih (hstep s l s₁ h₀ h₁) h

/-- **Invariants of the history.**  An invariant may speak of the steps made so far. -/
theorem invariant_of_history {I : List ℓ → σ → Prop} {s : σ} (h₀ : I [] s)
    (hstep : ∀ ls l s₁ s₂, run step s ls = some s₁ → I ls s₁ → step s₁ l = some s₂ →
      I (ls ++ [l]) s₂) {s' : σ} {ls : List ℓ} (h : run step s ls = some s') : I ls s' := by
  induction ls using List.reverseRecOn generalizing s' with
  | nil => exact Option.some.inj h ▸ h₀
  | append_singleton ls l ih =>
      obtain ⟨s₁, h₁, h⟩ := run_concat.1 h
      exact hstep ls l s₁ s' h₁ (ih h₁) h

/-- **Conditional invariants.**  A property kept by the steps that meet `P` holds at the end of
every run all of whose steps meet `P`. -/
theorem invariant_along {I : σ → Prop} {P : σ → ℓ → Prop}
    (hstep : ∀ s l s', I s → P s l → step s l = some s' → I s') {s s' : σ} {ls : List ℓ}
    (h₀ : I s) (hP : Along step P s ls) (h : run step s ls = some s') : I s' := by
  induction ls generalizing s with
  | nil => simpa [← Option.some_inj.1 h] using h₀
  | cons l ls ih =>
      obtain ⟨s₁, h₁, h⟩ := run_cons.1 h
      exact ih (hstep s l s₁ h₀ hP.1 h₁) (hP.2 s₁ h₁) h

/-- **Exact conditions.**  If a step ends in `Q` exactly when it starts in `Q` and meets `P`, then a
run ends in `Q` exactly when it starts in `Q` and all its steps meet `P`.  The step lemma may use an
invariant `I` of the system. -/
theorem iff_along {I Q : σ → Prop} {P : σ → ℓ → Prop}
    (hinv : ∀ s l s', I s → step s l = some s' → I s')
    (hstep : ∀ s l s', I s → step s l = some s' → (Q s' ↔ Q s ∧ P s l)) {s s' : σ} {ls : List ℓ}
    (h₀ : I s) (h : run step s ls = some s') : Q s' ↔ Q s ∧ Along step P s ls := by
  induction ls generalizing s with
  | nil => simp [← Option.some_inj.1 h]
  | cons l ls ih =>
      obtain ⟨s₁, h₁, h⟩ := run_cons.1 h
      rw [ih (hinv s l s₁ h₀ h₁) h, hstep s l s₁ h₀ h₁, along_cons h₁, and_assoc]

/-! ### Two systems -/

section Simulation

variable {τ m : Type*} (step' : τ → m → Option τ) (view : σ → τ) (label : σ → ℓ → m) (I : σ → Prop)

/-- Every step from a state that meets `I` is a step of the other system, seen through `view`, and
leads to a state that meets `I`. -/
structure Simulates (step : σ → ℓ → Option σ) : Prop where
  keeps : ∀ {s l s'}, I s → step s l = some s' → I s'
  step : ∀ {s l s'}, I s → step s l = some s' → step' (view s) (label s l) = some (view s')

/-- The labels of a run in the other system. -/
def labels (step : σ → ℓ → Option σ) : σ → List ℓ → List m :=
  emitted step fun s l => some (label s l)

namespace Simulates

variable {step' view label I} (hsim : Simulates step' view label I step) {s s' : σ} {ls : List ℓ}
include hsim

theorem run (h₀ : I s) (h : run step s ls = some s') :
    Runs.run step' (view s) (labels label step s ls) = some (view s') := by
  induction ls generalizing s with
  | nil => exact congrArg (some ∘ view) (Option.some.inj h)
  | cons l ls ih =>
      obtain ⟨s₁, h₁, h⟩ := run_cons.1 h
      simp only [labels, emitted, h₁, Option.toList_some, Option.map_some, Option.getD_some]
      exact run_cons.2 ⟨view s₁, hsim.step h₀ h₁, ih (hsim.keeps h₀ h₁) h⟩

/-- A condition on the steps may be read in either system. -/
theorem along_iff {P : τ → m → Prop} (h₀ : I s) (h : Runs.run step s ls = some s') :
    Along step' P (view s) (labels label step s ls) ↔
      Along step (fun s l => P (view s) (label s l)) s ls := by
  induction ls generalizing s with
  | nil => exact Iff.rfl
  | cons l ls ih =>
      obtain ⟨s₁, h₁, h⟩ := run_cons.1 h
      simp only [labels, emitted, h₁, Option.toList_some, Option.map_some, Option.getD_some]
      rw [List.singleton_append, along_cons (hsim.step h₀ h₁), along_cons h₁]
      exact and_congr_right fun _ => ih (hsim.keeps h₀ h₁) h

/-- What is emitted may be read in either system. -/
theorem emitted_eq {o : Type*} {f : τ → m → Option o} (h₀ : I s)
    (h : Runs.run step s ls = some s') :
    emitted step' f (view s) (labels label step s ls) =
      emitted step (fun s l => f (view s) (label s l)) s ls := by
  induction ls generalizing s with
  | nil => rfl
  | cons l ls ih =>
      obtain ⟨s₁, h₁, h⟩ := run_cons.1 h
      simp only [labels, emitted, h₁, Option.toList_some, Option.map_some, Option.getD_some]
      rw [List.singleton_append, emitted, hsim.step h₀ h₁]
      exact congrArg _ (ih (hsim.keeps h₀ h₁) h)

end Simulates

end Simulation

end Runs
