/-
**Walks in a graph with weights, and walking back along predecessors.**

A graph is given by its lists of neighbours, each with a weight; parallel edges are several entries.
A search leaves a predecessor for every node that it has reached, and the path to a node is found by
following them back to the source.

Main definitions:

* `Walks.Walk` — a walk with its nodes and its cost; `Walks.Connected` — there is one;
* `Walks.hops` — the pairs of neighbours in a list of nodes;
* `Walks.walkBack` — the nodes from a node back to the source, if fuel suffices.

Main results:

* `Walks.eq_of_hops` — **a path has no other path among its hops**;
* `Walks.walkBack_nodup` — following predecessors visits no node twice;
* `Walks.walk_of_walkBack` — **what is followed back is a walk from the source**;
* `Walks.walkBack_of_rooted` — following predecessors ends in as many steps as there are nodes.
-/
import Mathlib.Algebra.Order.Group.Defs
import Mathlib.Data.Finset.Card
import Mathlib.Data.List.Nodup

set_option relaxedAutoImplicit false
set_option autoImplicit false

namespace Walks

variable {V K : Type*}

/-! ### Walks -/

/-- A walk from a node to another one: its nodes in order, and the sum of its weights. -/
inductive Walk [Zero K] [Add K] (adj : V → List (V × K)) (u : V) : V → List V → K → Prop
  | refl : Walk adj u u [u] 0
  | step {v x : V} {p : List V} {c w : K} (hwalk : Walk adj u v p c) (hedge : (x, w) ∈ adj v) :
      Walk adj u x (p ++ [x]) (c + w)

def Connected [Zero K] [Add K] (adj : V → List (V × K)) (u v : V) : Prop :=
  ∃ p c, Walk adj u v p c

section Walk

variable [Zero K] [Add K] {adj : V → List (V × K)} {u v : V}

theorem Connected.refl (adj : V → List (V × K)) (u : V) : Connected adj u u := ⟨_, _, .refl⟩

theorem Connected.step (h : Connected adj u v) {x : V} {w : K} (hedge : (x, w) ∈ adj v) :
    Connected adj u x := by
  obtain ⟨p, c, hwalk⟩ := h
  exact ⟨_, _, hwalk.step hedge⟩

theorem Walk.ne_nil {p : List V} {c : K} (h : Walk adj u v p c) : p ≠ [] := by
  cases h with
  | refl => simp
  | step => simp

theorem Walk.head? {p : List V} {c : K} (h : Walk adj u v p c) : p.head? = some u := by
  induction h with
  | refl => rfl
  | step hwalk _ ih => rw [List.head?_append_of_ne_nil _ hwalk.ne_nil, ih]

theorem Walk.getLast? {p : List V} {c : K} (h : Walk adj u v p c) : p.getLast? = some v := by
  cases h with
  | refl => rfl
  | step => simp

/-- The same walk in a graph that has its edges. -/
theorem Walk.mono {adj' : V → List (V × K)} (hsub : ∀ v, adj v ⊆ adj' v) {p : List V} {c : K}
    (h : Walk adj u v p c) : Walk adj' u v p c := by
  induction h with
  | refl => exact .refl
  | step _ hedge ih => exact ih.step (hsub _ hedge)

/-- What holds of the source and of all neighbours holds along a walk. -/
theorem Walk.forall_mem {P : V → Prop} (hsource : P u) (hedges : ∀ v, ∀ nx ∈ adj v, P nx.1)
    {p : List V} {c : K} (h : Walk adj u v p c) : ∀ x ∈ p, P x := by
  induction h with
  | refl => exact fun x hx => List.mem_singleton.1 hx ▸ hsource
  | step _ hedge ih =>
      intro x hx
      rcases List.mem_append.1 hx with hx | hx
      · exact ih x hx
      · exact List.mem_singleton.1 hx ▸ hedges _ _ hedge

end Walk

/-! ### Hops -/

/-- The pairs of neighbours in a list of nodes. -/
def hops (p : List V) : List (V × V) := p.zip p.tail

/-- A list passes from one node to the other or back. -/
def Passes (p : List V) (h : V × V) : Prop := h ∈ hops p ∨ h.swap ∈ hops p

theorem hops_cons_cons (a b : V) (p : List V) : hops (a :: b :: p) = (a, b) :: hops (b :: p) := rfl

theorem mem_of_mem_hops {p : List V} {h : V × V} (hmem : h ∈ hops p) : h.1 ∈ p ∧ h.2 ∈ p :=
  ⟨(List.of_mem_zip hmem).1, List.mem_of_mem_tail (List.of_mem_zip hmem).2⟩

theorem hops_concat {p : List V} {v : V} (hlast : p.getLast? = some v) (x : V) :
    hops (p ++ [x]) = hops p ++ [(v, x)] := by
  induction p with
  | nil => exact absurd hlast (by simp)
  | cons a p ih =>
      cases p with
      | nil =>
          obtain rfl := Option.some.inj hlast
          rfl
      | cons b p =>
          rw [List.getLast?_cons_cons] at hlast
          have := ih hlast
          rw [List.cons_append] at this ⊢
          rw [List.cons_append, hops_cons_cons, this]
          rfl

theorem passes_concat {p : List V} {v : V} (hlast : p.getLast? = some v) (x : V) (h : V × V) :
    Passes (p ++ [x]) h ↔ Passes p h ∨ (v, x) = h ∨ (x, v) = h := by
  have hswap : h.swap = (v, x) ↔ (x, v) = h := by
    rw [Prod.swap_eq_iff_eq_swap, Prod.swap_prod_mk, eq_comm]
  rw [Passes, hops_concat hlast, List.mem_append, List.mem_append, List.mem_singleton,
    List.mem_singleton, hswap, eq_comm, or_or_or_comm, ← Passes]

theorem passes_cons_cons {a b : V} {p : List V} {h : V × V} :
    Passes (a :: b :: p) h ↔ h = (a, b) ∨ h = (b, a) ∨ Passes (b :: p) h := by
  have hswap : h.swap = (a, b) ↔ h = (b, a) := by
    rw [Prod.swap_eq_iff_eq_swap, Prod.swap_prod_mk]
  rw [Passes, hops_cons_cons, List.mem_cons, List.mem_cons, hswap, or_or_or_comm, or_assoc,
    ← Passes]

theorem Passes.mem {p : List V} {h : V × V} (hpass : Passes p h) : h.1 ∈ p ∧ h.2 ∈ p :=
  hpass.elim mem_of_mem_hops fun hswap => (mem_of_mem_hops hswap).symm

/-- A walk that does not pass between two nodes is left when their edges are removed. -/
theorem Walk.avoid [Zero K] [Add K] {adj adj' : V → List (V × K)} {h : V × V}
    (hsub : ∀ v x w, (x, w) ∈ adj v → (v, x) ≠ h → (x, v) ≠ h → (x, w) ∈ adj' v) {u v : V}
    {p : List V} {c : K} (hwalk : Walk adj u v p c) (hnot : ¬ Passes p h) : Walk adj' u v p c := by
  induction hwalk with
  | refl => exact .refl
  | @step v x p c w hwalk hedge ih =>
      rw [passes_concat hwalk.getLast?, not_or, not_or] at hnot
      obtain ⟨hrest, hne, hne'⟩ := hnot
      exact (ih hrest).step (hsub v x w hedge hne hne')

/-- A walk does not pass between nodes without an edge. -/
theorem Walk.not_passes [Zero K] [Add K] {adj : V → List (V × K)} {h : V × V}
    (hnone : ∀ v x w, (x, w) ∈ adj v → (v, x) ≠ h ∧ (x, v) ≠ h) {u v : V} {p : List V} {c : K}
    (hwalk : Walk adj u v p c) : ¬ Passes p h := by
  induction hwalk with
  | refl => simp [Passes, hops]
  | @step v x p c w hwalk hedge ih =>
      rw [passes_concat hwalk.getLast?, not_or, not_or]
      exact ⟨ih, hnone v x w hedge⟩

/-- **A path whose hops another path has** is that path, if they have the same ends. -/
theorem eq_of_hops {p q : List V} (hp : p.Nodup) (hq : q.Nodup) (hhead : p.head? = q.head?)
    (hlast : p.getLast? = q.getLast?) (hhops : ∀ h ∈ hops p, Passes q h) : p = q := by
  induction p generalizing q with
  | nil =>
      cases q with
      | nil => rfl
      | cons b q => exact absurd hhead (by simp)
  | cons a p ih =>
      cases q with
      | nil => exact absurd hhead (by simp)
      | cons b q =>
          obtain rfl : a = b := Option.some.inj hhead
          obtain ⟨hap, hp⟩ := List.nodup_cons.1 hp
          obtain ⟨haq, hq⟩ := List.nodup_cons.1 hq
          cases p with
          | nil =>
              -- the other path begins and ends here
              cases q with
              | nil => rfl
              | cons c q =>
                  rw [List.getLast?_cons_cons] at hlast
                  exact absurd (List.mem_of_getLast? hlast.symm) haq
          | cons b p =>
              cases q with
              | nil =>
                  rw [List.getLast?_cons_cons] at hlast
                  exact absurd (List.mem_of_getLast? hlast) hap
              | cons c q =>
                  have hnext : b = c := by
                    rcases passes_cons_cons.1 (hhops (a, b) List.mem_cons_self) with
                      heq | heq | hpass
                    · exact (Prod.mk.inj heq).2
                    · exact absurd (Prod.mk.inj heq).2 fun h => hap (h ▸ List.mem_cons_self)
                    · exact absurd hpass.mem.1 haq
                  subst hnext
                  rw [List.getLast?_cons_cons, List.getLast?_cons_cons] at hlast
                  refine congrArg (a :: ·) (ih hp hq rfl hlast fun h hmem => ?_)
                  -- the hops that follow do not touch the first node
                  obtain ⟨h₁, h₂⟩ := mem_of_mem_hops hmem
                  rcases passes_cons_cons.1 (hhops h (List.mem_cons_of_mem _ hmem)) with
                    rfl | rfl | hpass
                  · exact absurd h₁ hap
                  · exact absurd h₂ hap
                  · exact hpass

/-! ### Walking back -/

/-- The nodes from a node on, each the predecessor of the one before; a node that is not live ends
the list.  Without fuel there is no answer. -/
def walkBack (prev : V → Option V) (live : V → Bool) : ℕ → Option V → Option (List V)
  | 0, _ => none
  | _ + 1, none => some []
  | n + 1, some v => if live v then (walkBack prev live n (prev v)).map (v :: ·) else some []

section WalkBack

variable {prev : V → Option V} {live : V → Bool}

theorem walkBack_mono {n m : ℕ} {x : Option V} {p : List V}
    (h : walkBack prev live n x = some p) (hle : n ≤ m) : walkBack prev live m x = some p := by
  induction n generalizing m x p with
  | zero => exact absurd h (by simp [walkBack])
  | succ n ih =>
      obtain ⟨m, rfl⟩ := Nat.exists_eq_add_of_le' (Nat.lt_of_lt_of_le (Nat.succ_pos n) hle)
      cases x with
      | none => exact h
      | some v =>
          rw [walkBack] at h ⊢
          split at h
          · next hlive =>
              obtain ⟨q, hq, rfl⟩ := Option.map_eq_some_iff.1 h
              rw [if_pos hlive, ih hq (Nat.le_of_succ_le_succ hle), Option.map_some]
          · next hdead => rw [if_neg hdead, h]

theorem walkBack_unique {n m : ℕ} {x : Option V} {p q : List V}
    (hp : walkBack prev live n x = some p) (hq : walkBack prev live m x = some q) : p = q := by
  have hp' := walkBack_mono hp (Nat.le_max_left n m)
  have hq' := walkBack_mono hq (Nat.le_max_right n m)
  exact Option.some.inj (hp'.symm.trans hq')

/-- From each of its nodes on, a list is what is found by walking back from there. -/
theorem walkBack_of_mem {n : ℕ} {x : Option V} {p : List V} (h : walkBack prev live n x = some p)
    {v : V} (hv : v ∈ p) : ∃ m q, walkBack prev live m (some v) = some q ∧ q <:+ p := by
  induction n generalizing x p with
  | zero => exact absurd h (by simp [walkBack])
  | succ n ih =>
      cases x with
      | none =>
          obtain rfl := Option.some.inj h
          exact absurd hv List.not_mem_nil
      | some u =>
          have hself := h
          rw [walkBack] at h
          split at h
          · obtain ⟨q, hq, rfl⟩ := Option.map_eq_some_iff.1 h
            rcases List.mem_cons.1 hv with rfl | hv
            · exact ⟨_, _, hself, List.suffix_refl _⟩
            · obtain ⟨m, q', hq', hsuffix⟩ := ih hq hv
              exact ⟨m, q', hq', hsuffix.trans (List.suffix_cons u q)⟩
          · obtain rfl := Option.some.inj h
            exact absurd hv List.not_mem_nil

/-- **Following predecessors visits no node twice**, since it would go on for ever. -/
theorem walkBack_nodup {n : ℕ} {x : Option V} {p : List V}
    (h : walkBack prev live n x = some p) : p.Nodup := by
  induction n generalizing x p with
  | zero => exact absurd h (by simp [walkBack])
  | succ n ih =>
      cases x with
      | none =>
          obtain rfl := Option.some.inj h
          exact List.nodup_nil
      | some u =>
          have hself := h
          rw [walkBack] at h
          split at h
          · obtain ⟨q, hq, rfl⟩ := Option.map_eq_some_iff.1 h
            refine List.nodup_cons.2 ⟨fun hu => ?_, ih hq⟩
            obtain ⟨m, q', hq', hsuffix⟩ := walkBack_of_mem hq hu
            have hlen := hsuffix.length_le
            rw [← walkBack_unique hself hq', List.length_cons] at hlen
            exact absurd hlen (Nat.not_succ_le_self _)
          · obtain rfl := Option.some.inj h
            exact List.nodup_nil

/-- **What is followed back is a walk from the source**, if predecessors are joined by edges and
only the source has none.  What is known of the source is known of the end of the walk with its
cost, if every edge hands it on. -/
theorem walk_of_walkBack [Zero K] [Add K] {adj : V → List (V × K)} {source : V} {R : V → Prop}
    {Q : V → K → Prop} (hlive : ∀ v, R v → live v)
    (hroot : ∀ v, R v → prev v = none → v = source)
    (hlink : ∀ v u, R v → prev v = some u →
      R u ∧ ∃ w, (v, w) ∈ adj u ∧ ∀ c, Q u c → Q v (c + w))
    (hsource : Q source 0) {n : ℕ} {v : V} {p : List V} (hv : R v)
    (h : walkBack prev live n (some v) = some p) : ∃ c, Walk adj source v p.reverse c ∧ Q v c := by
  induction n generalizing v p with
  | zero => exact absurd h (by simp [walkBack])
  | succ n ih =>
      rw [walkBack, if_pos (hlive v hv)] at h
      obtain ⟨q, hq, rfl⟩ := Option.map_eq_some_iff.1 h
      cases hprev : prev v with
      | none =>
          rw [hprev] at hq
          obtain rfl : q = [] := by
            cases n with
            | zero => exact absurd hq (by simp [walkBack])
            | succ n => exact (Option.some.inj hq).symm
          obtain rfl := hroot v hv hprev
          exact ⟨0, .refl, hsource⟩
      | some u =>
          rw [hprev] at hq
          obtain ⟨hu, w, hedge, hcost⟩ := hlink v u hv hprev
          obtain ⟨c, hwalk, hc⟩ := ih hu hq
          rw [List.reverse_cons]
          exact ⟨c + w, hwalk.step hedge, hcost c hc⟩

theorem walkBack_length {n : ℕ} {x : Option V} {p : List V}
    (h : walkBack prev live n x = some p) : walkBack prev live (p.length + 1) x = some p := by
  induction n generalizing x p with
  | zero => exact absurd h (by simp [walkBack])
  | succ n ih =>
      cases x with
      | none =>
          obtain rfl := Option.some.inj h
          rfl
      | some v =>
          rw [walkBack] at h
          split at h
          · next hlive =>
              obtain ⟨q, hq, rfl⟩ := Option.map_eq_some_iff.1 h
              rw [List.length_cons, walkBack, if_pos hlive, ih hq, Option.map_some]
          · next hdead =>
              obtain rfl := Option.some.inj h
              rw [walkBack, if_neg hdead]

theorem forall_of_walkBack {R : V → Prop} (hlink : ∀ v u, R v → prev v = some u → R u) {n : ℕ}
    {x : Option V} {p : List V} (hx : ∀ v, x = some v → R v)
    (h : walkBack prev live n x = some p) : ∀ v ∈ p, R v := by
  induction n generalizing x p with
  | zero => exact absurd h (by simp [walkBack])
  | succ n ih =>
      cases x with
      | none =>
          obtain rfl := Option.some.inj h
          exact fun v hv => absurd hv List.not_mem_nil
      | some v =>
          rw [walkBack] at h
          split at h
          · obtain ⟨q, hq, rfl⟩ := Option.map_eq_some_iff.1 h
            intro u hu
            rcases List.mem_cons.1 hu with rfl | hu
            · exact hx u rfl
            · exact ih (fun w hw => hlink v w (hx v rfl) hw) hq u hu
          · obtain rfl := Option.some.inj h
            exact fun v hv => absurd hv List.not_mem_nil

/-- Following predecessors leads to a node that has none. -/
inductive Rooted (prev : V → Option V) : V → Prop
  | root {v : V} (hprev : prev v = none) : Rooted prev v
  | step {v u : V} (hprev : prev v = some u) (hu : Rooted prev u) : Rooted prev v

/-- Other predecessors that agree along the way. -/
theorem Rooted.congr {prev' : V → Option V} (hlink : ∀ v u, prev v = some u → prev' u = prev u)
    {v : V} (h : Rooted prev v) (hv : prev' v = prev v) : Rooted prev' v := by
  induction h with
  | root hprev => exact .root (hv.trans hprev)
  | @step v u hprev _ ih => exact .step (hv.trans hprev) (ih (hlink v u hprev))

theorem Rooted.exists_walkBack {v : V} (h : Rooted prev v) (live : V → Bool) :
    ∃ n p, walkBack prev live n (some v) = some p := by
  by_cases hlive : live v
  · induction h with
    | @root v hprev => exact ⟨2, [v], by rw [walkBack, if_pos hlive, hprev]; rfl⟩
    | @step v u hprev hu ih =>
        by_cases hu : live u
        · obtain ⟨n, p, hp⟩ := ih hu
          exact ⟨n + 1, v :: p, by rw [walkBack, if_pos hlive, hprev, hp, Option.map_some]⟩
        · refine ⟨2, [v], ?_⟩
          rw [walkBack, if_pos hlive, hprev, walkBack, if_neg hu, Option.map_some]
  · exact ⟨1, [], by rw [walkBack, if_neg hlive]⟩

/-- **Following predecessors ends** in as many steps as there are nodes. -/
theorem walkBack_of_rooted [DecidableEq V] {R : V → Prop} {L : Finset V} (hL : ∀ v, R v → v ∈ L)
    (hlink : ∀ v u, R v → prev v = some u → R u) {v : V} (hv : R v) (hroot : Rooted prev v) {n : ℕ}
    (hn : L.card < n) : ∃ p, walkBack prev live n (some v) = some p := by
  obtain ⟨m, p, hp⟩ := hroot.exists_walkBack live
  have hreached := forall_of_walkBack hlink (fun w hw => Option.some.inj hw ▸ hv) hp
  have hsub : p.toFinset ⊆ L := fun u hu => hL u (hreached u (List.mem_toFinset.1 hu))
  have hlen := Finset.card_le_card hsub
  rw [List.toFinset_card_of_nodup (walkBack_nodup hp)] at hlen
  exact ⟨p, walkBack_mono (walkBack_length hp) (by omega)⟩

end WalkBack

end Walks
