/-
**A search for cheapest walks with a lazy queue.**

The search takes the cheapest entry off a queue, and lowers the distances of the neighbours of its
node; every time a distance is lowered, a new entry goes to the queue, and the old one stays there
until it is taken and found out of date.  It stops when the target is taken, or nothing is left.

With weights of any sign the search may go on for ever, but what it leaves when it stops is a set of
reached nodes, each with a predecessor.  Without negative weights it ends, and the distances are
those of the cheapest walks.

Main definitions:

* `Dijkstra.Search`, `Dijkstra.relax`, `Dijkstra.search` — the state, the lowering of a distance and
  the loop;
* `Dijkstra.Inv` — what holds for weights of any sign; `Dijkstra.Settling` — without negative ones;
* `Dijkstra.Stopped` — how the search ends.

Main results:

* `Dijkstra.search_induction` — what the steps of the search keep holds when it stops;
* `Dijkstra.Inv.reached_iff` — **the target has a distance exactly if it is connected**;
* `Dijkstra.Settling.dist_le` — **its distance is at most the cost of any walk**;
* `Dijkstra.Settling.search_isSome` — **without negative weights the search ends**;
* `Dijkstra.search_eq_none_of_neg` — between two nodes with an edge of negative weight it does not.
-/
import Endendend.Foundation.Walks
import Mathlib.Algebra.Order.BigOperators.Group.List
import Mathlib.Algebra.Order.Ring.Nat
import Mathlib.Data.List.Sort
import Mathlib.Logic.Function.Basic

set_option relaxedAutoImplicit false
set_option autoImplicit false

namespace Dijkstra

open Walks

variable {V K : Type*}

/-! ### The queue -/

section Queue

variable [LinearOrder K]

/-- The queue in the order of the distances. -/
def sorted (pq : List (V × K)) : List (V × K) := pq.insertionSort fun a b => a.2 ≤ b.2

/-- The cheapest entry of the queue, and what is left without it. -/
structure Pops (pq : List (V × K)) (cur : V × K) (rest : List (V × K)) : Prop where
  perm : pq.Perm (cur :: rest)
  min : ∀ e ∈ pq, cur.2 ≤ e.2

theorem pops_of_sorted {pq rest : List (V × K)} {cur : V × K} (h : sorted pq = cur :: rest) :
    Pops pq cur rest := by
  have hperm : (sorted pq).Perm pq := List.perm_insertionSort _ pq
  have hsorted : (sorted pq).Pairwise fun a b => a.2 ≤ b.2 := List.pairwise_insertionSort _ pq
  rw [h] at hperm hsorted
  refine ⟨hperm.symm, fun e he => ?_⟩
  rcases List.mem_cons.1 (hperm.mem_iff.2 he) with rfl | he
  · exact le_refl _
  · exact List.rel_of_pairwise_cons hsorted he

theorem eq_nil_of_sorted {pq : List (V × K)} (h : sorted pq = []) : pq = [] :=
  List.Perm.eq_nil (h ▸ (List.perm_insertionSort _ pq).symm)

namespace Pops

variable {pq rest : List (V × K)} {cur : V × K} (h : Pops pq cur rest)

include h

theorem mem_iff {e : V × K} : e ∈ pq ↔ e = cur ∨ e ∈ rest := by
  rw [h.perm.mem_iff, List.mem_cons]

theorem subset : rest ⊆ pq := fun _ he => h.mem_iff.2 (Or.inr he)

theorem nodup (hpq : pq.Nodup) : cur ∉ rest ∧ rest.Nodup :=
  List.nodup_cons.1 (h.perm.nodup_iff.1 hpq)

theorem length_eq : pq.length = rest.length + 1 := by
  rw [h.perm.length_eq, List.length_cons]

end Pops

end Queue

/-! ### The search -/

/-- The distances and the predecessors that are known, and the queue of nodes with the distances
that they had. -/
structure Search (V K : Type*) where
  dist : V → Option K
  prev : V → Option V
  pq : List (V × K)

section Search

variable [DecidableEq V] [AddCommGroup K] [LinearOrder K]

/-- The source alone is known. -/
def start (source : V) : Search V K :=
  ⟨Function.update (fun _ => none) source (some 0), fun _ => none, [(source, 0)]⟩

/-- Lowers the distance of a neighbour, if the way through the node that was taken is cheaper. -/
def relax (cur : V × K) (s : Search V K) (nx : V × K) : Search V K :=
  let nd := cur.2 + nx.2
  if (s.dist nx.1).all (nd < ·) then
    { dist := Function.update s.dist nx.1 (some nd)
      prev := Function.update s.prev nx.1 (some cur.1)
      pq := s.pq ++ [(nx.1, nd)] }
  else s

/-- The loop; without fuel there is no answer. -/
def search (adj : V → List (V × K)) (target : V) : ℕ → Search V K → Option (Search V K)
  | 0, _ => none
  | n + 1, s =>
    match sorted s.pq with
    | [] => some s
    | cur :: rest =>
      let s := { s with pq := rest }
      if cur.1 = target then some s
      -- the entry is out of date
      else if (s.dist cur.1).any (· < cur.2) then search adj target n s
      else search adj target n ((adj cur.1).foldl (relax cur) s)

/-- How the search ends: from a state whose queue is empty, or with the target as the cheapest
entry. -/
structure Stopped (target : V) (s s' : Search V K) : Prop where
  dist_eq : s'.dist = s.dist
  prev_eq : s'.prev = s.prev
  queue : s.pq = [] ∨ ∃ d, (target, d) ∈ s.pq ∧ ∀ e ∈ s.pq, d ≤ e.2

/-- **What the steps of the search keep holds when it stops.** -/
theorem search_induction {adj : V → List (V × K)} {target : V} {P : Search V K → Prop}
    (hskip : ∀ s cur rest, P s → Pops s.pq cur rest → (s.dist cur.1).any (· < cur.2) →
      P { s with pq := rest })
    (hexpand : ∀ s cur rest, P s → Pops s.pq cur rest → ¬ (s.dist cur.1).any (· < cur.2) →
      P ((adj cur.1).foldl (relax cur) { s with pq := rest }))
    {n : ℕ} {s s' : Search V K} (hs : P s) (h : search adj target n s = some s') :
    ∃ t, P t ∧ Stopped target t s' := by
  induction n generalizing s with
  | zero => exact absurd h (by simp [search])
  | succ n ih =>
      rw [search] at h
      cases hsort : sorted s.pq with
      | nil =>
          rw [hsort] at h
          obtain rfl := Option.some.inj h
          exact ⟨s, hs, rfl, rfl, Or.inl (eq_nil_of_sorted hsort)⟩
      | cons cur rest =>
          have hpops := pops_of_sorted hsort
          rw [hsort] at h
          dsimp only at h
          split at h
          · next heq =>
              obtain rfl := Option.some.inj h
              refine ⟨s, hs, rfl, rfl, Or.inr ⟨cur.2, ?_, hpops.min⟩⟩
              exact heq ▸ hpops.perm.mem_iff.2 List.mem_cons_self
          · split at h
            · next hold => exact ih (hskip s cur rest hs hpops hold) h
            · next hnew => exact ih (hexpand s cur rest hs hpops hnew) h

/-! ### Lowering distances -/

/-- What is known after the neighbours `nxs` of a node have been looked at. -/
structure Relaxes (cur : V × K) (nxs : List (V × K)) (s s' : Search V K) : Prop where
  mono : ∀ x d, s.dist x = some d → ∃ d', s'.dist x = some d' ∧ d' ≤ d
  reached : ∀ nx ∈ nxs, ∃ d, s'.dist nx.1 = some d ∧ d ≤ cur.2 + nx.2
  changed : ∀ x, s'.dist x = s.dist x ∧ s'.prev x = s.prev x ∨
    ∃ w, (x, w) ∈ nxs ∧ s'.dist x = some (cur.2 + w) ∧ s'.prev x = some cur.1 ∧
      (x, cur.2 + w) ∈ s'.pq ∧ ∀ d, s.dist x = some d → cur.2 + w < d
  keeps : s.pq ⊆ s'.pq
  adds : ∀ e ∈ s'.pq, e ∈ s.pq ∨
    ∃ w, (e.1, w) ∈ nxs ∧ e.2 = cur.2 + w ∧ ∀ d, s.dist e.1 = some d → e.2 < d
  length_le : s'.pq.length ≤ s.pq.length + nxs.length

omit [DecidableEq V] in
theorem relaxes_nil (cur : V × K) (s : Search V K) : Relaxes cur [] s s where
  mono := fun _ d h => ⟨d, h, le_refl d⟩
  reached := fun _ h => absurd h List.not_mem_nil
  changed := fun _ => Or.inl ⟨rfl, rfl⟩
  keeps := List.Subset.refl _
  adds := fun _ h => Or.inl h
  length_le := le_refl _

/-- One neighbour. -/
theorem relaxes_relax (cur : V × K) (s : Search V K) (nx : V × K) :
    Relaxes cur [nx] s (relax cur s nx) := by
  rw [relax]
  split
  · next hall =>
      have hlower : ∀ d, s.dist nx.1 = some d → cur.2 + nx.2 < d := fun d hd => by
        simpa [hd] using hall
      constructor
      · intro x d hd
        by_cases hx : x = nx.1
        · subst hx
          exact ⟨cur.2 + nx.2, Function.update_self .., (hlower d hd).le⟩
        · exact ⟨d, (Function.update_of_ne hx ..).trans hd, le_refl d⟩
      · intro nx' hnx'
        obtain rfl := List.mem_singleton.1 hnx'
        exact ⟨cur.2 + nx'.2, Function.update_self .., le_refl _⟩
      · intro x
        by_cases hx : x = nx.1
        · subst hx
          exact Or.inr ⟨nx.2, List.mem_singleton_self nx, Function.update_self ..,
            Function.update_self .., List.mem_append_right _ List.mem_cons_self, hlower⟩
        · exact Or.inl ⟨Function.update_of_ne hx .., Function.update_of_ne hx ..⟩
      · exact List.subset_append_left _ _
      · intro e he
        refine (List.mem_append.1 he).imp_right fun he => ?_
        obtain rfl := List.mem_singleton.1 he
        exact ⟨nx.2, List.mem_singleton_self nx, rfl, hlower⟩
      · rw [List.length_append, List.length_singleton, List.length_singleton]
  · next hsome =>
      obtain ⟨d, hd, hle⟩ : ∃ d, s.dist nx.1 = some d ∧ d ≤ cur.2 + nx.2 := by
        cases hd : s.dist nx.1 with
        | none => simp [hd] at hsome
        | some d => exact ⟨d, rfl, by simpa [hd] using hsome⟩
      constructor
      · exact fun x d hd => ⟨d, hd, le_refl d⟩
      · intro nx' hnx'
        obtain rfl := List.mem_singleton.1 hnx'
        exact ⟨d, hd, hle⟩
      · exact fun x => Or.inl ⟨rfl, rfl⟩
      · exact List.Subset.refl _
      · exact fun e he => Or.inl he
      · exact Nat.le_add_right _ _

omit [DecidableEq V] in
theorem Relaxes.trans {cur nx : V × K} {nxs : List (V × K)} {s t u : Search V K}
    (h : Relaxes cur [nx] s t) (h' : Relaxes cur nxs t u) : Relaxes cur (nx :: nxs) s u := by
  constructor
  · intro x d hd
    obtain ⟨d₁, hd₁, hle₁⟩ := h.mono x d hd
    obtain ⟨d₂, hd₂, hle₂⟩ := h'.mono x d₁ hd₁
    exact ⟨d₂, hd₂, hle₂.trans hle₁⟩
  · intro nx' hnx'
    rcases List.mem_cons.1 hnx' with rfl | hnx'
    · obtain ⟨d₁, hd₁, hle₁⟩ := h.reached nx' (List.mem_singleton_self nx')
      obtain ⟨d₂, hd₂, hle₂⟩ := h'.mono _ d₁ hd₁
      exact ⟨d₂, hd₂, hle₂.trans hle₁⟩
    · exact h'.reached nx' hnx'
  · intro x
    rcases h'.changed x with ⟨hdist', hprev'⟩ | ⟨w, hw, hdist', hprev', hpq, hlower⟩
    · rcases h.changed x with ⟨hdist, hprev⟩ | ⟨w, hw, hdist, hprev, hpq, hlower⟩
      · exact Or.inl ⟨hdist'.trans hdist, hprev'.trans hprev⟩
      · refine Or.inr ⟨w, ?_, hdist'.trans hdist, hprev'.trans hprev, h'.keeps hpq, hlower⟩
        exact List.mem_cons.2 (Or.inl (List.mem_singleton.1 hw))
    · refine Or.inr ⟨w, List.mem_cons_of_mem nx hw, hdist', hprev', hpq, fun d hd => ?_⟩
      obtain ⟨d₁, hd₁, hle₁⟩ := h.mono x d hd
      exact (hlower d₁ hd₁).trans_le hle₁
  · exact List.Subset.trans h.keeps h'.keeps
  · intro e he
    rcases h'.adds e he with he | ⟨w, hw, heq, hlower⟩
    · refine (h.adds e he).imp_right fun ⟨w, hw, heq⟩ => ⟨w, ?_, heq⟩
      exact List.mem_cons.2 (Or.inl (List.mem_singleton.1 hw))
    · refine Or.inr ⟨w, List.mem_cons_of_mem nx hw, heq, fun d hd => ?_⟩
      obtain ⟨d₁, hd₁, hle₁⟩ := h.mono e.1 d hd
      exact (hlower d₁ hd₁).trans_le hle₁
  · have hlen := h.length_le
    have hlen' := h'.length_le
    rw [List.length_singleton] at hlen
    rw [List.length_cons]
    omega

theorem relaxes_foldl (cur : V × K) (nxs : List (V × K)) (s : Search V K) :
    Relaxes cur nxs s (nxs.foldl (relax cur) s) := by
  induction nxs generalizing s with
  | nil => exact relaxes_nil cur s
  | cons nx nxs ih => exact (relaxes_relax cur s nx).trans (ih (relax cur s nx))

/-- The entries of the queue are old distances of their nodes, each of them once. -/
structure Queued (s : Search V K) : Prop where
  entry : ∀ e ∈ s.pq, ∃ d, s.dist e.1 = some d ∧ d ≤ e.2
  nodup : s.pq.Nodup

theorem Queued.relax {s : Search V K} (h : Queued s) (cur nx : V × K) :
    Queued (relax cur s nx) := by
  have hmono := (relaxes_relax cur s nx).mono
  generalize hs' : Dijkstra.relax cur s nx = s' at hmono ⊢
  rw [Dijkstra.relax] at hs'
  split at hs'
  · next hall =>
      subst hs'
      constructor
      · intro e he
        rcases List.mem_append.1 he with he | he
        · obtain ⟨d, hd, hle⟩ := h.entry e he
          obtain ⟨d', hd', hle'⟩ := hmono e.1 d hd
          exact ⟨d', hd', hle'.trans hle⟩
        · obtain rfl := List.mem_singleton.1 he
          exact ⟨_, Function.update_self .., le_refl _⟩
      · -- a lower distance is not in the queue yet
        refine List.nodup_append.2 ⟨h.nodup, List.nodup_singleton _, fun e he e' he' heq => ?_⟩
        obtain rfl := List.mem_singleton.1 he'
        obtain ⟨d, hd, hle⟩ := h.entry e he
        rw [heq] at hd hle
        have hlt : cur.2 + nx.2 < d := by simpa [hd] using hall
        exact absurd hle (not_le.2 hlt)
  · subst hs'
    exact h

theorem Queued.foldl {s : Search V K} (h : Queued s) (cur : V × K) (nxs : List (V × K)) :
    Queued (nxs.foldl (Dijkstra.relax cur) s) :=
  List.foldlRecOn nxs _ h fun _ ht nx _ => ht.relax cur nx

omit [DecidableEq V] [AddCommGroup K] in
theorem Queued.skip {s : Search V K} (h : Queued s) {cur : V × K} {rest : List (V × K)}
    (hpops : Pops s.pq cur rest) : Queued { s with pq := rest } :=
  ⟨fun e he => h.entry e (hpops.subset he), (hpops.nodup h.nodup).2⟩

omit [DecidableEq V] [AddCommGroup K] in
/-- An entry that is not out of date has the distance of its node. -/
theorem Queued.dist_cur {s : Search V K} (h : Queued s) {cur : V × K} {rest : List (V × K)}
    (hpops : Pops s.pq cur rest) (hnew : ¬ (s.dist cur.1).any (· < cur.2)) :
    s.dist cur.1 = some cur.2 := by
  obtain ⟨d, hd, hle⟩ := h.entry cur (hpops.mem_iff.2 (Or.inl rfl))
  have hge : cur.2 ≤ d := by simpa [hd] using hnew
  rw [hd, le_antisymm hle hge]

/-! ### Weights of any sign -/

/-- Every node with a distance is connected with the source, its distance is either in the queue or
handed on to its neighbours, and predecessors are joined by edges. -/
structure Inv (adj : V → List (V × K)) (source : V) (s : Search V K) : Prop extends Queued s where
  source_dist : ∃ d, s.dist source = some d
  handed_on : ∀ v d, s.dist v = some d →
    (v, d) ∈ s.pq ∨ ∀ nx ∈ adj v, ∃ d', s.dist nx.1 = some d' ∧ d' ≤ d + nx.2
  link : ∀ v u, s.prev v = some u → (∃ d, s.dist u = some d) ∧ ∃ w, (v, w) ∈ adj u
  root : ∀ v d, s.dist v = some d → s.prev v = none → v = source
  connected : ∀ v d, s.dist v = some d → Connected adj source v

variable {adj : V → List (V × K)} {source target : V} {s : Search V K}

omit [LinearOrder K] in
theorem dist_start (source v : V) :
    (start source : Search V K).dist v = if v = source then some 0 else none :=
  Function.update_apply (fun _ => none) source (some 0) v

omit [LinearOrder K] in
theorem start_dist {v : V} {d : K} (h : (start source : Search V K).dist v = some d) :
    v = source ∧ d = 0 := by
  rw [dist_start] at h
  split at h
  · next hv => exact ⟨hv, (Option.some.inj h).symm⟩
  · exact absurd h (by simp)

theorem Inv.start : Inv adj source (start source) where
  entry := by
    intro e he
    obtain rfl := List.mem_singleton.1 he
    exact ⟨0, by rw [dist_start, if_pos rfl], le_refl 0⟩
  nodup := List.nodup_singleton _
  source_dist := ⟨0, by rw [dist_start, if_pos rfl]⟩
  handed_on := by
    intro v d hd
    obtain ⟨rfl, rfl⟩ := start_dist hd
    exact Or.inl List.mem_cons_self
  link := fun _ _ h => absurd h (by simp [Dijkstra.start])
  root := fun v d hd _ => (start_dist hd).1
  connected := by
    intro v d hd
    obtain ⟨rfl, rfl⟩ := start_dist hd
    exact .refl adj v

omit [DecidableEq V] in
/-- An entry that is out of date is not missed. -/
theorem Inv.skip (h : Inv adj source s) {cur : V × K} {rest : List (V × K)}
    (hpops : Pops s.pq cur rest) (hold : (s.dist cur.1).any (· < cur.2)) :
    Inv adj source { s with pq := rest } where
  toQueued := h.toQueued.skip hpops
  source_dist := h.source_dist
  handed_on := by
    intro v d hd
    refine (h.handed_on v d hd).imp_left fun hmem => ?_
    rcases hpops.mem_iff.1 hmem with rfl | hrest
    · simp [show s.dist v = some d from hd] at hold
    · exact hrest
  link := h.link
  root := h.root
  connected := h.connected

/-- A node that is taken hands on its distance. -/
theorem Inv.expand (h : Inv adj source s) {cur : V × K} {rest : List (V × K)}
    (hpops : Pops s.pq cur rest) (hnew : ¬ (s.dist cur.1).any (· < cur.2)) :
    Inv adj source ((adj cur.1).foldl (Dijkstra.relax cur) { s with pq := rest }) := by
  have hcur := h.dist_cur hpops hnew
  have hqueued := (h.toQueued.skip hpops).foldl cur (adj cur.1)
  have hr := relaxes_foldl cur (adj cur.1) { s with pq := rest }
  generalize (adj cur.1).foldl (Dijkstra.relax cur) { s with pq := rest } = t at hqueued hr ⊢
  obtain ⟨d₀, hd₀, -⟩ := hr.mono cur.1 cur.2 hcur
  refine ⟨hqueued, ?_, ?_, ?_, ?_, ?_⟩
  · obtain ⟨d, hd⟩ := h.source_dist
    obtain ⟨d', hd', -⟩ := hr.mono source d hd
    exact ⟨d', hd'⟩
  · intro v d hd
    rcases hr.changed v with ⟨hdist, -⟩ | ⟨w, -, hdist, -, hpq, -⟩
    · rcases h.handed_on v d (hdist.symm.trans hd) with hmem | hall
      · rcases hpops.mem_iff.1 hmem with rfl | hrest
        · exact Or.inr hr.reached
        · exact Or.inl (hr.keeps hrest)
      · refine Or.inr fun nx hnx => ?_
        obtain ⟨d₁, hd₁, hle₁⟩ := hall nx hnx
        obtain ⟨d₂, hd₂, hle₂⟩ := hr.mono _ d₁ hd₁
        exact ⟨d₂, hd₂, hle₂.trans hle₁⟩
    · obtain rfl := Option.some.inj (hdist.symm.trans hd)
      exact Or.inl hpq
  · intro v u hprev
    rcases hr.changed v with ⟨-, hsame⟩ | ⟨w, hw, -, hnow, -, -⟩
    · obtain ⟨⟨d, hd⟩, hedge⟩ := h.link v u (hsame.symm.trans hprev)
      obtain ⟨d', hd', -⟩ := hr.mono u d hd
      exact ⟨⟨d', hd'⟩, hedge⟩
    · obtain rfl := Option.some.inj (hnow.symm.trans hprev)
      exact ⟨⟨d₀, hd₀⟩, w, hw⟩
  · intro v d hd hprev
    rcases hr.changed v with ⟨hdist, hsame⟩ | ⟨w, -, -, hnow, -, -⟩
    · exact h.root v d (hdist.symm.trans hd) (hsame.symm.trans hprev)
    · exact absurd (hnow.symm.trans hprev) (by simp)
  · intro v d hd
    rcases hr.changed v with ⟨hdist, -⟩ | ⟨w, hw, -, -, -, -⟩
    · exact h.connected v d (hdist.symm.trans hd)
    · exact (h.connected cur.1 cur.2 hcur).step hw

/-- **What the search leaves, for weights of any sign.** -/
theorem Inv.of_search {n : ℕ} {s' : Search V K}
    (h : search adj target n (Dijkstra.start source) = some s') :
    ∃ t, Inv adj source t ∧ Stopped target t s' :=
  search_induction (fun _ _ _ hs hpops hold => hs.skip hpops hold)
    (fun _ _ _ hs hpops hnew => hs.expand hpops hnew) Inv.start h

omit [DecidableEq V] in
/-- With an empty queue every node that is connected has a distance. -/
theorem Inv.reached_of_empty (h : Inv adj source s) (hempty : s.pq = []) {v : V} {p : List V}
    {c : K} (hwalk : Walk adj source v p c) : ∃ d, s.dist v = some d := by
  induction hwalk with
  | refl => exact h.source_dist
  | step _ hedge ih =>
      obtain ⟨d, hd⟩ := ih
      rcases h.handed_on _ d hd with hmem | hall
      · rw [hempty] at hmem
        exact absurd hmem List.not_mem_nil
      · obtain ⟨d', hd', -⟩ := hall _ hedge
        exact ⟨d', hd'⟩

omit [DecidableEq V] in
/-- **The target has a distance exactly if it is connected**, when the search stops. -/
theorem Inv.reached_iff (h : Inv adj source s) {s' : Search V K} (hstop : Stopped target s s') :
    (∃ d, s'.dist target = some d) ↔ Connected adj source target := by
  rw [hstop.dist_eq]
  constructor
  · rintro ⟨d, hd⟩
    exact h.connected target d hd
  · rintro ⟨p, c, hwalk⟩
    rcases hstop.queue with hempty | ⟨d, hmem, -⟩
    · exact h.reached_of_empty hempty hwalk
    · obtain ⟨d', hd', -⟩ := h.entry _ hmem
      exact ⟨d', hd'⟩

omit [DecidableEq V] in
/-- **What is walked back to the source is a walk**, when the search stops. -/
theorem Inv.walk_of_walkBack (h : Inv adj source s) {s' : Search V K} (hstop : Stopped target s s')
    {live : V → Bool} (hlive : ∀ v, Connected adj source v → live v) {d : K}
    (hd : s'.dist target = some d) {m : ℕ} {p : List V}
    (hp : walkBack s'.prev live m (some target) = some p) :
    ∃ c, Walk adj source target p.reverse c := by
  rw [hstop.dist_eq] at hd
  rw [hstop.prev_eq] at hp
  obtain ⟨c, hwalk, -⟩ := Walks.walk_of_walkBack (R := fun v => ∃ d, s.dist v = some d)
    (Q := fun _ _ => True) (fun v ⟨d, hd⟩ => hlive v (h.connected v d hd))
    (fun v ⟨d, hd⟩ hprev => h.root v d hd hprev)
    (fun v u _ hprev => by
      obtain ⟨hu, w, hedge⟩ := h.link v u hprev
      exact ⟨hu, w, hedge, fun _ _ => trivial⟩)
    trivial ⟨d, hd⟩ hp
  exact ⟨c, hwalk⟩

/-! ### Weights that are not negative -/

/-- Nodes whose entry has been taken have their final distance: it is not above the queue, and the
distances of the nodes that follow them in the search add the weight of an edge to it. -/
structure Settling (adj : V → List (V × K)) (source : V) (s : Search V K) : Prop
    extends Inv adj source s where
  source_root : s.dist source = some 0 ∧ s.prev source = none
  nonneg : ∀ v d, s.dist v = some d → 0 ≤ d
  settled_le : ∀ v d, s.dist v = some d → (v, d) ∉ s.pq → ∀ e ∈ s.pq, d ≤ e.2
  link_cost : ∀ v u, s.prev v = some u → ∃ d w, s.dist u = some d ∧ (u, d) ∉ s.pq ∧
    (v, w) ∈ adj u ∧ s.dist v = some (d + w)
  rooted : ∀ v d, s.dist v = some d → Rooted s.prev v

theorem Settling.start : Settling adj source (start source) where
  toInv := .start
  source_root := ⟨by rw [dist_start, if_pos rfl], rfl⟩
  nonneg := fun v d hd => (start_dist hd).2.ge
  settled_le := by
    intro v d hd hnot
    obtain ⟨rfl, rfl⟩ := start_dist hd
    exact absurd List.mem_cons_self hnot
  link_cost := fun _ _ h => absurd h (by simp [Dijkstra.start])
  rooted := fun _ _ _ => .root rfl

omit [DecidableEq V] in
theorem Settling.skip (h : Settling adj source s) {cur : V × K} {rest : List (V × K)}
    (hpops : Pops s.pq cur rest) (hold : (s.dist cur.1).any (· < cur.2)) :
    Settling adj source { s with pq := rest } where
  toInv := h.toInv.skip hpops hold
  source_root := h.source_root
  nonneg := h.nonneg
  settled_le := by
    intro v d hd hnot e he
    refine h.settled_le v d hd (fun hmem => ?_) e (hpops.subset he)
    rcases hpops.mem_iff.1 hmem with rfl | hrest
    · simp [show s.dist v = some d from hd] at hold
    · exact hnot hrest
  link_cost := by
    intro v u hprev
    obtain ⟨d, w, hd, hnot, hedge, hcost⟩ := h.link_cost v u hprev
    exact ⟨d, w, hd, fun hmem => hnot (hpops.subset hmem), hedge, hcost⟩
  rooted := h.rooted

section NonNegative

variable [IsOrderedAddMonoid K]

omit [DecidableEq V] in
/-- The expansion of a node leaves alone what is not above it and no longer in the queue. -/
theorem Relaxes.settled (hnn : ∀ v, ∀ nx ∈ adj v, 0 ≤ nx.2) {cur : V × K} {rest : List (V × K)}
    {t : Search V K} (hr : Relaxes cur (adj cur.1) { s with pq := rest } t) {v : V} {d : K}
    (hd : s.dist v = some d) (hnot : (v, d) ∉ rest) (hle : d ≤ cur.2) :
    t.dist v = some d ∧ t.prev v = s.prev v ∧ (v, d) ∉ t.pq := by
  have hfar : ∀ w, (v, w) ∈ adj cur.1 → d ≤ cur.2 + w := fun w hw =>
    hle.trans (le_add_of_nonneg_right (hnn cur.1 (v, w) hw))
  have hsame : t.dist v = s.dist v ∧ t.prev v = s.prev v := by
    rcases hr.changed v with hsame | ⟨w, hw, -, -, -, hlower⟩
    · exact hsame
    · exact absurd (hlower d hd) (hfar w hw).not_gt
  refine ⟨hsame.1.trans hd, hsame.2, fun hmem => ?_⟩
  rcases hr.adds _ hmem with hrest | ⟨w, -, -, hlower⟩
  · exact hnot hrest
  · exact lt_irrefl d (hlower d hd)

theorem Settling.expand (h : Settling adj source s) (hnn : ∀ v, ∀ nx ∈ adj v, 0 ≤ nx.2)
    {cur : V × K} {rest : List (V × K)} (hpops : Pops s.pq cur rest)
    (hnew : ¬ (s.dist cur.1).any (· < cur.2)) :
    Settling adj source ((adj cur.1).foldl (Dijkstra.relax cur) { s with pq := rest }) := by
  have hcur := h.dist_cur hpops hnew
  have hcur0 : 0 ≤ cur.2 := h.nonneg _ _ hcur
  have hmem : cur ∈ s.pq := hpops.mem_iff.2 (Or.inl rfl)
  have hinv := h.toInv.expand hpops hnew
  have hr := relaxes_foldl cur (adj cur.1) { s with pq := rest }
  generalize (adj cur.1).foldl (Dijkstra.relax cur) { s with pq := rest } = t at hinv hr ⊢
  refine ⟨hinv, ?_, ?_, ?_, ?_, ?_⟩
  · rcases hr.changed source with ⟨hdist, hprev⟩ | ⟨w, hw, -, -, -, hlower⟩
    · exact ⟨hdist.trans h.source_root.1, hprev.trans h.source_root.2⟩
    · have hlt := hlower 0 h.source_root.1
      exact absurd hlt (add_nonneg hcur0 (hnn _ _ hw)).not_gt
  · intro v d hd
    rcases hr.changed v with ⟨hdist, -⟩ | ⟨w, hw, hdist, -, -, -⟩
    · exact h.nonneg v d (hdist.symm.trans hd)
    · obtain rfl := Option.some.inj (hdist.symm.trans hd)
      exact add_nonneg hcur0 (hnn _ _ hw)
  · intro v d hd hnot e he
    have hle : d ≤ cur.2 := by
      rcases hr.changed v with ⟨hdist, -⟩ | ⟨w, -, hdist, -, hpq, -⟩
      · have hold : s.dist v = some d := hdist.symm.trans hd
        by_cases hopen : (v, d) ∈ s.pq
        · rcases hpops.mem_iff.1 hopen with rfl | hrest
          · exact le_refl d
          · exact absurd (hr.keeps hrest) hnot
        · exact h.settled_le v d hold hopen cur hmem
      · obtain rfl := Option.some.inj (hdist.symm.trans hd)
        exact absurd hpq hnot
    refine hle.trans ?_
    rcases hr.adds e he with hrest | ⟨w, hw, heq, -⟩
    · exact hpops.min e (hpops.subset hrest)
    · rw [heq]
      exact le_add_of_nonneg_right (hnn _ _ hw)
  · intro v u hprev
    rcases hr.changed v with ⟨hdist, hsame⟩ | ⟨w, hw, hdist, hnow, -, -⟩
    · obtain ⟨d, w, hd, hnot, hedge, hcost⟩ := h.link_cost v u (hsame.symm.trans hprev)
      obtain ⟨hd', -, hnot'⟩ := hr.settled hnn hd (fun hrest => hnot (hpops.subset hrest))
        (h.settled_le u d hd hnot cur hmem)
      exact ⟨d, w, hd', hnot', hedge, hdist.trans hcost⟩
    · obtain rfl := Option.some.inj (hnow.symm.trans hprev)
      obtain ⟨hd', -, hnot'⟩ := hr.settled hnn hcur (hpops.nodup h.nodup).1 (le_refl _)
      exact ⟨cur.2, w, hd', hnot', hw, hdist⟩
  · intro v d hd
    -- predecessors are settled, and keep theirs
    have hkeep : ∀ v u, s.prev v = some u → t.prev u = s.prev u := by
      intro v u hprev
      obtain ⟨du, w, hdu, hopen, -, -⟩ := h.link_cost v u hprev
      exact (hr.settled hnn hdu (fun hrest => hopen (hpops.subset hrest))
        (h.settled_le u du hdu hopen cur hmem)).2.1
    rcases hr.changed v with ⟨hdist, hsame⟩ | ⟨w, hw, -, hnow, -, -⟩
    · exact (h.rooted v d (hdist.symm.trans hd)).congr hkeep hsame
    · refine .step hnow ((h.rooted cur.1 cur.2 hcur).congr hkeep ?_)
      exact (hr.settled hnn hcur (hpops.nodup h.nodup).1 (le_refl _)).2.1

theorem Settling.of_search (hnn : ∀ v, ∀ nx ∈ adj v, 0 ≤ nx.2) {n : ℕ} {s' : Search V K}
    (h : search adj target n (Dijkstra.start source) = some s') :
    ∃ t, Settling adj source t ∧ Stopped target t s' :=
  search_induction (fun _ _ _ hs hpops hold => hs.skip hpops hold)
    (fun _ _ _ hs hpops hnew => hs.expand hnn hpops hnew) Settling.start h

omit [DecidableEq V] in
/-- A walk leads to a node whose distance is at most its cost, or passes the queue at such a
distance. -/
theorem Settling.dist_le_or_open (h : Settling adj source s) (hnn : ∀ v, ∀ nx ∈ adj v, 0 ≤ nx.2)
    {v : V} {p : List V} {c : K} (hwalk : Walk adj source v p c) :
    (∃ d, s.dist v = some d ∧ d ≤ c) ∨ ∃ e ∈ s.pq, e.2 ≤ c := by
  induction hwalk with
  | refl => exact Or.inl ⟨0, h.source_root.1, le_refl 0⟩
  | @step v x p c w _ hedge ih =>
      have hw : c ≤ c + w := le_add_of_nonneg_right (hnn _ _ hedge)
      rcases ih with ⟨d, hd, hle⟩ | ⟨e, he, hle⟩
      · rcases h.handed_on v d hd with hopen | hall
        · exact Or.inr ⟨_, hopen, hle.trans hw⟩
        · obtain ⟨d', hd', hle'⟩ := hall _ hedge
          exact Or.inl ⟨d', hd', hle'.trans (add_le_add_left hle w)⟩
      · exact Or.inr ⟨e, he, hle.trans hw⟩

omit [DecidableEq V] in
/-- **The distance of the target is at most the cost of any walk**, when the search stops. -/
theorem Settling.dist_le (h : Settling adj source s) (hnn : ∀ v, ∀ nx ∈ adj v, 0 ≤ nx.2)
    {s' : Search V K} (hstop : Stopped target s s') {d : K} (hd : s'.dist target = some d)
    {p : List V} {c : K} (hwalk : Walk adj source target p c) : d ≤ c := by
  rw [hstop.dist_eq] at hd
  rcases h.dist_le_or_open hnn hwalk with ⟨d', hd', hle⟩ | ⟨e, he, hle⟩
  · exact Option.some.inj (hd'.symm.trans hd) ▸ hle
  · rcases hstop.queue with hempty | ⟨dq, hmem, hmin⟩
    · rw [hempty] at he
      exact absurd he List.not_mem_nil
    · obtain ⟨d', hd', hle'⟩ := h.entry _ hmem
      obtain rfl := Option.some.inj (hd'.symm.trans hd)
      exact (hle'.trans (hmin e he)).trans hle

omit [DecidableEq V] [IsOrderedAddMonoid K] in
/-- **What is walked back to the source costs the distance.** -/
theorem Settling.walk_of_walkBack (h : Settling adj source s) {s' : Search V K}
    (hstop : Stopped target s s') {live : V → Bool} (hlive : ∀ v, Connected adj source v → live v)
    {d : K} (hd : s'.dist target = some d) {m : ℕ} {p : List V}
    (hp : walkBack s'.prev live m (some target) = some p) :
    Walk adj source target p.reverse d := by
  rw [hstop.dist_eq] at hd
  rw [hstop.prev_eq] at hp
  obtain ⟨c, hwalk, hc⟩ := Walks.walk_of_walkBack (R := fun v => ∃ d, s.dist v = some d)
    (Q := fun v c => s.dist v = some c) (fun v ⟨d, hd⟩ => hlive v (h.connected v d hd))
    (fun v ⟨d, hd⟩ hprev => h.root v d hd hprev)
    (fun v u _ hprev => by
      obtain ⟨d, w, hu, -, hedge, hv⟩ := h.link_cost v u hprev
      refine ⟨⟨d, hu⟩, w, hedge, fun c hc => ?_⟩
      rw [hv, Option.some.inj (hu.symm.trans hc)])
    h.source_root.1 ⟨d, hd⟩ hp
  exact Option.some.inj (hd.symm.trans hc) ▸ hwalk

omit [IsOrderedAddMonoid K] in
/-- Walking back to the source ends. -/
theorem Settling.walkBack_isSome (h : Settling adj source s) {s' : Search V K}
    (hstop : Stopped target s s') {L : Finset V} (hL : ∀ v, Connected adj source v → v ∈ L)
    {live : V → Bool} {d : K} (hd : s'.dist target = some d) {n : ℕ} (hn : L.card < n) :
    ∃ p, walkBack s'.prev live n (some target) = some p := by
  rw [hstop.dist_eq] at hd
  rw [hstop.prev_eq]
  refine walkBack_of_rooted (R := fun v => ∃ d, s.dist v = some d)
    (fun v ⟨d, hd⟩ => hL v (h.connected v d hd)) (fun v u _ hprev => (h.link v u hprev).1) ⟨d, hd⟩
    (h.rooted target d hd) hn

/-! ### The search ends -/

/-- The entry of the node has been taken. -/
def settled (s : Search V K) (v : V) : Bool := (s.dist v).any fun d => (v, d) ∉ s.pq

/-- The entries of the queue, and those that the other nodes may still add. -/
def work (adj : V → List (V × K)) (nodes : List V) (s : Search V K) : ℕ :=
  s.pq.length + (nodes.map fun v => if settled s v then 0 else (adj v).length).sum

omit [DecidableEq V] [AddCommGroup K] [LinearOrder K] [IsOrderedAddMonoid K] in
theorem sum_map_add_le {f g : V → ℕ} {x : V} {k : ℕ} {l : List V} (hle : ∀ v, f v ≤ g v)
    (hx : x ∈ l) (hk : f x + k ≤ g x) : (l.map f).sum + k ≤ (l.map g).sum := by
  induction l with
  | nil => exact absurd hx List.not_mem_nil
  | cons y l ih =>
      have hrest : (l.map f).sum ≤ (l.map g).sum := List.sum_le_sum fun v _ => hle v
      have hy : f y ≤ g y := hle y
      rw [List.map_cons, List.map_cons, List.sum_cons, List.sum_cons]
      rcases List.mem_cons.1 hx with rfl | hx
      · omega
      · have := ih hx
        omega

omit [AddCommGroup K] [IsOrderedAddMonoid K] in
theorem work_le (adj : V → List (V × K)) (nodes : List V) (s : Search V K) :
    work adj nodes s ≤ s.pq.length + (nodes.map fun v => (adj v).length).sum := by
  refine Nat.add_le_add_left (List.sum_le_sum fun v _ => ?_) _
  split
  · exact Nat.zero_le _
  · exact le_refl _

omit [AddCommGroup K] [IsOrderedAddMonoid K] in
theorem work_skip (adj : V → List (V × K)) {cur : V × K} {rest : List (V × K)}
    (hpops : Pops s.pq cur rest) (hold : (s.dist cur.1).any (· < cur.2)) (nodes : List V) :
    work adj nodes { s with pq := rest } < work adj nodes s := by
  have hsame : ∀ v, settled { s with pq := rest } v = settled s v := by
    intro v
    rw [settled, settled]
    cases hd : s.dist v with
    | none => rfl
    | some d =>
        -- the entry that goes is not the one of the distance
        have hne : (v, d) ≠ cur := by
          rintro rfl
          simp [hd] at hold
        simp only [Option.any_some, hpops.mem_iff, hne, false_or]
  simp only [work, hsame, hpops.length_eq]
  omega

theorem Settling.work_expand (h : Settling adj source s) (hnn : ∀ v, ∀ nx ∈ adj v, 0 ≤ nx.2)
    {cur : V × K} {rest : List (V × K)} (hpops : Pops s.pq cur rest)
    (hnew : ¬ (s.dist cur.1).any (· < cur.2)) {nodes : List V}
    (hnodes : ∀ v, v ∉ nodes → adj v = []) :
    work adj nodes ((adj cur.1).foldl (Dijkstra.relax cur) { s with pq := rest }) <
      work adj nodes s := by
  have hcur := h.dist_cur hpops hnew
  have hmem : cur ∈ s.pq := hpops.mem_iff.2 (Or.inl rfl)
  have hr := relaxes_foldl cur (adj cur.1) { s with pq := rest }
  generalize (adj cur.1).foldl (Dijkstra.relax cur) { s with pq := rest } = t at hr ⊢
  -- the other nodes stay settled, and the node that was taken becomes so
  have hold : ∀ v, (if settled t v then 0 else (adj v).length) ≤
      if settled s v then 0 else (adj v).length := by
    intro v
    by_cases hset : settled s v
    · obtain ⟨d, hd, hnot⟩ := (Option.any_eq_true _ _).1 hset
      have hopen : (v, d) ∉ s.pq := of_decide_eq_true hnot
      obtain ⟨hd', -, hopen'⟩ := hr.settled hnn hd (fun hrest => hopen (hpops.subset hrest))
        (h.settled_le v d hd hopen cur hmem)
      have hset' : settled t v := by simp [settled, hd', hopen']
      rw [if_pos hset']
      exact Nat.zero_le _
    · rw [if_neg hset]
      split
      · exact Nat.zero_le _
      · exact le_refl _
  have hnow : settled t cur.1 := by
    obtain ⟨hd', -, hopen'⟩ := hr.settled hnn hcur (hpops.nodup h.nodup).1 (le_refl _)
    simp [settled, hd', hopen']
  have hbefore : ¬ settled s cur.1 := by simp [settled, hcur, hmem]
  have hsum : (nodes.map fun v => if settled t v then 0 else (adj v).length).sum +
      (adj cur.1).length ≤ (nodes.map fun v => if settled s v then 0 else (adj v).length).sum := by
    by_cases hin : cur.1 ∈ nodes
    · refine sum_map_add_le hold hin ?_
      rw [if_pos hnow, if_neg hbefore, Nat.zero_add]
    · rw [hnodes _ hin, List.length_nil, Nat.add_zero]
      exact List.sum_le_sum fun v _ => hold v
  have hlen := hr.length_le
  rw [work, work, hpops.length_eq]
  dsimp only at hlen
  omega

/-- **Without negative weights the search ends.** -/
theorem Settling.search_isSome (hnn : ∀ v, ∀ nx ∈ adj v, 0 ≤ nx.2) {nodes : List V}
    (hnodes : ∀ v, v ∉ nodes → adj v = []) {n : ℕ} (h : Settling adj source s)
    (hn : work adj nodes s < n) : ∃ s', search adj target n s = some s' := by
  induction n generalizing s with
  | zero => exact absurd hn (Nat.not_lt_zero _)
  | succ n ih =>
      rw [search]
      cases hsort : sorted s.pq with
      | nil => exact ⟨s, rfl⟩
      | cons cur rest =>
          have hpops := pops_of_sorted hsort
          dsimp only
          split
          · exact ⟨_, rfl⟩
          · split
            · next hold =>
                have hless := work_skip adj hpops hold nodes
                exact ih (h.skip hpops hold) (by omega)
            · next hnew =>
                have hless := h.work_expand hnn hpops hnew hnodes
                exact ih (h.expand hnn hpops hnew) (by omega)

end NonNegative

/-! ### A weight below zero -/

variable [IsOrderedAddMonoid K]

/-- **Between two nodes that only have an edge of negative weight the search never ends**, if it
looks for another node: each of them lowers the distance of the other one. -/
theorem search_eq_none_of_neg {x y : V} {w d : K} (hw : w < 0) (hxy : x ≠ y)
    (hx : adj x = [(y, w)]) (hy : adj y = [(x, w)]) (hxt : x ≠ target) (hyt : y ≠ target) (n : ℕ)
    (hpq : s.pq = [(x, d)]) (hd : s.dist x = some d) (hd' : ∀ e, s.dist y = some e → d ≤ e) :
    search adj target n s = none := by
  induction n generalizing s x y d with
  | zero => rfl
  | succ n ih =>
      have hlower : d + w < d := add_lt_of_neg_right d hw
      have hall : (s.dist y).all (d + w < ·) := by
        cases he : s.dist y with
        | none => rfl
        | some e => exact decide_eq_true (hlower.trans_le (hd' e he))
      have hsorted : sorted s.pq = [(x, d)] := by rw [hpq]; rfl
      have hfresh : ¬ (s.dist x).any (· < d) := by simp [hd]
      rw [search, hsorted]
      dsimp only
      rw [if_neg hxt, if_neg hfresh, hx, List.foldl_cons, List.foldl_nil, Dijkstra.relax]
      dsimp only
      rw [if_pos hall]
      refine ih hxy.symm hy hx hyt hxt rfl (Function.update_self ..) fun e he => ?_
      dsimp only at he
      rw [Function.update_of_ne hxy, hd] at he
      exact Option.some.inj he ▸ hlower.le

end Search

end Dijkstra
