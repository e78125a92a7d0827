/-
**A best-first search whose values only fall along the way.**

A way starts at the source with a value, and each edge turns the value into one that is not better,
the better the value before the better the one after.  The search takes the best entry off a queue
and tells the neighbours of its node; a neighbour that is told a better value than it has takes it,
with a new entry in the queue, and the old entry stays there.  Nobody looks whether an entry is out
of date: by then the neighbours have all been told something better.

Values without an order of their own to add them up, such as the width of a way, which is the least
of the widths of its edges, are of this kind.

Main definitions:

* `BestFirst.Problem`, `BestFirst.Falling` — the graph, what an edge does to a value, and what is
  asked of it;
* `BestFirst.Way` — a way with its nodes and its value;
* `BestFirst.Search`, `BestFirst.Problem.relax`, `BestFirst.Problem.search` — the search;
* `BestFirst.Inv` — what holds before each step.

Main results:

* `BestFirst.Inv.expand` — **a step keeps the invariant**, whether or not its entry is out of date;
* `BestFirst.Ended.le_of_way` — **the value that is found is at least that of any way**;
* `BestFirst.Ended.way_of_walkBack` — it is the value of the way that is walked back;
* `BestFirst.search_isSome` — **the search ends**.
-/
import Endendend.Foundation.Dijkstra

set_option relaxedAutoImplicit false
set_option autoImplicit false

namespace BestFirst

open Walks

variable {V K W : Type*} [LinearOrder V] [LinearOrder K]

/-! ### Ways and their values -/

/-- A graph, what an edge does to a value, the value at the source, and the value of a node that is
not known. -/
structure Problem (V K W : Type*) where
  adj : V → List (V × W)
  ext : K → W → K
  source : V
  start : K
  worst : K

/-- Edges turn values into values that are not better, and keep their order; and all values along
ways from the source are better than the worst one. -/
class Falling (P : Problem V K W) : Prop where
  ext_le : ∀ k w, P.ext k w ≤ k
  ext_mono : ∀ k k' w, k ≤ k' → P.ext k w ≤ P.ext k' w
  worst_lt_start : P.worst < P.start
  worst_lt_ext : ∀ v, ∀ nx ∈ P.adj v, ∀ k, P.worst < k → P.worst < P.ext k nx.2

/-- A way from the source to a node: its nodes in order, and its value. -/
inductive Way (P : Problem V K W) : V → List V → K → Prop
  | refl : Way P P.source [P.source] P.start
  | step {v x : V} {p : List V} {k : K} {w : W} (hway : Way P v p k) (hedge : (x, w) ∈ P.adj v) :
      Way P x (p ++ [x]) (P.ext k w)

/-! ### The queue -/

/-- The order of the queue: the best value first, then the least node. -/
def Before (a b : K × V) : Prop := b.1 < a.1 ∨ a.1 = b.1 ∧ a.2 ≤ b.2

instance : DecidableRel (Before : K × V → K × V → Prop) := fun a b =>
  inferInstanceAs (Decidable (b.1 < a.1 ∨ a.1 = b.1 ∧ a.2 ≤ b.2))

theorem Before.le {a b : K × V} (h : Before a b) : b.1 ≤ a.1 := by
  rcases h with h | ⟨h, -⟩
  · exact h.le
  · exact h.ge

instance : Std.Total (Before : K × V → K × V → Prop) where
  total a b := by
    rcases lt_trichotomy a.1 b.1 with h | h | h
    · exact Or.inr (Or.inl h)
    · exact (le_total a.2 b.2).imp (fun hle => Or.inr ⟨h, hle⟩) fun hle => Or.inr ⟨h.symm, hle⟩
    · exact Or.inl (Or.inl h)

instance : IsTrans (K × V) Before where
  trans a b c hab hbc := by
    rcases hab with hab | ⟨hab, hab'⟩
    · exact Or.inl (hbc.le.trans_lt hab)
    · rcases hbc with hbc | ⟨hbc, hbc'⟩
      · exact Or.inl (hab ▸ hbc)
      · exact Or.inr ⟨hab.trans hbc, hab'.trans hbc'⟩

def sorted (pq : List (K × V)) : List (K × V) := pq.insertionSort Before

/-- The best entry of the queue, and what is left without it. -/
structure Pops (pq : List (K × V)) (cur : K × V) (rest : List (K × V)) : Prop where
  perm : pq.Perm (cur :: rest)
  max : ∀ e ∈ pq, e.1 ≤ cur.1

theorem pops_of_sorted {pq rest : List (K × V)} {cur : K × V} (h : sorted pq = cur :: rest) :
    Pops pq cur rest := by
  have hperm : (sorted pq).Perm pq := List.perm_insertionSort _ pq
  have hsorted : (sorted pq).Pairwise Before := List.pairwise_insertionSort _ pq
  rw [h] at hperm hsorted
  refine ⟨hperm.symm, fun e he => ?_⟩
  rcases List.mem_cons.1 (hperm.mem_iff.2 he) with rfl | he
  · exact le_refl _
  · exact (List.rel_of_pairwise_cons hsorted he).le

theorem eq_nil_of_sorted {pq : List (K × V)} (h : sorted pq = []) : pq = [] :=
  List.Perm.eq_nil (h ▸ (List.perm_insertionSort _ pq).symm)

namespace Pops

variable {pq rest : List (K × V)} {cur : K × V} (h : Pops pq cur rest)

include h

omit [LinearOrder V] in
theorem mem_iff {e : K × V} : e ∈ pq ↔ e = cur ∨ e ∈ rest := by
  rw [h.perm.mem_iff, List.mem_cons]

omit [LinearOrder V] in
theorem nodup (hpq : pq.Nodup) : cur ∉ rest ∧ rest.Nodup :=
  List.nodup_cons.1 (h.perm.nodup_iff.1 hpq)

omit [LinearOrder V] in
theorem length_eq : pq.length = rest.length + 1 := by
  rw [h.perm.length_eq, List.length_cons]

end Pops

/-! ### The search -/

/-- The values and the predecessors that are known, and the queue. -/
structure Search (V K : Type*) where
  best : V → Option K
  prev : V → Option V
  pq : List (K × V)

namespace Problem

variable (P : Problem V K W)

/-- The source alone is known. -/
def init : Search V K :=
  ⟨Function.update (fun _ => none) P.source (some P.start), fun _ => none, [(P.start, P.source)]⟩

/-- A neighbour of the node that was taken is told its value, and takes it if it is better. -/
def relax (cur : K × V) (s : Search V K) (nx : V × W) : Search V K :=
  let k := P.ext cur.1 nx.2
  if (s.best nx.1).getD P.worst < k then
    { best := Function.update s.best nx.1 (some k)
      prev := Function.update s.prev nx.1 (some cur.2)
      pq := s.pq ++ [(k, nx.1)] }
  else s

/-- The loop: it ends with the value of the sink and the state, or with nothing left to take.
Without fuel there is no answer. -/
def search (sink : V) : ℕ → Search V K → Option (Option K × Search V K)
  | 0, _ => none
  | n + 1, s =>
    match sorted s.pq with
    | [] => some (none, s)
    | cur :: rest =>
      if cur.2 = sink then some (some cur.1, { s with pq := rest })
      else search sink n ((P.adj cur.2).foldl (P.relax cur) { s with pq := rest })

end Problem

/-- What is known after the neighbours `nxs` of a node have been told. -/
structure Relaxes (P : Problem V K W) (cur : K × V) (nxs : List (V × W)) (s s' : Search V K) :
    Prop where
  mono : ∀ x b, s.best x = some b → ∃ b', s'.best x = some b' ∧ b ≤ b'
  reached : ∀ nx ∈ nxs, ∃ b, s'.best nx.1 = some b ∧ P.ext cur.1 nx.2 ≤ b
  changed : ∀ x, s'.best x = s.best x ∧ s'.prev x = s.prev x ∨
    ∃ w, (x, w) ∈ nxs ∧ s'.best x = some (P.ext cur.1 w) ∧ s'.prev x = some cur.2 ∧
      (P.ext cur.1 w, x) ∈ s'.pq ∧ ∀ b, s.best x = some b → b < P.ext cur.1 w
  keeps : s.pq ⊆ s'.pq
  adds : ∀ e ∈ s'.pq, e ∈ s.pq ∨
    ∃ w, (e.2, w) ∈ nxs ∧ e.1 = P.ext cur.1 w ∧ ∀ b, s.best e.2 = some b → b < e.1
  length_le : s'.pq.length ≤ s.pq.length + nxs.length

section Relax

variable {P : Problem V K W} {cur : K × V}

omit [LinearOrder V] in
theorem relaxes_nil (s : Search V K) : Relaxes P cur [] s s where
  mono _ b h := ⟨b, h, le_refl b⟩
  reached _ h := absurd h List.not_mem_nil
  changed _ := Or.inl ⟨rfl, rfl⟩
  keeps := List.Subset.refl _
  adds _ h := Or.inl h
  length_le := le_refl _

/-- One neighbour. -/
theorem relaxes_relax {nx : V × W} (hworst : P.worst < P.ext cur.1 nx.2) (s : Search V K) :
    Relaxes P cur [nx] s (P.relax cur s nx) := by
  rw [Problem.relax]
  split
  · next hbetter =>
      have hraise : ∀ b, s.best nx.1 = some b → b < P.ext cur.1 nx.2 := fun b hb => by
        simpa [hb] using hbetter
      constructor
      · intro x b hb
        by_cases hx : x = nx.1
        · subst hx
          exact ⟨P.ext cur.1 nx.2, Function.update_self .., (hraise b hb).le⟩
        · exact ⟨b, (Function.update_of_ne hx ..).trans hb, le_refl b⟩
      · intro nx' hnx'
        obtain rfl := List.mem_singleton.1 hnx'
        exact ⟨P.ext cur.1 nx'.2, Function.update_self .., le_refl _⟩
      · intro x
        by_cases hx : x = nx.1
        · subst hx
          exact Or.inr ⟨nx.2, List.mem_singleton_self nx, Function.update_self ..,
            Function.update_self .., List.mem_append_right _ List.mem_cons_self, hraise⟩
        · exact Or.inl ⟨Function.update_of_ne hx .., Function.update_of_ne hx ..⟩
      · exact List.subset_append_left _ _
      · intro e he
        refine (List.mem_append.1 he).imp_right fun he => ?_
        obtain rfl := List.mem_singleton.1 he
        exact ⟨nx.2, List.mem_singleton_self nx, rfl, hraise⟩
      · rw [List.length_append, List.length_singleton, List.length_singleton]
  · next hsome =>
      obtain ⟨b, hb, hle⟩ : ∃ b, s.best nx.1 = some b ∧ P.ext cur.1 nx.2 ≤ b := by
        cases hb : s.best nx.1 with
        | none => exact absurd hworst (by simpa [hb] using hsome)
        | some b => exact ⟨b, rfl, by simpa [hb] using hsome⟩
      constructor
      · exact fun x b hb => ⟨b, hb, le_refl b⟩
      · intro nx' hnx'
        obtain rfl := List.mem_singleton.1 hnx'
        exact ⟨b, hb, hle⟩
      · exact fun x => Or.inl ⟨rfl, rfl⟩
      · exact List.Subset.refl _
      · exact fun e he => Or.inl he
      · exact Nat.le_add_right _ _

omit [LinearOrder V] in
theorem Relaxes.trans {nx : V × W} {nxs : List (V × W)} {s t u : Search V K}
    (h : Relaxes P cur [nx] s t) (h' : Relaxes P cur nxs t u) : Relaxes P cur (nx :: nxs) s u := by
  constructor
  · intro x b hb
    obtain ⟨b₁, hb₁, hle₁⟩ := h.mono x b hb
    obtain ⟨b₂, hb₂, hle₂⟩ := h'.mono x b₁ hb₁
    exact ⟨b₂, hb₂, hle₁.trans hle₂⟩
  · intro nx' hnx'
    rcases List.mem_cons.1 hnx' with rfl | hnx'
    · obtain ⟨b₁, hb₁, hle₁⟩ := h.reached nx' (List.mem_singleton_self nx')
      obtain ⟨b₂, hb₂, hle₂⟩ := h'.mono _ b₁ hb₁
      exact ⟨b₂, hb₂, hle₁.trans hle₂⟩
    · exact h'.reached nx' hnx'
  · intro x
    rcases h'.changed x with ⟨hbest', hprev'⟩ | ⟨w, hw, hbest', hprev', hpq, hraise⟩
    · rcases h.changed x with ⟨hbest, hprev⟩ | ⟨w, hw, hbest, hprev, hpq, hraise⟩
      · exact Or.inl ⟨hbest'.trans hbest, hprev'.trans hprev⟩
      · refine Or.inr ⟨w, ?_, hbest'.trans hbest, hprev'.trans hprev, h'.keeps hpq, hraise⟩
        exact List.mem_cons.2 (Or.inl (List.mem_singleton.1 hw))
    · refine Or.inr ⟨w, List.mem_cons_of_mem nx hw, hbest', hprev', hpq, fun b hb => ?_⟩
      obtain ⟨b₁, hb₁, hle₁⟩ := h.mono x b hb
      exact hle₁.trans_lt (hraise b₁ hb₁)
  · exact List.Subset.trans h.keeps h'.keeps
  · intro e he
    rcases h'.adds e he with he | ⟨w, hw, heq, hraise⟩
    · refine (h.adds e he).imp_right fun ⟨w, hw, heq⟩ => ⟨w, ?_, heq⟩
      exact List.mem_cons.2 (Or.inl (List.mem_singleton.1 hw))
    · refine Or.inr ⟨w, List.mem_cons_of_mem nx hw, heq, fun b hb => ?_⟩
      obtain ⟨b₁, hb₁, hle₁⟩ := h.mono e.2 b hb
      exact hle₁.trans_lt (hraise b₁ hb₁)
  · have hlen := h.length_le
    have hlen' := h'.length_le
    rw [List.length_singleton] at hlen
    rw [List.length_cons]
    omega

theorem relaxes_foldl {nxs : List (V × W)} (hworst : ∀ nx ∈ nxs, P.worst < P.ext cur.1 nx.2)
    (s : Search V K) : Relaxes P cur nxs s (nxs.foldl (P.relax cur) s) := by
  induction nxs generalizing s with
  | nil => exact relaxes_nil s
  | cons nx nxs ih =>
      obtain ⟨hnx, hnxs⟩ := List.forall_mem_cons.1 hworst
      exact (relaxes_relax hnx s).trans (ih hnxs _)

/-- Neighbours that have all been told something better take nothing. -/
theorem foldl_relax_eq_self {nxs : List (V × W)} {s : Search V K}
    (h : ∀ nx ∈ nxs, ∃ b, s.best nx.1 = some b ∧ P.ext cur.1 nx.2 ≤ b) :
    nxs.foldl (P.relax cur) s = s := by
  induction nxs with
  | nil => rfl
  | cons nx nxs ih =>
      obtain ⟨⟨b, hb, hle⟩, hnxs⟩ := List.forall_mem_cons.1 h
      have hnx : P.relax cur s nx = s := by
        rw [Problem.relax, hb]
        exact if_neg (not_lt.2 hle)
      rw [List.foldl_cons, hnx, ih hnxs]

end Relax

/-! ### The invariant -/

/-- The entries of the queue are old values of their nodes, each of them once. -/
structure Queued (P : Problem V K W) (s : Search V K) : Prop where
  entry : ∀ e ∈ s.pq, ∃ b, s.best e.2 = some b ∧ e.1 ≤ b
  nodup : s.pq.Nodup
  above : ∀ e ∈ s.pq, P.worst < e.1

/-- What holds before each step: a node whose entry has been taken has its final value, which is at
least those of the queue, and has told its neighbours; values follow the predecessors; and the entry
of the sink has not been taken. -/
structure Inv (P : Problem V K W) (sink : V) (s : Search V K) : Prop extends Queued P s where
  below : ∀ e ∈ s.pq, e.1 ≤ P.start
  root : s.best P.source = some P.start ∧ s.prev P.source = none
  settled_ge : ∀ v b, s.best v = some b → (b, v) ∉ s.pq → ∀ e ∈ s.pq, e.1 ≤ b
  told : ∀ v b, s.best v = some b → (b, v) ∉ s.pq →
    ∀ nx ∈ P.adj v, ∃ b', s.best nx.1 = some b' ∧ P.ext b nx.2 ≤ b'
  link : ∀ v u, s.prev v = some u → ∃ b w, s.best u = some b ∧ (b, u) ∉ s.pq ∧
    (v, w) ∈ P.adj u ∧ s.best v = some (P.ext b w)
  rooted : ∀ v b, s.best v = some b → Rooted s.prev v ∧ (s.prev v = none → v = P.source)
  way : ∀ v b, s.best v = some b → ∃ p, Way P v p b
  sink_open : ∀ b, s.best sink = some b → (b, sink) ∈ s.pq

section Inv

variable {P : Problem V K W} {sink : V} {cur : K × V} {rest : List (K × V)} {s t : Search V K}

theorem Queued.relax (h : Queued P s) {nx : V × W} (hworst : P.worst < P.ext cur.1 nx.2) :
    Queued P (P.relax cur s nx) := by
  have hr := relaxes_relax hworst s
  refine ⟨fun e he => ?_, ?_, fun e he => ?_⟩
  · rcases hr.adds e he with hold | ⟨w, hw, heq, -⟩
    · obtain ⟨b, hb, hle⟩ := h.entry e hold
      obtain ⟨b', hb', hle'⟩ := hr.mono e.2 b hb
      exact ⟨b', hb', hle.trans hle'⟩
    · obtain ⟨b, hb, hle⟩ := hr.reached (e.2, w) hw
      exact ⟨b, hb, heq ▸ hle⟩
  · rw [Problem.relax]
    split
    · next hbetter =>
        -- a better value is not in the queue yet
        refine List.nodup_append.2 ⟨h.nodup, List.nodup_singleton _, fun e he e' he' heq => ?_⟩
        obtain rfl := List.mem_singleton.1 he'
        obtain ⟨b, hb, hle⟩ := h.entry e he
        rw [heq] at hb hle
        have hlt : b < P.ext cur.1 nx.2 := by simpa [hb] using hbetter
        exact absurd hle (not_le.2 hlt)
    · exact h.nodup
  · rcases hr.adds e he with hold | ⟨w, hw, heq, -⟩
    · exact h.above e hold
    · obtain rfl : (e.2, w) = nx := List.mem_singleton.1 hw
      exact heq ▸ hworst

theorem Queued.foldl {nxs : List (V × W)} (h : Queued P s)
    (hworst : ∀ nx ∈ nxs, P.worst < P.ext cur.1 nx.2) : Queued P (nxs.foldl (P.relax cur) s) :=
  List.foldlRecOn nxs _ h fun _ ht nx hnx => ht.relax (hworst nx hnx)

omit [LinearOrder V] in
theorem Queued.pop (h : Queued P s) (hpops : Pops s.pq cur rest) :
    Queued P { s with pq := rest } where
  entry e he := h.entry e (hpops.mem_iff.2 (Or.inr he))
  nodup := (hpops.nodup h.nodup).2
  above e he := h.above e (hpops.mem_iff.2 (Or.inr he))

omit [LinearOrder K] in
theorem best_init (P : Problem V K W) (v : V) :
    P.init.best v = if v = P.source then some P.start else none :=
  Function.update_apply (fun _ => none) P.source (some P.start) v

omit [LinearOrder K] in
theorem best_init_eq {v : V} {b : K} (h : P.init.best v = some b) : v = P.source ∧ b = P.start := by
  rw [best_init] at h
  split at h
  · next hv => exact ⟨hv, (Option.some.inj h).symm⟩
  · exact absurd h (by simp)

variable [Falling P]

theorem inv_init (P : Problem V K W) [Falling P] (sink : V) : Inv P sink P.init where
  entry e he := by
    obtain rfl := List.mem_singleton.1 he
    exact ⟨P.start, by rw [best_init, if_pos rfl], le_refl _⟩
  nodup := List.nodup_singleton _
  above e he := by
    obtain rfl := List.mem_singleton.1 he
    exact Falling.worst_lt_start (P := P)
  below e he := by
    obtain rfl := List.mem_singleton.1 he
    exact le_refl _
  root := ⟨by rw [best_init, if_pos rfl], rfl⟩
  settled_ge v b hb hnot := by
    obtain ⟨rfl, rfl⟩ := best_init_eq hb
    exact absurd List.mem_cons_self hnot
  told v b hb hnot := by
    obtain ⟨rfl, rfl⟩ := best_init_eq hb
    exact absurd List.mem_cons_self hnot
  link v u h := absurd h (by simp [Problem.init])
  rooted v b hb := ⟨.root rfl, fun _ => (best_init_eq hb).1⟩
  way v b hb := by
    obtain ⟨rfl, rfl⟩ := best_init_eq hb
    exact ⟨_, .refl⟩
  sink_open b hb := by
    obtain ⟨hv, rfl⟩ := best_init_eq hb
    exact hv ▸ List.mem_cons_self

omit [LinearOrder V] in
/-- An expansion leaves alone what is not below it and no longer in the queue. -/
theorem Relaxes.settled (hr : Relaxes P cur (P.adj cur.2) { s with pq := rest } t) {v : V} {b : K}
    (hb : s.best v = some b) (hnot : (b, v) ∉ rest) (hle : cur.1 ≤ b) :
    t.best v = some b ∧ t.prev v = s.prev v ∧ (b, v) ∉ t.pq := by
  have hsame : t.best v = s.best v ∧ t.prev v = s.prev v := by
    rcases hr.changed v with hsame | ⟨w, -, -, -, -, hraise⟩
    · exact hsame
    · exact absurd (hraise b hb) ((Falling.ext_le (P := P) cur.1 w).trans hle).not_gt
  refine ⟨hsame.1.trans hb, hsame.2, fun hmem => ?_⟩
  rcases hr.adds _ hmem with hrest | ⟨w, -, -, hraise⟩
  · exact hnot hrest
  · exact lt_irrefl b (hraise b hb)

omit [LinearOrder V] in
/-- After an expansion no entry is above the one that was taken. -/
theorem Relaxes.le_taken (hr : Relaxes P cur (P.adj cur.2) { s with pq := rest } t)
    (hpops : Pops s.pq cur rest) {e : K × V} (he : e ∈ t.pq) : e.1 ≤ cur.1 := by
  rcases hr.adds e he with hrest | ⟨w, -, heq, -⟩
  · exact hpops.max e (hpops.mem_iff.2 (Or.inr hrest))
  · exact heq ▸ Falling.ext_le (P := P) cur.1 w

omit [LinearOrder V] [Falling P] in
/-- What is settled after an expansion was so before, or is the node that was taken. -/
theorem Relaxes.settled_before (hr : Relaxes P cur (P.adj cur.2) { s with pq := rest } t)
    (hpops : Pops s.pq cur rest) {v : V} {b : K} (hb : t.best v = some b) (hnot : (b, v) ∉ t.pq) :
    s.best v = some b ∧ ((b, v) = cur ∨ (b, v) ∉ s.pq) := by
  rcases hr.changed v with ⟨hbest, -⟩ | ⟨w, -, hbest, -, hpq, -⟩
  · refine ⟨hbest.symm.trans hb, ?_⟩
    by_cases hopen : (b, v) ∈ s.pq
    · rcases hpops.mem_iff.1 hopen with heq | hrest
      · exact Or.inl heq
      · exact absurd (hr.keeps hrest) hnot
    · exact Or.inr hopen
  · obtain rfl := Option.some.inj (hbest.symm.trans hb)
    exact absurd hpq hnot

omit [LinearOrder V] in
/-- An expansion leaves the source alone. -/
theorem Relaxes.root (hr : Relaxes P cur (P.adj cur.2) { s with pq := rest } t)
    (h : Inv P sink s) (hle : cur.1 ≤ P.start) :
    t.best P.source = some P.start ∧ t.prev P.source = none := by
  obtain ⟨hbest, hprev⟩ := h.root
  rcases hr.changed P.source with ⟨hsame, hsame'⟩ | ⟨w, -, -, -, -, hraise⟩
  · exact ⟨hsame.trans hbest, hsame'.trans hprev⟩
  · have hext := (Falling.ext_le (P := P) cur.1 w).trans hle
    exact absurd (hraise P.start hbest) hext.not_gt

omit [LinearOrder V] [Falling P] in
/-- An expansion makes no circles of predecessors, if the predecessors that there are keep
theirs. -/
theorem Relaxes.rooted (hr : Relaxes P cur (P.adj cur.2) { s with pq := rest } t)
    (h : Inv P sink s) (hcur : s.best cur.2 = some cur.1) (hnow : t.prev cur.2 = s.prev cur.2)
    (hkeep : ∀ v u, s.prev v = some u → t.prev u = s.prev u) {v : V} {b : K}
    (hb : t.best v = some b) : Rooted t.prev v ∧ (t.prev v = none → v = P.source) := by
  rcases hr.changed v with ⟨hbest, hsame⟩ | ⟨w, -, -, hnew, -, -⟩
  · obtain ⟨hrooted, hroot⟩ := h.rooted v b (hbest.symm.trans hb)
    exact ⟨hrooted.congr hkeep hsame, fun hnone => hroot (hsame.symm.trans hnone)⟩
  · refine ⟨.step hnew ((h.rooted cur.2 cur.1 hcur).1.congr hkeep hnow), fun hnone => ?_⟩
    exact absurd (hnew.symm.trans hnone) (by simp)

omit [LinearOrder V] [Falling P] in
/-- An entry that is out of date belongs to a node that has told its neighbours. -/
theorem Inv.skip (h : Inv P sink s) (hpops : Pops s.pq cur rest) (hsink : cur.2 ≠ sink)
    (hold : s.best cur.2 ≠ some cur.1) : Inv P sink { s with pq := rest } := by
  have hopen : ∀ v b, s.best v = some b → (b, v) ∉ rest → (b, v) ∉ s.pq := by
    intro v b hb hnot hmem
    rcases hpops.mem_iff.1 hmem with rfl | hrest
    · exact hold hb
    · exact hnot hrest
  have hsub : ∀ e ∈ rest, e ∈ s.pq := fun e he => hpops.mem_iff.2 (Or.inr he)
  refine ⟨h.toQueued.pop hpops, fun e he => h.below e (hsub e he), h.root, ?_, ?_, ?_, h.rooted,
    h.way, ?_⟩
  · exact fun v b hb hnot e he => h.settled_ge v b hb (hopen v b hb hnot) e (hsub e he)
  · exact fun v b hb hnot => h.told v b hb (hopen v b hb hnot)
  · intro v u hprev
    obtain ⟨b, w, hb, hnot, hedge, hv⟩ := h.link v u hprev
    exact ⟨b, w, hb, fun hmem => hnot (hsub _ hmem), hedge, hv⟩
  · intro b hb
    rcases hpops.mem_iff.1 (h.sink_open b hb) with heq | hrest
    · exact absurd (congrArg Prod.snd heq).symm hsink
    · exact hrest

/-- A node whose entry is its value tells its neighbours. -/
theorem Inv.expand_fresh (h : Inv P sink s) (hpops : Pops s.pq cur rest) (hsink : cur.2 ≠ sink)
    (hcur : s.best cur.2 = some cur.1) :
    Inv P sink ((P.adj cur.2).foldl (P.relax cur) { s with pq := rest }) := by
  have hmem : cur ∈ s.pq := hpops.mem_iff.2 (Or.inl rfl)
  have hsub : ∀ e ∈ rest, e ∈ s.pq := fun e he => hpops.mem_iff.2 (Or.inr he)
  have hworst : ∀ nx ∈ P.adj cur.2, P.worst < P.ext cur.1 nx.2 := fun nx hnx =>
    Falling.worst_lt_ext (P := P) cur.2 nx hnx cur.1 (h.above cur hmem)
  have hqueued := (h.toQueued.pop hpops).foldl hworst
  have hr := relaxes_foldl hworst { s with pq := rest }
  generalize (P.adj cur.2).foldl (P.relax cur) { s with pq := rest } = t at hqueued hr ⊢
  have hnow := hr.settled hcur (hpops.nodup h.nodup).1 (le_refl _)
  -- what was settled before stays so
  have hbefore : ∀ v b, s.best v = some b → (b, v) ∉ s.pq →
      t.best v = some b ∧ t.prev v = s.prev v ∧ (b, v) ∉ t.pq := fun v b hb hnot =>
    hr.settled hb (fun hrest => hnot (hsub _ hrest)) (h.settled_ge v b hb hnot cur hmem)
  have hle : cur.1 ≤ P.start := h.below cur hmem
  refine ⟨hqueued, fun e he => (hr.le_taken hpops he).trans hle, hr.root h hle, ?_, ?_, ?_, ?_, ?_,
    ?_⟩
  · intro v b hb hnot e he
    obtain ⟨hb', rfl | hopen⟩ := hr.settled_before hpops hb hnot
    · exact hr.le_taken hpops he
    · exact (hr.le_taken hpops he).trans (h.settled_ge v b hb' hopen cur hmem)
  · intro v b hb hnot nx hnx
    obtain ⟨hb', rfl | hopen⟩ := hr.settled_before hpops hb hnot
    · exact hr.reached nx hnx
    · obtain ⟨b₁, hb₁, hle₁⟩ := h.told v b hb' hopen nx hnx
      obtain ⟨b₂, hb₂, hle₂⟩ := hr.mono nx.1 b₁ hb₁
      exact ⟨b₂, hb₂, hle₁.trans hle₂⟩
  · intro v u hprev
    rcases hr.changed v with ⟨hbest, hsame⟩ | ⟨w, hw, hbest, hnew, -, -⟩
    · obtain ⟨b, w, hb, hopen, hedge, hv⟩ := h.link v u (hsame.symm.trans hprev)
      obtain ⟨hb', -, hopen'⟩ := hbefore u b hb hopen
      exact ⟨b, w, hb', hopen', hedge, hbest.trans hv⟩
    · obtain rfl := Option.some.inj (hnew.symm.trans hprev)
      exact ⟨cur.1, w, hnow.1, hnow.2.2, hw, hbest⟩
  · intro v b hb
    -- predecessors are settled, and keep theirs
    refine hr.rooted h hcur hnow.2.1 (fun v u hprev => ?_) hb
    obtain ⟨b, w, hb, hopen, -, -⟩ := h.link v u hprev
    exact (hbefore u b hb hopen).2.1
  · intro v b hb
    rcases hr.changed v with ⟨hbest, -⟩ | ⟨w, hw, hbest, -, -, -⟩
    · exact h.way v b (hbest.symm.trans hb)
    · obtain rfl := Option.some.inj (hbest.symm.trans hb)
      obtain ⟨p, hp⟩ := h.way cur.2 cur.1 hcur
      exact ⟨_, hp.step hw⟩
  · intro b hb
    rcases hr.changed sink with ⟨hbest, -⟩ | ⟨w, -, hbest, -, hpq, -⟩
    · rcases hpops.mem_iff.1 (h.sink_open b (hbest.symm.trans hb)) with heq | hrest
      · exact absurd (congrArg Prod.snd heq).symm hsink
      · exact hr.keeps hrest
    · obtain rfl := Option.some.inj (hbest.symm.trans hb)
      exact hpq

/-- A step whose entry is out of date takes it off the queue and changes nothing else. -/
theorem Inv.foldl_of_old (h : Inv P sink s) (hpops : Pops s.pq cur rest)
    (hold : s.best cur.2 ≠ some cur.1) :
    (P.adj cur.2).foldl (P.relax cur) { s with pq := rest } = { s with pq := rest } := by
  obtain ⟨b, hb, hle⟩ := h.entry cur (hpops.mem_iff.2 (Or.inl rfl))
  have hlt : cur.1 < b := lt_of_le_of_ne hle fun heq => hold (heq ▸ hb)
  -- the entry with the value of the node has been taken before
  have hopen : (b, cur.2) ∉ s.pq := fun hmem => (hpops.max _ hmem).not_gt hlt
  refine foldl_relax_eq_self fun nx hnx => ?_
  obtain ⟨b', hb', hle'⟩ := h.told cur.2 b hb hopen nx hnx
  exact ⟨b', hb', (Falling.ext_mono (P := P) _ _ nx.2 hle).trans hle'⟩

/-- **A step keeps the invariant.** -/
theorem Inv.expand (h : Inv P sink s) (hpops : Pops s.pq cur rest) (hsink : cur.2 ≠ sink) :
    Inv P sink ((P.adj cur.2).foldl (P.relax cur) { s with pq := rest }) := by
  by_cases hcur : s.best cur.2 = some cur.1
  · exact h.expand_fresh hpops hsink hcur
  · rw [h.foldl_of_old hpops hcur]
    exact h.skip hpops hsink hcur

/-! ### What is found -/

/-- How the search ends: the sink has been taken with its value, or nothing is left. -/
structure Ended (P : Problem V K W) (sink : V) (found : Option K) (t s' : Search V K) : Prop where
  inv : Inv P sink t
  prev_eq : s'.prev = t.prev
  queue : found = none ∧ t.pq = [] ∨
    ∃ k, found = some k ∧ t.best sink = some k ∧ ∀ e ∈ t.pq, e.1 ≤ k

theorem ended_of_search {n : ℕ} {found : Option K} {s' : Search V K} (hs : Inv P sink s)
    (h : P.search sink n s = some (found, s')) : ∃ t, Ended P sink found t s' := by
  induction n generalizing s with
  | zero => exact absurd h (by simp [Problem.search])
  | succ n ih =>
      rw [Problem.search] at h
      cases hsort : sorted s.pq with
      | nil =>
          rw [hsort] at h
          obtain ⟨rfl, rfl⟩ := Prod.mk.inj (Option.some.inj h)
          exact ⟨s, hs, rfl, Or.inl ⟨rfl, eq_nil_of_sorted hsort⟩⟩
      | cons cur rest =>
          have hpops := pops_of_sorted hsort
          rw [hsort] at h
          dsimp only at h
          split at h
          · next hsink =>
              obtain ⟨rfl, rfl⟩ := Prod.mk.inj (Option.some.inj h)
              -- the entry of the sink that has not been taken is the best of the queue
              obtain ⟨b, hb, hle⟩ := hs.entry cur (hpops.mem_iff.2 (Or.inl rfl))
              rw [hsink] at hb
              obtain rfl := le_antisymm hle (hpops.max _ (hs.sink_open b hb))
              exact ⟨s, hs, rfl, Or.inr ⟨cur.1, rfl, hb, hpops.max⟩⟩
          · next hsink => exact ih (hs.expand hpops hsink) h

omit [LinearOrder V] in
/-- A way leads to a node whose value is at least its own, or passes the queue at such a value. -/
theorem Inv.le_or_open (h : Inv P sink s) {v : V} {p : List V} {k : K} (hway : Way P v p k) :
    (∃ b, s.best v = some b ∧ k ≤ b) ∨ ∃ e ∈ s.pq, k ≤ e.1 := by
  induction hway with
  | refl => exact Or.inl ⟨P.start, h.root.1, le_refl _⟩
  | @step v x p k w _ hedge ih =>
      rcases ih with ⟨b, hb, hle⟩ | ⟨e, he, hle⟩
      · by_cases hopen : (b, v) ∈ s.pq
        · exact Or.inr ⟨_, hopen, (Falling.ext_le (P := P) k w).trans hle⟩
        · obtain ⟨b', hb', hle'⟩ := h.told v b hb hopen _ hedge
          exact Or.inl ⟨b', hb', (Falling.ext_mono (P := P) k b w hle).trans hle'⟩
      · exact Or.inr ⟨e, he, (Falling.ext_le (P := P) k w).trans hle⟩

omit [LinearOrder V] in
/-- **The value that is found is at least that of any way**, and without one there is no way. -/
theorem Ended.le_of_way {found : Option K} {s' : Search V K} (h : Ended P sink found t s')
    {p : List V} {k : K} (hway : Way P sink p k) : ∃ b, found = some b ∧ k ≤ b := by
  rcases h.queue with ⟨-, hempty⟩ | ⟨b, hfound, hb, hmax⟩
  · rcases h.inv.le_or_open hway with ⟨b, hb, -⟩ | ⟨e, he, -⟩
    · exact absurd (h.inv.sink_open b hb) (by simp [hempty])
    · exact absurd he (by simp [hempty])
  · refine ⟨b, hfound, ?_⟩
    rcases h.inv.le_or_open hway with ⟨b', hb', hle⟩ | ⟨e, he, hle⟩
    · exact Option.some.inj (hb'.symm.trans hb) ▸ hle
    · exact hle.trans (hmax e he)

omit [LinearOrder V] [Falling P] in
theorem Inv.way_of_walkBack (h : Inv P sink s) {n : ℕ} {v : V} {b : K} {p : List V}
    (hb : s.best v = some b) (hp : walkBack s.prev (fun _ => true) n (some v) = some p) :
    Way P v p.reverse b := by
  induction n generalizing v b p with
  | zero => exact absurd hp (by simp [walkBack])
  | succ n ih =>
      rw [walkBack, if_pos rfl] at hp
      obtain ⟨q, hq, rfl⟩ := Option.map_eq_some_iff.1 hp
      cases hprev : s.prev v with
      | none =>
          rw [hprev] at hq
          obtain rfl : q = [] := by
            cases n with
            | zero => exact absurd hq (by simp [walkBack])
            | succ n => exact (Option.some.inj hq).symm
          obtain rfl := (h.rooted v b hb).2 hprev
          obtain rfl := Option.some.inj (hb.symm.trans h.root.1)
          exact .refl
      | some u =>
          rw [hprev] at hq
          obtain ⟨c, w, hc, -, hedge, hv⟩ := h.link v u hprev
          obtain rfl := Option.some.inj (hb.symm.trans hv)
          rw [List.reverse_cons]
          exact (ih hc hq).step hedge

omit [Falling P] in
/-- **What is walked back from the sink is a way with the value that was found**; and it is found
if the fuel exceeds the number of nodes. -/
theorem Ended.way_of_walkBack {k : K} {s' : Search V K} (h : Ended P sink (some k) t s') {n : ℕ}
    {L : Finset V} (hL : ∀ v p k, Way P v p k → v ∈ L) (hn : L.card < n) :
    ∃ p, walkBack s'.prev (fun _ => true) n (some sink) = some p ∧ p.Nodup ∧
      Way P sink p.reverse k := by
  rw [h.prev_eq]
  rcases h.queue with ⟨hnone, -⟩ | ⟨b, hfound, hb, -⟩
  · exact absurd hnone (by simp)
  · obtain rfl := Option.some.inj hfound
    have hlink : ∀ v u, (∃ b, t.best v = some b) → t.prev v = some u → ∃ b, t.best u = some b := by
      intro v u _ hprev
      obtain ⟨b, -, hb, -⟩ := h.inv.link v u hprev
      exact ⟨b, hb⟩
    have hnodes : ∀ v, (∃ b, t.best v = some b) → v ∈ L := by
      rintro v ⟨b, hb⟩
      obtain ⟨p, hp⟩ := h.inv.way v b hb
      exact hL v p b hp
    obtain ⟨p, hp⟩ : ∃ p, walkBack t.prev (fun _ => true) n (some sink) = some p :=
      walkBack_of_rooted hnodes hlink ⟨k, hb⟩ (h.inv.rooted sink k hb).1 hn
    exact ⟨p, hp, walkBack_nodup hp, h.inv.way_of_walkBack hb hp⟩

/-! ### The search ends -/

/-- The entry of the node has been taken. -/
def settled (s : Search V K) (v : V) : Bool := (s.best v).any fun b => (b, v) ∉ s.pq

/-- The entries of the queue, and those that the other nodes may still add. -/
def work (P : Problem V K W) (nodes : List V) (s : Search V K) : ℕ :=
  s.pq.length + (nodes.map fun v => if settled s v then 0 else (P.adj v).length).sum

theorem Inv.work_expand (h : Inv P sink s) (hpops : Pops s.pq cur rest) {nodes : List V}
    (hnodes : ∀ v, v ∉ nodes → P.adj v = []) :
    work P nodes ((P.adj cur.2).foldl (P.relax cur) { s with pq := rest }) < work P nodes s := by
  have hmem : cur ∈ s.pq := hpops.mem_iff.2 (Or.inl rfl)
  have hsub : ∀ e ∈ rest, e ∈ s.pq := fun e he => hpops.mem_iff.2 (Or.inr he)
  have hlength := hpops.length_eq
  by_cases hcur : s.best cur.2 = some cur.1
  · have hworst : ∀ nx ∈ P.adj cur.2, P.worst < P.ext cur.1 nx.2 := fun nx hnx =>
      Falling.worst_lt_ext (P := P) cur.2 nx hnx cur.1 (h.above cur hmem)
    have hr := relaxes_foldl hworst { s with pq := rest }
    generalize (P.adj cur.2).foldl (P.relax cur) { s with pq := rest } = t at hr ⊢
    -- the other nodes stay settled, and the node that was taken becomes so
    have hold : ∀ v, (if settled t v then 0 else (P.adj v).length) ≤
        if settled s v then 0 else (P.adj v).length := by
      intro v
      by_cases hset : settled s v
      · obtain ⟨b, hb, hnot⟩ := (Option.any_eq_true _ _).1 hset
        have hopen : (b, v) ∉ s.pq := of_decide_eq_true hnot
        obtain ⟨hb', -, hopen'⟩ := hr.settled hb (fun hrest => hopen (hsub _ hrest))
          (h.settled_ge v b hb hopen cur hmem)
        have hset' : settled t v := by simp [settled, hb', hopen']
        rw [if_pos hset']
        exact Nat.zero_le _
      · rw [if_neg hset]
        split
        · exact Nat.zero_le _
        · exact le_refl _
    have hnow : settled t cur.2 := by
      obtain ⟨hb', -, hopen'⟩ := hr.settled hcur (hpops.nodup h.nodup).1 (le_refl _)
      simp [settled, hb', hopen']
    have hbefore : ¬ settled s cur.2 := by simp [settled, hcur, hmem]
    have hsum : (nodes.map fun v => if settled t v then 0 else (P.adj v).length).sum +
        (P.adj cur.2).length ≤
          (nodes.map fun v => if settled s v then 0 else (P.adj v).length).sum := by
      by_cases hin : cur.2 ∈ nodes
      · refine Dijkstra.sum_map_add_le hold hin ?_
        rw [if_pos hnow, if_neg hbefore, Nat.zero_add]
      · rw [hnodes _ hin, List.length_nil, Nat.add_zero]
        exact List.sum_le_sum fun v _ => hold v
    have hlen := hr.length_le
    rw [work, work]
    dsimp only at hlen
    omega
  · rw [h.foldl_of_old hpops hcur]
    -- the entry that goes is not the one of the value
    have hsame : ∀ v, settled { s with pq := rest } v = settled s v := by
      intro v
      rw [settled, settled]
      cases hb : s.best v with
      | none => rfl
      | some b =>
          have hne : (b, v) ≠ cur := by
            rintro rfl
            exact hcur hb
          simp only [Option.any_some, hpops.mem_iff, hne, false_or]
    simp only [work, hsame]
    omega

/-- **The search ends**, if the graph has finitely many edges. -/
theorem search_isSome {nodes : List V} (hnodes : ∀ v, v ∉ nodes → P.adj v = []) {n : ℕ}
    (h : Inv P sink s) (hn : work P nodes s < n) : ∃ r, P.search sink n s = some r := by
  induction n generalizing s with
  | zero => exact absurd hn (Nat.not_lt_zero _)
  | succ n ih =>
      rw [Problem.search]
      cases hsort : sorted s.pq with
      | nil => exact ⟨_, rfl⟩
      | cons cur rest =>
          have hpops := pops_of_sorted hsort
          dsimp only
          split
          · exact ⟨_, rfl⟩
          · next hsink =>
              have hless := h.work_expand hpops hnodes
              exact ih (h.expand hpops hsink) (by omega)

end Inv

end BestFirst
