/-
**Counting the components of a graph, and cut vertices.**

A count searches from one vertex after the other and skips those that an earlier search has seen.
What it has seen is closed under successors, so a new search sees just one more component, and the
count is the number of components.  Taking a vertex out of the graph makes it greater exactly if
two vertices are connected by paths through that vertex only.

Main definitions:

* `GraphSearch.Reach` — a path leads from one vertex to another;
* `GraphSearch.countComponents` — **the count**;
* `GraphSearch.Successors.without` — a graph without the edges to a vertex.

Main results:

* `GraphSearch.countComponents_eq` — **the count is the number of components**;
* `GraphSearch.card_image_lt_iff` — when a finer labelling of fewer elements has more labels;
* `GraphSearch.countComponents_without_lt_iff` — **a vertex makes more components when it goes
  exactly if it separates two vertices.**
-/
import Endendend.Foundation.GraphSearch

set_option relaxedAutoImplicit false
set_option autoImplicit false

namespace GraphSearch

variable {α : Type*}

/-- A path leads from `x` to `y`. -/
def Reach (G : Successors α) (x y : α) : Prop := Relation.ReflTransGen G.Step x y

/-- The successors of the vertices of a list are in the list. -/
def Closed (G : Successors α) (base : List α) : Prop := ∀ x ∈ base, ∀ y ∈ G.next x, y ∈ base

variable [DecidableEq α]

/-! ### A search that goes on -/

namespace Search

/-- What holds of a search from `source` at every visit, when others have seen `base` before. -/
structure Onward (G : Successors α) (base : List α) (source : α) (s : Search α) : Prop where
  source_mem : source ∈ s.seen
  base_seen : ∀ x ∈ base, x ∈ s.seen
  /-- A path leads to every vertex that is new. -/
  reached : ∀ x ∈ s.seen, x ∈ base ∨ Reach G source x
  /-- What waits has been seen. -/
  waiting_seen : ∀ x ∈ s.waiting, x ∈ s.seen
  /-- The successors of a visited vertex have been seen. -/
  visited : ∀ x ∈ s.seen, x ∉ s.waiting → ∀ y ∈ G.next x, y ∈ s.seen

variable {G : Successors α} {base : List α} {source : α}

omit [DecidableEq α] in
theorem Onward.start (hclosed : Closed G base) (source : α) :
    Onward G base source ⟨base ++ [source], [source]⟩ where
  source_mem := List.mem_append_right _ (List.mem_singleton_self source)
  base_seen := fun _ hx => List.mem_append_left _ hx
  reached := by
    intro x hx
    obtain hx | hx := List.mem_append.1 hx
    · exact Or.inl hx
    · exact Or.inr (List.mem_singleton.1 hx ▸ Relation.ReflTransGen.refl)
  waiting_seen := fun _ hx => List.mem_append_right _ hx
  visited := by
    intro x hx hnot y hy
    obtain hx | hx := List.mem_append.1 hx
    · exact List.mem_append_left _ (hclosed x hx y hy)
    · exact absurd hx hnot

/-- **A visit keeps it.** -/
theorem Onward.visit (hclosed : Closed G base) {cur : α} {seen rest : List α}
    (h : Onward G base source ⟨seen, cur :: rest⟩) :
    Onward G base source (visit G seen cur rest) where
  source_mem := mem_seen_foldl_note.2 (Or.inl h.source_mem)
  base_seen := fun x hx => mem_seen_foldl_note.2 (Or.inl (h.base_seen x hx))
  reached := by
    intro x hx
    obtain hx | hx := mem_seen_foldl_note.1 hx
    · exact h.reached x hx
    · refine (h.reached cur (h.waiting_seen cur List.mem_cons_self)).imp ?_ ?_
      · exact fun hcur => hclosed cur hcur x hx
      · exact fun hpath => hpath.tail hx
  waiting_seen := by
    intro x hx
    refine mem_seen_foldl_note.2 ((mem_waiting_foldl_note.1 hx).imp ?_ And.left)
    exact fun hx => h.waiting_seen x (List.mem_cons_of_mem _ hx)
  visited := by
    intro x hx hnot y hy
    rw [Search.visit, mem_waiting_foldl_note, not_or] at hnot
    by_cases hcur : x = cur
    · subst hcur
      exact mem_seen_foldl_note.2 (Or.inr hy)
    · have hseen : x ∈ seen := by
        obtain hx | hx := mem_seen_foldl_note.1 hx
        · exact hx
        · exact by_contra fun hno => hnot.2 ⟨hx, hno⟩
      have hwait : x ∉ cur :: rest := by simpa [hcur] using hnot.1
      exact mem_seen_foldl_note.2 (Or.inl (h.visited x hseen hwait y hy))

/-- The search ends with what was seen before and what a path leads to. -/
theorem mem_run_onward_iff {x : α} {s : Search α} (hclosed : Closed G base)
    (h : Onward G base source s) : x ∈ s.run G ↔ x ∈ base ∨ Reach G source x := by
  fun_induction run G s with
  | case1 seen =>
      refine ⟨h.reached x, ?_⟩
      rintro (hx | hpath)
      · exact h.base_seen x hx
      · -- nothing waits, so the seen vertices are closed under successors
        induction hpath with
        | refl => exact h.source_mem
        | tail _ hstep ih => exact h.visited _ ih List.not_mem_nil _ hstep
  | case2 seen cur rest ih => exact ih (h.visit hclosed)

end Search

/-! ### The count -/

/-- The vertices that have been seen, and the components that have been counted. -/
structure Count (α : Type*) where
  seen : List α
  comps : ℕ

/-- A vertex that has not been seen is in a new component, which is searched. -/
def countFrom (G : Successors α) (c : Count α) (n : α) : Count α :=
  if n ∈ c.seen then c else ⟨Search.run G ⟨c.seen ++ [n], [n]⟩, c.comps + 1⟩

def countComponents (G : Successors α) (sources : List α) : ℕ :=
  (sources.foldl (countFrom G) ⟨[], 0⟩).comps

/-- What has been seen after some sources is closed and is what these sources reach, and the labels
of these sources are counted. -/
structure CountInv {β : Type*} [DecidableEq β] (G : Successors α) (label : α → β)
    (done : List α) (c : Count α) : Prop where
  closed : Closed G c.seen
  seen : ∀ y, y ∈ c.seen ↔ ∃ x ∈ done, Reach G x y
  comps : c.comps = (done.toFinset.image label).card

theorem CountInv.countFrom {β : Type*} [DecidableEq β] {G : Successors α} {label : α → β}
    {done : List α} {c : Count α} {n : α} (h : CountInv G label done c)
    (hlabel : ∀ x ∈ done, label x = label n ↔ Reach G x n) :
    CountInv G label (done ++ [n]) (countFrom G c n) := by
  have himage : (done ++ [n]).toFinset.image label =
      insert (label n) (done.toFinset.image label) := by
    rw [List.toFinset_append, Finset.image_union, Finset.union_comm]
    simp
  have hexists : ∀ y, (∃ x ∈ done ++ [n], Reach G x y) ↔
      (∃ x ∈ done, Reach G x y) ∨ Reach G n y := by simp [or_and_right, exists_or]
  unfold GraphSearch.countFrom
  split_ifs with hn
  · obtain ⟨x, hx, hpath⟩ := (h.seen n).1 hn
    refine ⟨h.closed, fun y => ?_, ?_⟩
    · rw [h.seen, hexists]
      exact ⟨Or.inl, fun hy => hy.elim id fun hy => ⟨x, hx, hpath.trans hy⟩⟩
    · have hmem : label n ∈ done.toFinset.image label :=
        Finset.mem_image.2 ⟨x, List.mem_toFinset.2 hx, (hlabel x hx).2 hpath⟩
      rw [himage, Finset.insert_eq_of_mem hmem, h.comps]
  · have hmem : ∀ y, y ∈ Search.run G ⟨c.seen ++ [n], [n]⟩ ↔ y ∈ c.seen ∨ Reach G n y :=
      fun y => Search.mem_run_onward_iff h.closed (Search.Onward.start h.closed n)
    refine ⟨fun x hx y hy => ?_, fun y => ?_, ?_⟩
    · rw [hmem] at hx ⊢
      exact hx.imp (fun hx => h.closed x hx y hy) fun hx => hx.tail hy
    · rw [hmem, h.seen, hexists]
    · have hnew : label n ∉ done.toFinset.image label := by
        intro hlab
        obtain ⟨x, hx, heq⟩ := Finset.mem_image.1 hlab
        rw [List.mem_toFinset] at hx
        exact hn ((h.seen n).2 ⟨x, hx, (hlabel x hx).1 heq⟩)
      rw [himage, Finset.card_insert_of_notMem hnew, h.comps]

/-- **The count is the number of components**, as they are told apart by any labels. -/
theorem countComponents_eq {β : Type*} [DecidableEq β] {G : Successors α} {sources : List α}
    (label : α → β)
    (hlabel : ∀ x ∈ sources, ∀ y ∈ sources, label x = label y ↔ Reach G x y) :
    countComponents G sources = (sources.toFinset.image label).card := by
  have hfold : ∀ (rest done : List α) (c : Count α), done ++ rest = sources →
      CountInv G label done c →
        CountInv G label sources (rest.foldl (GraphSearch.countFrom G) c) := by
    intro rest
    induction rest with
    | nil =>
        intro done c heq hc
        rw [List.append_nil] at heq
        exact heq ▸ hc
    | cons n rest ih =>
        intro done c heq hc
        have hmem : ∀ x, x ∈ done ∨ x = n → x ∈ sources := by
          rw [← heq]
          intro x hx
          simpa using hx.elim (fun h => Or.inl h) fun h => Or.inr (Or.inl h)
        refine ih (done ++ [n]) _ (by rw [← heq, List.append_assoc]; rfl) ?_
        exact hc.countFrom fun x hx => hlabel x (hmem x (Or.inl hx)) n (hmem n (Or.inr rfl))
  refine (hfold sources [] ⟨[], 0⟩ rfl ⟨?_, ?_, rfl⟩).comps
  · intro x hx
    cases hx
  · simp

/-! ### Labels -/

omit [DecidableEq α] in
/-- **A finer labelling of fewer elements has more labels** exactly if it tells apart two elements
that the other one does not, provided that the other one then loses no label. -/
theorem card_image_lt_iff {β γ : Type*} [DecidableEq β] [DecidableEq γ] {s t : Finset α}
    {g : α → β} {f : α → γ} (hts : t ⊆ s)
    (hfiner : ∀ x ∈ t, ∀ y ∈ t, f x = f y → g x = g y)
    (hcover : ∀ x ∈ t, ∀ y ∈ t, g x = g y → f x ≠ f y → s.image g ⊆ t.image g) :
    (s.image g).card < (t.image f).card ↔ ∃ x ∈ t, ∃ y ∈ t, g x = g y ∧ f x ≠ f y := by
  -- both labels together
  set p : α → γ × β := fun x => (f x, g x)
  have hf : ((t.image p).image Prod.fst).card = (t.image p).card := by
    refine Finset.card_image_iff.2 fun a ha b hb hab => ?_
    obtain ⟨x, hx, rfl⟩ := Finset.mem_image.1 (Finset.mem_coe.1 ha)
    obtain ⟨y, hy, rfl⟩ := Finset.mem_image.1 (Finset.mem_coe.1 hb)
    exact Prod.ext hab (hfiner x hx y hy hab)
  have himage_f : (t.image p).image Prod.fst = t.image f := Finset.image_image
  have himage_g : (t.image p).image Prod.snd = t.image g := Finset.image_image
  rw [himage_f] at hf
  rw [hf]
  constructor
  · intro hlt
    by_contra hnone
    have hinj : Set.InjOn Prod.snd (t.image p : Set (γ × β)) := by
      intro a ha b hb hab
      obtain ⟨x, hx, rfl⟩ := Finset.mem_image.1 (Finset.mem_coe.1 ha)
      obtain ⟨y, hy, rfl⟩ := Finset.mem_image.1 (Finset.mem_coe.1 hb)
      refine Prod.ext (not_not.1 fun hne => hnone ⟨x, hx, y, hy, hab, hne⟩) hab
    have hg := Finset.card_image_iff.2 hinj
    have hle := Finset.card_le_card (Finset.image_subset_image (f := g) hts)
    rw [himage_g] at hg
    omega
  · rintro ⟨x, hx, y, hy, heq, hne⟩
    have hg : ((t.image p).image Prod.snd).card < (t.image p).card := by
      refine Finset.card_image_le.lt_of_ne fun hcard => hne ?_
      have hinj := Finset.card_image_iff.1 hcard
      exact (Prod.mk.inj (hinj (Finset.mem_coe.2 (Finset.mem_image_of_mem p hx))
        (Finset.mem_coe.2 (Finset.mem_image_of_mem p hy)) heq)).1
    rw [himage_g] at hg
    exact lt_of_le_of_lt (Finset.card_le_card (hcover x hx y hy heq hne)) hg

/-! ### Cut vertices -/

/-- The graph without the edges to `v`; a path that starts elsewhere does not come to `v`. -/
def Successors.without (G : Successors α) (v : α) : Successors α where
  nodes := G.nodes
  next x := (G.next x).filter (· ≠ v)
  next_mem x y hy := G.next_mem x y (List.mem_filter.1 hy).1

variable {G : Successors α} {v x y : α}

theorem step_without : (G.without v).Step x y ↔ G.Step x y ∧ y ≠ v := by
  simp [Successors.Step, Successors.without]

theorem Reach.of_without (h : Reach (G.without v) x y) : Reach G x y :=
  Relation.ReflTransGen.mono (fun _ _ hstep => (step_without.1 hstep).1) _ _ h

/-- A path stays clear of `v`, or leads to it. -/
theorem Reach.without_or (h : Reach G x y) : Reach (G.without v) x y ∨ Reach G x v := by
  induction h with
  | refl => exact Or.inl Relation.ReflTransGen.refl
  | @tail b c hpath hstep ih =>
      by_cases hc : c = v
      · exact Or.inr (hc ▸ hpath.tail hstep)
      · exact ih.imp_left fun h => h.tail (step_without.2 ⟨hstep, hc⟩)

/-- **A vertex makes more components when it goes exactly if it separates two vertices.**  Between
the vertices that are counted, paths lead back. -/
theorem countComponents_without_lt_iff {nodes : List α}
    (hsymm : ∀ x ∈ nodes, ∀ y ∈ nodes, Reach G x y → Reach G y x)
    (hsymm' : ∀ x ∈ nodes, ∀ y ∈ nodes, x ≠ v → y ≠ v → Reach (G.without v) x y →
      Reach (G.without v) y x) :
    countComponents G nodes < countComponents (G.without v) (nodes.filter (· ≠ v)) ↔
      ∃ x ∈ nodes, ∃ y ∈ nodes, x ≠ v ∧ y ≠ v ∧ Reach G x y ∧ ¬ Reach (G.without v) x y := by
  classical
  set rest := nodes.filter (· ≠ v)
  have hrest : ∀ x, x ∈ rest ↔ x ∈ nodes ∧ x ≠ v := by simp [rest]
  -- a vertex is labelled by the vertices that it reaches
  set g : α → Finset α := fun x => nodes.toFinset.filter (Reach G x)
  set f : α → Finset α := fun x => rest.toFinset.filter (Reach (G.without v) x)
  have hg : ∀ x ∈ nodes, ∀ y ∈ nodes, g x = g y ↔ Reach G x y := by
    intro x hx y hy
    constructor
    · intro heq
      have hmem : y ∈ g y := Finset.mem_filter.2 ⟨List.mem_toFinset.2 hy, .refl⟩
      exact (Finset.mem_filter.1 (heq ▸ hmem)).2
    · intro hxy
      refine Finset.filter_congr fun z hz => ?_
      exact ⟨fun hxz => (hsymm x hx y hy hxy).trans hxz, fun hyz => hxy.trans hyz⟩
  have hf : ∀ x ∈ rest, ∀ y ∈ rest, f x = f y ↔ Reach (G.without v) x y := by
    intro x hx y hy
    obtain ⟨hxn, hxv⟩ := (hrest x).1 hx
    obtain ⟨hyn, hyv⟩ := (hrest y).1 hy
    constructor
    · intro heq
      have hmem : y ∈ f y := Finset.mem_filter.2 ⟨List.mem_toFinset.2 hy, .refl⟩
      exact (Finset.mem_filter.1 (heq ▸ hmem)).2
    · intro hxy
      refine Finset.filter_congr fun z hz => ?_
      exact ⟨fun hxz => (hsymm' x hxn y hyn hxv hyv hxy).trans hxz, fun hyz => hxy.trans hyz⟩
  rw [countComponents_eq g hg, countComponents_eq f hf, card_image_lt_iff]
  · simp only [List.mem_toFinset, hrest]
    constructor
    · rintro ⟨x, ⟨hx, hxv⟩, y, ⟨hy, hyv⟩, heq, hne⟩
      refine ⟨x, hx, y, hy, hxv, hyv, (hg x hx y hy).1 heq, ?_⟩
      exact mt (hf x ((hrest x).2 ⟨hx, hxv⟩) y ((hrest y).2 ⟨hy, hyv⟩)).2 hne
    · rintro ⟨x, hx, y, hy, hxv, hyv, hxy, hnot⟩
      refine ⟨x, ⟨hx, hxv⟩, y, ⟨hy, hyv⟩, (hg x hx y hy).2 hxy, ?_⟩
      exact mt (hf x ((hrest x).2 ⟨hx, hxv⟩) y ((hrest y).2 ⟨hy, hyv⟩)).1 hnot
  · intro x hx
    exact List.mem_toFinset.2 ((hrest x).1 (List.mem_toFinset.1 hx)).1
  · intro x hx y hy heq
    rw [List.mem_toFinset] at hx hy
    exact (hg x ((hrest x).1 hx).1 y ((hrest y).1 hy).1).2 ((hf x hx y hy).1 heq).of_without
  · intro x hx y hy heq hne l hl
    rw [List.mem_toFinset] at hx hy
    obtain ⟨z, hz, rfl⟩ := Finset.mem_image.1 hl
    rw [List.mem_toFinset] at hz
    by_cases hzv : z = v
    · -- the path from `x` to `y` leads to `v`
      have hxn := ((hrest x).1 hx).1
      have hxy := (hg x hxn y ((hrest y).1 hy).1).1 heq
      have hxv := hxy.without_or.resolve_left (mt (hf x hx y hy).2 hne)
      exact Finset.mem_image.2 ⟨x, List.mem_toFinset.2 hx, (hg x hxn z hz).2 (hzv ▸ hxv)⟩
    · exact Finset.mem_image_of_mem g (List.mem_toFinset.2 ((hrest z).2 ⟨hz, hzv⟩))

end GraphSearch
