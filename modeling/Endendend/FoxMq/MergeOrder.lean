/-
**When the order of the deltas does not matter.**

The merge of partitioned deltas is meant to be a deterministic join.  It is one exactly where the
cells for each key are settled; elsewhere two orders of the same deltas leave different cells.

Main definitions:

* `FoxMq.Opens` — what has been joined so far in some order of the cells, and what is still to come.

Main results:

* `FoxMq.settled_iff` — cells are settled exactly if they join to the same in every order;
* `FoxMq.merge_converges_iff` — **the merge of deltas does not depend on their order exactly if the
  cells for each key are settled**;
* `FoxMq.merge_order_matters` — two deltas whose order decides on the confidence in a cell.
-/
import Endendend.FoxMq.PartitionMerge
import Endendend.FoxMq.SettledCells

set_option relaxedAutoImplicit false
set_option autoImplicit false

namespace FoxMq

open Js CellCore

variable {cs : List CellCore} {k : CellCore}

/-! ### What cells that arrive later leave alone -/

section Later

variable {a : CellCore} {rest : List CellCore} (hk : Leader cs k) (hr : ∀ b ∈ rest, b ∈ cs)
  (hl : a.level = k.level)

include hk hr hl

/-- The author of a join that is trusted as much as the leader stays. -/
theorem node_foldl (ht : k.trust ≤ a.trust) :
    (rest.foldl joinCore a).lastNodeId = a.lastNodeId := by
  refine (foldl_joinCore_induction (P := fun c => c.level = k.level ∧ k.trust ≤ c.trust ∧
    c.lastNodeId = a.lastNodeId) ⟨hl, ht, rfl⟩ fun c b hb ⟨hcl, hct, hcn⟩ => ?_).2.2
  have hbl : b.level ≤ c.level := hcl ▸ hk.level_le b (hr b hb)
  refine ⟨?_, hct.trans (le_joinCore hbl).2, ?_⟩
  · rw [level_joinCore, max_eq_left hbl, hcl]
  · rcases joinCore_of_level_le hbl with ⟨he, -⟩ | ⟨-, -, he⟩ | ⟨hbc, -, hlt, -⟩
    · rw [he, hcn]
    · rw [he]
      exact hcn
    · have hle := hk.trust_le (mem_peers.2 ⟨hr b hb, hbc.trans hcl⟩)
      exact absurd hlt (hle.trans hct).not_gt

/-- The proof of a join that is trusted like the leader and has its confidence stays. -/
theorem proof_foldl (ht : a.trust = k.trust) (hc : k.conf ≤ a.conf) :
    (rest.foldl joinCore a).proofSource = a.proofSource := by
  refine (foldl_joinCore_induction (P := fun c => c.level = k.level ∧ k.conf ≤ c.conf ∧
    c.proofSource = a.proofSource) ⟨hl, hc, rfl⟩ fun c b hb ⟨hcl, hcc, hcp⟩ => ?_).2.2
  have hbl : b.level ≤ c.level := hcl ▸ hk.level_le b (hr b hb)
  have hct : c.trust = k.trust := (trust_congr hcp).trans ht
  refine ⟨?_, hcc.trans (le_joinCore hbl).1, ?_⟩
  · rw [level_joinCore, max_eq_left hbl, hcl]
  · rcases joinCore_of_level_le hbl with ⟨he, -⟩ | ⟨hbc, hlt, he⟩ | ⟨hbc, -, hlt, -⟩
    · rw [he, hcp]
    · -- a cell with more confidence than the leader is less trusted
      have hbk : b.trust < k.trust := lt_of_not_ge fun h =>
        absurd (hcc.trans_lt hlt)
          (hk.conf_le (mem_peers.2 ⟨hr b hb, hbc.trans hcl⟩) h).not_gt
      rw [he]
      exact (betterProof_of_lt (hbk.trans_eq hct.symm)).trans hcp
    · have hle := hk.trust_le (mem_peers.2 ⟨hr b hb, hbc.trans hcl⟩)
      exact absurd hlt (hct ▸ hle).not_gt

/-- A proof that is found is not lost. -/
theorem found_foldl (hp : a.proofSource ≠ none) :
    (rest.foldl joinCore a).proofSource ≠ none := by
  refine (foldl_joinCore_induction (P := fun c => c.level = k.level ∧ c.proofSource ≠ none)
    ⟨hl, hp⟩ fun c b hb ⟨hcl, hcp⟩ => ?_).2
  have hbl : b.level ≤ c.level := hcl ▸ hk.level_le b (hr b hb)
  refine ⟨?_, ?_⟩
  · rw [level_joinCore, max_eq_left hbl, hcl]
  · rcases joinCore_of_level_le hbl with ⟨he, -⟩ | ⟨-, -, he⟩ | ⟨-, -, ht, he⟩
    · rwa [he]
    · rw [he]
      intro h
      exact hcp (betterProof_eq_none_iff.1 h).1
    · rw [he]
      exact ne_none_of_one_lt_trustOfProof ((one_le_trust c).trans_lt ht)

/-- Confidence, once known, stays known. -/
theorem known_foldl (hc : a.confidence01 ≠ none) :
    (rest.foldl joinCore a).confidence01 ≠ none := by
  refine (foldl_joinCore_induction (P := fun c => c.level = k.level ∧ c.confidence01 ≠ none)
    ⟨hl, hc⟩ fun c b hb ⟨hcl, hcc⟩ => ?_).2
  have hbl : b.level ≤ c.level := hcl ▸ hk.level_le b (hr b hb)
  refine ⟨?_, ?_⟩
  · rw [level_joinCore, max_eq_left hbl, hcl]
  · rcases joinCore_of_level_le hbl with ⟨he, -⟩ | ⟨-, -, he⟩ | ⟨-, -, -, he⟩
    · rwa [he]
    · rw [he]
      exact Option.some_ne_none _
    · rwa [he]

/-- Without a positive confidence, no confidence becomes known. -/
theorem unknown_foldl (hc : a.confidence01 = none) (hpos : ∀ g ∈ peers cs k, g.conf ≤ 0) :
    (rest.foldl joinCore a).confidence01 = none := by
  refine (foldl_joinCore_induction (P := fun c => c.level = k.level ∧ c.confidence01 = none)
    ⟨hl, hc⟩ fun c b hb ⟨hcl, hcc⟩ => ?_).2
  have hbl : b.level ≤ c.level := hcl ▸ hk.level_le b (hr b hb)
  refine ⟨?_, ?_⟩
  · rw [level_joinCore, max_eq_left hbl, hcl]
  · rcases joinCore_of_level_le hbl with ⟨he, -⟩ | ⟨hbc, hlt, -⟩ | ⟨-, -, -, he⟩
    · rwa [he]
    · have hle := hpos b (mem_peers.2 ⟨hr b hb, hbc.trans hcl⟩)
      have hc0 : c.conf = 0 := by rw [conf, hcc]; rfl
      exact absurd hlt (hc0 ▸ hle.not_gt)
    · rwa [he]

/-- The confidence of a join is that of a peer, or what it was. -/
theorem conf_foldl : (∃ g ∈ peers cs k, (rest.foldl joinCore a).conf = g.conf) ∨
    (rest.foldl joinCore a).conf = a.conf := by
  refine (foldl_joinCore_induction (P := fun c => c.level = k.level ∧
    ((∃ g ∈ peers cs k, c.conf = g.conf) ∨ c.conf = a.conf))
    ⟨hl, Or.inr rfl⟩ fun c b hb ⟨hcl, hcc⟩ => ?_).2
  have hbl : b.level ≤ c.level := hcl ▸ hk.level_le b (hr b hb)
  refine ⟨?_, ?_⟩
  · rw [level_joinCore, max_eq_left hbl, hcl]
  · rcases joinCore_of_level_le hbl with ⟨he, -⟩ | ⟨hbc, -, he⟩ | ⟨-, -, -, he⟩
    · rwa [he]
    · refine Or.inl ⟨b, mem_peers.2 ⟨hr b hb, hbc.trans hcl⟩, ?_⟩
      rw [he]
      rfl
    · rwa [he]

end Later

/-! ### The first cells of an order -/

/-- `Opens cs a rest`: some order of `cs` joins to `a` before the cells `rest` arrive. -/
def Opens (cs : List CellCore) (a : CellCore) (rest : List CellCore) : Prop :=
  ∃ c pre, (c :: pre ++ rest).Perm cs ∧ pre.foldl joinCore c = a

theorem opens_one {x : CellCore} (hx : x ∈ cs) : ∃ rest, Opens cs x rest :=
  ⟨cs.erase x, x, [], (List.perm_cons_erase hx).symm, rfl⟩

theorem opens_two {x y : CellCore} (hx : x ∈ cs) (hy : y ∈ cs) (hxy : x ≠ y) :
    ∃ rest, Opens cs (joinCore x y) rest := by
  have hy' : y ∈ cs.erase x := (List.mem_erase_of_ne hxy.symm).2 hy
  refine ⟨(cs.erase x).erase y, x, [y], ?_, rfl⟩
  exact (((List.perm_cons_erase hx).trans ((List.perm_cons_erase hy').cons x))).symm

theorem opens_three {x y z : CellCore} (hx : x ∈ cs) (hy : y ∈ cs) (hz : z ∈ cs) (hxy : x ≠ y)
    (hxz : x ≠ z) (hyz : y ≠ z) : ∃ rest, Opens cs (joinCore (joinCore x y) z) rest := by
  have hy' : y ∈ cs.erase x := (List.mem_erase_of_ne hxy.symm).2 hy
  have hz' : z ∈ (cs.erase x).erase y :=
    (List.mem_erase_of_ne hyz.symm).2 ((List.mem_erase_of_ne hxz.symm).2 hz)
  refine ⟨((cs.erase x).erase y).erase z, x, [y, z], ?_, rfl⟩
  refine (((List.perm_cons_erase hx).trans (((List.perm_cons_erase hy').trans
    ((List.perm_cons_erase hz').cons y)).cons x))).symm

/-- Every order of the cells joins to the same. -/
def OrderFree (cs : List CellCore) : Prop :=
  ∀ xs : List CellCore, xs.Perm cs → joinAll xs = joinAll cs

theorem Opens.mem_of_mem_rest {a : CellCore} {rest : List CellCore} (ha : Opens cs a rest) :
    ∀ b ∈ rest, b ∈ cs := by
  obtain ⟨c, pre, hp, -⟩ := ha
  intro b hb
  exact hp.mem_iff.1 (List.mem_append_right _ hb)

namespace OrderFree

/-- All openings come to one end. -/
theorem end_eq (hf : OrderFree cs) {a b : CellCore} {rest rest' : List CellCore}
    (ha : Opens cs a rest) (hb : Opens cs b rest') :
    rest.foldl joinCore a = rest'.foldl joinCore b := by
  obtain ⟨c, pre, hp, rfl⟩ := ha
  obtain ⟨c', pre', hp', rfl⟩ := hb
  have h := (hf _ hp).trans (hf _ hp').symm
  rw [← List.foldl_append, ← List.foldl_append]
  exact Option.some.inj h

section Ends

variable (hf : OrderFree cs) (hk : Leader cs k) {a : CellCore} {rest : List CellCore}
  (ha : Opens cs a rest) (hl : a.level = k.level)

include hf hk ha hl

/-- An opening that is trusted like the leader has its author. -/
theorem node_eq (ht : k.trust ≤ a.trust) : a.lastNodeId = k.lastNodeId := by
  obtain ⟨rest', hk'⟩ := opens_one hk.mem
  rw [← node_foldl hk ha.mem_of_mem_rest hl ht, hf.end_eq ha hk',
    node_foldl hk hk'.mem_of_mem_rest rfl le_rfl]

/-- An opening that is trusted like the leader and has its confidence has its proof. -/
theorem proof_eq (ht : a.trust = k.trust) (hc : k.conf ≤ a.conf) :
    a.proofSource = k.proofSource := by
  obtain ⟨rest', hk'⟩ := opens_one hk.mem
  rw [← proof_foldl hk ha.mem_of_mem_rest hl ht hc, hf.end_eq ha hk',
    proof_foldl hk hk'.mem_of_mem_rest rfl rfl le_rfl]

/-- No opening has more confidence than all peers. -/
theorem conf_le : ∃ g ∈ peers cs k, a.conf ≤ g.conf := by
  obtain ⟨rest', hk'⟩ := opens_one hk.mem
  have hle : ∀ b ∈ rest, b.level ≤ a.level := fun b hb =>
    hl ▸ hk.level_le b (ha.mem_of_mem_rest b hb)
  have h := (le_foldl_joinCore_left hle).1
  rw [hf.end_eq ha hk'] at h
  rcases conf_foldl hk hk'.mem_of_mem_rest rfl with ⟨g, hg, he⟩ | he
  · exact ⟨g, hg, he ▸ h⟩
  · exact ⟨k, hk.mem_peers_self, he ▸ h⟩

/-- No opening is more trusted than the leader. -/
theorem trust_le : a.trust ≤ k.trust := by
  obtain ⟨rest', hk'⟩ := opens_one hk.mem
  have hle : ∀ b ∈ rest, b.level ≤ a.level := fun b hb =>
    hl ▸ hk.level_le b (ha.mem_of_mem_rest b hb)
  have h := (le_foldl_joinCore_left hle).2
  rwa [hf.end_eq ha hk', trust_congr (proof_foldl hk hk'.mem_of_mem_rest rfl rfl le_rfl)] at h

end Ends

end OrderFree

/-! ### A stale cell before a peer -/

/-- What a cell leaves to one of its rank and a higher level. -/
theorem joinCore_below {x g : CellCore} (hr : x.rank = g.rank) (hl : x.level < g.level) :
    joinCore x g = { g with
      proofSource := if x.version = g.version then betterProof x.proofSource g.proofSource
        else g.proofSource
      confidence01 := some (max x.conf g.conf) } := by
  have hj := joined x g
  generalize joinCore x g = c at hj ⊢
  cases hj with
  | rankUp h => exact absurd hr h.ne
  | keep h => exact absurd hl h.not_gt
  | verUp _ hv => rw [if_neg hv.ne]
  | timeUp _ hv ht => rw [if_pos hv]
  | confUp h | trustUp h | tie h => exact absurd h hl.ne'

/-- Joining a less trusted cell of the same level leaves the proof. -/
theorem proof_joinCore_of_lt {a b : CellCore} (hl : b.level = a.level) (ht : b.trust < a.trust) :
    (joinCore a b).proofSource = a.proofSource := by
  rcases joinCore_of_level_le hl.le with ⟨he, -⟩ | ⟨-, -, he⟩ | ⟨-, -, h, -⟩
  · rw [he]
  · rw [he]
    exact betterProof_of_lt ht
  · exact absurd h ht.not_gt

/-- What a stale cell leaves to the peer that arrives next. -/
theorem joinCore_stale {x g : CellCore} (hx : x ∈ stale cs k) (hg : g ∈ peers cs k) :
    joinCore x g = { g with
      proofSource := if x.version = k.version then betterProof x.proofSource g.proofSource
        else g.proofSource
      confidence01 := some (max x.conf g.conf) } := by
  obtain ⟨-, hxr, hxl⟩ := mem_stale.1 hx
  have hgl := (mem_peers.1 hg).2
  obtain ⟨hgr, hgv, -⟩ := level_eq_iff.1 hgl
  rw [joinCore_below (hxr.trans hgr.symm) (hgl ▸ hxl), hgv]

theorem level_joinCore_stale {x g : CellCore} (hx : x ∈ stale cs k) (hg : g ∈ peers cs k) :
    (joinCore x g).level = k.level := by
  rw [level_joinCore, (mem_peers.1 hg).2, max_eq_right (mem_stale.1 hx).2.2.le]

theorem ne_of_stale {x g : CellCore} (hx : x ∈ stale cs k) (hg : g ∈ peers cs k) : x ≠ g := by
  rintro rfl
  exact absurd (mem_peers.1 hg).2 (mem_stale.1 hx).2.2.ne

theorem conf_joinCore_stale {x g : CellCore} (hx : x ∈ stale cs k) (hg : g ∈ peers cs k) :
    (joinCore x g).conf = max x.conf g.conf := by
  rw [joinCore_stale hx hg]
  rfl

theorem node_joinCore_stale {x g : CellCore} (hx : x ∈ stale cs k) (hg : g ∈ peers cs k) :
    (joinCore x g).lastNodeId = g.lastNodeId := by
  rw [joinCore_stale hx hg]

theorem proof_joinCore_recent {x g : CellCore} (hx : x ∈ recent cs k) (hg : g ∈ peers cs k) :
    (joinCore x g).proofSource = betterProof x.proofSource g.proofSource := by
  rw [joinCore_stale (mem_recent.1 hx).1 hg]
  exact if_pos (mem_recent.1 hx).2

theorem trust_joinCore_recent {x g : CellCore} (hx : x ∈ recent cs k) (hg : g ∈ peers cs k) :
    (joinCore x g).trust = max x.trust g.trust := by
  rw [trust, proof_joinCore_recent hx hg, trustOfProof_betterProof]
  rfl

/-! ### The condition is necessary -/

namespace OrderFree

variable (hf : OrderFree cs) (hk : Leader cs k)

include hf hk

theorem conf_reached {x : CellCore} (hx : x ∈ stale cs k) : ∃ g ∈ peers cs k, x.conf ≤ g.conf := by
  have hkk := hk.mem_peers_self
  obtain ⟨rest, ho⟩ := opens_two (mem_stale.1 hx).1 hk.mem (ne_of_stale hx hkk)
  obtain ⟨g, hg, hle⟩ := hf.conf_le hk ho (level_joinCore_stale hx hkk)
  exact ⟨g, hg, le_trans (conf_joinCore_stale hx hkk ▸ le_max_left _ _) hle⟩

theorem conf_known {g : CellCore} (hg : g ∈ peers cs k) (hgn : g.confidence01 = none) :
    (∃ h ∈ peers cs k, 0 < h.conf) ∨
      stale cs k = [] ∧ ∀ h ∈ peers cs k, h.confidence01 = none := by
  by_cases hpos : ∃ h ∈ peers cs k, 0 < h.conf
  · exact Or.inl hpos
  simp only [not_exists, not_and, not_lt] at hpos
  -- the order that starts with `g` ends without a confidence, so every order does
  obtain ⟨hgc, hgl⟩ := mem_peers.1 hg
  obtain ⟨rest, ho⟩ := opens_one hgc
  have hend := unknown_foldl hk ho.mem_of_mem_rest hgl hgn hpos
  refine Or.inr ⟨List.eq_nil_iff_forall_not_mem.2 fun x hx => ?_, fun h hh => ?_⟩
  · obtain ⟨rest', ho'⟩ := opens_two (mem_stale.1 hx).1 hgc (ne_of_stale hx hg)
    refine known_foldl hk ho'.mem_of_mem_rest (level_joinCore_stale hx hg) ?_
      ((hf.end_eq ho' ho).symm ▸ hend)
    rw [joinCore_stale hx hg]
    exact Option.some_ne_none _
  · by_contra hne
    obtain ⟨hhc, hhl⟩ := mem_peers.1 hh
    obtain ⟨rest', ho'⟩ := opens_one hhc
    exact known_foldl hk ho'.mem_of_mem_rest hhl hne ((hf.end_eq ho' ho).symm ▸ hend)

theorem trust_reached {x : CellCore} (hx : x ∈ recent cs k) : x.trust ≤ k.trust := by
  have hkk := hk.mem_peers_self
  have hxs := (mem_recent.1 hx).1
  obtain ⟨rest, ho⟩ := opens_two (mem_stale.1 hxs).1 hk.mem (ne_of_stale hxs hkk)
  have hle := hf.trust_le hk ho (level_joinCore_stale hxs hkk)
  rw [trust_joinCore_recent hx hkk] at hle
  exact (le_max_left _ _).trans hle

theorem node_kept {g : CellCore} (hg : g ∈ peers cs k) : g.lastNodeId = k.lastNodeId ∨
    k.lastNodeId ≠ none ∧ g.trust < k.trust ∧ k.conf ≤ g.conf ∧
      ∀ x ∈ recent cs k, x.trust < k.trust := by
  by_cases hn : g.lastNodeId = k.lastNodeId
  · exact Or.inl hn
  obtain ⟨hgc, hgl⟩ := mem_peers.1 hg
  have hgk : g ≠ k := fun h => hn (h ▸ rfl)
  have htr : g.trust < k.trust := by
    refine lt_of_not_ge fun h => hn ?_
    obtain ⟨rest, ho⟩ := opens_one hgc
    exact hf.node_eq hk ho hgl h
  -- the leader arrives right after `g`
  obtain ⟨rest, ho⟩ := opens_two hgc hk.mem hgk
  have hlev : (joinCore g k).level = k.level := by rw [level_joinCore, hgl, max_self]
  have hnode := hf.node_eq hk ho hlev (joinCore_ge hgl.symm).2
  rcases joinCore_of_level_le (a := g) (b := k) hgl.ge with ⟨he, hle⟩ | ⟨-, -, he⟩ | ⟨-, hc, -, he⟩
  · exact absurd (hle hgl.symm).2 htr.not_ge
  · rw [he] at hnode
    exact absurd hnode hn
  · refine Or.inr ⟨fun hkn => hn ?_, htr, hc, fun x hx => lt_of_not_ge fun h => hn ?_⟩
    · rw [he, hkn] at hnode
      exact hnode.trans hkn.symm
    · have hxs := (mem_recent.1 hx).1
      obtain ⟨rest', ho'⟩ := opens_two (mem_stale.1 hxs).1 hgc (ne_of_stale hxs hg)
      have hnode' := hf.node_eq hk ho' (level_joinCore_stale hxs hg)
        (trust_joinCore_recent hx hg ▸ h.trans (le_max_left _ _))
      rwa [node_joinCore_stale hxs hg] at hnode'

theorem no_proof (hkn : k.proofSource = none) :
    (∀ g ∈ peers cs k, g.proofSource = none) ∧ ∀ x ∈ recent cs k, x.proofSource = none := by
  -- a proof that is found is not lost again, but the leader's order ends without one
  have lost {a : CellCore} {rest : List CellCore} (ho : Opens cs a rest)
      (hl : a.level = k.level) : a.proofSource = none := by
    by_contra hne
    obtain ⟨rest', ho'⟩ := opens_one hk.mem
    have hend := proof_foldl hk ho'.mem_of_mem_rest rfl rfl le_rfl
    rw [← hf.end_eq ho ho', hkn] at hend
    exact found_foldl hk ho.mem_of_mem_rest hl hne hend
  refine ⟨fun g hg => ?_, fun x hx => ?_⟩
  · obtain ⟨hgc, hgl⟩ := mem_peers.1 hg
    obtain ⟨rest, ho⟩ := opens_one hgc
    exact lost ho hgl
  · have hkk := hk.mem_peers_self
    have hxs := (mem_recent.1 hx).1
    obtain ⟨rest, ho⟩ := opens_two (mem_stale.1 hxs).1 hk.mem (ne_of_stale hxs hkk)
    have h := lost ho (level_joinCore_stale hxs hkk)
    rw [proof_joinCore_recent hx hkk, betterProof_eq_none_iff] at h
    exact h.1

theorem peer_proof {g : CellCore} (hg : g ∈ peers cs k) (hgt : g.trust = k.trust) :
    g.proofSource = k.proofSource ∨
      g.conf < k.conf ∧ (∀ y ∈ peers cs k, y.trust < k.trust → y.conf < k.conf) ∧
        ∀ y ∈ stale cs k, y.conf < k.conf ∨
          y.version = k.version ∧ g.proofSource = none ∧ y.proofSource ≠ none := by
  by_cases hp : g.proofSource = k.proofSource
  · exact Or.inl hp
  obtain ⟨hgc, hgl⟩ := mem_peers.1 hg
  refine Or.inr ⟨?_, fun y hy hyt => ?_, fun y hy => ?_⟩
  · refine lt_of_not_ge fun h => hp ?_
    obtain ⟨rest, ho⟩ := opens_one hgc
    exact hf.proof_eq hk ho hgl hgt h
  · refine lt_of_not_ge fun h => hp ?_
    obtain ⟨hyc, hyl⟩ := mem_peers.1 hy
    have hne : g ≠ y := fun he => absurd hgt (he ▸ hyt.ne)
    obtain ⟨rest, ho⟩ := opens_two hgc hyc hne
    have hproof := proof_joinCore_of_lt (hyl.trans hgl.symm) (hgt ▸ hyt)
    have hend := hf.proof_eq hk ho (by rw [level_joinCore, hgl, hyl, max_self])
      ((trust_congr hproof).trans hgt) (h.trans (joinCore_ge (hyl.trans hgl.symm)).1)
    exact hproof.symm.trans hend
  · refine or_iff_not_imp_left.2 fun h => ?_
    rw [not_lt] at h
    obtain ⟨rest, ho⟩ := opens_two (mem_stale.1 hy).1 hgc (ne_of_stale hy hg)
    have hlev := level_joinCore_stale hy hg
    have hconf : k.conf ≤ (joinCore y g).conf :=
      conf_joinCore_stale hy hg ▸ h.trans (le_max_left _ _)
    by_contra hno
    -- then `g` keeps its proof with the confidence of `y`
    have hproof : (joinCore y g).proofSource = g.proofSource := by
      by_cases hv : y.version = k.version
      · have hyr : y ∈ recent cs k := mem_recent.2 ⟨hy, hv⟩
        have hle : y.trust ≤ g.trust := hgt ▸ hf.trust_reached hk hyr
        rw [proof_joinCore_recent hyr hg]
        by_cases hgn : g.proofSource = none
        · have hyn : y.proofSource = none := by
            by_contra hyn
            exact hno ⟨hv, hgn, hyn⟩
          rw [hgn, betterProof_eq_none_iff]
          exact ⟨hyn, rfl⟩
        · exact betterProof_eq_right hle hgn
      · rw [joinCore_stale hy hg]
        exact if_neg hv
    exact hp (hproof.symm.trans (hf.proof_eq hk ho hlev ((trust_congr hproof).trans hgt) hconf))

/-- What a recent cell whose proof the leader lacks must not come to: its proof at the highest
level with the confidence of the leader. -/
theorem proof_of_opens {x a : CellCore} {rest : List CellCore} (hxt : x.trust = k.trust)
    (ho : Opens cs a rest) (hl : a.level = k.level) (ha : a.proofSource = x.proofSource)
    (hc : k.conf ≤ a.conf) : x.proofSource = k.proofSource :=
  ha.symm.trans (hf.proof_eq hk ho hl ((trust_congr ha).trans hxt) hc)

omit hf hk in
/-- A stale cell whose confidence the proof of a recent cell carries: before a peer arrives the two
can join to that proof with that confidence. -/
theorem exists_carrying {x y g : CellCore} (hx : x ∈ recent cs k) (hxp : x.proofSource ≠ none)
    (hy : y ∈ stale cs k) (hyx : y.version = k.version → y.trust ≤ x.trust)
    (hxy : Carries k x y) (hg : g ∈ peers cs k) :
    ∃ c rest, Opens cs (joinCore c g) rest ∧ (c.rank = k.rank ∧ c.level < k.level) ∧
      c.version = k.version ∧ c.proofSource = x.proofSource ∧ y.conf ≤ c.conf := by
  obtain ⟨hxs, hxv⟩ := mem_recent.1 hx
  obtain ⟨hxc, hxr, hxl⟩ := mem_stale.1 hxs
  obtain ⟨hyc, hyr, hyl⟩ := mem_stale.1 hy
  have hgc := (mem_peers.1 hg).1
  have hxg : x ≠ g := ne_of_stale hxs hg
  have hyg : y ≠ g := ne_of_stale hy hg
  rcases eq_or_ne y x with rfl | hne
  · obtain ⟨rest, ho⟩ := opens_two hxc hgc hxg
    exact ⟨y, rest, ho, ⟨hxr, hxl⟩, hxv, rfl, le_rfl⟩
  rcases lt_or_ge y.level x.level with hlt | hge
  · -- `y` first: `x` takes over its confidence
    obtain ⟨rest, ho⟩ := opens_three hyc hxc hgc hne hyg hxg
    refine ⟨joinCore y x, rest, ho, ?_⟩
    rw [joinCore_below (hyr.trans hxr.symm) hlt]
    refine ⟨⟨hxr, hxl⟩, hxv, ?_, le_max_left _ _⟩
    dsimp only
    split
    · next hv => exact betterProof_eq_right (hyx (hv.trans hxv)) hxp
    · rfl
  · -- `x` first: it is more trusted than `y`, and keeps its proof
    have hyv : y.version = k.version :=
      le_antisymm (version_le_of_mem_stale hy)
        (hxv ▸ version_le_of_level_le hge (hxr.trans hyr.symm))
    have htr : y.trust < x.trust := by
      rcases hxy with h | h | h | h
      · exact h
      · exact absurd hyv h.ne
      · refine absurd hge (not_le_of_gt
          (lt_level_iff.2 (Or.inr ⟨hyr.trans hxr.symm, Or.inr ⟨?_, h⟩⟩)))
        exact hyv.trans hxv.symm
      · exact absurd h hne
    obtain ⟨rest, ho⟩ := opens_three hxc hyc hgc hne.symm hxg hyg
    refine ⟨joinCore x y, rest, ho, ?_⟩
    rcases hge.lt_or_eq with hlt | heq
    · rw [joinCore_below (hxr.trans hyr.symm) hlt]
      refine ⟨⟨hyr, hyl⟩, hyv, ?_, le_max_right _ _⟩
      rw [if_pos (hxv.trans hyv.symm)]
      exact betterProof_of_lt htr
    · have hlev : (joinCore x y).level = x.level := by rw [level_joinCore, heq, max_self]
      obtain ⟨hcr, hcv, -⟩ := level_eq_iff.1 hlev
      exact ⟨⟨hcr.trans hxr, hlev ▸ hxl⟩, hcv.trans hxv, proof_joinCore_of_lt heq.symm htr,
        (joinCore_ge heq.symm).1⟩

theorem recent_proof {x : CellCore} (hx : x ∈ recent cs k) (hxt : x.trust = k.trust) :
    x.proofSource = k.proofSource ∨ (∀ g ∈ peers cs k, g.trust = k.trust) ∨
      (∀ y ∈ peers cs k, y.trust < k.trust → y.conf < k.conf) ∧
        ∀ y ∈ stale cs k, Carries k x y → y.conf < k.conf := by
  by_cases hp : x.proofSource = k.proofSource
  · exact Or.inl hp
  refine Or.inr (or_iff_not_imp_left.2 fun hall => ?_)
  simp only [not_forall] at hall
  obtain ⟨g, hg, hgt⟩ := hall
  have hgt : g.trust < k.trust := lt_of_le_of_ne (hk.trust_le hg) hgt
  have hxs := (mem_recent.1 hx).1
  -- the proof of `x` at the highest level, handed to a less trusted peer
  have handed {c h : CellCore} {rest : List CellCore} (ho : Opens cs (joinCore c h) rest)
      (hc : c.rank = k.rank ∧ c.level < k.level) (hcv : c.version = k.version)
      (hcp : c.proofSource = x.proofSource) (hh : h ∈ peers cs k) (hht : h.trust < k.trust)
      (hconf : k.conf ≤ max c.conf h.conf) : False := by
    have hhl := (mem_peers.1 hh).2
    obtain ⟨hhr, hhv, -⟩ := level_eq_iff.1 hhl
    have hj := joinCore_below (hc.1.trans hhr.symm) (hhl ▸ hc.2)
    rw [if_pos (hcv.trans hhv.symm), betterProof_of_lt] at hj
    · refine hp (hf.proof_of_opens hk hxt ho ?_ (by rw [hj]; exact hcp) (by rw [hj]; exact hconf))
      rw [level_joinCore, hhl, max_eq_right hc.2.le]
    · exact hht.trans_eq (hxt.symm.trans (trust_congr hcp).symm)
  refine ⟨fun y hy hyt => lt_of_not_ge fun hle => ?_, fun y hy hxy => lt_of_not_ge fun hle => ?_⟩
  · obtain ⟨rest, ho⟩ := opens_two (mem_stale.1 hxs).1 (mem_peers.1 hy).1 (ne_of_stale hxs hy)
    exact handed ho (mem_stale.1 hxs).2 (mem_recent.1 hx).2 rfl hy hyt
      (hle.trans (le_max_right _ _))
  · have hxp : x.proofSource ≠ none :=
      ne_none_of_one_lt_trustOfProof ((one_le_trust g).trans_lt (hgt.trans_eq hxt.symm))
    have hyx (hv : y.version = k.version) : y.trust ≤ x.trust :=
      hxt ▸ hf.trust_reached hk (mem_recent.2 ⟨hy, hv⟩)
    obtain ⟨c, rest, ho, hc, hcv, hcp, hcc⟩ := exists_carrying hx hxp hy hyx hxy hg
    exact handed ho hc hcv hcp hg hgt (hle.trans (hcc.trans (le_max_left _ _)))

end OrderFree

/-- **Cells are settled exactly if they join to the same in every order.** -/
theorem settled_iff (cs : List CellCore) : OrderFree cs ↔ Settled cs := by
  refine ⟨fun hf k hk => ?_, fun hs xs h => hs.joinAll_perm h⟩
  exact {
    conf_reached := fun _ => hf.conf_reached hk
    conf_known := fun _ => hf.conf_known hk
    node_kept := fun _ => hf.node_kept hk
    trust_reached := fun _ => hf.trust_reached hk
    peer_proof := fun _ => hf.peer_proof hk
    no_proof := hf.no_proof hk
    recent_proof := fun _ => hf.recent_proof hk }

/-! ### Orders of the deltas -/

/-- **The merge of deltas does not depend on their order exactly if the cells for each key are
settled.** -/
theorem merge_converges_iff (deltas : List SharedMapDelta) :
    (∀ deltas' : List SharedMapDelta, deltas'.Perm deltas → ∀ key : Str,
      ((mergePartitionMapDeltas deltas').get? key).map MapCellMeta.core =
        ((mergePartitionMapDeltas deltas).get? key).map MapCellMeta.core) ↔
    ∀ key : Str, Settled ((cellsAt key deltas).map MapCellMeta.core) := by
  simp only [core_mergePartitionMapDeltas, ← settled_iff]
  constructor
  · intro h key xs hxs
    obtain ⟨deltas', hp, rfl⟩ := exists_perm_cellsAt hxs
    exact h deltas' hp key
  · intro h deltas' hp key
    exact h key _ ((hp.filterMap _).map _)

/-- A node has searched a cell twice: its second record is newer and less sure. -/
def searchedTwice : List SharedMapDelta :=
  let cell (version : ℚ) (confidence : ℚ) : MapCellMeta :=
    ⟨.searched, version, 100, some (lit "n1"), some confidence, some (lit "n1"),
      some .local_sensor, some false, none⟩
  [⟨.ofList [(lit "3,4", cell 1 (9 / 10))], lit "n1", 100⟩,
    ⟨.ofList [(lit "3,4", cell 2 (1 / 2))], lit "n1", 200⟩]

/-- **The order of two deltas decides on the confidence in a cell**: in one order it is the highest
one observed, in the other the last. -/
theorem merge_order_matters :
    ¬ ∀ (deltas deltas' : List SharedMapDelta), deltas'.Perm deltas → ∀ key : Str,
      ((mergePartitionMapDeltas deltas').get? key).map MapCellMeta.core =
        ((mergePartitionMapDeltas deltas).get? key).map MapCellMeta.core := by
  intro h
  have hkey := h searchedTwice searchedTwice.reverse (List.reverse_perm _) (lit "3,4")
  exact absurd hkey (by decide +kernel)

end FoxMq
