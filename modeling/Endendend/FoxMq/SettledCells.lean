/-
**Cells whose join does not depend on their order.**

The join compares level (rank, version, time), then confidence, then trust; but the branches that
decide on one of these drop what the other side knows of the rest.  `Settled` says of a list of
cells that nothing which matters can be dropped.

Main definitions:

* `FoxMq.peers`, `FoxMq.stale`, `FoxMq.recent` — the cells of the highest level, those of the same
  rank below it, and those of the latter that share the version;
* `FoxMq.Leader` — a peer with the most trusted proof and the highest confidence under it;
* `FoxMq.Settled` — the condition.

Main results:

* `FoxMq.Settled.joinAll_perm` — **settled cells join to the same six fields in every order**.
-/
import Endendend.FoxMq.CellJoin
import Mathlib.Data.Finset.Max

set_option relaxedAutoImplicit false
set_option autoImplicit false

namespace FoxMq

open CellCore

/-! ### The condition -/

/-- The cells at the level of `k`. -/
def peers (cs : List CellCore) (k : CellCore) : List CellCore :=
  cs.filter fun c => c.level = k.level

/-- The cells of the rank of `k` below its level. -/
def stale (cs : List CellCore) (k : CellCore) : List CellCore :=
  cs.filter fun c => c.rank = k.rank ∧ c.level < k.level

/-- The cells of the rank and version of `k` below its level. -/
def recent (cs : List CellCore) (k : CellCore) : List CellCore :=
  (stale cs k).filter fun c => c.version = k.version

/-- A cell of the highest level, with the most trusted proof there and the highest confidence among
the cells with such a proof. -/
structure Leader (cs : List CellCore) (k : CellCore) : Prop where
  mem : k ∈ cs
  level_le : ∀ c ∈ cs, c.level ≤ k.level
  best : ∀ g ∈ peers cs k, g.trust < k.trust ∨ g.trust = k.trust ∧ g.conf ≤ k.conf

/-- `Carries k x y`: the confidence of `y` can be joined to the proof of `x` below the level of
`k`. -/
def Carries (k x y : CellCore) : Prop :=
  y.trust < x.trust ∨ y.version < k.version ∨ y.updatedAtMs < x.updatedAtMs ∨ y = x

/-- Nothing that matters can be dropped when `k` leads. -/
structure SettledAt (cs : List CellCore) (k : CellCore) : Prop where
  /-- no stale cell has more confidence than all peers -/
  conf_reached : ∀ x ∈ stale cs k, ∃ g ∈ peers cs k, x.conf ≤ g.conf
  /-- if a peer has no confidence, then some peer has a positive one or there is none at all -/
  conf_known : ∀ g ∈ peers cs k, g.confidence01 = none →
    (∃ h ∈ peers cs k, 0 < h.conf) ∨
      stale cs k = [] ∧ ∀ h ∈ peers cs k, h.confidence01 = none
  /-- a peer of another author is less trusted than the leader, has no less confidence, and no
  recent cell lends it trust -/
  node_kept : ∀ g ∈ peers cs k, g.lastNodeId = k.lastNodeId ∨
    k.lastNodeId ≠ none ∧ g.trust < k.trust ∧ k.conf ≤ g.conf ∧
      ∀ x ∈ recent cs k, x.trust < k.trust
  /-- no recent cell is more trusted than the leader -/
  trust_reached : ∀ x ∈ recent cs k, x.trust ≤ k.trust
  /-- a peer with another proof of the same trust has less confidence, and none that it can
  borrow -/
  peer_proof : ∀ g ∈ peers cs k, g.trust = k.trust → g.proofSource = k.proofSource ∨
    g.conf < k.conf ∧ (∀ y ∈ peers cs k, y.trust < k.trust → y.conf < k.conf) ∧
      ∀ y ∈ stale cs k, y.conf < k.conf ∨
        y.version = k.version ∧ g.proofSource = none ∧ y.proofSource ≠ none
  /-- a leader without a proof is not trusted more than a recent cell or a peer with one -/
  no_proof : k.proofSource = none →
    (∀ g ∈ peers cs k, g.proofSource = none) ∧ ∀ x ∈ recent cs k, x.proofSource = none
  /-- a recent cell with another proof of the same trust finds no less trusted peer to hand it to,
  or none that has or takes the confidence of the leader -/
  recent_proof : ∀ x ∈ recent cs k, x.trust = k.trust → x.proofSource = k.proofSource ∨
    (∀ g ∈ peers cs k, g.trust = k.trust) ∨
      (∀ y ∈ peers cs k, y.trust < k.trust → y.conf < k.conf) ∧
        ∀ y ∈ stale cs k, Carries k x y → y.conf < k.conf

/-- The condition on the cells for one key. -/
def Settled (cs : List CellCore) : Prop := ∀ k, Leader cs k → SettledAt cs k

variable {cs : List CellCore} {k : CellCore}

theorem mem_peers {c : CellCore} : c ∈ peers cs k ↔ c ∈ cs ∧ c.level = k.level := by
  simp only [peers, List.mem_filter, decide_eq_true_eq]

theorem mem_stale {c : CellCore} :
    c ∈ stale cs k ↔ c ∈ cs ∧ c.rank = k.rank ∧ c.level < k.level := by
  simp only [stale, List.mem_filter, decide_eq_true_eq]

theorem mem_recent {c : CellCore} : c ∈ recent cs k ↔ c ∈ stale cs k ∧ c.version = k.version := by
  simp only [recent, List.mem_filter, decide_eq_true_eq]

theorem version_le_of_mem_stale {c : CellCore} (h : c ∈ stale cs k) : c.version ≤ k.version :=
  version_le_of_level_le (mem_stale.1 h).2.2.le (mem_stale.1 h).2.1

namespace Leader

theorem mem_peers_self (hk : Leader cs k) : k ∈ peers cs k := mem_peers.2 ⟨hk.mem, rfl⟩

theorem trust_le (hk : Leader cs k) {g : CellCore} (hg : g ∈ peers cs k) : g.trust ≤ k.trust :=
  (hk.best g hg).elim le_of_lt fun h => h.1.le

theorem conf_le (hk : Leader cs k) {g : CellCore} (hg : g ∈ peers cs k)
    (ht : k.trust ≤ g.trust) : g.conf ≤ k.conf :=
  (hk.best g hg).elim (fun h => absurd ht h.not_ge) And.right

/-- **Every non-empty list of cells has a leader.** -/
theorem exists_of_ne_nil (h : cs ≠ []) : ∃ k, Leader cs k := by
  let merit (c : CellCore) : (ℕ ×ₗ ℚ ×ₗ ℚ) ×ₗ ℕ ×ₗ ℚ := toLex (c.level, toLex (c.trust, c.conf))
  obtain ⟨k, hk, hmax⟩ := Finset.exists_max_image cs.toFinset merit (by simpa using h)
  rw [List.mem_toFinset] at hk
  have hle : ∀ c ∈ cs, c.level < k.level ∨ c.level = k.level ∧
      (c.trust < k.trust ∨ c.trust = k.trust ∧ c.conf ≤ k.conf) := fun c hc => by
    have := hmax c (List.mem_toFinset.2 hc)
    simpa only [merit, Prod.Lex.toLex_le_toLex] using this
  refine ⟨k, hk, fun c hc => (hle c hc).elim le_of_lt fun h => h.1.le, fun g hg => ?_⟩
  obtain ⟨hg, hl⟩ := mem_peers.1 hg
  exact (hle g hg).elim (fun h => absurd hl h.ne) And.right

/-- A permutation has the same leaders. -/
theorem perm {xs : List CellCore} (h : xs.Perm cs) (hk : Leader cs k) : Leader xs k where
  mem := h.mem_iff.2 hk.mem
  level_le c hc := hk.level_le c (h.mem_iff.1 hc)
  best g hg := hk.best g ((h.filter _).mem_iff.1 hg)

end Leader

/-! ### Below the highest level

What the cells joined so far can bring to the first peer that arrives. -/

/-- What is known of a join `a` of cells below the level of `k` that has the rank of `k`. -/
structure Low (cs : List CellCore) (k a : CellCore) : Prop where
  /-- the confidence is that of a stale cell, one that is no newer and no more trusted -/
  conf : ∃ y ∈ stale cs k, y.conf = a.conf ∧ y.version ≤ a.version ∧
    (y.version < k.version ∨ y.trust ≤ a.trust ∧ y.updatedAtMs ≤ a.updatedAtMs) ∧
    (a.proofSource = none → y.version < k.version ∨ y.proofSource = none)
  /-- the proof is that of a recent cell, which carries the confidence -/
  proof : a.version = k.version → ∃ x ∈ recent cs k, x.proofSource = a.proofSource ∧
    (2 ≤ a.trust → x.updatedAtMs ≤ a.updatedAtMs ∧
      ∃ y ∈ stale cs k, y.conf = a.conf ∧ Carries k x y)

theorem trust_congr {a b : CellCore} (h : a.proofSource = b.proofSource) : a.trust = b.trust :=
  congrArg trustOfProof h

/-- A cell is known of itself. -/
theorem Low.of_mem {b : CellCore} (hb : b ∈ stale cs k) : Low cs k b where
  conf := ⟨b, hb, rfl, le_rfl, Or.inr ⟨le_rfl, le_rfl⟩, Or.inr⟩
  proof hv := ⟨b, mem_recent.2 ⟨hb, hv⟩, rfl,
    fun _ => ⟨le_rfl, b, hb, rfl, Or.inr (Or.inr (Or.inr rfl))⟩⟩

/-- Two proofs of which the second is as trusted, and trusted at all: the second is kept. -/
theorem betterProof_eq_right {p q : Option MapProofSource} (h : trustOfProof p ≤ trustOfProof q)
    (hq : q ≠ none) : betterProof p q = q := by
  rw [betterProof_of_le h]
  rcases q with - | q
  · exact absurd rfl hq
  · rfl

/-- The proof of a recent cell stays that of a recent cell when a stale cell is compared with it,
and the confidence of one of the two stays carried by it. -/
theorem Low.compared {a b c : CellCore} (ha : Low cs k a) (hb : b ∈ stale cs k)
    (hv : b.version = a.version) (ht : a.updatedAtMs ≤ b.updatedAtMs)
    (hcv : c.version = a.version) (hct : c.updatedAtMs = b.updatedAtMs)
    (hcp : c.proofSource = betterProof a.proofSource b.proofSource)
    (hcc : c.conf = b.conf ∨ c.conf = a.conf ∧ (b.trust ≤ a.trust → a.trust ≤ b.trust →
      a.updatedAtMs < b.updatedAtMs)) :
    Low cs k c := by
  have htc : c.trust = max a.trust b.trust := by
    rw [trust, hcp, trustOfProof_betterProof]
    rfl
  obtain ⟨y, hy, hya, hyv, hyl, hyp⟩ := ha.conf
  have hnone : c.proofSource = none ↔ a.proofSource = none ∧ b.proofSource = none := by
    rw [hcp, betterProof_eq_none_iff]
  refine ⟨?_, fun hck => ?_⟩
  · -- the confidence is that of `b`, or that of the cell it came from before
    rcases hcc with hcc | ⟨hcc, -⟩
    · exact ⟨b, hb, hcc.symm, (hv.trans hcv.symm).le,
        Or.inr ⟨htc ▸ le_max_right _ _, hct.ge⟩, fun hn => Or.inr (hnone.1 hn).2⟩
    · refine ⟨y, hy, hya.trans hcc.symm, hyv.trans hcv.ge, hyl.imp_right fun h => ?_,
        fun hn => hyp (hnone.1 hn).1⟩
      exact ⟨htc ▸ h.1.trans (le_max_left _ _), h.2.trans (ht.trans hct.ge)⟩
  · have hak : a.version = k.version := hcv.symm.trans hck
    have hbr : b ∈ recent cs k := mem_recent.2 ⟨hb, hv.trans hak⟩
    obtain ⟨x, hx, hxa, hxt⟩ := ha.proof hak
    rcases lt_or_ge b.trust a.trust with hlt | hle
    · -- the proof held is kept, and `b` is less trusted than it
      rw [betterProof_of_lt hlt] at hcp
      refine ⟨x, hx, hxa.trans hcp.symm, fun h2 => ?_⟩
      have hta : c.trust = a.trust := trust_congr hcp
      obtain ⟨hxu, y', hy', hya', hyc'⟩ := hxt (hta ▸ h2)
      refine ⟨hxu.trans (ht.trans hct.ge), ?_⟩
      rcases hcc with hcc | ⟨hcc, -⟩
      · exact ⟨b, hb, hcc.symm, Or.inl (trust_congr hxa ▸ hlt)⟩
      · exact ⟨y', hy', hya'.trans hcc.symm, hyc'⟩
    · have hcb : c.trust = b.trust := htc.trans (max_eq_right hle)
      by_cases hbn : b.proofSource = none
      · -- then neither side is trusted, so nothing is said of the confidence
        rw [betterProof_of_le hle, hbn] at hcp
        refine ⟨x, hx, hxa.trans hcp.symm, fun h2 => ?_⟩
        have h1 : b.trust = 1 := by rw [trust, hbn]; rfl
        omega
      · rw [betterProof_eq_right hle hbn] at hcp
        refine ⟨b, hbr, hcp.symm, fun _ => ⟨hct.ge, ?_⟩⟩
        rcases hcc with hcc | ⟨hcc, hlt⟩
        · exact ⟨b, hb, hcc.symm, Or.inr (Or.inr (Or.inr rfl))⟩
        · refine ⟨y, hy, hya.trans hcc.symm, ?_⟩
          rcases hyl with hyl | ⟨hyt, hyu⟩
          · exact Or.inr (Or.inl hyl)
          · -- `y` is less trusted than `b` or older
            rcases hle.lt_or_eq with htr | htr
            · exact Or.inl (hyt.trans_lt htr)
            · exact Or.inr (Or.inr (Or.inl (hyu.trans_lt (hlt htr.ge htr.le))))

/-- **Stale cells keep what is known** of a join below the highest level. -/
theorem Low.step {a b : CellCore} (ha : a.rank = k.rank → Low cs k a) (hb : b ∈ cs)
    (hbl : b.level < k.level) :
    (joinCore a b).rank = k.rank → Low cs k (joinCore a b) := by
  have hj := joined a b
  generalize joinCore a b = c at hj ⊢
  have hstale (h : b.rank = k.rank) : b ∈ stale cs k := mem_stale.2 ⟨hb, h, hbl⟩
  cases hj with
  | rankUp => exact fun h => .of_mem (hstale h)
  | keep | tie => exact ha
  | verUp hr hv =>
      intro h
      have hb' : b ∈ stale cs k := hstale h
      obtain ⟨y, hy, hya, hyv, -, -⟩ := (ha (hr.trans h)).conf
      have hyk : y.version < k.version :=
        hyv.trans_lt (hv.trans_le (version_le_of_mem_stale hb'))
      -- the confidence may come from a cell of a lower version, which every proof carries
      have hmax : ∃ z ∈ stale cs k, z.conf = max a.conf b.conf ∧ z.version ≤ b.version ∧
          (z.version < k.version ∨ z = b) := by
        rcases le_total a.conf b.conf with hc | hc
        · exact ⟨b, hb', (max_eq_right hc).symm, le_rfl, Or.inr rfl⟩
        · exact ⟨y, hy, hya.trans (max_eq_left hc).symm, hyv.trans hv.le, Or.inl hyk⟩
      obtain ⟨z, hz, hzc, hzv, hzb⟩ := hmax
      refine ⟨⟨z, hz, hzc, hzv, ?_, fun hn => ?_⟩,
        fun hk => ⟨b, mem_recent.2 ⟨hb', hk⟩, rfl, fun _ => ⟨le_rfl, z, hz, hzc, ?_⟩⟩⟩
      · refine hzb.imp_right fun (he : z = b) => ?_
        rw [he]
        exact ⟨le_rfl, le_rfl⟩
      · refine hzb.imp_right fun (he : z = b) => ?_
        rw [he]
        exact hn
      · exact hzb.elim (fun h => Or.inr (Or.inl h)) fun h => Or.inr (Or.inr (Or.inr h))
  | timeUp hr hv ht =>
      intro h
      refine (ha (hr.trans h)).compared (hstale h) hv.symm ht.le hv.symm rfl rfl ?_
      rcases le_total a.conf b.conf with hc | hc
      · exact Or.inl (max_eq_right hc)
      · exact Or.inr ⟨max_eq_left hc, fun _ _ => ht⟩
  | confUp hl hc =>
      intro h
      obtain ⟨hr, hv, ht⟩ := level_eq_iff.1 hl
      exact (ha h).compared (hstale (hr.trans h)) hv ht.ge rfl ht.symm rfl (Or.inl rfl)
  | trustUp hl hc ht =>
      intro h
      obtain ⟨hr, hv, hu⟩ := level_eq_iff.1 hl
      refine (ha h).compared (hstale (hr.trans h)) hv hu.ge rfl hu.symm ?_
        (Or.inr ⟨rfl, fun h' => absurd ht h'.not_gt⟩)
      refine (betterProof_eq_right ht.le ?_).symm
      exact ne_none_of_one_lt_trustOfProof ((one_le_trust a).trans_lt ht)

/-! ### At the highest level -/

/-- What is known of a join `a` that has reached the level of a leader `k` of settled cells. -/
structure Top (cs : List CellCore) (k a : CellCore) : Prop where
  level : a.level = k.level
  /-- the author is that of the leader, or the leader still outranks the author -/
  node : a.lastNodeId = k.lastNodeId ∨
    k.lastNodeId ≠ none ∧ a.trust < k.trust ∧ k.conf ≤ a.conf
  /-- the proof is that of the leader, or the leader has not arrived -/
  proof : a.proofSource = k.proofSource ∨ a.trust < k.trust ∨ a.conf < k.conf
  /-- the proof comes from a peer or a recent cell -/
  origin : ∃ z, (z ∈ peers cs k ∨ z ∈ recent cs k) ∧ z.proofSource = a.proofSource
  /-- the confidence comes from a peer or a stale cell -/
  conf : ∃ y, (y ∈ peers cs k ∧ y.trust ≤ a.trust ∨ y ∈ stale cs k) ∧ y.conf = a.conf
  none_of : a.confidence01 = none → ∃ g ∈ peers cs k, g.confidence01 = none
  of_none : stale cs k = [] → (∀ g ∈ peers cs k, g.confidence01 = none) → a.confidence01 = none

namespace Top

/-- The author of a peer that arrives. -/
theorem node_of_peer (hs : SettledAt cs k) {b c : CellCore} (hb : b ∈ peers cs k)
    (hn : c.lastNodeId = b.lastNodeId) (hc : b.conf ≤ c.conf)
    (ht : b.trust < k.trust → (∀ x ∈ recent cs k, x.trust < k.trust) → c.trust < k.trust) :
    c.lastNodeId = k.lastNodeId ∨ k.lastNodeId ≠ none ∧ c.trust < k.trust ∧ k.conf ≤ c.conf := by
  rw [hn]
  exact (hs.node_kept b hb).imp_right fun ⟨hk, hbt, hbc, hx⟩ => ⟨hk, ht hbt hx, hbc.trans hc⟩

/-- The proof of a peer that arrives with confidence that it may have borrowed. -/
theorem proof_of_peer (hk : Leader cs k) (hs : SettledAt cs k) {b : CellCore}
    (hb : b ∈ peers cs k) {q : ℚ}
    (hc : q = b.conf ∨ ∃ y ∈ stale cs k, y.conf = q ∧
      (y.version < k.version ∨ y.proofSource = none ∨ b.proofSource ≠ none)) :
    b.proofSource = k.proofSource ∨ b.trust < k.trust ∨ q < k.conf := by
  rcases (hk.trust_le hb).lt_or_eq with ht | ht
  · exact Or.inr (Or.inl ht)
  · refine (hs.peer_proof b hb ht).imp_right fun ⟨hbk, _, hst⟩ => Or.inr ?_
    rcases hc with rfl | ⟨y, hy, rfl, hyk⟩
    · exact hbk
    · rcases hst y hy with h | ⟨hv, hbn, hyn⟩
      · exact h
      · rcases hyk with h | h | h
        · exact absurd hv h.ne
        · exact absurd h hyn
        · exact absurd hbn h

/-- A peer is known of itself. -/
theorem of_peer (hk : Leader cs k) (hs : SettledAt cs k) {b : CellCore} (hb : b ∈ peers cs k) :
    Top cs k b where
  level := (mem_peers.1 hb).2
  node := node_of_peer hs hb rfl le_rfl fun h _ => h
  proof := proof_of_peer hk hs hb (Or.inl rfl)
  origin := ⟨b, Or.inl hb, rfl⟩
  conf := ⟨b, Or.inl ⟨hb, le_rfl⟩, rfl⟩
  none_of h := ⟨b, hb, h⟩
  of_none _ h := h b hb

/-- The higher confidence is that of the one cell, or that which the other one came with. -/
theorem max_conf_cases {a b y : CellCore} (hya : y.conf = a.conf) :
    max a.conf b.conf = b.conf ∨ y.conf = max a.conf b.conf := by
  rcases le_total a.conf b.conf with h | h
  · exact Or.inl (max_eq_right h)
  · exact Or.inr (hya.trans (max_eq_left h).symm)

/-- The proof when the first peer arrives and only its time is newer. -/
theorem proof_of_entry (hk : Leader cs k) (hs : SettledAt cs k) {a b c : CellCore}
    (ha : Low cs k a) (hb : b ∈ peers cs k) (hv : a.version = k.version)
    (hcp : c.proofSource = betterProof a.proofSource b.proofSource)
    (hcc : c.conf = max a.conf b.conf) :
    c.proofSource = k.proofSource ∨ c.trust < k.trust ∨ c.conf < k.conf := by
  obtain ⟨y, hy, hya, -, -, hyp⟩ := ha.conf
  obtain ⟨x, hx, hxa, hxt⟩ := ha.proof hv
  have hxa' : x.trust = a.trust := trust_congr hxa
  have hmax := max_conf_cases (b := b) hya
  rcases lt_or_ge b.trust a.trust with hlt | hle
  · -- the proof of a recent cell is kept
    rw [betterProof_of_lt hlt] at hcp
    rcases (hs.trust_reached x hx).lt_or_eq with hxk | hxk
    · exact Or.inr (Or.inl ((trust_congr hcp).trans hxa'.symm ▸ hxk))
    · rcases hs.recent_proof x hx hxk with h | h | ⟨hp, hst⟩
      · exact Or.inl (hcp.trans (hxa.symm.trans h))
      · exact absurd (h b hb) (by omega)
      · have h2 : 2 ≤ a.trust := by
          have := one_le_trust b
          omega
        obtain ⟨-, y', hy', hya', hyc'⟩ := hxt h2
        refine Or.inr (Or.inr (hcc ▸ max_lt ?_ (hp b hb (by omega))))
        exact hya' ▸ hst y' hy' hyc'
  · by_cases hbn : b.proofSource = none
    · -- no side is trusted: the leader has no better proof, or the one that is kept
      have h1 : b.trust = 1 := by rw [trust, hbn]; rfl
      have ha1 : a.trust = 1 := le_antisymm (h1 ▸ hle) (one_le_trust a)
      replace hcp : c.proofSource = a.proofSource := by
        rw [hcp, betterProof_of_le hle, hbn]
        rfl
      by_cases hka : k.proofSource = none
      · exact Or.inl (hcp.trans (hxa.symm.trans (((hs.no_proof hka).2 x hx).trans hka.symm)))
      · rcases (one_le_trust k).lt_or_eq with hk1 | hk1
        · refine Or.inr (Or.inl ?_)
          rwa [trust_congr hcp, ha1]
        · by_cases han : a.proofSource = none
          · have h := proof_of_peer hk hs hb
              (hmax.imp_right fun h => ⟨y, hy, h, (hyp han).imp_right Or.inl⟩)
            rwa [hbn, ← han, ← hcp, h1, ← ha1, ← trust_congr hcp, ← hcc] at h
          · exact Or.inl (hcp.trans (eq_of_trustOfProof_eq_one ha1 hk1.symm han hka))
    · rw [betterProof_eq_right hle hbn] at hcp
      have h := proof_of_peer hk hs hb
        (hmax.imp_right fun h => ⟨y, hy, h, Or.inr (Or.inr hbn)⟩)
      rwa [← hcp, ← trust_congr hcp, ← hcc] at h

/-- **The first peer that arrives** brings the join to the highest level. -/
theorem enter (hk : Leader cs k) (hs : SettledAt cs k) {a b : CellCore}
    (ha : a.rank = k.rank → Low cs k a) (hal : a.level < k.level) (hb : b ∈ peers cs k) :
    Top cs k (joinCore a b) := by
  have hbl : b.level = k.level := (mem_peers.1 hb).2
  obtain ⟨hbr, hbv, -⟩ := level_eq_iff.1 hbl
  have hj := joined a b
  generalize joinCore a b = c at hj ⊢
  cases hj with
  | rankUp => exact of_peer hk hs hb
  | keep h => exact absurd (h.trans hal) (hbl ▸ lt_irrefl _)
  | confUp h | trustUp h | tie h => exact absurd (h.symm.trans hbl) hal.ne
  | verUp hr hv =>
      obtain ⟨y, hy, hya, hyv, -, -⟩ := (ha (hr.trans hbr)).conf
      have hyk : y.version < k.version := hyv.trans_lt (hv.trans_eq hbv)
      have hmax := max_conf_cases (b := b) hya
      refine ⟨hbl, node_of_peer hs hb rfl (le_max_right _ _) fun h _ => h,
        proof_of_peer hk hs hb (hmax.imp_right fun h => ⟨y, hy, h, Or.inl hyk⟩),
        ⟨b, Or.inl hb, rfl⟩, ?_, fun h => absurd h (Option.some_ne_none _),
        fun h => absurd hy (h ▸ List.not_mem_nil)⟩
      rcases hmax with h | h
      · exact ⟨b, Or.inl ⟨hb, le_rfl⟩, h.symm⟩
      · exact ⟨y, Or.inr hy, h⟩
  | timeUp hr hv ht =>
      have hlow := ha (hr.trans hbr)
      obtain ⟨y, hy, hya, -, -, -⟩ := hlow.conf
      obtain ⟨x, hx, hxa, -⟩ := hlow.proof (hv.trans hbv)
      have hmax := max_conf_cases (b := b) hya
      set c : CellCore := { b with
        proofSource := betterProof a.proofSource b.proofSource
        confidence01 := some (max a.conf b.conf) } with hc
      have hct : c.trust = max a.trust b.trust := by
        rw [trust, hc, trustOfProof_betterProof]
        rfl
      refine ⟨hbl, node_of_peer hs hb rfl (le_max_right _ _) fun h h' => ?_,
        proof_of_entry hk hs hlow hb (hv.trans hbv) rfl rfl, ?_, ?_,
        fun h => absurd h (Option.some_ne_none _),
        fun h => absurd hy (h ▸ List.not_mem_nil)⟩
      · have hxa' : x.trust = a.trust := trust_congr hxa
        rw [hct]
        exact max_lt (hxa' ▸ h' x hx) h
      · rcases betterProof_eq_or a.proofSource b.proofSource with h | h
        · exact ⟨x, Or.inr hx, hxa.trans h.symm⟩
        · exact ⟨b, Or.inl hb, h.symm⟩
      · rcases hmax with h | h
        · exact ⟨b, Or.inl ⟨hb, hct ▸ le_max_right _ _⟩, h.symm⟩
        · exact ⟨y, Or.inr hy, h⟩

theorem trust_le (hk : Leader cs k) (hs : SettledAt cs k) {a : CellCore} (ha : Top cs k a) :
    a.trust ≤ k.trust := by
  obtain ⟨z, hz, hza⟩ := ha.origin
  rw [← trust_congr hza]
  exact hz.elim hk.trust_le (hs.trust_reached z)

/-- A proof that is not the leader's finds no confidence like the leader's. -/
theorem conf_lt_of_origin {a b : CellCore} (hs : SettledAt cs k) (ha : Top cs k a)
    (hat : a.trust = k.trust) (hap : a.proofSource ≠ k.proofSource)
    (hb : b ∈ peers cs k) (hbt : b.trust < k.trust) : b.conf < k.conf := by
  obtain ⟨z, hz, hza⟩ := ha.origin
  have hzt : z.trust = k.trust := (trust_congr hza).trans hat
  rcases hz with hz | hz
  · rcases hs.peer_proof z hz hzt with h | ⟨-, h, -⟩
    · exact absurd (hza.symm.trans h) hap
    · exact h b hb hbt
  · rcases hs.recent_proof z hz hzt with h | h | ⟨h, -⟩
    · exact absurd (hza.symm.trans h) hap
    · exact absurd (h b hb) hbt.ne
    · exact h b hb hbt

/-- The proof when a peer raises the confidence. -/
theorem proof_of_raise (hk : Leader cs k) (hs : SettledAt cs k) {a b c : CellCore}
    (ha : Top cs k a) (hb : b ∈ peers cs k)
    (hcp : c.proofSource = betterProof a.proofSource b.proofSource) (hcc : c.conf = b.conf) :
    c.proofSource = k.proofSource ∨ c.trust < k.trust ∨ c.conf < k.conf := by
  rcases lt_or_ge b.trust a.trust with hlt | hle
  · rw [betterProof_of_lt hlt] at hcp
    by_cases hap : a.proofSource = k.proofSource
    · exact Or.inl (hcp.trans hap)
    · rcases (ha.trust_le hk hs).lt_or_eq with hat | hat
      · exact Or.inr (Or.inl (trust_congr hcp ▸ hat))
      · exact Or.inr (Or.inr (hcc ▸ ha.conf_lt_of_origin hs hat hap hb (hat ▸ hlt)))
  · have h := proof_of_peer hk hs hb (Or.inl rfl)
    by_cases hbn : b.proofSource = none
    · -- nothing but the confidence changes, unless the leader has no proof either
      have hct : c.trust ≤ b.trust := by
        rw [trust, hcp, trustOfProof_betterProof]
        exact max_le hle le_rfl
      rcases h with h | h | h
      · have hkn : k.proofSource = none := h.symm.trans hbn
        have hno := hs.no_proof hkn
        obtain ⟨z, hz, hza⟩ := ha.origin
        have han : a.proofSource = none := hza.symm.trans (hz.elim (hno.1 z) (hno.2 z))
        exact Or.inl (hcp.trans ((betterProof_eq_none_iff.2 ⟨han, hbn⟩).trans hkn.symm))
      · exact Or.inr (Or.inl (hct.trans_lt h))
      · exact Or.inr (Or.inr (hcc ▸ h))
    · rw [betterProof_eq_right hle hbn] at hcp
      rwa [← hcp, ← trust_congr hcp, ← hcc] at h

/-- **Cells that arrive at the highest level** keep what is known. -/
theorem step (hk : Leader cs k) (hs : SettledAt cs k) {a b : CellCore} (ha : Top cs k a)
    (hb : b ∈ cs) : Top cs k (joinCore a b) := by
  rcases joinCore_of_level_le (ha.level ▸ hk.level_le b hb) with
    ⟨he, -⟩ | ⟨hl, hc, he⟩ | ⟨hl, hc, ht, he⟩
  · rwa [he]
  · -- `b` raises the confidence
    have hb' : b ∈ peers cs k := mem_peers.2 ⟨hb, hl.trans ha.level⟩
    set c := joinCore a b
    have hcp : c.proofSource = betterProof a.proofSource b.proofSource := by rw [he]
    have hcc : c.conf = b.conf := by rw [he]; rfl
    have hct : c.trust = max a.trust b.trust := by
      rw [trust, hcp, trustOfProof_betterProof]
      rfl
    have hcn : c.lastNodeId = a.lastNodeId := by rw [he]
    refine ⟨(level_joinCore a b).trans ((max_eq_left hl.le).trans ha.level), ?_,
      proof_of_raise hk hs ha hb' hcp hcc, ?_,
      ⟨b, Or.inl ⟨hb', hct ▸ le_max_right _ _⟩, hcc.symm⟩, fun h => ?_, fun h h' => ?_⟩
    · rw [hcn]
      refine ha.node.imp_right fun hn => ?_
      obtain ⟨hkn, hat, hac⟩ := hn
      refine ⟨hkn, ?_, hcc ▸ hac.trans hc.le⟩
      -- a peer as trusted as the leader has no more confidence than it
      refine hct ▸ max_lt hat (lt_of_not_ge fun h => ?_)
      exact absurd (hac.trans_lt hc) (hk.conf_le hb' h).not_gt
    · rw [hcp]
      rcases betterProof_eq_or a.proofSource b.proofSource with h | h
      · obtain ⟨z, hz, hza⟩ := ha.origin
        exact ⟨z, hz, hza.trans h.symm⟩
      · exact ⟨b, Or.inl hb', h.symm⟩
    · rw [he] at h
      exact absurd h (Option.some_ne_none _)
    · -- without any confidence, none can be raised
      have hbc : b.conf = 0 := by rw [CellCore.conf, h' b hb']; rfl
      have hac : a.conf = 0 := by rw [CellCore.conf, ha.of_none h h']; rfl
      exact absurd hc (by rw [hac, hbc]; exact lt_irrefl 0)
  · -- `b` brings a more trusted proof
    have hb' : b ∈ peers cs k := mem_peers.2 ⟨hb, hl.trans ha.level⟩
    set c := joinCore a b
    have hcp : c.proofSource = b.proofSource := by rw [he]
    have hcc : c.conf = a.conf := by rw [he]; rfl
    have hct : c.trust = b.trust := trust_congr hcp
    have hcn : c.lastNodeId = (b.lastNodeId <|> a.lastNodeId) := by rw [he]
    have hbn : b.proofSource ≠ none :=
      ne_none_of_one_lt_trustOfProof ((one_le_trust a).trans_lt ht)
    refine ⟨(level_joinCore a b).trans ((max_eq_left hl.le).trans ha.level), ?_, ?_,
      ⟨b, Or.inl hb', hcp.symm⟩, ?_, fun h => ha.none_of (by rwa [he] at h), fun h h' => ?_⟩
    · rcases hs.node_kept b hb' with hbk | ⟨hkn, hbt, hbc, -⟩
      · rw [hcn, hbk]
        rcases hkn : k.lastNodeId with - | n
        · exact Or.inl (ha.node.elim (fun h => h.trans hkn) fun h => absurd hkn h.1)
        · exact Or.inl rfl
      · refine Or.inr ⟨hkn, hct ▸ hbt, hcc ▸ hbc.trans hc⟩
    · -- a proof other than the leader's comes with confidence from elsewhere, if at all
      rw [hcp, hct, hcc]
      rcases (hk.trust_le hb').lt_or_eq with hbt | hbt
      · exact Or.inr (Or.inl hbt)
      · refine (hs.peer_proof b hb' hbt).imp_right fun hno => Or.inr ?_
        obtain ⟨-, hp, hst⟩ := hno
        obtain ⟨y, hy, hya⟩ := ha.conf
        rw [← hya]
        rcases hy with ⟨hy, hyt⟩ | hy
        · exact hp y hy (hyt.trans_lt (ht.trans_eq hbt))
        · exact (hst y hy).elim id fun h => absurd h.2.1 hbn
    · obtain ⟨y, hy, hya⟩ := ha.conf
      exact ⟨y, hy.imp_left fun h => ⟨h.1, hct ▸ h.2.trans ht.le⟩, hya.trans hcc.symm⟩
    · rw [he]
      exact ha.of_none h h'

end Top

/-! ### All cells joined -/

/-- What is known of a join of some of the cells. -/
def Reached (cs : List CellCore) (k a : CellCore) : Prop :=
  a.level < k.level ∧ (a.rank = k.rank → Low cs k a) ∨ Top cs k a

theorem Reached.of_mem (hk : Leader cs k) (hs : SettledAt cs k) {b : CellCore} (hb : b ∈ cs) :
    Reached cs k b := by
  rcases (hk.level_le b hb).lt_or_eq with h | h
  · exact Or.inl ⟨h, fun hr => .of_mem (mem_stale.2 ⟨hb, hr, h⟩)⟩
  · exact Or.inr (Top.of_peer hk hs (mem_peers.2 ⟨hb, h⟩))

theorem Reached.step (hk : Leader cs k) (hs : SettledAt cs k) {a b : CellCore}
    (ha : Reached cs k a) (hb : b ∈ cs) : Reached cs k (joinCore a b) := by
  rcases ha with ⟨hal, ha⟩ | ha
  · rcases (hk.level_le b hb).lt_or_eq with h | h
    · refine Or.inl ⟨?_, Low.step ha hb h⟩
      rw [level_joinCore]
      exact max_lt hal h
    · exact Or.inr (Top.enter hk hs ha hal (mem_peers.2 ⟨hb, h⟩))
  · exact Or.inr (ha.step hk hs hb)

/-- What the join of all cells is: the leader, with the highest confidence of a peer. -/
structure Outcome (cs : List CellCore) (k a : CellCore) : Prop where
  level : a.level = k.level
  node : a.lastNodeId = k.lastNodeId
  proof : a.proofSource = k.proofSource
  conf_mem : ∃ g ∈ peers cs k, a.conf ≤ g.conf
  conf_ge : ∀ g ∈ peers cs k, g.conf ≤ a.conf
  none_iff : a.confidence01 = none ↔
    stale cs k = [] ∧ ∀ g ∈ peers cs k, g.confidence01 = none

/-- There is one outcome. -/
theorem Outcome.unique {a b : CellCore} (ha : Outcome cs k a) (hb : Outcome cs k b) : a = b := by
  have hconf : a.conf = b.conf := by
    obtain ⟨g, hg, hag⟩ := ha.conf_mem
    obtain ⟨h, hh, hbh⟩ := hb.conf_mem
    exact le_antisymm (hag.trans (hb.conf_ge g hg)) (hbh.trans (ha.conf_ge h hh))
  have hsome : a.confidence01 = b.confidence01 := by
    have hn : a.confidence01 = none ↔ b.confidence01 = none := ha.none_iff.trans hb.none_iff.symm
    unfold conf at hconf
    cases hac : a.confidence01 with
    | none => exact (hn.1 hac).symm
    | some x =>
        cases hbc : b.confidence01 with
        | none => exact absurd (hn.2 hbc) (hac ▸ Option.some_ne_none x)
        | some y => rw [hac, hbc] at hconf; exact congrArg some hconf
  have hl : a.level = b.level := ha.level.trans hb.level.symm
  obtain ⟨-, hv, ht⟩ := level_eq_iff.1 hl
  have hst := state_eq_of_level_eq hl
  have hn : a.lastNodeId = b.lastNodeId := ha.node.trans hb.node.symm
  have hp : a.proofSource = b.proofSource := ha.proof.trans hb.proof.symm
  cases a
  cases b
  simp only [CellCore.mk.injEq]
  exact ⟨hst, hv, ht, hn, hp, hsome⟩

/-- **Settled cells join to the outcome.** -/
theorem outcome_of_settled (hk : Leader cs k) (hs : SettledAt cs k) {a : CellCore}
    (ha : joinAll cs = some a) : Outcome cs k a := by
  rcases cs with - | ⟨c, cs⟩
  · exact absurd ha (Option.some_ne_none a).symm
  obtain rfl := Option.some.inj ha
  have hle : ∀ g ∈ peers (c :: cs) k,
      g.conf ≤ (cs.foldl joinCore c).conf ∧ g.trust ≤ (cs.foldl joinCore c).trust := by
    intro g hg
    obtain ⟨hg, hgl⟩ := mem_peers.1 hg
    have hlev : ∀ b ∈ c :: cs, b.level ≤ g.level := fun b hb => hgl ▸ hk.level_le b hb
    rcases List.mem_cons.1 hg with rfl | hg
    · exact le_foldl_joinCore_left fun b hb => hlev b (List.mem_cons_of_mem _ hb)
    · exact le_foldl_joinCore hg (hlev c List.mem_cons_self) fun b hb =>
        hlev b (List.mem_cons_of_mem _ hb)
  have hlevel : k.level ≤ (cs.foldl joinCore c).level := by
    rcases List.mem_cons.1 hk.mem with rfl | hmem
    · exact level_le_foldl k cs
    · exact level_le_foldl_of_mem c hmem
  have hreach : Reached (c :: cs) k (cs.foldl joinCore c) :=
    foldl_joinCore_induction (.of_mem hk hs List.mem_cons_self) fun a b hb ha =>
      ha.step hk hs (List.mem_cons_of_mem _ hb)
  generalize cs.foldl joinCore c = a at hle hlevel hreach
  have htop : Top (c :: cs) k a := hreach.resolve_left fun h => absurd h.1 hlevel.not_gt
  -- the leader has arrived
  obtain ⟨hkc, hkt⟩ := hle k hk.mem_peers_self
  refine ⟨htop.level, ?_, ?_, ?_, fun g hg => (hle g hg).1, ?_⟩
  · exact htop.node.resolve_right fun h => absurd h.2.1 hkt.not_gt
  · exact htop.proof.resolve_right fun h => h.elim hkt.not_gt hkc.not_gt
  · obtain ⟨y, hy, hya⟩ := htop.conf
    rcases hy with ⟨hy, -⟩ | hy
    · exact ⟨y, hy, hya.ge⟩
    · obtain ⟨g, hg, hyg⟩ := hs.conf_reached y hy
      exact ⟨g, hg, hya ▸ hyg⟩
  · refine ⟨fun hn => ?_, fun h => htop.of_none h.1 h.2⟩
    obtain ⟨g, hg, hgn⟩ := htop.none_of hn
    refine (hs.conf_known g hg hgn).resolve_left ?_
    rintro ⟨h, hh, hpos⟩
    have hac : a.conf = 0 := by rw [conf, hn]; rfl
    exact absurd (hle h hh).1 (by rw [hac]; exact hpos.not_ge)

/-- A permutation is settled as well. -/
theorem SettledAt.perm {xs : List CellCore} (h : xs.Perm cs) (hs : SettledAt cs k) :
    SettledAt xs k := by
  have hp {c : CellCore} : c ∈ peers xs k ↔ c ∈ peers cs k := (h.filter _).mem_iff
  have hst {c : CellCore} : c ∈ stale xs k ↔ c ∈ stale cs k := (h.filter _).mem_iff
  have hr {c : CellCore} : c ∈ recent xs k ↔ c ∈ recent cs k := ((h.filter _).filter _).mem_iff
  have hnil : stale xs k = [] ↔ stale cs k = [] := by
    simp only [List.eq_nil_iff_forall_not_mem, hst]
  constructor <;> simp only [hp, hst, hr, hnil]
  exacts [hs.conf_reached, hs.conf_known, hs.node_kept, hs.trust_reached, hs.peer_proof,
    hs.no_proof, hs.recent_proof]

theorem Outcome.perm {xs : List CellCore} (h : xs.Perm cs) {a : CellCore} (ha : Outcome xs k a) :
    Outcome cs k a := by
  have hp {c : CellCore} : c ∈ peers xs k ↔ c ∈ peers cs k := (h.filter _).mem_iff
  have hst {c : CellCore} : c ∈ stale xs k ↔ c ∈ stale cs k := (h.filter _).mem_iff
  have hnil : stale xs k = [] ↔ stale cs k = [] := by
    simp only [List.eq_nil_iff_forall_not_mem, hst]
  obtain ⟨h₁, h₂, h₃, h₄, h₅, h₆⟩ := ha
  simp only [hp, hnil] at h₄ h₅ h₆
  exact ⟨h₁, h₂, h₃, h₄, h₅, h₆⟩

/-- **Settled cells join to the same six fields in every order.** -/
theorem Settled.joinAll_perm (hs : Settled cs) {xs : List CellCore} (h : xs.Perm cs) :
    joinAll xs = joinAll cs := by
  rcases hcs : cs with - | ⟨c, rest⟩
  · rw [hcs] at h
    rw [List.perm_nil.1 h]
  have hne : cs ≠ [] := hcs ▸ List.cons_ne_nil c rest
  obtain ⟨k, hk⟩ := Leader.exists_of_ne_nil hne
  obtain ⟨x, xs', rfl⟩ := List.exists_cons_of_ne_nil
    fun he : xs = [] => absurd (he ▸ h).nil_eq (hcs ▸ (List.cons_ne_nil c rest).symm)
  have hx := (outcome_of_settled (hk.perm h) ((hs k hk).perm h) rfl).perm h
  have hc := outcome_of_settled hk (hs k hk) (a := rest.foldl joinCore c) (by rw [hcs]; rfl)
  exact congrArg some (hx.unique hc)

end FoxMq
