/-
**What a join of cells does.**

The nine branches of the join fall into three groups: the arriving cell takes over because it has a
higher level (rank, version, time), it is refused because it has a lower one, or the two are of one
level and only confidence, proof and author are compared.

Main definitions:

* `FoxMq.Joined` — what a join can do, one constructor for each group of branches;
* `FoxMq.joinAll` — cells joined in the order they arrive.

Main results:

* `FoxMq.joined` — every join is one of these;
* `FoxMq.level_joinCore` — a join has the higher of the two levels;
* `FoxMq.joinCore_of_level_le` — what a cell can change that does not have a higher level;
* `FoxMq.le_foldl_joinCore` — joined cells have at least the confidence and trust of each cell of
  their level.
-/
import Endendend.FoxMq.MapMerge

set_option relaxedAutoImplicit false
set_option autoImplicit false

namespace FoxMq

open CellCore

/-! ### Levels -/

theorem lt_level_iff {a b : CellCore} :
    a.level < b.level ↔ a.rank < b.rank ∨ a.rank = b.rank ∧
      (a.version < b.version ∨ a.version = b.version ∧ a.updatedAtMs < b.updatedAtMs) := by
  simp only [level, Prod.Lex.toLex_lt_toLex]

theorem level_eq_iff {a b : CellCore} :
    a.level = b.level ↔
      a.rank = b.rank ∧ a.version = b.version ∧ a.updatedAtMs = b.updatedAtMs := by
  simp only [level, EmbeddingLike.apply_eq_iff_eq, Prod.mk.injEq]

/-- Cells of one level are in the same state. -/
theorem state_eq_of_level_eq {a b : CellCore} (h : a.level = b.level) : a.state = b.state :=
  cellStateRank_injective (level_eq_iff.1 h).1

theorem version_le_of_level_le {a b : CellCore} (h : a.level ≤ b.level) (hr : a.rank = b.rank) :
    a.version ≤ b.version := by
  rcases h.lt_or_eq with h | h
  · rcases lt_level_iff.1 h with h | ⟨-, h | h⟩
    · exact absurd hr h.ne
    · exact h.le
    · exact h.1.le
  · exact (level_eq_iff.1 h).2.1.le

/-! ### Proofs -/

theorem one_le_trustOfProof (p : Option MapProofSource) : 1 ≤ trustOfProof p := by
  rcases p with - | p
  · exact le_rfl
  · cases p <;> decide

theorem one_le_trust (c : CellCore) : 1 ≤ c.trust := one_le_trustOfProof _

/-- Only a local sensor is trusted as little as no proof at all. -/
theorem eq_of_trustOfProof_eq_one {p q : Option MapProofSource} (hp : trustOfProof p = 1)
    (hq : trustOfProof q = 1) (hp' : p ≠ none) (hq' : q ≠ none) : p = q := by
  rcases p with - | p
  · exact absurd rfl hp'
  rcases q with - | q
  · exact absurd rfl hq'
  cases p <;> cases q <;> simp_all [trustOfProof, proofTrust]

theorem ne_none_of_one_lt_trustOfProof {p : Option MapProofSource} (h : 1 < trustOfProof p) :
    p ≠ none := by
  rintro rfl
  exact absurd h (by decide)

theorem trustOfProof_betterProof (p q : Option MapProofSource) :
    trustOfProof (betterProof p q) = max (trustOfProof p) (trustOfProof q) := by
  unfold betterProof
  split
  next h =>
    rcases q with - | q
    · -- a missing proof gives way, and the other one is not trusted more than it
      have hp : trustOfProof p = 1 := le_antisymm h (one_le_trustOfProof p)
      simp only [Option.orElse_eq_orElse, Option.orElse_eq_or, Option.none_or, hp]
      exact (max_self 1).symm
    · exact (max_eq_right h).symm
  next h => exact (max_eq_left (not_le.1 h).le).symm

theorem betterProof_of_lt {p q : Option MapProofSource} (h : trustOfProof q < trustOfProof p) :
    betterProof p q = p := by
  rw [betterProof, if_neg (by omega)]

theorem betterProof_of_le {p q : Option MapProofSource} (h : trustOfProof p ≤ trustOfProof q) :
    betterProof p q = (q <|> p) := by
  rw [betterProof, if_pos h]

/-- The better of two proofs is one of them. -/
theorem betterProof_eq_or (p q : Option MapProofSource) :
    betterProof p q = p ∨ betterProof p q = q := by
  rcases lt_or_ge (trustOfProof q) (trustOfProof p) with h | h
  · exact Or.inl (betterProof_of_lt h)
  · rw [betterProof_of_le h]
    rcases q with - | q
    · exact Or.inl rfl
    · exact Or.inr rfl

/-- A proof is only lost to another one. -/
theorem betterProof_eq_none_iff {p q : Option MapProofSource} :
    betterProof p q = none ↔ p = none ∧ q = none := by
  constructor
  · intro h
    rcases lt_or_ge (trustOfProof q) (trustOfProof p) with hlt | hle
    · rw [betterProof_of_lt hlt] at h
      exact absurd h (ne_none_of_one_lt_trustOfProof ((one_le_trustOfProof q).trans_lt hlt))
    · rw [betterProof_of_le hle] at h
      rcases q with - | q
      · exact ⟨h, rfl⟩
      · exact absurd h (Option.some_ne_none q)
  · rintro ⟨rfl, rfl⟩
    rfl

/-! ### What a join can do -/

/-- `Joined a b c`: a cell `b` arrives where `a` is held, and `c` is held afterwards. -/
inductive Joined (a b : CellCore) : CellCore → Prop
  | rankUp (hr : a.rank < b.rank) : Joined a b b
  | keep (h : b.level < a.level) : Joined a b a
  | verUp (hr : a.rank = b.rank) (hv : a.version < b.version) :
      Joined a b { b with confidence01 := some (max a.conf b.conf) }
  | timeUp (hr : a.rank = b.rank) (hv : a.version = b.version)
      (ht : a.updatedAtMs < b.updatedAtMs) :
      Joined a b { b with
        proofSource := betterProof a.proofSource b.proofSource
        confidence01 := some (max a.conf b.conf) }
  | confUp (h : b.level = a.level) (hc : a.conf < b.conf) :
      Joined a b { a with
        confidence01 := some b.conf
        proofSource := betterProof a.proofSource b.proofSource }
  | trustUp (h : b.level = a.level) (hc : b.conf ≤ a.conf) (ht : a.trust < b.trust) :
      Joined a b { a with
        proofSource := b.proofSource
        lastNodeId := b.lastNodeId <|> a.lastNodeId }
  | tie (h : b.level = a.level) (hc : b.conf ≤ a.conf) (ht : b.trust ≤ a.trust) : Joined a b a

/-- **Every join is one of these.** -/
theorem joined (a b : CellCore) : Joined a b (joinCore a b) := by
  unfold joinCore
  split_ifs with h₁ h₂ h₃ h₄ h₅ h₆ h₇ h₈
  · exact .rankUp h₁
  · exact .keep (lt_level_iff.2 (Or.inl h₂))
  all_goals have hr : a.rank = b.rank := by omega
  · exact .verUp hr h₃
  · exact .keep (lt_level_iff.2 (Or.inr ⟨hr.symm, Or.inl h₄⟩))
  all_goals have hv : a.version = b.version := le_antisymm (not_lt.1 h₄) (not_lt.1 h₃)
  · exact .timeUp hr hv h₅
  · exact .keep (lt_level_iff.2 (Or.inr ⟨hr.symm, Or.inr ⟨hv.symm, h₆⟩⟩))
  all_goals
    have hl : b.level = a.level :=
      level_eq_iff.2 ⟨hr.symm, hv.symm, le_antisymm (not_lt.1 h₅) (not_lt.1 h₆)⟩
  · exact .confUp hl h₇
  · exact .trustUp hl (not_lt.1 h₇) h₈
  · exact .tie hl (not_lt.1 h₇) (not_lt.1 h₈)

/-- **A join has the higher of the two levels.** -/
theorem level_joinCore (a b : CellCore) : (joinCore a b).level = max a.level b.level := by
  have hj := joined a b
  generalize joinCore a b = c at hj ⊢
  cases hj with
  | rankUp hr => exact (max_eq_right (lt_level_iff.2 (Or.inl hr)).le).symm
  | keep h => exact (max_eq_left h.le).symm
  | verUp hr hv => exact (max_eq_right (lt_level_iff.2 (Or.inr ⟨hr, Or.inl hv⟩)).le).symm
  | timeUp hr hv ht =>
      exact (max_eq_right (lt_level_iff.2 (Or.inr ⟨hr, Or.inr ⟨hv, ht⟩⟩)).le).symm
  | confUp h | trustUp h | tie h => exact (max_eq_left h.le).symm

/-- **A cell without a higher level** is refused, raises the confidence, or brings a better
proof. -/
theorem joinCore_of_level_le {a b : CellCore} (h : b.level ≤ a.level) :
    (joinCore a b = a ∧ (b.level = a.level → b.conf ≤ a.conf ∧ b.trust ≤ a.trust)) ∨
    (b.level = a.level ∧ a.conf < b.conf ∧ joinCore a b =
      { a with
        confidence01 := some b.conf
        proofSource := betterProof a.proofSource b.proofSource }) ∨
    (b.level = a.level ∧ b.conf ≤ a.conf ∧ a.trust < b.trust ∧ joinCore a b =
      { a with proofSource := b.proofSource, lastNodeId := b.lastNodeId <|> a.lastNodeId }) := by
  have hj := joined a b
  generalize joinCore a b = c at hj ⊢
  cases hj with
  | rankUp hr => exact absurd (lt_level_iff.2 (Or.inl hr)) h.not_gt
  | keep h' => exact Or.inl ⟨rfl, fun he => absurd he h'.ne⟩
  | verUp hr hv => exact absurd (lt_level_iff.2 (Or.inr ⟨hr, Or.inl hv⟩)) h.not_gt
  | timeUp hr hv ht => exact absurd (lt_level_iff.2 (Or.inr ⟨hr, Or.inr ⟨hv, ht⟩⟩)) h.not_gt
  | confUp h' hc => exact Or.inr (Or.inl ⟨h', hc, rfl⟩)
  | trustUp h' hc ht => exact Or.inr (Or.inr ⟨h', hc, ht, rfl⟩)
  | tie h' hc ht => exact Or.inl ⟨rfl, fun _ => ⟨hc, ht⟩⟩

/-! ### Joining the cells that arrive -/

/-- Cells joined in the order they arrive. -/
def joinAll (cs : List CellCore) : Option CellCore :=
  match cs with
  | [] => none
  | c :: cs => some (cs.foldl joinCore c)

/-- What every join keeps holds of all cells joined. -/
theorem foldl_joinCore_induction {P : CellCore → Prop} {a : CellCore} {cs : List CellCore}
    (ha : P a) (step : ∀ a, ∀ b ∈ cs, P a → P (joinCore a b)) : P (cs.foldl joinCore a) :=
  List.foldlRecOn cs joinCore ha fun a ha b hb => step a b hb ha

theorem level_le_foldl (a : CellCore) (cs : List CellCore) :
    a.level ≤ (cs.foldl joinCore a).level :=
  foldl_joinCore_induction (P := fun c => a.level ≤ c.level) le_rfl fun c b _ h => by
    rw [level_joinCore]
    exact h.trans (le_max_left _ _)

theorem level_le_foldl_of_mem (a : CellCore) {g : CellCore} {cs : List CellCore} (hg : g ∈ cs) :
    g.level ≤ (cs.foldl joinCore a).level := by
  obtain ⟨pre, post, rfl⟩ := List.append_of_mem hg
  rw [List.foldl_append, List.foldl_cons]
  refine le_trans ?_ (level_le_foldl _ post)
  rw [level_joinCore]
  exact le_max_right _ _

/-- **Confidence and trust do not fall** while no cell of a higher level arrives. -/
theorem le_joinCore {a b : CellCore} (h : b.level ≤ a.level) :
    a.conf ≤ (joinCore a b).conf ∧ a.trust ≤ (joinCore a b).trust := by
  rcases joinCore_of_level_le h with ⟨he, -⟩ | ⟨-, hc, he⟩ | ⟨-, -, ht, he⟩
  · rw [he]
    exact ⟨le_rfl, le_rfl⟩
  · rw [he]
    refine ⟨hc.le, ?_⟩
    rw [trust, trust, trustOfProof_betterProof]
    exact le_max_left _ _
  · rw [he]
    exact ⟨le_rfl, ht.le⟩

theorem joinCore_ge {a b : CellCore} (h : b.level = a.level) :
    b.conf ≤ (joinCore a b).conf ∧ b.trust ≤ (joinCore a b).trust := by
  rcases joinCore_of_level_le h.le with ⟨he, hb⟩ | ⟨-, -, he⟩ | ⟨-, hc, -, he⟩
  · rw [he]
    exact hb h
  · rw [he]
    refine ⟨le_rfl, ?_⟩
    change _ ≤ trustOfProof (betterProof _ _)
    rw [trustOfProof_betterProof]
    exact le_max_right _ _
  · rw [he]
    exact ⟨hc, le_rfl⟩

theorem le_foldl_joinCore_left {a : CellCore} {cs : List CellCore}
    (h : ∀ c ∈ cs, c.level ≤ a.level) :
    a.conf ≤ (cs.foldl joinCore a).conf ∧ a.trust ≤ (cs.foldl joinCore a).trust := by
  refine (foldl_joinCore_induction
    (P := fun c => c.level = a.level ∧ a.conf ≤ c.conf ∧ a.trust ≤ c.trust)
    ⟨rfl, le_rfl, le_rfl⟩ fun c b hb ⟨hl, hc, ht⟩ => ?_).2
  have hle := le_joinCore (hl ▸ h b hb)
  refine ⟨?_, hc.trans hle.1, ht.trans hle.2⟩
  rw [level_joinCore, hl, max_eq_left (h b hb)]

/-- **Joined cells have the confidence and trust** of each of them that is of the highest level. -/
theorem le_foldl_joinCore {a g : CellCore} {cs : List CellCore} (hg : g ∈ cs)
    (ha : a.level ≤ g.level) (h : ∀ c ∈ cs, c.level ≤ g.level) :
    g.conf ≤ (cs.foldl joinCore a).conf ∧ g.trust ≤ (cs.foldl joinCore a).trust := by
  obtain ⟨pre, post, rfl⟩ := List.append_of_mem hg
  rw [List.foldl_append, List.foldl_cons]
  have hpre : (pre.foldl joinCore a).level ≤ g.level :=
    foldl_joinCore_induction (P := fun c => c.level ≤ g.level) ha fun c b hb hc => by
      rw [level_joinCore]
      exact max_le hc (h b (List.mem_append_left _ hb))
  -- from `g` on the level does not change
  generalize pre.foldl joinCore a = c at hpre ⊢
  have hl : (joinCore c g).level = g.level := by rw [level_joinCore, max_eq_right hpre]
  have hle : ∀ b ∈ post, b.level ≤ (joinCore c g).level := fun b hb =>
    hl ▸ h b (List.mem_append_right _ (List.mem_cons_of_mem _ hb))
  have hpost := le_foldl_joinCore_left hle
  have hstep : g.conf ≤ (joinCore c g).conf ∧ g.trust ≤ (joinCore c g).trust := by
    rcases hpre.lt_or_eq with hlt | heq
    · have hj := joined c g
      generalize joinCore c g = d at hj ⊢
      cases hj with
      | rankUp => exact ⟨le_rfl, le_rfl⟩
      | keep h' => exact absurd h' hlt.not_gt
      | verUp => exact ⟨le_max_right _ _, le_rfl⟩
      | timeUp =>
          refine ⟨le_max_right _ _, ?_⟩
          change _ ≤ trustOfProof (betterProof _ _)
          rw [trustOfProof_betterProof]
          exact le_max_right _ _
      | confUp h' | trustUp h' | tie h' => exact absurd h'.symm hlt.ne
    · exact joinCore_ge heq.symm
  exact ⟨hstep.1.trans hpost.1, hstep.2.trans hpost.2⟩

end FoxMq
