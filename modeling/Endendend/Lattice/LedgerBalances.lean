/-
**The balances of the reward ledger.**

Every entry of the reward ledger carries the balance of its node after it.  The balance is added up
from the rewards that are stored under their ids, and not from the ledger; a settlement adds its
amount to it, a penalty takes its own away.  As long as the ids that are drawn are new, the stored
rewards are those of the ledger in the order of its entries, so the balances are the running sums of
the ledger.

Main definitions:

* `Lattice.rewardForValidation` — a contribution that is recorded and settled at once;
* `Lattice.LedgerOp`, `Lattice.ledgerStep` — the calls that add rewards, and those that do not;
* `Lattice.LedgerBalances` — each balance is the sum of the entries up to it, and the balance of a
  node is that of its last entry.

Main results:

* `Lattice.balanced_recordReward` — an entry with the balance so far and its own amount fits in;
* `Lattice.ledger_balances` — **the ledger balances at the end of every run.**
-/
import Endendend.Lattice.RewardBooks

set_option relaxedAutoImplicit false
set_option autoImplicit false

namespace Lattice

open Js Runs

/-! ### Calls -/

/-- A contribution that is recorded for a validation and settled at once, with the ids that are
drawn and the readings of the clock. -/
def rewardForValidation (s : LatticeRewardSystem) (nodeId : Str) (proof : ValidationProof)
    (eventId rewardId : Str) (recordedAt settledAt : ℚ) :
    LatticeRewardSystem × Option RewardLedgerEntry :=
  let contribution : ContributionEvent :=
    { eventId
      missionId := proof.missionId
      nodeId
      kind := .validation
      label := lit "validation:" ++ proof.validationType.text
      proofId := some proof.proofId
      weight := if proof.accepted then 12 / 10 else 5 / 10
      createdAtMs := recordedAt
      metadata := .ofList [("proofId", .str proof.proofId),
        ("validationType", .str proof.validationType.text), ("accepted", .bool proof.accepted)] }
  settleContribution (recordContribution s contribution)
    ⟨eventId, some proof.proofId, rewardId, settledAt⟩

/-- The calls that touch contributions and rewards; `elsewhere` are those that only change what the
validator and the registry know. -/
inductive LedgerOp
  | reward (op : RewardOp)
  | rewardForValidation (nodeId : Str) (proof : ValidationProof) (eventId rewardId : Str)
      (recordedAt settledAt : ℚ)
  | elsewhere (proofs : KeyedMap ValidationProof.proofId) (registry : NodeRegistry)

namespace LedgerOp

def apply (s : LatticeRewardSystem) : LedgerOp → LatticeRewardSystem
  | reward op => op.apply s
  | rewardForValidation nodeId proof eventId rewardId recordedAt settledAt =>
    (Lattice.rewardForValidation s nodeId proof eventId rewardId recordedAt settledAt).1
  | elsewhere proofs registry => { s with proofs, registry }

/-- The ids that a call draws for rewards. -/
def draws : LedgerOp → List Str
  | reward op => op.draws
  | rewardForValidation _ _ _ rewardId _ _ => [rewardId]
  | elsewhere _ _ => []

/-- The ids that a call draws are new. -/
def DrawsNew (s : LatticeRewardSystem) (op : LedgerOp) : Prop :=
  op.draws.Nodup ∧ ∀ i ∈ op.draws, s.tracker.rewards.get? i = none

end LedgerOp

def ledgerStep (s : LatticeRewardSystem) (op : LedgerOp) : Option LatticeRewardSystem :=
  some (op.apply s)

/-! ### What balances -/

/-- The sum of the amounts of a node's entries. -/
def amountsOf (nodeId : Str) (entries : List RewardLedgerEntry) : ℚ :=
  ((entries.filter fun e => e.reward.nodeId = nodeId).map (·.reward.amount)).sum

/-- **The ledger balances.** -/
structure LedgerBalances (t : ContributionTracker) : Prop where
  /-- An entry carries the sum of its node's amounts up to it. -/
  running : ∀ before e after, t.rewardLedger = before ++ e :: after →
    e.balanceAfter = amountsOf e.reward.nodeId (before ++ [e])
  /-- The balance of a node is that of its last entry. -/
  last : ∀ nodeId e, (t.rewardLedger.filter fun e => e.reward.nodeId = nodeId).getLast? = some e →
    t.balanceFor nodeId = e.balanceAfter

/-- The rewards are those of the ledger, in the order of its entries. -/
structure Balanced (t : ContributionTracker) : Prop where
  rewards : t.rewards.values = t.rewardLedger.map (·.reward)
  running : ∀ before e after, t.rewardLedger = before ++ e :: after →
    e.balanceAfter = amountsOf e.reward.nodeId (before ++ [e])

theorem amountsOf_append (k : Str) (l l' : List RewardLedgerEntry) :
    amountsOf k (l ++ l') = amountsOf k l + amountsOf k l' := by
  rw [amountsOf, List.filter_append, List.map_append, List.sum_append, amountsOf, amountsOf]

theorem amountsOf_singleton (e : RewardLedgerEntry) :
    amountsOf e.reward.nodeId [e] = e.reward.amount := by simp [amountsOf]

theorem Balanced.balanceFor {t : ContributionTracker} (h : Balanced t) (k : Str) :
    t.balanceFor k = amountsOf k t.rewardLedger := by
  rw [balanceFor_eq_sum, h.rewards, List.filter_map, List.map_map]
  rfl

/-- The entries of a node after its last one add nothing. -/
theorem Balanced.ledgerBalances {t : ContributionTracker} (h : Balanced t) : LedgerBalances t where
  running := h.running
  last := by
    intro k e hlast
    obtain ⟨hmem, hk⟩ := List.mem_filter.1 (List.mem_of_getLast? hlast)
    obtain rfl := of_decide_eq_true hk
    rw [h.balanceFor]
    -- the ledger splits at the last entry of the node
    obtain ⟨before, hfilter⟩ := List.getLast?_eq_some_iff.1 hlast
    obtain ⟨l₁, l₂, hsplit, hbefore, hafter⟩ := List.filter_eq_append_iff.1 hfilter
    obtain ⟨l₃, l₄, rfl, hnone, -, hnil⟩ := List.filter_eq_cons_iff.1 hafter
    rw [← List.append_assoc] at hsplit
    rw [h.running (l₁ ++ l₃) e l₄ hsplit, hsplit, List.append_cons, amountsOf_append _ _ l₄]
    have hzero : amountsOf e.reward.nodeId l₄ = 0 := by rw [amountsOf, hnil]; rfl
    rw [hzero, add_zero]

/-! ### Entries -/

/-- **An entry with the balance so far and its own amount fits in.** -/
theorem balanced_recordReward {t : ContributionTracker} (h : Balanced t) {event : RewardEvent}
    (hnew : t.rewards.get? event.rewardId = none) (trust reputation : ℚ) :
    Balanced (t.recordReward event trust reputation
      (t.balanceFor event.nodeId + event.amount)).1 where
  rewards := by
    simp only [ContributionTracker.recordReward]
    rw [KeyedMap.values_put_of_fresh hnew, h.rewards, List.map_append]
    rfl
  running := by
    intro before e after hsplit
    simp only [ContributionTracker.recordReward] at hsplit
    cases after using List.reverseRecOn with
    | nil =>
        obtain ⟨rfl, he⟩ := List.append_inj' hsplit rfl
        obtain rfl := (List.cons.inj he).1
        rw [amountsOf_append, amountsOf_singleton, ← h.balanceFor]
    | append_singleton after d =>
        rw [← List.cons_append, ← List.append_assoc] at hsplit
        exact h.running before e after (List.append_inj' hsplit rfl).1

/-- A tracker with one more reward. -/
def RewardsOnce (t t' : ContributionTracker) (rewardId : Str) : Prop :=
  (t'.rewards = t.rewards ∧ t'.rewardLedger = t.rewardLedger) ∨
    ∃ event trust reputation balance, t' = (t.recordReward event trust reputation balance).1 ∧
      event.rewardId = rewardId ∧ balance = t.balanceFor event.nodeId + event.amount

theorem Balanced.congr {t t' : ContributionTracker} (h : Balanced t)
    (hrewards : t'.rewards = t.rewards) (hledger : t'.rewardLedger = t.rewardLedger) :
    Balanced t' where
  rewards := by rw [hrewards, hledger, h.rewards]
  running := by rw [hledger]; exact h.running

theorem RewardsOnce.balanced {t t' : ContributionTracker} {i : Str} (h : RewardsOnce t t' i)
    (ht : Balanced t) (hnew : t.rewards.get? i = none) : Balanced t' := by
  rcases h with ⟨hrewards, hledger⟩ | ⟨event, trust, reputation, _, rfl, rfl, rfl⟩
  · exact ht.congr hrewards hledger
  · exact balanced_recordReward ht hnew trust reputation

/-- A settlement enters the balance so far and the amount. -/
theorem rewardsOnce_settleContribution (s : LatticeRewardSystem) (r : SettleRequest) :
    RewardsOnce s.tracker (settleContribution s r).1.tracker r.rewardId := by
  unfold settleContribution
  cases findContribution s.tracker r.eventId with
  | none => exact Or.inl ⟨rfl, rfl⟩
  | some c => exact Or.inr ⟨rewardFor s r c (findProof s r.proofId), _, _, _, rfl, rfl, rfl⟩

/-- A penalty enters the balance so far less what it takes. -/
theorem rewardsOnce_applyPenalty (s : LatticeRewardSystem) (nodeId reason : Str) (amount : ℚ)
    (rewardId : Str) (now : ℚ) :
    RewardsOnce s.tracker (applyPenalty s nodeId reason amount rewardId now).1.tracker
      rewardId := by
  unfold applyPenalty
  cases s.registry.get? nodeId with
  | none => exact Or.inl ⟨rfl, rfl⟩
  | some node => exact Or.inr ⟨_, _, _, _, rfl, rfl, sub_eq_add_neg _ _⟩

variable {s : LatticeRewardSystem}

theorem balanced_settleContributions {rs : List SettleRequest} (hs : Balanced s.tracker)
    (hnodup : (rs.map (·.rewardId)).Nodup)
    (hnew : ∀ i ∈ rs.map (·.rewardId), s.tracker.rewards.get? i = none) :
    Balanced (settleContributions s rs).1.tracker := by
  induction rs generalizing s with
  | nil => exact hs
  | cons r rs ih =>
      rw [List.map_cons, List.nodup_cons] at hnodup
      have hr : s.tracker.rewards.get? r.rewardId = none := hnew _ (by simp)
      refine ih ((rewardsOnce_settleContribution s r).balanced hs hr) hnodup.2 fun i hi => ?_
      have hne : i ≠ r.rewardId := fun h => hnodup.1 (h ▸ hi)
      exact (rewards_settleContribution s r hne).trans (hnew i (List.mem_cons_of_mem _ hi))

/-- Every call keeps the ledger balanced. -/
theorem balanced_apply (hs : Balanced s.tracker) {op : LedgerOp} (hnew : op.DrawsNew s) :
    Balanced (op.apply s).tracker := by
  obtain ⟨hnodup, hfresh⟩ := hnew
  cases op with
  | reward op =>
      cases op with
      | recordContribution event => exact hs.congr rfl rfl
      | settleContribution r =>
          exact (rewardsOnce_settleContribution s r).balanced hs
            (hfresh _ (by simp [LedgerOp.draws, RewardOp.draws]))
      | settleContributions rs => exact balanced_settleContributions hs hnodup hfresh
      | applyPenalty nodeId reason amount rewardId now =>
          exact (rewardsOnce_applyPenalty s nodeId reason amount rewardId now).balanced hs
            (hfresh _ (by simp [LedgerOp.draws, RewardOp.draws]))
  | rewardForValidation nodeId proof eventId rewardId recordedAt settledAt =>
      -- the contribution that is recorded first touches no reward
      refine (rewardsOnce_settleContribution (recordContribution s _) _).balanced
        (hs.congr rfl rfl) ?_
      exact hfresh _ (by simp [LedgerOp.draws])
  | elsewhere proofs registry => exact hs

/-! ### Every run -/

/-- **The ledger balances at the end of every run**, whichever nodes are known and whatever the
validator holds. -/
theorem ledger_balances {multipliers : RewardKind → Option ℚ}
    {proofs : KeyedMap ValidationProof.proofId} {registry : NodeRegistry} {ops : List LedgerOp}
    (hnew : Along ledgerStep (fun s op => op.DrawsNew s) (.new multipliers proofs registry) ops)
    (hrun : run ledgerStep (.new multipliers proofs registry) ops = some s) :
    LedgerBalances s.tracker := by
  have hstart : Balanced (LatticeRewardSystem.new multipliers proofs registry).tracker :=
    ⟨rfl, fun before e after h => absurd h (by simp [LatticeRewardSystem.new])⟩
  refine Balanced.ledgerBalances ?_
  refine @invariant_along _ _ ledgerStep (fun s => Balanced s.tracker) _
    (fun s op s' hs hP h => ?_) _ _ _ hstart hnew hrun
  exact Option.some.inj h ▸ balanced_apply hs hP

/-- A node is paid for a validation and then fined. -/
def paidAndFined : List LedgerOp :=
  [.elsewhere ∅ (KeyedMap.put ∅ newNode),
    .rewardForValidation "n1" ⟨"p1", .capability, "m1", "n2", [], 1, true, "ok"⟩ "c1" "r1" 2 3,
    .reward (.applyPenalty "n1" "late" 2 "r2" 4)]

theorem ledger_balances_paidAndFined :
    ∃ s, run ledgerStep emptySystem paidAndFined = some s ∧ s.tracker.rewardLedger.length = 2 ∧
      LedgerBalances s.tracker := by
  refine ⟨_, rfl, rfl, @ledger_balances _ (fun _ => none) ∅ ∅ paidAndFined ?_ rfl⟩
  refine (along_cons rfl).2 ⟨⟨List.nodup_nil, fun i hi => absurd hi List.not_mem_nil⟩,
    (along_cons rfl).2 ⟨⟨List.nodup_singleton _, fun i hi => ?_⟩,
      (along_cons rfl).2 ⟨⟨List.nodup_singleton _, fun i hi => ?_⟩, trivial⟩⟩⟩
  · rw [List.mem_singleton.1 hi]
    rfl
  · rw [List.mem_singleton.1 hi]
    rfl

end Lattice
