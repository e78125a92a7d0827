/-
**How often a contribution is paid.**

Nothing in the reward system remembers that a contribution has been settled: every request that
finds it recorded pays it again.  So the rewards that name a contribution are counted by the
requests, and it is paid at most once exactly when its callers settle it at most once.

Main definitions:

* `Lattice.RewardOp`, `Lattice.afterOps` — the calls and the system after a list of them;
* `Lattice.namingEntries` — the entries of the ledger that name a contribution;
* `Lattice.settledTimes` — the requests for a contribution that find it recorded.

Main results:

* `Lattice.countedInBalance_le` — the rewards behind a balance are among those of the ledger;
* `Lattice.paid_once_per_request` — **a contribution is paid once for each request**, in the ledger,
  and at most that often in a balance;
* `Lattice.paid_twice` — a contribution that is settled twice is paid twice.
-/
import Endendend.Lattice.RewardSystem

set_option relaxedAutoImplicit false
set_option autoImplicit false

namespace Lattice

open Js

/-! ### Calls -/

/-- The calls that touch contributions and rewards. -/
inductive RewardOp
  | recordContribution (event : ContributionEvent)
  | settleContribution (r : SettleRequest)
  | settleContributions (rs : List SettleRequest)
  | applyPenalty (nodeId reason : Str) (amount : ℚ) (rewardId : Str) (now : ℚ)

/-- The system after a call. -/
def RewardOp.apply (s : LatticeRewardSystem) : RewardOp → LatticeRewardSystem
  | recordContribution event => Lattice.recordContribution s event
  | settleContribution r => (Lattice.settleContribution s r).1
  | settleContributions rs => (Lattice.settleContributions s rs).1
  | applyPenalty nodeId reason amount rewardId now =>
    (Lattice.applyPenalty s nodeId reason amount rewardId now).1

/-- The system after a list of calls. -/
def afterOps (s : LatticeRewardSystem) (ops : List RewardOp) : LatticeRewardSystem :=
  ops.foldl RewardOp.apply s

/-- The requests to settle that a call makes. -/
def RewardOp.requests : RewardOp → List SettleRequest
  | settleContribution r => [r]
  | settleContributions rs => rs
  | _ => []

/-! ### Counting -/

/-- Does a reward name a contribution? -/
def RewardEvent.names (r : RewardEvent) (eventId : Str) : Bool :=
  r.contributionEventId = some eventId

/-- The entries of the ledger that name a contribution. -/
def namingEntries (s : LatticeRewardSystem) (eventId : Str) : ℕ :=
  s.tracker.rewardLedger.countP fun l => l.reward.names eventId

/-- The entries of the ledger that name a contribution and pay for it. -/
def payingEntries (s : LatticeRewardSystem) (eventId : Str) : ℕ :=
  s.tracker.rewardLedger.countP fun l => l.reward.names eventId ∧ 0 < l.reward.amount

/-- The rewards behind a node's balance that name a contribution. -/
def countedInBalance (s : LatticeRewardSystem) (nodeId eventId : Str) : ℕ :=
  (s.tracker.rewardsForNode nodeId).countP fun r => r.names eventId

/-- The requests of a call that find a contribution recorded. -/
def RewardOp.settles (s : LatticeRewardSystem) (op : RewardOp) (eventId : Str) : ℕ :=
  if (s.tracker.contributions.get? eventId).isSome then
    op.requests.countP fun r => r.eventId = eventId
  else 0

/-- How often a list of calls settles a contribution. -/
def settledTimes (eventId : Str) : LatticeRewardSystem → List RewardOp → ℕ
  | _, [] => 0
  | s, op :: ops => op.settles s eventId + settledTimes eventId (op.apply s) ops

/-! ### One request -/

theorem eventId_of_findContribution {t : ContributionTracker} {eventId : Str}
    {c : ContributionEvent} (h : findContribution t eventId = some c) : c.eventId = eventId :=
  KeyedMap.key_of_get? ((findContribution_eq t eventId).symm.trans h)

/-- A request leaves the recorded contributions as they are. -/
theorem contributions_settleContribution (s : LatticeRewardSystem) (r : SettleRequest) :
    (settleContribution s r).1.tracker.contributions = s.tracker.contributions := by
  unfold settleContribution
  split <;> rfl

/-- A request that finds its contribution adds one entry, and this one names it. -/
theorem ledger_settleContribution (s : LatticeRewardSystem) (r : SettleRequest) :
    ∃ ls : List RewardLedgerEntry,
      (settleContribution s r).1.tracker.rewardLedger = s.tracker.rewardLedger ++ ls ∧
        (∀ eventId, (ls.countP fun l => l.reward.names eventId) =
          if (s.tracker.contributions.get? r.eventId).isSome ∧ r.eventId = eventId then 1
          else 0) := by
  unfold settleContribution
  cases hc : findContribution s.tracker r.eventId with
  | none =>
      rw [findContribution_eq] at hc
      exact ⟨[], by simp, fun eventId => by simp [hc]⟩
  | some c =>
      refine ⟨_, rfl, fun eventId => ?_⟩
      have hid := eventId_of_findContribution hc
      rw [findContribution_eq] at hc
      simp [hc, RewardEvent.names, rewardFor, hid]

theorem namingEntries_settleContribution (s : LatticeRewardSystem) (r : SettleRequest)
    (eventId : Str) :
    namingEntries (settleContribution s r).1 eventId = namingEntries s eventId +
      (RewardOp.settleContribution r).settles s eventId := by
  obtain ⟨ls, hls, hcount⟩ := ledger_settleContribution s r
  rw [namingEntries, hls, List.countP_append, hcount, namingEntries, RewardOp.settles,
    RewardOp.requests, List.countP_singleton]
  by_cases hid : r.eventId = eventId
  · simp [hid]
  · simp [hid]

/-- A batch settles what its requests settle, one after the other. -/
theorem namingEntries_settleContributions (s : LatticeRewardSystem) (rs : List SettleRequest)
    (eventId : Str) :
    (settleContributions s rs).1.tracker.contributions = s.tracker.contributions ∧
      namingEntries (settleContributions s rs).1 eventId = namingEntries s eventId +
        (RewardOp.settleContributions rs).settles s eventId := by
  induction rs generalizing s with
  | nil => exact ⟨rfl, by simp [settleContributions, RewardOp.settles, RewardOp.requests]⟩
  | cons r rs ih =>
      obtain ⟨hcontr, hcount⟩ := ih (settleContribution s r).1
      rw [contributions_settleContribution] at hcontr
      refine ⟨hcontr, ?_⟩
      rw [show (settleContributions s (r :: rs)).1 =
        (settleContributions (settleContribution s r).1 rs).1 from rfl, hcount,
        namingEntries_settleContribution]
      simp only [RewardOp.settles, RewardOp.requests, contributions_settleContribution]
      split
      · simp only [List.countP_cons, List.countP_nil]
        omega
      · rfl

theorem namingEntries_applyPenalty (s : LatticeRewardSystem) (nodeId reason : Str) (amount : ℚ)
    (rewardId : Str) (now : ℚ) (eventId : Str) :
    namingEntries (applyPenalty s nodeId reason amount rewardId now).1 eventId =
      namingEntries s eventId := by
  unfold applyPenalty
  cases s.registry.get? nodeId with
  | none => rfl
  | some node =>
      simp only [namingEntries, ContributionTracker.recordReward, List.countP_append]
      simp [RewardEvent.names]

/-- **A call adds one entry for each of its requests that finds the contribution**, and nothing
else. -/
theorem namingEntries_apply (s : LatticeRewardSystem) (op : RewardOp) (eventId : Str) :
    namingEntries (op.apply s) eventId = namingEntries s eventId + op.settles s eventId := by
  cases op with
  | recordContribution event =>
      simp [RewardOp.apply, RewardOp.settles, RewardOp.requests, namingEntries, recordContribution,
        ContributionTracker.addContribution]
  | settleContribution r => exact namingEntries_settleContribution s r eventId
  | settleContributions rs => exact (namingEntries_settleContributions s rs eventId).2
  | applyPenalty nodeId reason amount rewardId now =>
      simp [RewardOp.apply, RewardOp.settles, RewardOp.requests, namingEntries_applyPenalty]

/-! ### Balances -/

/-- Storing a value under its key adds it to the values, and may replace one of them. -/
theorem countP_values_put {α β : Type*} [DecidableEq α] {key : β → α} (m : KeyedMap key) (v : β)
    (p : β → Bool) : (m.put v).values.countP p ≤ m.values.countP p + if p v then 1 else 0 := by
  have hset : ∀ l : List (α × β), ((OrderedMap.setList (key v) v l).map Prod.snd).countP p ≤
      (l.map Prod.snd).countP p + if p v then 1 else 0 := by
    intro l
    induction l with
    | nil => simp [OrderedMap.setList]
    | cons q l ih =>
        unfold OrderedMap.setList
        split
        · simp only [List.map_cons, List.countP_cons]
          omega
        · simp only [List.map_cons, List.countP_cons]
          omega
  exact hset _

/-- The rewards behind the balances are among those of the ledger. -/
def RewardsInLedger (s : LatticeRewardSystem) : Prop :=
  ∀ p : RewardEvent → Bool,
    s.tracker.rewards.values.countP p ≤ s.tracker.rewardLedger.countP fun l => p l.reward

theorem rewardsInLedger_recordReward {t : ContributionTracker} {reward : RewardEvent}
    {trust reputation balance : ℚ} {p : RewardEvent → Bool}
    (h : t.rewards.values.countP p ≤ t.rewardLedger.countP fun l => p l.reward) :
    (t.recordReward reward trust reputation balance).1.rewards.values.countP p ≤
      (t.recordReward reward trust reputation balance).1.rewardLedger.countP
        fun l => p l.reward := by
  simp only [ContributionTracker.recordReward, List.countP_append, List.countP_singleton]
  exact le_trans (countP_values_put _ _ _) (Nat.add_le_add_right h _)

theorem rewardsInLedger_settleContribution {s : LatticeRewardSystem} (h : RewardsInLedger s)
    (r : SettleRequest) : RewardsInLedger (settleContribution s r).1 := by
  unfold settleContribution
  cases findContribution s.tracker r.eventId with
  | none => exact h
  | some c => exact fun p => rewardsInLedger_recordReward (h p)

theorem rewardsInLedger_settleContributions {s : LatticeRewardSystem} (h : RewardsInLedger s)
    (rs : List SettleRequest) : RewardsInLedger (settleContributions s rs).1 := by
  induction rs generalizing s with
  | nil => exact h
  | cons r rs ih => exact ih (rewardsInLedger_settleContribution h r)

theorem rewardsInLedger_apply {s : LatticeRewardSystem} (h : RewardsInLedger s) (op : RewardOp) :
    RewardsInLedger (op.apply s) := by
  cases op with
  | recordContribution event => exact h
  | settleContribution r => exact rewardsInLedger_settleContribution h r
  | settleContributions rs => exact rewardsInLedger_settleContributions h rs
  | applyPenalty nodeId reason amount rewardId now =>
      rw [show (RewardOp.applyPenalty nodeId reason amount rewardId now).apply s =
        (applyPenalty s nodeId reason amount rewardId now).1 from rfl]
      unfold applyPenalty
      cases s.registry.get? nodeId with
      | none => exact h
      | some node => exact fun p => rewardsInLedger_recordReward (h p)

/-- **The rewards behind a balance are among those of the ledger.** -/
theorem countedInBalance_le {s : LatticeRewardSystem} (h : RewardsInLedger s)
    (nodeId eventId : Str) : countedInBalance s nodeId eventId ≤ namingEntries s eventId := by
  rw [countedInBalance, ContributionTracker.rewardsForNode,
    (List.perm_insertionSort _ _).countP_eq]
  exact le_trans (List.Sublist.countP_le List.filter_sublist) (h _)

/-! ### Every run -/

theorem namingEntries_afterOps (s : LatticeRewardSystem) (ops : List RewardOp) (eventId : Str) :
    namingEntries (afterOps s ops) eventId =
      namingEntries s eventId + settledTimes eventId s ops := by
  induction ops generalizing s with
  | nil => rfl
  | cons op ops ih =>
      rw [afterOps, List.foldl_cons, ← afterOps, ih, namingEntries_apply, settledTimes,
        Nat.add_assoc]

theorem rewardsInLedger_afterOps {s : LatticeRewardSystem} (h : RewardsInLedger s)
    (ops : List RewardOp) : RewardsInLedger (afterOps s ops) := by
  induction ops generalizing s with
  | nil => exact h
  | cons op ops ih => exact ih (rewardsInLedger_apply h op)

/-- **A contribution is paid once for each request to settle it**: over every list of calls, the
ledger names it exactly as often as it was settled while recorded, so it is paid for at most that
often, and no balance counts it more often. -/
theorem paid_once_per_request (multipliers : RewardKind → Option ℚ)
    (proofs : KeyedMap ValidationProof.proofId) (registry : NodeRegistry) (ops : List RewardOp)
    (eventId : Str) :
    let start := LatticeRewardSystem.new multipliers proofs registry
    namingEntries (afterOps start ops) eventId = settledTimes eventId start ops ∧
      payingEntries (afterOps start ops) eventId ≤ settledTimes eventId start ops ∧
      ∀ nodeId, countedInBalance (afterOps start ops) nodeId eventId ≤
        settledTimes eventId start ops := by
  intro start
  have hcount : namingEntries (afterOps start ops) eventId = settledTimes eventId start ops :=
    (namingEntries_afterOps start ops eventId).trans (Nat.zero_add _)
  have hin : RewardsInLedger (afterOps start ops) :=
    rewardsInLedger_afterOps (fun p => Nat.le_refl _) ops
  refine ⟨hcount, ?_, fun nodeId => hcount ▸ countedInBalance_le hin nodeId eventId⟩
  rw [← hcount]
  exact List.countP_mono_left fun l _ hl => (of_decide_eq_true hl).1

/-- A contribution of weight 1. -/
def relayWork : ContributionEvent where
  eventId := "c1"
  missionId := "m"
  nodeId := "n1"
  kind := .work
  label := "work"
  proofId := none
  weight := 1
  createdAtMs := 1
  metadata := ∅

/-- **A contribution that is settled twice is paid twice**, and the balance counts it twice. -/
theorem paid_twice :
    let ops : List RewardOp := [.recordContribution relayWork,
      .settleContribution ⟨"c1", none, "reward-1", 2⟩,
      .settleContributions [⟨"c1", none, "reward-2", 3⟩]]
    let s := afterOps (.new (fun _ => none) ∅ ∅) ops
    payingEntries s "c1" = 2 ∧ countedInBalance s "n1" "c1" = 2 ∧
      s.tracker.balanceFor "n1" = 20 := by
  decide +kernel

end Lattice
