/-
**The two books of the reward system.**

The points of a node stand in its profile, the rewards behind them in the tracker.  A settlement
enters its amount in both books.  An accepted attestation adds points without a reward, a penalty
adds a reward without taking points, and a profile that is registered or discovered anew begins with
no points, whatever its rewards are.

Main definitions:

* `Lattice.BookOp`, `Lattice.bookStep` — the calls that touch one of the books;
* `Lattice.BooksEqual` — the points of every registered node are the sum of its rewards;
* `Lattice.KeepsBooks` — a call leaves the books equal.

Main results:

* `Lattice.balanceFor_recordReward` — what a reward adds to the balances;
* `Lattice.booksEqual_iff` — **a call leaves equal books equal exactly if it keeps them**;
* `Lattice.books_agree_iff` — **the books agree all along a run exactly if all calls keep them.**
-/
import Endendend.Lattice.NodeRegistry
import Endendend.Lattice.SettleOnce
import Endendend.Foundation.Runs
import Mathlib.Algebra.BigOperators.Group.List.Basic

set_option relaxedAutoImplicit false
set_option autoImplicit false

namespace Lattice

open Js Runs

/-! ### Calls -/

def registerNode (s : LatticeRewardSystem) (node : NodeProfile) : LatticeRewardSystem :=
  { s with registry := s.registry.register node }

def discoverNode (s : LatticeRewardSystem) (event : NodeDiscoveryEvent) : LatticeRewardSystem :=
  { s with registry := s.registry.discovery event }

/-- An attestation, as far as the registry is concerned; the validator keeps a copy for the proofs
it evaluates later. -/
def validateContribution (s : LatticeRewardSystem) (attestation : PeerAttestation) :
    LatticeRewardSystem :=
  { s with registry := s.registry.addAttestation attestation }

/-- The calls that touch the points or the rewards of nodes. -/
inductive BookOp
  | registerNode (node : NodeProfile)
  | discoverNode (event : NodeDiscoveryEvent)
  | validateContribution (attestation : PeerAttestation)
  | reward (op : RewardOp)

/-- The ids of rewards that a call draws. -/
def RewardOp.draws : RewardOp → List Str
  | recordContribution _ => []
  | settleContribution r => [r.rewardId]
  | settleContributions rs => rs.map (·.rewardId)
  | applyPenalty _ _ _ rewardId _ => [rewardId]

namespace BookOp

def apply (s : LatticeRewardSystem) : BookOp → LatticeRewardSystem
  | registerNode node => Lattice.registerNode s node
  | discoverNode event => Lattice.discoverNode s event
  | validateContribution attestation => Lattice.validateContribution s attestation
  | reward op => op.apply s

/-- A node is registered without points. -/
def RegistersAtZero : BookOp → Prop
  | registerNode node => node.rewardPoints = 0
  | _ => True

/-- The ids that a call draws are new. -/
def DrawsNew (s : LatticeRewardSystem) : BookOp → Prop
  | reward op => op.draws.Nodup ∧ ∀ i ∈ op.draws, s.tracker.rewards.get? i = none
  | _ => True

end BookOp

/-- Calls as steps. -/
def bookStep (s : LatticeRewardSystem) (op : BookOp) : Option LatticeRewardSystem :=
  some (op.apply s)

/-- The points of every registered node are the sum of its rewards. -/
def BooksEqual (s : LatticeRewardSystem) : Prop :=
  ∀ k node, s.registry.get? k = some node → node.rewardPoints = s.tracker.balanceFor k

/-- A call leaves the books equal: a profile that begins without points belongs to a node without
rewards, an attestation is not accepted for a node that is registered, and a penalty for a
registered node takes nothing. -/
def KeepsBooks (s : LatticeRewardSystem) : BookOp → Prop
  | .registerNode node =>
    (∀ current, s.registry.get? node.nodeId = some current →
      node.lastSeenMs ≥ current.lastSeenMs) → s.tracker.balanceFor node.nodeId = 0
  | .discoverNode event =>
    s.registry.get? event.nodeId = none → s.tracker.balanceFor event.nodeId = 0
  | .validateContribution attestation =>
    attestation.accepted → s.registry.get? attestation.subjectNodeId = none
  | .reward (.applyPenalty nodeId _ amount _ _) =>
    (s.registry.get? nodeId).isSome → amount = 0
  | .reward _ => True

/-! ### Balances -/

theorem balanceFor_eq_sum (t : ContributionTracker) (k : Str) :
    t.balanceFor k = ((t.rewards.values.filter fun r => r.nodeId = k).map (·.amount)).sum := by
  rw [ContributionTracker.balanceFor, ContributionTracker.rewardsForNode,
    ← List.foldl_map (g := fun acc x : ℚ => acc + x), ← List.sum_eq_foldl]
  exact ((List.perm_insertionSort _ _).map _).sum_eq

/-- **What a reward adds to the balances.** -/
theorem balanceFor_recordReward {t : ContributionTracker} {event : RewardEvent}
    (hnew : t.rewards.get? event.rewardId = none) (trust reputation balance : ℚ) (k : Str) :
    (t.recordReward event trust reputation balance).1.balanceFor k =
      t.balanceFor k + if event.nodeId = k then event.amount else 0 := by
  rw [balanceFor_eq_sum, balanceFor_eq_sum, ContributionTracker.recordReward,
    KeyedMap.values_put_of_fresh hnew, List.filter_append, List.map_append, List.sum_append]
  by_cases hk : event.nodeId = k <;> simp [hk]

/-! ### Reports -/

variable {s : LatticeRewardSystem}

/-- A report leaves equal books equal exactly if the profile that it writes, if any, has the points
of the rewards. -/
theorem booksEqual_deliver_iff (hs : BooksEqual s) (r : Report) :
    BooksEqual { s with registry := deliver s.registry r } ↔
      ∀ node, written (s.registry.get? r.nodeId) r = some node →
        node.rewardPoints = s.tracker.balanceFor r.nodeId := by
  constructor
  · intro h node hw
    refine h r.nodeId node ?_
    rw [get?_deliver, if_pos rfl, hw, Option.some_or]
  · intro h k node hnode
    rw [get?_deliver] at hnode
    by_cases hk : k = r.nodeId
    · subst hk
      rw [if_pos rfl] at hnode
      cases hw : written (s.registry.get? r.nodeId) r with
      | none =>
          rw [hw, Option.none_or] at hnode
          exact hs _ node hnode
      | some node' =>
          rw [hw, Option.some_or] at hnode
          exact Option.some.inj hnode ▸ h node' hw
    · rw [if_neg hk] at hnode
      exact hs k node hnode

theorem booksEqual_registerNode_iff (hs : BooksEqual s) {node : NodeProfile}
    (hzero : node.rewardPoints = 0) :
    BooksEqual (registerNode s node) ↔ KeepsBooks s (.registerNode node) := by
  have hstored : (((s.registry.get? node.nodeId).all fun c => node.lastSeenMs ≥ c.lastSeenMs) =
      true) ↔ ∀ current, s.registry.get? node.nodeId = some current →
        node.lastSeenMs ≥ current.lastSeenMs := by
    cases s.registry.get? node.nodeId <;> simp
  refine (booksEqual_deliver_iff hs (.register node)).trans ?_
  rw [KeepsBooks, ← hstored]
  constructor
  · intro h hall
    exact (h (normalize node) (if_pos hall)).symm.trans hzero
  · intro h node' hw
    rw [written, Option.ite_none_right_eq_some] at hw
    obtain ⟨hall, hnode⟩ := hw
    obtain rfl := Option.some.inj hnode
    exact hzero.trans (h hall).symm

theorem booksEqual_discoverNode_iff (hs : BooksEqual s) (event : NodeDiscoveryEvent) :
    BooksEqual (discoverNode s event) ↔ KeepsBooks s (.discoverNode event) := by
  refine (booksEqual_deliver_iff hs (.discovery event)).trans ?_
  have hpoints (node : NodeProfile) (hw : written (s.registry.get? event.nodeId)
      (.discovery event) = some node) :
      node.rewardPoints = ((s.registry.get? event.nodeId).map (·.rewardPoints)).getD 0 := by
    obtain rfl := Option.some.inj hw
    rfl
  constructor
  · intro h hnone
    have hnode := (hpoints _ rfl).symm.trans (h _ rfl)
    rw [hnone] at hnode
    exact hnode.symm
  · intro h node hw
    rw [hpoints node hw]
    cases hcur : s.registry.get? event.nodeId with
    | none => exact (h hcur).symm
    | some current => exact hs _ current hcur

theorem booksEqual_validateContribution_iff (hs : BooksEqual s) (attestation : PeerAttestation) :
    BooksEqual (validateContribution s attestation) ↔
      KeepsBooks s (.validateContribution attestation) := by
  refine (booksEqual_deliver_iff hs (.addAttestation attestation)).trans ?_
  rw [KeepsBooks, Report.nodeId]
  cases hcur : s.registry.get? attestation.subjectNodeId with
  | none => simp [written]
  | some current =>
      have hequal : current.rewardPoints = s.tracker.balanceFor attestation.subjectNodeId :=
        hs _ current hcur
      have hpoints : (attested current attestation).rewardPoints =
          current.rewardPoints + if attestation.accepted then 2 else 0 := by
        unfold attested
        split <;> simp
      simp only [written, Option.map_some, Option.some.injEq, forall_eq', hpoints, hequal]
      by_cases ha : attestation.accepted <;> simp [ha]

/-! ### Rewards -/

/-- A reward whose amount is added to the points of its node leaves equal books equal. -/
theorem booksEqual_recordReward (hs : BooksEqual s) (event : RewardEvent)
    (hnew : s.tracker.rewards.get? event.rewardId = none) {registry : NodeRegistry}
    (trust reputation balance : ℚ)
    (h : ∀ k node', registry.get? k = some node' → ∃ node, s.registry.get? k = some node ∧
      node'.rewardPoints = node.rewardPoints + if event.nodeId = k then event.amount else 0) :
    BooksEqual { s with
      tracker := (s.tracker.recordReward event trust reputation balance).1
      registry } := by
  intro k node' hnode'
  obtain ⟨node, hnode, hpoints⟩ := h k node' hnode'
  rw [hpoints, hs k node hnode]
  exact (balanceFor_recordReward hnew trust reputation balance k).symm

/-- **A settlement enters its amount in both books.** -/
theorem booksEqual_settleContribution (hs : BooksEqual s) {r : SettleRequest}
    (hnew : s.tracker.rewards.get? r.rewardId = none) :
    BooksEqual (settleContribution s r).1 := by
  unfold settleContribution
  cases findContribution s.tracker r.eventId with
  | none => exact hs
  | some c =>
      refine booksEqual_recordReward hs (rewardFor s r c (findProof s r.proofId)) hnew _ _ _
        fun k node' hnode' => ?_
      change ∃ node, s.registry.get? k = some node ∧
        node'.rewardPoints = node.rewardPoints + if c.nodeId = k then _ else 0
      cases hcur : s.registry.get? c.nodeId with
      | none =>
          rw [hcur] at hnode'
          have hk : c.nodeId ≠ k := by
            rintro rfl
            exact absurd (hcur.symm.trans hnode') (Option.some_ne_none node' ∘ Eq.symm)
          exact ⟨node', hnode', by rw [if_neg hk, add_zero]⟩
      | some node =>
          have hid : node.nodeId = c.nodeId := KeyedMap.key_of_get? hcur
          rw [hcur] at hnode'
          simp only [KeyedMap.get?_put] at hnode'
          change (if k = node.nodeId then some _ else s.registry.get? k) = some node' at hnode'
          rw [hid] at hnode'
          by_cases hk : k = c.nodeId
          · subst hk
            rw [if_pos rfl] at hnode'
            obtain rfl := Option.some.inj hnode'
            exact ⟨node, hcur, by rw [if_pos rfl]; rfl⟩
          · rw [if_neg hk] at hnode'
            exact ⟨node', hnode', by rw [if_neg (Ne.symm hk), add_zero]⟩

/-- A settlement draws the id of its request and no other. -/
theorem rewards_settleContribution (s : LatticeRewardSystem) (r : SettleRequest) {i : Str}
    (hi : i ≠ r.rewardId) :
    (settleContribution s r).1.tracker.rewards.get? i = s.tracker.rewards.get? i := by
  unfold settleContribution
  cases findContribution s.tracker r.eventId with
  | none => rfl
  | some c =>
      change (s.tracker.rewards.put (rewardFor s r c (findProof s r.proofId))).get? i = _
      rw [KeyedMap.get?_put]
      exact if_neg hi

theorem booksEqual_settleContributions {rs : List SettleRequest} (hs : BooksEqual s)
    (hnodup : (rs.map (·.rewardId)).Nodup)
    (hnew : ∀ i ∈ rs.map (·.rewardId), s.tracker.rewards.get? i = none) :
    BooksEqual (settleContributions s rs).1 := by
  induction rs generalizing s with
  | nil => exact hs
  | cons r rs ih =>
      rw [List.map_cons, List.nodup_cons] at hnodup
      have hr : s.tracker.rewards.get? r.rewardId = none := hnew _ (by simp)
      refine ih (booksEqual_settleContribution hs hr) hnodup.2 fun i hi => ?_
      have hne : i ≠ r.rewardId := fun h => hnodup.1 (h ▸ hi)
      exact (rewards_settleContribution s r hne).trans (hnew i (List.mem_cons_of_mem _ hi))

/-- A penalty is entered in one of the books. -/
theorem booksEqual_applyPenalty_iff (hs : BooksEqual s) {nodeId reason rewardId : Str}
    {amount now : ℚ} (hnew : s.tracker.rewards.get? rewardId = none) :
    BooksEqual (applyPenalty s nodeId reason amount rewardId now).1 ↔
      ((s.registry.get? nodeId).isSome → amount = 0) := by
  unfold applyPenalty
  cases hcur : s.registry.get? nodeId with
  | none => simp [hs]
  | some node =>
      have hid : node.nodeId = nodeId := KeyedMap.key_of_get? hcur
      dsimp only
      rw [Option.isSome_some, forall_prop_of_true rfl]
      constructor
      · intro h
        have hpoints := h nodeId _ (by rw [KeyedMap.get?_put]; exact if_pos hid.symm)
        rw [balanceFor_recordReward hnew, if_pos rfl, ← hs nodeId node hcur] at hpoints
        have hzero : -|amount| = 0 := left_eq_add.1 hpoints
        exact abs_eq_zero.1 (neg_eq_zero.1 hzero)
      · rintro rfl
        refine booksEqual_recordReward hs _ hnew _ _ _ fun k node' hnode' => ?_
        rw [KeyedMap.get?_put] at hnode'
        change (if k = node.nodeId then some _ else s.registry.get? k) = some node' at hnode'
        rw [hid] at hnode'
        by_cases hk : k = nodeId
        · subst hk
          rw [if_pos rfl] at hnode'
          obtain rfl := Option.some.inj hnode'
          exact ⟨node, hcur, by simp [normalize]⟩
        · rw [if_neg hk] at hnode'
          exact ⟨node', hnode', by simp⟩

/-- **A call leaves equal books equal exactly if it keeps them.** -/
theorem booksEqual_iff (hs : BooksEqual s) {op : BookOp} (hzero : op.RegistersAtZero)
    (hnew : op.DrawsNew s) : BooksEqual (op.apply s) ↔ KeepsBooks s op := by
  cases op with
  | registerNode node => exact booksEqual_registerNode_iff hs hzero
  | discoverNode event => exact booksEqual_discoverNode_iff hs event
  | validateContribution attestation => exact booksEqual_validateContribution_iff hs attestation
  | reward op =>
      obtain ⟨hnodup, hfresh⟩ := hnew
      cases op with
      | recordContribution event => exact iff_of_true hs trivial
      | settleContribution r =>
          exact iff_of_true (booksEqual_settleContribution hs (hfresh _ (by simp [RewardOp.draws])))
            trivial
      | settleContributions rs =>
          exact iff_of_true (booksEqual_settleContributions hs hnodup hfresh) trivial
      | applyPenalty nodeId reason amount rewardId now =>
          exact booksEqual_applyPenalty_iff hs (hfresh _ (by simp [RewardOp.draws]))

/-! ### Every run -/

/-- The books agree after a call. -/
def BooksAgree (s : LatticeRewardSystem) (op : BookOp) : Prop :=
  ∀ s', bookStep s op = some s' → BooksEqual s'

/-- **The books agree all along a run exactly if all calls keep them.** -/
theorem books_agree_iff {multipliers : RewardKind → Option ℚ}
    {proofs : KeyedMap ValidationProof.proofId} {registry : NodeRegistry}
    (hregistry : ∀ node ∈ registry.values, node.rewardPoints = 0) {ops : List BookOp}
    (hrun : Along bookStep (fun s op => op.RegistersAtZero ∧ op.DrawsNew s)
      (.new multipliers proofs registry) ops) :
    Along bookStep BooksAgree (.new multipliers proofs registry) ops ↔
      Along bookStep KeepsBooks (.new multipliers proofs registry) ops := by
  have hstart : BooksEqual (.new multipliers proofs registry) := by
    intro k node hnode
    have hid : node.nodeId = k := KeyedMap.key_of_get? hnode
    rw [hregistry node (KeyedMap.mem_values_iff.2 (hid ▸ hnode))]
    rfl
  have hcongr : Along bookStep (fun s op => (op.RegistersAtZero ∧ op.DrawsNew s) ∧
      BooksAgree s op) (.new multipliers proofs registry) ops ↔
        Along bookStep (fun s op => (op.RegistersAtZero ∧ op.DrawsNew s) ∧ KeepsBooks s op)
          (.new multipliers proofs registry) ops := by
    refine along_congr (I := BooksEqual) (fun s op s' _ hP h => hP.2 s' h) (fun s op hs => ?_)
      hstart
    refine and_congr_right fun hop => ?_
    rw [← booksEqual_iff hs hop.1 hop.2]
    exact ⟨fun h => h _ rfl, fun h s' h' => Option.some.inj h' ▸ h⟩
  rw [along_and (Q := BooksAgree), along_and (Q := KeepsBooks)] at hcongr
  exact ⟨fun h => (hcongr.1 ⟨hrun, h⟩).2, fun h => (hcongr.2 ⟨hrun, h⟩).2⟩

/-- A node that comes without points. -/
def newNode : NodeProfile where
  nodeId := "n1"
  health := ⟨0, 100, 0, 0, 1, true, none, none, .healthy⟩
  trustScore := 1 / 2
  reputationScore := 1 / 2
  rewardPoints := 0
  contributionCount := 0
  successfulTasks := 0
  failedTasks := 0
  lastSeenMs := 0
  missionId := none

/-- A system without nodes. -/
def emptySystem : LatticeRewardSystem := .new (fun _ => none) ∅ ∅

/-- The node works and is paid. -/
def paidWork : List BookOp :=
  [.registerNode newNode, .reward (.recordContribution relayWork),
    .reward (.settleContribution ⟨"c1", none, "reward-1", 2⟩)]

theorem paidWork_allowed :
    Along bookStep (fun s op => op.RegistersAtZero ∧ op.DrawsNew s) emptySystem paidWork := by
  refine (along_cons rfl).2 ⟨⟨rfl, trivial⟩, (along_cons rfl).2 ⟨⟨trivial, ?_⟩,
    (along_cons rfl).2 ⟨⟨trivial, ?_⟩, trivial⟩⟩⟩
  · exact ⟨List.nodup_nil, by simp [RewardOp.draws]⟩
  · refine ⟨List.nodup_singleton _, fun i hi => ?_⟩
    rw [List.mem_singleton.1 hi]
    rfl

theorem books_agree_iff_paidWork :
    Along bookStep BooksAgree emptySystem paidWork ↔
      Along bookStep KeepsBooks emptySystem paidWork :=
  books_agree_iff (fun _ h => absurd h List.not_mem_nil) paidWork_allowed

/-- A witness confirms the work of the node. -/
def confirmed : PeerAttestation := ⟨"w1", "n1", .taskCompletion, true, "ok", 5, "e"⟩

theorem attestation_splits_books :
    ¬ ∀ (multipliers : RewardKind → Option ℚ) (proofs : KeyedMap ValidationProof.proofId)
      (registry : NodeRegistry) (ops : List BookOp),
      (∀ node ∈ registry.values, node.rewardPoints = 0) →
      Along bookStep (fun s op => op.RegistersAtZero ∧ op.DrawsNew s)
        (.new multipliers proofs registry) ops →
      Along bookStep BooksAgree (.new multipliers proofs registry) ops := by
  intro h
  obtain ⟨s, hs⟩ : ∃ s, bookStep emptySystem (.registerNode newNode) = some s := ⟨_, rfl⟩
  obtain ⟨s', hs'⟩ : ∃ s', bookStep s (.validateContribution confirmed) = some s' := ⟨_, rfl⟩
  have hbooks : (s'.registry.get? "n1").map (·.rewardPoints) = some 2 ∧
      s'.tracker.balanceFor "n1" = 0 := by
    obtain rfl := Option.some.inj hs
    obtain rfl := Option.some.inj hs'
    decide +kernel
  obtain ⟨node, hnode, htwo⟩ := Option.map_eq_some_iff.1 hbooks.1
  have hagree := h (fun _ => none) ∅ ∅ [.registerNode newNode, .validateContribution confirmed]
    (fun _ h => absurd h List.not_mem_nil)
    ((along_cons hs).2 ⟨⟨rfl, trivial⟩, (along_cons hs').2 ⟨⟨trivial, trivial⟩, trivial⟩⟩)
  have hequal := (hagree.2 s hs).1 s' hs' "n1" node hnode
  rw [htwo, hbooks.2] at hequal
  exact absurd hequal (by decide +kernel)

end Lattice
