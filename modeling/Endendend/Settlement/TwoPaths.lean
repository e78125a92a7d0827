/-
**The two settlement paths** (`arc/reward-manifest.ts` against `arc/settlement-manifest.ts`).

Both manifests print, for each author of a row that counts, a whole number of units times the trust
in the author.  They use two tables of weights, which differ at the recovery checkpoints whose label
names a relay.

Main definitions:

* `Settlement.SettlementsAgree` — both manifests print the same numbers;
* `Settlement.RelayCheckpoint` — a row that the two tables weigh differently.

Main results:

* `Settlement.contributionWeight_eq` — the difference of the two tables;
* `Settlement.manifests_agree_iff` — **the manifests agree exactly if every relay checkpoint of the
  mission was written by Arc or by a node without any trust**;
* `Settlement.relay_checkpoint_disagrees` — a mission settled with two different amounts.
-/
import Endendend.Settlement.SettlementManifest

set_option relaxedAutoImplicit false
set_option autoImplicit false

namespace Settlement

open Js Vertex

/-! ### The two tables of weights -/

/-- A recovery checkpoint whose label names a relay. -/
def RelayCheckpoint (e : EventCore) : Prop := e.eventType = .recoveryCheckpoint ∧ namesRelay e

instance (e : EventCore) : Decidable (RelayCheckpoint e) := inferInstanceAs (Decidable (_ ∧ _))

/-- **The tables differ by one unit at the relay checkpoints**, and nowhere else. -/
theorem contributionWeight_eq (e : EventCore) :
    contributionWeight e.eventType = baseRewardWeight e + if RelayCheckpoint e then 1 else 0 := by
  unfold baseRewardWeight
  cases htype : e.eventType with
  | recoveryCheckpoint =>
      by_cases hrelay : namesRelay e
      · rw [if_pos (show RelayCheckpoint e from ⟨htype, hrelay⟩)]
        simp only [if_pos hrelay]
        rfl
      · rw [if_neg fun h : RelayCheckpoint e => hrelay h.2]
        simp only [if_neg hrelay]
        rfl
  | _ =>
      have hno : ¬ RelayCheckpoint e := fun h => nomatch htype.symm.trans h.1
      rw [if_neg hno]
      rfl

/-- The units of some rows in the reward manifest. -/
def earnedUnits (es : List MissionLedgerEvent) : ℕ :=
  (es.map fun e => baseRewardWeight e.toEventCore).sum

/-- The units of some rows in the settlement manifest. -/
def claimedUnits (es : List MissionLedgerEvent) : ℕ :=
  (es.map fun e => contributionWeight e.eventType).sum

theorem claimedUnits_eq (es : List MissionLedgerEvent) :
    claimedUnits es = earnedUnits es + es.countP fun e => RelayCheckpoint e.toEventCore := by
  induction es with
  | nil => rfl
  | cons e es ih =>
      rw [claimedUnits, earnedUnits] at ih ⊢
      rw [List.map_cons, List.map_cons, List.sum_cons, List.sum_cons, List.countP_cons, ih,
        contributionWeight_eq]
      simp only [decide_eq_true_eq]
      omega

/-! ### The lines of both manifests -/

/-- What an author is paid by the settlement manifest. -/
def claimed (registry : NodeRegistry) (p : Str × List MissionLedgerEvent) : ℚ :=
  claimedUnits p.2 * registry.latticeTrust01 p.1

/-- What an author is paid by the reward manifest. -/
def earned (registry : NodeRegistry) (p : Str × List MissionLedgerEvent) : ℚ :=
  earnedUnits p.2 * registry.latticeTrust01 p.1

/-- The difference is one unit of trust for each relay checkpoint. -/
theorem claimed_eq (registry : NodeRegistry) (p : Str × List MissionLedgerEvent) :
    claimed registry p = earned registry p +
      (p.2.countP fun e => RelayCheckpoint e.toEventCore) * registry.latticeTrust01 p.1 := by
  rw [claimed, earned, claimedUnits_eq]
  push_cast
  ring

/-- The authors of the rows that count, in the order of both manifests, with their rows. -/
def authors (P : ManifestPlatform) (events : List MissionLedgerEvent) :
    List (Str × List MissionLedgerEvent) :=
  sortByNodeId P (ownOrder (countedByAuthor events).entries)

theorem sortByNodeId_perm {α : Type*} (P : ManifestPlatform) (l : List (Str × α)) :
    (sortByNodeId P l).Perm l := List.perm_insertionSort _ l

/-- The order depends on the node ids alone. -/
theorem sortByNodeId_map {α β : Type*} (P : ManifestPlatform) (f : Str × α → β)
    (l : List (Str × α)) :
    sortByNodeId P (l.map fun p => (p.1, f p)) = (sortByNodeId P l).map fun p => (p.1, f p) :=
  (List.map_insertionSort _ _ (fun p : Str × α => (p.1, f p)) l fun _ _ _ _ => Iff.rfl).symm

section Lines

variable (P : ManifestPlatform) (registry : NodeRegistry) (events : List MissionLedgerEvent)

theorem mem_authors {nodeId : Str} {es : List MissionLedgerEvent}
    (h : (nodeId, es) ∈ authors P events) :
    es = (events.filter fun e => Counts e).filter fun e => e.actorId = nodeId :=
  OrderedMap.mem_group
    ((ownOrder_perm _).mem_iff.1 ((sortByNodeId_perm P _).mem_iff.1 h))

theorem mem_authors_of_counts {e : MissionLedgerEvent} (he : e ∈ events) (hc : Counts e) :
    ∃ es, (e.actorId, es) ∈ authors P events ∧ e ∈ es := by
  have hmem : e ∈ events.filter fun e => Counts e := List.mem_filter.2 ⟨he, decide_eq_true hc⟩
  exact ⟨_, (sortByNodeId_perm P _).mem_iff.2
    ((ownOrder_perm _).mem_iff.2 (OrderedMap.mem_group_of_mem hmem)),
    List.mem_filter.2 ⟨hmem, decide_eq_true rfl⟩⟩

/-- The reward of an author is its units times the trust in it. -/
theorem total_rewardOf {nodeId : Str} {es : List MissionLedgerEvent}
    (h : ∀ e ∈ es, e.actorId = nodeId) :
    (rewardOf registry events es).total = earned registry (nodeId, es) := by
  rw [earned]
  induction es with
  | nil =>
      rw [earnedUnits, List.map_nil, List.sum_nil, Nat.cast_zero, zero_mul]
      rfl
  | cons e es ih =>
      have ih := ih fun e' he' => h e' (List.mem_cons_of_mem _ he')
      simp only [rewardOf, earnedUnits, List.map_cons, List.sum_cons] at ih ⊢
      rw [ih, proofContribution, h e List.mem_cons_self]
      push_cast
      ring

/-- The line of an author in the settlement manifest. -/
theorem claimLine_claimOf (nodeId : Str) (es : List MissionLedgerEvent) :
    claimLine (nodeId, claimOf registry nodeId es) =
      { nodeId
        contributions := (claimOf registry nodeId es).contributions
        totalReward := toFixed 4 (claimed registry (nodeId, es))
        latticeScore := registry.latticeTrust01 nodeId } := by
  simp only [claimLine, claimOf, List.map_map]
  rfl

/-- The lines of the settlement manifest are those of the authors. -/
theorem computeRewardClaims_eq {missionId : Str} (h : ∀ e ∈ events, e.missionId = missionId) :
    computeRewardClaims P missionId events registry =
      (authors P events).map fun p => claimLine (p.1, claimOf registry p.1 p.2) := by
  rw [computeRewardClaims, byNode_entries registry h, ownOrder_map, sortByNodeId_map, List.map_map]
  rfl

/-- The rewards of the reward manifest are those of the authors. -/
theorem sortByNodeId_nodeRewards :
    sortByNodeId P (ownOrder (nodeRewardsOf registry events).entries) =
      (authors P events).map fun p => (p.1, rewardOf registry events p.2) := by
  rw [nodeRewards_entries, ownOrder_map, sortByNodeId_map]
  rfl

theorem sum_total_nodeRewards :
    ((ownOrder (nodeRewardsOf registry events).entries).map fun p => p.2.total).sum =
      ((authors P events).map fun p => (rewardOf registry events p.2).total).sum := by
  rw [← ((sortByNodeId_perm P _).map _).sum_eq, sortByNodeId_nodeRewards, List.map_map]
  rfl

end Lines

/-! ### Printed amounts -/

/-- An amount that four decimals print exactly. -/
def Printable (x : ℚ) : Prop := ∃ n : ℕ, x = n / 10 ^ 4

theorem Printable.units {registry : NodeRegistry} (h : registry.Whole) (units : ℕ) (nodeId : Str) :
    Printable (units * registry.latticeTrust01 nodeId) := by
  obtain ⟨n, hn⟩ := latticeTrust01_eq_div h nodeId
  refine ⟨units * n * 100, ?_⟩
  rw [hn]
  push_cast
  ring

theorem Printable.sum {l : List ℚ} (h : ∀ x ∈ l, Printable x) : Printable l.sum := by
  induction l with
  | nil => exact ⟨0, by simp⟩
  | cons x l ih =>
      obtain ⟨n, hn⟩ := h x List.mem_cons_self
      obtain ⟨m, hm⟩ := ih fun y hy => h y (List.mem_cons_of_mem _ hy)
      refine ⟨n + m, ?_⟩
      rw [List.sum_cons, hn, hm]
      push_cast
      ring

/-- **A printable amount is read back as it is**, whatever unit it is printed with. -/
theorem Printable.parseFloat {x : ℚ} (h : Printable x) {r : Str} (hr : NoNumber r) :
    parseFloat (toFixed 4 x ++ r) = some x := by
  obtain ⟨n, hn⟩ := h
  exact parseFloat_toFixed_exact hn hr

theorem noNumber_nil : NoNumber [] := fun _ h => nomatch h

/-- No unit begins like a number goes on. -/
theorem noNumber_space (r : Str) : NoNumber (unit ' ' :: r) := by
  intro u hu
  obtain rfl := Option.some.inj hu
  decide

theorem Printable.parseFloat_plain {x : ℚ} (h : Printable x) :
    Js.parseFloat (toFixed 4 x) = some x := by
  rw [← h.parseFloat noNumber_nil, List.append_nil]

/-! ### Exactly when the manifests agree -/

/-- **Both manifests print the same numbers**: the amount of the settlement is the pool, and each
node is paid the same. -/
def SettlementsAgree (P : SettlementPlatform) (ledger : MissionLedger) (registry : NodeRegistry)
    (missionId : Str) (nowMs : ℚ) (clock : Decimal) (opts : SettlementOptions) : Prop :=
  let settlement := buildSettlementManifest P (replayMissionFromLedger clock ledger missionId)
    (ledger.eventsForMission missionId) registry opts
  ∃ rewards, buildRewardManifest P.toManifestPlatform ledger registry missionId nowMs clock =
      .ok rewards ∧
    parseFloat settlement.arcPayload.settlementAmount = parseFloat rewards.totalPool ∧
    settlement.nodeContributions.map (fun c => (c.nodeId, parseFloat c.totalReward)) =
      rewards.nodeRewards.map fun r => (r.nodeId, parseFloat r.totalEarned)

section Amounts

variable (P : ManifestPlatform) {registry : NodeRegistry} (events : List MissionLedgerEvent)

theorem total_rewardOf_authors {p : Str × List MissionLedgerEvent}
    (hp : p ∈ authors P events) : (rewardOf registry events p.2).total = earned registry p := by
  refine total_rewardOf registry events fun e he => ?_
  rw [mem_authors P events hp] at he
  exact of_decide_eq_true (List.mem_filter.1 he).2

theorem printable_claimed (h : registry.Whole) (p : Str × List MissionLedgerEvent) :
    Printable (claimed registry p) := Printable.units h _ _

theorem printable_earned (h : registry.Whole) (p : Str × List MissionLedgerEvent) :
    Printable (earned registry p) := Printable.units h _ _

/-- The amount of a settlement is what the authors are paid together. -/
theorem totalRewardUnits_eq (h : registry.Whole) {missionId : Str}
    (hmission : ∀ e ∈ events, e.missionId = missionId) :
    totalRewardUnits (computeRewardClaims P missionId events registry) =
      ((authors P events).map (claimed registry)).sum := by
  rw [totalRewardUnits, computeRewardClaims_eq P registry events hmission, List.map_map]
  congr 1
  refine List.map_congr_left fun p _ => ?_
  have hparse : parseFloat (toFixed 4 (claimed registry p)) = some (claimed registry p) :=
    (printable_claimed h p).parseFloat_plain
  have hne : toFixed 4 (claimed registry p) ≠ [] := by
    intro hnil
    rw [hnil] at hparse
    exact Option.some_ne_none _ hparse.symm
  rw [Function.comp_apply, claimLine_claimOf]
  simp only [if_neg hne, hparse, Option.getD_some]

theorem printable_sum_authors {pay : Str × List MissionLedgerEvent → ℚ}
    (h : ∀ p, Printable (pay p)) : Printable ((authors P events).map pay).sum :=
  Printable.sum fun _ hx => by
    obtain ⟨p, _, rfl⟩ := List.mem_map.1 hx
    exact h p

theorem parseFloat_settlementAmount (h : registry.Whole) {missionId : Str}
    (hmission : ∀ e ∈ events, e.missionId = missionId) :
    parseFloat (toFixed 4 (totalRewardUnits (computeRewardClaims P missionId events registry)) ++
      lit " score-units") = some ((authors P events).map (claimed registry)).sum := by
  rw [totalRewardUnits_eq P events h hmission]
  exact (printable_sum_authors P events (printable_claimed h)).parseFloat (noNumber_space _)

theorem parseFloat_totalPool (h : registry.Whole) :
    parseFloat (toFixed 4 ((ownOrder (nodeRewardsOf registry events).entries).map
      fun p => p.2.total).sum ++ lit " HBAR") =
        some ((authors P events).map (earned registry)).sum := by
  rw [sum_total_nodeRewards P registry events,
    List.map_congr_left fun p hp => total_rewardOf_authors P events hp]
  exact (printable_sum_authors P events (printable_earned h)).parseFloat (noNumber_space _)

/-- What the lines of the settlement manifest say. -/
theorem map_computeRewardClaims (h : registry.Whole) {missionId : Str}
    (hmission : ∀ e ∈ events, e.missionId = missionId) :
    (computeRewardClaims P missionId events registry).map
      (fun c => (c.nodeId, parseFloat c.totalReward)) =
        (authors P events).map fun p => (p.1, some (claimed registry p)) := by
  rw [computeRewardClaims_eq P registry events hmission, List.map_map]
  refine List.map_congr_left fun p _ => ?_
  rw [Function.comp_apply, claimLine_claimOf]
  exact congrArg (Prod.mk p.1) (printable_claimed h p).parseFloat_plain

/-- What the lines of the reward manifest say. -/
theorem map_sortByNodeId_nodeRewards (h : registry.Whole) :
    (sortByNodeId P (ownOrder (nodeRewardsOf registry events).entries)).map
      (fun p => (p.1, parseFloat (toFixed 4 p.2.total ++ lit " HBAR"))) =
        (authors P events).map fun p => (p.1, some (earned registry p)) := by
  rw [sortByNodeId_nodeRewards, List.map_map]
  refine List.map_congr_left fun p hp => ?_
  rw [Function.comp_apply, total_rewardOf_authors P events hp]
  exact congrArg (Prod.mk p.1) ((printable_earned h p).parseFloat (noNumber_space _))

end Amounts

variable (P : SettlementPlatform) (ledger : MissionLedger) (registry : NodeRegistry)
  (missionId : Str) (nowMs : ℚ) (clock : Decimal) (opts : SettlementOptions)

/-- The manifests agree exactly if every author is paid the same. -/
theorem settlementsAgree_iff_authors
    (hphase : (replayMissionFromLedger clock ledger missionId).phase ∈ terminalPhases)
    (h : registry.Whole) :
    SettlementsAgree P ledger registry missionId nowMs clock opts ↔
      ∀ p ∈ authors P.toManifestPlatform (ledger.eventsForMission missionId),
        claimed registry p = earned registry p := by
  let events := ledger.eventsForMission missionId
  let rows := authors P.toManifestPlatform events
  have hmission : ∀ e ∈ events, e.missionId = missionId :=
    fun e he => of_decide_eq_true (List.mem_filter.1 he).2
  have hid := missionId_replay clock ledger missionId
  have hamount := parseFloat_settlementAmount P.toManifestPlatform events h hmission
  have hpool := parseFloat_totalPool P.toManifestPlatform events h
  have hclaims := map_computeRewardClaims P.toManifestPlatform events h hmission
  have hrewards := map_sortByNodeId_nodeRewards P.toManifestPlatform events h
  -- printed with four decimals every amount is read back as it is
  have hlines : SettlementsAgree P ledger registry missionId nowMs clock opts ↔
      some (rows.map (claimed registry)).sum = some (rows.map (earned registry)).sum ∧
        rows.map (fun p => (p.1, some (claimed registry p))) =
          rows.map fun p => (p.1, some (earned registry p)) := by
    simp only [SettlementsAgree, buildSettlementManifest, buildRewardManifest, hid,
      if_neg (not_not.2 hphase), Except.ok.injEq, exists_eq_left', List.map_map]
    rw [hamount, hpool, hclaims]
    exact and_congr_right fun _ => Eq.congr_right hrewards
  rw [hlines, List.map_inj_left]
  constructor
  · rintro ⟨-, hpay⟩ p hp
    exact Option.some.inj (Prod.mk.inj (hpay p hp)).2
  · intro hpay
    exact ⟨congrArg (fun l => some (List.sum l)) (List.map_congr_left hpay),
      fun p hp => congrArg (fun x => (p.1, some x)) (hpay p hp)⟩

/-- **The manifests agree exactly if every relay checkpoint of the mission was written by Arc or by
a node without any trust**. -/
theorem manifests_agree_iff
    (hphase : (replayMissionFromLedger clock ledger missionId).phase ∈ terminalPhases)
    (h : registry.Whole) :
    SettlementsAgree P ledger registry missionId nowMs clock opts ↔
      ∀ e ∈ ledger.eventsForMission missionId, e.plane ≠ .arc → RelayCheckpoint e.toEventCore →
        registry.latticeTrust01 e.actorId = 0 := by
  rw [settlementsAgree_iff_authors P ledger registry missionId nowMs clock opts hphase h]
  constructor
  · intro hpay e he hplane hrelay
    have hcounts : Counts e := by
      refine ⟨hplane, fun hzero => ?_⟩
      rw [baseRewardWeight, hrelay.1] at hzero
      simp only [if_pos hrelay.2] at hzero
      exact absurd hzero (by decide)
    -- the row counts, so its author has a line in both manifests
    obtain ⟨es, hes, hmem⟩ := mem_authors_of_counts P.toManifestPlatform _ he hcounts
    have hdiff := claimed_eq registry (e.actorId, es)
    rw [hpay _ hes, left_eq_add, mul_eq_zero] at hdiff
    refine hdiff.resolve_left ?_
    have hpos : 0 < es.countP fun e => RelayCheckpoint e.toEventCore :=
      List.countP_pos_iff.2 ⟨e, hmem, decide_eq_true hrelay⟩
    exact Nat.cast_ne_zero.2 hpos.ne'
  · rintro hzero ⟨nodeId, es⟩ hp
    rw [claimed_eq registry, add_eq_left, mul_eq_zero]
    by_cases hcount : (es.countP fun e => RelayCheckpoint e.toEventCore) = 0
    · exact Or.inl (Nat.cast_eq_zero.2 hcount)
    · obtain ⟨e, he, hrelay⟩ := List.countP_pos_iff.1 (Nat.pos_of_ne_zero hcount)
      rw [mem_authors P.toManifestPlatform _ hp] at he
      obtain ⟨hmem, hactor⟩ := List.mem_filter.1 he
      obtain ⟨hmem, hcounts⟩ := List.mem_filter.1 hmem
      have htrust := hzero e hmem (of_decide_eq_true hcounts).1 (of_decide_eq_true hrelay)
      rw [of_decide_eq_true hactor] at htrust
      exact Or.inr htrust

/-! ### A relay checkpoint is settled twice -/

/-- A platform that compares node ids by their length and hashes everything to nothing. -/
def plainPlatform : SettlementPlatform where
  localeCompare a b := a.length - b.length
  contributionMerkleRoot _ := []
  validationRoot _ _ := []
  txPayloadHash _ _ _ _ _ := []
  proofMerkleRoot _ := []
  coveragePercent _ := 0

/-- A mission is created, writes a checkpoint under some label and is aborted. -/
def checkpointMission (label : Str) : MissionLedger :=
  let row (eventType : MissionLedgerEventType) (payload : OrderedMap Str Json) (timestamp : Decimal)
      (previousHash eventHash : Str) : MissionLedgerEvent :=
    { missionId := "m", actorId := "n1", eventType, plane := .vertex, payload, timestamp
      previousHash, eventHash }
  [row .missionCreated (.ofList [("phase", .str "init")]) 0 genesis "00",
    row .recoveryCheckpoint (.ofList [("label", .str label)]) 1 "00" "01",
    row .phaseTransition (.ofList [("toPhase", .str "aborted")]) 2 "01" "02"]

/-- A registry that trusts one node with a whole number. -/
def trusting (raw : ℤ) : NodeRegistry := ⟨.ofList [("n1", raw)]⟩

theorem trusting_whole (raw : ℤ) : (trusting raw).Whole := by
  intro nodeId q h
  rw [trusting, OrderedMap.ofList, OrderedMap.assign, List.foldl_cons, List.foldl_nil,
    OrderedMap.get?_set] at h
  split at h
  · exact ⟨raw, (Option.some.inj h).symm⟩
  · exact absurd h (Option.some_ne_none q).symm

def plainOptions : SettlementOptions := ⟨"s1", 3, "02", "aborted"⟩

/-- A checkpoint that names no relay is settled with one amount. -/
theorem manifests_agree_iff_checkpoint :
    SettlementsAgree plainPlatform (checkpointMission "camp") (trusting 87) "m" 3 0 plainOptions ↔
      ∀ e ∈ (checkpointMission "camp").eventsForMission "m", e.plane ≠ .arc →
        RelayCheckpoint e.toEventCore → (trusting 87).latticeTrust01 e.actorId = 0 :=
  manifests_agree_iff plainPlatform (checkpointMission "camp") (trusting 87) "m" 3 0 plainOptions
    (by decide) (trusting_whole 87)

/-- **A relay checkpoint is settled with two amounts**: 5 by one manifest, 6 by the other. -/
theorem relay_checkpoint_disagrees :
    ¬ ∀ (P : SettlementPlatform) (ledger : MissionLedger) (registry : NodeRegistry)
      (missionId : Str) (nowMs : ℚ) (clock : Decimal) (opts : SettlementOptions),
      (replayMissionFromLedger clock ledger missionId).phase ∈ terminalPhases → registry.Whole →
        SettlementsAgree P ledger registry missionId nowMs clock opts := by
  intro h
  obtain ⟨rewards, hr, hpool, _⟩ := h plainPlatform (checkpointMission "relay 1") (trusting 100) "m"
    3 0 plainOptions (by decide) (trusting_whole 100)
  have hearned : (buildRewardManifest plainPlatform.toManifestPlatform (checkpointMission "relay 1")
      (trusting 100) "m" 3 0).toOption.map (fun r => parseFloat r.totalPool) = some (some 5) := by
    decide +kernel
  have hclaimed : parseFloat (buildSettlementManifest plainPlatform
      (replayMissionFromLedger 0 (checkpointMission "relay 1") "m")
      ((checkpointMission "relay 1").eventsForMission "m") (trusting 100)
      plainOptions).arcPayload.settlementAmount = some 6 := by decide +kernel
  rw [hr] at hearned
  have hfive : parseFloat rewards.totalPool = some 5 := Option.some.inj hearned
  rw [hclaimed, hfive] at hpool
  exact absurd (Option.some.inj hpool) (by norm_num)

end Settlement
