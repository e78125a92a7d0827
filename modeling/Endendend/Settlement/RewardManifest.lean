/-
**The reward manifest** (`arc/reward-manifest.ts`, and the trust of `lattice/node-registry.ts`).

The rows of a terminal mission that prove a contribution are weighted, multiplied with the trust in
their author one by one, and added up for each node.

Main definitions:

* `Settlement.NodeRegistry`, `Settlement.NodeRegistry.latticeTrust01` — the raw trust in the nodes,
  and the trust between 0 and 1;
* `Settlement.baseRewardWeight` — the weight of a row;
* `Settlement.buildRewardManifest` — the manifest.

Main results:

* `Settlement.nodeRewards_entries` — the rewards are made from the rows of each author;
* `Settlement.latticeTrust01_eq_div` — whole raw trust is trust in hundredths.
-/
import Endendend.Foundation.Fixed
import Endendend.Foundation.OwnKeys
import Endendend.Vertex.Replay

set_option relaxedAutoImplicit false
set_option autoImplicit false

namespace Settlement

open Js Vertex

/-! ### Trust -/

/-- The registry of the nodes, as far as settlements read it: the raw trust in each node. -/
structure NodeRegistry where
  trust : OrderedMap Str ℚ

/-- The trust in a node, between 0 and 1; an unknown node is trusted fully. -/
def NodeRegistry.latticeTrust01 (registry : NodeRegistry) (nodeId : Str) : ℚ :=
  min 1 (max 0 ((registry.trust.get? nodeId).getD 100 / 100))

/-- All raw trust values are whole numbers. -/
def NodeRegistry.Whole (registry : NodeRegistry) : Prop :=
  ∀ nodeId raw, registry.trust.get? nodeId = some raw → ∃ n : ℤ, raw = n

/-- **Whole raw trust is trust in hundredths.** -/
theorem latticeTrust01_eq_div {registry : NodeRegistry} (h : registry.Whole) (nodeId : Str) :
    ∃ n : ℕ, registry.latticeTrust01 nodeId = n / 100 := by
  have hraw : ∃ n : ℤ, (registry.trust.get? nodeId).getD 100 = n := by
    cases hget : registry.trust.get? nodeId with
    | none => exact ⟨100, by norm_num⟩
    | some raw => exact h nodeId raw hget
  obtain ⟨n, hn⟩ := hraw
  refine ⟨(min 100 (max 0 n)).toNat, ?_⟩
  have hpos : (0 : ℤ) ≤ min 100 (max 0 n) := le_min (by decide) (le_max_left _ _)
  have hcast : (((min 100 (max 0 n)).toNat : ℤ) : ℚ) = min 100 (max 0 (n : ℚ)) := by
    rw [Int.toNat_of_nonneg hpos]
    push_cast
    rfl
  rw [← Int.cast_natCast, hcast, NodeRegistry.latticeTrust01, hn,
    ← min_div_div_right (by norm_num : (0 : ℚ) ≤ 100),
    ← max_div_div_right (by norm_num : (0 : ℚ) ≤ 100)]
  norm_num

/-! ### The manifest -/

/-- Does the label of a row name a relay? -/
def namesRelay (e : EventCore) : Prop :=
  lit "relay" <:+: toLowerCase (e.textAt "label" (.str ""))

instance (e : EventCore) : Decidable (namesRelay e) :=
  inferInstanceAs (Decidable (lit "relay" <:+: _))

/-- The weight of a row. -/
def baseRewardWeight (e : EventCore) : ℕ :=
  match e.eventType with
  | .targetDiscovered => 10
  | .targetConfirmed => 15
  | .extractionConfirmed => 50
  | .safetyAlert => 20
  | .recoveryCheckpoint => if namesRelay e then 5 else 6
  | .taskAssigned => 4
  | _ => 0

structure ProofContribution where
  eventType : MissionLedgerEventType
  eventHash : Str
  latticeScore : ℚ
  checkpointHash : Str
  value : ℚ

/-- The rewards of a node while they are gathered. -/
structure NodeReward where
  contributions : List ProofContribution
  total : ℚ

structure NodeRewardLine where
  nodeId : Str
  contributions : List ProofContribution
  totalEarned : Str
  reputationAtSettlement : ℚ

structure RewardManifestRecord where
  missionId : Str
  terminalPhase : MissionPhase
  totalPool : Str
  timestamp : ℚ
  nodeRewards : List NodeRewardLine
  vertexLedgerTail : Str
  latticeValidationRoot : Str
  safetyEventsIncluded : ℕ
  merkleProofRoot : Str
  chain : Str
  txPayloadHash : Str
  expectedFinality : ℕ

/-- What stays a parameter: the comparison of two node ids in the language of the user, the root
over the contributions, the root over the registry, and the digest of the payload. -/
structure ManifestPlatform where
  localeCompare : Str → Str → ℤ
  contributionMerkleRoot : List ProofContribution → Str
  validationRoot : Str → ℚ → Str
  txPayloadHash : Str → Str → Str → Str → MissionPhase → Str

/-- The last checkpoint up to a time, or the creation of the mission. -/
def checkpointHashBefore (events : List MissionLedgerEvent) (atTs : Decimal) : Str :=
  let checkpoints := events.filter fun e => e.eventType = .recoveryCheckpoint ∧ e.timestamp ≤ atTs
  match checkpoints.getLast? with
  | some e => e.eventHash
  | none =>
    ((events.find? fun e => e.eventType = .missionCreated).map fun e => e.eventHash).getD genesis

/-- The contribution that a row proves. -/
def proofContribution (registry : NodeRegistry) (events : List MissionLedgerEvent)
    (e : MissionLedgerEvent) : ProofContribution where
  eventType := e.eventType
  eventHash := e.eventHash
  latticeScore := registry.latticeTrust01 e.actorId
  checkpointHash := checkpointHashBefore events e.timestamp
  value := baseRewardWeight e.toEventCore * registry.latticeTrust01 e.actorId

/-- A row is added to the rewards of its author, unless it was written by Arc or has no weight. -/
def addReward (registry : NodeRegistry) (events : List MissionLedgerEvent)
    (nodeRewards : OrderedMap Str NodeReward) (e : MissionLedgerEvent) :
    OrderedMap Str NodeReward :=
  if e.plane = .arc then nodeRewards
  else if baseRewardWeight e.toEventCore = 0 then nodeRewards
  else
    let row := (nodeRewards.get? e.actorId).getD ⟨[], 0⟩
    let contribution := proofContribution registry events e
    nodeRewards.set e.actorId
      ⟨row.contributions ++ [contribution], row.total + contribution.value⟩

/-- The rewards of all nodes. -/
def nodeRewardsOf (registry : NodeRegistry) (events : List MissionLedgerEvent) :
    OrderedMap Str NodeReward :=
  events.foldl (addReward registry events) ∅

/-- Rows in the order of their node ids. -/
def sortByNodeId {α : Type*} (P : ManifestPlatform) (l : List (Str × α)) : List (Str × α) :=
  l.insertionSort fun p q => P.localeCompare p.1 q.1 ≤ 0

/-- The manifest of a mission that is over. -/
def buildRewardManifest (P : ManifestPlatform) (ledger : MissionLedger) (registry : NodeRegistry)
    (missionId : Str) (nowMs : ℚ) (clock : Decimal) : Except Str RewardManifestRecord :=
  let mission := replayMissionFromLedger clock ledger missionId
  if mission.phase ∉ terminalPhases then .error "Rewards only for terminal missions"
  else
    let events := ledger.eventsForMission missionId
    let nodeRewards := ownOrder (nodeRewardsOf registry events).entries
    let merkleProofRoot :=
      P.contributionMerkleRoot (nodeRewards.flatMap fun p => p.2.contributions)
    let totalNumeric := (nodeRewards.map fun p => p.2.total).sum
    let totalPool := toFixed 4 totalNumeric ++ lit " HBAR"
    let latticeValidationRoot := P.validationRoot missionId nowMs
    let terminalPhase := if mission.phase = .complete then .complete else .aborted
    .ok
      { missionId
        terminalPhase
        totalPool
        timestamp := nowMs
        nodeRewards := (sortByNodeId P nodeRewards).map fun p =>
          { nodeId := p.1
            contributions := p.2.contributions
            totalEarned := toFixed 4 p.2.total ++ lit " HBAR"
            reputationAtSettlement := registry.latticeTrust01 p.1 }
        vertexLedgerTail := ledger.missionTailHash missionId
        latticeValidationRoot
        safetyEventsIncluded := (events.filter fun e => e.eventType = .safetyAlert).length
        merkleProofRoot
        chain := "hedera"
        txPayloadHash :=
          P.txPayloadHash missionId totalPool merkleProofRoot latticeValidationRoot terminalPhase
        expectedFinality := 3 }

/-! ### The rewards of each author -/

/-- Does a row count?  Both manifests agree on this. -/
def Counts (e : MissionLedgerEvent) : Prop := e.plane ≠ .arc ∧ baseRewardWeight e.toEventCore ≠ 0

instance (e : MissionLedgerEvent) : Decidable (Counts e) := inferInstanceAs (Decidable (_ ∧ _))

/-- The rows that count, under their authors. -/
def countedByAuthor (events : List MissionLedgerEvent) : OrderedMap Str (List MissionLedgerEvent) :=
  OrderedMap.group (fun e => e.actorId) (events.filter fun e => Counts e)

/-- The reward of a node from its rows. -/
def rewardOf (registry : NodeRegistry) (events es : List MissionLedgerEvent) : NodeReward where
  contributions := es.map (proofContribution registry events)
  total := (es.map fun e => (proofContribution registry events e).value).sum

theorem foldl_if_filter {α β : Type*} (p : α → Prop) [DecidablePred p] (f : β → α → β) (b : β)
    (l : List α) :
    l.foldl (fun b a => if p a then f b a else b) b = (l.filter fun a => p a).foldl f b := by
  rw [List.foldl_filter]
  simp only [decide_eq_true_eq]

/-- **The rewards are made from the rows of each author.** -/
theorem nodeRewards_entries (registry : NodeRegistry) (events : List MissionLedgerEvent) :
    (nodeRewardsOf registry events).entries =
      (countedByAuthor events).entries.map fun p => (p.1, rewardOf registry events p.2) := by
  have hstep : addReward registry events = fun m e =>
      if Counts e then
        m.set e.actorId
          (let row := (m.get? e.actorId).getD (rewardOf registry events [])
          ⟨row.contributions ++ [proofContribution registry events e],
            row.total + (proofContribution registry events e).value⟩)
      else m := by
    funext m e
    unfold addReward
    by_cases hplane : e.plane = .arc
    · have hno : ¬ Counts e := fun h => h.1 hplane
      rw [if_pos hplane, if_neg hno]
    · by_cases hw : baseRewardWeight e.toEventCore = 0
      · have hno : ¬ Counts e := fun h => h.2 hw
        rw [if_neg hplane, if_pos hw, if_neg hno]
      · have hcounts : Counts e := ⟨hplane, hw⟩
        rw [if_neg hplane, if_neg hw, if_pos hcounts]
        rfl
  rw [nodeRewardsOf, hstep, foldl_if_filter]
  refine OrderedMap.entries_foldl_rows (fun e : MissionLedgerEvent => e.actorId)
    (fun _ es => rewardOf registry events es)
    (fun _ row e => ⟨row.contributions ++ [proofContribution registry events e],
      row.total + (proofContribution registry events e).value⟩) (fun _ es e => ?_) _
  simp only [rewardOf, List.map_append, List.map_singleton, List.sum_append, List.sum_singleton]

end Settlement
