/-
**The settlement manifest** (`arc/settlement-manifest.ts`).

The rows of a mission are weighted and added up for each node, and the sum of a node is multiplied
with the trust in it.  The amount of the settlement is the sum of the printed rewards.

Main definitions:

* `Settlement.contributionWeight` — the weight of a row;
* `Settlement.computeRewardClaims`, `Settlement.totalRewardUnits` — the rewards and their sum;
* `Settlement.buildSettlementManifest` — the manifest.

Main results:

* `Settlement.byNode_entries` — the rewards are made from the rows of each author.
-/
import Endendend.Settlement.RewardManifest

set_option relaxedAutoImplicit false
set_option autoImplicit false

namespace Settlement

open Js Vertex

/-! ### The manifest -/

/-- The weight of a row. -/
def contributionWeight : MissionLedgerEventType → ℕ
  | .targetDiscovered => 10
  | .targetConfirmed => 15
  | .extractionConfirmed => 50
  | .safetyAlert => 20
  | .taskAssigned => 4
  | .recoveryCheckpoint => 6
  | _ => 0

/-- A row that counts. -/
structure RewardContribution where
  eventType : MissionLedgerEventType
  proofHash : Str
  value : ℕ

/-- The rows of a node while they are gathered. -/
structure NodeClaim where
  contributions : List RewardContribution
  latticeScore : ℚ

structure RewardContributionLine where
  nodeId : Str
  contributions : List RewardContribution
  totalReward : Str
  latticeScore : ℚ

structure ContributionLine where
  nodeId : Str
  role : Json
  validatedEvents : ℕ
  proofHashes : List Str

structure MissionCertificate where
  targetsFound : ℕ
  extractions : ℕ
  coveragePercent : ℕ
  safetyEvents : ℕ

structure ArcSettlementPayload where
  chain : Str
  settlementAmount : Str
  proofMerkleRoot : Str

structure SettlementManifest where
  manifestId : Str
  missionId : Str
  outcome : Str
  phase : MissionPhase
  contributions : List ContributionLine
  ledgerRootHash : Str
  ledgerTailHash : Str
  sealedAtMs : ℚ
  nodeContributions : List RewardContributionLine
  missionCertificate : MissionCertificate
  arcPayload : ArcSettlementPayload

/-- What stays a parameter besides: the root over the contributions, and the coverage that a number
of known cells stands for. -/
structure SettlementPlatform extends ManifestPlatform where
  proofMerkleRoot : List RewardContributionLine → Str
  coveragePercent : Decimal → ℕ

/-- The options of a settlement. -/
structure SettlementOptions where
  manifestId : Str
  sealedAtMs : ℚ
  ledgerRootHash : Str
  outcome : Str

/-- A row is added to the rows of its author, unless it belongs to another mission, was written by
Arc or has no weight. -/
def addClaim (registry : NodeRegistry) (missionId : Str) (byNode : OrderedMap Str NodeClaim)
    (e : MissionLedgerEvent) : OrderedMap Str NodeClaim :=
  if e.missionId ≠ missionId then byNode
  else if e.plane = .arc then byNode
  else
    let w := contributionWeight e.eventType
    if w = 0 then byNode
    else
      let row := (byNode.get? e.actorId).getD ⟨[], registry.latticeTrust01 e.actorId⟩
      byNode.set e.actorId
        { row with contributions := row.contributions ++ [⟨e.eventType, e.eventHash, w⟩] }

/-- The rows of all nodes. -/
def byNodeOf (registry : NodeRegistry) (missionId : Str) (ledgerEvents : List MissionLedgerEvent) :
    OrderedMap Str NodeClaim :=
  ledgerEvents.foldl (addClaim registry missionId) ∅

/-- The reward of a node. -/
def claimLine (p : Str × NodeClaim) : RewardContributionLine :=
  let raw := (p.2.contributions.map RewardContribution.value).sum
  let weighted : ℚ := raw * p.2.latticeScore
  { nodeId := p.1
    contributions := p.2.contributions
    totalReward := toFixed 4 weighted
    latticeScore := p.2.latticeScore }

def computeRewardClaims (P : ManifestPlatform) (missionId : Str)
    (ledgerEvents : List MissionLedgerEvent) (registry : NodeRegistry) :
    List RewardContributionLine :=
  (sortByNodeId P (ownOrder (byNodeOf registry missionId ledgerEvents).entries)).map claimLine

/-- The sum of the printed rewards. -/
def totalRewardUnits (claims : List RewardContributionLine) : ℚ :=
  (claims.map fun c =>
    (parseFloat (if c.totalReward = [] then "0" else c.totalReward)).getD 0).sum

/-- The lines of the roster; a node without contributions cites the end of the ledger. -/
def legacyContributions (mission : MissionState) (claims : List RewardContributionLine)
    (ledgerTailHash : Str) : List ContributionLine :=
  (ownOrder mission.roster.entries).map fun p =>
    let mine := (claims.filter fun c => c.nodeId = p.2.nodeId).getLast?
    let proofs := (mine.map fun c => c.contributions.map RewardContribution.proofHash).getD []
    { nodeId := p.2.nodeId
      role := p.2.role
      validatedEvents := (mine.map fun c => c.contributions.length).getD 0
      proofHashes := if proofs.length ≠ 0 then proofs else [ledgerTailHash] }

def computeCertificate (P : SettlementPlatform) (mission : MissionState)
    (ledgerEvents : List MissionLedgerEvent) : MissionCertificate :=
  let mine := ledgerEvents.filter fun e => e.missionId = mission.missionId
  { targetsFound := mission.targets.keys.length
    extractions := (mine.filter fun e => e.eventType = .extractionConfirmed).length
    coveragePercent := P.coveragePercent mission.cellsKnown
    safetyEvents := mission.alerts.length }

def buildSettlementManifest (P : SettlementPlatform) (mission : MissionState)
    (ledgerEvents : List MissionLedgerEvent) (registry : NodeRegistry) (opts : SettlementOptions) :
    SettlementManifest :=
  let nodeContributions :=
    computeRewardClaims P.toManifestPlatform mission.missionId ledgerEvents registry
  let grand := totalRewardUnits nodeContributions
  { manifestId := opts.manifestId
    missionId := mission.missionId
    outcome := opts.outcome
    phase := mission.phase
    contributions := legacyContributions mission nodeContributions opts.ledgerRootHash
    ledgerRootHash := opts.ledgerRootHash
    ledgerTailHash := opts.ledgerRootHash
    sealedAtMs := opts.sealedAtMs
    nodeContributions
    missionCertificate := computeCertificate P mission ledgerEvents
    arcPayload :=
      { chain := "hedera"
        settlementAmount := toFixed 4 grand ++ lit " score-units"
        proofMerkleRoot := P.proofMerkleRoot nodeContributions } }

/-! ### The rows of each author -/

/-- Both tables give weight to the same rows. -/
theorem contributionWeight_eq_zero_iff (e : EventCore) :
    contributionWeight e.eventType = 0 ↔ baseRewardWeight e = 0 := by
  unfold contributionWeight baseRewardWeight
  cases e.eventType with
  | recoveryCheckpoint =>
      refine iff_of_false (by decide) ?_
      dsimp only
      split <;> decide
  | _ => exact Iff.rfl

/-- The rows of a node. -/
def claimOf (registry : NodeRegistry) (nodeId : Str) (es : List MissionLedgerEvent) :
    NodeClaim where
  contributions := es.map fun e => ⟨e.eventType, e.eventHash, contributionWeight e.eventType⟩
  latticeScore := registry.latticeTrust01 nodeId

/-- **The rewards are made from the rows of each author.** -/
theorem byNode_entries (registry : NodeRegistry) {missionId : Str}
    {events : List MissionLedgerEvent} (h : ∀ e ∈ events, e.missionId = missionId) :
    (byNodeOf registry missionId events).entries =
      (countedByAuthor events).entries.map fun p => (p.1, claimOf registry p.1 p.2) := by
  have hstep : byNodeOf registry missionId events = events.foldl (fun m e =>
      if Counts e then
        m.set e.actorId
          (let row := (m.get? e.actorId).getD (claimOf registry e.actorId [])
          { row with contributions := row.contributions ++
            [⟨e.eventType, e.eventHash, contributionWeight e.eventType⟩] })
      else m) ∅ := by
    refine List.foldl_ext _ _ _ fun m e he => ?_
    have hzero := contributionWeight_eq_zero_iff e.toEventCore
    unfold addClaim
    rw [if_neg (not_not.2 (h e he))]
    by_cases hplane : e.plane = .arc
    · have hno : ¬ Counts e := fun h => h.1 hplane
      rw [if_pos hplane, if_neg hno]
    · by_cases hw : contributionWeight e.eventType = 0
      · have hno : ¬ Counts e := fun h => h.2 (hzero.1 hw)
        rw [if_neg hplane, if_neg hno]
        exact if_pos hw
      · have hcounts : Counts e := ⟨hplane, fun h => hw (hzero.2 h)⟩
        rw [if_neg hplane, if_pos hcounts]
        exact if_neg hw
  rw [hstep, foldl_if_filter]
  refine OrderedMap.entries_foldl_rows (fun e : MissionLedgerEvent => e.actorId)
    (claimOf registry) (fun _ row e => { row with contributions := row.contributions ++
      [⟨e.eventType, e.eventHash, contributionWeight e.eventType⟩] }) (fun k es e => ?_) _
  simp only [claimOf, List.map_append, List.map_singleton]

end Settlement
