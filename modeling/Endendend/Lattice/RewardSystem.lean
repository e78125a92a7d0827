/-
**The Lattice reward system** (`lattice/lattice-reward-stack.ts`).

Contributions are recorded under their event id and settled on request.  A settlement computes the
amount, appends a reward to the ledger and updates the profile of the node.

Main definitions:

* `Lattice.NodeProfile`, `Lattice.ValidationProof`, `Lattice.ContributionEvent`,
  `Lattice.RewardEvent`, `Lattice.RewardLedgerEntry` — the records;
* `Lattice.ContributionTracker` and its operations — contributions, rewards and the reward ledger;
* `Lattice.amountFor` — the reward for a contribution;
* `Lattice.LatticeRewardSystem`, `Lattice.settleContribution`, `Lattice.settleContributions`,
  `Lattice.applyPenalty`, `Lattice.recordContribution`, `Lattice.ContributionTracker.balanceFor`.

Main results:

* `Lattice.findContribution_eq` — a settlement finds a contribution exactly if it is recorded.
-/
import Endendend.Foundation.Json
import Endendend.Foundation.OrderedMap

set_option relaxedAutoImplicit false
set_option autoImplicit false

namespace Lattice

open Js

/-! ### Records -/

inductive HealthStatus
  | healthy
  | degraded
  | unhealthy
  | offline
  | unknown
  deriving DecidableEq

inductive ValidationType
  | discovery
  | capability
  | taskCompletion
  | relayContinuity
  | victimConfirmation
  | extraction
  | geofenceBreach
  | reconnect
  | mapContribution
  | safetyResponse
  deriving DecidableEq

/-- The text of a kind of validation. -/
def ValidationType.text : ValidationType → Str
  | discovery => "discovery"
  | capability => "capability"
  | taskCompletion => "task_completion"
  | relayContinuity => "relay_continuity"
  | victimConfirmation => "victim_confirmation"
  | extraction => "extraction"
  | geofenceBreach => "geofence_breach"
  | reconnect => "reconnect"
  | mapContribution => "map_contribution"
  | safetyResponse => "safety_response"

inductive RewardKind
  | work
  | relay
  | discovery
  | rescue
  | validation
  | recovery
  | safety
  | bonus
  | penalty
  deriving DecidableEq

structure NodeHealthSample where
  timestampMs : ℚ
  batteryPct : ℚ
  cpuPct : ℚ
  memoryPct : ℚ
  linkQuality : ℚ
  gpsFix : Bool
  temperatureC : Option ℚ
  missionId : Option Str
  status : HealthStatus

/-- The profile of a node, as far as the reward system reads or writes it. -/
structure NodeProfile where
  nodeId : Str
  health : NodeHealthSample
  trustScore : ℚ
  reputationScore : ℚ
  rewardPoints : ℚ
  contributionCount : ℕ
  successfulTasks : ℕ
  failedTasks : ℕ
  lastSeenMs : ℚ
  missionId : Option Str

structure ValidationProof where
  proofId : Str
  validationType : ValidationType
  missionId : Str
  subjectNodeId : Str
  witnesses : List Str
  createdAtMs : ℚ
  accepted : Bool
  reason : Str

structure ContributionEvent where
  eventId : Str
  missionId : Str
  nodeId : Str
  kind : RewardKind
  label : Str
  proofId : Option Str
  weight : ℚ
  createdAtMs : ℚ
  metadata : OrderedMap Str Json

structure RewardEvent where
  rewardId : Str
  missionId : Str
  nodeId : Str
  kind : RewardKind
  amount : ℚ
  reason : Str
  proofId : Option Str
  contributionEventId : Option Str
  createdAtMs : ℚ
  settled : Bool
  metadata : OrderedMap Str Json

structure RewardLedgerEntry where
  reward : RewardEvent
  updatedTrustScore : ℚ
  updatedReputationScore : ℚ
  balanceAfter : ℚ

def clamp (value lo hi : ℚ) : ℚ := max lo (min hi value)

def round2 (value : ℚ) : ℚ := ⌊value * 100 + 1 / 2⌋ / 100

/-! ### The registry -/

def deriveHealthStatus (h : NodeHealthSample) : HealthStatus :=
  if h.batteryPct < 6 ∨ h.linkQuality < 8 / 100 then .unhealthy
  else if h.batteryPct < 22 ∨ h.linkQuality < 35 / 100 ∨ h.cpuPct > 88 ∨ h.memoryPct > 88 then
    .degraded
  else .healthy

/-- A profile brought into range. -/
def normalize (node : NodeProfile) : NodeProfile :=
  let h := { node.health with
    batteryPct := clamp node.health.batteryPct 0 100
    cpuPct := clamp node.health.cpuPct 0 100
    memoryPct := clamp node.health.memoryPct 0 100
    linkQuality := clamp node.health.linkQuality 0 1 }
  { node with
    trustScore := clamp node.trustScore 0 1
    reputationScore := clamp node.reputationScore 0 1
    health := { h with status := if h.status = .unknown then deriveHealthStatus h else h.status } }

/-- The registry: profiles under their node ids. -/
abbrev NodeRegistry := KeyedMap NodeProfile.nodeId

/-- Stores a profile unless a later one is stored. -/
def NodeRegistry.register (registry : NodeRegistry) (node : NodeProfile) : NodeRegistry :=
  match registry.get? node.nodeId with
  | some current =>
    if node.lastSeenMs ≥ current.lastSeenMs then registry.put (normalize node) else registry
  | none => registry.put (normalize node)

/-! ### The tracker -/

/-- Contributions and rewards under their ids, and the reward ledger. -/
structure ContributionTracker where
  contributions : KeyedMap ContributionEvent.eventId
  rewards : KeyedMap RewardEvent.rewardId
  rewardLedger : List RewardLedgerEntry

namespace ContributionTracker

def addContribution (t : ContributionTracker) (event : ContributionEvent) : ContributionTracker :=
  { t with contributions := t.contributions.put event }

/-- The newest contributions first. -/
def recentContributions (t : ContributionTracker) (limit : ℕ) : List ContributionEvent :=
  (t.contributions.values.insertionSort fun a b => b.createdAtMs ≤ a.createdAtMs).take limit

def recordReward (t : ContributionTracker) (event : RewardEvent)
    (updatedTrustScore updatedReputationScore balanceAfter : ℚ) :
    ContributionTracker × RewardLedgerEntry :=
  let ledgerEntry : RewardLedgerEntry :=
    { reward := event
      updatedTrustScore := clamp updatedTrustScore 0 1
      updatedReputationScore := clamp updatedReputationScore 0 1
      balanceAfter }
  ({ t with rewards := t.rewards.put event, rewardLedger := t.rewardLedger ++ [ledgerEntry] },
    ledgerEntry)

/-- The rewards of a node, the newest first. -/
def rewardsForNode (t : ContributionTracker) (nodeId : Str) : List RewardEvent :=
  (t.rewards.values.filter fun r => r.nodeId = nodeId).insertionSort fun a b =>
    b.createdAtMs ≤ a.createdAtMs

def balanceFor (t : ContributionTracker) (nodeId : Str) : ℚ :=
  (t.rewardsForNode nodeId).foldl (fun acc r => acc + r.amount) 0

end ContributionTracker

/-! ### Amounts -/

/-- The reward for a contribution; `multipliers` are those of the policy. -/
def amountFor (multipliers : RewardKind → Option ℚ) (contribution : ContributionEvent)
    (proof : Option ValidationProof) : ℚ :=
  let amount := contribution.weight * 10
  let amount := amount * (multipliers contribution.kind).getD 1
  let amount := if proof.any (·.accepted) then amount * (115 / 100) else amount
  let validationType := proof.map (·.validationType)
  let amount :=
    if contribution.kind = .rescue ∧ validationType = some .extraction then amount * (12 / 10)
    else amount
  let amount :=
    if contribution.kind = .relay ∧ validationType = some .relayContinuity then amount * (13 / 10)
    else amount
  let amount :=
    if contribution.kind = .validation ∧ validationType.isSome then amount * (11 / 10) else amount
  round2 (max 0 amount)

def trustDeltaFor (contribution : ContributionEvent) (proof : Option ValidationProof) : ℚ :=
  2 / 100 + (if proof.any (·.accepted) then 4 / 100 else 0) +
    (if contribution.kind = .relay then 3 / 100 else 0) +
    (if contribution.kind = .rescue then 5 / 100 else 0) +
    (if contribution.kind = .safety then 4 / 100 else 0)

def reputationDeltaFor (contribution : ContributionEvent) (proof : Option ValidationProof) : ℚ :=
  2 / 100 + (if proof.any (·.accepted) then 5 / 100 else 0) +
    (if contribution.kind = .discovery then 3 / 100 else 0) +
    (if contribution.kind = .validation then 4 / 100 else 0) +
    (if contribution.kind = .recovery then 3 / 100 else 0) -
    (if contribution.kind = .penalty then 10 / 100 else 0)

/-! ### The system -/

structure LatticeRewardSystem where
  tracker : ContributionTracker
  multipliers : RewardKind → Option ℚ
  /-- The proofs of the validator. -/
  proofs : KeyedMap ValidationProof.proofId
  registry : NodeRegistry

/-- A system to which no contribution has been reported. -/
def LatticeRewardSystem.new (multipliers : RewardKind → Option ℚ)
    (proofs : KeyedMap ValidationProof.proofId) (registry : NodeRegistry) : LatticeRewardSystem :=
  ⟨⟨∅, ∅, []⟩, multipliers, proofs, registry⟩

/-- The newest proofs first. -/
def recentProofs (proofs : KeyedMap ValidationProof.proofId) (limit : ℕ) : List ValidationProof :=
  (proofs.values.insertionSort fun a b => b.createdAtMs ≤ a.createdAtMs).take limit

def recordContribution (s : LatticeRewardSystem) (event : ContributionEvent) :
    LatticeRewardSystem :=
  { s with tracker := s.tracker.addContribution event }

/-- The contribution with an id, looked up by its key and then among the newest thousand. -/
def findContribution (t : ContributionTracker) (eventId : Str) : Option ContributionEvent :=
  (t.contributions.get? eventId).or
    ((t.recentContributions 1000).find? fun c => c.eventId = eventId)

/-- The proof a settlement names, if it is among the newest thousand. -/
def findProof (s : LatticeRewardSystem) (proofId : Option Str) : Option ValidationProof :=
  match proofId with
  | none => none
  | some pid =>
    if pid = [] then none else (recentProofs s.proofs 1000).find? fun p => p.proofId = pid

/-- A request to settle, with the id drawn and the clock read when it is served. -/
structure SettleRequest where
  eventId : Str
  proofId : Option Str
  rewardId : Str
  now : ℚ

/-- The reward for a contribution. -/
def rewardFor (s : LatticeRewardSystem) (r : SettleRequest) (contribution : ContributionEvent)
    (proof : Option ValidationProof) : RewardEvent where
  rewardId := r.rewardId
  missionId := contribution.missionId
  nodeId := contribution.nodeId
  kind := contribution.kind
  amount := amountFor s.multipliers contribution proof
  reason := contribution.label
  proofId := (proof.map (·.proofId)).or contribution.proofId
  contributionEventId := some contribution.eventId
  createdAtMs := r.now
  settled := true
  metadata :=
    -- without a proof the kind of validation is `undefined`, which leaves no key
    let metadata :=
      match proof with
      | some p => contribution.metadata.set "validationType" (.str p.validationType.text)
      | none => contribution.metadata.erase "validationType"
    metadata.set "proofAccepted" (.bool (proof.any (·.accepted)))

/-- Settles a contribution.  The profile that is changed is the stored one, so that registering it
again always passes the check of times. -/
def settleContribution (s : LatticeRewardSystem) (r : SettleRequest) :
    LatticeRewardSystem × Option RewardLedgerEntry :=
  match findContribution s.tracker r.eventId with
  | none => (s, none)
  | some contribution =>
    let proof := findProof s r.proofId
    let reward := rewardFor s r contribution proof
    let amount := reward.amount
    let node := s.registry.get? contribution.nodeId
    let trust := (node.map (·.trustScore)).getD (1 / 2)
    let reputation := (node.map (·.reputationScore)).getD (1 / 2)
    let updatedTrust := clamp (trust + trustDeltaFor contribution proof) 0 1
    let updatedReputation := clamp (reputation + reputationDeltaFor contribution proof) 0 1
    let balanceAfter := s.tracker.balanceFor contribution.nodeId + amount
    let (tracker, ledger) :=
      s.tracker.recordReward reward updatedTrust updatedReputation balanceAfter
    let registry :=
      match node with
      | none => s.registry
      | some node =>
        s.registry.put (normalize
          { node with
            rewardPoints := node.rewardPoints + amount
            trustScore := updatedTrust
            reputationScore := updatedReputation
            contributionCount := node.contributionCount + 1
            successfulTasks :=
              if amount > 0 then node.successfulTasks + 1 else node.successfulTasks
            lastSeenMs := r.now })
    ({ s with tracker, registry }, some ledger)

/-- Settles contributions one after the other. -/
def settleContributions (s : LatticeRewardSystem) : List SettleRequest →
    LatticeRewardSystem × List RewardLedgerEntry
  | [] => (s, [])
  | r :: rs =>
    let (s, ledger) := settleContribution s r
    let (s, ledgers) := settleContributions s rs
    (s, ledger.toList ++ ledgers)

/-- Takes points from a node that is registered. -/
def applyPenalty (s : LatticeRewardSystem) (nodeId reason : Str) (amount : ℚ) (rewardId : Str)
    (now : ℚ) : LatticeRewardSystem × Option RewardEvent :=
  match s.registry.get? nodeId with
  | none => (s, none)
  | some node =>
    let reward : RewardEvent :=
      { rewardId
        missionId := node.missionId.getD ""
        nodeId
        kind := .penalty
        amount := -|amount|
        reason
        proofId := none
        contributionEventId := none
        createdAtMs := now
        settled := true
        metadata := .ofList [("reason", .str reason)] }
    let updatedTrust := clamp (node.trustScore - 5 / 100) 0 1
    let updatedReputation := clamp (node.reputationScore - 8 / 100) 0 1
    let tracker := (s.tracker.recordReward reward updatedTrust updatedReputation
      (s.tracker.balanceFor nodeId - |amount|)).1
    let registry := s.registry.put (normalize
      { node with
        trustScore := updatedTrust
        reputationScore := updatedReputation
        failedTasks := node.failedTasks + 1
        lastSeenMs := now })
    ({ s with tracker, registry }, some reward)

/-! ### Finding a contribution -/

/-- **A settlement finds a contribution exactly if it is recorded**: the newest thousand are
recorded too. -/
theorem findContribution_eq (t : ContributionTracker) (eventId : Str) :
    findContribution t eventId = t.contributions.get? eventId := by
  unfold findContribution
  cases hc : t.contributions.get? eventId with
  | some c => rfl
  | none =>
      rw [Option.none_or, List.find?_eq_none]
      intro c hcmem
      simp only [decide_eq_true_eq]
      rintro rfl
      have hv : c ∈ t.contributions.values :=
        (List.perm_insertionSort _ _).mem_iff.1 (List.mem_of_mem_take hcmem)
      rw [KeyedMap.mem_values_iff.1 hv] at hc
      exact absurd hc (by simp)

end Lattice
