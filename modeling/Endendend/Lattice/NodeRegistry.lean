/-
**The node registry** (`lattice/lattice-reward-stack.ts`).

Profiles are written by four kinds of reports: registrations, discoveries, updates of health and
attestations.  Only a registration looks at the times; the others overwrite what is stored.

Main definitions:

* `Lattice.NodeRegistry.discovery`, `updateHealth`, `addAttestation` — the reports besides
  `Lattice.NodeRegistry.register`;
* `Lattice.Report`, `Lattice.deliver` — a report, and the registry after it;
* `Lattice.written` — the profile that a report writes, if it writes one.

Main results:

* `Lattice.get?_deliver` — **a report touches the node it is about and nothing else**;
* `Lattice.normalizeHealth_discovered` — a discovery keeps the health of a node that is known, up
  to bringing it into range.
-/
import Endendend.Lattice.TriangulatedValidator

set_option relaxedAutoImplicit false
set_option autoImplicit false

namespace Lattice

open Js

/-- A node that was seen, as far as the registry reads it. -/
structure NodeDiscoveryEvent where
  nodeId : Str
  discoveredBy : Str
  missionId : Option Str
  seenAtMs : ℚ

/-- The fields of a health sample that an update brings. -/
structure HealthPatch where
  timestampMs : Option ℚ := none
  batteryPct : Option ℚ := none
  cpuPct : Option ℚ := none
  memoryPct : Option ℚ := none
  linkQuality : Option ℚ := none
  gpsFix : Option Bool := none
  temperatureC : Option ℚ := none
  missionId : Option Str := none
  status : Option HealthStatus := none

/-! ### Health -/

/-- A health sample with its numbers in range. -/
def clampHealth (h : NodeHealthSample) : NodeHealthSample :=
  { h with
    batteryPct := clamp h.batteryPct 0 100
    cpuPct := clamp h.cpuPct 0 100
    memoryPct := clamp h.memoryPct 0 100
    linkQuality := clamp h.linkQuality 0 1 }

/-- A health sample whose status is derived if it is unknown. -/
def settleStatus (h : NodeHealthSample) : NodeHealthSample :=
  { h with status := if h.status = .unknown then deriveHealthStatus h else h.status }

/-- The part of `normalize` that is about the health. -/
def normalizeHealth (h : NodeHealthSample) : NodeHealthSample := settleStatus (clampHealth h)

@[simp] theorem health_normalize (node : NodeProfile) :
    (normalize node).health = normalizeHealth node.health := rfl

theorem clamp_lt {value lo hi b : ℚ} (hlo : lo < b) (hhi : b ≤ hi) :
    clamp value lo hi < b ↔ value < b := by
  rw [clamp, max_lt_iff, min_lt_iff]
  exact ⟨fun h => h.2.resolve_left (not_lt.2 hhi), fun h => ⟨hlo, Or.inr h⟩⟩

theorem lt_clamp {value lo hi b : ℚ} (hlo : lo ≤ b) (hhi : b < hi) :
    b < clamp value lo hi ↔ b < value := by
  rw [clamp, lt_max_iff, lt_min_iff]
  exact ⟨fun h => (h.resolve_left (not_lt.2 hlo)).2, fun h => Or.inr ⟨hhi, h⟩⟩

theorem clamp_clamp {value lo hi : ℚ} (h : lo ≤ hi) :
    clamp (clamp value lo hi) lo hi = clamp value lo hi := by
  have hle : max lo (min hi value) ≤ hi := max_le h (min_le_left hi value)
  rw [clamp, clamp, min_eq_right hle, max_eq_right (le_max_left lo _)]

/-- Bringing a health sample into range does not change what its status is derived from. -/
theorem deriveHealthStatus_clampHealth (h : NodeHealthSample) :
    deriveHealthStatus (clampHealth h) = deriveHealthStatus h := by
  have h6 : clamp h.batteryPct 0 100 < 6 ↔ h.batteryPct < 6 :=
    clamp_lt (by decide +kernel) (by decide +kernel)
  have h22 : clamp h.batteryPct 0 100 < 22 ↔ h.batteryPct < 22 :=
    clamp_lt (by decide +kernel) (by decide +kernel)
  have h08 : clamp h.linkQuality 0 1 < 8 / 100 ↔ h.linkQuality < 8 / 100 :=
    clamp_lt (by decide +kernel) (by decide +kernel)
  have h35 : clamp h.linkQuality 0 1 < 35 / 100 ↔ h.linkQuality < 35 / 100 :=
    clamp_lt (by decide +kernel) (by decide +kernel)
  have hcpu : 88 < clamp h.cpuPct 0 100 ↔ 88 < h.cpuPct :=
    lt_clamp (by decide +kernel) (by decide +kernel)
  have hmemory : 88 < clamp h.memoryPct 0 100 ↔ 88 < h.memoryPct :=
    lt_clamp (by decide +kernel) (by decide +kernel)
  simp only [deriveHealthStatus, clampHealth, gt_iff_lt, h6, h22, h08, h35, hcpu, hmemory]

theorem clampHealth_clampHealth (h : NodeHealthSample) :
    clampHealth (clampHealth h) = clampHealth h := by
  have h100 : (0 : ℚ) ≤ 100 := by decide +kernel
  have h1 : (0 : ℚ) ≤ 1 := zero_le_one
  simp only [clampHealth, clamp_clamp h100, clamp_clamp h1]

theorem clampHealth_settleStatus (h : NodeHealthSample) :
    clampHealth (settleStatus h) = settleStatus (clampHealth h) := by
  unfold settleStatus
  rw [deriveHealthStatus_clampHealth]
  rfl

theorem deriveHealthStatus_ne_unknown (h : NodeHealthSample) :
    deriveHealthStatus h ≠ .unknown := by
  unfold deriveHealthStatus
  split
  · decide
  · split <;> decide

theorem settleStatus_settleStatus (h : NodeHealthSample) :
    settleStatus (settleStatus h) = settleStatus h := by
  have hne : (settleStatus h).status ≠ .unknown := by
    simp only [settleStatus]
    split
    · exact deriveHealthStatus_ne_unknown h
    · assumption
  rw [settleStatus, if_neg hne]

/-- Settling the status first does not change what a health sample is brought to. -/
theorem normalizeHealth_settleStatus (h : NodeHealthSample) :
    normalizeHealth (settleStatus h) = normalizeHealth h := by
  rw [normalizeHealth, clampHealth_settleStatus, settleStatus_settleStatus, normalizeHealth]

theorem normalizeHealth_normalizeHealth (h : NodeHealthSample) :
    normalizeHealth (normalizeHealth h) = normalizeHealth h := by
  rw [normalizeHealth, normalizeHealth, clampHealth_settleStatus, clampHealth_clampHealth,
    settleStatus_settleStatus]

/-! ### Scores -/

/-- The trust in a node that reports its health. -/
def trustFromHealth (node : NodeProfile) : ℚ :=
  let h := node.health
  let score := 1 / 2 + h.batteryPct / 100 * (18 / 100) + h.linkQuality * (2 / 10) +
    (if h.gpsFix then 5 / 100 else -5 / 100) + (if h.cpuPct < 80 then 3 / 100 else -3 / 100) +
    (if h.memoryPct < 80 then 3 / 100 else -3 / 100)
  let score := if h.temperatureC.any (· > 75) then score - 8 / 100 else score
  let score := if h.missionId.getD "" = "" then score - 2 / 100 else score
  let score := if h.status = .degraded then score - 4 / 100 else score
  let score := if h.status = .unhealthy ∨ h.status = .offline then score - 12 / 100 else score
  clamp score 0 1

/-- The reputation of a node, from what it has done and from when it was last seen. -/
def reputationFromState (node : NodeProfile) (now : ℚ) : ℚ :=
  let denom := node.successfulTasks + node.failedTasks
  let successRate : ℚ := if denom > 0 then node.successfulTasks / denom else 1 / 2
  let recentBonus : ℚ := if node.lastSeenMs > now - 5000 then 4 / 100 else 0
  clamp (3 / 10 + successRate * (4 / 10) + clamp (node.contributionCount / 50) 0 (2 / 10) +
    recentBonus) 0 1

/-! ### Reports -/

/-- The profile that a discovery writes. -/
def discovered (existing : Option NodeProfile) (event : NodeDiscoveryEvent) : NodeProfile :=
  let baseHealth := (existing.map (·.health)).getD
    { timestampMs := event.seenAtMs
      batteryPct := 100
      cpuPct := 0
      memoryPct := 0
      linkQuality := 1
      gpsFix := true
      temperatureC := none
      missionId := none
      status := .healthy }
  normalize
    { nodeId := event.nodeId
      health := settleStatus baseHealth
      trustScore := (existing.map (·.trustScore)).getD (1 / 2)
      reputationScore := (existing.map (·.reputationScore)).getD (1 / 2)
      rewardPoints := (existing.map (·.rewardPoints)).getD 0
      contributionCount := (existing.map (·.contributionCount)).getD 0
      successfulTasks := (existing.map (·.successfulTasks)).getD 0
      failedTasks := (existing.map (·.failedTasks)).getD 0
      lastSeenMs := event.seenAtMs
      missionId := event.missionId.or (existing.bind (·.missionId)) }

def NodeRegistry.discovery (registry : NodeRegistry) (event : NodeDiscoveryEvent) : NodeRegistry :=
  registry.put (discovered (registry.get? event.nodeId) event)

/-- A health sample with the fields of an update. -/
def mergeHealth (health : NodeHealthSample) (patch : HealthPatch) (now : ℚ) : NodeHealthSample :=
  let h := { health with
    timestampMs := patch.timestampMs.getD now
    batteryPct := patch.batteryPct.getD health.batteryPct
    cpuPct := patch.cpuPct.getD health.cpuPct
    memoryPct := patch.memoryPct.getD health.memoryPct
    linkQuality := patch.linkQuality.getD health.linkQuality
    gpsFix := patch.gpsFix.getD health.gpsFix
    temperatureC := patch.temperatureC.or health.temperatureC
    missionId := patch.missionId.or health.missionId }
  { h with status := patch.status.getD (deriveHealthStatus h) }

/-- The profile that an update of the health writes; `clock` gives the readings of the clock, in the
order in which they are made. -/
def withHealth (node : NodeProfile) (patch : HealthPatch) (clock : ℕ → ℚ) : NodeProfile :=
  let node := { node with
    health := mergeHealth node.health patch (clock 0)
    lastSeenMs := patch.timestampMs.getD (clock 1) }
  let node := { node with trustScore := trustFromHealth node }
  { node with reputationScore := reputationFromState node (clock 2) }

def NodeRegistry.updateHealth (registry : NodeRegistry) (nodeId : Str) (patch : HealthPatch)
    (clock : ℕ → ℚ) : NodeRegistry :=
  match registry.get? nodeId with
  | none => registry
  | some node => registry.put (withHealth node patch clock)

/-- The profile that an attestation writes. -/
def attested (node : NodeProfile) (attestation : PeerAttestation) : NodeProfile :=
  let node :=
    if attestation.accepted then
      { node with
        successfulTasks := node.successfulTasks + 1
        contributionCount := node.contributionCount + 1
        rewardPoints := node.rewardPoints + 2
        trustScore := clamp (node.trustScore + 3 / 100) 0 1
        reputationScore := clamp (node.reputationScore + 5 / 100) 0 1 }
    else
      { node with
        failedTasks := node.failedTasks + 1
        trustScore := clamp (node.trustScore - 4 / 100) 0 1
        reputationScore := clamp (node.reputationScore - 6 / 100) 0 1 }
  { node with lastSeenMs := attestation.timestampMs }

def NodeRegistry.addAttestation (registry : NodeRegistry) (attestation : PeerAttestation) :
    NodeRegistry :=
  match registry.get? attestation.subjectNodeId with
  | none => registry
  | some node => registry.put (attested node attestation)

/-- A report about a node.  An update of the health comes with its time, and with the readings of
the clock that it makes. -/
inductive Report
  | register (node : NodeProfile)
  | discovery (event : NodeDiscoveryEvent)
  | updateHealth (nodeId : Str) (patch : HealthPatch) (timestampMs : ℚ) (clock : ℕ → ℚ)
  | addAttestation (attestation : PeerAttestation)

namespace Report

/-- The node a report is about. -/
def nodeId : Report → Str
  | register node => node.nodeId
  | discovery event => event.nodeId
  | updateHealth nodeId _ _ _ => nodeId
  | addAttestation attestation => attestation.subjectNodeId

def timestampMs : Report → ℚ
  | register node => node.lastSeenMs
  | discovery event => event.seenAtMs
  | updateHealth _ _ timestampMs _ => timestampMs
  | addAttestation attestation => attestation.timestampMs

/-- Does a report carry health? -/
def carriesHealth : Report → Bool
  | register _ => true
  | discovery _ => false
  | updateHealth _ _ _ _ => true
  | addAttestation _ => false

end Report

/-- The registry after a report. -/
def deliver (registry : NodeRegistry) : Report → NodeRegistry
  | .register node => registry.register node
  | .discovery event => registry.discovery event
  | .updateHealth nodeId patch timestampMs clock =>
    registry.updateHealth nodeId { patch with timestampMs := some timestampMs } clock
  | .addAttestation attestation => registry.addAttestation attestation

/-- The profile that a report writes, given the one that is stored for its node. -/
def written (current : Option NodeProfile) : Report → Option NodeProfile
  | .register node =>
    if current.all fun c => node.lastSeenMs ≥ c.lastSeenMs then some (normalize node) else none
  | .discovery event => some (discovered current event)
  | .updateHealth _ patch timestampMs clock =>
    current.map fun node => withHealth node { patch with timestampMs := some timestampMs } clock
  | .addAttestation attestation => current.map fun node => attested node attestation

/-- A report writes the profile of the node it is about. -/
theorem nodeId_written {registry : NodeRegistry} {r : Report} {node : NodeProfile}
    (h : written (registry.get? r.nodeId) r = some node) : node.nodeId = r.nodeId := by
  cases r with
  | register n =>
      rw [written, Option.ite_none_right_eq_some] at h
      obtain rfl := Option.some.inj h.2
      rfl
  | discovery event =>
      obtain rfl := Option.some.inj h
      rfl
  | updateHealth nodeId patch timestampMs clock =>
      obtain ⟨current, hcurrent, rfl⟩ := Option.map_eq_some_iff.1 h
      have hid : current.nodeId = nodeId := KeyedMap.key_of_get? hcurrent
      exact hid
  | addAttestation attestation =>
      obtain ⟨current, hcurrent, rfl⟩ := Option.map_eq_some_iff.1 h
      have hid : current.nodeId = attestation.subjectNodeId := KeyedMap.key_of_get? hcurrent
      rw [attested]
      split <;> exact hid

theorem deliver_eq (registry : NodeRegistry) (r : Report) :
    deliver registry r =
      ((written (registry.get? r.nodeId) r).map registry.put).getD registry := by
  cases r with
  | register node =>
      rw [deliver, NodeRegistry.register, Report.nodeId]
      split
      · next current hcurrent =>
          rw [hcurrent, written, Option.all_some]
          by_cases h : node.lastSeenMs ≥ current.lastSeenMs
          · simp [h]
          · simp [h]
      · next hcurrent =>
          rw [hcurrent]
          rfl
  | discovery event => rfl
  | updateHealth nodeId patch timestampMs clock =>
      simp only [deliver, NodeRegistry.updateHealth, written, Report.nodeId]
      cases registry.get? nodeId <;> rfl
  | addAttestation attestation =>
      simp only [deliver, NodeRegistry.addAttestation, written, Report.nodeId]
      cases registry.get? attestation.subjectNodeId <;> rfl

/-- **A report touches the node it is about and nothing else.** -/
theorem get?_deliver (registry : NodeRegistry) (r : Report) (k : Str) :
    (deliver registry r).get? k =
      if k = r.nodeId then (written (registry.get? k) r).or (registry.get? k)
      else registry.get? k := by
  rw [deliver_eq]
  by_cases hk : k = r.nodeId
  · subst hk
    rw [if_pos rfl]
    cases hw : written (registry.get? r.nodeId) r with
    | none => rfl
    | some node => simp [KeyedMap.get?_put, nodeId_written hw]
  · rw [if_neg hk]
    cases hw : written (registry.get? r.nodeId) r with
    | none => rfl
    | some node => simp [KeyedMap.get?_put, nodeId_written hw, hk]

/-- A profile that is written bears the time of the report. -/
theorem lastSeenMs_written {current : Option NodeProfile} {r : Report} {node : NodeProfile}
    (h : written current r = some node) : node.lastSeenMs = r.timestampMs := by
  cases r with
  | register n =>
      rw [written, Option.ite_none_right_eq_some] at h
      obtain rfl := Option.some.inj h.2
      rfl
  | discovery event =>
      obtain rfl := Option.some.inj h
      rfl
  | updateHealth nodeId patch timestampMs clock =>
      obtain ⟨current, -, rfl⟩ := Option.map_eq_some_iff.1 h
      rfl
  | addAttestation attestation =>
      obtain ⟨current, -, rfl⟩ := Option.map_eq_some_iff.1 h
      rfl

/-- **A discovery keeps the health of a node that is known**, up to bringing it into range. -/
theorem normalizeHealth_discovered (node : NodeProfile) (event : NodeDiscoveryEvent) :
    normalizeHealth (discovered (some node) event).health = normalizeHealth node.health := by
  rw [discovered, health_normalize, normalizeHealth_normalizeHealth]
  exact normalizeHealth_settleStatus node.health

/-- A report that carries no health keeps the one that is stored, up to bringing it into range. -/
theorem normalizeHealth_written {node node' : NodeProfile} {r : Report}
    (h : written (some node) r = some node') (hr : r.carriesHealth = false) :
    normalizeHealth node'.health = normalizeHealth node.health := by
  cases r with
  | register n => cases hr
  | discovery event =>
      obtain rfl := Option.some.inj h
      exact normalizeHealth_discovered node event
  | updateHealth nodeId patch timestampMs clock => cases hr
  | addAttestation attestation =>
      obtain rfl := Option.some.inj h
      have hhealth : (attested node attestation).health = node.health := by
        unfold attested
        split <;> rfl
      rw [hhealth]

end Lattice
