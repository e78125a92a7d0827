/-
**Which values of the registry stay in range.**

Registrations, discoveries, settlements and penalties bring a profile into range before they store
it, and attestations clamp the scores they change.  An update of the health clamps the scores that
it derives too, but it stores the health as it was reported.  So the scores are always in range, and
the health is so as long as the updates are.

Main definitions:

* `Lattice.NodeRegistry.updateCapability` — a new capability profile, after which the scores are
  computed anew;
* `Lattice.RegistryOp`, `Lattice.registryStep` — the calls that write profiles;
* `Lattice.InRange`, `Lattice.RegistryInRange` — the ranges;
* `Lattice.PatchInRange` — what an update reports of a registered node is in range.

Main results:

* `Lattice.scores_inRange` — the scores are in range in every run;
* `Lattice.registry_inRange_iff` — **the registry is in range all along a run exactly if all updates
  of the health are**;
* `Lattice.overcharged_battery` — an update that reports a battery at 150 per cent.
-/
import Endendend.Lattice.RewardBooks

set_option relaxedAutoImplicit false
set_option autoImplicit false

namespace Lattice

open Js Runs

/-! ### Calls -/

/-- A new capability profile.  Only the scores that are computed anew are modelled; `now` is the
reading of the clock. -/
def NodeRegistry.updateCapability (registry : NodeRegistry) (nodeId : Str) (now : ℚ) :
    NodeRegistry :=
  match registry.get? nodeId with
  | none => registry
  | some node =>
    let node := { node with trustScore := trustFromHealth node }
    registry.put { node with reputationScore := reputationFromState node now }

/-- The calls that write profiles, and those on rewards. -/
inductive RegistryOp
  | register (node : NodeProfile)
  | discovery (event : NodeDiscoveryEvent)
  | updateHealth (nodeId : Str) (patch : HealthPatch) (clock : ℕ → ℚ)
  | updateCapability (nodeId : Str) (now : ℚ)
  | addAttestation (attestation : PeerAttestation)
  | reward (op : RewardOp)

def RegistryOp.apply (s : LatticeRewardSystem) : RegistryOp → LatticeRewardSystem
  | register node => { s with registry := s.registry.register node }
  | discovery event => { s with registry := s.registry.discovery event }
  | updateHealth nodeId patch clock =>
    { s with registry := s.registry.updateHealth nodeId patch clock }
  | updateCapability nodeId now => { s with registry := s.registry.updateCapability nodeId now }
  | addAttestation attestation => { s with registry := s.registry.addAttestation attestation }
  | reward op => op.apply s

def registryStep (s : LatticeRewardSystem) (op : RegistryOp) : Option LatticeRewardSystem :=
  some (op.apply s)

/-! ### Ranges -/

def Between (lo hi v : ℚ) : Prop := lo ≤ v ∧ v ≤ hi

structure HealthInRange (h : NodeHealthSample) : Prop where
  batteryPct : Between 0 100 h.batteryPct
  cpuPct : Between 0 100 h.cpuPct
  memoryPct : Between 0 100 h.memoryPct
  linkQuality : Between 0 1 h.linkQuality

structure ScoresInRange (node : NodeProfile) : Prop where
  trustScore : Between 0 1 node.trustScore
  reputationScore : Between 0 1 node.reputationScore

/-- The scores and the health of a profile are in range. -/
structure InRange (node : NodeProfile) : Prop extends ScoresInRange node where
  health : HealthInRange node.health

/-- Every stored profile meets a condition. -/
def AllStored (P : NodeProfile → Prop) (registry : NodeRegistry) : Prop :=
  ∀ k node, registry.get? k = some node → P node

def RegistryInRange (s : LatticeRewardSystem) : Prop := AllStored InRange s.registry

/-- The numbers that an update brings are in range. -/
structure HealthPatch.InRange (patch : HealthPatch) : Prop where
  batteryPct : ∀ v ∈ patch.batteryPct, Between 0 100 v
  cpuPct : ∀ v ∈ patch.cpuPct, Between 0 100 v
  memoryPct : ∀ v ∈ patch.memoryPct, Between 0 100 v
  linkQuality : ∀ v ∈ patch.linkQuality, Between 0 1 v

/-- An update of the health of a registered node is in range. -/
def PatchInRange (s : LatticeRewardSystem) : RegistryOp → Prop
  | .updateHealth nodeId patch _ => (s.registry.get? nodeId).isSome → patch.InRange
  | _ => True

theorem between_clamp {lo hi : ℚ} (h : lo ≤ hi) (v : ℚ) : Between lo hi (clamp v lo hi) :=
  ⟨le_max_left lo _, max_le h (min_le_left hi v)⟩

theorem between_getD {lo hi old : ℚ} (h : Between lo hi old) (new : Option ℚ) :
    Between lo hi (new.getD old) ↔ ∀ v ∈ new, Between lo hi v := by
  cases new <;> simp [h]

/-! ### Profiles -/

theorem inRange_normalize (node : NodeProfile) : InRange (normalize node) where
  trustScore := between_clamp zero_le_one _
  reputationScore := between_clamp zero_le_one _
  health :=
    { batteryPct := between_clamp (by norm_num) _
      cpuPct := between_clamp (by norm_num) _
      memoryPct := between_clamp (by norm_num) _
      linkQuality := between_clamp zero_le_one _ }

/-- A profile with the scores of a node that reports its health. -/
theorem scoresInRange_rescored (node : NodeProfile) (now : ℚ) :
    let node := { node with trustScore := trustFromHealth node }
    ScoresInRange { node with reputationScore := reputationFromState node now } where
  trustScore := between_clamp zero_le_one _
  reputationScore := between_clamp zero_le_one _

theorem scoresInRange_attested (node : NodeProfile) (attestation : PeerAttestation) :
    ScoresInRange (attested node attestation) := by
  unfold attested
  split <;> exact ⟨between_clamp zero_le_one _, between_clamp zero_le_one _⟩

theorem health_attested (node : NodeProfile) (attestation : PeerAttestation) :
    (attested node attestation).health = node.health := by
  unfold attested
  split <;> rfl

/-- The health after an update is in range exactly if the update is. -/
theorem healthInRange_mergeHealth {h : NodeHealthSample} (hh : HealthInRange h)
    (patch : HealthPatch) (now : ℚ) :
    HealthInRange (mergeHealth h patch now) ↔ patch.InRange := by
  constructor
  · intro hm
    exact
      ⟨(between_getD hh.batteryPct _).1 hm.batteryPct, (between_getD hh.cpuPct _).1 hm.cpuPct,
        (between_getD hh.memoryPct _).1 hm.memoryPct,
        (between_getD hh.linkQuality _).1 hm.linkQuality⟩
  · intro hp
    exact
      ⟨(between_getD hh.batteryPct _).2 hp.batteryPct, (between_getD hh.cpuPct _).2 hp.cpuPct,
        (between_getD hh.memoryPct _).2 hp.memoryPct,
        (between_getD hh.linkQuality _).2 hp.linkQuality⟩

/-! ### Calls keep what they store -/

variable {P : NodeProfile → Prop} {s : LatticeRewardSystem}

theorem AllStored.put {registry : NodeRegistry} (h : AllStored P registry) {node : NodeProfile}
    (hnode : P node) : AllStored P (registry.put node) := by
  intro k node' hk
  rw [KeyedMap.get?_put] at hk
  split at hk
  · exact Option.some.inj hk ▸ hnode
  · exact h k node' hk

theorem AllStored.settleContribution (hnormal : ∀ node, P (normalize node))
    (h : AllStored P s.registry) (r : SettleRequest) :
    AllStored P (Lattice.settleContribution s r).1.registry := by
  unfold Lattice.settleContribution
  cases findContribution s.tracker r.eventId with
  | none => exact h
  | some c =>
      dsimp only
      split
      · exact h
      · exact h.put (hnormal _)

theorem AllStored.settleContributions (hnormal : ∀ node, P (normalize node))
    (h : AllStored P s.registry) (rs : List SettleRequest) :
    AllStored P (Lattice.settleContributions s rs).1.registry := by
  induction rs generalizing s with
  | nil => exact h
  | cons r rs ih => exact ih (h.settleContribution hnormal r)

theorem AllStored.applyPenalty (hnormal : ∀ node, P (normalize node))
    (h : AllStored P s.registry) (nodeId reason : Str) (amount : ℚ) (rewardId : Str) (now : ℚ) :
    AllStored P (Lattice.applyPenalty s nodeId reason amount rewardId now).1.registry := by
  unfold Lattice.applyPenalty
  cases s.registry.get? nodeId with
  | none => exact h
  | some node => exact h.put (hnormal _)

theorem AllStored.rewardOp (hnormal : ∀ node, P (normalize node)) (h : AllStored P s.registry)
    (op : RewardOp) : AllStored P (op.apply s).registry := by
  cases op with
  | recordContribution event => exact h
  | settleContribution r => exact h.settleContribution hnormal r
  | settleContributions rs => exact h.settleContributions hnormal rs
  | applyPenalty nodeId reason amount rewardId now =>
      exact h.applyPenalty hnormal nodeId reason amount rewardId now

theorem AllStored.register (hnormal : ∀ node, P (normalize node)) {registry : NodeRegistry}
    (h : AllStored P registry) (node : NodeProfile) : AllStored P (registry.register node) := by
  unfold NodeRegistry.register
  split
  · split
    · exact h.put (hnormal node)
    · exact h
  · exact h.put (hnormal node)

/-- A call keeps a condition on the stored profiles that holds of every profile brought into range
and that the updates in place keep. -/
theorem allStored_apply (hnormal : ∀ node, P (normalize node))
    (hattested : ∀ node attestation, P node → P (attested node attestation))
    (hrescored : ∀ (node : NodeProfile) now, P node →
      let node := { node with trustScore := trustFromHealth node }
      P { node with reputationScore := reputationFromState node now })
    (h : AllStored P s.registry) (op : RegistryOp)
    (hhealth : ∀ nodeId patch clock node, op = .updateHealth nodeId patch clock →
      s.registry.get? nodeId = some node → P (withHealth node patch clock)) :
    AllStored P (op.apply s).registry := by
  cases op with
  | register node => exact h.register hnormal node
  | discovery event => exact h.put (hnormal _)
  | updateHealth nodeId patch clock =>
      simp only [RegistryOp.apply, NodeRegistry.updateHealth]
      split
      · exact h
      · next node hnode => exact h.put (hhealth nodeId patch clock node rfl hnode)
  | updateCapability nodeId now =>
      simp only [RegistryOp.apply, NodeRegistry.updateCapability]
      split
      · exact h
      · next node hnode => exact h.put (hrescored node now (h nodeId node hnode))
  | addAttestation attestation =>
      simp only [RegistryOp.apply, NodeRegistry.addAttestation]
      split
      · exact h
      · next node hnode => exact h.put (hattested node attestation (h _ node hnode))
  | reward op => exact h.rewardOp hnormal op

/-- **The scores are in range in every run.** -/
theorem scores_inRange {multipliers : RewardKind → Option ℚ}
    {proofs : KeyedMap ValidationProof.proofId} {ops : List RegistryOp}
    (hrun : run registryStep (.new multipliers proofs ∅) ops = some s) :
    AllStored ScoresInRange s.registry := by
  refine @invariant_of_run _ _ registryStep (fun s => AllStored ScoresInRange s.registry)
    (fun s op s' h hstep => ?_) _ _ _
    (fun k node hnode => absurd hnode (by simp [LatticeRewardSystem.new])) hrun
  obtain rfl := Option.some.inj hstep
  refine allStored_apply (fun node => (inRange_normalize node).toScoresInRange)
    (fun node attestation _ => scoresInRange_attested node attestation)
    (fun node now _ => scoresInRange_rescored node now) h op ?_
  intro nodeId patch clock node _ _
  exact scoresInRange_rescored _ _

/-! ### The health -/

/-- An update leaves the registry in range exactly if what it brings is in range. -/
theorem inRange_withHealth {node : NodeProfile} (h : InRange node) (patch : HealthPatch)
    (clock : ℕ → ℚ) : InRange (withHealth node patch clock) ↔ patch.InRange := by
  have hhealth := healthInRange_mergeHealth h.health patch (clock 0)
  exact ⟨fun hw => hhealth.1 hw.health,
    fun hp => ⟨scoresInRange_rescored _ _, hhealth.2 hp⟩⟩

/-- **A call leaves the registry in range exactly if what it reports of a registered node is.** -/
theorem registryInRange_apply_iff (h : RegistryInRange s) (op : RegistryOp) :
    RegistryInRange (op.apply s) ↔ PatchInRange s op := by
  constructor
  · intro hs
    cases op with
    | updateHealth nodeId patch clock =>
        intro hknown
        obtain ⟨node, hnode⟩ := Option.isSome_iff_exists.1 hknown
        have hid : node.nodeId = nodeId := KeyedMap.key_of_get? hnode
        refine (inRange_withHealth (h nodeId node hnode) patch clock).1 (hs nodeId _ ?_)
        simp only [RegistryOp.apply, NodeRegistry.updateHealth, hnode]
        rw [KeyedMap.get?_put]
        exact if_pos hid.symm
    | register node => trivial
    | discovery event => trivial
    | updateCapability nodeId now => trivial
    | addAttestation attestation => trivial
    | reward op => trivial
  · intro hop
    refine allStored_apply inRange_normalize
      (fun node attestation hnode => ⟨scoresInRange_attested node attestation, ?_⟩)
      (fun node now hnode => ⟨scoresInRange_rescored node now, hnode.health⟩) h op ?_
    · rw [health_attested]
      exact hnode.health
    · rintro nodeId patch clock node rfl hnode
      exact (inRange_withHealth (h nodeId node hnode) patch clock).2
        (hop (Option.isSome_iff_exists.2 ⟨node, hnode⟩))

/-- **The registry is in range all along a run exactly if all updates of the health are.** -/
theorem registry_inRange_iff {multipliers : RewardKind → Option ℚ}
    {proofs : KeyedMap ValidationProof.proofId} {ops : List RegistryOp} :
    (∀ pre t, pre <+: ops → run registryStep (.new multipliers proofs ∅) pre = some t →
        RegistryInRange t) ↔
      Along registryStep PatchInRange (.new multipliers proofs ∅) ops := by
  have hstart : RegistryInRange (.new multipliers proofs ∅) := by
    intro k node hnode
    exact absurd hnode (by simp [LatticeRewardSystem.new])
  refine (always_iff_along fun s op h => ?_).trans (and_iff_right hstart)
  rw [← registryInRange_apply_iff h op]
  exact ⟨fun hs s' hs' => Option.some.inj hs' ▸ hs, fun hs => hs _ rfl⟩

/-- **An update that reports a battery at 150 per cent is stored as it is.** -/
theorem overcharged_battery :
    ∃ s, run registryStep emptySystem
        [.register newNode, .updateHealth "n1" { batteryPct := some 150 } fun _ => 1] = some s ∧
      (s.registry.get? "n1").map (·.health.batteryPct) = some 150 ∧ ¬ RegistryInRange s := by
  refine ⟨_, rfl, by decide +kernel, fun h => ?_⟩
  have hstored := h "n1" _ rfl
  exact absurd hstored.health.batteryPct.2 (by decide +kernel)

end Lattice
