/-
**Discovering targets** (`swarm/targetDiscovery.ts`).

Sightings of the sensors and notes of the operator are collected into candidates: a sighting goes to
the first candidate whose anchor is within one cell of it, or to a new one that is anchored there.
A sighting that makes its candidate trusted enough promotes it.

Main definitions:

* `Discovery.TargetEvidence`, `Discovery.TargetCandidate` — the records;
* `Discovery.scenarioSensorWeight` — how much a sensor is trusted in a scenario;
* `Discovery.TargetDiscoveryPipeline` with `findOrCreateCandidate`, `addEvidence` and
  `injectOperatorNote`.

Main results:

* `Discovery.TargetDiscoveryPipeline.findOrCreateCandidate_cases` — a candidate near the cell, or a
  new one;
* `Discovery.PipelineOp.get?_apply` — **what one call does to each candidate**.
-/
import Endendend.Foundation.Fixed
import Endendend.FoxMq.SharedMap
import Endendend.Vertex.BidScorer
import Endendend.Vertex.Replay

set_option relaxedAutoImplicit false
set_option autoImplicit false

namespace Discovery

open Js Vertex

/-! ### Records -/

inductive SensorEvidenceKind
  | thermal
  | optical
  | ir
  | audio
  | gas
  | lidar_shape
  | operator_note
  | peer_confirm
  | replay_artifact
  deriving DecidableEq

/-- The name of a sensor. -/
def SensorEvidenceKind.text : SensorEvidenceKind → Str
  | .thermal => "thermal"
  | .optical => "optical"
  | .ir => "ir"
  | .audio => "audio"
  | .gas => "gas"
  | .lidar_shape => "lidar_shape"
  | .operator_note => "operator_note"
  | .peer_confirm => "peer_confirm"
  | .replay_artifact => "replay_artifact"

structure TargetEvidence where
  id : Str
  sensor : SensorEvidenceKind
  confidence01 : ℚ
  nodeId : Str
  atMs : ℚ
  note : Option Str
  deriving DecidableEq

inductive CandidateStatus
  | candidate
  | confirmed
  deriving DecidableEq

structure TargetCandidate where
  candidateId : Str
  missionId : Str
  gx : ℚ
  gz : ℚ
  world : Position
  evidence : List TargetEvidence
  mergedConfidence01 : ℚ
  status : CandidateStatus
  confirmedByNodeId : Option Str
  trustExplanation : List Str
  deriving DecidableEq

/-- How much a sensor is trusted in a scenario. -/
def scenarioSensorWeight (scenario : MissionScenarioKind) (sensor : SensorEvidenceKind) : ℚ :=
  let thermal := scenario = .wildfire ∨ scenario = .nightMission ∨
    scenario = .triageOperation ∨ scenario = .floodRescue
  let gas := scenario = .hazmat ∨ scenario = .collapsedBuilding
  let lidar := scenario = .tunnel ∨ scenario = .indoorSearch
  if sensor = .thermal ∧ thermal then 115 / 100
  else if sensor = .gas ∧ gas then 12 / 10
  else if sensor = .lidar_shape ∧ lidar then 112 / 100
  else if sensor = .peer_confirm then 125 / 100
  else if sensor = .operator_note then 11 / 10
  else 1

/-! ### Candidates -/

namespace TargetCandidate

/-- The nodes that a candidate has evidence of. -/
def distinctNodes (c : TargetCandidate) : List Str := uniq (c.evidence.map (·.nodeId))

/-- The cell is at most one away from the anchor. -/
def isNear (c : TargetCandidate) (gx gz : ℚ) : Bool :=
  decide (|c.gx - gx| ≤ 1 ∧ |c.gz - gz| ≤ 1)

/-- Two nodes have seen a target, or the confidence in it is high. -/
def isCorroborated (c : TargetCandidate) : Bool :=
  decide (82 / 100 ≤ c.mergedConfidence01 ∨ 2 ≤ c.distinctNodes.length)

/-- A candidate with one more piece of evidence, whose weight is `w`. -/
def withSighting (c : TargetCandidate) (ev : TargetEvidence) (w : ℚ) : TargetCandidate :=
  let evidence := c.evidence ++ [ev]
  let distinctNodes := uniq (evidence.map (·.nodeId))
  let agg := (evidence.map (·.confidence01)).sum / max 1 (evidence.length : ℚ)
  let corroboration : ℚ := if 2 ≤ distinctNodes.length then 18 / 100 else 0
  { c with
    evidence
    mergedConfidence01 := min 1 (agg + corroboration)
    trustExplanation := [lit "sources=" ++ (Decimal.ofInt distinctNodes.length).toStr,
      lit "sensors=" ++ (lit ",").intercalate ((uniq (evidence.map (·.sensor))).map (·.text)),
      lit "scenario_weight=" ++ toFixed 2 w] }

/-- A sighting of a node, and whether it promotes the candidate. -/
def withEvidence (c : TargetCandidate) (ev : TargetEvidence) (w : ℚ) : TargetCandidate × Bool :=
  let c := c.withSighting ev w
  if c.status = .candidate ∧ c.isCorroborated then
    ({ c with
      status := .confirmed
      confirmedByNodeId := some ((c.distinctNodes.find? (· ≠ ev.nodeId)).getD ev.nodeId) }, true)
  else (c, false)

/-- Promoted or not, the sighting itself is taken in the same way. -/
theorem withEvidence_cases (c : TargetCandidate) (ev : TargetEvidence) (w : ℚ) :
    (c.status = .candidate ∧ (c.withSighting ev w).isCorroborated ∧
      ∃ nodeId, c.withEvidence ev w =
        ({ c.withSighting ev w with
          status := .confirmed
          confirmedByNodeId := some nodeId }, true)) ∨
    (¬ (c.status = .candidate ∧ (c.withSighting ev w).isCorroborated) ∧
      c.withEvidence ev w = (c.withSighting ev w, false)) := by
  have hstatus : (c.withSighting ev w).status = c.status := rfl
  unfold withEvidence
  dsimp only
  rw [hstatus]
  split
  · next h => exact Or.inl ⟨h.1, h.2, _, rfl⟩
  · next h => exact Or.inr ⟨h, rfl⟩

/-- A candidate with a note of the operator. -/
def withNote (c : TargetCandidate) (ev : TargetEvidence) : TargetCandidate :=
  { c with
    evidence := c.evidence ++ [ev]
    mergedConfidence01 := min 1 (c.mergedConfidence01 + 2 / 10)
    trustExplanation := c.trustExplanation ++ [lit "operator_note_injected"] }

end TargetCandidate

/-! ### The pipeline -/

/-- The candidates under their ids, and the numbers of the next candidate and evidence. -/
structure TargetDiscoveryPipeline where
  candidates : KeyedMap TargetCandidate.candidateId
  serial : ℕ
  evidenceSerial : ℕ

/-- The arguments of `addEvidence`. -/
structure EvidenceArgs where
  missionId : Str
  node : SwarmAgentNode
  sensor : SensorEvidenceKind
  confidence01 : ℚ
  nowMs : ℚ
  scenario : MissionScenarioKind
  note : Option Str

def candidateIdOf (serial : ℕ) : Str := lit "tgt-" ++ (Decimal.ofInt serial).toStr

def evidenceIdOf (serial : ℕ) : Str := lit "ev-" ++ (Decimal.ofInt serial).toStr

theorem candidateIdOf_injective : Function.Injective candidateIdOf := fun _ _ h =>
  Int.ofNat.inj (Decimal.ofInt_injective (Decimal.toStr_injective (List.append_cancel_left h)))

theorem evidenceIdOf_injective : Function.Injective evidenceIdOf := fun _ _ h =>
  Int.ofNat.inj (Decimal.ofInt_injective (Decimal.toStr_injective (List.append_cancel_left h)))

namespace TargetDiscoveryPipeline

def new : TargetDiscoveryPipeline := ⟨∅, 1, 1⟩

def nextCandidateId (p : TargetDiscoveryPipeline) : Str × TargetDiscoveryPipeline :=
  (candidateIdOf p.serial, { p with serial := p.serial + 1 })

def nextEvidenceId (p : TargetDiscoveryPipeline) : Str × TargetDiscoveryPipeline :=
  (evidenceIdOf p.evidenceSerial, { p with evidenceSerial := p.evidenceSerial + 1 })

def getCandidates (p : TargetDiscoveryPipeline) : List TargetCandidate := p.candidates.values

/-- Stores a candidate; a change of the one that is stored shows in the map. -/
def store (p : TargetDiscoveryPipeline) (c : TargetCandidate) : TargetDiscoveryPipeline :=
  { p with candidates := p.candidates.put c }

/-- A candidate without evidence. -/
def newCandidate (id missionId : Str) (gx gz : ℚ) (world : Position) : TargetCandidate where
  candidateId := id
  missionId
  gx
  gz
  world
  evidence := []
  mergedConfidence01 := 0
  status := .candidate
  confirmedByNodeId := none
  trustExplanation := []

/-- The first candidate near the cell, or a new one. -/
def findOrCreateCandidate (p : TargetDiscoveryPipeline) (missionId : Str) (gx gz : ℚ)
    (world : Position) : TargetCandidate × TargetDiscoveryPipeline :=
  match p.getCandidates.find? (·.isNear gx gz) with
  | some c => (c, p)
  | none =>
    let (id, p) := p.nextCandidateId
    let cand := newCandidate id missionId gx gz world
    (cand, p.store cand)

/-- Adds a sighting; the second part is the candidate and whether it was promoted. -/
def addEvidence (p : TargetDiscoveryPipeline) (args : EvidenceArgs) :
    TargetDiscoveryPipeline × TargetCandidate × Bool :=
  let g := FoxMq.MonotonicSharedMap.worldToGrid args.node.position.x args.node.position.z
  let w := scenarioSensorWeight args.scenario args.sensor
  let (id, p) := p.nextEvidenceId
  let ev : TargetEvidence :=
    { id, sensor := args.sensor, confidence01 := min 1 (args.confidence01 * w)
      nodeId := args.node.nodeId, atMs := args.nowMs, note := args.note }
  let (cand, p) := p.findOrCreateCandidate args.missionId g.1.val g.2.val args.node.position
  let (cand, promoted) := cand.withEvidence ev w
  (p.store cand, cand, promoted)

/-- Adds a note of the operator. -/
def injectOperatorNote (p : TargetDiscoveryPipeline) (missionId : Str) (gx gz : ℚ)
    (world : Position) (nowMs : ℚ) : TargetDiscoveryPipeline × TargetCandidate :=
  let (cand, p) := p.findOrCreateCandidate missionId gx gz world
  let (id, p) := p.nextEvidenceId
  let ev : TargetEvidence :=
    { id, sensor := .operator_note, confidence01 := 75 / 100, nodeId := "operator"
      atMs := nowMs, note := some "manual_inject" }
  let cand := cand.withNote ev
  (p.store cand, cand)

/-- The candidates that are confirmed. -/
def confirmedTargets (p : TargetDiscoveryPipeline) : List TargetCandidate :=
  p.getCandidates.filter fun c => c.status = .confirmed

/-- A candidate near the cell that is stored, or a new one where none is near. -/
theorem findOrCreateCandidate_cases (p : TargetDiscoveryPipeline) (missionId : Str) (gx gz : ℚ)
    (world : Position) :
    (∃ c ∈ p.getCandidates, c.isNear gx gz ∧
      p.findOrCreateCandidate missionId gx gz world = (c, p)) ∨
    ((∀ c ∈ p.getCandidates, ¬ c.isNear gx gz) ∧
      p.findOrCreateCandidate missionId gx gz world =
        (newCandidate (candidateIdOf p.serial) missionId gx gz world,
          { p with
            candidates :=
              p.candidates.put (newCandidate (candidateIdOf p.serial) missionId gx gz world)
            serial := p.serial + 1 })) := by
  unfold findOrCreateCandidate
  cases h : p.getCandidates.find? (·.isNear gx gz) with
  | some c => exact Or.inl ⟨c, List.mem_of_find?_eq_some h, by simpa using List.find?_some h, rfl⟩
  | none => exact Or.inr ⟨fun c hc => by simpa using List.find?_eq_none.1 h c hc, rfl⟩

@[simp] theorem evidenceSerial_findOrCreateCandidate (p : TargetDiscoveryPipeline)
    (missionId : Str) (gx gz : ℚ) (world : Position) :
    (p.findOrCreateCandidate missionId gx gz world).2.evidenceSerial = p.evidenceSerial := by
  rcases p.findOrCreateCandidate_cases missionId gx gz world with ⟨c, -, -, h⟩ | ⟨-, h⟩
  · rw [h]
  · rw [h]

/-- The number of the next evidence does not matter for the candidate. -/
theorem findOrCreateCandidate_numbered (p : TargetDiscoveryPipeline) (n : ℕ) (missionId : Str)
    (gx gz : ℚ) (world : Position) :
    findOrCreateCandidate { p with evidenceSerial := n } missionId gx gz world =
      ((p.findOrCreateCandidate missionId gx gz world).1,
        { (p.findOrCreateCandidate missionId gx gz world).2 with evidenceSerial := n }) := by
  have hsame : getCandidates { p with evidenceSerial := n } = p.getCandidates := rfl
  unfold findOrCreateCandidate
  rw [hsame]
  cases p.getCandidates.find? (·.isNear gx gz) <;> rfl

end TargetDiscoveryPipeline

/-! ### Calls -/

inductive PipelineOp
  | addEvidence (args : EvidenceArgs)
  | injectOperatorNote (missionId : Str) (gx gz : ℚ) (world : Position) (nowMs : ℚ)

namespace PipelineOp

open TargetDiscoveryPipeline

/-- The pipeline after a call. -/
def apply (p : TargetDiscoveryPipeline) : PipelineOp → TargetDiscoveryPipeline
  | addEvidence args => (p.addEvidence args).1
  | injectOperatorNote missionId gx gz world nowMs =>
    (p.injectOperatorNote missionId gx gz world nowMs).1

/-- The cell of a call. -/
def cell : PipelineOp → ℚ × ℚ
  | addEvidence args =>
    let g := FoxMq.MonotonicSharedMap.worldToGrid args.node.position.x args.node.position.z
    (g.1.val, g.2.val)
  | injectOperatorNote _ gx gz _ _ => (gx, gz)

/-- The evidence that a call adds, under its number. -/
def evidence (serial : ℕ) : PipelineOp → TargetEvidence
  | addEvidence args =>
    { id := evidenceIdOf serial, sensor := args.sensor
      confidence01 := min 1 (args.confidence01 * scenarioSensorWeight args.scenario args.sensor)
      nodeId := args.node.nodeId, atMs := args.nowMs, note := args.note }
  | injectOperatorNote _ _ _ _ nowMs =>
    { id := evidenceIdOf serial, sensor := .operator_note, confidence01 := 75 / 100
      nodeId := "operator", atMs := nowMs, note := some "manual_inject" }

def missionId : PipelineOp → Str
  | addEvidence args => args.missionId
  | injectOperatorNote missionId _ _ _ _ => missionId

/-- Where a call was made. -/
def world : PipelineOp → Position
  | addEvidence args => args.node.position
  | injectOperatorNote _ _ _ world _ => world

/-- The candidate that a call creates where none is near. -/
def created (p : TargetDiscoveryPipeline) (op : PipelineOp) : TargetCandidate :=
  newCandidate (candidateIdOf p.serial) op.missionId op.cell.1 op.cell.2 op.world

/-- The candidate that a call finds or creates. -/
def target (p : TargetDiscoveryPipeline) (op : PipelineOp) : TargetCandidate :=
  (p.findOrCreateCandidate op.missionId op.cell.1 op.cell.2 op.world).1

/-- What a call makes of its candidate. -/
def attach (c : TargetCandidate) (serial : ℕ) : PipelineOp → TargetCandidate
  | op@(addEvidence args) =>
    (c.withEvidence (op.evidence serial) (scenarioSensorWeight args.scenario args.sensor)).1
  | op@(injectOperatorNote ..) => c.withNote (op.evidence serial)

theorem evidence_id (serial : ℕ) (op : PipelineOp) :
    (op.evidence serial).id = evidenceIdOf serial := by
  cases op <;> rfl

/-- A call leaves the id and the anchor of its candidate, and adds its evidence at the end. -/
theorem attach_frame (c : TargetCandidate) (serial : ℕ) (op : PipelineOp) :
    (op.attach c serial).candidateId = c.candidateId ∧ (op.attach c serial).gx = c.gx ∧
      (op.attach c serial).gz = c.gz ∧
      (op.attach c serial).evidence = c.evidence ++ [op.evidence serial] := by
  cases op with
  | addEvidence args =>
      rw [attach]
      rcases c.withEvidence_cases ((addEvidence args).evidence serial)
          (scenarioSensorWeight args.scenario args.sensor) with ⟨-, -, nodeId, h⟩ | ⟨-, h⟩
      · rw [h]
        exact ⟨rfl, rfl, rfl, rfl⟩
      · rw [h]
        exact ⟨rfl, rfl, rfl, rfl⟩
  | injectOperatorNote => exact ⟨rfl, rfl, rfl, rfl⟩

@[simp] theorem attach_candidateId (c : TargetCandidate) (serial : ℕ) (op : PipelineOp) :
    (op.attach c serial).candidateId = c.candidateId :=
  (attach_frame c serial op).1

/-- A candidate stays confirmed. -/
theorem attach_confirmed {c : TargetCandidate} (h : c.status = .confirmed) (serial : ℕ)
    (op : PipelineOp) : (op.attach c serial).status = .confirmed := by
  cases op with
  | addEvidence args =>
      rw [attach]
      rcases c.withEvidence_cases ((addEvidence args).evidence serial)
          (scenarioSensorWeight args.scenario args.sensor) with ⟨-, -, nodeId, hc⟩ | ⟨-, hc⟩
      · rw [hc]
      · rw [hc]
        exact h
  | injectOperatorNote => exact h

/-- A call finds or creates its candidate, and stores what it makes of it. -/
theorem apply_eq (p : TargetDiscoveryPipeline) (op : PipelineOp) :
    let found := p.findOrCreateCandidate op.missionId op.cell.1 op.cell.2 op.world
    op.apply p =
      { found.2 with
        candidates := found.2.candidates.put (op.attach found.1 p.evidenceSerial)
        evidenceSerial := p.evidenceSerial + 1 } := by
  dsimp only
  cases op with
  | addEvidence args =>
      -- the number of the evidence is taken before the candidate is looked for
      rw [apply, TargetDiscoveryPipeline.addEvidence]
      simp only [nextEvidenceId, findOrCreateCandidate_numbered]
      rfl
  | injectOperatorNote missionId gx gz world nowMs =>
      rw [apply, TargetDiscoveryPipeline.injectOperatorNote]
      simp only [nextEvidenceId, evidenceSerial_findOrCreateCandidate]
      rfl

/-- A sighting reports what it made of its candidate. -/
theorem addEvidence_snd (p : TargetDiscoveryPipeline) (args : EvidenceArgs) :
    (p.addEvidence args).2 =
      ((addEvidence args).target p).withEvidence ((addEvidence args).evidence p.evidenceSerial)
        (scenarioSensorWeight args.scenario args.sensor) := by
  rw [TargetDiscoveryPipeline.addEvidence]
  simp only [nextEvidenceId, findOrCreateCandidate_numbered]
  rfl

theorem target_eq (p : TargetDiscoveryPipeline) (op : PipelineOp) :
    op.target p =
      (p.getCandidates.find? (·.isNear op.cell.1 op.cell.2)).getD (op.created p) := by
  rw [target, findOrCreateCandidate]
  cases p.getCandidates.find? (·.isNear op.cell.1 op.cell.2) <;> rfl

/-- The candidate of a call is a stored one near the cell, or a new one where none is near. -/
theorem target_cases (p : TargetDiscoveryPipeline) (op : PipelineOp) :
    (p.candidates.get? (op.target p).candidateId = some (op.target p) ∧
      (op.target p).isNear op.cell.1 op.cell.2 ∧ (op.apply p).serial = p.serial) ∨
    ((∀ c ∈ p.getCandidates, ¬ c.isNear op.cell.1 op.cell.2) ∧ op.target p = op.created p ∧
      (op.apply p).serial = p.serial + 1) := by
  rw [apply_eq, target]
  rcases p.findOrCreateCandidate_cases op.missionId op.cell.1 op.cell.2 op.world with
    ⟨c, hc, hnear, hfind⟩ | ⟨hnone, hfind⟩
  · rw [hfind]
    exact Or.inl ⟨KeyedMap.mem_values_iff.1 hc, hnear, rfl⟩
  · rw [hfind]
    exact Or.inr ⟨hnone, rfl, rfl⟩

/-- **What one call does to each candidate.** -/
theorem get?_apply (p : TargetDiscoveryPipeline) (op : PipelineOp) (id : Str) :
    (op.apply p).candidates.get? id =
      if id = (op.target p).candidateId then some (op.attach (op.target p) p.evidenceSerial)
      else p.candidates.get? id := by
  rw [apply_eq, target]
  rcases p.findOrCreateCandidate_cases op.missionId op.cell.1 op.cell.2 op.world with
    ⟨c, -, -, hfind⟩ | ⟨-, hfind⟩
  · simp only [hfind, KeyedMap.get?_put, attach_candidateId]
  · simp only [hfind, KeyedMap.get?_put, attach_candidateId]
    split
    · rfl
    · rfl

end PipelineOp

end Discovery
