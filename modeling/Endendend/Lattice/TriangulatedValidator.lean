/-
**The quorum of witnesses** (`TriangulatedValidator` of `lattice/lattice-reward-stack.ts`).

A proof names its witnesses and is accepted once enough of them have attested to it.  The validator
counts attestations, so a witness that attests twice counts twice.

Main definitions:

* `Lattice.TriangulatedValidator` with `createProof`, `ingestProof`, `addAttestation` and
  `evaluate`;
* `Lattice.ProofOp` — what happens between two attestations;
* `Lattice.Triangulated` — enough distinct witnesses agree, and none disagrees;
* `Lattice.SoundEvaluation` — an accepted proof is triangulated;
* `Lattice.NoRepeat` — the condition on the attestations;
* `Lattice.ValidatorOp`, `Lattice.validatorAfter` — the runs of the validator.

Main results:

* `Lattice.accepted_iff` — what makes a proof accepted;
* `Lattice.sound_iff_noRepeat` — **after any run, what is evaluated before the next attestation is
  evaluated soundly exactly if no witness has attested twice in the run to anything it has not also
  denied**;
* `Lattice.repeated_attestation_accepts` — a proof that one witness carries alone.
-/
import Endendend.Lattice.RewardSystem

set_option relaxedAutoImplicit false
set_option autoImplicit false

namespace Lattice

open Js

/-! ### The validator -/

/-- A proof as the validator stores it. -/
structure StoredProof extends ValidationProof where
  taskId : Option Str
  targetId : Option Str
  evidence : OrderedMap Str Json
  sourceHashes : List Str

structure PeerAttestation where
  witnessId : Str
  subjectNodeId : Str
  validationType : ValidationType
  accepted : Bool
  reason : Str
  timestampMs : ℚ
  evidenceHash : Str

/-- The input of `createProof`. -/
structure ProofInput where
  validationType : ValidationType
  missionId : Str
  taskId : Option Str
  targetId : Option Str
  subjectNodeId : Str
  witnesses : List Str
  evidence : OrderedMap Str Json
  accepted : Option Bool
  reason : Option Str
  evidenceHashes : Option (List Str)

/-- The proofs under their ids, and the attestations in the order of their arrival. -/
structure TriangulatedValidator where
  proofs : KeyedMap (ValidationProof.proofId ∘ StoredProof.toValidationProof)
  attestations : List PeerAttestation

namespace TriangulatedValidator

def new : TriangulatedValidator := ⟨∅, []⟩

/-- Stores a new proof under a fresh id; `hashObject` is the digest of the evidence. -/
def createProof (v : TriangulatedValidator) (hashObject : OrderedMap Str Json → Str)
    (input : ProofInput) (proofId : Str) (now : ℚ) : TriangulatedValidator × StoredProof :=
  let proof : StoredProof :=
    { proofId
      validationType := input.validationType
      missionId := input.missionId
      subjectNodeId := input.subjectNodeId
      witnesses := input.witnesses
      createdAtMs := now
      accepted := input.accepted.getD false
      reason := input.reason.getD []
      taskId := input.taskId
      targetId := input.targetId
      evidence := input.evidence
      sourceHashes := input.evidenceHashes.getD [hashObject input.evidence] }
  ({ v with proofs := v.proofs.put proof }, proof)

/-- Stores a proof that was produced elsewhere. -/
def ingestProof (v : TriangulatedValidator) (proof : StoredProof) : TriangulatedValidator :=
  { v with proofs := v.proofs.put proof }

def addAttestation (v : TriangulatedValidator) (attestation : PeerAttestation) :
    TriangulatedValidator :=
  { v with attestations := v.attestations ++ [attestation] }

end TriangulatedValidator

open TriangulatedValidator

/-- Is an attestation about the subject of a proof and its kind of validation? -/
def PeerAttestation.about (a : PeerAttestation) (proof : StoredProof) : Prop :=
  a.subjectNodeId = proof.subjectNodeId ∧ a.validationType = proof.validationType

instance (a : PeerAttestation) (proof : StoredProof) : Decidable (a.about proof) :=
  inferInstanceAs (Decidable (_ ∧ _))

/-- The distinct witnesses of a proof. -/
def StoredProof.witnessSet (proof : StoredProof) : List Str := uniq proof.witnesses

/-- The number of witnesses a proof needs. -/
def StoredProof.quorum (proof : StoredProof) : ℕ := max 2 ((proof.witnessSet.length + 1) / 2)

/-- The attestations of the witnesses of a proof with an outcome. -/
def votes (attestations : List PeerAttestation) (proof : StoredProof) (outcome : Bool) :
    List PeerAttestation :=
  (attestations.filter fun a => a.about proof).filter fun a =>
    a.accepted = outcome ∧ a.witnessId ∈ proof.witnessSet

/-- A proof with the outcome of its evaluation. -/
def evaluated (attestations : List PeerAttestation) (proof : StoredProof) : StoredProof :=
  let positive := votes attestations proof true
  let negative := votes attestations proof false
  let quorumReached : Bool := positive.length ≥ proof.quorum
  let accepted := quorumReached && negative.length == 0
  { proof with
    accepted
    reason :=
      if accepted then "quorum_accepted"
      else if negative.length > 0 then "negative_attestation"
      else "insufficient_quorum" }

/-- Evaluates a stored proof. -/
def TriangulatedValidator.evaluate (v : TriangulatedValidator) (proofId : Str) :
    TriangulatedValidator × Option StoredProof :=
  match v.proofs.get? proofId with
  | none => (v, none)
  | some proof =>
    let proof := evaluated v.attestations proof
    ({ v with proofs := v.proofs.put proof }, some proof)

/-! ### What an evaluation promises -/

/-- Has a witness attested to a proof with an outcome? -/
def Attests (attestations : List PeerAttestation) (proof : StoredProof) (outcome : Bool)
    (witness : Str) : Prop :=
  ∃ a ∈ attestations, a.about proof ∧ a.accepted = outcome ∧ a.witnessId = witness

instance (attestations : List PeerAttestation) (proof : StoredProof) (outcome : Bool)
    (witness : Str) : Decidable (Attests attestations proof outcome witness) :=
  inferInstanceAs (Decidable (∃ a ∈ attestations, _))

/-- Enough distinct witnesses of a proof attest to it, and none denies it. -/
def Triangulated (attestations : List PeerAttestation) (proof : StoredProof) : Prop :=
  proof.quorum ≤
      (proof.witnessSet.filter fun w => Attests attestations proof true w).length ∧
    ∀ w ∈ proof.witnessSet, ¬ Attests attestations proof false w

instance (attestations : List PeerAttestation) (proof : StoredProof) :
    Decidable (Triangulated attestations proof) :=
  inferInstanceAs (Decidable (_ ∧ ∀ w ∈ proof.witnessSet, _))

/-- A proof that an evaluation accepts is triangulated. -/
def SoundEvaluation (v : TriangulatedValidator) : Prop :=
  ∀ proofId proof, (v.evaluate proofId).2 = some proof → proof.accepted = true →
    Triangulated v.attestations proof

/-- No witness has attested twice to a subject and a kind of validation, unless it has also denied
it. -/
def NoRepeat (attestations : List PeerAttestation) : Prop :=
  ∀ (subjectNodeId : Str) (validationType : ValidationType) (witness : Str),
    (∃ a ∈ attestations, a.subjectNodeId = subjectNodeId ∧ a.validationType = validationType ∧
      a.accepted = false ∧ a.witnessId = witness) ∨
    attestations.countP (fun a => a.subjectNodeId = subjectNodeId ∧
      a.validationType = validationType ∧ a.accepted = true ∧ a.witnessId = witness) ≤ 1

/-- What can happen to the proofs between two attestations. -/
inductive ProofOp
  | createProof (input : ProofInput) (proofId : Str) (now : ℚ)
  | ingestProof (proof : StoredProof)
  | evaluate (proofId : Str)

/-- The validator after an operation on its proofs. -/
def ProofOp.apply (hashObject : OrderedMap Str Json → Str) (v : TriangulatedValidator) :
    ProofOp → TriangulatedValidator
  | createProof input proofId now => (v.createProof hashObject input proofId now).1
  | ingestProof proof => v.ingestProof proof
  | evaluate proofId => (v.evaluate proofId).1

/-! ### Attestations and witnesses -/

section Counting

variable {attestations : List PeerAttestation} {proof : StoredProof} {outcome : Bool}

theorem mem_votes {a : PeerAttestation} : a ∈ votes attestations proof outcome ↔
    a ∈ attestations ∧ a.about proof ∧ a.accepted = outcome ∧ a.witnessId ∈ proof.witnessSet := by
  simp only [votes, List.mem_filter, decide_eq_true_eq, and_assoc]

/-- **What makes a proof accepted.** -/
theorem accepted_iff : (evaluated attestations proof).accepted = true ↔
    proof.quorum ≤ (votes attestations proof true).length ∧
      ∀ w ∈ proof.witnessSet, ¬ Attests attestations proof false w := by
  have hnone : (votes attestations proof false).length = 0 ↔
      ∀ w ∈ proof.witnessSet, ¬ Attests attestations proof false w := by
    rw [List.length_eq_zero_iff, List.eq_nil_iff_forall_not_mem]
    constructor
    · rintro h w hw ⟨a, ha, habout, hacc, rfl⟩
      exact h a (mem_votes.2 ⟨ha, habout, hacc, hw⟩)
    · intro h a ha
      obtain ⟨ha, habout, hacc, hw⟩ := mem_votes.1 ha
      exact h a.witnessId hw ⟨a, ha, habout, hacc, rfl⟩
  rw [← hnone]
  simp only [evaluated, Bool.and_eq_true, decide_eq_true_eq, beq_iff_eq, ge_iff_le]

/-- The evaluation changes nothing that it reads. -/
theorem triangulated_evaluated (attestations' : List PeerAttestation) :
    Triangulated attestations' (evaluated attestations proof) ↔
      Triangulated attestations' proof := Iff.rfl

/-- Votes of distinct witnesses are no more than the witnesses that attest. -/
theorem length_votes_le (h : ((votes attestations proof outcome).map
    PeerAttestation.witnessId).Nodup) :
    (votes attestations proof outcome).length ≤
      (proof.witnessSet.filter fun w => Attests attestations proof outcome w).length := by
  rw [← List.length_map PeerAttestation.witnessId]
  refine (h.subperm fun w hw => ?_).length_le
  obtain ⟨a, ha, rfl⟩ := List.mem_map.1 hw
  obtain ⟨ha, habout, hacc, hw⟩ := mem_votes.1 ha
  exact List.mem_filter.2 ⟨hw, decide_eq_true ⟨a, ha, habout, hacc, rfl⟩⟩

/-- Without repeats the votes for a proof that nobody denies come from distinct witnesses. -/
theorem nodup_votes (h : NoRepeat attestations)
    (hneg : ∀ w ∈ proof.witnessSet, ¬ Attests attestations proof false w) :
    ((votes attestations proof true).map PeerAttestation.witnessId).Nodup := by
  refine List.nodup_iff_count_le_one.2 fun w => ?_
  by_cases hw : w ∈ proof.witnessSet
  · have hle := (h proof.subjectNodeId proof.validationType w).resolve_left
      fun ⟨a, ha, hs, ht, hacc, haw⟩ => hneg w hw ⟨a, ha, ⟨hs, ht⟩, hacc, haw⟩
    refine le_trans ?_ hle
    rw [List.count, List.countP_map, votes, List.countP_filter, List.countP_filter]
    refine List.countP_mono_left fun a _ ha => ?_
    simp only [Function.comp_apply, beq_iff_eq, Bool.and_eq_true, decide_eq_true_eq] at ha ⊢
    obtain ⟨⟨hw, hacc, -⟩, hs, ht⟩ := ha
    exact ⟨hs, ht, hacc, hw⟩
  · refine (List.count_eq_zero.2 fun hmem => ?_).le.trans (Nat.zero_le 1)
    obtain ⟨a, ha, rfl⟩ := List.mem_map.1 hmem
    exact hw (mem_votes.1 ha).2.2.2

end Counting

/-! ### Exactly when evaluations are sound -/

theorem attestations_apply (hashObject : OrderedMap Str Json → Str) (v : TriangulatedValidator)
    (op : ProofOp) : (op.apply hashObject v).attestations = v.attestations := by
  cases op with
  | createProof input proofId now => rfl
  | ingestProof proof => rfl
  | evaluate proofId =>
      simp only [ProofOp.apply, evaluate]
      split <;> rfl

theorem attestations_foldl_apply (hashObject : OrderedMap Str Json → Str)
    (v : TriangulatedValidator) (ops : List ProofOp) :
    (ops.foldl (ProofOp.apply hashObject) v).attestations = v.attestations := by
  induction ops generalizing v with
  | nil => rfl
  | cons op ops ih => rw [List.foldl_cons, ih, attestations_apply]

theorem sound_of_noRepeat {v : TriangulatedValidator} (h : NoRepeat v.attestations) :
    SoundEvaluation v := by
  intro proofId proof hp hacc
  unfold evaluate at hp
  split at hp
  · exact absurd hp (Option.some_ne_none proof).symm
  · next stored _ =>
      obtain rfl := Option.some.inj hp
      rw [triangulated_evaluated]
      obtain ⟨hquorum, hneg⟩ := accepted_iff.1 hacc
      exact ⟨hquorum.trans (length_votes_le (nodup_votes h hneg)), hneg⟩

/-- A proof with a single witness. -/
def loneWitness (subjectNodeId : Str) (validationType : ValidationType) (witness : Str) :
    StoredProof where
  proofId := []
  validationType
  missionId := []
  subjectNodeId
  witnesses := [witness]
  createdAtMs := 0
  accepted := false
  reason := []
  taskId := none
  targetId := none
  evidence := ∅
  sourceHashes := []

/-- The proofs that are created or ingested before the next attestation are evaluated soundly
exactly if no attestation of the validator is repeated. -/
theorem sound_apply_iff_noRepeat (hashObject : OrderedMap Str Json → Str)
    (v : TriangulatedValidator) :
    (∀ ops : List ProofOp, SoundEvaluation (ops.foldl (ProofOp.apply hashObject) v)) ↔
      NoRepeat v.attestations := by
  constructor
  · intro h subject kind w
    refine or_iff_not_imp_left.2 fun hneg => not_lt.1 fun hcount => ?_
    -- a proof with that witness alone is accepted on the strength of its two attestations
    let proof := loneWitness subject kind w
    have hset : proof.witnessSet = [w] := rfl
    have heval : ((v.ingestProof proof).evaluate proof.proofId).2 =
        some (evaluated v.attestations proof) := by
      have hget : (v.ingestProof proof).proofs.get? proof.proofId = some proof :=
        KeyedMap.get?_put_self v.proofs proof
      simp only [evaluate, hget]
      rfl
    have hacc : (evaluated v.attestations proof).accepted = true := by
      refine accepted_iff.2 ⟨?_, fun w' hw' => ?_⟩
      · rw [StoredProof.quorum, hset, votes, ← List.countP_eq_length_filter, List.countP_filter]
        have hquorum : max 2 ((1 + 1) / 2) = 2 := rfl
        rw [List.length_singleton, hquorum]
        refine Nat.le_trans hcount (List.countP_mono_left fun a _ ha => ?_)
        · simp only [Bool.and_eq_true, decide_eq_true_eq] at ha ⊢
          exact ⟨⟨ha.2.2.1, hset ▸ List.mem_singleton.2 ha.2.2.2⟩, ha.1, ha.2.1⟩
      · rw [hset, List.mem_singleton] at hw'
        rintro ⟨a, ha, ⟨hs, ht⟩, hf, haw⟩
        exact hneg ⟨a, ha, hs, ht, hf, haw.trans hw'⟩
    have hsound : Triangulated v.attestations proof :=
      h [.ingestProof proof] proof.proofId (evaluated v.attestations proof) heval hacc
    have hle : proof.quorum ≤ 1 := hsound.1.trans (List.length_filter_le _ proof.witnessSet)
    have hquorum : 2 ≤ proof.quorum := le_max_left _ _
    omega
  · intro h ops
    refine sound_of_noRepeat ?_
    rwa [attestations_foldl_apply]

/-! ### Runs of the validator -/

/-- The operations of the validator. -/
inductive ValidatorOp
  | addAttestation (attestation : PeerAttestation)
  | onProofs (op : ProofOp)

/-- The validator after an operation. -/
def ValidatorOp.apply (hashObject : OrderedMap Str Json → Str) (v : TriangulatedValidator) :
    ValidatorOp → TriangulatedValidator
  | addAttestation attestation => v.addAttestation attestation
  | onProofs op => op.apply hashObject v

/-- The validator after some operations. -/
def validatorAfter (hashObject : OrderedMap Str Json → Str) (ops : List ValidatorOp) :
    TriangulatedValidator := ops.foldl (ValidatorOp.apply hashObject) .new

/-- The attestations that are submitted by an operation. -/
def ValidatorOp.attestation? : ValidatorOp → Option PeerAttestation
  | addAttestation attestation => some attestation
  | onProofs _ => none

theorem attestations_foldl_validatorOp (hashObject : OrderedMap Str Json → Str)
    (ops : List ValidatorOp) (v : TriangulatedValidator) :
    (ops.foldl (ValidatorOp.apply hashObject) v).attestations =
      v.attestations ++ ops.filterMap ValidatorOp.attestation? := by
  induction ops generalizing v with
  | nil => exact (List.append_nil _).symm
  | cons op ops ih =>
      rw [List.foldl_cons, ih]
      cases op with
      | addAttestation attestation =>
          exact (List.append_assoc v.attestations [attestation] _)
      | onProofs op =>
          rw [ValidatorOp.apply, attestations_apply]
          rfl

theorem foldl_map_onProofs (hashObject : OrderedMap Str Json → Str) (ops : List ProofOp)
    (v : TriangulatedValidator) :
    (ops.map ValidatorOp.onProofs).foldl (ValidatorOp.apply hashObject) v =
      ops.foldl (ProofOp.apply hashObject) v := by
  rw [List.foldl_map]
  rfl

/-- **Evaluations are sound exactly if no attestation is repeated**: after any run, the evaluations
before the next attestation, of whatever proofs are created or ingested, are sound exactly if no
witness has attested twice in the run to anything it has not also denied. -/
theorem sound_iff_noRepeat (hashObject : OrderedMap Str Json → Str) (ops : List ValidatorOp) :
    (∀ more : List ProofOp,
        SoundEvaluation (validatorAfter hashObject (ops ++ more.map ValidatorOp.onProofs))) ↔
      NoRepeat (ops.filterMap ValidatorOp.attestation?) := by
  have hatt : (validatorAfter hashObject ops).attestations =
      ops.filterMap ValidatorOp.attestation? := by
    rw [validatorAfter, attestations_foldl_validatorOp]
    rfl
  rw [← hatt, ← sound_apply_iff_noRepeat hashObject]
  refine forall_congr' fun more => ?_
  rw [validatorAfter, List.foldl_append, foldl_map_onProofs]
  rfl

/-! ### A witness that attests twice -/

/-- A proof with three witnesses is created, and one of them attests to it twice. -/
def attestedTwice : List ValidatorOp :=
  let attestation : PeerAttestation :=
    ⟨lit "w1", lit "subj", .taskCompletion, true, lit "ok", 0, lit "h1"⟩
  let input : ProofInput :=
    { validationType := .taskCompletion, missionId := "m", taskId := none, targetId := none
      subjectNodeId := "subj", witnesses := [lit "w1", lit "w2", lit "w3"], evidence := ∅
      accepted := none, reason := none, evidenceHashes := some [] }
  [.onProofs (.createProof input "p1" 0), .addAttestation attestation, .addAttestation attestation]

/-- **One witness carries a proof alone**, by attesting twice. -/
theorem repeated_attestation_accepts :
    ¬ ∀ ops : List ValidatorOp, SoundEvaluation (validatorAfter (fun _ => []) ops) := by
  intro h
  let v := validatorAfter (fun _ => []) attestedTwice
  have hp : ((v.evaluate "p1").2.map fun p =>
      (p.accepted, decide (Triangulated v.attestations p))) = some (true, false) := by
    decide +kernel
  obtain ⟨p, hp, hpair⟩ := Option.map_eq_some_iff.1 hp
  obtain ⟨hacc, hno⟩ := Prod.mk.inj hpair
  exact of_decide_eq_false hno (h attestedTwice "p1" p hp hacc)

end Lattice
