/-
**Candidates are apart, and every sighting has one** (over `Discovery/TargetDiscovery.lean`).

The calls of a run leave a list of sightings, each with the cell where it was taken, and a list of
the candidates that were reported as promoted.  The pipeline keeps one invariant with the two: a new
candidate is anchored away from all others, a sighting goes to one candidate near it, and a
candidate that was promoted stays confirmed.

Main definitions:

* `Discovery.sighted`, `Discovery.promotion` — what a call leaves in the two lists;
* `Discovery.Collected` — the invariant.

Main results:

* `Discovery.Collected.apply` — every call keeps it;
* `Discovery.candidates_well_separated` — **candidates are well separated, no sighting is lost or
  counted twice, and a candidate is promoted at most once**.
-/
import Endendend.Discovery.TargetDiscovery
import Endendend.Foundation.Runs

set_option relaxedAutoImplicit false
set_option autoImplicit false

namespace Discovery

open Js Vertex TargetDiscoveryPipeline PipelineOp

/-! ### What a run leaves -/

/-- A piece of evidence and the cell where it was taken. -/
structure Sighting where
  evidence : TargetEvidence
  gx : ℚ
  gz : ℚ

def sighted (p : TargetDiscoveryPipeline) (op : PipelineOp) : Option Sighting :=
  some ⟨op.evidence p.evidenceSerial, op.cell.1, op.cell.2⟩

/-- The id of the candidate that a call reports as promoted. -/
def promotion (p : TargetDiscoveryPipeline) : PipelineOp → Option Str
  | .addEvidence args =>
    let r := (p.addEvidence args).2
    if r.2 then some r.1.candidateId else none
  | .injectOperatorNote .. => none

/-- One call as a step. -/
def PipelineOp.step (p : TargetDiscoveryPipeline) (op : PipelineOp) :
    Option TargetDiscoveryPipeline :=
  some (op.apply p)

/-- A promoted candidate was none before, and is confirmed after the call. -/
theorem target_of_promotion {p : TargetDiscoveryPipeline} {op : PipelineOp} {id : Str}
    (h : promotion p op = some id) :
    id = (op.target p).candidateId ∧ (op.target p).status = .candidate ∧
      (op.attach (op.target p) p.evidenceSerial).status = .confirmed := by
  cases op with
  | injectOperatorNote => exact absurd h (by simp [promotion])
  | addEvidence args =>
      rw [promotion, addEvidence_snd] at h
      rw [attach]
      rcases TargetCandidate.withEvidence_cases ((PipelineOp.addEvidence args).target p)
          ((PipelineOp.addEvidence args).evidence p.evidenceSerial)
          (scenarioSensorWeight args.scenario args.sensor) with ⟨hstatus, -, _, hc⟩ | ⟨-, hc⟩
      · rw [hc] at h ⊢
        exact ⟨(Option.some.inj h).symm, hstatus, rfl⟩
      · rw [hc] at h
        exact absurd h (by simp)

/-! ### The invariant -/

namespace TargetCandidate

/-- Two candidates whose anchors are more than one cell apart. -/
def Apart (c c' : TargetCandidate) : Prop := 1 < max |c.gx - c'.gx| |c.gz - c'.gz|

theorem not_isNear_iff {c : TargetCandidate} {gx gz : ℚ} :
    ¬ c.isNear gx gz ↔ 1 < max |c.gx - gx| |c.gz - gz| := by
  rw [isNear, decide_eq_true_iff, ← max_le_iff, not_le]

theorem Apart.symm {c c' : TargetCandidate} (h : c.Apart c') : c'.Apart c := by
  rwa [Apart, abs_sub_comm, abs_sub_comm c'.gz]

end TargetCandidate

/-- The candidates, the sightings and the promotions of a run. -/
structure Collected (sightings : List Sighting) (promoted : List Str)
    (p : TargetDiscoveryPipeline) : Prop where
  issued : ∀ c ∈ p.getCandidates, ∃ i < p.serial, c.candidateId = candidateIdOf i
  apart : ∀ c ∈ p.getCandidates, ∀ c' ∈ p.getCandidates, c.candidateId ≠ c'.candidateId → c.Apart c'
  numbered : ∀ s ∈ sightings, ∃ i < p.evidenceSerial, s.evidence.id = evidenceIdOf i
  distinct : (sightings.map fun s => s.evidence.id).Nodup
  attached : ∀ s ∈ sightings, ∃ c ∈ p.getCandidates, s.evidence ∈ c.evidence ∧ c.isNear s.gx s.gz
  seen : ∀ c ∈ p.getCandidates, ∀ e ∈ c.evidence, ∃ s ∈ sightings, s.evidence = e
  once : ∀ c ∈ p.getCandidates, c.evidence.Nodup
  single : ∀ c ∈ p.getCandidates, ∀ c' ∈ p.getCandidates, ∀ e ∈ c.evidence, e ∈ c'.evidence →
    c.candidateId = c'.candidateId
  confirmed : ∀ id ∈ promoted, ∃ c ∈ p.getCandidates, c.candidateId = id ∧ c.status = .confirmed
  promoted_nodup : promoted.Nodup

/-- The id of a candidate tells which one it is. -/
theorem eq_of_candidateId {p : TargetDiscoveryPipeline} {c c' : TargetCandidate}
    (hc : c ∈ p.getCandidates) (hc' : c' ∈ p.getCandidates)
    (h : c.candidateId = c'.candidateId) : c = c' := by
  rw [getCandidates, KeyedMap.mem_values_iff] at hc hc'
  exact Option.some.inj (hc.symm.trans (h ▸ hc'))

/-! ### Candidates that grow -/

/-- The same candidate with the same anchor. -/
structure SamePlace (t t' : TargetCandidate) : Prop where
  candidateId : t'.candidateId = t.candidateId
  gx : t'.gx = t.gx
  gz : t'.gz = t.gz

theorem SamePlace.refl (t : TargetCandidate) : SamePlace t t := ⟨rfl, rfl, rfl⟩

theorem SamePlace.isNear_iff {t t' : TargetCandidate} (h : SamePlace t t') {gx gz : ℚ} :
    t'.isNear gx gz ↔ t.isNear gx gz := by
  rw [TargetCandidate.isNear, TargetCandidate.isNear, h.gx, h.gz]

/-- A candidate with one more piece of evidence. -/
structure Grown (e : TargetEvidence) (t t' : TargetCandidate) : Prop extends SamePlace t t' where
  evidence : t'.evidence = t.evidence ++ [e]
  confirmed : t.status = .confirmed → t'.status = .confirmed

theorem grown_attach (c : TargetCandidate) (serial : ℕ) (op : PipelineOp) :
    Grown (op.evidence serial) c (op.attach c serial) := by
  obtain ⟨hid, hgx, hgz, hevidence⟩ := attach_frame c serial op
  exact ⟨⟨hid, hgx, hgz⟩, hevidence, fun h => attach_confirmed h serial op⟩

section Grown

variable {p : TargetDiscoveryPipeline} {t t' : TargetCandidate} {e : TargetEvidence}

/-- Every candidate grows out of an old one. -/
theorem Grown.exists_old (h : Grown e t t') (ht : t ∈ p.getCandidates) :
    ∀ c ∈ (p.candidates.put t').values, ∃ c₀ ∈ p.getCandidates, SamePlace c₀ c ∧
      ∀ x ∈ c.evidence, x ∈ c₀.evidence ∨ x = e ∧ c = t' := by
  intro c hc
  rcases KeyedMap.mem_values_put_iff.1 hc with rfl | ⟨hold, -⟩
  · refine ⟨t, ht, h.toSamePlace, fun x hx => ?_⟩
    rw [h.evidence, List.mem_append, List.mem_singleton] at hx
    exact hx.imp_right fun heq => ⟨heq, rfl⟩
  · exact ⟨c, hold, .refl c, fun x hx => Or.inl hx⟩

/-- Every old candidate is still there. -/
theorem Grown.exists_new (h : Grown e t t') (ht : t ∈ p.getCandidates) :
    ∀ c ∈ p.getCandidates, ∃ c' ∈ (p.candidates.put t').values, SamePlace c c' ∧
      c.evidence ⊆ c'.evidence ∧ (c.status = .confirmed → c'.status = .confirmed) := by
  intro c hc
  by_cases heq : c.candidateId = t.candidateId
  · obtain rfl := eq_of_candidateId hc ht heq
    refine ⟨t', KeyedMap.mem_values_put_iff.2 (Or.inl rfl), h.toSamePlace, ?_, h.confirmed⟩
    exact h.evidence ▸ List.subset_append_left _ _
  · rw [← h.candidateId] at heq
    refine ⟨c, KeyedMap.mem_values_put_iff.2 (Or.inr ⟨hc, heq⟩), .refl c, ?_, fun hs => hs⟩
    exact fun _ hx => hx

end Grown

namespace Collected

variable {sightings : List Sighting} {promoted : List Str} {p : TargetDiscoveryPipeline}

theorem start : Collected [] [] new where
  issued := fun _ hc => absurd hc List.not_mem_nil
  apart := fun _ hc => absurd hc List.not_mem_nil
  numbered := fun _ hs => absurd hs List.not_mem_nil
  distinct := List.nodup_nil
  attached := fun _ hs => absurd hs List.not_mem_nil
  seen := fun _ hc => absurd hc List.not_mem_nil
  once := fun _ hc => absurd hc List.not_mem_nil
  single := fun _ hc => absurd hc List.not_mem_nil
  confirmed := fun _ hid => absurd hid List.not_mem_nil
  promoted_nodup := List.nodup_nil

/-- The next id is not in use. -/
theorem fresh (h : Collected sightings promoted p) :
    p.candidates.get? (candidateIdOf p.serial) = none := by
  by_contra hsome
  obtain ⟨c, hc⟩ := Option.ne_none_iff_exists'.1 hsome
  have hkey : c.candidateId = candidateIdOf p.serial := KeyedMap.key_of_get? hc
  obtain ⟨i, hi, heq⟩ := h.issued c (KeyedMap.mem_values_iff.2 (hkey ▸ hc))
  rw [hkey] at heq
  exact hi.ne (candidateIdOf_injective heq).symm

/-- A new candidate may be stored where no other one is near. -/
theorem create (h : Collected sightings promoted p) (missionId : Str) (world : Position)
    {gx gz : ℚ} (hfar : ∀ c ∈ p.getCandidates, ¬ c.isNear gx gz) :
    Collected sightings promoted
      { p with
        candidates := p.candidates.put (newCandidate (candidateIdOf p.serial) missionId gx gz world)
        serial := p.serial + 1 } := by
  generalize hnew : newCandidate (candidateIdOf p.serial) missionId gx gz world = new
  have hid : new.candidateId = candidateIdOf p.serial := hnew ▸ rfl
  have hevidence : new.evidence = [] := hnew ▸ rfl
  have hapart : ∀ c ∈ p.getCandidates, c.Apart new := fun c hc =>
    hnew ▸ TargetCandidate.not_isNear_iff.1 (hfar c hc)
  have hfresh : p.candidates.get? new.candidateId = none := hid ▸ h.fresh
  have hmem : ∀ c, c ∈ (p.candidates.put new).values ↔ c ∈ p.getCandidates ∨ c = new := by
    intro c
    rw [KeyedMap.values_put_of_fresh hfresh, List.mem_append, List.mem_singleton]
    rfl
  constructor
  · intro c hc
    rcases (hmem c).1 hc with hc | rfl
    · obtain ⟨i, hi, heq⟩ := h.issued c hc
      exact ⟨i, hi.trans (Nat.lt_succ_self _), heq⟩
    · exact ⟨p.serial, Nat.lt_succ_self _, hid⟩
  · intro c hc c' hc' hne
    rcases (hmem c).1 hc with hold | rfl <;> rcases (hmem c').1 hc' with hold' | rfl
    · exact h.apart c hold c' hold' hne
    · exact hapart c hold
    · exact (hapart c' hold').symm
    · exact absurd rfl hne
  · exact h.numbered
  · exact h.distinct
  · intro s hs
    obtain ⟨c, hc, hs⟩ := h.attached s hs
    exact ⟨c, (hmem c).2 (Or.inl hc), hs⟩
  · intro c hc e he
    rcases (hmem c).1 hc with hc | rfl
    · exact h.seen c hc e he
    · rw [hevidence] at he
      exact absurd he List.not_mem_nil
  · intro c hc
    rcases (hmem c).1 hc with hc | rfl
    · exact h.once c hc
    · rw [hevidence]
      exact List.nodup_nil
  · intro c hc c' hc' e he he'
    rcases (hmem c).1 hc with hold | rfl <;> rcases (hmem c').1 hc' with hold' | rfl
    · exact h.single c hold c' hold' e he he'
    · rw [hevidence] at he'
      exact absurd he' List.not_mem_nil
    · rw [hevidence] at he
      exact absurd he List.not_mem_nil
    · rfl
  · intro id hid
    obtain ⟨c, hc, hconfirmed⟩ := h.confirmed id hid
    exact ⟨c, (hmem c).2 (Or.inl hc), hconfirmed⟩
  · exact h.promoted_nodup

/-- The evidence of a new sighting is not used yet. -/
theorem evidence_fresh (h : Collected sightings promoted p) {e : TargetEvidence}
    (he : e.id = evidenceIdOf p.evidenceSerial) : ∀ s ∈ sightings, s.evidence.id ≠ e.id := by
  intro s hs heq
  obtain ⟨i, hi, hnum⟩ := h.numbered s hs
  exact hi.ne (evidenceIdOf_injective (hnum.symm.trans (heq.trans he)))

theorem notMem_evidence (h : Collected sightings promoted p) {e : TargetEvidence}
    (he : e.id = evidenceIdOf p.evidenceSerial) : ∀ c ∈ p.getCandidates, e ∉ c.evidence := by
  intro c hc hmem
  obtain ⟨s, hs, heq⟩ := h.seen c hc e hmem
  exact h.evidence_fresh he s hs (congrArg TargetEvidence.id heq)

/-- A candidate that was not confirmed is promoted for the first time. -/
theorem promoted_concat (h : Collected sightings promoted p) {t : TargetCandidate}
    (ht : t ∈ p.getCandidates) {promotion : Option Str}
    (hpromotion : ∀ id, promotion = some id → id = t.candidateId ∧ t.status = .candidate) :
    (promoted ++ promotion.toList).Nodup := by
  refine List.nodup_append.2 ⟨h.promoted_nodup, ?_, fun id hold id' hlast heq => ?_⟩
  · cases promotion <;> simp
  · -- what was promoted before is confirmed
    obtain ⟨hid', hstatus⟩ := hpromotion id' (Option.mem_toList.1 hlast)
    obtain ⟨c, hc, hcid, hconfirmed⟩ := h.confirmed id hold
    obtain rfl := eq_of_candidateId hc ht (hcid.trans (heq.trans hid'))
    rw [hstatus] at hconfirmed
    exact absurd hconfirmed (by decide)

/-- A stored candidate near a new sighting may take it, and may be promoted by that if it was not
confirmed. -/
theorem attach (h : Collected sightings promoted p) {t t' : TargetCandidate} {s : Sighting}
    {promotion : Option Str} (ht : t ∈ p.getCandidates) (hnear : t.isNear s.gx s.gz)
    (hs : s.evidence.id = evidenceIdOf p.evidenceSerial) (hgrown : Grown s.evidence t t')
    (hpromotion : ∀ id, promotion = some id →
      id = t.candidateId ∧ t.status = .candidate ∧ t'.status = .confirmed) :
    Collected (sightings ++ [s]) (promoted ++ promotion.toList)
      { p with
        candidates := p.candidates.put t'
        evidenceSerial := p.evidenceSerial + 1 } := by
  have hback := hgrown.exists_old ht
  have hforth := hgrown.exists_new ht
  have hstored : t' ∈ (p.candidates.put t').values := KeyedMap.mem_values_put_iff.2 (Or.inl rfl)
  have hnew := h.notMem_evidence hs
  constructor
  · intro c hc
    obtain ⟨c₀, hc₀, hplace, -⟩ := hback c hc
    exact hplace.candidateId ▸ h.issued c₀ hc₀
  · intro c hc c' hc' hne
    obtain ⟨c₀, hc₀, hplace, -⟩ := hback c hc
    obtain ⟨c₁, hc₁, hplace', -⟩ := hback c' hc'
    rw [hplace.candidateId, hplace'.candidateId] at hne
    rw [TargetCandidate.Apart, hplace.gx, hplace.gz, hplace'.gx, hplace'.gz]
    exact h.apart c₀ hc₀ c₁ hc₁ hne
  · intro s' hs'
    rcases List.mem_append.1 hs' with hold | hlast
    · obtain ⟨i, hi, heq⟩ := h.numbered s' hold
      exact ⟨i, hi.trans (Nat.lt_succ_self _), heq⟩
    · rw [List.mem_singleton.1 hlast]
      exact ⟨p.evidenceSerial, Nat.lt_succ_self _, hs⟩
  · rw [List.map_append, List.nodup_append]
    refine ⟨h.distinct, List.nodup_singleton _, fun id hid id' hlast heq => ?_⟩
    obtain ⟨s', hs', rfl⟩ := List.mem_map.1 hid
    exact h.evidence_fresh hs s' hs' (heq.trans (List.mem_singleton.1 hlast))
  · intro s' hs'
    rcases List.mem_append.1 hs' with hold | hlast
    · obtain ⟨c, hc, he, hcn⟩ := h.attached s' hold
      obtain ⟨c', hc', hplace, hsub, -⟩ := hforth c hc
      exact ⟨c', hc', hsub he, hplace.isNear_iff.2 hcn⟩
    · rw [List.mem_singleton.1 hlast]
      refine ⟨t', hstored, ?_, hgrown.toSamePlace.isNear_iff.2 hnear⟩
      rw [hgrown.evidence]
      exact List.mem_append_right _ List.mem_cons_self
  · intro c hc e he
    obtain ⟨c₀, hc₀, -, hev⟩ := hback c hc
    rcases hev e he with hold | ⟨rfl, -⟩
    · obtain ⟨s', hs', heq⟩ := h.seen c₀ hc₀ e hold
      exact ⟨s', List.mem_append_left _ hs', heq⟩
    · exact ⟨s, List.mem_append_right _ List.mem_cons_self, rfl⟩
  · intro c hc
    rcases KeyedMap.mem_values_put_iff.1 hc with rfl | ⟨hold, -⟩
    · rw [hgrown.evidence]
      exact List.nodup_append.2 ⟨h.once t ht, List.nodup_singleton _, fun e he e' he' heq =>
        hnew t ht (List.mem_singleton.1 he' ▸ heq ▸ he)⟩
    · exact h.once c hold
  · intro c hc c' hc' e he he'
    obtain ⟨c₀, hc₀, hplace, hev⟩ := hback c hc
    obtain ⟨c₁, hc₁, hplace', hev'⟩ := hback c' hc'
    rcases hev e he with hold | ⟨rfl, rfl⟩ <;>
      rcases hev' _ he' with hold' | ⟨hlast, rfl⟩
    · rw [hplace.candidateId, hplace'.candidateId]
      exact h.single c₀ hc₀ c₁ hc₁ _ hold hold'
    · exact absurd (hlast ▸ hold) (hnew c₀ hc₀)
    · exact absurd hold' (hnew c₁ hc₁)
    · rfl
  · intro id hmem
    rcases List.mem_append.1 hmem with hold | hlast
    · obtain ⟨c, hc, heq, hstatus⟩ := h.confirmed id hold
      obtain ⟨c', hc', hplace, -, hkept⟩ := hforth c hc
      exact ⟨c', hc', hplace.candidateId.trans heq, hkept hstatus⟩
    · obtain ⟨rfl, -, hstatus⟩ := hpromotion id (Option.mem_toList.1 hlast)
      exact ⟨t', hstored, hgrown.candidateId, hstatus⟩
  · exact h.promoted_concat ht fun id heq => (hpromotion id heq).imp_right And.left

/-- **One call.** -/
theorem apply (h : Collected sightings promoted p) (op : PipelineOp) :
    Collected (sightings ++ (sighted p op).toList) (promoted ++ (promotion p op).toList)
      (op.apply p) := by
  have hprom := fun id (hid : promotion p op = some id) => target_of_promotion hid
  rw [apply_eq]
  rcases p.findOrCreateCandidate_cases op.missionId op.cell.1 op.cell.2 op.world with
    ⟨c, hc, hnear, hfind⟩ | ⟨hfar, hfind⟩
  · have htarget : op.target p = c := by rw [target, hfind]
    rw [htarget] at hprom
    rw [hfind]
    exact h.attach hc hnear (evidence_id _ op) (grown_attach c _ op) hprom
  · have htarget : op.target p = op.created p := by rw [target, hfind, created]
    rw [htarget] at hprom
    rw [hfind]
    refine (h.create op.missionId op.world hfar).attach
      (s := ⟨op.evidence p.evidenceSerial, op.cell.1, op.cell.2⟩) (t := op.created p) ?_ ?_
      (evidence_id _ op) (grown_attach (op.created p) _ op) hprom
    · exact KeyedMap.mem_values_iff.2 (KeyedMap.get?_put_self _ _)
    · simp [created, newCandidate, TargetCandidate.isNear]

end Collected

/-! ### Runs -/

/-- Candidates that are apart, sightings that have one candidate each, and promotions that happen
once. -/
structure WellSeparated (p : TargetDiscoveryPipeline) (sightings : List Sighting)
    (promoted : List Str) : Prop where
  apart : ∀ c ∈ p.getCandidates, ∀ c' ∈ p.getCandidates, c ≠ c' →
    1 < max |c.gx - c'.gx| |c.gz - c'.gz|
  distinct : (sightings.map fun s => s.evidence.id).Nodup
  attached : ∀ s ∈ sightings, ∃ c ∈ p.getCandidates, c.evidence.count s.evidence = 1 ∧
    max |c.gx - s.gx| |c.gz - s.gz| ≤ 1 ∧ ∀ c' ∈ p.getCandidates, s.evidence ∈ c'.evidence → c' = c
  seen : ∀ c ∈ p.getCandidates, ∀ e ∈ c.evidence, ∃ s ∈ sightings, s.evidence = e
  promoted_once : promoted.Nodup

theorem Collected.wellSeparated {sightings : List Sighting} {promoted : List Str}
    {p : TargetDiscoveryPipeline} (h : Collected sightings promoted p) :
    WellSeparated p sightings promoted where
  apart := fun c hc c' hc' hne => h.apart c hc c' hc' fun heq =>
    hne (eq_of_candidateId hc hc' heq)
  distinct := h.distinct
  attached := by
    intro s hs
    obtain ⟨c, hc, he, hnear⟩ := h.attached s hs
    refine ⟨c, hc, List.count_eq_one_of_mem (h.once c hc) he, ?_, fun c' hc' he' => ?_⟩
    · rw [← not_lt, ← TargetCandidate.not_isNear_iff, not_not]
      exact hnear
    · exact eq_of_candidateId hc' hc (h.single c' hc' c hc _ he' he)
  seen := h.seen
  promoted_once := h.promoted_nodup

theorem collected_of_run (ops : List PipelineOp) {p : TargetDiscoveryPipeline}
    (h : Runs.run PipelineOp.step new ops = some p) :
    Collected (Runs.emitted PipelineOp.step sighted new ops)
      (Runs.emitted PipelineOp.step promotion new ops) p := by
  refine Runs.invariant_of_history
    (I := fun ops p => Collected (Runs.emitted PipelineOp.step sighted new ops)
      (Runs.emitted PipelineOp.step promotion new ops) p) Collected.start ?_ h
  intro ops op p p' hrun hp hstep
  obtain rfl := Option.some.inj hstep
  rw [Runs.emitted_concat _ _ hrun, Runs.emitted_concat _ _ hrun]
  exact hp.apply op

/-- **Target candidates are well separated and nothing is lost**: in every run, two anchors are more
than one cell apart, every sighting is attached once, to one candidate within one cell of it, and no
candidate is promoted twice. -/
theorem candidates_well_separated (ops : List PipelineOp) {p : TargetDiscoveryPipeline}
    (h : Runs.run PipelineOp.step new ops = some p) :
    WellSeparated p (Runs.emitted PipelineOp.step sighted new ops)
      (Runs.emitted PipelineOp.step promotion new ops) :=
  (collected_of_run ops h).wellSeparated

/-- A sighting of the node at a place, and a note of the operator at a cell. -/
def sightingAt (nodeId : Str) (x z : ℚ) : PipelineOp :=
  .addEvidence
    { missionId := "m1"
      node :=
        { nodeId, vendorId := "meshworks", role := .explorer
          capabilities := ⟨[lit "thermal"], 1, 1 / 2, 1 / 2, 0, 400⟩, position := ⟨x, 0, z⟩
          trust01 := 9 / 10 }
      sensor := .thermal, confidence01 := 1 / 2, nowMs := 1, scenario := .tunnel, note := none }

def noteAt (gx gz : ℚ) : PipelineOp := .injectOperatorNote "m1" gx gz ⟨4 * gx, 0, 4 * gz⟩ 2

/-- Two nodes and the operator at neighbouring cells, and a node far away. -/
theorem candidates_well_separated_mixed :
    ∃ p, Runs.run PipelineOp.step new
        [sightingAt "n1" 0 0, noteAt 1 0, sightingAt "n2" 8 0, sightingAt "n3" 40 40] = some p ∧
      WellSeparated p
        (Runs.emitted PipelineOp.step sighted new
          [sightingAt "n1" 0 0, noteAt 1 0, sightingAt "n2" 8 0, sightingAt "n3" 40 40])
        (Runs.emitted PipelineOp.step promotion new
          [sightingAt "n1" 0 0, noteAt 1 0, sightingAt "n2" 8 0, sightingAt "n3" 40 40]) :=
  ⟨_, rfl, candidates_well_separated _ rfl⟩

end Discovery
