/-
**Which candidates are confirmed** (over `Discovery/TargetDiscovery.lean`).

A sighting promotes a candidate that two nodes have evidence of, or that is trusted enough.  A note
of the operator adds evidence and confidence as well, but leaves the status alone.

Main definitions:

* `Discovery.EverCorroborated` — at some point of a run a candidate was corroborated;
* `Discovery.NoteOk` — the condition on a note of the operator.

Main results:

* `Discovery.isCorroborated_withNote_iff` — what a note makes of a candidate;
* `Discovery.confirmed_iff_corroborated` — **in all states of a run the confirmed candidates are
  those that were corroborated exactly if every note meets the condition**.
-/
import Endendend.Discovery.Separation

set_option relaxedAutoImplicit false
set_option autoImplicit false

namespace Discovery

open Js Vertex TargetDiscoveryPipeline

/-! ### What a call does to the status -/

/-- Where a note of the operator finds a candidate that is not confirmed, the note leaves it
uncorroborated: all its evidence is the operator's, and its confidence is low. -/
def NoteOk (p : TargetDiscoveryPipeline) : PipelineOp → Prop
  | .addEvidence _ => True
  | .injectOperatorNote _ gx gz _ _ =>
    ∀ c, p.getCandidates.find? (·.isNear gx gz) = some c → c.status = .candidate →
      (∀ e ∈ c.evidence, e.nodeId = lit "operator") ∧ c.mergedConfidence01 < 62 / 100

theorem isCorroborated_withNote_iff (c : TargetCandidate) {ev : TargetEvidence}
    (hev : ev.nodeId = lit "operator") :
    (c.withNote ev).isCorroborated ↔
      ¬ ((∀ e ∈ c.evidence, e.nodeId = lit "operator") ∧ c.mergedConfidence01 < 62 / 100) := by
  have hconfidence : (82 / 100 : ℚ) ≤ min 1 (c.mergedConfidence01 + 2 / 10) ↔
      62 / 100 ≤ c.mergedConfidence01 := by
    rw [le_min_iff]
    constructor
    · rintro ⟨-, h⟩
      linarith
    · exact fun h => ⟨by norm_num, by linarith⟩
  have hnodes : 2 ≤ (c.withNote ev).distinctNodes.length ↔
      ∃ e ∈ c.evidence, e.nodeId ≠ lit "operator" := by
    rw [TargetCandidate.distinctNodes, two_le_length_uniq_iff, TargetCandidate.withNote,
      List.map_append, List.map_singleton, hev]
    constructor
    · rintro ⟨x, hx, y, hy, hne⟩
      by_contra hnone
      have hop : ∀ z ∈ c.evidence.map (·.nodeId) ++ [lit "operator"], z = lit "operator" := by
        intro z hz
        rcases List.mem_append.1 hz with hz | hz
        · obtain ⟨e, he, rfl⟩ := List.mem_map.1 hz
          by_contra hne
          exact hnone ⟨e, he, hne⟩
        · exact List.mem_singleton.1 hz
      exact hne ((hop x hx).trans (hop y hy).symm)
    · rintro ⟨e, he, hne⟩
      exact ⟨e.nodeId, List.mem_append_left _ (List.mem_map_of_mem he), lit "operator",
        List.mem_append_right _ List.mem_cons_self, hne⟩
  have hiff : (c.withNote ev).isCorroborated ↔
      62 / 100 ≤ c.mergedConfidence01 ∨ ∃ e ∈ c.evidence, e.nodeId ≠ lit "operator" := by
    rw [TargetCandidate.isCorroborated, decide_eq_true_iff, hnodes, ← hconfidence]
    rfl
  rw [hiff, not_and_or, not_lt, or_comm]
  simp only [not_forall, exists_prop, ne_eq]

/-- A call leaves a candidate confirmed if it was confirmed, or is corroborated now. -/
theorem attach_confirmed_iff {p : TargetDiscoveryPipeline} {op : PipelineOp} (hok : NoteOk p op) :
    (op.attach (op.target p) p.evidenceSerial).status = .confirmed ↔
      (op.target p).status = .confirmed ∨
        (op.attach (op.target p) p.evidenceSerial).isCorroborated := by
  generalize ht : op.target p = t
  cases hstatus : t.status with
  | confirmed => exact iff_of_true (PipelineOp.attach_confirmed hstatus _ op) (Or.inl rfl)
  | candidate =>
      rw [or_iff_right (by decide)]
      cases op with
      | addEvidence args =>
          rw [PipelineOp.attach]
          rcases t.withEvidence_cases ((PipelineOp.addEvidence args).evidence p.evidenceSerial)
              (scenarioSensorWeight args.scenario args.sensor) with ⟨-, hcorr, _, hc⟩ | ⟨hnot, hc⟩
          · rw [hc]
            exact iff_of_true rfl hcorr
          · rw [hc]
            have hkept : (t.withSighting ((PipelineOp.addEvidence args).evidence p.evidenceSerial)
              (scenarioSensorWeight args.scenario args.sensor)).status = .candidate := hstatus
            rw [hkept]
            exact iff_of_false (by decide) fun hcorr => hnot ⟨hstatus, hcorr⟩
      | injectOperatorNote missionId gx gz world nowMs =>
          have hkept : (PipelineOp.attach t p.evidenceSerial
            (.injectOperatorNote missionId gx gz world nowMs)).status = .candidate := hstatus
          rw [hkept]
          refine iff_of_false (by decide) fun hcorr => ?_
          refine (isCorroborated_withNote_iff t rfl).1 hcorr ?_
          rw [PipelineOp.target_eq] at ht
          change (p.getCandidates.find? (·.isNear gx gz)).getD _ = t at ht
          cases hfind : p.getCandidates.find? (·.isNear gx gz) with
          | some c =>
              rw [hfind] at ht
              obtain rfl : c = t := ht
              exact hok c hfind hstatus
          | none =>
              rw [hfind] at ht
              rw [← ht]
              exact ⟨fun e he => absurd he List.not_mem_nil, by
                norm_num [PipelineOp.created, newCandidate]⟩

/-! ### Runs -/

/-- In some state of the run the candidate was corroborated. -/
def EverCorroborated (ops : List PipelineOp) (id : Str) : Prop :=
  ∃ pre p c, pre <+: ops ∧ Runs.run PipelineOp.step new pre = some p ∧
    p.candidates.get? id = some c ∧ c.isCorroborated

/-- The confirmed candidates are those that were corroborated at some point. -/
def ConfirmedIffCorroborated (ops : List PipelineOp) (p : TargetDiscoveryPipeline) : Prop :=
  ∀ c ∈ p.getCandidates, c.status = .confirmed ↔ EverCorroborated ops c.candidateId

theorem everCorroborated_concat {ops : List PipelineOp} {p : TargetDiscoveryPipeline}
    (h : Runs.run PipelineOp.step new ops = some p) (op : PipelineOp) (id : Str) :
    EverCorroborated (ops ++ [op]) id ↔ EverCorroborated ops id ∨
      ∃ c, (op.apply p).candidates.get? id = some c ∧ c.isCorroborated := by
  constructor
  · rintro ⟨pre, p', c, hpre, hrun, hc⟩
    rcases List.prefix_concat_iff.1 hpre with rfl | hpre
    · obtain ⟨p₁, h₁, hstep⟩ := Runs.run_concat.1 hrun
      obtain rfl := Option.some.inj (h.symm.trans h₁)
      obtain rfl := Option.some.inj hstep
      exact Or.inr ⟨c, hc⟩
    · exact Or.inl ⟨pre, p', c, hpre, hrun, hc⟩
  · rintro (⟨pre, p', c, hpre, hrun, hc⟩ | ⟨c, hc⟩)
    · exact ⟨pre, p', c, hpre.trans (List.prefix_append ops [op]), hrun, hc⟩
    · exact ⟨ops ++ [op], op.apply p, c, List.prefix_refl _, Runs.run_concat.2 ⟨p, h, rfl⟩, hc⟩

/-- What is kept along a run: a candidate that was corroborated is still there, and is confirmed. -/
structure Promoted (ops : List PipelineOp) (p : TargetDiscoveryPipeline) : Prop where
  stored : ∀ id, EverCorroborated ops id → p.candidates.get? id ≠ none
  confirmed_iff : ∀ id c, p.candidates.get? id = some c →
    (c.status = .confirmed ↔ EverCorroborated ops id)

theorem Promoted.start : Promoted [] new where
  stored := by
    rintro id ⟨pre, p, c, hpre, hrun, hc, -⟩
    obtain rfl := List.prefix_nil.1 hpre
    obtain rfl := Option.some.inj hrun
    exact absurd hc (by simp [new])
  confirmed_iff := fun id c hc => absurd hc (by simp [new])

theorem Promoted.apply {ops : List PipelineOp} {p : TargetDiscoveryPipeline}
    (h : Promoted ops p) (hrun : Runs.run PipelineOp.step new ops = some p) {op : PipelineOp}
    (hok : NoteOk p op) : Promoted (ops ++ [op]) (op.apply p) := by
  constructor
  · intro id hever
    rcases (everCorroborated_concat hrun op id).1 hever with hold | ⟨c, hc, -⟩
    · rw [PipelineOp.get?_apply]
      split
      · simp
      · exact h.stored id hold
    · simp [hc]
  · intro id c' hc'
    rw [everCorroborated_concat hrun]
    by_cases hid : id = (op.target p).candidateId
    · have hnow : (op.apply p).candidates.get? id =
          some (op.attach (op.target p) p.evidenceSerial) := by
        rw [PipelineOp.get?_apply, if_pos hid]
      obtain rfl := Option.some.inj (hnow.symm.trans hc')
      have hbefore : (op.target p).status = .confirmed ↔ EverCorroborated ops id := by
        rcases op.target_cases p with ⟨hstored, -, -⟩ | ⟨-, hcreated, -⟩
        · exact h.confirmed_iff id _ (hid ▸ hstored)
        · -- a new candidate has not been seen yet
          have hfresh : p.candidates.get? id = none := by
            rw [hid, hcreated]
            exact (collected_of_run ops hrun).fresh
          rw [hcreated]
          exact iff_of_false (by simp [PipelineOp.created, newCandidate]) fun hever =>
            h.stored id hever hfresh
      rw [attach_confirmed_iff hok, hbefore, hnow]
      simp only [Option.some.injEq, exists_eq_left']
    · have hsame : (op.apply p).candidates.get? id = p.candidates.get? id := by
        rw [PipelineOp.get?_apply, if_neg hid]
      rw [hsame] at hc' ⊢
      rw [h.confirmed_iff id c' hc']
      refine ⟨Or.inl, fun hor => hor.elim (fun hold => hold) ?_⟩
      rintro ⟨c, hc, hcorr⟩
      exact ⟨ops, p, c, List.prefix_refl ops, hrun, hc, hcorr⟩

/-- **Corroborated candidates are confirmed**, and no others, in all states of a run exactly if no
note of the operator corroborates a candidate that is not confirmed. -/
theorem confirmed_iff_corroborated (ops : List PipelineOp) :
    (∀ pre p, pre <+: ops → Runs.run PipelineOp.step new pre = some p →
        ConfirmedIffCorroborated pre p) ↔
      Runs.Along PipelineOp.step NoteOk new ops := by
  constructor
  · intro hall
    rw [Runs.along_iff_forall_split]
    intro pre op post p hsplit hrun
    cases op with
    | addEvidence args => trivial
    | injectOperatorNote missionId gx gz world nowMs =>
        intro c hfind hstatus
        by_contra hnot
        generalize hop : PipelineOp.injectOperatorNote missionId gx gz world nowMs = op at hsplit
        have htarget : op.target p = c := by
          rw [PipelineOp.target_eq, ← hop]
          exact congrArg (Option.getD · _) hfind
        have hget : (op.apply p).candidates.get? c.candidateId =
            some (op.attach c p.evidenceSerial) := by
          rw [PipelineOp.get?_apply, if_pos (by rw [htarget]), htarget]
        have hcorr : (op.attach c p.evidenceSerial).isCorroborated := by
          subst hop
          exact (isCorroborated_withNote_iff c rfl).2 hnot
        have hkept : (op.attach c p.evidenceSerial).status = .candidate := by
          subst hop
          exact hstatus
        have hpre : pre ++ [op] <+: ops := ⟨post, by rw [hsplit, List.append_assoc]; rfl⟩
        have hrun' : Runs.run PipelineOp.step new (pre ++ [op]) = some (op.apply p) :=
          Runs.run_concat.2 ⟨p, hrun, rfl⟩
        have hmem : op.attach c p.evidenceSerial ∈ (op.apply p).getCandidates := by
          refine KeyedMap.mem_values_iff.2 ?_
          rw [PipelineOp.attach_candidateId, hget]
        have hconfirmed := (hall _ _ hpre hrun' _ hmem).2
          ⟨_, _, _, List.prefix_refl _, hrun', by rw [PipelineOp.attach_candidateId, hget], hcorr⟩
        rw [hkept] at hconfirmed
        exact absurd hconfirmed (by decide)
  · intro hok pre p hpre hrun
    have hpromoted : Runs.Along PipelineOp.step NoteOk new pre → Promoted pre p := by
      refine Runs.invariant_of_history
        (I := fun ops p => Runs.Along PipelineOp.step NoteOk new ops → Promoted ops p)
        (fun _ => .start) ?_ hrun
      intro ops op p p' hrun hp hstep halong
      obtain rfl := Option.some.inj hstep
      obtain ⟨hbefore, hnow⟩ := (Runs.along_concat hrun).1 halong
      exact (hp hbefore).apply hrun hnow
    intro c hc
    exact (hpromoted (hok.of_prefix hpre)).confirmed_iff _ c (KeyedMap.mem_values_iff.1 hc)

/-! ### A note that confirms nobody -/

/-- A node has seen a target, and the operator notes one at the same cell. -/
theorem noted_not_confirmed :
    ∃ p, Runs.run PipelineOp.step new [sightingAt "n1" 0 0, noteAt 0 0] = some p ∧
      ¬ ConfirmedIffCorroborated [sightingAt "n1" 0 0, noteAt 0 0] p := by
  refine ⟨_, rfl, fun h => ?_⟩
  generalize hp : (noteAt 0 0).apply ((sightingAt "n1" 0 0).apply new) = p at h
  have hfound : (p.candidates.get? (candidateIdOf 1)).any
      (fun c => c.status = .candidate ∧ c.isCorroborated) = true := by
    rw [← hp]
    decide +kernel
  obtain ⟨c, hc, hbad⟩ := (Option.any_eq_true _ _).1 hfound
  obtain ⟨hstatus, hcorr⟩ := decide_eq_true_iff.1 hbad
  have hid : c.candidateId = candidateIdOf 1 := KeyedMap.key_of_get? hc
  have hconfirmed := (h c (KeyedMap.mem_values_iff.2 (hid ▸ hc))).2
    ⟨_, p, c, List.prefix_refl _, hp ▸ rfl, hid ▸ hc, hcorr⟩
  rw [hstatus] at hconfirmed
  exact absurd hconfirmed (by decide)

end Discovery
