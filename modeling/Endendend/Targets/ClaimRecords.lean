/-
**Claims and records.**

A manager keeps the target it has claimed apart from the records of its table.  The two stay in step
under every operation but one: an update from a peer replaces the whole record of a target, also of
the one that is claimed, and leaves the claim as it is.

Main definitions:

* `Targets.managerStep` — the operations of a manager as steps, with any messages;
* `Targets.ClaimRecorded` — the claimed target is pending in the table and assigned to the drone;
* `Targets.KeepsClaim` — an operation is not an update that takes the claimed target away.

Main results:

* `Targets.claimRecorded_iff` — what one operation does;
* `Targets.claim_matches_iff` — **the claim matches the records all along a run exactly if no update
  takes the claimed target away.**
-/
import Endendend.Targets.TargetManager
import Endendend.Foundation.Runs
import Mathlib.Data.Rat.Sqrt

set_option relaxedAutoImplicit false
set_option autoImplicit false

namespace Targets

open Py Runs TargetManager
open Js (OrderedMap KeyedMap)

/-! ### The invariant -/

/-- Operations as steps. -/
def managerStep (sqrt : ℚ → ℚ) (m : TargetManager) (op : ManagerOp) : Option TargetManager :=
  some (op.act sqrt m).2

/-- The claimed target is pending in the table and assigned to the drone. -/
def ClaimRecorded (m : TargetManager) : Prop :=
  ∀ t, m.claimedTarget = some t → ∃ target, m.targets.get? t = some target ∧
    target.status = ("pending" : Str) ∧ target.assignedTo = some m.myId

/-- An operation is not an update that takes the claimed target away. -/
def KeepsClaim (m : TargetManager) : ManagerOp → Prop
  | .handleMessage _ _ _ (.targetUpdate dict) =>
    dict.id ≠ Str.empty → m.claimedTarget = some dict.id →
      (Target.fromDict dict).status = ("pending" : Str) ∧ dict.assignedTo = some m.myId
  | _ => True

variable {m : TargetManager}

/-! ### The parts of the operations -/

/-- A record of another target does not matter. -/
theorem ClaimRecorded.put (h : ClaimRecorded m) {target : Target}
    (hother : m.claimedTarget ≠ some target.id) :
    ClaimRecorded { m with targets := m.targets.put target } := by
  intro t ht
  obtain ⟨before, hbefore, hrest⟩ := h t ht
  refine ⟨before, ?_, hrest⟩
  rw [KeyedMap.get?_put, if_neg, hbefore]
  rintro rfl
  exact hother ht

theorem ClaimRecorded.applyClaim (h : ClaimRecorded m) (targetId : Str) (distance : ℚ)
    (claimant : Str) (now : ℚ) :
    ClaimRecorded (m.applyClaim targetId distance claimant now) := by
  rcases applyClaim_cases m targetId distance claimant now with heq | ⟨target, ht, hp, hw⟩
  · rwa [heq]
  · have hid : target.id = targetId := KeyedMap.key_of_get? ht
    rw [applyClaim_of_wins m ht hp hw]
    by_cases hme : claimant = m.myId
    · intro t ht'
      simp only [if_pos hme, Option.some.injEq] at ht'
      subst ht'
      refine ⟨assigned target claimant distance now, ?_, hp, congrArg some hme⟩
      exact (KeyedMap.get?_put _ _ _).trans (if_pos hid.symm)
    · intro t ht'
      simp only [if_neg hme] at ht'
      split at ht'
      · cases ht'
      · next hne =>
          obtain ⟨before, hbefore, hrest⟩ := h t ht'
          refine ⟨before, ?_, hrest⟩
          refine (KeyedMap.get?_put _ _ _).trans ?_
          rw [if_neg, hbefore]
          intro heq
          exact hne (ht'.trans (congrArg some (heq.trans hid)))

theorem ClaimRecorded.tryClaim (h : ClaimRecorded m) (sqrt : ℚ → ℚ) (senses : Senses)
    (clock : Clock) (targetId : Str) :
    ClaimRecorded (m.tryClaim sqrt senses clock targetId).2 := by
  rcases tryClaim_cases m sqrt senses clock targetId with heq | ⟨target, ht, hp, _, _, heq⟩
  · rw [heq]
    exact h
  · rw [heq]
    intro t ht'
    obtain rfl := Option.some.inj ht'
    have hid : target.id = targetId := KeyedMap.key_of_get? ht
    exact ⟨_, (KeyedMap.get?_put _ _ _).trans (if_pos hid.symm), hp, rfl⟩

/-- A target that is not known is not claimed. -/
theorem ClaimRecorded.claimed_ne (h : ClaimRecorded m) {t : Str} (hnone : m.targets.get? t = none) :
    m.claimedTarget ≠ some t := by
  intro ht
  obtain ⟨target, htarget, -⟩ := h t ht
  rw [hnone] at htarget
  cases htarget

theorem ClaimRecorded.createAndAnnounceTarget (h : ClaimRecorded m) (sqrt : ℚ → ℚ)
    (senses : Senses) (clock : Clock) {targetId : Str} (hnone : m.targets.get? targetId = none)
    (location : Location) (confidence : ℚ) (reportedBy : Str) :
    ClaimRecorded
      (m.createAndAnnounceTarget sqrt senses clock targetId location confidence reportedBy).2 :=
  (h.put (h.claimed_ne hnone)).tryClaim sqrt senses clock targetId

theorem ClaimRecorded.detectTarget (h : ClaimRecorded m) (sqrt : ℚ → ℚ) (senses : Senses)
    (clock : Clock) (location : Location) (confidence : ℚ) :
    ClaimRecorded (m.detectTarget sqrt senses clock location confidence).2 := by
  unfold TargetManager.detectTarget
  split
  · exact h
  · dsimp only
    split
    · exact h
    · next hnew =>
        rw [not_or, Option.not_isSome_iff_eq_none] at hnew
        exact ClaimRecorded.createAndAnnounceTarget
          (m := { m with reportedKeys := m.reportedKeys ++ [locationKey location] }) h sqrt senses
          clock hnew.1 location confidence m.myId

theorem ClaimRecorded.ingestPeerVictimDetection (h : ClaimRecorded m) (sqrt : ℚ → ℚ)
    (senses : Senses) (clock : Clock) (sender : Str) (location : Location) (confidence : ℚ) :
    ClaimRecorded (m.ingestPeerVictimDetection sqrt senses clock sender location confidence).2 := by
  unfold TargetManager.ingestPeerVictimDetection
  split
  · exact h
  · dsimp only
    split
    · exact h
    · next hnew =>
        exact h.createAndAnnounceTarget sqrt senses clock (Option.not_isSome_iff_eq_none.1 hnew)
          location confidence sender

theorem ClaimRecorded.handleAnnouncement (h : ClaimRecorded m) (sqrt : ℚ → ℚ) (senses : Senses)
    (clock : Clock) (dict : TargetDict) :
    ClaimRecorded (m.handleAnnouncement sqrt senses clock dict).2 := by
  unfold TargetManager.handleAnnouncement
  dsimp only
  split
  · exact h
  · next hnew =>
      have hnone := h.claimed_ne (Option.not_isSome_iff_eq_none.1 hnew)
      exact (h.put hnone).tryClaim sqrt senses clock _

/-- **An update keeps the claim exactly if it does not take the claimed target away.** -/
theorem claimRecorded_handleUpdate_iff (h : ClaimRecorded m) (sqrt : ℚ → ℚ) (senses : Senses)
    (clock : Clock) (dict : TargetDict) :
    ClaimRecorded (m.handleUpdate sqrt senses clock dict).2 ↔
      (dict.id ≠ Str.empty → m.claimedTarget = some dict.id →
        (Target.fromDict dict).status = ("pending" : Str) ∧
          dict.assignedTo = some m.myId) := by
  unfold TargetManager.handleUpdate
  by_cases hid : dict.id = Str.empty
  · rw [if_pos hid]
    exact iff_of_true h fun hne => absurd hid hne
  · rw [if_neg hid]
    by_cases hclaimed : m.claimedTarget = some dict.id
    · -- the record of the claimed target is replaced, and nothing is claimed
      dsimp only
      rw [tryClaim_of_claimed { m with targets := m.targets.put (Target.fromDict dict) } hclaimed]
      have hget : (m.targets.put (Target.fromDict dict)).get? dict.id =
          some (Target.fromDict dict) := KeyedMap.get?_put_self _ _
      constructor
      · intro hrec _ _
        obtain ⟨target, htarget, hrest⟩ := hrec dict.id hclaimed
        obtain rfl := Option.some.inj (hget.symm.trans htarget)
        exact hrest
      · intro hkeep t ht
        obtain rfl := Option.some.inj (hclaimed.symm.trans ht)
        exact ⟨_, hget, hkeep hid hclaimed⟩
    · refine iff_of_true ?_ fun _ heq => absurd heq hclaimed
      exact (@ClaimRecorded.put m h (Target.fromDict dict) hclaimed).tryClaim sqrt senses clock _

theorem ClaimRecorded.erase (h : ClaimRecorded m) (targetId : Str) (keys : List Str) :
    ClaimRecorded { m with
      targets := m.targets.erase targetId
      claimedTarget := if m.claimedTarget = some targetId then none else m.claimedTarget
      reportedKeys := keys } := by
  intro t ht
  simp only at ht
  split at ht
  · cases ht
  · next hne =>
      obtain ⟨target, htarget, hrest⟩ := h t ht
      refine ⟨target, (KeyedMap.get?_erase _ _ _).trans ?_, hrest⟩
      rw [if_neg, htarget]
      rintro rfl
      exact hne ht

theorem ClaimRecorded.reachedTarget (h : ClaimRecorded m) : ClaimRecorded m.reachedTarget.2 := by
  unfold TargetManager.reachedTarget
  split
  · exact h
  · split
    · exact fun t ht => absurd ht (by simp)
    · exact fun t ht => absurd ht (by simp)

theorem ClaimRecorded.reclaim (h : ClaimRecorded m) (tid : Str) :
    ClaimRecorded (m.reclaim tid).2 := by
  unfold TargetManager.reclaim
  split
  · exact h
  · next target htarget =>
      have hid : target.id = tid := KeyedMap.key_of_get? htarget
      intro t ht
      simp only at ht
      split at ht
      · cases ht
      · next hne =>
          obtain ⟨before, hbefore, hrest⟩ := h t ht
          refine ⟨before, (KeyedMap.get?_put _ _ _).trans ?_, hrest⟩
          rw [if_neg, hbefore]
          intro heq
          exact hne (ht.trans (congrArg some (heq.trans hid)))

/-- Removing targets that are resolved removes no claimed one. -/
theorem ClaimRecorded.cleanupOldResolved (h : ClaimRecorded m) (now : ℚ) :
    ClaimRecorded (m.cleanupOldResolved now) := by
  intro t ht
  obtain ⟨target, htarget, hpending, hassigned⟩ := h t ht
  refine ⟨target, (get?_foldl_erase _ fun d hd hid => ?_).trans htarget, hpending, hassigned⟩
  -- a record that is removed is resolved, and the claimed one is pending
  obtain ⟨hmem, hres⟩ := List.mem_filter.1 hd
  rw [KeyedMap.mem_values_iff, hid, htarget] at hmem
  obtain rfl := Option.some.inj hmem
  have hresolved := (of_decide_eq_true hres).1
  rw [hpending] at hresolved
  exact absurd hresolved (by decide)

theorem ClaimRecorded.tick (h : ClaimRecorded m) (now : ℚ) : ClaimRecorded (m.tick now).2 := by
  refine ClaimRecorded.cleanupOldResolved ?_ now
  exact List.foldlRecOn (motive := fun r : List Message × TargetManager => ClaimRecorded r.2) _ _ h
    fun r hr tid _ => hr.reclaim tid

/-! ### Every run -/

/-- The claim matches the records after an operation. -/
def ClaimMatches (sqrt : ℚ → ℚ) (m : TargetManager) (op : ManagerOp) : Prop :=
  ∀ m', managerStep sqrt m op = some m' → ClaimRecorded m'

/-- **What one operation does.** -/
theorem claimRecorded_iff (h : ClaimRecorded m) (sqrt : ℚ → ℚ) (op : ManagerOp) :
    ClaimMatches sqrt m op ↔ KeepsClaim m op := by
  have hsome {m₁ : TargetManager} (hm₁ : managerStep sqrt m op = some m₁) :
      ClaimMatches sqrt m op ↔ ClaimRecorded m₁ := by
    constructor
    · exact fun hmatch => hmatch m₁ hm₁
    · exact fun hrec m' hm' => Option.some.inj (hm₁.symm.trans hm') ▸ hrec
  cases op with
  | detectTarget senses clock location confidence =>
      exact (hsome rfl).trans
        (iff_of_true (h.detectTarget sqrt senses clock location confidence) trivial)
  | handleMessage senses clock sender message =>
      refine (hsome rfl).trans ?_
      cases message with
      | victimDetected location confidence =>
          refine iff_of_true ?_ trivial
          simp only [ManagerOp.act, TargetManager.handleMessage]
          cases locationOf location with
          | none => exact h
          | some place => exact h.ingestPeerVictimDetection sqrt senses clock sender place _
      | targetAnnouncement dict =>
          exact iff_of_true (h.handleAnnouncement sqrt senses clock dict) trivial
      | targetUpdate dict => exact claimRecorded_handleUpdate_iff h sqrt senses clock dict
      | targetClaim targetId distance claimant =>
          exact iff_of_true (h.applyClaim targetId distance claimant clock.assigned) trivial
      | targetResolved targetId => exact iff_of_true (h.erase targetId _) trivial
  | tick now => exact (hsome rfl).trans (iff_of_true (h.tick now) trivial)
  | reachedTarget => exact (hsome rfl).trans (iff_of_true h.reachedTarget trivial)

/-- **The claim matches the records all along a run exactly if no update takes the claimed target
away.** -/
theorem claim_matches_iff (sqrt : ℚ → ℚ) (myId : Str) (ops : List ManagerOp) :
    Along (managerStep sqrt) (ClaimMatches sqrt) (.new myId) ops ↔
      Along (managerStep sqrt) KeepsClaim (.new myId) ops := by
  refine along_congr (I := ClaimRecorded) (fun m op m' _ hmatch hstep => hmatch m' hstep)
    (fun m op h => claimRecorded_iff h sqrt op) ?_
  exact fun t ht => absurd ht (by simp [TargetManager.new])

/-- A drone on standby at the origin. -/
def atOrigin : Senses := ⟨.standby, ⟨0, 0, 0⟩⟩

/-- It detects a target there, and claims it. -/
def detectsHere : ManagerOp := .detectTarget atOrigin ⟨10, 10, 10⟩ ⟨0, 0, 0⟩ 1

/-- A peer, in whose table the assignment has timed out, takes it back. -/
def peerReclaims : ManagerOp :=
  .handleMessage atOrigin ⟨55, 55, 55⟩ "d2"
    (.targetUpdate ⟨"victim_0_0_0", [0, 0, 0], 10, 1, "d1", some "pending", none, none, none⟩)

theorem reclaim_leaves_claim :
    ¬ ∀ (sqrt : ℚ → ℚ) (myId : Str) (ops : List ManagerOp),
      Along (managerStep sqrt) (ClaimMatches sqrt) (.new myId) ops := by
  intro h
  obtain ⟨m, hm⟩ : ∃ m, managerStep Rat.sqrt (.new "d1") detectsHere = some m := ⟨_, rfl⟩
  obtain ⟨m', hm'⟩ : ∃ m', managerStep Rat.sqrt m peerReclaims = some m' := ⟨_, rfl⟩
  have hclaimed : m'.claimedTarget = some "victim_0_0_0" ∧
      (m'.targets.get? "victim_0_0_0").map (·.assignedTo) = some none := by
    obtain rfl := Option.some.inj hm
    obtain rfl := Option.some.inj hm'
    decide +kernel
  have hmatches := (h Rat.sqrt "d1" [detectsHere, peerReclaims]).2 m hm
  obtain ⟨target, htarget, -, hassigned⟩ := hmatches.1 m' hm' _ hclaimed.1
  have hnone := hclaimed.2
  rw [htarget, Option.map_some, hassigned] at hnone
  exact absurd (Option.some.inj hnone) (Option.some_ne_none _)

end Targets
