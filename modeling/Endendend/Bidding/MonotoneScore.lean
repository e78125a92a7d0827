/-
**A better bid scores no less.**

Trust, battery and link quality enter the score twice, as points and as a penalty below a threshold;
the distance and the time of arrival are cut off at zero, the confidence at both ends, and the sum
is rounded.  Each of these is monotone, so a bid that is at least as good in all of them has a total
at least as high, and it takes no later place in the ranking, whichever bids it competes with.

Main definitions:

* `Bidding.AtLeastAsGood` — two bids with their nodes that differ in nothing else.

Main results:

* `Bidding.total_mono` — the better bid has a total at least as high;
* `Bidding.score_monotone` — **and a place in the ranking at least as early**.
-/
import Endendend.Bidding.BidScorer
import Endendend.Foundation.SortedPlace
import Mathlib.Algebra.Order.Floor.Ring
import Mathlib.Tactic.Linarith
import Mathlib.Tactic.Positivity

set_option relaxedAutoImplicit false
set_option autoImplicit false

namespace Bidding

open Js

/-- The first bid, with its node, is at least as good as the second one, and they differ in nothing
else that the scorer reads. -/
structure AtLeastAsGood (distance : XYPoint → XYPoint → ℚ) (task : TaskWorkItem)
    (better worse : TaskBid × NodeProfile) : Prop where
  bid : worse.1 =
    { better.1 with
      batteryPct := worse.1.batteryPct
      linkQuality := worse.1.linkQuality
      etaMs := worse.1.etaMs
      confidence := worse.1.confidence }
  node : worse.2 =
    { better.2 with
      trustScore := worse.2.trustScore
      reputationScore := worse.2.reputationScore
      batteryPct := worse.2.batteryPct
      linkQuality := worse.2.linkQuality
      location := worse.2.location }
  trustScore : worse.2.trustScore ≤ better.2.trustScore
  reputationScore : worse.2.reputationScore ≤ better.2.reputationScore
  batteryPct : worse.2.batteryPct ≤ better.2.batteryPct
  linkQuality : worse.2.linkQuality ≤ better.2.linkQuality
  confidence : worse.1.confidence ≤ better.1.confidence
  etaMs : better.1.etaMs ≤ worse.1.etaMs
  /-- Where the second node has a distance to the task, the first one has none that is longer. -/
  distance : ∀ a b, task.location = some a → worse.2.location = some b →
    ∃ c, better.2.location = some c ∧ distance a c ≤ distance a b

/-! ### The terms of the score -/

theorem round2_mono {a b : ℚ} (h : a ≤ b) : round2 a ≤ round2 b := by
  have hfloor : ⌊a * 100 + 1 / 2⌋ ≤ ⌊b * 100 + 1 / 2⌋ := Int.floor_le_floor (by linarith)
  have hcast : (⌊a * 100 + 1 / 2⌋ : ℚ) ≤ ⌊b * 100 + 1 / 2⌋ := Int.cast_le.2 hfloor
  unfold round2
  linarith

theorem clamp_mono {a b : ℚ} (lo hi : ℚ) (h : a ≤ b) : clamp a lo hi ≤ clamp b lo hi :=
  max_le_max_left lo (min_le_min_left hi h)

/-- A penalty below a threshold falls away as the value grows. -/
theorem penalty_anti {a b points : ℚ} (threshold : ℚ) (h : a ≤ b) (hpoints : 0 ≤ points) :
    (if b < threshold then points else 0) ≤ if a < threshold then points else 0 := by
  by_cases hb : b < threshold
  · rw [if_pos hb, if_pos (lt_of_le_of_lt h hb)]
  · rw [if_neg hb]
    split
    · exact hpoints
    · exact le_refl 0

section Terms

variable {distance : XYPoint → XYPoint → ℚ} {numText : ℚ → Str} {task : TaskWorkItem}
  {better worse : TaskBid × NodeProfile}

/-- What the scorer reads of the node besides the terms that may differ. -/
theorem AtLeastAsGood.fixed (h : AtLeastAsGood distance task better worse) :
    capabilityPoints task worse.2 = capabilityPoints task better.2 ∧
      rolePoints task worse.2 = rolePoints task better.2 ∧
        scenarioPoints task worse.2 = scenarioPoints task better.2 ∧
          worse.2.gpsFix = better.2.gpsFix := by
  rw [h.node]
  exact ⟨rfl, rfl, rfl, rfl⟩

theorem AtLeastAsGood.penaltyPoints_le (h : AtLeastAsGood distance task better worse) :
    penaltyPoints task better.2 ≤ penaltyPoints task worse.2 := by
  have hbattery := penalty_anti task.minBatteryPct h.batteryPct (show (0 : ℚ) ≤ 30 by norm_num)
  have htrust := penalty_anti task.minTrustScore h.trustScore (show (0 : ℚ) ≤ 20 by norm_num)
  have hlink := penalty_anti (2 / 10) h.linkQuality (show (0 : ℚ) ≤ 15 by norm_num)
  unfold penaltyPoints
  rw [h.fixed.2.2.2]
  linarith

variable (numText) in
theorem AtLeastAsGood.distancePoints_le (h : AtLeastAsGood distance task better worse) :
    (distancePoints distance numText task worse.2).1 ≤
      (distancePoints distance numText task better.2).1 := by
  unfold distancePoints
  cases hloc : task.location with
  | none => exact le_refl 0
  | some a =>
      cases hworse : worse.2.location with
      | none =>
          cases better.2.location with
          | none => exact le_refl 0
          | some c => exact le_max_left _ _
      | some b =>
          obtain ⟨c, hbetter, hdist⟩ := h.distance a b hloc hworse
          rw [hbetter]
          have hscale : (0 : ℚ) < max 1 (task.maxDistanceM.getD 500) :=
            lt_max_of_lt_left one_pos
          have hdiv := div_le_div_of_nonneg_right hdist hscale.le
          exact max_le_max_left 0 (by linarith)

/-- **The better bid has a total at least as high.** -/
theorem total_mono (h : AtLeastAsGood distance task better worse) :
    (score distance numText task worse.2 worse.1).total ≤
      (score distance numText task better.2 better.1).total := by
  obtain ⟨hcapability, hrole, hscenario, -⟩ := h.fixed
  have htrust := h.trustScore
  have hreputation := h.reputationScore
  have hbattery := h.batteryPct
  have hlink := h.linkQuality
  have hconfidence := clamp_mono 0 1 h.confidence
  have hdistance := h.distancePoints_le numText
  have hpenalties := h.penaltyPoints_le
  have heta : max 0 (10 - worse.1.etaMs / 1000 * (15 / 10)) ≤
      max 0 (10 - better.1.etaMs / 1000 * (15 / 10)) :=
    max_le_max_left 0 (by linarith [h.etaMs])
  refine round2_mono ?_
  rw [hcapability, hrole, hscenario]
  linarith

/-! ### The place in the ranking -/

instance : Std.Total RanksBefore where
  total a b := by
    unfold RanksBefore
    rcases lt_trichotomy a.score.total b.score.total with h | h | h
    · exact Or.inr (Or.inl h)
    · rcases lt_trichotomy a.etaMs b.etaMs with he | he | he
      · exact Or.inl (Or.inr ⟨h.symm, Or.inl he⟩)
      · rcases le_total b.confidence a.confidence with hc | hc
        · exact Or.inl (Or.inr ⟨h.symm, Or.inr ⟨he, hc⟩⟩)
        · exact Or.inr (Or.inr ⟨h, Or.inr ⟨he.symm, hc⟩⟩)
      · exact Or.inr (Or.inr ⟨h, Or.inl he⟩)
    · exact Or.inl (Or.inl h)

instance : IsTrans WeightedBid RanksBefore where
  trans a b c := by
    rintro (hab | ⟨hab, hab'⟩) (hbc | ⟨hbc, hbc'⟩)
    · exact Or.inl (hbc.trans hab)
    · exact Or.inl (hbc.symm ▸ hab)
    · exact Or.inl (hab ▸ hbc)
    · refine Or.inr ⟨hbc.trans hab, ?_⟩
      rcases hab' with hab' | ⟨hab', hab''⟩
      · rcases hbc' with hbc' | ⟨hbc', -⟩
        · exact Or.inl (hab'.trans hbc')
        · exact Or.inl (hbc' ▸ hab')
      · rcases hbc' with hbc' | ⟨hbc', hbc''⟩
        · exact Or.inl (hab' ▸ hbc')
        · exact Or.inr ⟨hab'.trans hbc', hbc''.trans hab''⟩

variable (distance numText) in
/-- Where a bid stands among its competitors. -/
theorem rank_split (task : TaskWorkItem) (pre post : List (TaskBid × NodeProfile))
    (p : TaskBid × NodeProfile) :
    let weighted := fun q : TaskBid × NodeProfile => chooseBest distance numText task q.2 q.1
    ∃ before after,
      rank distance numText task (pre ++ p :: post) = before ++ weighted p :: after ∧
        before.length = (pre.countP fun q => RanksBefore (weighted q) (weighted p)) +
          post.countP fun q => ¬ RanksBefore (weighted p) (weighted q) := by
  intro weighted
  obtain ⟨before, after, hsort, hlength⟩ := SortedPlace.exists_split_length RanksBefore
    (pre.map weighted) (post.map weighted) (weighted p)
  refine ⟨before, after, ?_, ?_⟩
  · rw [rank, List.map_append, List.map_cons]
    exact hsort
  · rw [hlength, List.countP_map, List.countP_map]
    rfl

theorem ranksBefore_of_atLeastAsGood (h : AtLeastAsGood distance task better worse) :
    RanksBefore (chooseBest distance numText task better.2 better.1)
      (chooseBest distance numText task worse.2 worse.1) := by
  rcases (@total_mono _ numText _ _ _ h).lt_or_eq with hlt | heq
  · exact Or.inl hlt
  · refine Or.inr ⟨heq, ?_⟩
    rcases h.etaMs.lt_or_eq with he | he
    · exact Or.inl he
    · exact Or.inr ⟨he, h.confidence⟩

/-- **Scoring is monotone**: the better bid has a total at least as high, and among any competitors
it takes a place at least as early as the other one would. -/
theorem score_monotone (h : AtLeastAsGood distance task better worse) :
    (score distance numText task worse.2 worse.1).total ≤
        (score distance numText task better.2 better.1).total ∧
      ∀ pre post, ∃ before after before' after',
        rank distance numText task (pre ++ better :: post) =
            before ++ chooseBest distance numText task better.2 better.1 :: after ∧
          rank distance numText task (pre ++ worse :: post) =
              before' ++ chooseBest distance numText task worse.2 worse.1 :: after' ∧
            before.length ≤ before'.length := by
  refine ⟨total_mono h, fun pre post => ?_⟩
  obtain ⟨before, after, hbetter, hlength⟩ := rank_split distance numText task pre post better
  obtain ⟨before', after', hworse, hlength'⟩ := rank_split distance numText task pre post worse
  refine ⟨before, after, before', after', hbetter, hworse, ?_⟩
  have hrank := @ranksBefore_of_atLeastAsGood _ numText _ _ _ h
  rw [hlength, hlength']
  -- whatever comes before the better bid comes before the other one too
  refine Nat.add_le_add (List.countP_mono_left fun q _ hq => ?_)
    (List.countP_mono_left fun q _ hq => ?_)
  · simp only [decide_eq_true_eq] at hq ⊢
    exact IsTrans.trans _ _ _ hq hrank
  · simp only [decide_eq_true_eq] at hq ⊢
    exact fun hw => hq (IsTrans.trans _ _ _ hrank hw)

end Terms

/-! ### Two bids that differ in their trust -/

def plainTask : TaskWorkItem where
  taskId := "t1"
  missionId := "m1"
  scenario := .forest
  taskType := "search"
  priority := 1
  location := some ⟨0, 0, none⟩
  requiredCapabilities := []
  minTrustScore := 1 / 2
  minBatteryPct := 20
  maxDistanceM := none
  rescueTargetId := none
  createdAtMs := 0
  expiresAtMs := 100
  synthesized := false

/-- A bid of a node with this trust at this distance. -/
def bidWithTrust (trust away : ℚ) : TaskBid × NodeProfile where
  fst :=
    { bidId := "b1", taskId := "t1", nodeId := "n1", batteryPct := 80, linkQuality := 1, etaMs := 10
      confidence := 1, resources := [], createdAtMs := 1, expiresAtMs := 100, status := .submitted
      validationReasons := [], validatorScore := 0, rejectReason := none, cancelReason := none
      rest := [] }
  snd :=
    { nodeId := "n1", role := .explorer, tags := [], indoorSuitability := 1
      outdoorSuitability := 1, batteryPct := 80, linkQuality := 1, gpsFix := true
      trustScore := trust, reputationScore := 1, location := some ⟨away, 0, none⟩ }

/-- The distance along the first axis. -/
def axisDistance (a b : XYPoint) : ℚ := |a.x - b.x|

/-- A trusted node nearby scores no less than another one far away. -/
theorem score_monotone_trust_and_distance :
    (score axisDistance (fun _ => []) plainTask (bidWithTrust 0 40).2 (bidWithTrust 0 40).1).total ≤
      (score axisDistance (fun _ => []) plainTask (bidWithTrust 1 3).2
        (bidWithTrust 1 3).1).total := by
  have h : AtLeastAsGood axisDistance plainTask (bidWithTrust 1 3) (bidWithTrust 0 40) :=
    { bid := rfl
      node := rfl
      trustScore := zero_le_one
      reputationScore := le_refl _
      batteryPct := le_refl _
      linkQuality := le_refl _
      confidence := le_refl _
      etaMs := le_refl _
      distance := by
        rintro a b ha hb
        obtain rfl := Option.some.inj ha
        obtain rfl := Option.some.inj hb
        exact ⟨_, rfl, by norm_num [axisDistance]⟩ }
  exact (@score_monotone _ (fun _ => []) _ _ _ h).1

end Bidding
