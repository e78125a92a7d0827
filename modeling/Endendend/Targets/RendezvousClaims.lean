/-
**Claims by rendezvous** (`_swarm_ids_for_rendezvous`, `_rendezvous_winner` and `_try_claim` in
`swarm/target_manager.py`, with `TARGET_USE_RENDEZVOUS_CLAIM` set).

Instead of bidding by distance, the drones can leave a target to the one that a hash of target and
drone chooses among the drones registered at the network.  No message is needed for that, but drones
come and go, and what is known of a target changes in many ways.

Main definitions:

* `Targets.rendezvousWinner`, `Targets.swarmIdsForRendezvous` — the choice, and among whom;
* `Targets.TargetManager.tryClaimWith` — an attempt to claim with either setting;
* `Targets.rendezvousStep` — drones that come, go and claim, while their tables change in any way.

Main results:

* `Targets.rendezvousWinner_eq` — the loop chooses the heaviest drone;
* `Targets.tryClaimWith_false` — without the setting a target is claimed by distance;
* `Targets.RendezvousWorld.tryClaim_ne_nil_iff` — when an attempt sends a claim;
* `Targets.claimants_agree_unless_moved` — **two drones claim the same target only if the first has
  left or the second has come in between**.
-/
import Endendend.Foundation.Rendezvous
import Endendend.Foundation.Runs
import Endendend.Targets.TargetManager

set_option relaxedAutoImplicit false
set_option autoImplicit false

namespace Targets

open Py
open Js (KeyedMap uniq)
open Runs

/-! ### The choice -/

/-- The drone that the hash chooses; `hash` is the number in the first eight bytes of the digest of
a text. -/
def rendezvousWinner (hash : Str → ℕ) (taskId : Str) (nodeIds : List Str) : Option Str :=
  (nodeIds.foldl
    (fun best nid =>
      let v : ℤ := hash (taskId ++ "|" ++ nid)
      if v > best.2 then (some nid, v) else best)
    (none, -1)).1

/-- The drones that are registered at the network, or else the known ones. -/
def swarmIdsForRendezvous (myId : Str) (registered knownPeers : Option (List Str)) : List Str :=
  match registered with
  | some ids => ids.mergeSort (· ≤ ·)
  | none =>
    match knownPeers with
    | some kp => (uniq (myId :: kp)).mergeSort (· ≤ ·)
    | none => [myId]

/-- An attempt to claim a target, by rendezvous or by distance. -/
def TargetManager.tryClaimWith (useRendezvous : Bool) (hash : Str → ℕ) (swarmIds : List Str)
    (sqrt : ℚ → ℚ) (senses : Senses) (clock : Clock) (m : TargetManager) (targetId : Str) :
    List Message × TargetManager :=
  match m.targets.get? targetId with
  | none => ([], m)
  | some target =>
    if target.status ≠ "pending" ∨ m.claimedTarget ≠ none ∨
        !TargetManager.eligibleRole senses.role then ([], m)
    else if useRendezvous then
      if rendezvousWinner hash targetId swarmIds ≠ some m.myId then ([], m)
      else
        let myDistance := distance sqrt senses.position target.location
        let m := { m with lastClaimAttempt := m.lastClaimAttempt.set targetId clock.attempt }
        ([.targetClaim targetId myDistance m.myId],
          m.applyClaim targetId myDistance m.myId clock.assigned)
    else m.tryClaim sqrt senses clock targetId

/-- Without the setting a target is claimed by distance. -/
theorem tryClaimWith_false (hash : Str → ℕ) (swarmIds : List Str) (sqrt : ℚ → ℚ) (senses : Senses)
    (clock : Clock) (m : TargetManager) (targetId : Str) :
    m.tryClaimWith false hash swarmIds sqrt senses clock targetId =
      m.tryClaim sqrt senses clock targetId := by
  rw [TargetManager.tryClaimWith, TargetManager.tryClaim]
  cases m.targets.get? targetId with
  | none => rfl
  | some target =>
      by_cases hskip : target.status ≠ "pending" ∨ m.claimedTarget ≠ none ∨
          !TargetManager.eligibleRole senses.role
      · simp only [if_pos hskip]
      · simp only [if_neg hskip, Bool.false_eq_true, if_false]

/-- The weight of a drone for a target. -/
def weight (hash : Str → ℕ) (taskId nid : Str) : ℕ := hash (taskId ++ "|" ++ nid)

/-- **The loop chooses the heaviest drone**, the first one of equally heavy ones. -/
theorem rendezvousWinner_eq (hash : Str → ℕ) (taskId : Str) (nodeIds : List Str) :
    rendezvousWinner hash taskId nodeIds = nodeIds.argmax (weight hash taskId) := by
  -- the second component is the weight of the best drone so far, or below all weights
  suffices h : nodeIds.foldl
      (fun best nid => if (weight hash taskId nid : ℤ) > best.2 then
        (some nid, (weight hash taskId nid : ℤ)) else best) (none, -1) =
      (nodeIds.argmax (weight hash taskId),
        ((nodeIds.argmax (weight hash taskId)).map fun n =>
          (weight hash taskId n : ℤ)).getD (-1)) by
    exact congrArg Prod.fst h
  induction nodeIds using List.reverseRecOn with
  | nil => rfl
  | append_singleton nodeIds nid ih =>
      rw [List.foldl_concat, ih, List.argmax_concat]
      cases nodeIds.argmax (weight hash taskId) with
      | none =>
          have hpos : (weight hash taskId nid : ℤ) > -1 := by omega
          simp [hpos]
      | some best =>
          by_cases hlt : weight hash taskId best < weight hash taskId nid <;> simp [hlt]

/-! ### Drones that come, go and claim -/

/-- Who is registered at the network, and the table of every drone. -/
structure RendezvousWorld where
  registered : List Str
  managers : Str → TargetManager

/-- A drone comes, goes, or attempts to claim a target, or its table changes in any other way. -/
inductive RendezvousMove
  | register (d : Str)
  | unregister (d : Str)
  | attempt (d : Str) (senses : Senses) (clock : Clock) (targetId : Str)
  | change (d : Str) (m : TargetManager)

def RendezvousWorld.start : RendezvousWorld := ⟨[], TargetManager.new⟩

/-- An attempt of a drone to claim a target. -/
def RendezvousWorld.tryClaim (w : RendezvousWorld) (hash : Str → ℕ) (sqrt : ℚ → ℚ) (d : Str)
    (senses : Senses) (clock : Clock) (targetId : Str) : List Message × TargetManager :=
  (w.managers d).tryClaimWith true hash (swarmIdsForRendezvous d (some w.registered) none) sqrt
    senses clock targetId

def rendezvousStep (hash : Str → ℕ) (sqrt : ℚ → ℚ) (w : RendezvousWorld) :
    RendezvousMove → Option RendezvousWorld
  | .register d => some { w with registered := w.registered ++ [d] }
  | .unregister d => some { w with registered := w.registered.filter (· ≠ d) }
  | .attempt d senses clock targetId =>
      some { w with
        managers :=
          Function.update w.managers d (w.tryClaim hash sqrt d senses clock targetId).2 }
  -- the id of a manager is never written
  | .change d m =>
      if m.myId = d then some { w with managers := Function.update w.managers d m } else none

/-- Does a drone send a claim for a target in a step? -/
def Claims (hash : Str → ℕ) (sqrt : ℚ → ℚ) (w : RendezvousWorld) (d targetId : Str) :
    RendezvousMove → Prop
  | .attempt d' senses clock targetId' =>
      d' = d ∧ targetId' = targetId ∧ (w.tryClaim hash sqrt d' senses clock targetId').1 ≠ []
  | _ => False

variable {hash : Str → ℕ} {sqrt : ℚ → ℚ} {w w' : RendezvousWorld} {mv : RendezvousMove}

theorem myId_applyClaim (m : TargetManager) (t : Str) (distance : ℚ) (claimant : Str) (now : ℚ) :
    (m.applyClaim t distance claimant now).myId = m.myId := by
  rw [TargetManager.applyClaim]
  repeat' split
  all_goals rfl

/-- **When an attempt sends a claim**: the target is pending, the drone is free and has a role for
it, and it is the one that is chosen. -/
theorem RendezvousWorld.tryClaim_ne_nil_iff (w : RendezvousWorld) (hash : Str → ℕ) (sqrt : ℚ → ℚ)
    (d : Str) (senses : Senses) (clock : Clock) (t : Str) :
    (w.tryClaim hash sqrt d senses clock t).1 ≠ [] ↔
      (∃ target ∈ (w.managers d).targets.get? t, target.status = ("pending" : Str)) ∧
        (w.managers d).claimedTarget = none ∧ TargetManager.eligibleRole senses.role = true ∧
        Rendezvous.winner (weight hash t) w.registered = some (w.managers d).myId := by
  rw [tryClaim, TargetManager.tryClaimWith]
  cases (w.managers d).targets.get? t with
  | none => simp
  | some target =>
      dsimp only
      split
      · next hskip =>
          refine iff_of_false (fun hne => hne rfl) ?_
          rintro ⟨⟨target', heq, hpending⟩, hfree, hrole, -⟩
          obtain rfl := Option.some.inj heq
          simp [hpending, hfree, hrole] at hskip
      · next hready =>
          simp only [not_or, not_not, Bool.not_eq_true', Bool.not_eq_false] at hready
          rw [if_pos rfl, swarmIdsForRendezvous, rendezvousWinner_eq, ← Rendezvous.winner]
          split <;> simp_all

theorem RendezvousWorld.myId_tryClaim (w : RendezvousWorld) (hash : Str → ℕ) (sqrt : ℚ → ℚ)
    (d : Str) (senses : Senses) (clock : Clock) (t : Str) :
    (w.tryClaim hash sqrt d senses clock t).2.myId = (w.managers d).myId := by
  rw [tryClaim, TargetManager.tryClaimWith]
  cases (w.managers d).targets.get? t with
  | none => rfl
  | some target =>
      dsimp only
      split
      · rfl
      · rw [if_pos rfl]
        split
        · rfl
        · exact myId_applyClaim _ _ _ _ _

/-- A step keeps the ids of the managers. -/
theorem myId_step (hid : ∀ d, (w.managers d).myId = d)
    (hstep : rendezvousStep hash sqrt w mv = some w') (d : Str) : (w'.managers d).myId = d := by
  cases mv with
  | register d' =>
      obtain rfl := Option.some.inj hstep
      exact hid d
  | unregister d' =>
      obtain rfl := Option.some.inj hstep
      exact hid d
  | attempt d' senses clock t =>
      obtain rfl := Option.some.inj hstep
      exact Function.forall_update_iff w.managers (fun d m => m.myId = d) |>.2
        ⟨(w.myId_tryClaim hash sqrt d' senses clock t).trans (hid d'), fun d _ => hid d⟩ d
  | change d' m =>
      simp only [rendezvousStep] at hstep
      split_ifs at hstep with hm
      obtain rfl := Option.some.inj hstep
      exact Function.forall_update_iff w.managers (fun d m => m.myId = d) |>.2
        ⟨hm, fun d _ => hid d⟩ d

/-- Who claims a target is chosen for it. -/
theorem winner_of_claims (hid : ∀ d, (w.managers d).myId = d) {d t : Str}
    (h : Claims hash sqrt w d t mv) :
    Rendezvous.winner (weight hash t) w.registered = some d := by
  cases mv with
  | attempt d' senses clock t' =>
      obtain ⟨rfl, rfl, hclaim⟩ := h
      exact hid d' ▸ ((w.tryClaim_ne_nil_iff hash sqrt d' senses clock t').1 hclaim).2.2.2
  | _ => exact h.elim

/-- A drone that does not leave stays registered. -/
theorem registered_of_stays {d : Str} (hd : d ∈ w.registered) (hstay : mv ≠ .unregister d)
    (hstep : rendezvousStep hash sqrt w mv = some w') : d ∈ w'.registered := by
  cases mv with
  | register d' =>
      obtain rfl := Option.some.inj hstep
      exact List.mem_append_left _ hd
  | unregister d' =>
      obtain rfl := Option.some.inj hstep
      exact List.mem_filter.2 ⟨hd, decide_eq_true fun heq => hstay (by rw [heq])⟩
  | attempt d' senses clock t =>
      obtain rfl := Option.some.inj hstep
      exact hd
  | change d' m =>
      simp only [rendezvousStep] at hstep
      split_ifs at hstep
      obtain rfl := Option.some.inj hstep
      exact hd

/-- A drone that does not come was registered before. -/
theorem registered_of_no_register {d : Str} (hd : d ∈ w'.registered) (hnew : mv ≠ .register d)
    (hstep : rendezvousStep hash sqrt w mv = some w') : d ∈ w.registered := by
  cases mv with
  | register d' =>
      obtain rfl := Option.some.inj hstep
      rcases List.mem_append.1 hd with hd | hd
      · exact hd
      · exact absurd (List.mem_singleton.1 hd ▸ rfl) hnew
  | unregister d' =>
      obtain rfl := Option.some.inj hstep
      exact List.mem_of_mem_filter hd
  | attempt d' senses clock t =>
      obtain rfl := Option.some.inj hstep
      exact hd
  | change d' m =>
      simp only [rendezvousStep] at hstep
      split_ifs at hstep
      obtain rfl := Option.some.inj hstep
      exact hd

theorem registered_run {d : Str} {mvs : List RendezvousMove}
    (h : run (rendezvousStep hash sqrt) w mvs = some w') :
    (.unregister d ∉ mvs → d ∈ w.registered → d ∈ w'.registered) ∧
      (.register d ∉ mvs → d ∈ w'.registered → d ∈ w.registered) := by
  induction mvs generalizing w with
  | nil =>
      obtain rfl := Option.some.inj h
      exact ⟨fun _ hd => hd, fun _ hd => hd⟩
  | cons mv mvs ih =>
      obtain ⟨w₁, hstep, h⟩ := run_cons.1 h
      simp only [List.mem_cons, not_or]
      exact ⟨fun hstay hd => (ih h).1 hstay.2 (registered_of_stays hd (Ne.symm hstay.1) hstep),
        fun hnew hd => registered_of_no_register ((ih h).2 hnew.2 hd) (Ne.symm hnew.1) hstep⟩

/-- **Two drones claim the same target only if the first has left or the second has come in
between**, whatever else has happened to the tables of all drones. -/
theorem claimants_agree_unless_moved {before between : List RendezvousMove}
    {w₁ w₂ : RendezvousWorld} {mv₁ mv₂ : RendezvousMove} {d₁ d₂ t : Str}
    (h₁ : run (rendezvousStep hash sqrt) .start before = some w₁)
    (hclaim₁ : Claims hash sqrt w₁ d₁ t mv₁)
    (h₂ : run (rendezvousStep hash sqrt) w₁ (mv₁ :: between) = some w₂)
    (hclaim₂ : Claims hash sqrt w₂ d₂ t mv₂) :
    d₁ = d₂ ∨ .unregister d₁ ∈ between ∨ .register d₂ ∈ between := by
  by_contra! hmoved
  obtain ⟨hne, hstay, hnew⟩ := hmoved
  have hid₁ : ∀ d, (w₁.managers d).myId = d :=
    invariant_of_run (fun _ _ _ hid hstep d => myId_step hid hstep d) (fun _ => rfl) h₁
  have hid₂ : ∀ d, (w₂.managers d).myId = d :=
    invariant_of_run (fun _ _ _ hid hstep d => myId_step hid hstep d) hid₁ h₂
  have hwin₁ := winner_of_claims hid₁ hclaim₁
  have hwin₂ := winner_of_claims hid₂ hclaim₂
  have hmv : ∀ d, mv₁ ≠ .unregister d ∧ mv₁ ≠ .register d := by
    intro d
    constructor <;> rintro rfl <;> exact hclaim₁
  refine hne (Rendezvous.eq_of_winner hwin₁ hwin₂ ?_ ?_)
  · refine (registered_run h₂).1 ?_ (Rendezvous.winner_eq_some_iff.1 hwin₁).1
    exact fun hmem => (List.mem_cons.1 hmem).elim (Ne.symm (hmv d₁).1) hstay
  · refine (registered_run h₂).2 ?_ (Rendezvous.winner_eq_some_iff.1 hwin₂).1
    exact fun hmem => (List.mem_cons.1 hmem).elim (Ne.symm (hmv d₂).2) hnew

/-- A hash that prefers `b` to `a`. -/
def prefersB (text : Str) : ℕ := if text = "victim|b" then 2 else 1

/-- A drone that has heard of a target. -/
def informed (d : Str) : TargetManager :=
  { TargetManager.new d with
    targets := (∅ : KeyedMap Target.id).put
      ⟨"victim", ⟨0, 0, 0⟩, 10, 1, "a", "pending", none, none, none⟩ }

def attempts (d : Str) : RendezvousMove :=
  .attempt d ⟨.standby, ⟨0, 0, 0⟩⟩ ⟨10, 10, 10⟩ "victim"

def aAlone : List RendezvousMove := [.register "a", .change "a" (informed "a")]

def bJoins : List RendezvousMove := [.register "b", .change "b" (informed "b")]

/-- The drone `a` claims a target; then `b` comes, is chosen, and claims it, too. -/
theorem claimants_agree_unless_moved_bJoins :
    ∃ w₁ w₂, run (rendezvousStep prefersB id) .start aAlone = some w₁ ∧
      run (rendezvousStep prefersB id) w₁ (attempts "a" :: bJoins) = some w₂ ∧
      Claims prefersB id w₁ "a" "victim" (attempts "a") ∧
      Claims prefersB id w₂ "b" "victim" (attempts "b") ∧
      (("a" : Str) = "b" ∨ .unregister "a" ∈ bJoins ∨ .register "b" ∈ bJoins) := by
  obtain ⟨w₁, h₁⟩ : ∃ w, run (rendezvousStep prefersB id) .start aAlone = some w := ⟨_, rfl⟩
  obtain ⟨w₂, h₂⟩ : ∃ w, run (rendezvousStep prefersB id) w₁ (attempts "a" :: bJoins) = some w := by
    obtain rfl := Option.some.inj h₁
    exact ⟨_, rfl⟩
  have hclaim₁ : Claims prefersB id w₁ "a" "victim" (attempts "a") := by
    refine ⟨rfl, rfl, (w₁.tryClaim_ne_nil_iff ..).2 ?_⟩
    obtain rfl := Option.some.inj h₁
    exact ⟨⟨_, rfl, rfl⟩, rfl, rfl, Rendezvous.winner_eq_some_iff.2 (by decide +kernel)⟩
  have hclaim₂ : Claims prefersB id w₂ "b" "victim" (attempts "b") := by
    refine ⟨rfl, rfl, (w₂.tryClaim_ne_nil_iff ..).2 ?_⟩
    obtain rfl := Option.some.inj h₁
    obtain rfl := Option.some.inj h₂
    exact ⟨⟨_, rfl, rfl⟩, rfl, rfl, Rendezvous.winner_eq_some_iff.2 (by decide +kernel)⟩
  exact ⟨w₁, w₂, h₁, h₂, hclaim₁, hclaim₂, claimants_agree_unless_moved h₁ hclaim₁ h₂ hclaim₂⟩

end Targets
