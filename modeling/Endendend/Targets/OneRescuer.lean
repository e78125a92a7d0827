/-
**One rescuer for a target.**

The drones of a fleet claim a target when they learn of it, and the nearest one should be left with
it everywhere.  A claim that overtakes the announcement of its target is lost to the drone it
reaches.

Main definitions:

* `Targets.Undisturbs` — an undisturbed run;
* `Targets.madeIn`, `Targets.enteredIn`, `Targets.missedIn` — the claims of a run;
* `Targets.Agreed` — all drones have the target with the least claimant.

Main results:

* `Targets.Undisturbs.flow` — **each claim is in flight to a drone, entered there or dropped
  there**;
* `Targets.agreed_iff` — **when nothing is in flight, the drones agree exactly if none of them has
  dropped the least claim.**
-/
import Endendend.Targets.FleetClaims
import Mathlib.Data.List.MinMax
import Mathlib.Data.Rat.Sqrt

set_option relaxedAutoImplicit false
set_option autoImplicit false

namespace Targets

open Py Network Runs TargetManager
open Js (OrderedMap KeyedMap)
open Blackout (DroneRole)

variable {F : Fleet} {t d : Str} {w w' : World Str TargetManager Message} {mv : FleetMove}

/-! ### Undisturbed runs -/

variable {moves : List FleetMove}

/-- An undisturbed run to a world. -/
structure Undisturbs (F : Fleet) (t : Str) (moves : List FleetMove)
    (w : World Str TargetManager Message) : Prop where
  reaches : run F.protocol.step newWorld moves = some w
  along : Along F.protocol.step (Undisturbed t) newWorld moves

theorem Undisturbs.calm (h : Undisturbs F t moves w) : Calm F t w :=
  invariant_along (fun _ _ _ hcalm hun hstep => hcalm.step hun hstep) (calm_newWorld F t) h.along
    h.reaches

/-- Undisturbed runs, move after move. -/
theorem Undisturbs.induct {I : List FleetMove → World Str TargetManager Message → Prop}
    (h₀ : I [] newWorld)
    (hstep : ∀ moves mv w w', Undisturbs F t moves w → I moves w → Effect F t w mv →
      F.protocol.step w mv = some w' → I (moves ++ [mv]) w')
    (h : Undisturbs F t moves w) : I moves w := by
  refine invariant_of_history (I := fun moves w =>
    Along F.protocol.step (Undisturbed t) newWorld moves → I moves w) (fun _ => h₀) ?_ h.reaches
    h.along
  intro moves mv w w' hrun ih hmove halong
  obtain ⟨halong, hun⟩ := (along_concat hrun).1 halong
  have hundisturbs : Undisturbs F t moves w := ⟨hrun, halong⟩
  exact hstep moves mv w w' hundisturbs (ih halong) (hundisturbs.calm.effect hun hmove) hmove

variable (F t)

/-- The claims about a target that a run makes. -/
def madeIn (moves : List FleetMove) : List Claim :=
  emitted F.protocol.step (made F t) newWorld moves

/-- The claims that a drone sets against its record in a run. -/
def enteredIn (d : Str) (moves : List FleetMove) : List Claim :=
  emitted F.protocol.step (entered F t d) newWorld moves

/-- The claims that a drone drops in a run. -/
def missedIn (d : Str) (moves : List FleetMove) : List Claim :=
  emitted F.protocol.step (missed t d) newWorld moves

variable {F t}

/-- **The books of a drone are those of the claims it has entered.** -/
theorem Undisturbs.books (h : Undisturbs F t moves w) (d : Str) :
    Books t (enteredIn F t d moves) (w.nodes d) := by
  refine h.induct (I := fun moves w => Books t (enteredIn F t d moves) (w.nodes d)) ?_ ?_
  · refine ⟨fun _ => rfl, fun _ htarget => (by cases htarget), ?_⟩
    refine iff_of_false (Option.some_ne_none t).symm ?_
    rintro ⟨_, htarget, -⟩
    cases htarget
  · intro moves mv w w' hrun ih heffect hstep
    rw [enteredIn, emitted_concat _ mv hrun.reaches]
    by_cases hd : d = mv.node
    · subst hd
      rw [Protocol.nodes_step hstep, Fleet.after_eq]
      exact Books.step hrun.calm.sane heffect ih
    · rw [Protocol.nodes_step_of_ne hstep hd, entered, if_neg (Ne.symm hd), Option.toList_none,
        List.append_nil]
      exact ih

/-- **Each claim is in flight to a drone, entered there or dropped there.** -/
theorem Undisturbs.flow (h : Undisturbs F t moves w) (hd : d ∈ F.ids) :
    (arriving d (claimOn t) w.inFlight ++ enteredIn F t d moves ++ missedIn F t d moves).Perm
      (madeIn F t moves) := by
  refine h.induct (I := fun moves w => (arriving d (claimOn t) w.inFlight ++
    enteredIn F t d moves ++ missedIn F t d moves).Perm (madeIn F t moves)) (.refl _) ?_
  intro moves mv w w' hrun ih heffect hstep
  have harrive := Protocol.arriving_step hstep d (claimOn t)
  rw [Fleet.sent_eq, arriving_broadcast d _ F.nodup, heffect.filterMap_said] at harrive
  rw [enteredIn, missedIn, madeIn, emitted_concat _ mv hrun.reaches,
    emitted_concat _ mv hrun.reaches, emitted_concat _ mv hrun.reaches]
  change (_ ++ (enteredIn F t d moves ++ _) ++ (missedIn F t d moves ++ _)).Perm
    (madeIn F t moves ++ _)
  rw [List.perm_iff_count] at harrive ih ⊢
  intro c
  have harrive := harrive c
  have ih := ih c
  simp only [List.count_append] at harrive ih ⊢
  change List.count c (told t d mv).toList + _ = _ at harrive
  by_cases hnode : mv.node = d
  · subst hnode
    have hsplit := heffect.count_entered_missed c
    rw [if_neg (fun h => h.2 rfl), List.count_nil] at harrive
    omega
  · have hentered : entered F t d w mv = none := if_neg hnode
    have hmissed : missed t d w mv = none := by
      rw [missed, told_of_ne hnode]
      exact ite_self none
    rw [if_pos ⟨hd, Ne.symm hnode⟩, told_of_ne hnode] at harrive
    rw [hentered, hmissed]
    simp only [Option.toList_none, List.count_nil] at harrive ⊢
    omega

/-- A drone claims a target when it becomes known to it. -/
theorem Effect.of_made (h : Effect F t w mv) {c : Claim} (hmade : made F t w mv = some c) :
    ¬ Knows t (w.nodes mv.node) ∧ c.claimant = (w.nodes mv.node).myId ∧
      Knows t ((F.op mv).act F.sqrt (w.nodes mv.node)).2 := by
  have hattempt {m : TargetManager} {target : Target} {r : List Message × TargetManager}
      (h : Attempt t m target r) (hc : c ∈ r.1.filterMap (claimOn t)) : c.claimant = m.myId := by
    cases h with
    | passes => cases hc
    | claims distance =>
        obtain rfl : c = toLex (distance, m.myId) := by simpa [claimOn] using hc
        rfl
  have hsaid : c ∈ (F.said w mv).filterMap (claimOn t) := by
    rw [h.filterMap_said, hmade]
    exact List.mem_singleton_self c
  cases h with
  | spares hframe =>
      have hnil : (F.said w mv).filterMap (claimOn t) = [] := filterMap_of_silent hframe.silent
      rw [hnil] at hsaid
      cases hsaid
  | finds h =>
      obtain ⟨hnew, target, claims, -, -, -, -, hmsgs, h⟩ := h
      rw [Fleet.said, Move.node, hmsgs] at hsaid
      exact ⟨hnew, hattempt h hsaid, h.knows⟩
  | announced _ _ _ _ hnew h => exact ⟨hnew, hattempt h hsaid, h.knows⟩
  | claimed hx =>
      simp only [Fleet.said, Fleet.op, hx] at hsaid
      cases hsaid

/-- **A drone claims a target at most once**, and it knows what it has claimed. -/
theorem Undisturbs.claimants (h : Undisturbs F t moves w) :
    ((madeIn F t moves).map Claim.claimant).Nodup ∧
      ∀ c ∈ madeIn F t moves, Knows t (w.nodes c.claimant) := by
  refine h.induct (I := fun moves w => ((madeIn F t moves).map Claim.claimant).Nodup ∧
    ∀ c ∈ madeIn F t moves, Knows t (w.nodes c.claimant))
    ⟨List.nodup_nil, fun _ hc => by cases hc⟩ ?_
  intro moves mv w w' hrun ih heffect hstep
  obtain ⟨hnodup, hknows⟩ := ih
  have hlast : madeIn F t (moves ++ [mv]) = madeIn F t moves ++ (made F t w mv).toList :=
    emitted_concat _ mv hrun.reaches
  have hold : ∀ c ∈ madeIn F t moves, Knows t (w'.nodes c.claimant) :=
    fun c hc => knows_step heffect hstep (hknows c hc)
  cases hmade : made F t w mv with
  | none =>
      rw [hlast, hmade, Option.toList_none, List.append_nil]
      exact ⟨hnodup, hold⟩
  | some c =>
      obtain ⟨hnew, hclaimant, hafter⟩ := heffect.of_made hmade
      rw [hrun.calm.sane.myId] at hclaimant
      rw [hlast, hmade, Option.toList_some, List.map_append, List.map_singleton]
      constructor
      · rw [← List.concat_eq_append]
        refine hnodup.concat fun hmem => hnew ?_
        obtain ⟨c', hc', heq⟩ := List.mem_map.1 hmem
        rw [← hclaimant, ← heq]
        exact hknows c' hc'
      · intro c' hc'
        rcases List.mem_append.1 hc' with hc' | hc'
        · exact hold c' hc'
        · obtain rfl := List.mem_singleton.1 hc'
          rw [hclaimant, Protocol.nodes_step hstep, Fleet.after_eq]
          exact hafter

/-! ### Agreement -/

/-- The drone with the least claim. -/
def rescuer (claims : List Claim) : Option Str := (claims.argmin id).map Claim.claimant

/-- All drones record the same rescuer of a target, and that drone alone has it as its own. -/
def Agreed (F : Fleet) (t : Str) (claims : List Claim) (w : World Str TargetManager Message) :
    Prop :=
  ∀ d ∈ F.ids, ∃ target, (w.nodes d).targets.get? t = some target ∧
    target.assignedTo = rescuer claims ∧
    ((w.nodes d).claimedTarget = some t ↔ rescuer claims = some d)

section Quiet

variable (hquiet : ∀ e ∈ w.inFlight, e.message.target? ≠ some t)

include hquiet

/-- When nothing about the target is in flight, every drone has entered or dropped every claim. -/
theorem Undisturbs.flow_of_quiet (h : Undisturbs F t moves w) (hd : d ∈ F.ids) :
    (enteredIn F t d moves ++ missedIn F t d moves).Perm (madeIn F t moves) := by
  have hnone : arriving d (claimOn t) w.inFlight = [] :=
    List.filterMap_eq_nil_iff.2 fun e he => by
      rw [brings, claimOn_eq_none (hquiet e he)]
      exact ite_self none
  have hflow := h.flow hd
  rwa [hnone, List.nil_append] at hflow

/-- When nothing about the target is in flight, every drone records the holder of the claims that it
has entered. -/
theorem Undisturbs.record_of_quiet (h : Undisturbs F t moves w) (hheard : ∃ d, Knows t (w.nodes d))
    (hd : d ∈ F.ids) : ∃ target, (w.nodes d).targets.get? t = some target ∧
      target.assignedTo = (holder (enteredIn F t d moves)).map Claim.claimant := by
  rcases h.calm.spread (Or.inl hheard) d hd with hknown | ⟨e, he, -, dict, hx, hid, -⟩
  · obtain ⟨target, htarget⟩ := Option.isSome_iff_exists.1 hknown
    exact ⟨target, htarget, ((h.books d).record target htarget).1⟩
  · refine absurd ?_ (hquiet e he)
    rw [hx]
    exact congrArg some hid

/-- When nothing about the target is in flight, the least claim holds at a drone exactly if it has
not been dropped there. -/
theorem Undisturbs.holder_of_quiet (h : Undisturbs F t moves w) (hd : d ∈ F.ids) {c : Claim}
    (hc : (madeIn F t moves).argmin id = some c) : holder (enteredIn F t d moves) = some c ↔
      c ∉ missedIn F t d moves ∧
        (c.claimant = Str.empty → (enteredIn F t d moves).getLast? = some c) := by
  have hflow := h.flow_of_quiet hquiet hd
  have hnodup : (madeIn F t moves).Nodup := h.claimants.1.of_map _
  have hmem : c ∈ enteredIn F t d moves ++ missedIn F t d moves :=
    hflow.mem_iff.2 (List.argmin_mem hc)
  have hdisjoint := List.disjoint_of_nodup_append (hflow.nodup_iff.2 hnodup)
  rw [holder_eq_some_iff fun c' hc' => List.le_of_mem_argmin
    (hflow.mem_iff.1 (List.mem_append_left _ hc')) hc]
  refine and_congr_left fun _ => ?_
  constructor
  · exact fun hin hout => hdisjoint hin hout
  · exact fun hout => (List.mem_append.1 hmem).resolve_right hout

end Quiet

/-- **When nothing about a target is in flight, the drones agree on its rescuer exactly if none of
them has dropped the least claim** (and if the drone that made it has no name, no drone has set
another claim against it). -/
theorem agreed_iff (F : Fleet) (t : Str) (moves : List FleetMove)
    (w : World Str TargetManager Message) (hrun : run F.protocol.step newWorld moves = some w)
    (hcalm : Along F.protocol.step (Undisturbed t) newWorld moves)
    (hquiet : ∀ e ∈ w.inFlight, e.message.target? ≠ some t)
    (hheard : ∃ d, Knows t (w.nodes d)) :
    Agreed F t (madeIn F t moves) w ↔
      ∀ c, (madeIn F t moves).argmin id = some c → ∀ d ∈ F.ids, c ∉ missedIn F t d moves ∧
        (c.claimant = Str.empty → (enteredIn F t d moves).getLast? = some c) := by
  have h : Undisturbs F t moves w := ⟨hrun, hcalm⟩
  constructor
  · intro hagreed c hc d hd
    refine (h.holder_of_quiet hquiet hd hc).1 ?_
    obtain ⟨target, htarget, hassigned, -⟩ := hagreed d hd
    obtain ⟨target', htarget', hassigned'⟩ := h.record_of_quiet hquiet hheard hd
    obtain rfl := Option.some.inj (htarget.symm.trans htarget')
    rw [hassigned, rescuer, hc, Option.map_some] at hassigned'
    obtain ⟨c', hc', heq⟩ := Option.map_eq_some_iff.1 hassigned'.symm
    have hmade : c' ∈ madeIn F t moves :=
      (h.flow_of_quiet hquiet hd).mem_iff.1 (List.mem_append_left _ (mem_of_holder hc'))
    rw [hc', List.inj_on_of_nodup_map h.claimants.1 hmade (List.argmin_mem hc) heq]
  · intro hnone d hd
    obtain ⟨target, htarget, hassigned⟩ := h.record_of_quiet hquiet hheard hd
    have hrescuer : target.assignedTo = rescuer (madeIn F t moves) := by
      rw [hassigned, rescuer]
      cases hc : (madeIn F t moves).argmin id with
      | none =>
          have hempty := List.argmin_eq_none.1 hc
          have hflow := h.flow_of_quiet hquiet hd
          have hentered := (List.append_eq_nil_iff.1 (hempty ▸ hflow).eq_nil).1
          rw [hentered]
          rfl
      | some c => rw [(h.holder_of_quiet hquiet hd hc).2 (hnone c hc d hd)]
    refine ⟨target, htarget, hrescuer, ?_⟩
    rw [(h.books d).claimed, h.calm.sane.myId, ← hrescuer]
    constructor
    · rintro ⟨target', htarget', hmine⟩
      obtain rfl := Option.some.inj (htarget.symm.trans htarget')
      exact hmine
    · exact fun hmine => ⟨target, htarget, hmine⟩

/-! ### An overtaken announcement -/

/-- The role of the drone of a move is eligible. -/
def Eligible : FleetMove → Prop
  | .act _ (.detectTarget role _ _ _) => eligibleRole role = true
  | .act _ (.victimDetected role _ _ _ _) => eligibleRole role = true
  | .act _ _ => True
  | .deliver _ reading => eligibleRole reading.role = true

/-- The messages of one drone reach another one in the order in which they were sent. -/
def InOrder (w : World Str TargetManager Message) : FleetMove → Prop
  | .act _ _ => True
  | .deliver e _ =>
    (w.inFlight.filter fun e' => e'.sender = e.sender ∧ e'.receiver = e.receiver).head? = some e

instance : ∀ mv, Decidable (Eligible mv)
  | .act _ (.detectTarget role _ _ _) => inferInstanceAs (Decidable (eligibleRole role = true))
  | .act _ (.victimDetected role _ _ _ _) => inferInstanceAs (Decidable (eligibleRole role = true))
  | .act _ (.tick _) => isTrue trivial
  | .act _ .reachedTarget => isTrue trivial
  | .deliver _ reading => inferInstanceAs (Decidable (eligibleRole reading.role = true))

instance (w : World Str TargetManager Message) : ∀ mv, Decidable (InOrder w mv)
  | .act _ _ => isTrue trivial
  | .deliver e _ => inferInstanceAs (Decidable ((w.inFlight.filter fun e' =>
      e'.sender = e.sender ∧ e'.receiver = e.receiver).head? = some e))

/-- Three drones at distances 100, 1 and 50 from the origin. -/
def threeDrones : Fleet where
  sqrt := Rat.sqrt
  ids := ["a", "b", "c"]
  nodup := by decide
  position d := if d = "a" then ⟨100, 0, 0⟩ else if d = "b" then ⟨1, 0, 0⟩ else ⟨50, 0, 0⟩

/-- The target that drone `a` finds at the origin. -/
def foundByA : Target := ⟨"victim_0_0_0", ⟨0, 0, 0⟩, 10, 1, "a", "pending", none, none, none⟩

/-- A delivery between drones on standby. -/
def delivery (sender receiver : Str) (message : Message) : FleetMove :=
  .deliver ⟨sender, receiver, message⟩ ⟨.standby, 10, 10, 10⟩

def aFinds : FleetMove := .act "a" (.detectTarget .standby ⟨10, 10, 10⟩ ⟨0, 0, 0⟩ 1)

def aTells (receiver : Str) : FleetMove :=
  delivery "a" receiver (.targetAnnouncement foundByA.toDict)

def claims (sender receiver : Str) (distance : ℚ) : FleetMove :=
  delivery sender receiver (.targetClaim "victim_0_0_0" distance sender)

/-- The announcement reaches both other drones before any claim does. -/
def announcementFirst : List FleetMove :=
  [aFinds, aTells "b", aTells "c", claims "b" "a" 1, claims "b" "c" 1, claims "c" "a" 50,
    claims "c" "b" 50, claims "a" "b" 100, claims "a" "c" 100]

/-- The claim of `b` reaches `c` before the announcement of `a` does. -/
def claimOvertakes : List FleetMove :=
  [aFinds, aTells "b", claims "b" "c" 1, aTells "c", claims "b" "a" 1, claims "c" "a" 50,
    claims "c" "b" 50, claims "a" "b" 100, claims "a" "c" 100]

/-- What is seen of a world in which nothing is in flight. -/
theorem quiet_of_run {t d : Str} {w : World Str TargetManager Message}
    (h : w.inFlight = [] ∧ Knows t (w.nodes d)) :
    (∀ e ∈ w.inFlight, e.message.target? ≠ some t) ∧ ∃ d, Knows t (w.nodes d) := by
  refine ⟨fun e he => ?_, d, h.2⟩
  rw [h.1] at he
  cases he

theorem agreed_announcementFirst :
    ∃ w, run threeDrones.protocol.step newWorld announcementFirst = some w ∧
      Agreed threeDrones "victim_0_0_0" (madeIn threeDrones "victim_0_0_0" announcementFirst)
        w := by
  obtain ⟨w, hw⟩ : ∃ w, run threeDrones.protocol.step newWorld announcementFirst = some w :=
    Option.isSome_iff_exists.1 (by decide +kernel)
  have hquiet : ∀ w ∈ run threeDrones.protocol.step newWorld announcementFirst,
      w.inFlight = [] ∧ Knows "victim_0_0_0" (w.nodes "a") := by decide +kernel
  have hmade : (madeIn threeDrones "victim_0_0_0" announcementFirst).argmin id =
      some (toLex ((1 : ℚ), ("b" : Str))) := by decide +kernel
  have hmissed : ∀ d ∈ threeDrones.ids,
      missedIn threeDrones "victim_0_0_0" d announcementFirst = [] := by decide +kernel
  obtain ⟨hsilent, hheard⟩ := quiet_of_run (hquiet w hw)
  refine ⟨w, hw, (agreed_iff threeDrones "victim_0_0_0" announcementFirst w hw (by decide +kernel)
    hsilent hheard).2 fun c hc d hd => ?_⟩
  obtain rfl := Option.some.inj (hmade.symm.trans hc)
  rw [hmissed d hd]
  exact ⟨List.not_mem_nil, fun hname => absurd hname (by decide)⟩

theorem overtaking_claim_is_lost :
    ¬ ∀ (F : Fleet) (t : Str) (moves : List FleetMove) (w : World Str TargetManager Message),
      run F.protocol.step newWorld moves = some w →
      Along F.protocol.step (fun w mv => Undisturbed t w mv ∧ Eligible mv ∧ InOrder w mv) newWorld
        moves →
      (∀ e ∈ w.inFlight, e.message.target? ≠ some t) → (∃ d, Knows t (w.nodes d)) →
      Agreed F t (madeIn F t moves) w := by
  intro h
  obtain ⟨w, hw⟩ : ∃ w, run threeDrones.protocol.step newWorld claimOvertakes = some w :=
    Option.isSome_iff_exists.1 (by decide +kernel)
  have hquiet : ∀ w ∈ run threeDrones.protocol.step newWorld claimOvertakes,
      (w.inFlight = [] ∧ Knows "victim_0_0_0" (w.nodes "a")) ∧
        (w.nodes "c").claimedTarget = some "victim_0_0_0" := by decide +kernel
  obtain ⟨hsilent, hheard⟩ := quiet_of_run (hquiet w hw).1
  have hagreed := h threeDrones "victim_0_0_0" claimOvertakes w hw (by decide +kernel) hsilent
    hheard
  obtain ⟨-, -, -, hclaimed⟩ := hagreed "c" (by decide)
  have hrescuer : rescuer (madeIn threeDrones "victim_0_0_0" claimOvertakes) = some "b" := by
    decide +kernel
  have hc := hrescuer.symm.trans (hclaimed.1 (hquiet w hw).2)
  exact absurd (Option.some.inj hc) (by decide)

end Targets
