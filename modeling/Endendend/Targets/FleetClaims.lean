/-
**Claims in a fleet.**

A drone claims a target when it learns of it, and enters the claims of others in its record.  A
claim about a target that is not known is dropped, and the announcement that comes after it does not
bring it back.

Main definitions:

* `Targets.Claim`, `Targets.holder` — a claim, and who holds a target after some claims;
* `Targets.made`, `Targets.told` — the claim that a move makes, and the one that it delivers;
* `Targets.entered`, `Targets.missed` — what a drone enters in its record, and what it drops;
* `Targets.Undisturbed` — a move neither resolves the target nor lets it time out;
* `Targets.Books` — the record of a drone is what the claims it has entered make of it.

Main results:

* `Targets.holder_eq_some_iff` — the least claim ends as the holder if it is entered;
* `Targets.effect_of_undisturbed` — what an undisturbed move does to the target;
* `Targets.Books.step` — **the record of a drone follows the claims that it enters**;
* `Targets.Calm.step` — what is in flight about the target, and who knows of it.
-/
import Endendend.Targets.Gossip
import Mathlib.Data.Prod.Lex

set_option relaxedAutoImplicit false
set_option autoImplicit false

namespace Targets

open Py Network Runs TargetManager
open Js (OrderedMap KeyedMap)
open Blackout (DroneRole)

/-! ### Claims -/

/-- A claim, by distance and claimant. -/
abbrev Claim := ℚ ×ₗ Str

def Claim.distance (c : Claim) : ℚ := (ofLex c).1

def Claim.claimant (c : Claim) : Str := (ofLex c).2

/-- A claim against the one that holds a target. -/
def enter (held : Option Claim) (c : Claim) : Option Claim :=
  if claimWins c.distance c.claimant (held.map Claim.distance) (held.map Claim.claimant) then some c
  else held

/-- Who holds a target after some claims. -/
def holder (L : List Claim) : Option Claim := L.foldl enter none

theorem holder_concat (L : List Claim) (c : Claim) : holder (L ++ [c]) = enter (holder L) c := by
  rw [holder, List.foldl_append]
  rfl

/-- A claim that is less than the one of a named holder wins, and no other one does. -/
theorem enter_some {h : Claim} (hname : h.claimant ≠ Str.empty) (c : Claim) :
    enter (some h) c = if c < h then some c else some h := by
  have hwins : claimWins c.distance c.claimant (some h.distance) (some h.claimant) =
      decide (c < h) := claimWins_iff hname
  rw [enter, Option.map_some, Option.map_some, hwins]
  by_cases hlt : c < h
  · rw [if_pos (decide_eq_true hlt), if_pos hlt]
  · rw [if_neg (by simpa using hlt), if_neg hlt]

/-- Nobody holds the target, or nobody with a name does. -/
theorem enter_of_free {held : Option Claim} (h : truthy (held.map Claim.claimant) = false)
    (c : Claim) : enter held c = some c := by
  rw [enter, claimWins_of_free h]
  rfl

theorem enter_cases (held : Option Claim) (c : Claim) :
    enter held c = some c ∨ enter held c = held := by
  rw [enter]
  split
  · exact Or.inl rfl
  · exact Or.inr rfl

theorem mem_of_holder {L : List Claim} {h : Claim} (hh : holder L = some h) : h ∈ L := by
  induction L using List.reverseRecOn with
  | nil => cases hh
  | append_singleton L c ih =>
      rw [holder_concat] at hh
      rcases enter_cases (holder L) c with hc | hc
      · rw [hc] at hh
        exact List.mem_append_right _ (by simp [Option.some.inj hh])
      · exact List.mem_append_left _ (ih (hc.symm.trans hh))

/-- **The least claim, by a drone with a name, ends as the holder if it is entered.** -/
theorem holder_of_named {L : List Claim} {b : Claim} (hleast : ∀ c ∈ L, b ≤ c)
    (hname : b.claimant ≠ Str.empty) (hb : b ∈ L) : holder L = some b := by
  induction L using List.reverseRecOn with
  | nil => cases hb
  | append_singleton L c ih =>
      have hL : ∀ c ∈ L, b ≤ c := fun c hc => hleast c (List.mem_append_left _ hc)
      rw [holder_concat]
      by_cases hbL : b ∈ L
      · -- it holds the target already, and no other claim is less
        rw [ih hL hbL, enter_some hname, if_neg (not_lt.2 (hleast c (by simp)))]
      · obtain rfl : b = c := by simpa [hbL] using hb
        cases hheld : holder L with
        | none => exact enter_of_free rfl b
        | some h =>
            by_cases hn : h.claimant = Str.empty
            · exact enter_of_free (by simp [truthy, hn]) b
            · have hmem := mem_of_holder hheld
              rw [enter_some hn, if_pos (lt_of_le_of_ne (hL h hmem) ?_)]
              rintro rfl
              exact hbL hmem

/-- **The least claim, by a drone without a name, is the holder while it is the last one.** -/
theorem holder_of_unnamed {L : List Claim} {b : Claim} (hleast : ∀ c ∈ L, b ≤ c)
    (hname : b.claimant = Str.empty) : holder L = some b ↔ L.getLast? = some b := by
  induction L using List.reverseRecOn with
  | nil => simp [holder]
  | append_singleton L c ih =>
      have hL : ∀ c ∈ L, b ≤ c := fun c hc => hleast c (List.mem_append_left _ hc)
      rw [holder_concat, List.getLast?_concat]
      by_cases hfree : truthy ((holder L).map Claim.claimant) = true
      · obtain ⟨h, hheld, hn⟩ : ∃ h, holder L = some h ∧ h.claimant ≠ Str.empty := by
          cases hheld : holder L with
          | none => simp [truthy, hheld] at hfree
          | some h => exact ⟨h, rfl, by simpa [truthy, hheld] using hfree⟩
        have hne : h ≠ b := by
          rintro rfl
          exact hn hname
        rw [hheld, enter_some hn]
        have hlt : b < h := lt_of_le_of_ne (hL h (mem_of_holder hheld)) hne.symm
        by_cases hc : c = b
        · rw [hc, if_pos hlt]
        · refine iff_of_false (fun heq => ?_) fun heq => hc (Option.some.inj heq)
          split at heq
          · exact hc (Option.some.inj heq)
          · exact hne (Option.some.inj heq)
      · rw [enter_of_free (Bool.eq_false_iff.2 hfree)]

/-- When the least of all claims ends as the holder. -/
theorem holder_eq_some_iff {L : List Claim} {b : Claim} (hleast : ∀ c ∈ L, b ≤ c) :
    holder L = some b ↔ b ∈ L ∧ (b.claimant = Str.empty → L.getLast? = some b) := by
  by_cases hname : b.claimant = Str.empty
  · rw [holder_of_unnamed hleast hname]
    exact ⟨fun h => ⟨List.mem_of_getLast? h, fun _ => h⟩, fun h => h.2 hname⟩
  · exact ⟨fun h => ⟨mem_of_holder h, fun hn => absurd hn hname⟩,
      fun h => holder_of_named hleast hname h.1⟩

/-! ### The claims of a run -/

/-- A claim about a target. -/
def claimOn (t : Str) : Message → Option Claim
  | .targetClaim targetId distance claimant =>
    if targetId = t then some (toLex (distance, claimant)) else none
  | _ => none

variable (F : Fleet) (t d : Str)

/-- The claim that a move makes. -/
def made (w : World Str TargetManager Message) (mv : FleetMove) : Option Claim :=
  (F.said w mv).findSome? (claimOn t)

/-- The claim that a move brings to a drone. -/
def told (mv : FleetMove) : Option Claim := Protocol.delivers d (claimOn t) mv

/-- The claim that a drone sets against its record in a move: one that it is told of when it knows
the target, or its own. -/
def entered (w : World Str TargetManager Message) (mv : FleetMove) : Option Claim :=
  if mv.node = d then
    (if Knows t (w.nodes d) then told t d mv else none).or (made F t w mv)
  else none

/-- The claim that a drone drops, because it does not know the target. -/
def missed (w : World Str TargetManager Message) (mv : FleetMove) : Option Claim :=
  if Knows t (w.nodes d) then none else told t d mv

/-- In a move nothing about the target times out or is resolved. -/
def Undisturbed (w : World Str TargetManager Message) : FleetMove → Prop
  | .act d (.tick now) =>
    ∀ target, (w.nodes d).targets.get? t = some target → stale now target = false
  | .act d .reachedTarget => (w.nodes d).claimedTarget ≠ some t
  | _ => True

instance (w : World Str TargetManager Message) (mv : FleetMove) :
    Decidable (Undisturbed t w mv) := by
  cases mv with
  | act d event =>
      cases event with
      | tick now =>
          exact inferInstanceAs
            (Decidable (∀ target ∈ (w.nodes d).targets.get? t, stale now target = false))
      | reachedTarget => exact inferInstanceAs (Decidable ((w.nodes d).claimedTarget ≠ some t))
      | detectTarget => exact isTrue trivial
      | victimDetected => exact isTrue trivial
  | deliver e reading => exact isTrue trivial

/-- An announcement of a target that nobody holds. -/
def Announces (x : Message) : Prop :=
  ∃ dict, x = .targetAnnouncement dict ∧ dict.id = t ∧ dict.assignedTo = none ∧
    dict.assignedDistance = none

/-- All that is in flight about the target are announcements of it and claims. -/
def OnlyClaims (w : World Str TargetManager Message) : Prop :=
  ∀ e ∈ w.inFlight, e.message.target? = some t →
    Announces t e.message ∨ ∃ distance claimant, e.message = .targetClaim t distance claimant

variable {F t d} {w w' : World Str TargetManager Message} {mv : FleetMove}

/-- **What an undisturbed move does to the target**: nothing; or its drone finds it, is told of it,
or is told of a claim. -/
inductive Effect (F : Fleet) (t : Str) (w : World Str TargetManager Message) : FleetMove → Prop
  | spares {mv : FleetMove} (hframe : Frame t (w.nodes mv.node)
      ((F.op mv).act F.sqrt (w.nodes mv.node))) (htold : told t mv.node mv = none) : Effect F t w mv
  | finds {d : Str} {event : Event} (h : Learns t (w.nodes d)
      ((F.op (.act d event)).act F.sqrt (w.nodes d))) : Effect F t w (.act d event)
  | announced {e : Envelope Str Message} {reading : Reading} {dict : TargetDict}
      (hx : e.message = .targetAnnouncement dict) (hid : dict.id = t)
      (hfree : dict.assignedTo = none) (hnear : dict.assignedDistance = none)
      (hnew : ¬ Knows t (w.nodes e.receiver))
      (h : Attempt t (w.nodes e.receiver) (Target.fromDict dict)
        ((F.op (.deliver e reading)).act F.sqrt (w.nodes e.receiver))) :
      Effect F t w (.deliver e reading)
  | claimed {e : Envelope Str Message} {reading : Reading} {distance : ℚ} {claimant : Str}
      (hx : e.message = .targetClaim t distance claimant)
      (hforeign : claimant ≠ (w.nodes e.receiver).myId) : Effect F t w (.deliver e reading)

theorem claimOn_eq_none {x : Message} (h : x.target? ≠ some t) : claimOn t x = none := by
  cases x with
  | targetClaim targetId distance claimant =>
      exact if_neg fun heq => h (congrArg some heq)
  | _ => rfl

theorem told_deliver {e : Envelope Str Message} {reading : Reading} :
    told t e.receiver (.deliver e reading) = claimOn t e.message := if_pos rfl

theorem effect_of_undisturbed (hsane : Sane F w) (honly : OnlyClaims t w)
    (hun : Undisturbed t w mv) (hen : F.protocol.Enabled w mv) : Effect F t w mv := by
  by_cases hc : Concerns t (w.nodes mv.node) (F.op mv)
  · cases mv with
    | act d event =>
        have hquiet (heq : (F.op (.act d event)).act F.sqrt (w.nodes d) = ([], w.nodes d)) :
            Effect F t w (.act d event) := .spares (by rw [Move.node, heq]; exact .refl _ _) rfl
        rcases act_event_cases F d event hc with heq | h | ⟨now, rfl⟩ | rfl
        · exact hquiet heq
        · exact .finds h
        · obtain ⟨target, htarget, hstale⟩ := hc
          rw [hun target htarget] at hstale
          cases hstale
        · exact absurd hc hun
    | deliver e reading =>
        have hforeign := hsane.foreign hen
        rcases honly e hen hc with ⟨dict, hx, rfl, hfree, hnear⟩ | ⟨distance, claimant, hx⟩
        · have hact : (F.op (.deliver e reading)).act F.sqrt (w.nodes e.receiver) =
              (w.nodes e.receiver).handleAnnouncement F.sqrt
                ⟨reading.role, F.position e.receiver⟩ reading.clock dict := by
            simp only [Fleet.op, hx, ManagerOp.act, TargetManager.handleMessage]
          rcases act_announcement_cases (w.nodes e.receiver) F.sqrt
            ⟨reading.role, F.position e.receiver⟩ reading.clock dict with ⟨-, heq⟩ | ⟨hnew, h⟩
          · refine .spares ?_ (told_deliver.trans (by rw [hx]; rfl))
            rw [Move.node, hact, heq]
            exact .refl _ _
          · exact .announced hx rfl hfree hnear hnew (hact ▸ h)
        · refine .claimed hx ?_
          simpa only [Fleet.op, hx, Foreign, Move.node] using hforeign
  · refine .spares (hsane.frame hen hc) ?_
    cases mv with
    | act d event => rfl
    | deliver e reading => exact told_deliver.trans (claimOn_eq_none hc)

/-! ### What a move says and enters -/

theorem filterMap_of_silent {xs : List Message} (h : ∀ x ∈ xs, x.target? ≠ some t) :
    xs.filterMap (claimOn t) = [] :=
  List.filterMap_eq_nil_iff.2 fun x hx => claimOn_eq_none (h x hx)

/-- What an attempt to claim the target says of it. -/
theorem filterMap_attempt {m : TargetManager} {target : Target}
    {r : List Message × TargetManager} (h : Attempt t m target r) :
    r.1.filterMap (claimOn t) = (r.1.findSome? (claimOn t)).toList := by
  cases h with
  | passes => rfl
  | claims distance now => simp [claimOn]

/-- A move makes at most one claim about a target. -/
theorem Effect.filterMap_said (h : Effect F t w mv) :
    (F.said w mv).filterMap (claimOn t) = (made F t w mv).toList := by
  unfold made
  cases h with
  | spares hframe htold =>
      have hnil : (F.said w mv).filterMap (claimOn t) = [] := filterMap_of_silent hframe.silent
      rw [hnil, List.findSome?_eq_none_iff.2 (List.filterMap_eq_nil_iff.1 hnil)]
      rfl
  | finds h =>
      obtain ⟨-, target, claims, -, -, -, -, hsaid, hattempt⟩ := h
      rw [Fleet.said, Move.node, hsaid]
      exact filterMap_attempt hattempt
  | announced hx hid hfree hnear hnew h => exact filterMap_attempt h
  | claimed hx =>
      simp only [Fleet.said, Fleet.op, hx]
      rfl

/-- A drone that is told of a claim makes none. -/
theorem Effect.told_or_made (h : Effect F t w mv) :
    told t mv.node mv = none ∨ made F t w mv = none := by
  cases h with
  | spares hframe htold => exact Or.inl htold
  | finds h => exact Or.inl rfl
  | announced hx => exact Or.inl (told_deliver.trans (by rw [hx]; rfl))
  | claimed hx =>
      refine Or.inr ?_
      simp only [made, Fleet.said, Fleet.op, hx]
      rfl

theorem entered_of_known (hnode : mv.node = d) (h : Knows t (w.nodes d)) :
    entered F t d w mv = (told t d mv).or (made F t w mv) := by
  rw [entered, if_pos hnode, if_pos h]

theorem entered_of_unknown (hnode : mv.node = d) (h : ¬ Knows t (w.nodes d)) :
    entered F t d w mv = made F t w mv := by
  rw [entered, if_pos hnode, if_neg h, Option.none_or]

theorem told_of_ne (hnode : mv.node ≠ d) : told t d mv = none := by
  cases mv with
  | act i event => rfl
  | deliver e reading => exact if_neg hnode

/-- What a drone enters and drops is what it is told and makes. -/
theorem Effect.count_entered_missed (h : Effect F t w mv) (c : Claim) :
    (entered F t mv.node w mv).toList.count c + (missed t mv.node w mv).toList.count c =
      (told t mv.node mv).toList.count c + (made F t w mv).toList.count c := by
  unfold entered missed
  rw [if_pos rfl]
  by_cases hknown : Knows t (w.nodes mv.node)
  · rw [if_pos hknown, if_pos hknown]
    rcases h.told_or_made with htold | hmade
    · rw [htold, Option.none_or]
      omega
    · rw [hmade, Option.or_none]
  · rw [if_neg hknown, if_neg hknown, Option.none_or]
    omega

/-! ### The books of one drone -/

/-- The record of the target, after the claims `L` that a drone has set against it, and what the
drone has claimed. -/
structure Books (t : Str) (L : List Claim) (m : TargetManager) : Prop where
  unknown : ¬ Knows t m → L = []
  record : ∀ target, m.targets.get? t = some target →
    target.assignedTo = (holder L).map Claim.claimant ∧
      target.assignedDistance = (holder L).map Claim.distance
  claimed : m.claimedTarget = some t ↔
    ∃ target, m.targets.get? t = some target ∧ target.assignedTo = some m.myId

variable {L : List Claim} {m : TargetManager}

theorem not_knows_iff : ¬ Knows t m ↔ m.targets.get? t = none := Option.not_isSome_iff_eq_none

theorem Books.of_frame (h : Books t L m) {r : List Message × TargetManager} (hr : Frame t m r)
    (hid : r.2.myId = m.myId) : Books t L r.2 where
  unknown hunknown := h.unknown (by rwa [not_knows_iff, ← hr.record, ← not_knows_iff])
  record target htarget := h.record target (hr.record ▸ htarget)
  claimed := by rw [hr.claimed, h.claimed, hr.record, hid]

/-- A target that becomes known, with a claim if the drone makes one. -/
theorem Books.attempt (h : Books t L m) (hnew : ¬ Knows t m) {target : Target}
    (hfree : target.assignedTo = none) (hnear : target.assignedDistance = none)
    {r : List Message × TargetManager} (hr : Attempt t m target r) (hid : r.2.myId = m.myId) :
    Books t (L ++ r.1.filterMap (claimOn t)) r.2 := by
  obtain rfl := h.unknown hnew
  cases hr with
  | passes hget hclaimed =>
      constructor
      · exact fun _ => rfl
      · intro target' htarget'
        obtain rfl := Option.some.inj (hget.symm.trans htarget')
        exact ⟨hfree, hnear⟩
      · rw [hclaimed, h.claimed]
        refine iff_of_false ?_ ?_
        · rintro ⟨target', htarget', -⟩
          exact hnew (Option.isSome_iff_exists.2 ⟨target', htarget'⟩)
        · rintro ⟨target', htarget', hassigned⟩
          obtain rfl := Option.some.inj (hget.symm.trans htarget')
          rw [hfree] at hassigned
          cases hassigned
  | claims distance now hget hclaimed =>
      have hsaid : [Message.targetClaim t distance m.myId].filterMap (claimOn t) =
          [toLex (distance, m.myId)] := by simp [claimOn]
      rw [hsaid]
      constructor
      · exact fun hunknown => absurd (Option.isSome_iff_exists.2 ⟨_, hget⟩) hunknown
      · intro target' htarget'
        obtain rfl := Option.some.inj (hget.symm.trans htarget')
        exact ⟨rfl, rfl⟩
      · exact iff_of_true hclaimed ⟨_, hget, congrArg some hid.symm⟩

/-- A claim that the drone is told of. -/
theorem Books.applyClaim (h : Books t L m) (hpending : Pending t m) (hknown : Knows t m)
    (distance now : ℚ) {claimant : Str} (hforeign : claimant ≠ m.myId) :
    Books t (L ++ [toLex (distance, claimant)]) (m.applyClaim t distance claimant now) := by
  obtain ⟨target, htarget⟩ := Option.isSome_iff_exists.1 hknown
  have hid : target.id = t := KeyedMap.key_of_get? htarget
  obtain ⟨hto, hdist⟩ := h.record target htarget
  have henter : enter (holder L) (toLex (distance, claimant)) =
      if claimWins distance claimant target.assignedDistance target.assignedTo then
        some (toLex (distance, claimant)) else holder L := by
    rw [hto, hdist]
    rfl
  by_cases hwins : claimWins distance claimant target.assignedDistance target.assignedTo = true
  · rw [applyClaim_of_wins m htarget (hpending target htarget) hwins, if_neg hforeign]
    have hget : (m.targets.put (assigned target claimant distance now)).get? t =
        some (assigned target claimant distance now) :=
      (KeyedMap.get?_put _ _ _).trans (if_pos hid.symm)
    constructor
    · exact fun hunknown => absurd (Option.isSome_iff_exists.2 ⟨_, hget⟩) hunknown
    · intro target' htarget'
      obtain rfl := Option.some.inj (hget.symm.trans htarget')
      rw [holder_concat, henter, if_pos hwins]
      exact ⟨rfl, rfl⟩
    · refine iff_of_false ?_ ?_
      · split
        · exact (Option.some_ne_none t).symm
        · next hne => exact hne
      · rintro ⟨target', htarget', hassigned⟩
        obtain rfl := Option.some.inj (hget.symm.trans htarget')
        exact hforeign (Option.some.inj hassigned)
  · rw [applyClaim_of_loses m fun target' htarget' _ => by
      obtain rfl := Option.some.inj (htarget.symm.trans htarget')
      exact Bool.eq_false_iff.2 hwins]
    refine ⟨fun hunknown => absurd hknown hunknown, fun target' htarget' => ?_, h.claimed⟩
    rw [holder_concat, henter, if_neg hwins]
    exact h.record target' htarget'

/-- A claim about a target that is not known is dropped. -/
theorem applyClaim_of_unknown (h : ¬ Knows t m) (distance : ℚ) (claimant : Str) (now : ℚ) :
    m.applyClaim t distance claimant now = m :=
  applyClaim_of_loses m fun target htarget _ =>
    absurd (Option.isSome_iff_exists.2 ⟨target, htarget⟩) h

/-- **What a move does to the books of its drone.** -/
theorem Books.step (hsane : Sane F w) (heffect : Effect F t w mv)
    (h : Books t L (w.nodes mv.node)) :
    Books t (L ++ (entered F t mv.node w mv).toList)
      ((F.op mv).act F.sqrt (w.nodes mv.node)).2 := by
  have hid := act_myId F.sqrt (w.nodes mv.node) (F.op mv)
  have hsaid := heffect.filterMap_said
  cases heffect with
  | spares hframe htold =>
      have hmade : made F t w mv = none := by
        have hnil : (F.said w mv).filterMap (claimOn t) = [] := filterMap_of_silent hframe.silent
        rw [hsaid] at hnil
        simpa using hnil
      rw [entered, if_pos rfl, htold, hmade]
      simpa using h.of_frame hframe hid
  | @finds d event hlearns =>
      obtain ⟨hnew, target, claims, -, -, hfree, hnear, hmsgs, hattempt⟩ := hlearns
      have hbooks := h.attempt hnew hfree hnear hattempt hid
      change Books t (L ++ (entered F t d w (.act d event)).toList) _
      rw [entered_of_unknown (d := d) rfl hnew, ← hsaid, Fleet.said, Move.node, hmsgs]
      exact hbooks
  | @announced e reading dict hx hname hfree hnear hnew hattempt =>
      have hbooks := h.attempt hnew hfree hnear hattempt hid
      change Books t (L ++ (entered F t e.receiver w (.deliver e reading)).toList) _
      rw [entered_of_unknown (d := e.receiver) rfl hnew, ← hsaid]
      exact hbooks
  | @claimed e reading distance claimant hx hforeign =>
      have hmade : made F t w (.deliver e reading) = none := by
        simp only [made, Fleet.said, Fleet.op, hx]
        rfl
      have htold : told t e.receiver (.deliver e reading) = some (toLex (distance, claimant)) := by
        rw [told_deliver, hx]
        exact if_pos rfl
      have hact : ((F.op (.deliver e reading)).act F.sqrt (w.nodes e.receiver)).2 =
          (w.nodes e.receiver).applyClaim t distance claimant reading.clock.assigned := by
        simp only [Fleet.op, hx, ManagerOp.act, TargetManager.handleMessage,
          TargetManager.handleClaim]
      change Books t (L ++ (entered F t e.receiver w (.deliver e reading)).toList)
        ((F.op (.deliver e reading)).act F.sqrt (w.nodes e.receiver)).2
      rw [hact]
      by_cases hknown : Knows t (w.nodes e.receiver)
      · rw [entered_of_known (d := e.receiver) rfl hknown, htold]
        exact Books.applyClaim h (hsane.pending _ t) hknown _ _ hforeign
      · rw [entered_of_unknown (d := e.receiver) rfl hknown, hmade, applyClaim_of_unknown hknown,
          Option.toList_none, List.append_nil]
        exact h

/-! ### What the fleet knows -/

theorem Attempt.knows {target : Target} {r : List Message × TargetManager}
    (h : Attempt t m target r) : Knows t r.2 := by
  cases h with
  | passes hget => exact Option.isSome_iff_exists.2 ⟨_, hget⟩
  | claims _ _ hget => exact Option.isSome_iff_exists.2 ⟨_, hget⟩

theorem knows_applyClaim {targetId : Str} {distance : ℚ} {claimant : Str} {now : ℚ} :
    Knows t (m.applyClaim targetId distance claimant now) ↔ Knows t m := by
  unfold TargetManager.applyClaim
  split
  · rfl
  · next target htarget =>
      split
      · rfl
      · split
        · unfold Knows
          dsimp only
          rw [KeyedMap.get?_put]
          split
          · next heq =>
              refine iff_of_true rfl (Option.isSome_iff_exists.2 ⟨target, ?_⟩)
              rw [heq]
              exact (KeyedMap.key_of_get? htarget).symm ▸ htarget
          · rfl
        · rfl

/-- What a drone knows, it goes on knowing. -/
theorem Effect.knows (h : Effect F t w mv) (hknown : Knows t (w.nodes mv.node)) :
    Knows t ((F.op mv).act F.sqrt (w.nodes mv.node)).2 := by
  cases h with
  | spares hframe =>
      unfold Knows
      rw [hframe.record]
      exact hknown
  | finds h => exact absurd hknown h.1
  | announced _ _ _ _ _ h => exact h.knows
  | claimed hx =>
      simp only [Fleet.op, hx]
      exact knows_applyClaim.2 hknown

/-- All that a drone says about the target are announcements of it and claims. -/
theorem Effect.said (h : Effect F t w mv) {x : Message} (hx : x ∈ F.said w mv)
    (ht : x.target? = some t) :
    Announces t x ∨ ∃ distance claimant, x = .targetClaim t distance claimant := by
  have hattempt {m : TargetManager} {target : Target} {r : List Message × TargetManager}
      (h : Attempt t m target r) (hx : x ∈ r.1) :
      ∃ distance claimant, x = .targetClaim t distance claimant := by
    cases h with
    | passes => cases hx
    | claims distance => exact ⟨distance, m.myId, List.mem_singleton.1 hx⟩
  cases h with
  | spares hframe => exact absurd ht (hframe.silent x hx)
  | finds h =>
      obtain ⟨-, target, claims, hid, -, hfree, hnear, hmsgs, h⟩ := h
      rw [Fleet.said, Move.node, hmsgs] at hx
      rcases List.mem_cons.1 hx with rfl | hx
      · exact Or.inl ⟨_, rfl, hid, hfree, hnear⟩
      · exact Or.inr (hattempt h hx)
  | announced _ _ _ _ _ h => exact Or.inr (hattempt h hx)
  | claimed hclaim =>
      simp only [Fleet.said, Fleet.op, hclaim] at hx
      cases hx

theorem OnlyClaims.step (h : OnlyClaims t w) (heffect : Effect F t w mv)
    (hstep : F.protocol.step w mv = some w') : OnlyClaims t w' := by
  intro e he ht
  rcases Protocol.mem_inFlight_step hstep he with he | he
  · exact h e he ht
  · rw [Fleet.sent_eq] at he
    exact heffect.said (mem_broadcast.1 he).2.2.2 ht

/-- Some drone knows of the target, or is about to. -/
def Heard (t : Str) (w : World Str TargetManager Message) : Prop :=
  (∃ d, Knows t (w.nodes d)) ∨ ∃ e ∈ w.inFlight, Announces t e.message

/-- All drones know of a target, or are about to, if one does. -/
def Spread (F : Fleet) (t : Str) (w : World Str TargetManager Message) : Prop :=
  Heard t w → ∀ d ∈ F.ids, Knows t (w.nodes d) ∨
    ∃ e ∈ w.inFlight, e.receiver = d ∧ Announces t e.message

theorem knows_step (heffect : Effect F t w mv) (hstep : F.protocol.step w mv = some w')
    (hknown : Knows t (w.nodes d)) : Knows t (w'.nodes d) := by
  by_cases hd : d = mv.node
  · subst hd
    rw [Protocol.nodes_step hstep, Fleet.after_eq]
    exact heffect.knows hknown
  · rwa [Protocol.nodes_step_of_ne hstep hd]

/-- A drone that is told of a target knows it. -/
theorem knows_of_announced {e : Envelope Str Message} {reading : Reading}
    (h : Announces t e.message) :
    Knows t ((F.op (.deliver e reading)).act F.sqrt (w.nodes e.receiver)).2 := by
  obtain ⟨dict, hx, rfl, -⟩ := h
  simp only [Fleet.op, hx]
  rcases act_announcement_cases (w.nodes e.receiver) F.sqrt ⟨reading.role, F.position e.receiver⟩
    reading.clock dict with ⟨hknown, heq⟩ | ⟨-, h⟩
  · change Knows dict.id ((w.nodes e.receiver).handleAnnouncement F.sqrt _ reading.clock dict).2
    rw [heq]
    exact hknown
  · exact h.knows

/-- A move by which the target is heard of for the first time finds it. -/
theorem heard_of_step (heffect : Effect F t w mv) (hen : F.protocol.Enabled w mv)
    (hstep : F.protocol.step w mv = some w') (h : Heard t w') :
    Heard t w ∨ Learns t (w.nodes mv.node) ((F.op mv).act F.sqrt (w.nodes mv.node)) := by
  -- unless the drone of the move learns or says something new, nothing new is heard
  have hold (hsame : Knows t ((F.op mv).act F.sqrt (w.nodes mv.node)).2 →
      Knows t (w.nodes mv.node)) (hsilent : ∀ x ∈ F.said w mv, ¬ Announces t x) : Heard t w := by
    rcases h with ⟨d, hd⟩ | ⟨e, he, hann⟩
    · by_cases hnode : d = mv.node
      · subst hnode
        rw [Protocol.nodes_step hstep, Fleet.after_eq] at hd
        exact Or.inl ⟨_, hsame hd⟩
      · rw [Protocol.nodes_step_of_ne hstep hnode] at hd
        exact Or.inl ⟨d, hd⟩
    · rcases Protocol.mem_inFlight_step hstep he with he | he
      · exact Or.inr ⟨e, he, hann⟩
      · rw [Fleet.sent_eq] at he
        exact absurd hann (hsilent _ (mem_broadcast.1 he).2.2.2)
  cases heffect with
  | spares hframe =>
      refine Or.inl (hold (fun hknown => ?_) fun x hx hann => ?_)
      · unfold Knows at hknown ⊢
        rwa [hframe.record] at hknown
      · obtain ⟨dict, rfl, hid, -⟩ := hann
        exact hframe.silent _ hx (congrArg some hid)
  | finds h => exact Or.inr h
  | @announced e reading dict hx hid hfree hnear hnew h =>
      exact Or.inl (Or.inr ⟨e, hen, dict, hx, hid, hfree, hnear⟩)
  | claimed hx =>
      refine Or.inl (hold (fun hknown => ?_) fun x hsaid => ?_)
      · simp only [Fleet.op, hx] at hknown
        exact knows_applyClaim.1 hknown
      · simp only [Fleet.said, Fleet.op, hx] at hsaid
        cases hsaid

theorem Spread.step (h : Spread F t w) (heffect : Effect F t w mv)
    (hstep : F.protocol.step w mv = some w') : Spread F t w' := by
  intro hheard d hd
  rcases heard_of_step heffect (Protocol.step_eq_some.1 hstep).1 hstep hheard with hheard | hlearns
  · rcases h hheard d hd with hknown | ⟨e, he, rfl, hann⟩
    · exact Or.inl (knows_step heffect hstep hknown)
    · rcases Protocol.stays_in_flight hstep he with ⟨reading, rfl⟩ | he
      · refine Or.inl ?_
        have hnode : w'.nodes e.receiver = _ := Protocol.nodes_step hstep
        rw [hnode, Fleet.after_eq]
        exact knows_of_announced hann
      · exact Or.inr ⟨e, he, rfl, hann⟩
  · -- the drone that finds the target tells all others
    obtain ⟨-, target, claims, hid, -, hfree, hnear, hmsgs, hattempt⟩ := hlearns
    by_cases hnode : d = mv.node
    · subst hnode
      rw [Protocol.nodes_step hstep, Fleet.after_eq]
      exact Or.inl hattempt.knows
    · refine Or.inr ⟨⟨mv.node, d, .targetAnnouncement target.toDict⟩, ?_, rfl, _, rfl, hid, hfree,
        hnear⟩
      refine Protocol.sent_mem_inFlight hstep ?_
      rw [Fleet.sent_eq, mem_broadcast]
      refine ⟨rfl, hnode, hd, ?_⟩
      rw [Fleet.said, hmsgs]
      exact List.mem_cons_self

/-- What holds all along an undisturbed run. -/
structure Calm (F : Fleet) (t : Str) (w : World Str TargetManager Message) : Prop where
  sane : Sane F w
  onlyClaims : OnlyClaims t w
  spread : Spread F t w

theorem calm_newWorld (F : Fleet) (t : Str) : Calm F t newWorld := by
  refine ⟨sane_newWorld F, fun _ he => (by cases he), ?_⟩
  rintro (⟨d, hd⟩ | ⟨e, he, -⟩)
  · exact absurd hd (by simp [newWorld, Knows, TargetManager.new])
  · cases he

theorem Calm.effect (h : Calm F t w) (hun : Undisturbed t w mv)
    (hstep : F.protocol.step w mv = some w') : Effect F t w mv :=
  effect_of_undisturbed h.sane h.onlyClaims hun (Protocol.step_eq_some.1 hstep).1

theorem Calm.step (h : Calm F t w) (hun : Undisturbed t w mv)
    (hstep : F.protocol.step w mv = some w') : Calm F t w' :=
  ⟨h.sane.step hstep, h.onlyClaims.step (h.effect hun hstep) hstep,
    h.spread.step (h.effect hun hstep) hstep⟩

end Targets
