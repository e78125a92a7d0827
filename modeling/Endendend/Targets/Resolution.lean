/-
**A target that is resolved.**

The drone that reaches its target takes it out of its table and tells the others, which take it out
of theirs.  Nothing is left that would tell a late announcement or a late update from a new one; so
a drone is rid of the target exactly if the last that it hears of it is a resolution.

Main definitions:

* `Targets.News`, `Targets.news` — what a drone hears of a target;
* `Targets.OnlyResolves` — nothing but resolutions is said of a target;
* `Targets.Resolved` — no drone holds the target as pending or claims it.

Main results:

* `Targets.knows_of_news` — what a move does to the knowledge of its drone;
* `Targets.resolved_iff` — **when nothing is in flight after a resolution, the target is gone
  exactly if no drone has heard of it by an announcement or an update after the last resolution.**
-/
import Endendend.Targets.OneRescuer

set_option relaxedAutoImplicit false
set_option autoImplicit false

namespace Targets

open Py Network Runs TargetManager
open Js (OrderedMap KeyedMap)
open Blackout (DroneRole)

/-- What a drone hears of a target. -/
inductive News
  | present
  | resolved
  deriving DecidableEq

/-- What a message tells of a target. -/
def Message.news (t : Str) : Message → Option News
  | .targetAnnouncement dict => if dict.id = t then some .present else none
  | .targetUpdate dict => if dict.id = t then some .present else none
  | .targetResolved targetId => if targetId = t then some .resolved else none
  | _ => none

variable (F : Fleet) (t d : Str)

/-- What a drone hears of a target in a move; it knows of a resolution of its own. -/
def news (w : World Str TargetManager Message) : FleetMove → Option News
  | .act d' .reachedTarget =>
    if d' = d ∧ (w.nodes d').claimedTarget = some t then some .resolved else none
  | .act _ _ => none
  | .deliver e _ => if e.receiver = d then e.message.news t else none

/-- In a move nothing is said of the target but that it is resolved. -/
def OnlyResolves (w : World Str TargetManager Message) (mv : FleetMove) : Prop :=
  ∀ x ∈ F.said w mv, x.target? = some t → x = .targetResolved t

instance (w : World Str TargetManager Message) (mv : FleetMove) :
    Decidable (OnlyResolves F t w mv) := by
  unfold OnlyResolves
  infer_instance

/-- No drone holds the target as pending or claims it. -/
def Resolved (w : World Str TargetManager Message) : Prop :=
  ∀ d ∈ F.ids, (∀ target, (w.nodes d).targets.get? t = some target →
    target.status ≠ ("pending" : Str)) ∧ (w.nodes d).claimedTarget ≠ some t

variable {F t d} {w w' : World Str TargetManager Message} {mv : FleetMove} {m : TargetManager}

/-! ### What an operation does to the target it is about -/

theorem knows_iff : Knows t m ↔ ∃ target, m.targets.get? t = some target :=
  Option.isSome_iff_exists

theorem knows_of_frame {r : List Message × TargetManager} (h : Frame t m r) :
    Knows t r.2 ↔ Knows t m := by
  unfold Knows
  rw [h.record]

theorem knows_reclaim (tid : Str) : Knows t (m.reclaim tid).2 ↔ Knows t m := by
  unfold TargetManager.reclaim
  split
  · rfl
  · next target htarget =>
      unfold Knows
      dsimp only
      rw [KeyedMap.get?_put]
      split
      · next heq =>
          refine iff_of_true rfl (knows_iff.2 ⟨target, ?_⟩)
          rw [heq]
          exact (KeyedMap.key_of_get? htarget).symm ▸ htarget
      · rfl

theorem claimed_reclaim {tid : Str} (h : (m.reclaim tid).2.claimedTarget = some t) :
    m.claimedTarget = some t := by
  unfold TargetManager.reclaim at h
  split at h
  · exact h
  · dsimp only at h
    split at h
    · cases h
    · exact h

/-- A tick keeps what is known and claims nothing. -/
theorem tick_keeps (hpending : ∀ t, Pending t m) (now : ℚ) :
    (Knows t (m.tick now).2 ↔ Knows t m) ∧
      ((m.tick now).2.claimedTarget = some t → m.claimedTarget = some t) := by
  have hfold : ∀ r : List Message × TargetManager, ((∀ t, Pending t r.2) ∧
      (Knows t r.2 ↔ Knows t m) ∧ (r.2.claimedTarget = some t → m.claimedTarget = some t)) →
      ∀ tid, (∀ t, Pending t (r.2.reclaim tid).2) ∧ (Knows t (r.2.reclaim tid).2 ↔ Knows t m) ∧
        ((r.2.reclaim tid).2.claimedTarget = some t → m.claimedTarget = some t) := by
    rintro r ⟨hp, hknows, hclaimed⟩ tid
    refine ⟨?_, (knows_reclaim tid).trans hknows, fun h => hclaimed (claimed_reclaim h)⟩
    unfold TargetManager.reclaim
    split
    · exact hp
    · next target htarget => exact Pending.put hp (hp tid target htarget)
  have hr := List.foldlRecOn (motive := fun r : List Message × TargetManager =>
      (∀ t, Pending t r.2) ∧ (Knows t r.2 ↔ Knows t m) ∧
        (r.2.claimedTarget = some t → m.claimedTarget = some t))
    ((m.targets.values.filter (stale now)).map (·.id))
    (fun r tid => ((r.1 ++ (r.2.reclaim tid).1 : List Message), (r.2.reclaim tid).2))
    (b := ([], m)) ⟨hpending, Iff.rfl, id⟩ fun r hr tid _ => hfold r hr tid
  have hclean := Frame.cleanupOldResolved (hr.1 t) now
  exact ⟨(knows_of_frame hclean).trans hr.2.1, fun h => hr.2.2 (hclean.claimed.1 h)⟩

theorem handleUpdate_knows (sqrt : ℚ → ℚ) (senses : Senses) (clock : Clock) {dict : TargetDict}
    (h : dict.id ≠ Str.empty) : Knows dict.id (m.handleUpdate sqrt senses clock dict).2 := by
  unfold TargetManager.handleUpdate
  rw [if_neg h]
  exact (attempt_tryClaim (m := { m with targets := m.targets.put (Target.fromDict dict) })
    (KeyedMap.get?_put_self _ _) sqrt senses clock).knows

theorem handleResolved_forgets (m : TargetManager) (t : Str) :
    ¬ Knows t (m.handleResolved t) ∧ (m.handleResolved t).claimedTarget ≠ some t := by
  constructor
  · have hget : (m.targets.erase t).get? t = none := (KeyedMap.get?_erase _ _ _).trans (if_pos rfl)
    exact fun h => absurd (hget ▸ h : (none : Option Target).isSome) (by simp)
  · change (if m.claimedTarget = some t then none else m.claimedTarget) ≠ some t
    split
    · exact (Option.some_ne_none t).symm
    · next hne => exact hne

/-- A drone that reaches its target is rid of it. -/
theorem reachedTarget_forgets (hclaimed : m.claimedTarget = some t) (hname : t ≠ Str.empty)
    (hknown : Knows t m) : m.reachedTarget.1 = [.targetResolved t] ∧ ¬ Knows t m.reachedTarget.2 ∧
      m.reachedTarget.2.claimedTarget ≠ some t := by
  obtain ⟨target, htarget⟩ := knows_iff.1 hknown
  have hid : target.id = t := KeyedMap.key_of_get? htarget
  have hbind : m.claimedTarget.bind m.targets.get? = some target := by rw [hclaimed]; exact htarget
  have htruthy : truthy m.claimedTarget = true := by simp [hclaimed, truthy, hname]
  unfold TargetManager.reachedTarget
  rw [htruthy]
  simp only [Bool.not_true, Bool.false_eq_true, if_false, hbind]
  refine ⟨by rw [hid], ?_, (Option.some_ne_none t).symm⟩
  have hget : (m.targets.erase target.id).get? t = none :=
    (KeyedMap.get?_erase _ _ _).trans (if_pos hid.symm)
  exact fun h => absurd (hget ▸ h : (none : Option Target).isSome) (by simp)

/-! ### What a drone claims, it knows -/

theorem applyClaim_claimed {targetId claimant : Str} {distance now : ℚ}
    (hforeign : claimant ≠ m.myId)
    (h : (m.applyClaim targetId distance claimant now).claimedTarget = some t) :
    m.claimedTarget = some t := by
  unfold TargetManager.applyClaim at h
  split at h
  · exact h
  · split at h
    · exact h
    · split at h
      · dsimp only at h
        split at h
        · cases h
        · exact h
      · exact h

/-- **An operation keeps the claimed target known.** -/
theorem claimed_known_act (sqrt : ℚ → ℚ) {op : ManagerOp} (hpending : ∀ t, Pending t m)
    (hforeign : Foreign m op) (h : m.claimedTarget = some t → Knows t m)
    (hclaimed : (op.act sqrt m).2.claimedTarget = some t) : Knows t (op.act sqrt m).2 := by
  by_cases hc : Concerns t m op
  · have hsame {r : List Message × TargetManager} (hr : r = ([], m))
        (hclaimed : r.2.claimedTarget = some t) : Knows t r.2 := by
      rw [hr] at hclaimed ⊢
      exact h hclaimed
    have hlearns {r : List Message × TargetManager} (hr : r = ([], m) ∨ Learns t m r)
        (hclaimed : r.2.claimedTarget = some t) : Knows t r.2 := by
      rcases hr with hr | ⟨-, _, _, -, -, -, -, -, hattempt⟩
      · exact hsame hr hclaimed
      · exact hattempt.knows
    cases op with
    | detectTarget senses clock location confidence =>
        obtain rfl : victimId (locationKey location) = t := hc
        exact hlearns (act_detectTarget_cases m sqrt senses clock location confidence) hclaimed
    | handleMessage senses clock sender message =>
        cases message with
        | victimDetected location confidence =>
            simp only [ManagerOp.act, TargetManager.handleMessage] at hclaimed ⊢
            cases hplace : locationOf location with
            | none =>
                simp only [hplace] at hclaimed
                exact h hclaimed
            | some place =>
                obtain rfl : victimId (locationKey place) = t := by
                  simpa [Concerns, Message.target?, hplace] using hc
                simp only [hplace] at hclaimed
                exact hlearns (act_victimDetected_cases m sqrt senses clock sender place _) hclaimed
        | targetAnnouncement dict =>
            obtain rfl : dict.id = t := Option.some.inj hc
            rcases act_announcement_cases m sqrt senses clock dict with ⟨hknown, heq⟩ | ⟨-, h⟩
            · exact hsame heq hclaimed
            · exact h.knows
        | targetUpdate dict =>
            obtain rfl : dict.id = t := Option.some.inj hc
            by_cases hname : dict.id = Str.empty
            · exact hsame (if_pos hname) hclaimed
            · exact handleUpdate_knows sqrt senses clock hname
        | targetClaim targetId distance claimant =>
            exact knows_applyClaim.2 (h (applyClaim_claimed hforeign hclaimed))
        | targetResolved targetId =>
            obtain rfl : targetId = t := Option.some.inj hc
            exact absurd hclaimed (handleResolved_forgets m targetId).2
    | tick now =>
        obtain ⟨hknows, hkeeps⟩ := tick_keeps hpending now (t := t)
        exact hknows.2 (h (hkeeps hclaimed))
    | reachedTarget =>
        by_cases hname : t = Str.empty
        · refine hsame (if_pos ?_) hclaimed
          simp [show m.claimedTarget = some t from hc, truthy, hname]
        · exact absurd hclaimed (reachedTarget_forgets hc hname (h hc)).2.2
  · have hframe := frame_of_not_concerns sqrt op (hpending t) hforeign hc
    exact (knows_of_frame hframe).2 (h (hframe.claimed.1 hclaimed))

/-- What holds of a fleet all along, about what the drones have claimed too. -/
structure Sound (F : Fleet) (t : Str) (w : World Str TargetManager Message) : Prop where
  sane : Sane F w
  claimed : ∀ d, (w.nodes d).claimedTarget = some t → Knows t (w.nodes d)

theorem sound_newWorld (F : Fleet) (t : Str) : Sound F t newWorld :=
  ⟨sane_newWorld F, fun _ h => by cases h⟩

theorem Sound.step (h : Sound F t w) (hstep : F.protocol.step w mv = some w') : Sound F t w' := by
  have hen := (Protocol.step_eq_some.1 hstep).1
  refine ⟨h.sane.step hstep, fun d hclaimed => ?_⟩
  by_cases hd : d = mv.node
  · subst hd
    rw [Protocol.nodes_step hstep, Fleet.after_eq] at hclaimed ⊢
    exact claimed_known_act F.sqrt (h.sane.pending mv.node) (h.sane.foreign hen)
      (h.claimed mv.node) hclaimed
  · rw [Protocol.nodes_step_of_ne hstep hd] at hclaimed ⊢
    exact h.claimed d hclaimed

theorem Sound.run {ls : List FleetMove} (h : Sound F t w)
    (hrun : run F.protocol.step w ls = some w') : Sound F t w' :=
  invariant_of_run (fun _ _ _ h hstep => h.step hstep) h hrun

/-! ### What a drone hears and what it knows -/

/-- What is heard of a target settles whether it is known. -/
inductive Settles : Option News → Prop → Prop → Prop
  | present {before after : Prop} (h : after) : Settles (some .present) before after
  | resolved {before after : Prop} (h : ¬ after) : Settles (some .resolved) before after
  | nothing {before after : Prop} (h : after ↔ before) : Settles none before after

/-- A message that is not about a target tells nothing of it. -/
theorem news_eq_none {x : Message} (h : x.target? ≠ some t) : x.news t = none := by
  cases x with
  | targetAnnouncement dict => exact if_neg fun heq => h (congrArg some heq)
  | targetUpdate dict => exact if_neg fun heq => h (congrArg some heq)
  | targetResolved targetId => exact if_neg fun heq => h (congrArg some heq)
  | _ => rfl

/-- What an event that concerns a target does to the knowledge of the drone, when it is nothing that
the drone learns. -/
theorem knows_of_event (h : Sound F t w) (hname : t ≠ Str.empty) {event : Event}
    (hlearns : ¬ Learns t (w.nodes d) ((F.op (.act d event)).act F.sqrt (w.nodes d)))
    (hc : Concerns t (w.nodes d) (F.op (.act d event))) :
    Settles (news t d w (.act d event)) (Knows t (w.nodes d))
      (Knows t ((F.op (.act d event)).act F.sqrt (w.nodes d)).2) := by
  rcases act_event_cases F d event hc with heq | hl | ⟨now, rfl⟩ | rfl
  · cases event with
    | reachedTarget =>
        have hforgets : (w.nodes d).reachedTarget.1 = [.targetResolved t] :=
          (reachedTarget_forgets hc hname (h.claimed d hc)).1
        rw [show (w.nodes d).reachedTarget.1 = [] from congrArg Prod.fst heq] at hforgets
        cases hforgets
    | _ => exact .nothing (by rw [heq])
  · exact absurd hl hlearns
  · exact .nothing (tick_keeps (h.sane.pending d) now).1
  · have hnews : news t d w (.act d .reachedTarget) = some .resolved := if_pos ⟨rfl, hc⟩
    rw [hnews]
    exact .resolved (reachedTarget_forgets hc hname (h.claimed d hc)).2.1

/-- What a message about a target does to the knowledge of its receiver, when it is nothing that the
receiver learns by itself. -/
theorem knows_of_message (hname : t ≠ Str.empty) {e : Envelope Str Message} {reading : Reading}
    (hlearns : ¬ Learns t (w.nodes e.receiver)
      ((F.op (.deliver e reading)).act F.sqrt (w.nodes e.receiver)))
    (hx : e.message.target? = some t) :
    Settles (e.message.news t) (Knows t (w.nodes e.receiver))
      (Knows t ((F.op (.deliver e reading)).act F.sqrt (w.nodes e.receiver)).2) := by
  simp only [Fleet.op] at hlearns ⊢
  cases hmsg : e.message with
  | victimDetected location confidence =>
      rw [hmsg] at hx hlearns
      simp only [ManagerOp.act, TargetManager.handleMessage] at hlearns ⊢
      cases hplace : locationOf location with
      | none => exact .nothing Iff.rfl
      | some place =>
          obtain rfl : victimId (locationKey place) = t := by
            simpa [Message.target?, hplace] using hx
          simp only [hplace] at hlearns ⊢
          refine .nothing ?_
          rcases act_victimDetected_cases (w.nodes e.receiver) F.sqrt
            ⟨reading.role, F.position e.receiver⟩ reading.clock e.sender place
            (confidence.getD 1) with heq | hl
          · rw [heq]
          · exact absurd hl hlearns
  | targetAnnouncement dict =>
      obtain rfl : dict.id = t := by simpa [hmsg, Message.target?] using hx
      rw [show (Message.targetAnnouncement dict).news dict.id = some .present from if_pos rfl]
      refine .present ?_
      rcases act_announcement_cases (w.nodes e.receiver) F.sqrt
        ⟨reading.role, F.position e.receiver⟩ reading.clock dict with ⟨hknown, heq⟩ | ⟨-, hl⟩
      · exact (congrArg (fun r => Knows dict.id r.2) heq).mpr hknown
      · exact hl.knows
  | targetUpdate dict =>
      obtain rfl : dict.id = t := by simpa [hmsg, Message.target?] using hx
      rw [show (Message.targetUpdate dict).news dict.id = some .present from if_pos rfl]
      exact .present (handleUpdate_knows F.sqrt _ reading.clock hname)
  | targetClaim targetId distance claimant => exact .nothing knows_applyClaim
  | targetResolved targetId =>
      obtain rfl : targetId = t := by simpa [hmsg, Message.target?] using hx
      rw [show (Message.targetResolved targetId).news targetId = some .resolved from if_pos rfl]
      exact .resolved (handleResolved_forgets _ targetId).1

/-- **What a move does to the knowledge of its drone**, when nothing is said of the target but that
it is resolved. -/
theorem knows_of_news (h : Sound F t w) (hname : t ≠ Str.empty) (honly : OnlyResolves F t w mv)
    (hen : F.protocol.Enabled w mv) :
    Settles (news t mv.node w mv) (Knows t (w.nodes mv.node))
      (Knows t ((F.op mv).act F.sqrt (w.nodes mv.node)).2) := by
  have hlearns : ¬ Learns t (w.nodes mv.node) ((F.op mv).act F.sqrt (w.nodes mv.node)) := by
    rintro ⟨-, target, claims, hid, -, -, -, hmsgs, -⟩
    have hsaid : Message.targetAnnouncement target.toDict ∈ F.said w mv := by
      rw [Fleet.said, hmsgs]
      exact List.mem_cons_self
    cases honly _ hsaid (congrArg some hid)
  by_cases hc : Concerns t (w.nodes mv.node) (F.op mv)
  · cases mv with
    | act d event => exact knows_of_event h hname hlearns hc
    | deliver e reading =>
        have hnews : news t e.receiver w (.deliver e reading) = e.message.news t := if_pos rfl
        rw [Move.node, hnews]
        exact knows_of_message hname hlearns hc
  · have hframe := knows_of_frame (h.sane.frame hen hc)
    have hnews : news t mv.node w mv = none := by
      cases mv with
      | act d event =>
          cases event with
          | reachedTarget => exact if_neg fun hmine => hc hmine.2
          | _ => rfl
      | deliver e reading => exact (if_pos rfl).trans (news_eq_none hc)
    rw [hnews]
    exact .nothing hframe

/-! ### After a resolution -/

/-- The last that a drone hears settles what it knows. -/
def Settled (heard : List News) (known : Prop) : Prop :=
  heard ≠ [] → (known ↔ heard.getLast? = some .present)

theorem Settled.concat {heard : List News} {n : Option News} {before after : Prop}
    (h : Settled heard before) (hn : Settles n before after) :
    Settled (heard ++ n.toList) after := by
  cases hn with
  | present hafter =>
      intro _
      rw [Option.toList_some, List.getLast?_concat]
      exact iff_of_true hafter rfl
  | resolved hafter =>
      intro _
      rw [Option.toList_some, List.getLast?_concat]
      exact iff_of_false hafter (by simp)
  | nothing hiff =>
      rw [Option.toList_none, List.append_nil]
      exact fun hne => hiff.trans (h hne)

/-- What a drone hears of a target in the moves from a world on. -/
def heardIn (F : Fleet) (t d : Str) (w : World Str TargetManager Message)
    (moves : List FleetMove) : List News :=
  emitted F.protocol.step (news t d) w moves

theorem news_of_ne (hd : d ≠ mv.node) : news t d w mv = none := by
  cases mv with
  | act d' event =>
      cases event with
      | reachedTarget => exact if_neg fun h => hd h.1.symm
      | _ => rfl
  | deliver e reading => exact if_neg (Ne.symm hd)

/-- What the drones have heard settles what they know, as long as nothing is said of the target but
that it is resolved. -/
theorem settled_of_run {moves : List FleetMove} (h : Sound F t w) (hname : t ≠ Str.empty)
    (honly : Along F.protocol.step (OnlyResolves F t) w moves)
    (hrun : run F.protocol.step w moves = some w') (d : Str) :
    Settled (heardIn F t d w moves) (Knows t (w'.nodes d)) := by
  refine invariant_of_history (I := fun moves w' =>
    Along F.protocol.step (OnlyResolves F t) w moves →
      Settled (heardIn F t d w moves) (Knows t (w'.nodes d)))
    (fun _ hne => absurd rfl hne) ?_ hrun honly
  intro moves mv w₁ w₂ hrun ih hstep honly
  obtain ⟨honly, hmv⟩ := (along_concat hrun).1 honly
  rw [heardIn, emitted_concat _ mv hrun]
  by_cases hd : d = mv.node
  · subst hd
    rw [Protocol.nodes_step hstep, Fleet.after_eq]
    exact (ih honly).concat (knows_of_news (h.run hrun) hname hmv (Protocol.step_eq_some.1 hstep).1)
  · rw [news_of_ne hd, Option.toList_none, List.append_nil, Protocol.nodes_step_of_ne hstep hd]
    exact ih honly

/-- A resolution is heard of by a drone, or it is on its way. -/
theorem heard_of_run {moves : List FleetMove} {sender : Str}
    (hflight : ⟨sender, d, .targetResolved t⟩ ∈ w.inFlight)
    (hrun : run F.protocol.step w moves = some w') :
    heardIn F t d w moves ≠ [] ∨ ⟨sender, d, .targetResolved t⟩ ∈ w'.inFlight := by
  refine invariant_of_history (I := fun moves w' => heardIn F t d w moves ≠ [] ∨
    ⟨sender, d, .targetResolved t⟩ ∈ w'.inFlight) (Or.inr hflight) ?_ hrun
  intro moves mv w₁ w₂ hrun ih hstep
  rw [heardIn, emitted_concat _ mv hrun]
  rcases ih with hne | hflight
  · exact Or.inl fun heq => hne (List.append_eq_nil_iff.1 heq).1
  · rcases Protocol.stays_in_flight hstep hflight with ⟨reading, rfl⟩ | hflight
    · have hnews : news t d w₁ (.deliver ⟨sender, d, .targetResolved t⟩ reading) =
          some .resolved := (if_pos rfl).trans (if_pos rfl)
      rw [hnews]
      exact Or.inl (List.append_ne_nil_of_right_ne_nil _ (by simp))
    · exact Or.inr hflight

/-- What the drone that resolves a target has done. -/
theorem resolves (h : Sound F t w)
    (hsaid : .targetResolved t ∈ F.said w (.act d .reachedTarget)) :
    (w.nodes d).claimedTarget = some t ∧ t ≠ Str.empty := by
  change Message.targetResolved t ∈ (w.nodes d).reachedTarget.1 at hsaid
  unfold TargetManager.reachedTarget at hsaid
  split at hsaid
  · cases hsaid
  · next htruthy =>
      split at hsaid
      · cases hsaid
      · next target htarget =>
          obtain ⟨tid, hclaimed, hget⟩ := Option.bind_eq_some_iff.1 htarget
          obtain rfl : t = target.id := by simpa using hsaid
          obtain rfl : target.id = tid := KeyedMap.key_of_get? hget
          refine ⟨hclaimed, ?_⟩
          simpa [hclaimed, truthy] using htruthy

/-- **When nothing about a target is in flight after it has been resolved, it is gone exactly if no
drone has heard of it by an announcement or an update after the last resolution.** -/
theorem resolved_iff (F : Fleet) (t d₀ : Str) (before after : List FleetMove)
    (w₀ w : World Str TargetManager Message)
    (hbefore : run F.protocol.step newWorld before = some w₀)
    (hresolves : .targetResolved t ∈ F.said w₀ (.act d₀ .reachedTarget))
    (hafter : run F.protocol.step w₀ (.act d₀ .reachedTarget :: after) = some w)
    (honly : Along F.protocol.step (OnlyResolves F t) w₀ (.act d₀ .reachedTarget :: after))
    (hquiet : ∀ e ∈ w.inFlight, e.message.target? ≠ some t) :
    Resolved F t w ↔ ∀ d ∈ F.ids,
      (heardIn F t d w₀ (.act d₀ .reachedTarget :: after)).getLast? ≠ some .present := by
  have hsound₀ : Sound F t w₀ := (sound_newWorld F t).run hbefore
  have hsound : Sound F t w := hsound₀.run hafter
  obtain ⟨hclaimed, hname⟩ := resolves hsound₀ hresolves
  obtain ⟨w₁, hstep, hrun⟩ := run_cons.1 hafter
  have hheard : ∀ d ∈ F.ids, heardIn F t d w₀ (.act d₀ .reachedTarget :: after) ≠ [] := by
    intro d hd
    have hcons : heardIn F t d w₀ (.act d₀ .reachedTarget :: after) =
        (news t d w₀ (.act d₀ .reachedTarget)).toList ++ heardIn F t d w₁ after := by
      simp [heardIn, emitted, hstep]
    rw [hcons]
    by_cases hdd : d = d₀
    · subst hdd
      have hnews : news t d w₀ (.act d .reachedTarget) = some .resolved := if_pos ⟨rfl, hclaimed⟩
      rw [hnews]
      exact List.cons_ne_nil _ _
    · have hsent : ⟨d₀, d, .targetResolved t⟩ ∈ w₁.inFlight := by
        refine Protocol.sent_mem_inFlight hstep ?_
        rw [Fleet.sent_eq, mem_broadcast]
        exact ⟨rfl, hdd, hd, hresolves⟩
      rcases heard_of_run hsent hrun with hne | hflight
      · exact List.append_ne_nil_of_right_ne_nil _ hne
      · exact absurd rfl (hquiet _ hflight)
  refine forall₂_congr fun d hd => ?_
  refine Iff.trans ?_ (not_congr (settled_of_run hsound₀ hname honly hafter d (hheard d hd)))
  constructor
  · rintro ⟨hnone, -⟩ hknown
    obtain ⟨target, htarget⟩ := knows_iff.1 hknown
    exact hnone target htarget (hsound.sane.pending d t target htarget)
  · intro hunknown
    refine ⟨fun target htarget => absurd (knows_iff.2 ⟨target, htarget⟩) hunknown, fun hc => ?_⟩
    exact hunknown (hsound.claimed d hc)

/-! ### A late announcement -/

/-- Drone `a`, a relay, finds a target and tells `b`, which claims it. -/
def foundAndClaimed : List FleetMove :=
  [.act "a" (.detectTarget .relay ⟨10, 10, 10⟩ ⟨0, 0, 0⟩ 1), aTells "b"]

/-- Drone `b` reaches the target. -/
def reachedByB : FleetMove := .act "b" .reachedTarget

/-- The announcement of `a` reaches `c`, another relay. -/
def aTellsRelay : FleetMove :=
  .deliver ⟨"a", "c", .targetAnnouncement foundByA.toDict⟩ ⟨.relay, 10, 10, 10⟩

def bResolves (receiver : Str) : FleetMove :=
  delivery "b" receiver (.targetResolved "victim_0_0_0")

/-- The announcement comes before the resolution. -/
def inTime : List FleetMove :=
  [claims "b" "a" 1, bResolves "a", aTellsRelay, claims "b" "c" 1, bResolves "c"]

/-- The announcement comes after the resolution. -/
def tooLate : List FleetMove :=
  [claims "b" "a" 1, bResolves "a", claims "b" "c" 1, bResolves "c", aTellsRelay]

theorem resolved_inTime : ∃ w₀ w, run threeDrones.protocol.step newWorld foundAndClaimed = some w₀ ∧
    run threeDrones.protocol.step w₀ (reachedByB :: inTime) = some w ∧
      Resolved threeDrones "victim_0_0_0" w := by
  obtain ⟨w₀, hw₀⟩ : ∃ w₀, run threeDrones.protocol.step newWorld foundAndClaimed = some w₀ :=
    Option.isSome_iff_exists.1 (by decide +kernel)
  have hfacts : ∀ w₀ ∈ run threeDrones.protocol.step newWorld foundAndClaimed,
      .targetResolved "victim_0_0_0" ∈ threeDrones.said w₀ reachedByB ∧
      Along threeDrones.protocol.step (OnlyResolves threeDrones "victim_0_0_0") w₀
        (reachedByB :: inTime) ∧
      (run threeDrones.protocol.step w₀ (reachedByB :: inTime)).isSome ∧
      (∀ w ∈ run threeDrones.protocol.step w₀ (reachedByB :: inTime), w.inFlight = []) ∧
      ∀ d ∈ threeDrones.ids, (heardIn threeDrones "victim_0_0_0" d w₀
        (reachedByB :: inTime)).getLast? ≠ some .present := by decide +kernel
  obtain ⟨hresolves, honly, hsome, hquiet, hlast⟩ := hfacts w₀ hw₀
  obtain ⟨w, hw⟩ := Option.isSome_iff_exists.1 hsome
  refine ⟨w₀, w, hw₀, hw, (resolved_iff threeDrones "victim_0_0_0" "b" foundAndClaimed inTime w₀ w
    hw₀ hresolves hw honly fun e he => ?_).2 hlast⟩
  rw [hquiet w hw] at he
  cases he

theorem late_announcement_revives :
    ¬ ∀ (F : Fleet) (t d₀ : Str) (before after : List FleetMove)
      (w₀ w : World Str TargetManager Message),
      run F.protocol.step newWorld before = some w₀ →
      .targetResolved t ∈ F.said w₀ (.act d₀ .reachedTarget) →
      run F.protocol.step w₀ (.act d₀ .reachedTarget :: after) = some w →
      Along F.protocol.step (OnlyResolves F t) w₀ (.act d₀ .reachedTarget :: after) →
      (∀ e ∈ w.inFlight, e.message.target? ≠ some t) → Resolved F t w := by
  intro h
  obtain ⟨w₀, hw₀⟩ : ∃ w₀, run threeDrones.protocol.step newWorld foundAndClaimed = some w₀ :=
    Option.isSome_iff_exists.1 (by decide +kernel)
  have hfacts : ∀ w₀ ∈ run threeDrones.protocol.step newWorld foundAndClaimed,
      .targetResolved "victim_0_0_0" ∈ threeDrones.said w₀ reachedByB ∧
      Along threeDrones.protocol.step (OnlyResolves threeDrones "victim_0_0_0") w₀
        (reachedByB :: tooLate) ∧
      (run threeDrones.protocol.step w₀ (reachedByB :: tooLate)).isSome ∧
      ∀ w ∈ run threeDrones.protocol.step w₀ (reachedByB :: tooLate), w.inFlight = [] ∧
        (w.nodes "c").targets.get? "victim_0_0_0" = some foundByA := by decide +kernel
  obtain ⟨hresolves, honly, hsome, hend⟩ := hfacts w₀ hw₀
  obtain ⟨w, hw⟩ := Option.isSome_iff_exists.1 hsome
  obtain ⟨hquiet, hheld⟩ := hend w hw
  have hresolved := h threeDrones "victim_0_0_0" "b" foundAndClaimed tooLate w₀ w hw₀ hresolves hw
    honly fun e he => by rw [hquiet] at he; cases he
  exact (hresolved "c" (by decide)).1 foundByA hheld rfl

end Targets
