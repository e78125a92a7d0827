/-
**Handoffs that are kept.**

A rover that is rescuing does not bid for a handoff.  But it may have bid for several before, and it
takes up whatever is awarded to it: a second award makes it drop the first one.

Main definitions:

* `Drone.Owes` — a rover has acknowledged a handoff and not completed it since;
* `Drone.Kept` — a rover works on each handoff that it owes;
* `Drone.KeepsHandoffs` — in all states of a run, each handoff has at most one taker and is kept;
* `Drone.Orderly` — a move by which no award reaches a rover that has another handoff.

Main results:

* `Drone.owes_iff` — what is owed can be read off the log from its beginning;
* `Drone.Held.step` — in an orderly move each rover goes on with what it owes;
* `Drone.not_kept_of_disorderly` — after any other move a handoff is dropped;
* `Drone.kept_iff_orderly` — **in a run each handoff is taken up by at most one rover, and kept by
  it exactly if no award reaches a rover that has another handoff.**
-/
import Endendend.Drone.Handoffs
import Mathlib.Data.Rat.Sqrt

set_option relaxedAutoImplicit false
set_option autoImplicit false

namespace Drone

open Py (Str)
open Targets (Location)
open Network (Envelope Move)
open Runs

/-! ### What is owed -/

/-- A drone completes the rescue of a handoff. -/
def Output.Completes (hid : Str) (o : Output) : Prop :=
  ∃ loc, o = .broadcast (.rescueComplete hid loc)

/-- A rover has acknowledged a handoff and not completed it since. -/
def Owes (log : List (Str × Output)) (rover hid : Str) : Prop :=
  ∃ pre ack post, log = pre ++ (rover, ack) :: post ∧ ack.ack? = some hid ∧
    ∀ o, (rover, o) ∈ post → ¬ o.Completes hid

/-- The handoffs that a rover owes, one deed after the other. -/
def owed (rover : Str) (log : List (Str × Output)) : List Str :=
  log.foldl (fun held deed => if deed.1 = rover then owing held deed.2 else held) []

theorem mem_owing {held : List Str} {o : Output} {hid : Str} :
    hid ∈ owing held o ↔ o.ack? = some hid ∨ hid ∈ held ∧ ¬ o.Completes hid := by
  unfold owing
  split
  · next dest hid' =>
      have hnot : ¬ (Output.send dest (.handoffAck hid')).Completes hid := by
        rintro ⟨loc, h⟩
        cases h
      rw [Js.mem_setAdd]
      constructor
      · rintro (hheld | rfl)
        · exact Or.inr ⟨hheld, hnot⟩
        · exact Or.inl rfl
      · rintro (hack | ⟨hheld, -⟩)
        · exact Or.inr (Option.some.inj hack).symm
        · exact Or.inl hheld
  · next hid' loc =>
      have hcompletes : (Output.broadcast (.rescueComplete hid' loc)).Completes hid ↔ hid' = hid :=
        ⟨fun ⟨loc', h⟩ => by cases h; rfl, fun h => ⟨loc, h ▸ rfl⟩⟩
      rw [List.mem_filter, decide_eq_true_eq, hcompletes, ne_comm]
      constructor
      · exact Or.inr
      · rintro (hack | hheld)
        · cases hack
        · exact hheld
  · next hack hcomplete =>
      have hnone : o.ack? ≠ some hid := by
        intro h
        unfold Output.ack? at h
        split at h
        · exact hack _ _ rfl
        · cases h
      have hnot : ¬ o.Completes hid := fun ⟨loc, h⟩ => hcomplete hid loc h
      simp [hnone, hnot]

theorem owed_concat (rover : Str) (log : List (Str × Output)) (deed : Str × Output) :
    owed rover (log ++ [deed]) =
      if deed.1 = rover then owing (owed rover log) deed.2 else owed rover log := by
  rw [owed, List.foldl_append]
  rfl

theorem owes_concat {log : List (Str × Output)} {deed : Str × Output} {rover hid : Str} :
    Owes (log ++ [deed]) rover hid ↔ deed.1 = rover ∧ deed.2.ack? = some hid ∨
      Owes log rover hid ∧ ¬ (deed.1 = rover ∧ deed.2.Completes hid) := by
  constructor
  · rintro ⟨pre, ack, post, hlog, hack, hpost⟩
    rcases List.eq_nil_or_concat' post with rfl | ⟨post, last, rfl⟩
    · obtain ⟨-, hdeed⟩ := List.append_inj' hlog rfl
      obtain rfl := List.singleton_inj.1 hdeed
      exact Or.inl ⟨rfl, hack⟩
    · rw [← List.cons_append, ← List.append_assoc] at hlog
      obtain ⟨hpre, hdeed⟩ := List.append_inj' hlog rfl
      obtain rfl := List.singleton_inj.1 hdeed
      refine Or.inr ⟨⟨pre, ack, post, hpre, hack, fun o ho => ?_⟩, ?_⟩
      · exact hpost o (List.mem_append_left _ ho)
      · rintro ⟨rfl, hcompletes⟩
        exact hpost deed.2 (List.mem_append_right _ (List.mem_singleton_self _)) hcompletes
  · rintro (⟨rfl, hack⟩ | ⟨⟨pre, ack, post, rfl, hack, hpost⟩, hnot⟩)
    · exact ⟨log, deed.2, [], rfl, hack, fun _ h => absurd h List.not_mem_nil⟩
    · refine ⟨pre, ack, post ++ [deed], by simp, hack, fun o ho => ?_⟩
      rcases List.mem_append.1 ho with ho | ho
      · exact hpost o ho
      · intro hcompletes
        rw [← List.mem_singleton.1 ho] at hnot
        exact hnot ⟨rfl, hcompletes⟩

/-- What is owed can be read off the log from its beginning. -/
theorem owes_iff {log : List (Str × Output)} {rover hid : Str} :
    Owes log rover hid ↔ hid ∈ owed rover log := by
  induction log using List.reverseRecOn with
  | nil => simp [Owes, owed]
  | append_singleton log deed ih =>
      rw [owes_concat, ih, owed_concat]
      split
      · next hrover => simp only [hrover, true_and, mem_owing]
      · next hrover => simp only [hrover, false_and, false_or, not_false_eq_true, and_true]

/-! ### What is kept -/

/-- A rover works on each handoff that it owes. -/
def Kept (s : Flight) : Prop :=
  ∀ rover hid, Owes s.log rover hid →
    (s.world.nodes rover).currentHandoffRescue.map Prod.fst = some hid

/-- No award reaches a rover that has another handoff. -/
def Orderly (s : Flight) : FleetMove → Prop
  | .act _ _ => True
  | .deliver e _ => ∀ next ∈ takenUp (s.world.nodes e.receiver) e.message,
      ∀ current ∈ (s.world.nodes e.receiver).currentHandoffRescue, next.1 = current.1

instance (s : Flight) (mv : FleetMove) : Decidable (Orderly s mv) := by
  cases mv <;> unfold Orderly <;> infer_instance

/-- What each rover owes is what it works on. -/
def Held (s : Flight) : Prop := ∀ d, owed d s.log = (s.world.nodes d).held

variable {F : Fleet} {s s' : Flight} {mv : FleetMove}

theorem Held.kept (h : Held s) : Kept s := by
  intro rover hid howes
  rw [owes_iff, h rover] at howes
  exact Option.mem_toList.1 howes

theorem owed_append_map (d i : Str) (log : List (Str × Output)) (out : List Output) :
    owed d (log ++ out.map (i, ·)) =
      if i = d then out.foldl owing (owed d log) else owed d log := by
  induction out generalizing log with
  | nil => simp
  | cons o out ih =>
      rw [List.map_cons, List.append_cons, ih, owed_concat]
      split <;> rfl

/-- Taking up a handoff, when there is no other. -/
theorem owing_of_takesUp {c : DroneController} {hid : Str} {victim : Location} {res : Result}
    (h : TakesUp c hid victim res)
    (hfree : ∀ current ∈ c.currentHandoffRescue, hid = current.1) :
    res.1.foldl owing c.held = res.2.held := by
  obtain ⟨dest, hout⟩ := h.outputs
  rw [hout, h.drone]
  show Js.setAdd c.held hid = [hid]
  unfold DroneController.held
  cases hcurrent : c.currentHandoffRescue with
  | none => rfl
  | some current =>
      rw [hfree current hcurrent]
      exact if_pos List.mem_cons_self

/-- **In an orderly move each rover goes on with what it owes.** -/
theorem Held.step (hheld : Held s) (h : Moved F s mv s') (horderly : Orderly s mv) : Held s' := by
  intro d
  rw [h.log, Fleet.deeds, owed_append_map, hheld d]
  by_cases hd : mv.node = d
  · subst hd
    rw [if_pos rfl, h.node]
    rcases perform_cases F.maths (readingOf mv) (s.world.nodes mv.node) (callOf mv) with
      hr | ⟨sender, msg, hid, victim, hcall, htaken, ht⟩ | ⟨hid, hs⟩
    · exact hr.held.symm
    · obtain ⟨e, r, rfl, -, rfl⟩ := deliver_of_callOf hcall
      exact owing_of_takesUp ht (horderly _ htaken)
    · exact hs.held
  · rw [if_neg hd, h.others d (Ne.symm hd)]

/-- **After a move that is not orderly a handoff is dropped.** -/
theorem not_kept_of_disorderly (hheld : Held s) (h : Moved F s mv s')
    (hdisorderly : ¬ Orderly s mv) : ¬ Kept s' := by
  cases mv with
  | act i ev => exact absurd trivial hdisorderly
  | deliver e r =>
      unfold Orderly at hdisorderly
      push Not at hdisorderly
      obtain ⟨⟨hid, victim⟩, htaken, ⟨old, place⟩, hcurrent, hne⟩ := hdisorderly
      have ht : TakesUp (s.world.nodes e.receiver) hid victim
          (F.perform (.deliver e r) (s.world.nodes e.receiver)) :=
        takesUp_handleMessage F.maths r htaken
      have hold : old ∈ owed e.receiver s'.log := by
        obtain ⟨dest, hout⟩ := ht.outputs
        rw [h.log, Fleet.deeds, Move.node, owed_append_map, if_pos rfl, hheld e.receiver, hout]
        refine Js.mem_setAdd.2 (Or.inl ?_)
        rw [DroneController.held, Option.mem_def.1 hcurrent]
        exact List.mem_singleton_self old
      intro hkept
      have hnow := hkept e.receiver old (owes_iff.2 hold)
      have hafter := h.node
      rw [Move.node] at hafter
      rw [hafter, ht.drone] at hnow
      exact hne (Option.some.inj hnow)

/-! ### Runs -/

/-- In all states of a run, each handoff is taken up by at most one rover, and kept by it. -/
def KeepsHandoffs (F : Fleet) (moves : List FleetMove) : Prop :=
  ∀ p t, p <+: moves → run (fleetStep F) F.start p = some t → OneTaker t.log ∧ Kept t

theorem held_start (F : Fleet) : Held F.start := fun _ => rfl

/-- **In a run each handoff is taken up by at most one rover, and kept by it, exactly if no award
reaches a rover that has another handoff.** -/
theorem kept_iff_orderly (F : Fleet) {moves : List FleetMove}
    (hrun : run (fleetStep F) F.start moves = some s) :
    KeepsHandoffs F moves ↔ Along (fleetStep F) Orderly F.start moves := by
  refine always_iff_along_of_run (I := fun t => Sound t ∧ Held t) ?_ ?_ ?_
    ⟨sound_start F, held_start F⟩ hrun
  · exact fun t ht => ⟨ht.1.oneTaker, ht.2.kept⟩
  · intro t mv t' ht horderly hstep
    have hmoved := moved_of_step hstep
    exact ⟨ht.1.step hmoved, ht.2.step hmoved horderly⟩
  · intro t mv t' ht hdisorderly hstep hgood
    exact not_kept_of_disorderly ht.2 (moved_of_step hstep) hdisorderly hgood.2

/-! ### Two handoffs for one rover -/

/-- A drone that is low on battery, and a rover. -/
def hawkAndMule : Fleet where
  maths :=
    { sqrt := Rat.sqrt
      hypot x y := Rat.sqrt (x * x + y * y)
      atan2 _ _ := 0
      cos _ := 1
      sin _ := 0 }
  ids := ["hawk", "mule"]
  nodup := by decide
  droneType id := if id = ("hawk" : Str) then .aerial else .ground
  steerable _ := true
  victimPositions _ := []
  coordinator _ := .unset
  launched _ := 0

/-- The drone finds a victim, and the rover bids for it. -/
def bidFor (ns : ℕ) (victim : Location) (distance : ℚ) : List FleetMove :=
  let hid := handoffId ns "hawk"
  let hawk := Reading.moment ns ⟨0, 0, 30⟩
  let mule := Reading.moment ns ⟨0, 0, 0⟩
  [.act "hawk" (.tick,
      { hawk with mock := some ⟨15, some (.victimDetected (coordinates victim) none)⟩ }),
    .deliver ⟨"hawk", "mule", .handoffRequest hid (coordinates victim)⟩ mule,
    .deliver ⟨"mule", "hawk", .handoffBid hid (some distance) (some "mule")⟩ hawk]

/-- The time for bids is up, and the handoff is awarded to the rover. -/
def award (ns : ℕ) (victim : Location) : List FleetMove :=
  let hid := handoffId ns "hawk"
  let later := ns + handoffBidWindow
  [.act "hawk" (.timer hid, .moment later ⟨0, 0, 30⟩),
    .deliver ⟨"hawk", "mule", .handoffAccept hid (coordinates victim) (some "hawk")⟩
      (.moment later ⟨0, 0, 0⟩)]

/-- One handoff is kept. -/
theorem kept_iff_orderly_oneHandoff :
    KeepsHandoffs hawkAndMule (bidFor 1 ⟨3, 4, 0⟩ 5 ++ award 1 ⟨3, 4, 0⟩) := by
  obtain ⟨s, hs⟩ : ∃ s, run (fleetStep hawkAndMule) hawkAndMule.start
      (bidFor 1 ⟨3, 4, 0⟩ 5 ++ award 1 ⟨3, 4, 0⟩) = some s :=
    Option.isSome_iff_exists.1 (by decide +kernel)
  exact (kept_iff_orderly hawkAndMule hs).2 (by decide +kernel)

/-- The rover bids for two handoffs and gets both: the first one is dropped. -/
theorem first_handoff_dropped :
    ¬ KeepsHandoffs hawkAndMule (bidFor 1 ⟨3, 4, 0⟩ 5 ++ bidFor 2 ⟨6, 8, 0⟩ 10 ++
      award 1 ⟨3, 4, 0⟩ ++ award 2 ⟨6, 8, 0⟩) := by
  obtain ⟨s, hs⟩ : ∃ s, run (fleetStep hawkAndMule) hawkAndMule.start
      (bidFor 1 ⟨3, 4, 0⟩ 5 ++ bidFor 2 ⟨6, 8, 0⟩ 10 ++ award 1 ⟨3, 4, 0⟩ ++
        award 2 ⟨6, 8, 0⟩) = some s :=
    Option.isSome_iff_exists.1 (by decide +kernel)
  have hend : ∀ t ∈ run (fleetStep hawkAndMule) hawkAndMule.start
      (bidFor 1 ⟨3, 4, 0⟩ 5 ++ bidFor 2 ⟨6, 8, 0⟩ 10 ++ award 1 ⟨3, 4, 0⟩ ++
        award 2 ⟨6, 8, 0⟩),
      handoffId 1 "hawk" ∈ owed "mule" t.log ∧
        (t.world.nodes "mule").currentHandoffRescue.map Prod.fst = some (handoffId 2 "hawk") := by
    decide +kernel
  obtain ⟨howed, hnow⟩ := hend s hs
  intro h
  have hkept := (h _ s (List.prefix_refl _) hs).2 "mule" _ (owes_iff.2 howed)
  exact absurd (handoffId_inj.1 (Option.some.inj (hkept.symm.trans hnow))).1 (by decide)

end Drone
