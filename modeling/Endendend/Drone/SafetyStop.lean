/-
**Safety stops.**

A drone that is halted stands still, whatever it is called for.  But no call halts it: the message
that should do so has no handler, and raises an error.

Main definitions:

* `Drone.Turn`, `Drone.turnStep` — the calls of a drone, with what each of them reads;
* `Drone.Obeyed` — in a run of calls, each safety stop is handled and then obeyed.

Main results:

* `Drone.halted_run` — no call halts a drone, and none lifts its halt;
* `Drone.still_of_halted` — a drone that is halted only commands the velocity zero;
* `Drone.motionless_of_unset` — a drone without the attribute `swarm_coordinator` raises an error at
  each tick, before it moves;
* `Drone.obeyed_iff` — **safety stops are obeyed exactly in the runs in which none comes in.**
-/
import Endendend.Drone.Routine
import Endendend.Foundation.Runs
import Mathlib.Data.Rat.Sqrt

set_option relaxedAutoImplicit false
set_option autoImplicit false

namespace Drone

open Py (Str)
open Targets (Location Target TargetManager locationOf)
open Runs

/-! ### The halt of a drone -/

/-- The halt stays as it is, and a drone that is halted stands still. -/
structure Halts (c : DroneController) (res : Result) : Prop where
  halt : res.2.safetyHalt = c.safetyHalt
  still : c.safetyHalt = true → ∀ vx vy, .setVelocity vx vy ∈ res.1 → vx = 0 ∧ vy = 0

variable {maths : Maths} {r : Reading} {c c' : DroneController}

theorem Halts.refl (c : DroneController) : Halts c ([], c) :=
  ⟨rfl, fun _ _ _ h => absurd h List.not_mem_nil⟩

theorem Routine.halts {res : Result} (h : Routine r c res) : Halts c res := ⟨h.halt, h.still⟩

theorem halts_handleHandoffAccept (c : DroneController) (sender hid : Str)
    (victimLocation : List ℚ) (aerial : Option Str) :
    Halts c (c.handleHandoffAccept sender hid victimLocation aerial) := by
  unfold DroneController.handleHandoffAccept
  split
  · exact Halts.refl c
  · split
    · exact Halts.refl c
    · split
      · exact Halts.refl c
      · exact ⟨rfl, fun _ vx vy hv => by cases List.mem_singleton.1 hv⟩

theorem halts_processHandoffBids (c : DroneController) (hid : Str) :
    Halts c (c.processHandoffBids hid) := by
  unfold DroneController.processHandoffBids
  split
  · exact Halts.refl c
  · dsimp only
    split
    · exact ⟨rfl, fun _ vx vy hv => absurd hv List.not_mem_nil⟩
    · exact ⟨rfl, fun _ vx vy hv => by cases List.mem_singleton.1 hv⟩

theorem halts_perform (maths : Maths) (r : Reading) (c : DroneController) (call : Call) :
    Halts c (c.perform maths r call) := by
  cases call with
  | message sender msg =>
      by_cases htaken : takenUp c msg = none
      · exact (routine_handleMessage maths r c sender msg htaken).halts
      · cases msg with
        | handoffAccept hid victimLocation aerial =>
            exact halts_handleHandoffAccept c sender hid victimLocation aerial
        | _ => exact absurd rfl htaken
  | tick => exact (routine_tick maths r c).halts
  | visionVictim location confidence =>
      exact (routine_ingestVisionVictim maths r c location confidence).halts
  | initiateHandoff victim => exact (routine_initiateHandoff r c victim).halts
  | timer hid =>
      show Halts c (c.timerGoesOff r hid)
      unfold DroneController.timerGoesOff
      split
      · exact Halts.refl c
      · next timer _ =>
          have h := halts_processHandoffBids { c with timers := c.timers.erase timer } hid
          exact ⟨h.halt, h.still⟩

/-! ### Runs of calls -/

/-- A call, with what it reads. -/
structure Turn where
  call : Call
  reading : Reading

/-- An error leaves the drone as it is at that moment, and the next call finds it so. -/
def turnStep (maths : Maths) (c : DroneController) (t : Turn) : Option DroneController :=
  some (c.perform maths t.reading t.call).2

/-- No call is refused. -/
theorem run_total (maths : Maths) (c : DroneController) (turns : List Turn) :
    ∃ c', run (turnStep maths) c turns = some c' := by
  induction turns generalizing c with
  | nil => exact ⟨c, rfl⟩
  | cons t turns ih =>
      obtain ⟨c', hc'⟩ := ih (c.perform maths t.reading t.call).2
      exact ⟨c', run_cons.2 ⟨_, rfl, hc'⟩⟩

/-- What a drone does in a turn. -/
def Turn.outputs (maths : Maths) (c : DroneController) (t : Turn) : List Output :=
  (c.perform maths t.reading t.call).1

def Call.isStop : Call → Bool
  | .message _ .safetyStop => true
  | _ => false

def Call.isClear : Call → Bool
  | .message _ .safetyClear => true
  | _ => false

/-- Each safety stop is handled without an error, and until the next clearance nothing but the
velocity zero is commanded. -/
structure Obeyed (maths : Maths) (c₀ : DroneController) (turns : List Turn) : Prop where
  handled : ∀ pre stop post c, turns = pre ++ stop :: post → stop.call.isStop = true →
    run (turnStep maths) c₀ pre = some c → .raised ∉ stop.outputs maths c
  obeyed : ∀ pre stop mid t post c, turns = pre ++ stop :: mid ++ t :: post →
    stop.call.isStop = true → (∀ t' ∈ mid ++ [t], t'.call.isClear = false) →
    run (turnStep maths) c₀ (pre ++ stop :: mid) = some c →
    ∀ vx vy, .setVelocity vx vy ∈ t.outputs maths c → vx = 0 ∧ vy = 0

variable {turns : List Turn}

/-- No call halts a drone, and none lifts its halt. -/
theorem halted_run (h : run (turnStep maths) c turns = some c') :
    c'.safetyHalt = c.safetyHalt := by
  refine invariant_of_run (I := fun c₁ => c₁.safetyHalt = c.safetyHalt) ?_ rfl h
  rintro c₁ t c₂ hc hstep
  obtain rfl := Option.some.inj hstep
  exact (halts_perform maths t.reading c₁ t.call).halt.trans hc

/-- **A drone that is halted stands still in every run.** -/
theorem still_of_halted (hhalt : c.safetyHalt = true)
    (h : run (turnStep maths) c turns = some c') {t : Turn} {vx vy : ℚ}
    (hv : .setVelocity vx vy ∈ t.outputs maths c') : vx = 0 ∧ vy = 0 :=
  (halts_perform maths t.reading c' t.call).still ((halted_run h).trans hhalt) vx vy hv

/-! ### No drone moves in a tick -/

/-- Is an output a velocity? -/
def Output.moves : Output → Bool
  | .setVelocity _ _ => true
  | _ => false

theorem motionless_withTargets {m : List Targets.Message × TargetManager}
    {claimed : Option Target} {o : Output} (h : o ∈ (c.withTargets m claimed).1) :
    o.moves = false := by
  obtain ⟨x, -, rfl⟩ := List.mem_map.1 h
  rfl

theorem motionless_initiateHandoff {victim : Location} {o : Output}
    (h : o ∈ (c.initiateHandoff r victim).1) : o.moves = false := by
  unfold DroneController.initiateHandoff at h
  split at h
  · exact absurd h List.not_mem_nil
  · rw [List.mem_singleton.1 h]
    rfl

theorem motionless_ingestVisionVictim {location : List ℚ} {confidence : Option ℚ} {o : Output}
    (h : o ∈ (c.ingestVisionVictim maths r location confidence).1) : o.moves = false := by
  rcases List.mem_cons.1 h with rfl | h
  · rfl
  · change o ∈ (c.applyVictimSpatialEffects maths r location confidence).1 at h
    unfold DroneController.applyVictimSpatialEffects at h
    split at h
    · exact absurd h List.not_mem_nil
    · dsimp only at h
      split at h
      · exact motionless_initiateHandoff h
      · split at h
        · exact motionless_withTargets h
        · exact absurd h List.not_mem_nil

theorem motionless_tickMock {o : Output} (h : o ∈ (c.tickMock maths r).1) : o.moves = false := by
  unfold DroneController.tickMock at h
  split at h
  · exact absurd h List.not_mem_nil
  · dsimp only at h
    split at h
    · exact absurd h List.not_mem_nil
    · exact motionless_ingestVisionVictim h
    · rw [List.mem_singleton.1 h]
      rfl

/-- **A drone without the attribute `swarm_coordinator` raises an error at each tick, before it
moves.** -/
theorem motionless_of_unset (h : c.coordinator = .unset) :
    ∃ out, (c.tick maths r).1 = out ++ [.raised] ∧ ∀ o ∈ out, o.moves = false := by
  have hbattery : (c.tickBattery r).coordinator = c.coordinator :=
    congrArg (·.2.2.1) (books_tickBattery r c)
  have hmock : ((c.tickBattery r).tickMock maths r).2.coordinator = .unset :=
    (routine_tickMock maths r (c.tickBattery r)).coordinator.trans (hbattery.trans h)
  refine ⟨((c.tickBattery r).tickMock maths r).1, ?_, fun o ho => motionless_tickMock ho⟩
  unfold DroneController.tick Result.andThen
  dsimp only
  rw [hmock]

/-! ### Stops are not obeyed -/

/-- A stop raises an error. -/
theorem raised_of_stop {t : Turn} (h : t.call.isStop = true) (c : DroneController) :
    t.outputs maths c = [.raised] := by
  obtain ⟨call, reading⟩ := t
  cases call with
  | message sender msg =>
      cases msg with
      | safetyStop => rfl
      | _ => exact absurd h Bool.false_ne_true
  | _ => exact absurd h Bool.false_ne_true

/-- **Safety stops are obeyed exactly in the runs in which none comes in.** -/
theorem obeyed_iff (maths : Maths) (c : DroneController) (turns : List Turn) :
    Obeyed maths c turns ↔ ∀ t ∈ turns, t.call.isStop = false := by
  constructor
  · intro h t ht
    refine Bool.eq_false_iff.2 fun hstop => ?_
    obtain ⟨pre, post, rfl⟩ := List.append_of_mem ht
    obtain ⟨c', hc'⟩ := run_total maths c pre
    refine h.handled pre t post c' rfl hstop hc' ?_
    rw [raised_of_stop hstop]
    exact List.mem_singleton_self _
  · intro h
    constructor
    · rintro pre stop post c' rfl hstop
      exact absurd hstop (by simp [h stop (by simp)])
    · rintro pre stop mid t post c' rfl hstop
      exact absurd hstop (by simp [h stop (by simp)])

/-- A controller that has just been set up, and that is told to stop. -/
theorem stop_raises :
    ¬ Obeyed ⟨fun x => Rat.sqrt x, fun x y => Rat.sqrt (x * x + y * y), fun _ _ => 0,
        fun _ => 1, fun _ => 0⟩
      (.new "scout" .aerial true [] .unset 0)
      [⟨.message "base" .safetyStop, .moment 1000 ⟨0, 0, 30⟩⟩] := by
  intro h
  exact h.handled [] _ [] _ rfl rfl rfl List.mem_cons_self

end Drone
