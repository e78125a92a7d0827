/-
**What a drone leaves alone.**

Whatever a drone does, it keeps its name, its halt and the books of its handoffs, but for a few
things: it begins handoffs, which get their names from the clock, and it completes the one that it
has taken up.  Taking up a handoff and awarding one are left to `Endendend.Drone.Handoff`.

Main definitions:

* `Drone.owing` — the handoffs that a drone has taken up and not completed;
* `Drone.Routine` — a result of a call that neither takes up a handoff nor awards one.

Main results:

* `Drone.Routine.andThen` — one routine result after another;
* `Drone.routine_of_plain` — a result that leaves the books alone is routine;
* `Drone.routine_tick`, `Drone.routine_handleMessage` — **ticks are routine, and so are messages but
  for an award that a rover takes up.**
-/
import Endendend.Drone.DroneController

set_option relaxedAutoImplicit false
set_option autoImplicit false

namespace Drone

open Py (Str)
open Js (OrderedMap)
open Targets (Location Target TargetManager locationOf locationKey)

/-! ### Routine results -/

/-- The handoffs that a drone has to complete, after it has done something more. -/
def owing (held : List Str) : Output → List Str
  | .send _ (.handoffAck hid) => Js.setAdd held hid
  | .broadcast (.rescueComplete hid _) => held.filter (· ≠ hid)
  | _ => held

/-- The handoff that a drone works on. -/
def DroneController.held (c : DroneController) : List Str :=
  (c.currentHandoffRescue.map Prod.fst).toList

/-- An award or an acknowledgement. -/
def Output.settles : Output → Bool
  | .send _ (.handoffAck _) => true
  | .send _ (.handoffAccept _ _ _) => true
  | .broadcast (.handoffAccept _ _ _) => true
  | _ => false

/-- Does an output have nothing to do with who has a handoff? -/
def Output.plain : Output → Bool
  | .broadcast (.rescueComplete _ _) => false
  | o => !o.settles

/-- The name of a handoff that is begun in a call. -/
def Begins (r : Reading) (nodeId : Str) (ns : ℕ) (hid : Str) : Prop :=
  r.start ≤ ns ∧ ns ≤ r.stop ∧ hid = handoffId ns nodeId

/-- A result that neither takes up a handoff nor awards one. -/
structure Routine (r : Reading) (c : DroneController) (res : Result) : Prop where
  nodeId : res.2.nodeId = c.nodeId
  droneType : res.2.droneType = c.droneType
  coordinator : res.2.coordinator = c.coordinator
  silent : ∀ o ∈ res.1, o.settles = false
  pending : ∀ hid, (res.2.pendingHandoffs.get? hid).isSome →
    (c.pendingHandoffs.get? hid).isSome ∨ ∃ ns, Begins r c.nodeId ns hid
  timers : ∀ t ∈ res.2.timers, t ∈ c.timers ∨
    ∃ ns, Begins r c.nodeId ns t.1 ∧ t.2 = ns + handoffBidWindow
  held : res.2.held = res.1.foldl owing c.held
  halt : res.2.safetyHalt = c.safetyHalt
  still : c.safetyHalt = true → ∀ vx vy, .setVelocity vx vy ∈ res.1 → vx = 0 ∧ vy = 0

variable {r : Reading} {c c' : DroneController} {out : List Output}

theorem Routine.refl (r : Reading) (c : DroneController) : Routine r c ([], c) where
  nodeId := rfl
  droneType := rfl
  coordinator := rfl
  silent := List.forall_mem_nil _
  pending _ h := Or.inl h
  timers _ h := Or.inl h
  held := rfl
  halt := rfl
  still _ _ _ h := absurd h List.not_mem_nil

/-- One routine result after another. -/
theorem Routine.andThen {res : Result} {f : DroneController → Result} (h : Routine r c res)
    (hf : ∀ c', Routine r c' (f c')) : Routine r c (res.andThen f) := by
  have h' := hf res.2
  refine ⟨h'.nodeId.trans h.nodeId, h'.droneType.trans h.droneType,
    h'.coordinator.trans h.coordinator, ?_, ?_, ?_, ?_, h'.halt.trans h.halt, ?_⟩
  · intro o ho
    exact (List.mem_append.1 ho).elim (h.silent o) (h'.silent o)
  · intro hid hhid
    rcases h'.pending hid hhid with hhid | hnew
    · exact h.pending hid hhid
    · exact Or.inr (h.nodeId ▸ hnew)
  · intro t ht
    rcases h'.timers t ht with ht | hnew
    · exact h.timers t ht
    · exact Or.inr (h.nodeId ▸ hnew)
  · show (f res.2).2.held = (res.1 ++ (f res.2).1).foldl owing c.held
    rw [h'.held, h.held, List.foldl_append]
  · intro hhalt vx vy hv
    rcases List.mem_append.1 hv with hv | hv
    · exact h.still hhalt vx vy hv
    · exact h'.still (h.halt.trans hhalt) vx vy hv

/-- The books of a drone: all that a routine result speaks of. -/
def DroneController.books (c : DroneController) :
    Str × DroneType × Coordinator × OrderedMap Str Location × List (Str × ℕ) ×
      Option (Str × Location) × Bool :=
  (c.nodeId, c.droneType, c.coordinator, c.pendingHandoffs, c.timers, c.currentHandoffRescue,
    c.safetyHalt)

/-- What a routine result says is said of the books. -/
theorem Routine.of_books {c₁ : DroneController} {res : Result} (h : Routine r c₁ res)
    (hbooks : c.books = c₁.books) : Routine r c res := by
  simp only [DroneController.books, Prod.mk.injEq] at hbooks
  obtain ⟨hnode, htype, hcoordinator, hpending, htimers, hcurrent, hhalt⟩ := hbooks
  have hheld : c.held = c₁.held := by rw [DroneController.held, hcurrent, DroneController.held]
  refine ⟨hnode ▸ h.nodeId, htype ▸ h.droneType, hcoordinator ▸ h.coordinator, h.silent, ?_, ?_,
    hheld ▸ h.held, hhalt ▸ h.halt, hhalt ▸ h.still⟩
  · rw [hpending, hnode]
    exact h.pending
  · rw [htimers, hnode]
    exact h.timers

theorem foldl_owing_of_plain {held : List Str} (hplain : ∀ o ∈ out, o.plain = true) :
    out.foldl owing held = held := by
  induction out with
  | nil => rfl
  | cons o out ih =>
      have hsame : owing held o = held := by
        have ho := hplain o List.mem_cons_self
        unfold owing
        split <;> first | rfl | cases ho
      rw [List.foldl_cons, hsame, ih fun o' ho' => hplain o' (List.mem_cons_of_mem _ ho')]

theorem settles_of_plain {o : Output} (h : o.plain = true) : o.settles = false := by
  unfold Output.plain at h
  split at h
  · cases h
  · simpa using h

/-- **A plain result that leaves the books alone is routine.** -/
theorem routine_of_plain (hbooks : c'.books = c.books) (hplain : ∀ o ∈ out, o.plain = true)
    (hstill : c.safetyHalt = true → ∀ vx vy, .setVelocity vx vy ∈ out → vx = 0 ∧ vy = 0) :
    Routine r c (out, c') := by
  simp only [DroneController.books, Prod.mk.injEq] at hbooks
  obtain ⟨hnode, htype, hcoordinator, hpending, htimers, hcurrent, hhalt⟩ := hbooks
  refine ⟨hnode, htype, hcoordinator, fun o ho => settles_of_plain (hplain o ho), ?_, ?_, ?_, hhalt,
    hstill⟩
  · exact fun hid h => Or.inl (hpending ▸ h)
  · exact fun t h => Or.inl (htimers ▸ h)
  · rw [foldl_owing_of_plain hplain]
    exact congrArg (fun current => (current.map Prod.fst).toList) hcurrent

/-- Nothing is done, and the books stay. -/
theorem routine_quiet (hbooks : c'.books = c.books) : Routine r c ([], c') :=
  routine_of_plain hbooks (List.forall_mem_nil _) fun _ _ _ h => absurd h List.not_mem_nil

/-- A plain output that is no velocity. -/
theorem routine_of_one {o : Output} (hbooks : c'.books = c.books) (hplain : o.plain = true)
    (hstill : ∀ vx vy, o ≠ .setVelocity vx vy) : Routine r c ([o], c') := by
  refine routine_of_plain hbooks ?_ ?_
  · intro o' ho'
    rw [List.mem_singleton.1 ho']
    exact hplain
  · intro _ vx vy hv
    exact absurd (List.mem_singleton.1 hv).symm (hstill vx vy)

/-! ### The parts of a call -/

variable (maths : Maths) (r : Reading) (c : DroneController)

theorem mem_setVelocity {vx vy : ℚ} {o : Output} (h : o ∈ c.setVelocity vx vy) :
    o = .setVelocity vx vy := by
  unfold DroneController.setVelocity at h
  split at h
  · exact List.mem_singleton.1 h
  · exact absurd h List.not_mem_nil

/-- A velocity, which is zero if the drone is halted. -/
theorem routine_setVelocity {vx vy : ℚ} (h : c.safetyHalt = true → vx = 0 ∧ vy = 0) :
    Routine r c (c.setVelocity vx vy, c) := by
  refine routine_of_plain rfl ?_ ?_
  · intro o ho
    rw [mem_setVelocity c ho]
    rfl
  · intro hhalt vx' vy' hv
    obtain ⟨rfl, rfl⟩ := Output.setVelocity.inj (mem_setVelocity c hv)
    exact h hhalt

theorem routine_withTargets (m : List Targets.Message × TargetManager) (claimed : Option Target) :
    Routine r c (c.withTargets m claimed) := by
  refine routine_of_plain ?_ ?_ ?_
  · cases claimed <;> rfl
  · intro o ho
    obtain ⟨x, -, rfl⟩ := List.mem_map.1 ho
    rfl
  · intro _ vx vy hv
    obtain ⟨x, -, hx⟩ := List.mem_map.1 hv
    cases hx

theorem routine_detectTarget (location : Location) (confidence : ℚ) :
    Routine r c (c.detectTarget maths r location confidence) :=
  routine_withTargets r c _ _

theorem routine_handleTargetMessage (sender : Str) (msg : Targets.Message) :
    Routine r c (c.handleTargetMessage maths r sender msg) :=
  routine_withTargets r c _ _

theorem routine_withExploration
    (m : Option Exploration.Sending × Exploration.ExplorationManager) :
    Routine r c (c.withExploration m) := by
  refine routine_of_plain rfl ?_ ?_
  · intro o ho
    obtain ⟨x, -, rfl⟩ := List.mem_map.1 ho
    rfl
  · intro _ vx vy hv
    obtain ⟨x, -, hx⟩ := List.mem_map.1 hv
    cases hx

/-- A handoff that is begun has a name of its own and a timer. -/
theorem routine_initiateHandoff (victim : Location) :
    Routine r c (c.initiateHandoff r victim) := by
  unfold DroneController.initiateHandoff
  split
  · exact Routine.refl r c
  have hbegins : Begins r c.nodeId (r.begun victim) (handoffId (r.begun victim) c.nodeId) :=
    ⟨(r.within victim).1, (r.within victim).2, rfl⟩
  refine ⟨rfl, rfl, rfl, ?_, ?_, ?_, rfl, rfl, ?_⟩
  · intro o ho
    rw [List.mem_singleton.1 ho]
    rfl
  · intro hid hhid
    rw [OrderedMap.get?_set] at hhid
    split at hhid
    · next heq => exact Or.inr ⟨_, heq ▸ hbegins⟩
    · exact Or.inl hhid
  · intro t ht
    rcases List.mem_append.1 ht with ht | ht
    · exact Or.inl ht
    · rw [List.mem_singleton.1 ht]
      exact Or.inr ⟨_, hbegins, rfl⟩
  · intro _ vx vy hv
    cases List.mem_singleton.1 hv

theorem routine_applyVictimSpatialEffects (location : List ℚ) (confidence : Option ℚ) :
    Routine r c (c.applyVictimSpatialEffects maths r location confidence) := by
  unfold DroneController.applyVictimSpatialEffects
  split
  · exact Routine.refl r c
  · dsimp only
    split
    · exact (routine_initiateHandoff r _ _).of_books rfl
    · split
      · exact routine_detectTarget maths r c _ _
      · exact Routine.refl r c

theorem routine_ingestVisionVictim (location : List ℚ) (confidence : Option ℚ) :
    Routine r c (c.ingestVisionVictim maths r location confidence) := by
  refine Routine.andThen ?_ fun c' => routine_applyVictimSpatialEffects maths r c' _ _
  exact routine_of_one rfl rfl fun _ _ => Output.noConfusion

theorem routine_tickMock : Routine r c (c.tickMock maths r) := by
  unfold DroneController.tickMock
  split
  · exact Routine.refl r c
  · dsimp only
    split
    · exact routine_quiet rfl
    · exact (routine_ingestVisionVictim maths r _ _ _).of_books rfl
    · exact routine_of_one rfl rfl fun _ _ => Output.noConfusion

theorem routine_checkForVictim (victim : Location) :
    Routine r c (c.checkForVictim maths r victim) := by
  unfold DroneController.checkForVictim
  split
  · exact Routine.refl r c
  · dsimp only
    split
    · exact Routine.refl r c
    · split
      · exact (routine_initiateHandoff r _ _).of_books rfl
      · exact routine_detectTarget maths r c _ _

theorem routine_checkForVictims : Routine r c (c.checkForVictims maths r) := by
  unfold DroneController.checkForVictims
  split
  · exact Routine.refl r c
  · suffices h : ∀ (victims : List Location) (res : Result), Routine r c res →
        Routine r c (victims.foldl (fun res victim => Result.andThen res fun c =>
          c.checkForVictim maths r victim) res) from h c.victimPositions _ (Routine.refl r c)
    intro victims
    induction victims with
    | nil => exact fun res h => h
    | cons victim victims ih =>
        exact fun res h => ih _ (h.andThen fun c' => routine_checkForVictim maths r c' victim)

/-! ### Moving -/

theorem routine_approach (loc : Location) (dist : ℚ) (h : c.safetyHalt = false) :
    Routine r c (c.approach r loc dist, c) := by
  unfold DroneController.approach
  dsimp only
  split
  · exact routine_setVelocity r c fun hhalt => absurd (h.symm.trans hhalt) Bool.false_ne_true
  · exact routine_setVelocity r c fun _ => ⟨rfl, rfl⟩

/-- A rescue that is complete is not owed any more. -/
theorem routine_doRescue : Routine r c (c.doRescue maths r) := by
  unfold DroneController.doRescue
  split
  · exact routine_setVelocity r c fun _ => ⟨rfl, rfl⟩
  · next hhalt =>
      have hhalt := Bool.eq_false_iff.2 hhalt
      split
      · next hid loc hcurrent =>
          dsimp only
          split
          · refine ⟨rfl, rfl, rfl, ?_, fun _ h => Or.inl h, fun _ h => Or.inl h, ?_, rfl, ?_⟩
            · intro o ho
              rw [List.mem_singleton.1 ho]
              rfl
            · have hheld : c.held = [hid] := by rw [DroneController.held, hcurrent]; rfl
              rw [hheld]
              simp [owing, DroneController.held]
            · intro _ vx vy hv
              cases List.mem_singleton.1 hv
          · exact routine_approach r c loc _ hhalt
      · split
        · exact routine_quiet rfl
        · split
          · exact routine_quiet rfl
          · dsimp only
            split
            · split
              · exact routine_withTargets r c _ _
              · have h := routine_withTargets r c c.targetManager.reachedTarget none
                exact ⟨h.nodeId, h.droneType, h.coordinator, h.silent, h.pending, h.timers,
                  h.held, h.halt, h.still⟩
            · exact routine_approach r c _ _ hhalt

theorem routine_doExplore : Routine r c (c.doExplore maths r) := by
  unfold DroneController.doExplore
  split
  · exact routine_setVelocity r c fun _ => ⟨rfl, rfl⟩
  · next hhalt =>
      split
      · exact routine_setVelocity r c fun _ => ⟨rfl, rfl⟩
      · dsimp only
        split
        · exact (routine_setVelocity r _ fun _ => ⟨rfl, rfl⟩).of_books rfl
        · split
          · exact routine_quiet rfl
          · exact Routine.of_books (routine_setVelocity r _ fun h => absurd h hhalt) rfl

theorem routine_move : Routine r c (c.move maths r) := by
  unfold DroneController.move
  split
  · refine routine_of_plain rfl ?_ ?_
    · intro o ho
      rw [List.mem_singleton.1 ho]
      rfl
    · intro _ vx vy hv
      obtain ⟨rfl, rfl⟩ := Output.setVelocity.inj (List.mem_singleton.1 hv)
      exact ⟨rfl, rfl⟩
  · split
    · exact routine_doRescue maths r c
    · exact routine_doExplore maths r c
    · exact routine_setVelocity r c fun _ => ⟨rfl, rfl⟩

theorem routine_tickOn : Routine r c (c.tickOn maths r) := by
  refine Routine.andThen (Routine.andThen (Routine.andThen ?_ fun c' => ?_) fun c' => ?_)
    fun c' => routine_move maths r c'
  · exact routine_withTargets r c _ _
  · exact routine_withExploration r c' _
  · exact routine_checkForVictims maths r c'

theorem routine_raised : Routine r c ([.raised], c) := by
  exact routine_of_one rfl rfl fun _ _ => Output.noConfusion

theorem books_tickBattery : (c.tickBattery r).books = c.books := by
  unfold DroneController.tickBattery DroneController.updateBattery
  dsimp only
  split
  · split <;> rfl
  · rfl

theorem routine_tick : Routine r c (c.tick maths r) := by
  have hmock := routine_tickMock maths r (c.tickBattery r)
  refine (hmock.andThen fun c' => ?_).of_books (books_tickBattery r c).symm
  split
  · exact routine_raised r c'
  · exact routine_tickOn maths r c'
  · exact routine_tickOn maths r c'

/-! ### Messages -/

theorem routine_handleHandoffRequest (sender hid : Str) (victimLocation : List ℚ) :
    Routine r c (c.handleHandoffRequest maths r sender hid victimLocation) := by
  unfold DroneController.handleHandoffRequest
  split
  · exact Routine.refl r c
  split
  · exact Routine.refl r c
  split
  · exact Routine.refl r c
  split
  · exact Routine.refl r c
  split
  · exact Routine.refl r c
  dsimp only
  split
  · exact Routine.refl r c
  · exact routine_of_one rfl rfl fun _ _ => Output.noConfusion

theorem books_handleHandoffBid (sender hid : Str) (bid : Option ℚ) (bidder : Option Str) :
    (c.handleHandoffBid sender hid bid bidder).books = c.books := by
  unfold DroneController.handleHandoffBid
  split
  · rfl
  · split <;> rfl

theorem books_handleHandoffAck (hid : Str) : (c.handleHandoffAck hid).books = c.books := by
  unfold DroneController.handleHandoffAck
  split <;> rfl

theorem books_handleRescueComplete (victimLocation : List ℚ) :
    (c.handleRescueComplete victimLocation).books = c.books := by
  unfold DroneController.handleRescueComplete
  split <;> rfl

/-- A message that awards a handoff to a rover that takes it up. -/
def takenUp (c : DroneController) : Message → Option (Str × Location)
  | .handoffAccept hid victimLocation _ =>
    if c.droneType = .ground ∧ hid ≠ Str.empty then
      (locationOf victimLocation).map fun victim => (hid, victim)
    else none
  | _ => none

theorem routine_handleMessage (sender : Str) (msg : Message) (h : takenUp c msg = none) :
    Routine r c (c.handleMessage maths r sender msg) := by
  cases msg with
  | safetyStop => exact routine_raised r c
  | safetyClear => exact routine_raised r c
  | handoffRequest hid victimLocation =>
      exact routine_handleHandoffRequest maths r c sender hid victimLocation
  | handoffBid hid bid bidder =>
      exact routine_quiet (books_handleHandoffBid c sender hid bid bidder)
  | handoffAccept hid victimLocation aerial =>
      have hnone : c.handleHandoffAccept sender hid victimLocation aerial = ([], c) := by
        unfold DroneController.handleHandoffAccept
        split
        · rfl
        · next htype =>
            split
            · rfl
            · next victim hvictim =>
                rw [if_pos]
                by_contra hid'
                rw [takenUp, if_pos ⟨not_not.1 htype, hid'⟩, hvictim] at h
                cases h
      show Routine r c (c.handleHandoffAccept sender hid victimLocation aerial)
      rw [hnone]
      exact Routine.refl r c
  | handoffAck hid => exact routine_quiet (books_handleHandoffAck c hid)
  | rescueComplete hid victimLocation =>
      exact routine_quiet (books_handleRescueComplete c victimLocation)
  | target msg => exact routine_handleTargetMessage maths r c sender msg
  | exploration update => exact routine_withExploration r c _
  | other => exact Routine.refl r c

end Drone
