/-
**Handoffs in a fleet.**

The drones of a fleet pass messages to each other, in any order and as late as may be, while clocks
move on and timers go off.  A handoff is named after the moment at which it is begun and after the
drone that begins it, so it is awarded once, and only one rover can take it up.

Main definitions:

* `Drone.Fleet`, `Drone.Flight`, `Drone.fleetStep` — the drones of a fleet, the messages in flight,
  the clock, and a log of all that the drones have done;
* `Drone.Acked`, `Drone.Awarded` — who has acknowledged a handoff, and to whom it was awarded;
* `Drone.Sound` — the books of the drones agree with the log.

Main results:

* `Drone.handoffId_inj` — a handoff is named after one drone and one moment;
* `Drone.perform_cases` — a call is routine, or a handoff is taken up in it, or one is awarded;
* `Drone.Sound.step` — every move of the fleet keeps the books in agreement with the log;
* `Drone.Sound.oneTaker` — **a handoff is taken up by at most one rover.**
-/
import Endendend.Drone.Routine

set_option relaxedAutoImplicit false
set_option autoImplicit false

namespace Drone

open Py (Str)
open Js (OrderedMap)
open Targets (Location Target TargetManager locationOf)
open Network (Envelope Protocol World Move)
open Runs

/-- **A handoff is named after one drone and one moment.** -/
theorem handoffId_inj {ns ns' : ℕ} {d d' : Str} :
    handoffId ns d = handoffId ns' d' ↔ ns = ns' ∧ d = d' := Str.stamp_inj

/-! ### The fleet -/

/-- Drones of both kinds, as they are set up. -/
structure Fleet where
  maths : Maths
  ids : List Str
  nodup : ids.Nodup
  droneType : Str → DroneType
  steerable : Str → Bool
  victimPositions : Str → List Location
  coordinator : Str → Coordinator
  launched : Str → ℚ

/-- What happens at a drone, apart from the messages of other drones. -/
inductive Event
  | tick
  | visionVictim (location : List ℚ) (confidence : Option ℚ)
  | initiateHandoff (victim : Location)
  | timer (handoffId : Str)

def Event.call : Event → Call
  | .tick => .tick
  | .visionVictim location confidence => .visionVictim location confidence
  | .initiateHandoff victim => .initiateHandoff victim
  | .timer hid => .timer hid

/-- The moves of a fleet, with what the drone reads. -/
abbrev FleetMove := Move Str Message (Event × Reading) Reading

/-- The call of a drone that a move is. -/
def callOf : FleetMove → Call
  | .act _ ev => ev.1.call
  | .deliver e _ => .message e.sender e.message

def readingOf : FleetMove → Reading
  | .act _ ev => ev.2
  | .deliver _ r => r

/-- Messages are what a move delivers. -/
theorem deliver_of_callOf {mv : FleetMove} {sender : Str} {msg : Message}
    (h : callOf mv = .message sender msg) :
    ∃ e r, mv = .deliver e r ∧ e.sender = sender ∧ e.message = msg := by
  cases mv with
  | act i ev =>
      obtain ⟨event, r⟩ := ev
      cases event <;> cases h
  | deliver e r =>
      obtain ⟨hsender, hmsg⟩ := Call.message.inj h
      exact ⟨e, r, rfl, hsender, hmsg⟩

namespace Fleet

variable (F : Fleet)

/-- What a drone sends goes to the drones of the fleet that it is for. -/
def envelopes (i : Str) : Output → List (Envelope Str Message)
  | .broadcast msg => Network.broadcast F.ids i [msg]
  | .send dest msg => if F.ids.contains dest then [⟨i, dest, msg⟩] else []
  | .gossip sending => Network.broadcast F.ids i [.exploration sending.message]
  | .setVelocity _ _ | .raised => []

/-- What the drone of a move does. -/
def perform (mv : FleetMove) (c : DroneController) : Result :=
  c.perform F.maths (readingOf mv) (callOf mv)

def protocol : Protocol Str DroneController Message (Event × Reading) Reading where
  members := F.ids
  act i ev c :=
    ((F.perform (.act i ev) c).1.flatMap (F.envelopes i), (F.perform (.act i ev) c).2)
  receive e r c :=
    ((F.perform (.deliver e r) c).1.flatMap (F.envelopes e.receiver),
      (F.perform (.deliver e r) c).2)

def launch (id : Str) : DroneController :=
  .new id (F.droneType id) (F.steerable id) (F.victimPositions id) (F.coordinator id)
    (F.launched id)

end Fleet

/-- The drones, the messages in flight, what the clock showed last, and all that was done. -/
structure Flight where
  world : World Str DroneController Message
  clock : ℕ
  log : List (Str × Output)

def Fleet.start (F : Fleet) : Flight := ⟨⟨F.launch, []⟩, 0, []⟩

/-- What a move adds to the log. -/
def Fleet.deeds (F : Fleet) (s : Flight) (mv : FleetMove) : List (Str × Output) :=
  (F.perform mv (s.world.nodes mv.node)).1.map (mv.node, ·)

/-- A move of the fleet; the clock does not run backwards. -/
def fleetStep (F : Fleet) (s : Flight) (mv : FleetMove) : Option Flight :=
  if s.clock ≤ (readingOf mv).start then
    (F.protocol.step s.world mv).map fun w => ⟨w, (readingOf mv).stop, s.log ++ F.deeds s mv⟩
  else none

variable {F : Fleet} {s s' : Flight} {mv : FleetMove} {c : DroneController} {r : Reading}

theorem Reading.start_le_stop (r : Reading) : r.start ≤ r.stop :=
  (r.within r.position).1.trans (r.within r.position).2

theorem Fleet.after_eq (F : Fleet) (w : World Str DroneController Message) (mv : FleetMove) :
    F.protocol.after w mv = (F.perform mv (w.nodes mv.node)).2 := by
  cases mv <;> rfl

theorem Fleet.sent_eq (F : Fleet) (w : World Str DroneController Message) (mv : FleetMove) :
    F.protocol.sent w mv =
      (F.perform mv (w.nodes mv.node)).1.flatMap (F.envelopes mv.node) := by
  cases mv <;> rfl

theorem fleetStep_eq_some : fleetStep F s mv = some s' ↔ s.clock ≤ (readingOf mv).start ∧
    ∃ w, F.protocol.step s.world mv = some w ∧
      ⟨w, (readingOf mv).stop, s.log ++ F.deeds s mv⟩ = s' := by
  rw [fleetStep, Option.ite_none_right_eq_some, Option.map_eq_some_iff]

/-! ### Who has a handoff -/

/-- The handoff that is acknowledged. -/
def Output.ack? : Output → Option Str
  | .send _ (.handoffAck hid) => some hid
  | _ => none

/-- The rover and the handoff that is awarded to it. -/
def Output.award? : Output → Option (Str × Str)
  | .send rover (.handoffAccept hid _ _) => some (rover, hid)
  | _ => none

/-- A rover has acknowledged a handoff. -/
def Acked (log : List (Str × Output)) (rover hid : Str) : Prop :=
  ∃ deed ∈ log, deed.1 = rover ∧ deed.2.ack? = some hid

/-- A drone has awarded a handoff to a rover. -/
def Awarded (log : List (Str × Output)) (aerial rover hid : Str) : Prop :=
  ∃ deed ∈ log, deed.1 = aerial ∧ deed.2.award? = some (rover, hid)

/-- Each handoff is taken up by at most one rover. -/
def OneTaker (log : List (Str × Output)) : Prop :=
  ∀ hid rover rover', Acked log rover hid → Acked log rover' hid → rover = rover'

theorem awarded_append {log log' : List (Str × Output)} {d rover hid : Str} :
    Awarded (log ++ log') d rover hid ↔ Awarded log d rover hid ∨ Awarded log' d rover hid := by
  simp only [Awarded, List.mem_append, or_and_right, exists_or]

theorem acked_append {log log' : List (Str × Output)} {rover hid : Str} :
    Acked (log ++ log') rover hid ↔ Acked log rover hid ∨ Acked log' rover hid := by
  simp only [Acked, List.mem_append, or_and_right, exists_or]

theorem awarded_map {out : List Output} {i d rover hid : Str} :
    Awarded (out.map (i, ·)) d rover hid ↔ i = d ∧ ∃ o ∈ out, o.award? = some (rover, hid) := by
  simp only [Awarded, List.mem_map]
  constructor
  · rintro ⟨_, ⟨o, ho, rfl⟩, hd, haward⟩
    exact ⟨hd, o, ho, haward⟩
  · rintro ⟨hd, o, ho, haward⟩
    exact ⟨_, ⟨o, ho, rfl⟩, hd, haward⟩

theorem acked_map {out : List Output} {i rover hid : Str} :
    Acked (out.map (i, ·)) rover hid ↔ i = rover ∧ ∃ o ∈ out, o.ack? = some hid := by
  simp only [Acked, List.mem_map]
  constructor
  · rintro ⟨_, ⟨o, ho, rfl⟩, hd, hack⟩
    exact ⟨hd, o, ho, hack⟩
  · rintro ⟨hd, o, ho, hack⟩
    exact ⟨_, ⟨o, ho, rfl⟩, hd, hack⟩

/-! ### What a call does about handoffs -/

theorem award?_eq_none {o : Output} (h : o.settles = false) : o.award? = none := by
  unfold Output.award?
  split
  · cases h
  · rfl

theorem ack?_eq_none {o : Output} (h : o.settles = false) : o.ack? = none := by
  unfold Output.ack?
  split
  · cases h
  · rfl

/-- A rover takes up a handoff and leaves the one it had. -/
structure TakesUp (c : DroneController) (hid : Str) (victim : Location) (res : Result) :
    Prop where
  outputs : ∃ dest, res.1 = [.send dest (.handoffAck hid)]
  drone : res.2 = { c with
    currentHandoffRescue := some (hid, victim)
    behavior := .rescue
    rescueTarget := none }

/-- A drone settles a handoff when the time for it is up. -/
structure Settles (r : Reading) (c : DroneController) (hid : Str) (res : Result) : Prop where
  pending : (c.pendingHandoffs.get? hid).isSome
  due : ∃ t ∈ c.timers, t.1 = hid ∧ t.2 ≤ r.start
  outputs : ∀ o ∈ res.1, ∃ rover loc aerial, o = .send rover (.handoffAccept hid loc aerial)
  one : ∀ o ∈ res.1, ∀ o' ∈ res.1, o = o'
  held : res.1.foldl owing c.held = res.2.held
  nodeId : res.2.nodeId = c.nodeId
  after : res.2.pendingHandoffs = c.pendingHandoffs.erase hid
  timers : ∀ t ∈ res.2.timers, t ∈ c.timers

theorem takesUp_handleMessage {sender hid : Str} {victim : Location} {msg : Message}
    (maths : Maths) (r : Reading) (h : takenUp c msg = some (hid, victim)) :
    TakesUp c hid victim (c.handleMessage maths r sender msg) := by
  unfold takenUp at h
  split at h
  · next hid' victimLocation aerial =>
      rw [Option.ite_none_right_eq_some, Option.map_eq_some_iff] at h
      obtain ⟨⟨htype, hname⟩, victim', hvictim, hsome⟩ := h
      obtain ⟨rfl, rfl⟩ := Prod.mk.inj hsome
      show TakesUp c _ _ (c.handleHandoffAccept sender _ victimLocation aerial)
      unfold DroneController.handleHandoffAccept
      rw [if_neg (not_not_intro htype), hvictim]
      dsimp only
      rw [if_neg hname]
      exact ⟨⟨_, rfl⟩, rfl⟩
  · cases h

theorem settles_timerGoesOff (r : Reading) (c : DroneController) (hid : Str) :
    Routine r c (c.timerGoesOff r hid) ∨ Settles r c hid (c.timerGoesOff r hid) := by
  unfold DroneController.timerGoesOff
  split
  · exact Or.inl (Routine.refl r c)
  · next timer hfind =>
      have hmem : timer ∈ c.timers := List.mem_of_find?_eq_some hfind
      have hdue := List.find?_some hfind
      simp only [Bool.decide_and, Bool.and_eq_true, decide_eq_true_eq] at hdue
      have herase : ∀ t ∈ c.timers.erase timer, t ∈ c.timers := fun t ht =>
        List.mem_of_mem_erase ht
      unfold DroneController.processHandoffBids
      dsimp only
      split
      · refine Or.inl ?_
        have h := Routine.refl r c
        exact ⟨rfl, rfl, rfl, h.silent, h.pending, fun t ht => Or.inl (herase t ht), rfl, rfl,
          h.still⟩
      · next victim hpending =>
          refine Or.inr ?_
          have hsome : (c.pendingHandoffs.get? hid).isSome := by rw [hpending]; rfl
          split
          · exact ⟨hsome, ⟨timer, hmem, hdue⟩, List.forall_mem_nil _, List.forall_mem_nil _, rfl,
              rfl, rfl, herase⟩
          · next best _ =>
              refine ⟨hsome, ⟨timer, hmem, hdue⟩, ?_, ?_, rfl, rfl, rfl, herase⟩
              · exact fun o ho => ⟨_, _, _, List.mem_singleton.1 ho⟩
              · exact fun o ho o' ho' =>
                  (List.mem_singleton.1 ho).trans (List.mem_singleton.1 ho').symm

/-- **A call is routine, or a handoff is taken up in it, or one is settled.** -/
theorem perform_cases (maths : Maths) (r : Reading) (c : DroneController) (call : Call) :
    Routine r c (c.perform maths r call) ∨
      (∃ sender msg hid victim, call = .message sender msg ∧
        takenUp c msg = some (hid, victim) ∧ TakesUp c hid victim (c.perform maths r call)) ∨
      ∃ hid, Settles r c hid (c.perform maths r call) := by
  cases call with
  | message sender msg =>
      cases htaken : takenUp c msg with
      | none => exact Or.inl (routine_handleMessage maths r c sender msg htaken)
      | some p =>
          refine Or.inr (Or.inl ⟨sender, msg, p.1, p.2, rfl, htaken, ?_⟩)
          exact takesUp_handleMessage maths r htaken
  | timer hid =>
      rcases settles_timerGoesOff r c hid with h | h
      · exact Or.inl h
      · exact Or.inr (Or.inr ⟨hid, h⟩)
  | tick => exact Or.inl (routine_tick maths r c)
  | visionVictim location confidence =>
      exact Or.inl (routine_ingestVisionVictim maths r c location confidence)
  | initiateHandoff victim => exact Or.inl (routine_initiateHandoff r c victim)

/-! ### The books agree with the log -/

/-- What the drones know, as far as it is about handoffs, agrees with what was done. -/
structure Sound (s : Flight) : Prop where
  nodeId : ∀ d, (s.world.nodes d).nodeId = d
  pending : ∀ d hid, ((s.world.nodes d).pendingHandoffs.get? hid).isSome →
    (∃ ns ≤ s.clock, hid = handoffId ns d) ∧ ∀ rover, ¬ Awarded s.log d rover hid
  timers : ∀ d, ∀ t ∈ (s.world.nodes d).timers,
    ∃ ns, t.1 = handoffId ns d ∧ t.2 = ns + handoffBidWindow
  awarded : ∀ d rover hid, Awarded s.log d rover hid →
    ∃ ns, hid = handoffId ns d ∧ ns + handoffBidWindow ≤ s.clock
  once : ∀ d rover rover' hid, Awarded s.log d rover hid → Awarded s.log d rover' hid →
    rover = rover'
  inFlight : ∀ e ∈ s.world.inFlight, ∀ award,
    (Output.send e.receiver e.message).award? = some award → Awarded s.log e.sender award.1 award.2
  acked : ∀ rover hid, Acked s.log rover hid → ∃ d, Awarded s.log d rover hid

theorem sound_start (F : Fleet) : Sound F.start where
  nodeId _ := rfl
  pending _ _ h := absurd h (by simp [Fleet.start, Fleet.launch, DroneController.new])
  timers _ _ h := absurd h List.not_mem_nil
  awarded := by
    rintro d rover hid ⟨deed, hdeed, -⟩
    exact absurd hdeed List.not_mem_nil
  once := by
    rintro d rover rover' hid ⟨deed, hdeed, -⟩
    exact absurd hdeed List.not_mem_nil
  inFlight _ h := absurd h List.not_mem_nil
  acked := by
    rintro rover hid ⟨deed, hdeed, -⟩
    exact absurd hdeed List.not_mem_nil

/-- **A handoff is taken up by at most one rover.** -/
theorem Sound.oneTaker (h : Sound s) : OneTaker s.log := by
  intro hid rover rover' hacked hacked'
  obtain ⟨d, hd⟩ := h.acked rover hid hacked
  obtain ⟨d', hd'⟩ := h.acked rover' hid hacked'
  obtain ⟨ns, rfl, -⟩ := h.awarded d rover hid hd
  obtain ⟨ns', hid', -⟩ := h.awarded d' rover' _ hd'
  obtain ⟨rfl, rfl⟩ := handoffId_inj.1 hid'
  exact h.once d rover rover' _ hd hd'

/-- A handoff that is begun has not been awarded yet. -/
theorem Sound.not_awarded_of_begins (h : Sound s) (hclock : s.clock ≤ r.start) {d rover hid : Str}
    {ns : ℕ} (hbegins : Begins r d ns hid) : ¬ Awarded s.log d rover hid := by
  intro haward
  obtain ⟨ns', hid', hns'⟩ := h.awarded d rover hid haward
  obtain ⟨hstart, -, rfl⟩ := hbegins
  obtain ⟨rfl, -⟩ := handoffId_inj.1 hid'
  have hwindow : 0 < handoffBidWindow := by decide
  omega

/-- A call neither broadcasts an award, nor does a routine call make one. -/
theorem addressed_of_perform (maths : Maths) (r : Reading) (c : DroneController) (call : Call)
    {o : Output} (ho : o ∈ (c.perform maths r call).1) :
    o.settles = false ∨ ∃ dest msg, o = .send dest msg := by
  rcases perform_cases maths r c call with h | ⟨_, _, hid, victim, -, -, h⟩ | ⟨hid, h⟩
  · exact Or.inl (h.silent o ho)
  · obtain ⟨dest, hout⟩ := h.outputs
    rw [hout] at ho
    exact Or.inr ⟨dest, _, List.mem_singleton.1 ho⟩
  · obtain ⟨rover, loc, aerial, rfl⟩ := h.outputs o ho
    exact Or.inr ⟨rover, _, rfl⟩

/-- An award in flight is one that its sender has made. -/
theorem award_of_mem_envelopes {i : Str} {o : Output} {e : Envelope Str Message}
    {award : Str × Str} (ho : o.settles = false ∨ ∃ dest msg, o = .send dest msg)
    (he : e ∈ F.envelopes i o)
    (haward : (Output.send e.receiver e.message).award? = some award) :
    e.sender = i ∧ o.award? = some award := by
  cases o with
  | broadcast msg =>
      obtain ⟨hsender, -, -, hmsg⟩ := Network.mem_broadcast.1 he
      rw [List.mem_singleton.1 hmsg] at haward
      rcases ho with ho | ⟨_, _, ho⟩
      · cases msg with
        | handoffAccept hid loc aerial => exact absurd ho.symm Bool.false_ne_true
        | _ => cases haward
      · cases ho
  | send dest msg =>
      change e ∈ (if F.ids.contains dest then _ else _) at he
      split at he
      · obtain rfl := List.mem_singleton.1 he
        exact ⟨rfl, haward⟩
      · exact absurd he List.not_mem_nil
  | gossip sending =>
      obtain ⟨-, -, -, hmsg⟩ := Network.mem_broadcast.1 he
      rw [List.mem_singleton.1 hmsg] at haward
      cases haward
  | setVelocity vx vy => exact absurd he List.not_mem_nil
  | raised => exact absurd he List.not_mem_nil

/-- What a call leaves of the handoffs that are open: none of them is awarded in it. -/
theorem open_of_perform {maths : Maths} {call : Call} {hid : Str}
    (h : ((c.perform maths r call).2.pendingHandoffs.get? hid).isSome) :
    ((c.pendingHandoffs.get? hid).isSome ∨ ∃ ns, Begins r c.nodeId ns hid) ∧
      ∀ o ∈ (c.perform maths r call).1, ∀ rover, o.award? ≠ some (rover, hid) := by
  rcases perform_cases maths r c call with hr | ⟨_, _, hid', victim, -, -, ht⟩ | ⟨hid', hs⟩
  · refine ⟨hr.pending hid h, fun o ho rover => ?_⟩
    rw [award?_eq_none (hr.silent o ho)]
    exact fun h => Option.some_ne_none _ h.symm
  · rw [ht.drone] at h
    refine ⟨Or.inl h, fun o ho rover => ?_⟩
    obtain ⟨dest, hout⟩ := ht.outputs
    rw [hout] at ho
    rw [List.mem_singleton.1 ho]
    exact fun h => Option.some_ne_none _ h.symm
  · rw [hs.after, OrderedMap.get?_erase] at h
    split at h
    · cases h
    · next hne =>
        refine ⟨Or.inl h, fun o ho rover haward => hne ?_⟩
        obtain ⟨rover', loc, aerial, rfl⟩ := hs.outputs o ho
        exact (Prod.mk.inj (Option.some.inj haward)).2.symm

/-- A handoff that is awarded in a call was open, and it was time. -/
theorem award_of_perform {maths : Maths} {call : Call} {o : Output} {rover hid : Str}
    (ho : o ∈ (c.perform maths r call).1) (haward : o.award? = some (rover, hid)) :
    (c.pendingHandoffs.get? hid).isSome ∧ (∃ t ∈ c.timers, t.1 = hid ∧ t.2 ≤ r.start) ∧
      ∀ o' ∈ (c.perform maths r call).1, o = o' := by
  rcases perform_cases maths r c call with hr | ⟨_, _, hid', victim, -, -, ht⟩ | ⟨hid', hs⟩
  · rw [award?_eq_none (hr.silent o ho)] at haward
    cases haward
  · obtain ⟨dest, hout⟩ := ht.outputs
    rw [hout] at ho
    rw [List.mem_singleton.1 ho] at haward
    cases haward
  · obtain ⟨rover', loc, aerial, rfl⟩ := hs.outputs o ho
    obtain ⟨-, rfl⟩ := Prod.mk.inj (Option.some.inj haward)
    exact ⟨hs.pending, hs.due, hs.one _ ho⟩

theorem award_of_takenUp {msg : Message} {hid rover : Str} {victim : Location}
    (h : takenUp c msg = some (hid, victim)) :
    (Output.send rover msg).award? = some (rover, hid) := by
  unfold takenUp at h
  split at h
  · rw [Option.ite_none_right_eq_some, Option.map_eq_some_iff] at h
    obtain ⟨-, victim', -, hsome⟩ := h
    obtain ⟨rfl, -⟩ := Prod.mk.inj hsome
    rfl
  · cases h

/-- A handoff that is acknowledged in a call is one that was awarded in the message. -/
theorem ack_of_perform {maths : Maths} {call : Call} {o : Output} {hid : Str}
    (ho : o ∈ (c.perform maths r call).1) (hack : o.ack? = some hid) :
    ∃ sender msg, call = .message sender msg ∧
      ∀ rover, (Output.send rover msg).award? = some (rover, hid) := by
  rcases perform_cases maths r c call with hr | ⟨sender, msg, hid', victim, hcall, htaken, ht⟩ |
    ⟨hid', hs⟩
  · rw [ack?_eq_none (hr.silent o ho)] at hack
    cases hack
  · obtain ⟨dest, hout⟩ := ht.outputs
    rw [hout] at ho
    rw [List.mem_singleton.1 ho] at hack
    obtain rfl := Option.some.inj hack
    exact ⟨sender, msg, hcall, fun rover => award_of_takenUp htaken⟩
  · obtain ⟨rover', loc, aerial, rfl⟩ := hs.outputs o ho
    cases hack

theorem nodeId_perform (maths : Maths) (r : Reading) (c : DroneController) (call : Call) :
    (c.perform maths r call).2.nodeId = c.nodeId := by
  rcases perform_cases maths r c call with h | ⟨_, _, hid, victim, -, -, h⟩ | ⟨hid, h⟩
  · exact h.nodeId
  · rw [h.drone]
  · exact h.nodeId

theorem timers_of_perform {maths : Maths} {call : Call} {t : Str × ℕ}
    (h : t ∈ (c.perform maths r call).2.timers) : t ∈ c.timers ∨
      ∃ ns, Begins r c.nodeId ns t.1 ∧ t.2 = ns + handoffBidWindow := by
  rcases perform_cases maths r c call with hr | ⟨_, _, hid, victim, -, -, ht⟩ | ⟨hid, hs⟩
  · exact hr.timers t h
  · rw [ht.drone] at h
    exact Or.inl h
  · exact Or.inl (hs.timers t h)

/-! ### Every move keeps them in agreement -/

/-- What a move does, in terms of the call that it is. -/
structure Moved (F : Fleet) (s : Flight) (mv : FleetMove) (s' : Flight) : Prop where
  onTime : s.clock ≤ (readingOf mv).start
  delivered : ∀ e r, mv = .deliver e r → e ∈ s.world.inFlight
  clock : s'.clock = (readingOf mv).stop
  log : s'.log = s.log ++ F.deeds s mv
  node : s'.world.nodes mv.node = (F.perform mv (s.world.nodes mv.node)).2
  others : ∀ d ≠ mv.node, s'.world.nodes d = s.world.nodes d
  inFlight : ∀ e ∈ s'.world.inFlight, e ∈ s.world.inFlight ∨
    ∃ o ∈ (F.perform mv (s.world.nodes mv.node)).1, e ∈ F.envelopes mv.node o

theorem moved_of_step (h : fleetStep F s mv = some s') : Moved F s mv s' := by
  obtain ⟨hclock, w, hw, rfl⟩ := fleetStep_eq_some.1 h
  refine ⟨hclock, ?_, rfl, rfl, ?_, fun d hd => Protocol.nodes_step_of_ne hw hd, fun e he => ?_⟩
  · rintro e r rfl
    exact (Protocol.step_eq_some.1 hw).1
  · rw [← F.after_eq]
    exact Protocol.nodes_step hw
  · refine (Protocol.mem_inFlight_step hw he).imp_right fun he => ?_
    rw [F.sent_eq] at he
    exact List.mem_flatMap.1 he

theorem Moved.clock_le (h : Moved F s mv s') : s.clock ≤ s'.clock :=
  h.clock ▸ h.onTime.trans (readingOf mv).start_le_stop

/-- What is awarded after a move was awarded before it, or in it. -/
theorem Moved.awarded_iff (h : Moved F s mv s') {d rover hid : Str} :
    Awarded s'.log d rover hid ↔ Awarded s.log d rover hid ∨ mv.node = d ∧
      ∃ o ∈ (F.perform mv (s.world.nodes mv.node)).1, o.award? = some (rover, hid) := by
  rw [h.log, awarded_append, Fleet.deeds, awarded_map]

theorem Moved.acked_iff (h : Moved F s mv s') {rover hid : Str} :
    Acked s'.log rover hid ↔ Acked s.log rover hid ∨ mv.node = rover ∧
      ∃ o ∈ (F.perform mv (s.world.nodes mv.node)).1, o.ack? = some hid := by
  rw [h.log, acked_append, Fleet.deeds, acked_map]

variable (hs : Sound s) (h : Moved F s mv s')

include hs h

/-- A handoff that is awarded in a move is open, and the time for its bids is up. -/
theorem Sound.award_of_move {o : Output} {rover hid : Str}
    (ho : o ∈ (F.perform mv (s.world.nodes mv.node)).1) (haward : o.award? = some (rover, hid)) :
    ((s.world.nodes mv.node).pendingHandoffs.get? hid).isSome ∧
      ∃ ns, hid = handoffId ns mv.node ∧ ns + handoffBidWindow ≤ s'.clock := by
  obtain ⟨hopen, ⟨t, ht, rfl, hdue⟩, -⟩ := award_of_perform ho haward
  obtain ⟨ns, hname, hns⟩ := hs.timers mv.node t ht
  refine ⟨hopen, ns, hname, ?_⟩
  rw [h.clock, ← hns]
  exact hdue.trans (readingOf mv).start_le_stop

theorem Sound.pending_step {d hid : Str}
    (hopen : ((s'.world.nodes d).pendingHandoffs.get? hid).isSome) :
    (∃ ns ≤ s'.clock, hid = handoffId ns d) ∧ ∀ rover, ¬ Awarded s'.log d rover hid := by
  by_cases hd : d = mv.node
  · subst hd
    rw [h.node] at hopen
    obtain ⟨hbefore, hnone⟩ := open_of_perform hopen
    rw [hs.nodeId] at hbefore
    have hawarded : ∀ rover, Awarded s'.log mv.node rover hid →
        Awarded s.log mv.node rover hid := by
      intro rover haward
      rcases h.awarded_iff.1 haward with haward | ⟨-, o, ho, haward⟩
      · exact haward
      · exact absurd haward (hnone o ho rover)
    rcases hbefore with hbefore | ⟨ns, hbegins⟩
    · obtain ⟨⟨ns, hns, rfl⟩, hnot⟩ := hs.pending mv.node hid hbefore
      refine ⟨⟨ns, hns.trans h.clock_le, rfl⟩, fun rover haward => ?_⟩
      exact hnot rover (hawarded rover haward)
    · refine ⟨⟨ns, h.clock ▸ hbegins.2.1, hbegins.2.2⟩, fun rover haward => ?_⟩
      exact hs.not_awarded_of_begins h.onTime hbegins (hawarded rover haward)
  · rw [h.others d hd] at hopen
    obtain ⟨⟨ns, hns, rfl⟩, hnot⟩ := hs.pending d hid hopen
    refine ⟨⟨ns, hns.trans h.clock_le, rfl⟩, fun rover haward => ?_⟩
    rcases h.awarded_iff.1 haward with haward | ⟨rfl, -⟩
    · exact hnot rover haward
    · exact hd rfl

theorem Sound.once_step {d rover rover' hid : Str} (haward : Awarded s'.log d rover hid)
    (haward' : Awarded s'.log d rover' hid) : rover = rover' := by
  rcases h.awarded_iff.1 haward with hold | ⟨rfl, o, ho, hnew⟩ <;>
    rcases h.awarded_iff.1 haward' with hold' | ⟨hd, o', ho', hnew'⟩
  · exact hs.once d rover rover' hid hold hold'
  · subst hd
    exact absurd hold ((hs.pending _ hid (hs.award_of_move h ho' hnew').1).2 rover)
  · exact absurd hold' ((hs.pending _ hid (hs.award_of_move h ho hnew).1).2 rover')
  · obtain ⟨-, -, hone⟩ := award_of_perform ho hnew
    obtain rfl := hone o' ho'
    exact (Prod.mk.inj (Option.some.inj (hnew.symm.trans hnew'))).1

/-- **Every move of the fleet keeps the books in agreement with the log.** -/
theorem Sound.step : Sound s' where
  nodeId d := by
    by_cases hd : d = mv.node
    · subst hd
      rw [h.node]
      exact (nodeId_perform _ _ _ _).trans (hs.nodeId _)
    · rw [h.others d hd]
      exact hs.nodeId d
  pending d hid hopen := hs.pending_step h hopen
  timers d t ht := by
    by_cases hd : d = mv.node
    · subst hd
      rw [h.node] at ht
      rcases timers_of_perform ht with ht | ⟨ns, hbegins, hns⟩
      · exact hs.timers _ t ht
      · exact ⟨ns, hs.nodeId mv.node ▸ hbegins.2.2, hns⟩
    · rw [h.others d hd] at ht
      exact hs.timers d t ht
  awarded d rover hid haward := by
    rcases h.awarded_iff.1 haward with haward | ⟨rfl, o, ho, haward⟩
    · obtain ⟨ns, hname, hns⟩ := hs.awarded d rover hid haward
      exact ⟨ns, hname, hns.trans h.clock_le⟩
    · exact (hs.award_of_move h ho haward).2
  once d rover rover' hid haward haward' := hs.once_step h haward haward'
  inFlight e he award haward := by
    refine h.awarded_iff.2 ?_
    rcases h.inFlight e he with he | ⟨o, ho, he⟩
    · exact Or.inl (hs.inFlight e he award haward)
    · obtain ⟨hsender, ho'⟩ := award_of_mem_envelopes (addressed_of_perform _ _ _ _ ho) he haward
      exact Or.inr ⟨hsender.symm, o, ho, ho'⟩
  acked rover hid hacked := by
    rcases h.acked_iff.1 hacked with hacked | ⟨rfl, o, ho, hack⟩
    · obtain ⟨d, hd⟩ := hs.acked rover hid hacked
      exact ⟨d, h.awarded_iff.2 (Or.inl hd)⟩
    · obtain ⟨sender, msg, hcall, haward⟩ := ack_of_perform ho hack
      obtain ⟨e, r, rfl, -, rfl⟩ := deliver_of_callOf hcall
      have hflight := hs.inFlight e (h.delivered e r rfl) _ (haward e.receiver)
      exact ⟨e.sender, h.awarded_iff.2 (Or.inl hflight)⟩

end Drone
