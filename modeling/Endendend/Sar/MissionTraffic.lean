/-
**Missions on shared topics** (`swarm/sar_vertex_foxmq_backend.py`).

A backend works on one mission at a time and has one phase.  The messages of all missions come in on
the same topics, and a phase that is announced is taken over whatever mission it is announced for.

Main definitions:

* `Sar.MissionPhase`, `Sar.MissionBackend` — a backend with its mission and phase;
* `Sar.MissionBackend.handleState` — what a state message does to the phase;
* `Sar.Watched`, `Sar.watch` — a backend next to the phase that is due, which only its own calls and
  the messages of its mission set;
* `Sar.Undisturbed` — the phase is the one that is due, all along a run;
* `Sar.NamesOtherPhase` — a message of another mission with a phase that is not the current one.

Main results:

* `Sar.watch_iff` — which moves keep the phase that is due;
* `Sar.undisturbed_iff` — **missions do not disturb each other exactly if no message of another
  mission names another phase.**
-/
import Endendend.Sar.OnlyPeers

set_option relaxedAutoImplicit false
set_option autoImplicit false

namespace Sar

open Js (Str Json lit)
open Py (Dict)
open Runs

/-! ### Phases -/

inductive MissionPhase
  | init
  | discovery
  | search
  | triage
  | rescue
  | extract
  | returning
  | complete
  | aborted
  deriving DecidableEq

namespace MissionPhase

def value : MissionPhase → Str
  | init => lit "init"
  | discovery => lit "discovery"
  | search => lit "search"
  | triage => lit "triage"
  | rescue => lit "rescue"
  | extract => lit "extract"
  | returning => lit "return"
  | complete => lit "complete"
  | aborted => lit "aborted"

def all : List MissionPhase :=
  [init, discovery, search, triage, rescue, extract, returning, complete, aborted]

/-- The phase with a value, if there is one. -/
def ofValue (s : Str) : Option MissionPhase := all.find? fun p => p.value = s

end MissionPhase

/-! ### The phase of a backend -/

structure MissionBackend (Secret : Type*) where
  backend : VertexFoxMQBackend Secret
  missionId : Str
  phase : MissionPhase

variable {Secret : Type*} (H : Hmac Secret) (c : Conversions)

/-- A message that announces a phase. -/
def IsPhaseMessage (e : P2PEnvelope) : Prop :=
  e.kind = lit "state" ∧ e.payload.get? (lit "type") = some (.str (lit "mission_phase"))

instance (e : P2PEnvelope) : Decidable (IsPhaseMessage e) := inferInstanceAs (Decidable (_ ∧ _))

/-- The phase that a message announces: the current one if it names none, and `none` if what it
names is no phase. -/
def phaseNamed (current : MissionPhase) (e : P2PEnvelope) : Option MissionPhase :=
  MissionPhase.ofValue (c.str ((e.payload.get? (lit "phase")).getD (.str current.value)))

namespace MissionBackend

variable (b : MissionBackend Secret)

def new (identity : NodeIdentity Secret) : MissionBackend Secret := ⟨.new identity, [], .init⟩

def createMission (missionId : Str) : MissionBackend Secret :=
  { b with missionId := missionId, phase := .init }

/-- The mission that is named is written to the ledger, but it is not compared. -/
def setPhase (_missionId : Str) (phase : MissionPhase) : MissionBackend Secret :=
  { b with phase := phase }

def setMission (missionId : Str) (phase : MissionPhase) : MissionBackend Secret :=
  { b with missionId := missionId, phase := phase }

/-- What `setPhase` publishes. -/
def phasePublication (topic missionId : Str) (phase : MissionPhase) (reason : Str)
    (checkpoint : Json) : Publication where
  kind := lit "state"
  topic := topic
  payload := .ofList
    [(lit "type", .str (lit "mission_phase")), (lit "mission_id", .str missionId),
      (lit "phase", .str phase.value), (lit "reason", .str reason), (lit "checkpoint", checkpoint)]
  ttl := 4
  correlationId := none
  replyTo := none

/-- What a message does to the phase; one that names no phase raises. -/
def handleState (e : P2PEnvelope) : MissionBackend Secret :=
  if IsPhaseMessage e then { b with phase := (phaseNamed c b.phase e).getD b.phase } else b

/-- An envelope comes in; no other message touches the phase. -/
def ingest (a : Arrival) : MissionBackend Secret :=
  let ingested := b.backend.ingestRaw H c a
  let b := { b with backend := ingested.1 }
  match ingested.2 with
  | .dispatched e => b.handleState c e
  | _ => b

end MissionBackend

inductive MissionMove
  | createMission (missionId : Str)
  | setPhase (missionId : Str) (phase : MissionPhase)
  | setMission (missionId : Str) (phase : MissionPhase)
  | ingest (a : Arrival)

def missionStep (b : MissionBackend Secret) : MissionMove → MissionBackend Secret
  | .createMission missionId => b.createMission missionId
  | .setPhase missionId phase => b.setPhase missionId phase
  | .setMission missionId phase => b.setMission missionId phase
  | .ingest a => b.ingest H c a

/-! ### The phase that is due -/

/-- A message of the mission that a backend works on. -/
def OfMission (missionId : Str) (e : P2PEnvelope) : Prop :=
  e.payload.get? (lit "mission_id") = some (.str missionId)

instance (missionId : Str) (e : P2PEnvelope) : Decidable (OfMission missionId e) :=
  inferInstanceAs (Decidable (_ = _))

/-- The phase that is due after a move: only own calls and announcements for the own mission change
it. -/
def phaseDue (b : MissionBackend Secret) (due : MissionPhase) : MissionMove → MissionPhase
  | .createMission _ => .init
  | .setPhase _ phase => phase
  | .setMission _ phase => phase
  | .ingest a =>
    match (b.backend.ingestRaw H c a).2 with
    | .dispatched e =>
      if IsPhaseMessage e ∧ OfMission b.missionId e then (phaseNamed c due e).getD due else due
    | _ => due

/-- A backend next to the phase that is due. -/
structure Watched (Secret : Type*) where
  backend : MissionBackend Secret
  due : MissionPhase

def watch (w : Watched Secret) (mv : MissionMove) : Option (Watched Secret) :=
  some ⟨missionStep H c w.backend mv, phaseDue H c w.backend w.due mv⟩

/-- All along a run the phase is the one that is due. -/
def Undisturbed (b : MissionBackend Secret) (mvs : List MissionMove) : Prop :=
  ∀ pre w, pre <+: mvs → run (watch H c) ⟨b, b.phase⟩ pre = some w → w.backend.phase = w.due

/-- An envelope that is let in: it can be read, comes from another sender, has no signature or the
right one, and its id is new. -/
def LetIn (b : VertexFoxMQBackend Secret) (a : Arrival) (e : P2PEnvelope) : Prop :=
  a.envelope c = some e ∧ e.senderId ≠ b.identity.nodeId ∧ b.checkSignature H e = some true ∧
    (b.replayGuard.record a.recordedAt e.messageId).2 = true ∧
    (b.dedupe.seen a.seenAt e.messageId).2 = false

/-- A message of another mission is let in that names a phase other than the current one. -/
def NamesOtherPhase (b : MissionBackend Secret) : MissionMove → Prop
  | .ingest a => ∃ e, LetIn H c b.backend a e ∧ IsPhaseMessage e ∧ ¬ OfMission b.missionId e ∧
      ∃ phase ∈ phaseNamed c b.phase e, phase ≠ b.phase
  | _ => False

variable {H c} {b : MissionBackend Secret} {mv : MissionMove}

theorem phase_ingest_of_dispatched {a : Arrival} {e : P2PEnvelope}
    (h : (b.backend.ingestRaw H c a).2 = .dispatched e) :
    (b.ingest H c a).phase =
      if IsPhaseMessage e then (phaseNamed c b.phase e).getD b.phase else b.phase := by
  rw [MissionBackend.ingest, h]
  dsimp only
  rw [MissionBackend.handleState]
  split <;> rfl

theorem phase_ingest_of_not_dispatched {a : Arrival}
    (h : ∀ e, (b.backend.ingestRaw H c a).2 ≠ .dispatched e) :
    (b.ingest H c a).phase = b.phase := by
  rw [MissionBackend.ingest]
  split
  · next e he => exact absurd he (h e)
  · rfl

/-- **Which moves keep the phase that is due**: all but announcements of other phases for other
missions. -/
theorem watch_iff : ¬ NamesOtherPhase H c b mv ↔
    (missionStep H c b mv).phase = phaseDue H c b b.phase mv := by
  cases mv with
  | createMission missionId => exact iff_of_true not_false rfl
  | setPhase missionId phase => exact iff_of_true not_false rfl
  | setMission missionId phase => exact iff_of_true not_false rfl
  | ingest a =>
      change _ ↔ (b.ingest H c a).phase = _
      by_cases hdispatched : ∃ e, (b.backend.ingestRaw H c a).2 = .dispatched e
      · obtain ⟨e, he⟩ := hdispatched
        have hletIn : LetIn H c b.backend a e := ingestRaw_eq_dispatched_iff.1 he
        have hone : ∀ e', LetIn H c b.backend a e' → e' = e := fun e' h' =>
          Option.some.inj (h'.1.symm.trans hletIn.1)
        rw [phase_ingest_of_dispatched he, phaseDue, he]
        dsimp only
        by_cases hphase : IsPhaseMessage e
        · by_cases hown : OfMission b.missionId e
          · rw [if_pos hphase, if_pos ⟨hphase, hown⟩]
            refine iff_of_true ?_ rfl
            rintro ⟨e', h', -, hother, -⟩
            exact hother (hone e' h' ▸ hown)
          · rw [if_pos hphase, if_neg fun h => hown h.2]
            constructor
            · intro hquiet
              cases hnamed : phaseNamed c b.phase e with
              | none => rfl
              | some phase =>
                  by_contra hne
                  exact hquiet ⟨e, hletIn, hphase, hown, phase, hnamed, hne⟩
            · rintro hsame ⟨e', h', -, -, phase, hnamed, hne⟩
              rw [hone e' h'] at hnamed
              rw [Option.mem_def.1 hnamed] at hsame
              exact hne hsame
        · rw [if_neg hphase, if_neg fun h => hphase h.1]
          refine iff_of_true ?_ rfl
          rintro ⟨e', h', hphase', -⟩
          exact hphase (hone e' h' ▸ hphase')
      · have hnot : ∀ e, (b.backend.ingestRaw H c a).2 ≠ .dispatched e := fun e he =>
          hdispatched ⟨e, he⟩
        rw [phase_ingest_of_not_dispatched hnot, phaseDue]
        refine iff_of_true ?_ ?_
        · rintro ⟨e, hletIn, -⟩
          exact hnot e (ingestRaw_eq_dispatched_iff.2 hletIn)
        · split
          · next e he => exact absurd he (hnot e)
          · rfl

theorem not_namesOtherPhase_of_undisturbed (h : Undisturbed H c b [mv]) :
    ¬ NamesOtherPhase H c b mv :=
  watch_iff.2 (h [mv] _ (List.prefix_refl _) rfl)

/-- **When missions do not disturb each other**: exactly if no message of another mission that is
let in names another phase. -/
theorem undisturbed_iff (b : MissionBackend Secret) (mvs : List MissionMove) :
    Undisturbed H c b mvs ↔
      Along (watch H c) (fun w mv => ¬ NamesOtherPhase H c w.backend mv) ⟨b, b.phase⟩ mvs := by
  have hstep : ∀ (w : Watched Secret) (mv : MissionMove), w.backend.phase = w.due →
      (¬ NamesOtherPhase H c w.backend mv ↔
        ∀ w', watch H c w mv = some w' → w'.backend.phase = w'.due) := by
    rintro ⟨b, due⟩ mv hdue
    obtain rfl : b.phase = due := hdue
    rw [watch_iff]
    exact ⟨fun h w' hw' => Option.some.inj hw' ▸ h, fun h => h _ rfl⟩
  exact (always_iff_along hstep).trans (and_iff_right rfl)

/-! ### Two missions -/

/-- Another backend, with the same secret. -/
def peerBackend : VertexFoxMQBackend ℕ := .new ⟨lit "a", 2⟩

/-- It completes its mission `m2`. -/
def completion : Publication :=
  MissionBackend.phasePublication (lit "swarm/state") (lit "m2") .complete (lit "done") .null

def completedElsewhere : P2PEnvelope := peerBackend.publishKind transparentHmac completion 7 1000

def completionArrival : Arrival := ⟨some completedElsewhere.toJson, 1000, 1, 1⟩

/-- The backend that searches for mission `m1`. -/
def searching : MissionBackend ℕ :=
  (MissionBackend.new ⟨lit "b", 2⟩).setMission (lit "m1") .search

theorem letIn_completedElsewhere : LetIn transparentHmac plainConversions searching.backend
    completionArrival completedElsewhere.received := by
  refine ingestRaw_eq_dispatched_iff.1 ((heard_iff (run_nil _ (VertexFoxMQBackend.new
    ⟨lit "b", 2⟩)) peerBackend completion 7 1000 rfl ?_).2 ⟨?_, rfl⟩)
  · intro a ha
    cases ha
  · decide +kernel

/-- The message comes in, and the own mission is completed. -/
theorem completed_by_other_mission :
    ¬ Undisturbed transparentHmac plainConversions searching [.ingest completionArrival] := by
  intro hundisturbed
  refine not_namesOtherPhase_of_undisturbed hundisturbed
    ⟨completedElsewhere.received, letIn_completedElsewhere, ?_, ?_, .complete, ?_, ?_⟩
  · decide +kernel
  · decide +kernel
  · decide +kernel
  · decide

end Sar
