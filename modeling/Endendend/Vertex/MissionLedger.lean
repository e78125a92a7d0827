/-
**The append-only mission ledger** (`vertex/mission-ledger.ts`, `vertex/event-types.ts`).

An append is asynchronous: its caller reads `tailHash()`, the call suspends while the digest is
computed, and only then the event is pushed.  The two halves are `AppendMissionEventInput` (what the
suspended call holds) and `finishAppend` (what it does when it resumes).  Callers issue appends at
any time, and the suspended calls resume in any order.  The world is the ledger together with the
suspended calls; a run is a list of moves, so it is one interleaving.

Main definitions:

* `Vertex.MissionLedgerEvent`, `Vertex.MissionLedger` — the rows and the ledger;
* `Vertex.computeEventHash`, `Vertex.finishAppend`, `Vertex.verifyChain`;
* `Vertex.AppendWorld`, `Vertex.AppendMove`, `Vertex.appendStep` — the world and its moves;
* `Vertex.FindsItsTail` — a call that resumes finds the hash it captured still at the tail.

Main results:

* `Vertex.finishAppend_eq` — a resumed append always pushes: its guard never fires;
* `Vertex.verifyChain_eq_ok_iff` — the verification accepts exactly the linked chains;
* `Vertex.verifyChain_append_iff` — a push keeps the chain verifiable exactly if the hash its caller
  read is still the tail;
* `Vertex.chain_ok_iff_no_stale_append` — **over every run, the chain verifies and no stale append
  is pushed exactly if no resumed call has lost its tail**;
* `Vertex.two_appends_break_chain` — two calls issued on the empty ledger and then resumed leave a
  chain that fails at its second row.
-/
import Endendend.Foundation.HashChain
import Endendend.Foundation.OrderedMap
import Endendend.Vertex.StableStringify
import Endendend.Foundation.Runs

set_option relaxedAutoImplicit false
set_option autoImplicit false

namespace Vertex

open Js

/-! ### Events -/

/-- The plane that produced a record. -/
inductive ControlPlane
  | vertex
  | lattice
  | arc
  deriving DecidableEq

/-- The kinds of ledger events, plane by plane. -/
inductive MissionLedgerEventType
  | missionCreated
  | phaseTransition
  | nodeJoin
  | roleChange
  | targetDiscovered
  | targetConfirmed
  | taskBid
  | taskAssigned
  | taskCompleted
  | taskReassigned
  | extractionConfirmed
  | safetyAlert
  | recoveryCheckpoint
  | blackoutEntered
  | blackoutCleared
  | syncReconciled
  | localAutonomyActivated
  | tentativePhase
  | nodeHeartbeat
  | nodeOffline
  | capacityScoreUpdate
  | reputationUpdate
  | settlementManifestSealed
  | proofAnchored
  deriving DecidableEq

/-- The text of a plane. -/
def ControlPlane.text : ControlPlane → Str
  | vertex => "vertex"
  | lattice => "lattice"
  | arc => "arc"

/-- The text of a kind of event. -/
def MissionLedgerEventType.text : MissionLedgerEventType → Str
  | missionCreated => "mission_created"
  | phaseTransition => "phase_transition"
  | nodeJoin => "node_join"
  | roleChange => "role_change"
  | targetDiscovered => "target_discovered"
  | targetConfirmed => "target_confirmed"
  | taskBid => "task_bid"
  | taskAssigned => "task_assigned"
  | taskCompleted => "task_completed"
  | taskReassigned => "task_reassigned"
  | extractionConfirmed => "extraction_confirmed"
  | safetyAlert => "safety_alert"
  | recoveryCheckpoint => "recovery_checkpoint"
  | blackoutEntered => "blackout_entered"
  | blackoutCleared => "blackout_cleared"
  | syncReconciled => "sync_reconciled"
  | localAutonomyActivated => "local_autonomy_activated"
  | tentativePhase => "tentative_phase"
  | nodeHeartbeat => "node_heartbeat"
  | nodeOffline => "node_offline"
  | capacityScoreUpdate => "capacity_score_update"
  | reputationUpdate => "reputation_update"
  | settlementManifestSealed => "settlement_manifest_sealed"
  | proofAnchored => "proof_anchored"

/-- The kinds whose order the Vertex plane decides. -/
def isVertexEvent : MissionLedgerEventType → Bool
  | .nodeHeartbeat | .nodeOffline | .capacityScoreUpdate | .reputationUpdate
  | .settlementManifestSealed | .proofAnchored => false
  | _ => true

theorem ControlPlane.text_injective : Function.Injective ControlPlane.text := by
  intro p q h
  cases p <;> cases q <;> first | rfl | exact absurd h (by decide)

/-- The kinds of events in the order of the source: Vertex, Lattice, Arc. -/
def missionLedgerEventTypes : List MissionLedgerEventType :=
  [.missionCreated, .phaseTransition, .nodeJoin, .roleChange, .targetDiscovered, .targetConfirmed,
    .taskBid, .taskAssigned, .taskCompleted, .taskReassigned, .extractionConfirmed, .safetyAlert,
    .recoveryCheckpoint, .blackoutEntered, .blackoutCleared, .syncReconciled,
    .localAutonomyActivated, .tentativePhase, .nodeHeartbeat, .nodeOffline, .capacityScoreUpdate,
    .reputationUpdate, .settlementManifestSealed, .proofAnchored]

/-- The kind of event with a text. -/
def MissionLedgerEventType.ofText (s : Str) : Option MissionLedgerEventType :=
  missionLedgerEventTypes.find? fun t => t.text = s

theorem MissionLedgerEventType.ofText_text (t : MissionLedgerEventType) :
    ofText t.text = some t := by
  cases t <;> decide

theorem MissionLedgerEventType.text_injective :
    Function.Injective MissionLedgerEventType.text := by
  intro t u h
  rw [← Option.some_inj, ← ofText_text t, h, ofText_text u]

/-- What an event says: all of its fields but the two hashes. -/
structure EventCore where
  missionId : Str
  actorId : Str
  eventType : MissionLedgerEventType
  plane : ControlPlane
  payload : OrderedMap Str Json
  timestamp : Decimal

/-- The input of an append: the core and the hash its caller has read. -/
structure AppendMissionEventInput extends EventCore where
  previousHash : Str

/-- A row of the ledger. -/
structure MissionLedgerEvent extends AppendMissionEventInput where
  eventHash : Str

/-- The ledger: its events, oldest first. -/
abbrev MissionLedger := List MissionLedgerEvent

/-! ### Reading the ledger -/

/-- The marker the chain starts from. -/
def genesis : Str := "genesis"

/-- The hash of the last row. -/
def MissionLedger.tailHash (ledger : MissionLedger) : Str :=
  match ledger.getLast? with
  | some e => e.eventHash
  | none => genesis

/-- The rows of one mission, in append order. -/
def MissionLedger.eventsForMission (ledger : MissionLedger) (missionId : Str) :
    List MissionLedgerEvent :=
  ledger.filter fun e => e.missionId = missionId

/-- The hash of the last row of one mission. -/
def MissionLedger.missionTailHash (ledger : MissionLedger) (missionId : Str) : Str :=
  MissionLedger.tailHash (ledger.eventsForMission missionId)

/-- The rows of a mission that a node wrote or that name it in their payload. -/
def MissionLedger.eventsForNodeInMission (ledger : MissionLedger) (nodeId missionId : Str) :
    List MissionLedgerEvent :=
  ledger.filter fun e =>
    if e.missionId ≠ missionId then false
    else if e.actorId = nodeId then true
    else
      match e.payload.get? "nodeId" with
      | some (.str nid) => nid = nodeId
      | _ => false

/-! ### Appending -/

/-- The core as the JSON object that is hashed. -/
def EventCore.toJson (core : EventCore) : Json :=
  .obj [("missionId", .str core.missionId), ("actorId", .str core.actorId),
    ("eventType", .str core.eventType.text), ("plane", .str core.plane.text),
    ("payload", .obj core.payload.entries), ("timestamp", .num core.timestamp)]

section Digest

variable (subtleDigest : Str → List UInt8)

/-- The hash of an event that follows the row with hash `previousHash`. -/
def computeEventHash (previousHash : Str) (core : EventCore) : Str :=
  let body := stableStringify core.toJson
  sha256Hex subtleDigest (previousHash ++ unit '|' :: body)

/-- The first half of an append: the caller reads the tail and the call suspends. -/
def beginAppend (ledger : MissionLedger) (core : EventCore) : AppendMissionEventInput :=
  { core with previousHash := ledger.tailHash }

/-- The second half of an append, once the digest is there: the guard, then the push. -/
def finishAppend (ledger : MissionLedger) (input : AppendMissionEventInput) :
    Except Str MissionLedger :=
  let prev := input.previousHash
  let eventHash := computeEventHash subtleDigest prev input.toEventCore
  let full : MissionLedgerEvent := { input with eventHash }
  if full.previousHash ≠ prev then .error "previousHash_mismatch" else .ok (ledger ++ [full])

/-- The row an append with this input writes. -/
def sealed (input : AppendMissionEventInput) : MissionLedgerEvent :=
  { input with
    eventHash := computeEventHash subtleDigest input.previousHash input.toEventCore }

/-- **A resumed append always pushes.**  The guard compares the input with itself. -/
theorem finishAppend_eq (ledger : MissionLedger) (input : AppendMissionEventInput) :
    finishAppend subtleDigest ledger input = .ok (ledger ++ [sealed subtleDigest input]) :=
  if_neg fun h => h rfl

/-! ### Verifying the chain -/

/-- Why a chain is refused. -/
inductive ChainFault
  | previousLink
  | eventHash
  deriving DecidableEq

/-- The verdict of a verification. -/
inductive ChainVerdict
  | ok
  | failed (index : ℕ) (reason : ChainFault)
  deriving DecidableEq

/-- The loop of the verification, at row `i` with the hash of the row before. -/
def verifyFrom : ℕ → Str → MissionLedger → ChainVerdict
  | _, _, [] => .ok
  | i, prev, e :: events =>
    if e.previousHash ≠ prev then .failed i .previousLink
    else
      let expected := computeEventHash subtleDigest prev e.toEventCore
      if expected ≠ e.eventHash then .failed i .eventHash
      else verifyFrom (i + 1) e.eventHash events

/-- Verifies the full chain from genesis. -/
def verifyChain (ledger : MissionLedger) : ChainVerdict := verifyFrom subtleDigest 0 genesis ledger

/-- An event as a row of a hash chain. -/
def MissionLedgerEvent.toRow (e : MissionLedgerEvent) : HashChain.Row Str EventCore :=
  ⟨e.previousHash, e.toEventCore, e.eventHash⟩

theorem verifyFrom_eq_ok_iff {i : ℕ} {prev : Str} {ledger : MissionLedger} :
    verifyFrom subtleDigest i prev ledger = .ok ↔
      HashChain.Linked (computeEventHash subtleDigest) prev
        (ledger.map MissionLedgerEvent.toRow) := by
  induction ledger generalizing i prev with
  | nil => simp [verifyFrom]
  | cons e ledger ih =>
      rw [verifyFrom, List.map_cons, HashChain.Linked]
      by_cases hp : e.previousHash = prev
      · rw [if_neg (not_not.2 hp)]
        by_cases hh : computeEventHash subtleDigest prev e.toEventCore = e.eventHash
        · simp only [hh, ne_eq, not_true_eq_false, if_false, ih]
          simp [MissionLedgerEvent.toRow, hp, hh]
        · simp [MissionLedgerEvent.toRow, hp, hh, Ne.symm hh]
      · simp [MissionLedgerEvent.toRow, hp]

/-- **The verification accepts exactly the linked chains.** -/
theorem verifyChain_eq_ok_iff {ledger : MissionLedger} :
    verifyChain subtleDigest ledger = .ok ↔
      HashChain.Linked (computeEventHash subtleDigest) genesis
        (ledger.map MissionLedgerEvent.toRow) :=
  verifyFrom_eq_ok_iff subtleDigest

theorem tail_map_toRow (ledger : MissionLedger) :
    HashChain.tail genesis (ledger.map MissionLedgerEvent.toRow) = ledger.tailHash := by
  cases ledger using List.reverseRecOn with
  | nil => rfl
  | append_singleton ledger e =>
      rw [List.map_append, List.map_singleton, HashChain.tail_concat, MissionLedger.tailHash,
        List.getLast?_concat]
      rfl

/-- **A push keeps the chain verifiable exactly if its caller's hash is still the tail.** -/
theorem verifyChain_append_iff (ledger : MissionLedger) (input : AppendMissionEventInput) :
    verifyChain subtleDigest (ledger ++ [sealed subtleDigest input]) = .ok ↔
      verifyChain subtleDigest ledger = .ok ∧ input.previousHash = ledger.tailHash := by
  rw [verifyChain_eq_ok_iff, verifyChain_eq_ok_iff, List.map_append, List.map_singleton,
    HashChain.linked_concat, tail_map_toRow]
  refine and_congr_right fun _ => ⟨And.left, fun h => ⟨h, ?_⟩⟩
  rw [← h]
  rfl

end Digest

end Vertex

namespace Vertex

open Js

/-! ### The system -/

/-- The ledger and the appends that wait for their digest. -/
structure AppendWorld where
  ledger : MissionLedger
  inflight : List AppendMissionEventInput

/-- An append is issued, or the `i`-th suspended one resumes. -/
inductive AppendMove
  | issue (core : EventCore)
  | resume (i : ℕ)

/-- The empty ledger, with no call under way. -/
def AppendWorld.start : AppendWorld := ⟨[], []⟩

variable (subtleDigest : Str → List UInt8)

/-- One move.  A resumed call that throws leaves the ledger as it is. -/
def appendStep (w : AppendWorld) : AppendMove → Option AppendWorld
  | .issue core => some { w with inflight := w.inflight ++ [beginAppend w.ledger core] }
  | .resume i =>
    (w.inflight[i]?).map fun input =>
      match finishAppend subtleDigest w.ledger input with
      | .ok ledger => { ledger, inflight := w.inflight.eraseIdx i }
      | .error _ => { w with inflight := w.inflight.eraseIdx i }

/-- A call that resumes finds the hash it captured still at the tail. -/
def FindsItsTail (w : AppendWorld) : AppendMove → Prop
  | .issue _ => True
  | .resume i => ∀ input ∈ w.inflight[i]?, input.previousHash = w.ledger.tailHash

/-- A call that resumes with a hash that is no longer the tail is rejected. -/
def RejectsStale (w : AppendWorld) : AppendMove → Prop
  | .issue _ => True
  | .resume i => ∀ input ∈ w.inflight[i]?, input.previousHash ≠ w.ledger.tailHash →
      finishAppend subtleDigest w.ledger input = .error "previousHash_mismatch"

/-! ### One step -/

/-- No stale call is ever rejected, so rejecting them all means that there is none. -/
theorem rejectsStale_iff (w : AppendWorld) (m : AppendMove) :
    RejectsStale subtleDigest w m ↔ FindsItsTail w m := by
  cases m with
  | issue core => rfl
  | resume i =>
      refine forall₂_congr fun input _ => ?_
      rw [finishAppend_eq]
      exact ⟨fun h => not_not.1 fun hne => (nomatch h hne), fun h hne => absurd h hne⟩

theorem appendStep_resume {w w' : AppendWorld} {i : ℕ}
    (h : appendStep subtleDigest w (.resume i) = some w') :
    ∃ input, w.inflight[i]? = some input ∧
      w' = ⟨w.ledger ++ [sealed subtleDigest input], w.inflight.eraseIdx i⟩ := by
  obtain ⟨input, hi, rfl⟩ := Option.map_eq_some_iff.1 h
  exact ⟨input, hi, by rw [finishAppend_eq]⟩

/-- After a move the chain verifies exactly if it did before and the move found its tail. -/
theorem verifyChain_appendStep {w w' : AppendWorld} {m : AppendMove}
    (h : appendStep subtleDigest w m = some w') :
    verifyChain subtleDigest w'.ledger = .ok ↔
      verifyChain subtleDigest w.ledger = .ok ∧ FindsItsTail w m := by
  cases m with
  | issue core =>
      obtain rfl := Option.some_inj.1 h
      exact (and_iff_left trivial).symm
  | resume i =>
      obtain ⟨input, hi, rfl⟩ := appendStep_resume subtleDigest h
      rw [verifyChain_append_iff]
      simp [FindsItsTail, hi]

/-! ### Every run -/

/-- **Over every run, the chain verifies and every stale append was rejected exactly if no resumed
call had lost its tail.** -/
theorem chain_ok_iff_no_stale_append {moves : List AppendMove} {w : AppendWorld}
    (h : Runs.run (appendStep subtleDigest) .start moves = some w) :
    (verifyChain subtleDigest w.ledger = .ok ∧
        Runs.Along (appendStep subtleDigest) (RejectsStale subtleDigest) .start moves) ↔
      Runs.Along (appendStep subtleDigest) FindsItsTail .start moves := by
  have hchain := Runs.iff_along (I := fun _ => True)
    (Q := fun w => verifyChain subtleDigest w.ledger = .ok) (P := FindsItsTail)
    (fun _ _ _ _ _ => trivial) (fun _ _ _ _ hs => verifyChain_appendStep subtleDigest hs) trivial h
  rw [hchain]
  constructor
  · intro hw
    exact hw.1.2
  · intro ha
    exact ⟨⟨rfl, ha⟩, ha.mono fun w m => (rejectsStale_iff subtleDigest w m).2⟩

/-- The run on which two appends are issued before either resumes. -/
def twoAppends (core core' : EventCore) : List AppendMove :=
  [.issue core, .issue core', .resume 0, .resume 0]

/-- A `node_join` of a mission, as the simulator writes it. -/
def joinCore (nodeId : Str) : EventCore where
  missionId := "m"
  actorId := nodeId
  eventType := .nodeJoin
  plane := .vertex
  payload := .ofList [("nodeId", .str nodeId)]
  timestamp := 1

/-- One append, issued and resumed. -/
theorem chain_ok_iff_no_stale_append_single :
    verifyChain (fun _ => [0]) [sealed (fun _ => [0]) ⟨joinCore "n1", genesis⟩] = .ok ∧
        Runs.Along (appendStep fun _ => [0]) (RejectsStale fun _ => [0]) .start
          [.issue (joinCore "n1"), .resume 0] ↔
      Runs.Along (appendStep fun _ => [0]) FindsItsTail .start
        [.issue (joinCore "n1"), .resume 0] :=
  chain_ok_iff_no_stale_append (fun _ => [0])
    (w := ⟨[sealed (fun _ => [0]) ⟨joinCore "n1", genesis⟩], []⟩) rfl

/-- Both calls captured `genesis` and both are pushed, whatever the digest. -/
theorem verifyChain_twoAppends (core core' : EventCore) :
    verifyChain subtleDigest [sealed subtleDigest ⟨core, genesis⟩,
      sealed subtleDigest ⟨core', genesis⟩] = .failed 1 .previousLink := by
  have hne : genesis ≠ computeEventHash subtleDigest genesis core :=
    (sha256Hex_ne_genesis _ _).symm
  simp [verifyChain, verifyFrom, sealed, hne]

/-- **Two calls issued on the empty ledger break the chain**: the verification fails at the second
row. -/
theorem two_appends_break_chain :
    ∃ w, Runs.run (appendStep fun _ => [0]) .start (twoAppends (joinCore "n1") (joinCore "n2")) =
        some w ∧ verifyChain (fun _ => [0]) w.ledger = .failed 1 .previousLink :=
  ⟨_, rfl, verifyChain_twoAppends _ (joinCore "n1") (joinCore "n2")⟩

end Vertex
