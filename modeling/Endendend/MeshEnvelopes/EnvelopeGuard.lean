/-
**The envelope guard** (`swarm/foxmq_integration.py`).

A guard looks at the time of an envelope, at its signature if it has one, and at its id, which must
not have been accepted before.  An envelope without a signature is not asked for one, even by a
guard that has a signer.

Main definitions:

* `MeshEnvelopes.MeshEnvelope`, with what is signed of it;
* `MeshEnvelopes.EnvelopeSigner`, `MeshEnvelopes.EnvelopeGuard`;
* `MeshEnvelopes.acceptedIds` — the ids that a guard has accepted in a run;
* `MeshEnvelopes.Admissible` — an envelope in time, unsigned or with the right signature, whose id
  is new.

Main results:

* `MeshEnvelopes.EnvelopeSigner.verifyPayload_eq_true_iff` — the tag of the envelope is the one
  signature that verifies;
* `MeshEnvelopes.EnvelopeGuard.verify_cases` — an envelope that is rejected leaves no trace;
* `MeshEnvelopes.guard_admits` — **a guard accepts exactly what is admissible.**
-/
import Endendend.Foundation.Runs
import Endendend.Sar.OnlyPeers

set_option relaxedAutoImplicit false
set_option autoImplicit false

namespace MeshEnvelopes

open Js (Str Json OrderedMap lit)
open Py (Dict reread)
open Sar (Hmac IsAscii optional)
open Runs

/-! ### Envelopes and signatures -/

inductive MessageKind
  | hello
  | heartbeat
  | state
  | stateRequest
  | stateResponse
  | role
  | task
  | taskBid
  | taskCommit
  | alert
  | safety
  | ack
  | ping
  | gossip
  | custom
  deriving DecidableEq

def MessageKind.value : MessageKind → Str
  | .hello => lit "hello"
  | .heartbeat => lit "heartbeat"
  | .state => lit "state"
  | .stateRequest => lit "state_request"
  | .stateResponse => lit "state_response"
  | .role => lit "role"
  | .task => lit "task"
  | .taskBid => lit "task_bid"
  | .taskCommit => lit "task_commit"
  | .alert => lit "alert"
  | .safety => lit "safety"
  | .ack => lit "ack"
  | .ping => lit "ping"
  | .gossip => lit "gossip"
  | .custom => lit "custom"

structure MeshEnvelope where
  kind : MessageKind
  swarmId : Str
  senderId : Str
  topic : Str
  messageId : Str
  timestampMs : ℤ
  seq : ℤ
  payload : Dict
  ttl : ℤ
  replyTo : Option Str
  correlationId : Option Str
  traceId : Option Str
  causalVersion : ℤ
  signature : Option Str
  deriving DecidableEq

namespace MeshEnvelope

/-- All fields but the signature, with their names. -/
def signedFields (e : MeshEnvelope) : List (Str × Json) :=
  [(lit "kind", .str e.kind.value), (lit "swarm_id", .str e.swarmId),
    (lit "sender_id", .str e.senderId), (lit "topic", .str e.topic),
    (lit "message_id", .str e.messageId), (lit "timestamp_ms", .num (.ofInt e.timestampMs)),
    (lit "seq", .num (.ofInt e.seq)), (lit "payload", e.payload.toJson),
    (lit "ttl", .num (.ofInt e.ttl)), (lit "reply_to", optional e.replyTo),
    (lit "correlation_id", optional e.correlationId), (lit "trace_id", optional e.traceId),
    (lit "causal_version", .num (.ofInt e.causalVersion))]

/-- What is signed: the JSON text of these fields with sorted keys. -/
def canonicalBytesForSigning (e : MeshEnvelope) : Json :=
  reread (Dict.toJson (.ofList e.signedFields))

end MeshEnvelope

/-- A signer with its secret; the digest is the one of the tags. -/
structure EnvelopeSigner (Secret : Type*) where
  secret : Secret

namespace EnvelopeSigner

variable {Secret : Type*} (H : Hmac Secret) (signer : EnvelopeSigner Secret)

def signPayload (e : MeshEnvelope) : Str := H.tag signer.secret e.canonicalBytesForSigning

/-- Compares a signature with the tag of the envelope without one; the comparison raises if the
signature is no ASCII text. -/
def verifyPayload (e : MeshEnvelope) (signature : Str) : Option Bool :=
  let empty := { e with signature := none }
  if IsAscii signature then some (decide (signer.signPayload H empty = signature)) else none

variable {H signer}

/-- **The tag of the envelope is the one signature that verifies.** -/
theorem verifyPayload_eq_true_iff {e : MeshEnvelope} {signature : Str} :
    signer.verifyPayload H e signature = some true ↔ signature = signer.signPayload H e := by
  constructor
  · intro h
    obtain ⟨-, heq⟩ := Option.ite_none_right_eq_some.1 h
    exact (of_decide_eq_true (Option.some.inj heq)).symm
  · rintro rfl
    have hascii : IsAscii (signer.signPayload H e) := H.isAscii_tag _ _
    rw [verifyPayload, if_pos hascii]
    exact congrArg some (decide_eq_true rfl)

/-- **A signature verifies for the envelopes that are signed alike**, under the same secret. -/
theorem verifyPayload_signPayload_iff {signer' : EnvelopeSigner Secret} {e e' : MeshEnvelope} :
    signer.verifyPayload H e (signer'.signPayload H e') = some true ↔
      signer.secret = signer'.secret ∧
        e.canonicalBytesForSigning = e'.canonicalBytesForSigning := by
  rw [verifyPayload_eq_true_iff]
  constructor
  · intro h
    obtain ⟨hsecret, hbytes⟩ := H.tag_inj h
    exact ⟨hsecret.symm, hbytes.symm⟩
  · rintro ⟨hsecret, hbytes⟩
    rw [signPayload, signPayload, hsecret, hbytes]

end EnvelopeSigner

/-! ### The guard -/

inductive Reason
  | timestampOutOfWindow
  | signatureMismatch
  | duplicateMessage
  deriving DecidableEq

/-- An envelope is valid, or it is not, for a reason. -/
inductive VerificationResult
  | valid
  | invalid (reason : Reason)
  deriving DecidableEq

/-- A guard with the ids that it has accepted. -/
structure EnvelopeGuard (Secret : Type*) where
  signer : Option (EnvelopeSigner Secret)
  maxClockSkewMs : ℤ
  seen : List Str

namespace EnvelopeGuard

variable {Secret : Type*} (H : Hmac Secret) (g : EnvelopeGuard Secret)

def new (signer : Option (EnvelopeSigner Secret)) (maxClockSkewMs : ℤ) : EnvelopeGuard Secret :=
  ⟨signer, maxClockSkewMs, []⟩

/-- The signature, if there is one and it is asked for. -/
def checkSignature (e : MeshEnvelope) : Option Bool :=
  match e.signature, g.signer with
  | some signature, some signer =>
    if signature ≠ [] then signer.verifyPayload H e signature else some true
  | _, _ => some true

/-- Verifies an envelope; the result is `none` if checking the signature raises. -/
def verify (now : ℤ) (e : MeshEnvelope) : EnvelopeGuard Secret × Option VerificationResult :=
  if |now - e.timestampMs| > g.maxClockSkewMs then (g, some (.invalid .timestampOutOfWindow))
  else
    match g.checkSignature H e with
    | none => (g, none)
    | some false => (g, some (.invalid .signatureMismatch))
    | some true =>
      if e.messageId ∈ g.seen then (g, some (.invalid .duplicateMessage))
      else ({ g with seen := Js.setAdd g.seen e.messageId }, some .valid)

end EnvelopeGuard

/-! ### What a guard accepts -/

variable {Secret : Type*} {H : Hmac Secret} {signer : EnvelopeSigner Secret} {skew : ℤ}

/-- An envelope that comes in at a time. -/
structure Incoming where
  now : ℤ
  envelope : MeshEnvelope

def guardStep (H : Hmac Secret) (g : EnvelopeGuard Secret) (i : Incoming) :
    Option (EnvelopeGuard Secret) :=
  some (g.verify H i.now i.envelope).1

/-- The ids that are accepted in a run, in order. -/
def acceptedIds (H : Hmac Secret) : EnvelopeGuard Secret → List Incoming → List Str :=
  emitted (guardStep H) fun g i =>
    if (g.verify H i.now i.envelope).2 = some .valid then some i.envelope.messageId else none

/-- An envelope without a signature, or with one that verifies. -/
def Unforged (H : Hmac Secret) (signer : EnvelopeSigner Secret) (e : MeshEnvelope) : Prop :=
  e.signature = none ∨ e.signature = some [] ∨
    ∃ signature, e.signature = some signature ∧ signer.verifyPayload H e signature = some true

/-- An envelope in time, unsigned or with a signature that verifies, whose id is new. -/
structure Admissible (H : Hmac Secret) (signer : EnvelopeSigner Secret) (skew : ℤ)
    (accepted : List Str) (now : ℤ) (e : MeshEnvelope) : Prop where
  inTime : |now - e.timestampMs| ≤ skew
  unforged : Unforged H signer e
  new : e.messageId ∉ accepted

namespace EnvelopeGuard

variable {g : EnvelopeGuard Secret} {now : ℤ} {e : MeshEnvelope}

theorem checkSignature_eq_true_iff (hsigner : g.signer = some signer) :
    g.checkSignature H e = some true ↔ Unforged H signer e := by
  rw [checkSignature, hsigner, Unforged]
  cases e.signature with
  | none => simp
  | some signature =>
      by_cases hempty : signature = []
      · simp [hempty]
      · simp [hempty]

/-- **What one check accepts.** -/
theorem verify_eq_valid_iff (hsigner : g.signer = some signer) :
    (g.verify H now e).2 = some .valid ↔
      Admissible H signer g.maxClockSkewMs g.seen now e := by
  rw [verify]
  by_cases hlate : |now - e.timestampMs| > g.maxClockSkewMs
  · rw [if_pos hlate]
    constructor
    · intro h
      cases h
    · intro h
      exact absurd h.inTime (not_le.2 hlate)
  · rw [if_neg hlate]
    have hiff := checkSignature_eq_true_iff (H := H) (e := e) hsigner
    cases hcheck : g.checkSignature H e with
    | none =>
        rw [hcheck] at hiff
        constructor
        · intro h
          cases h
        · intro h
          cases hiff.2 h.unforged
    | some ok =>
        rw [hcheck] at hiff
        cases ok with
        | false =>
            constructor
            · intro h
              cases h
            · intro h
              cases hiff.2 h.unforged
        | true =>
            by_cases hseen : e.messageId ∈ g.seen
            · simp only [if_pos hseen]
              constructor
              · intro h
                cases h
              · intro h
                exact absurd hseen h.new
            · simp only [if_neg hseen, true_iff]
              exact ⟨not_lt.1 hlate, hiff.1 rfl, hseen⟩

/-- An envelope that is accepted leaves its id, and any other one leaves no trace. -/
theorem verify_cases (g : EnvelopeGuard Secret) (now : ℤ) (e : MeshEnvelope) :
    (g.verify H now e).2 = some .valid ∧
        (g.verify H now e).1 = { g with seen := Js.setAdd g.seen e.messageId } ∨
      (g.verify H now e).2 ≠ some .valid ∧ (g.verify H now e).1 = g := by
  rw [verify]
  split
  · exact Or.inr ⟨by simp, rfl⟩
  · split
    · exact Or.inr ⟨by simp, rfl⟩
    · exact Or.inr ⟨by simp, rfl⟩
    · split
      · exact Or.inr ⟨by simp, rfl⟩
      · exact Or.inl ⟨rfl, rfl⟩

end EnvelopeGuard

/-- A guard knows the ids that it has accepted. -/
structure GuardInv (signer : EnvelopeSigner Secret) (skew : ℤ) (accepted : List Str)
    (g : EnvelopeGuard Secret) : Prop where
  signer : g.signer = some signer
  skew : g.maxClockSkewMs = skew
  seen : ∀ id, id ∈ g.seen ↔ id ∈ accepted

variable {evs : List Incoming} {g : EnvelopeGuard Secret}

theorem guardInv_run (h : run (guardStep H) (.new (some signer) skew) evs = some g) :
    GuardInv signer skew (acceptedIds H (.new (some signer) skew) evs) g := by
  refine invariant_of_history (I := fun evs g =>
    GuardInv signer skew (acceptedIds H (.new (some signer) skew) evs) g) ?_ ?_ h
  · exact ⟨rfl, rfl, fun id => Iff.rfl⟩
  · intro evs i g g' hrun hinv hstep
    obtain rfl := Option.some.inj hstep
    have haccepted := emitted_concat (fun (g : EnvelopeGuard Secret) (i : Incoming) =>
      if (g.verify H i.now i.envelope).2 = some .valid then some i.envelope.messageId else none)
      i hrun
    rw [acceptedIds, haccepted]
    obtain ⟨hvalid, hafter⟩ | ⟨hvalid, hafter⟩ := g.verify_cases (H := H) i.now i.envelope
    · rw [hafter, if_pos hvalid]
      refine ⟨hinv.signer, hinv.skew, fun id => ?_⟩
      rw [Js.mem_setAdd, hinv.seen id, List.mem_append]
      simp [acceptedIds]
    · rw [hafter, if_neg hvalid]
      refine ⟨hinv.signer, hinv.skew, fun id => ?_⟩
      rw [hinv.seen id, Option.toList_none, List.append_nil]
      rfl

/-- **What a guard with a signer accepts**, after any run: what is in time, has no signature or one
that verifies, and has an id that was not accepted before.  What it rejects for its time or its
signature leaves no trace. -/
theorem guard_admits (h : run (guardStep H) (.new (some signer) skew) evs = some g) (now : ℤ)
    (e : MeshEnvelope) :
    ((g.verify H now e).2 = some .valid ↔ Admissible H signer skew
        (acceptedIds H (.new (some signer) skew) evs) now e) ∧
      ((g.verify H now e).2 = some (.invalid .timestampOutOfWindow) ∨
        (g.verify H now e).2 = some (.invalid .signatureMismatch) → (g.verify H now e).1 = g) := by
  have hinv := guardInv_run h
  constructor
  · rw [EnvelopeGuard.verify_eq_valid_iff hinv.signer, hinv.skew]
    constructor
    · rintro ⟨hinTime, hunforged, hnew⟩
      exact ⟨hinTime, hunforged, fun hmem => hnew ((hinv.seen _).2 hmem)⟩
    · rintro ⟨hinTime, hunforged, hnew⟩
      exact ⟨hinTime, hunforged, fun hmem => hnew ((hinv.seen _).1 hmem)⟩
  · intro hrejected
    obtain ⟨hvalid, -⟩ | ⟨-, hafter⟩ := g.verify_cases (H := H) now e
    · rw [hvalid] at hrejected
      obtain hrejected | hrejected := hrejected <;> cases hrejected
    · exact hafter

/-! ### Two envelopes -/

def hello : MeshEnvelope :=
  ⟨.hello, lit "s", lit "n1", lit "swarm/s/mesh/hello", lit "m1", 1000, 1, ∅, 4, none, none, none,
    0, none⟩

def signerOne : EnvelopeSigner ℕ := ⟨1⟩

def signedHello : MeshEnvelope :=
  { hello with signature := some (signerOne.signPayload Sar.transparentHmac hello) }

/-- With its signature it is accepted once. -/
theorem guard_admits_signedHello : ∃ g,
    run (guardStep Sar.transparentHmac) (.new (some signerOne) 15000) [⟨1000, signedHello⟩] =
        some g ∧
      ((EnvelopeGuard.new (some signerOne) 15000).verify Sar.transparentHmac 1000 signedHello).2 =
        some .valid ∧
      (g.verify Sar.transparentHmac 2000 signedHello).2 ≠ some .valid := by
  have hverifies : signerOne.verifyPayload Sar.transparentHmac signedHello
      (signerOne.signPayload Sar.transparentHmac hello) = some true :=
    EnvelopeSigner.verifyPayload_signPayload_iff.2 ⟨rfl, rfl⟩
  have hvalid : ((EnvelopeGuard.new (some signerOne) 15000).verify Sar.transparentHmac 1000
      signedHello).2 = some .valid :=
    (guard_admits (run_nil _ _) 1000 signedHello).1.2
      ⟨by decide, Or.inr (Or.inr ⟨_, rfl, hverifies⟩), List.not_mem_nil⟩
  have hrun : run (guardStep Sar.transparentHmac) (.new (some signerOne) 15000)
      [⟨1000, signedHello⟩] = some ((EnvelopeGuard.new (some signerOne) 15000).verify
        Sar.transparentHmac 1000 signedHello).1 := rfl
  refine ⟨_, hrun, hvalid, fun hagain => ?_⟩
  refine ((guard_admits hrun 2000 signedHello).1.1 hagain).new ?_
  rw [acceptedIds, emitted, if_pos hvalid]
  exact List.mem_append_left _ (Option.mem_toList.2 rfl)

/-- A guard with a signer accepts an envelope that has no signature. -/
theorem unsigned_hello_accepted : ∃ e : MeshEnvelope, e.signature = none ∧
    ((EnvelopeGuard.new (some signerOne) 15000).verify Sar.transparentHmac 1000 e).2 =
      some .valid :=
  ⟨hello, rfl, (EnvelopeGuard.verify_eq_valid_iff rfl).2
    ⟨by decide, Or.inl rfl, List.not_mem_nil⟩⟩

end MeshEnvelopes
