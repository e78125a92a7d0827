/-
**Envelopes of devices, and the guard that lets them in** (`IoTEnvelope`, `IoTSigner` and
`IoTEnvelopeGuard` of `swarm/iot.py`).

An envelope is signed over seven of its fields, sent as JSON and read again.  A guard lets it in if
the signature is right, the time is near, and its id is not among the last ones that were let in.
The guard keeps these ids in a deque for their order and in a set for the lookup, and forgets the
oldest one when the deque is full; so an envelope can be let in again after that many others.

Main definitions:

* `Iot.IoTEnvelope` with `toDict`, `toJson` and `fromJson`;
* `Iot.IoTSigner` — what is signed, and the check of a signature;
* `Iot.IoTEnvelopeGuard` with `verify`, and `Iot.letInIds` — the ids of what it lets in;
* `Iot.SameSigned` — two envelopes agree in what is signed.

Main results:

* `Iot.fromJson_toJson` — an envelope is read as it was sent;
* `Iot.canonical_eq_iff` — envelopes are signed alike exactly if they agree in the seven fields;
* `Iot.guardInv_run` — deque and set hold the last ids that were let in;
* `Iot.wire_let_in_iff` — **what a guard lets in of what was signed and sent**;
* `Iot.letInIds_windowNodup` — **no id is let in twice within the window.**
-/
import Endendend.Foundation.QuietTail
import Endendend.Sar.OnlyPeers

set_option relaxedAutoImplicit false
set_option autoImplicit false

namespace Iot

open Js (Str Json OrderedMap lit)
open Py (Dict reread rereadDict)
open Sar (Conversions Hmac IsAscii)
open QuietTail (recent recent_concat WindowNodup)
open Runs

/-! ### Envelopes -/

/-- An envelope.  The signature and the last two fields are taken from JSON as they are, and `null`
is `None`. -/
structure IoTEnvelope where
  messageId : Str
  deviceId : Str
  topic : Str
  kind : Str
  payload : Dict
  tsMs : ℤ
  signature : Json
  sequence : Option ℤ
  qos : ℤ
  retain : Bool
  ttl : Option ℤ
  correlationId : Json
  replyTo : Json

/-- `None` is left out. -/
def given (v : Json) : Option Json := if v = .null then none else some v

def number (n : ℤ) : Json := .num (.ofInt n)

namespace IoTEnvelope

/-- What is signed, with the names of the fields. -/
def signedFields (e : IoTEnvelope) : List (Str × Option Json) :=
  [(lit "message_id", some (.str e.messageId)), (lit "device_id", some (.str e.deviceId)),
    (lit "topic", some (.str e.topic)), (lit "kind", some (.str e.kind)),
    (lit "payload", some e.payload.toJson), (lit "ts_ms", some (number e.tsMs)),
    (lit "sequence", e.sequence.map number)]

/-- All fields with their names. -/
def fields (e : IoTEnvelope) : List (Str × Option Json) :=
  [(lit "message_id", some (.str e.messageId)), (lit "device_id", some (.str e.deviceId)),
    (lit "topic", some (.str e.topic)), (lit "kind", some (.str e.kind)),
    (lit "payload", some e.payload.toJson), (lit "ts_ms", some (number e.tsMs)),
    (lit "signature", some e.signature), (lit "qos", some (number e.qos)),
    (lit "retain", some (.bool e.retain)), (lit "sequence", e.sequence.map number),
    (lit "ttl", e.ttl.map number), (lit "correlation_id", given e.correlationId),
    (lit "reply_to", given e.replyTo)]

def toDict (e : IoTEnvelope) : Dict := .ofList (OrderedMap.present e.fields)

/-- What is sent, as it is read from the JSON text. -/
def toJson (e : IoTEnvelope) : Json := reread e.toDict.toJson

/-- A number that may be missing or `None`. -/
def optionalInt (c : Conversions) : Option Json → Option (Option ℤ)
  | none => some none
  | some .null => some none
  | some v => (c.int v).map some

/-- The envelope in a dictionary; reading it fails if a field that must be there is missing, or has
no value of its type. -/
def fromDict (c : Conversions) (d : Dict) : Option IoTEnvelope := do
  let messageId ← d.get? (lit "message_id")
  let deviceId ← d.get? (lit "device_id")
  let topic ← d.get? (lit "topic")
  let kind ← d.get? (lit "kind")
  let payload ← (d.get? (lit "payload")).bind c.dict
  let tsMs ← (d.get? (lit "ts_ms")).bind c.int
  let sequence ← optionalInt c (d.get? (lit "sequence"))
  let qos ← c.int ((d.get? (lit "qos")).getD (number 2))
  let ttl ← optionalInt c (d.get? (lit "ttl"))
  return {
    messageId := c.str messageId
    deviceId := c.str deviceId
    topic := c.str topic
    kind := c.str kind
    payload, tsMs
    signature := (d.get? (lit "signature")).getD .null
    sequence, qos
    retain := Py.holds ((d.get? (lit "retain")).getD (.bool false))
    ttl
    correlationId := (d.get? (lit "correlation_id")).getD .null
    replyTo := (d.get? (lit "reply_to")).getD .null }

/-- The envelope in a text, of which `raw` is the JSON value, if it is JSON. -/
def fromJson (c : Conversions) : Option Json → Option IoTEnvelope
  | some (.obj fs) => fromDict c (.ofList fs)
  | _ => none

/-- The envelope as it is received, with sorted keys. -/
def received (e : IoTEnvelope) : IoTEnvelope :=
  { e with
    payload := rereadDict e.payload
    signature := reread e.signature
    correlationId := reread e.correlationId
    replyTo := reread e.replyTo }

end IoTEnvelope

open IoTEnvelope

/-! ### Signatures -/

/-- A signer with its secret. -/
structure IoTSigner (Secret : Type*) where
  secret : Secret

/-- The JSON text of what is signed, with sorted keys. -/
def canonical (e : IoTEnvelope) : Json :=
  reread (Dict.toJson (.ofList (OrderedMap.present e.signedFields)))

namespace IoTSigner

variable {Secret : Type*} (H : Hmac Secret) (signer : IoTSigner Secret)

def sign (e : IoTEnvelope) : Str := H.tag signer.secret (canonical e)

/-- Compares a signature with the tag of the envelope; the comparison raises if the signature is no
ASCII text. -/
def verify (e : IoTEnvelope) : Json → Option Bool
  | .null => some false
  | .str s => if IsAscii s then some (decide (signer.sign H e = s)) else none
  | _ => none

end IoTSigner

/-! ### The guard -/

/-- A guard with the ids that it has let in lately, in order and as a set.  Ids are not looked at if
`dedupMax` is zero. -/
structure IoTEnvelopeGuard (Secret : Type*) where
  signer : IoTSigner Secret
  maxClockSkewMs : Option ℤ
  dedupMax : ℕ
  seenIds : List Str
  seenSet : List Str

namespace IoTEnvelopeGuard

variable {Secret : Type*}

def new (signer : IoTSigner Secret) (maxClockSkewMs : Option ℤ) (dedupMax : ℕ) :
    IoTEnvelopeGuard Secret :=
  ⟨signer, maxClockSkewMs, dedupMax, [], []⟩

variable (H : Hmac Secret) (g : IoTEnvelopeGuard Secret)

/-- The guard with one more id; the oldest one is forgotten if the deque is full. -/
def remember (id : Str) : IoTEnvelopeGuard Secret :=
  if g.seenIds.length = g.dedupMax then
    match g.seenIds with
    | [] => { g with seenIds := [id], seenSet := Js.setAdd g.seenSet id }
    | oldest :: rest =>
      { g with
        seenIds := rest ++ [id]
        seenSet := Js.setAdd (g.seenSet.filter (· ≠ oldest)) id }
  else { g with seenIds := g.seenIds ++ [id], seenSet := Js.setAdd g.seenSet id }

/-- Is the time of an envelope near enough? -/
def InTime (maxClockSkewMs : Option ℤ) (now : ℤ) (e : IoTEnvelope) : Prop :=
  ∀ skew ∈ maxClockSkewMs, |now - e.tsMs| ≤ skew

instance (maxClockSkewMs : Option ℤ) (now : ℤ) (e : IoTEnvelope) :
    Decidable (InTime maxClockSkewMs now e) :=
  inferInstanceAs (Decidable (∀ skew ∈ maxClockSkewMs, |now - e.tsMs| ≤ skew))

/-- Verifies an envelope; the result is `none` if comparing the signature raises. -/
def verify (now : ℤ) (e : IoTEnvelope) : IoTEnvelopeGuard Secret × Option Bool :=
  match g.signer.verify H e e.signature with
  | none => (g, none)
  | some false => (g, some false)
  | some true =>
    if ¬ InTime g.maxClockSkewMs now e then (g, some false)
    else if 0 < g.dedupMax then
      if e.messageId ∈ g.seenSet then (g, some false) else (g.remember e.messageId, some true)
    else (g, some true)

end IoTEnvelopeGuard

/-! ### The way through JSON -/

namespace IoTEnvelope

theorem nodup_fields (e : IoTEnvelope) : (e.fields.map Prod.fst).Nodup := by
  have hnames : [lit "message_id", lit "device_id", lit "topic", lit "kind", lit "payload",
      lit "ts_ms", lit "signature", lit "qos", lit "retain", lit "sequence", lit "ttl",
      lit "correlation_id", lit "reply_to"].Nodup := by decide +kernel
  exact hnames

theorem nodup_signedFields (e : IoTEnvelope) : (e.signedFields.map Prod.fst).Nodup := by
  have hnames : [lit "message_id", lit "device_id", lit "topic", lit "kind", lit "payload",
      lit "ts_ms", lit "sequence"].Nodup := by decide +kernel
  exact hnames

/-- What is read of a field that may be left out. -/
theorem getD_given (v : Json) : ((given v).map reread).getD .null = reread v := by
  unfold given
  split_ifs with hnull
  · rw [hnull]
    rfl
  · rfl

theorem optionalInt_number (c : Conversions) (n : Option ℤ) :
    optionalInt c ((n.map number).map reread) = some n := by
  cases n with
  | none => rfl
  | some n => exact congrArg (Option.map some) (c.int_num n)

/-- **An envelope is read as it was sent**, with sorted keys. -/
theorem fromJson_toJson (c : Conversions) (e : IoTEnvelope) :
    fromJson c (some e.toJson) = some e.received := by
  have hget : ∀ (n : ℕ) {name v}, e.fields[n]? = some (name, v) →
      (rereadDict e.toDict).get? name = v.map reread := by
    intro n name v h
    rw [Py.get?_rereadDict, toDict,
      OrderedMap.get?_present e.nodup_fields (List.mem_of_getElem? h)]
  have hpayload : c.dict (reread e.payload.toJson) = some (rereadDict e.payload) := by
    rw [Py.reread_toJson, Dict.toJson, c.dict_obj, OrderedMap.ofList_entries]
  have hint : ∀ n : ℤ, c.int (reread (number n)) = some n := c.int_num
  have hstr : ∀ s, c.str (reread (.str s)) = s := c.str_str
  rw [toJson, Py.reread_toJson, Dict.toJson, fromJson, OrderedMap.ofList_entries, fromDict,
    hget 0 rfl, hget 1 rfl, hget 2 rfl, hget 3 rfl, hget 4 rfl, hget 5 rfl, hget 6 rfl, hget 7 rfl,
    hget 8 rfl, hget 9 rfl, hget 10 rfl, hget 11 rfl, hget 12 rfl]
  simp only [optionalInt_number, getD_given, Option.map_some, Option.getD_some, Option.pure_def,
    Option.bind_eq_bind, Option.bind_some, hpayload, hint, hstr]
  rfl

end IoTEnvelope

/-! ### What is signed -/

/-- Two envelopes agree in what is signed, up to the order of keys in the payload. -/
structure SameSigned (e e' : IoTEnvelope) : Prop where
  messageId : e.messageId = e'.messageId
  deviceId : e.deviceId = e'.deviceId
  topic : e.topic = e'.topic
  kind : e.kind = e'.kind
  payload : reread e.payload.toJson = reread e'.payload.toJson
  tsMs : e.tsMs = e'.tsMs
  sequence : e.sequence = e'.sequence

theorem number_injective : Function.Injective number := fun _ _ h =>
  Js.Decimal.ofInt_injective (Json.num.inj h)

theorem toJson_present_signedFields (e : IoTEnvelope) :
    Dict.toJson (.ofList (OrderedMap.present e.signedFields)) =
      .obj (OrderedMap.present e.signedFields) := by
  rw [Dict.toJson, OrderedMap.entries_ofList
    (e.nodup_signedFields.sublist (OrderedMap.map_fst_present e.signedFields))]

/-- **Envelopes are signed alike exactly if they agree in the seven fields.** -/
theorem canonical_eq_iff (e e' : IoTEnvelope) : canonical e = canonical e' ↔ SameSigned e e' := by
  constructor
  · intro h
    have hfield : ∀ (n : ℕ) {name v v'}, e.signedFields[n]? = some (name, v) →
        e'.signedFields[n]? = some (name, v') → v.map reread = v'.map reread := by
      intro n name v v' hv hv'
      have hget := Py.get?_of_reread_eq h name
      rwa [OrderedMap.get?_present e.nodup_signedFields (List.mem_of_getElem? hv),
        OrderedMap.get?_present e'.nodup_signedFields (List.mem_of_getElem? hv')] at hget
    have hsequence : e.sequence.map (reread ∘ number) = e'.sequence.map (reread ∘ number) := by
      rw [← Option.map_map, ← Option.map_map]
      exact hfield 6 rfl rfl
    exact {
      messageId := Json.str.inj (Option.some.inj (hfield 0 rfl rfl))
      deviceId := Json.str.inj (Option.some.inj (hfield 1 rfl rfl))
      topic := Json.str.inj (Option.some.inj (hfield 2 rfl rfl))
      kind := Json.str.inj (Option.some.inj (hfield 3 rfl rfl))
      payload := Option.some.inj (hfield 4 rfl rfl)
      tsMs := number_injective (Option.some.inj (hfield 5 rfl rfl))
      sequence := Option.map_injective number_injective hsequence }
  · intro h
    have hfields : (OrderedMap.present e.signedFields).map (fun p => (p.1, reread p.2)) =
        (OrderedMap.present e'.signedFields).map fun p => (p.1, reread p.2) := by
      simp only [OrderedMap.present, signedFields, h.messageId, h.deviceId, h.topic, h.kind,
        h.tsMs, h.sequence, List.filterMap_cons, Option.map_some, List.map_cons, h.payload]
    rw [canonical, canonical, toJson_present_signedFields, toJson_present_signedFields, reread,
      reread, Json.sortKeys, Json.sortKeys, Json.sortFields_eq_map, Json.sortFields_eq_map]
    exact congrArg (fun l => Json.obj (l.insertionSort Json.KeyLe)) hfields

/-- An envelope agrees with what is received of it. -/
theorem sameSigned_received (e : IoTEnvelope) : SameSigned e e.received where
  messageId := rfl
  deviceId := rfl
  topic := rfl
  kind := rfl
  payload := by
    change _ = reread (rereadDict e.payload).toJson
    rw [← Py.reread_toJson, Py.reread_reread]
  tsMs := rfl
  sequence := rfl

variable {Secret : Type*} {H : Hmac Secret}

namespace IoTSigner

variable {signer signer' : IoTSigner Secret} {e e' : IoTEnvelope}

/-- **The tag of the envelope is the one signature that is accepted.** -/
theorem verify_eq_true_iff {signature : Json} :
    signer.verify H e signature = some true ↔ signature = .str (signer.sign H e) := by
  constructor
  · intro h
    cases signature with
    | str s =>
        obtain ⟨-, heq⟩ := Option.ite_none_right_eq_some.1 h
        rw [of_decide_eq_true (Option.some.inj heq)]
    | null => cases Option.some.inj h
    | _ => cases h
  · rintro rfl
    have hascii : IsAscii (signer.sign H e) := H.isAscii_tag _ _
    rw [verify, if_pos hascii, decide_eq_true rfl]

/-- Two signers sign alike exactly if they have the same secret, and the envelopes agree in what is
signed. -/
theorem sign_eq_iff :
    signer.sign H e = signer'.sign H e' ↔ signer.secret = signer'.secret ∧ SameSigned e e' := by
  rw [← canonical_eq_iff]
  constructor
  · exact H.tag_inj
  · rintro ⟨hsecret, hfields⟩
    rw [sign, sign, hsecret, hfields]

/-- A signature is accepted with what is received exactly if it is accepted with what is sent. -/
theorem verify_received_iff {signature : Json} :
    signer.verify H e.received signature = some true ↔ signer.verify H e signature = some true := by
  have hsign : signer.sign H e.received = signer.sign H e :=
    (sign_eq_iff.2 ⟨rfl, sameSigned_received e⟩).symm
  rw [verify_eq_true_iff, verify_eq_true_iff, hsign]

end IoTSigner

/-! ### What a guard lets in -/

/-- An envelope that comes in at a time. -/
structure Incoming where
  now : ℤ
  envelope : IoTEnvelope

def guardStep (H : Hmac Secret) (g : IoTEnvelopeGuard Secret) (i : Incoming) :
    Option (IoTEnvelopeGuard Secret) :=
  some (g.verify H i.now i.envelope).1

/-- The id of an envelope that a guard lets in. -/
def letIn (H : Hmac Secret) (g : IoTEnvelopeGuard Secret) (i : Incoming) : Option Str :=
  if (g.verify H i.now i.envelope).2 = some true then some i.envelope.messageId else none

/-- The ids that are let in during a run, in order. -/
def letInIds (H : Hmac Secret) : IoTEnvelopeGuard Secret → List Incoming → List Str :=
  emitted (guardStep H) (letIn H)

namespace IoTEnvelopeGuard

variable {g : IoTEnvelopeGuard Secret} {now : ℤ} {e : IoTEnvelope}

/-- **What one check lets in.** -/
theorem verify_eq_true_iff :
    (g.verify H now e).2 = some true ↔
      g.signer.verify H e e.signature = some true ∧ InTime g.maxClockSkewMs now e ∧
        (0 < g.dedupMax → e.messageId ∉ g.seenSet) := by
  unfold verify
  cases g.signer.verify H e e.signature with
  | none => simp
  | some ok =>
      cases ok with
      | false => simp
      | true =>
          by_cases htime : InTime g.maxClockSkewMs now e <;>
            by_cases hmax : 0 < g.dedupMax <;>
              by_cases hseen : e.messageId ∈ g.seenSet <;>
                simp [htime, hmax, hseen]

/-- An envelope that is let in leaves its id, and any other one leaves no trace. -/
theorem verify_cases (g : IoTEnvelopeGuard Secret) (now : ℤ) (e : IoTEnvelope) :
    ((g.verify H now e).2 = some true ∧
        (g.verify H now e).1 = if 0 < g.dedupMax then g.remember e.messageId else g) ∨
      (g.verify H now e).2 ≠ some true ∧ (g.verify H now e).1 = g := by
  unfold verify
  split
  · exact Or.inr ⟨by simp, rfl⟩
  · exact Or.inr ⟨by simp, rfl⟩
  · by_cases htime : InTime g.maxClockSkewMs now e
    · rw [if_neg (not_not.2 htime)]
      split_ifs
      · exact Or.inr ⟨by simp, rfl⟩
      · exact Or.inl ⟨rfl, rfl⟩
      · exact Or.inl ⟨rfl, rfl⟩
    · rw [if_pos htime]
      exact Or.inr ⟨by simp, rfl⟩

end IoTEnvelopeGuard

open IoTEnvelopeGuard

/-- The deque has the last ids that were let in, once each, and the set has the same ids. -/
structure GuardInv (g₀ : IoTEnvelopeGuard Secret) (accepted : List Str)
    (g : IoTEnvelopeGuard Secret) : Prop where
  signer : g.signer = g₀.signer
  skew : g.maxClockSkewMs = g₀.maxClockSkewMs
  dedupMax : g.dedupMax = g₀.dedupMax
  order : 0 < g₀.dedupMax → g.seenIds = recent g₀.dedupMax accepted
  set : 0 < g₀.dedupMax → ∀ id, id ∈ g.seenSet ↔ id ∈ g.seenIds
  window : 0 < g₀.dedupMax → WindowNodup g₀.dedupMax accepted

variable {g₀ g : IoTEnvelopeGuard Secret} {accepted : List Str} {id : Str}

/-- The last ids are different. -/
theorem GuardInv.nodup (h : GuardInv g₀ accepted g) (hmax : 0 < g₀.dedupMax) : g.seenIds.Nodup := by
  rw [h.order hmax]
  refine h.window hmax _ (List.drop_suffix _ _).isInfix ?_
  rw [QuietTail.length_recent]
  omega

theorem GuardInv.remember (h : GuardInv g₀ accepted g) (hmax : 0 < g₀.dedupMax)
    (hnew : id ∉ g.seenSet) : GuardInv g₀ (accepted ++ [id]) (g.remember id) := by
  have hwindow : WindowNodup g₀.dedupMax (accepted ++ [id]) :=
    QuietTail.nodup_window_concat (h.window hmax) (h.order hmax ▸ mt (h.set hmax id).2 hnew)
  have hrecent := recent_concat hmax accepted id
  rw [← h.order hmax] at hrecent
  have hnodup := h.nodup hmax
  unfold IoTEnvelopeGuard.remember
  split_ifs with hfull
  · rw [h.dedupMax] at hfull
    cases hids : g.seenIds with
    | nil =>
        rw [hids] at hfull
        exact absurd hfull (by simp; omega)
    | cons oldest rest =>
        rw [if_pos hfull, hids] at hrecent
        rw [hids] at hnodup
        refine ⟨h.signer, h.skew, h.dedupMax, fun _ => hrecent.symm, fun _ id' => ?_,
          fun _ => hwindow⟩
        have hset := h.set hmax id'
        rw [hids, List.mem_cons] at hset
        rw [Js.mem_setAdd, List.mem_filter, hset, List.mem_append, List.mem_singleton]
        -- the oldest id is not among the others
        have holdest : id' ∈ rest → id' ≠ oldest := fun hmem heq =>
          (List.nodup_cons.1 hnodup).1 (heq ▸ hmem)
        simp only [ne_eq, decide_not, Bool.not_eq_true', decide_eq_false_iff_not]
        tauto
  · rw [h.dedupMax] at hfull
    rw [if_neg hfull] at hrecent
    refine ⟨h.signer, h.skew, h.dedupMax, fun _ => hrecent.symm, fun _ id' => ?_, fun _ => hwindow⟩
    rw [Js.mem_setAdd, h.set hmax, List.mem_append, List.mem_singleton]

variable {evs : List Incoming}

/-- **Deque and set hold the last ids that were let in.** -/
theorem guardInv_run {signer : IoTSigner Secret} {skew : Option ℤ} {dedupMax : ℕ}
    (h : run (guardStep H) (.new signer skew dedupMax) evs = some g) :
    GuardInv (.new signer skew dedupMax) (letInIds H (.new signer skew dedupMax) evs) g := by
  refine invariant_of_history (I := fun evs g => GuardInv (.new signer skew dedupMax)
    (letInIds H (.new signer skew dedupMax) evs) g) ?_ ?_ h
  · refine ⟨rfl, rfl, rfl, fun _ => List.drop_nil.symm, fun _ id => Iff.rfl, fun _ w hw _ => ?_⟩
    obtain rfl := List.infix_nil.1 hw
    exact List.nodup_nil
  · intro evs i g g' hrun hinv hstep
    obtain rfl := Option.some.inj hstep
    rw [letInIds, emitted_concat (letIn H) i hrun, letIn]
    obtain ⟨htrue, hafter⟩ | ⟨htrue, hafter⟩ := g.verify_cases (H := H) i.now i.envelope
    · have hnew := (verify_eq_true_iff.1 htrue).2.2
      rw [hafter, if_pos htrue]
      split_ifs with hmax
      · exact hinv.remember (hinv.dedupMax ▸ hmax) (hnew hmax)
      · rw [hinv.dedupMax] at hmax
        exact ⟨hinv.signer, hinv.skew, hinv.dedupMax, fun h => absurd h hmax,
          fun h => absurd h hmax, fun h => absurd h hmax⟩
    · rw [hafter, if_neg htrue, Option.toList_none, List.append_nil]
      exact hinv

/-- **What a guard lets in of what was signed and sent**, after any run.  An envelope `e` was signed
by somebody, and `e'` is sent with its signature; what is read of it is let in exactly if that
somebody has the secret of the guard, the envelopes agree in the seven fields that are signed, the
time is near, and the id is not among the last ones that were let in. -/
theorem wire_let_in_iff {signer signer' : IoTSigner Secret} {skew : Option ℤ} {dedupMax : ℕ}
    (h : run (guardStep H) (.new signer skew dedupMax) evs = some g) (c : Conversions) (now : ℤ)
    {e e' : IoTEnvelope} (hsigned : e'.signature = .str (signer'.sign H e)) :
    ∃ r, fromJson c (some e'.toJson) = some r ∧
      ((g.verify H now r).2 = some true ↔
        (signer'.secret = signer.secret ∧ SameSigned e e') ∧ InTime skew now e' ∧
          (0 < dedupMax → e'.messageId ∉
            recent dedupMax (letInIds H (.new signer skew dedupMax) evs))) := by
  have hinv := guardInv_run h
  refine ⟨e'.received, fromJson_toJson c e', ?_⟩
  have hsignature : e'.received.signature = .str (signer'.sign H e) := by
    show reread e'.signature = _
    rw [hsigned]
    rfl
  have hauth : g.signer.verify H e'.received e'.received.signature = some true ↔
      signer'.secret = signer.secret ∧ SameSigned e e' := by
    rw [hsignature, IoTSigner.verify_received_iff, IoTSigner.verify_eq_true_iff, hinv.signer]
    exact ⟨fun heq => IoTSigner.sign_eq_iff.1 (Json.str.inj heq),
      fun hsame => congrArg Json.str (IoTSigner.sign_eq_iff.2 hsame)⟩
  rw [verify_eq_true_iff, hauth, hinv.skew, hinv.dedupMax]
  refine and_congr_right fun _ => and_congr_right fun _ => forall_congr' fun hmax => ?_
  rw [hinv.set hmax, hinv.order hmax]
  rfl

/-- **No id is let in twice within the window**: any ids that are let in one after the other, one
more than the deque holds at most, are different. -/
theorem letInIds_windowNodup (H : Hmac Secret) (signer : IoTSigner Secret) (skew : Option ℤ)
    {dedupMax : ℕ} (hmax : 0 < dedupMax) (evs : List Incoming) :
    WindowNodup dedupMax (letInIds H (.new signer skew dedupMax) evs) := by
  obtain ⟨g, hrun⟩ : ∃ g, run (guardStep H) (.new signer skew dedupMax) evs = some g :=
    exists_run (fun _ _ => ⟨_, rfl⟩) _ _
  exact (guardInv_run hrun).window hmax

/-! ### Two envelopes -/

def signerOne : IoTSigner ℕ := ⟨1⟩

/-- A telemetry message of a device, signed. -/
def telemetry (id : Str) : IoTEnvelope :=
  let e : IoTEnvelope := ⟨id, lit "d1", lit "iot/d1", lit "telemetry", ∅, 1000, .null, some 1, 2,
    false, none, .null, .null⟩
  { e with signature := .str (signerOne.sign Sar.transparentHmac e) }

/-- The topic may not be changed on the way, but the quality of service may. -/
theorem wire_let_in_telemetry :
    (∃ r, fromJson Sar.plainConversions (some { telemetry (lit "m1") with qos := 0 }.toJson) =
        some r ∧
      ((IoTEnvelopeGuard.new signerOne (some 500) 1).verify Sar.transparentHmac 1200 r).2 =
        some true) ∧
    ∃ r, fromJson Sar.plainConversions
        (some { telemetry (lit "m1") with topic := lit "x" }.toJson) = some r ∧
      ((IoTEnvelopeGuard.new signerOne (some 500) 1).verify Sar.transparentHmac 1200 r).2 ≠
        some true := by
  have hsigned : (telemetry (lit "m1")).signature =
      .str (signerOne.sign Sar.transparentHmac (telemetry (lit "m1"))) :=
    congrArg Json.str (IoTSigner.sign_eq_iff.2 ⟨rfl, rfl, rfl, rfl, rfl, rfl, rfl, rfl⟩)
  constructor
  · have hsent : ({ telemetry (lit "m1") with qos := 0 } : IoTEnvelope).signature =
        .str (signerOne.sign Sar.transparentHmac (telemetry (lit "m1"))) := hsigned
    obtain ⟨r, hr, hiff⟩ := wire_let_in_iff (run_nil _ _) Sar.plainConversions 1200 hsent
    exact ⟨r, hr, hiff.2 ⟨⟨rfl, rfl, rfl, rfl, rfl, rfl, rfl, rfl⟩, by decide,
      fun _ => List.not_mem_nil⟩⟩
  · have hsent : ({ telemetry (lit "m1") with topic := lit "x" } : IoTEnvelope).signature =
        .str (signerOne.sign Sar.transparentHmac (telemetry (lit "m1"))) := hsigned
    obtain ⟨r, hr, hiff⟩ := wire_let_in_iff (run_nil _ _) Sar.plainConversions 1200 hsent
    refine ⟨r, hr, fun hin => ?_⟩
    exact absurd (hiff.1 hin).1.2.topic (by decide)

/-- A guard that keeps one id lets an id in again after another one. -/
theorem letInIds_windowNodup_one :
    letInIds Sar.transparentHmac (.new signerOne none 1)
        [⟨0, telemetry (lit "m1")⟩, ⟨0, telemetry (lit "m2")⟩, ⟨0, telemetry (lit "m1")⟩] =
      [lit "m1", lit "m2", lit "m1"] ∧
    WindowNodup 1 (letInIds Sar.transparentHmac (.new signerOne none 1)
      [⟨0, telemetry (lit "m1")⟩, ⟨0, telemetry (lit "m2")⟩, ⟨0, telemetry (lit "m1")⟩]) :=
  ⟨by decide +kernel, letInIds_windowNodup Sar.transparentHmac signerOne none (by decide) _⟩

end Iot
