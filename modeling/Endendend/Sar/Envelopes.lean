/-
**Signed envelopes** (`swarm/sar_vertex_foxmq_backend.py`).

What the backends of a swarm send each other.  The tag of an envelope is taken of the canonical JSON
of all its fields but the signature, with sorted keys, so it does not depend on the order of keys,
and it is the same after the envelope was sent as JSON and read again.

Main definitions:

* `Sar.P2PEnvelope`, with `asdict`, `toJson` and `fromJson`;
* `Sar.canonicalP2PEnvelopeJson` — what is signed;
* `Sar.Hmac`, `Sar.P2PSigner` — tags, and a signer with its secret;
* `Sar.SameFields` — envelopes that agree in payload and header.

Main results:

* `Sar.P2PEnvelope.fromJson_toJson` — an envelope is read as it was sent;
* `Sar.canonical_eq_iff` — **envelopes are signed alike exactly if payload and header agree**;
* `Sar.P2PSigner.verify_eq_true_iff` — the tag is the one signature that is accepted.
-/
import Endendend.Foundation.PyJson

set_option relaxedAutoImplicit false
set_option autoImplicit false

namespace Sar

open Js (Str Json OrderedMap lit)
open Py (Dict reread rereadDict)

/-! ### Envelopes -/

/-- `str`, `int` and `dict`, which turn a JSON value into one of the type that is expected, if they
can.  A value that has this type already is left as it is. -/
structure Conversions where
  str : Json → Str
  int : Json → Option ℤ
  dict : Json → Option Dict
  str_str : ∀ s, str (.str s) = s
  int_num : ∀ n : ℤ, int (.num (.ofInt n)) = some n
  dict_obj : ∀ fs, dict (.obj fs) = some (.ofList fs)

/-- An envelope; the last three fields are taken from JSON as they are, and `null` is `None`. -/
structure P2PEnvelope where
  messageId : Str
  kind : Str
  senderId : Str
  topic : Str
  payload : Dict
  timestampMs : ℤ
  ttl : ℤ
  seq : ℤ
  correlationId : Json
  replyTo : Json
  signature : Json
  deriving DecidableEq

namespace P2PEnvelope

/-- Payload and header, with the names of the fields. -/
def signedFields (e : P2PEnvelope) : List (Str × Json) :=
  [(lit "message_id", .str e.messageId), (lit "kind", .str e.kind),
    (lit "sender_id", .str e.senderId), (lit "topic", .str e.topic),
    (lit "payload", e.payload.toJson), (lit "timestamp_ms", .num (.ofInt e.timestampMs)),
    (lit "ttl", .num (.ofInt e.ttl)), (lit "seq", .num (.ofInt e.seq)),
    (lit "correlation_id", e.correlationId), (lit "reply_to", e.replyTo)]

/-- All fields with their names. -/
def fields (e : P2PEnvelope) : List (Str × Json) :=
  e.signedFields ++ [(lit "signature", e.signature)]

def asdict (e : P2PEnvelope) : Dict := .ofList e.fields

/-- What is sent, as it is read from the JSON text. -/
def toJson (e : P2PEnvelope) : Json := reread e.asdict.toJson

variable (c : Conversions)

/-- The envelope in a dictionary; reading it fails if a field that must be there is missing, or has
no value of its type. -/
def ofDict (now : ℤ) (data : Dict) : Option P2PEnvelope := do
  let messageId ← data.get? (lit "message_id")
  let kind ← data.get? (lit "kind")
  let senderId ← data.get? (lit "sender_id")
  let topic ← data.get? (lit "topic")
  let payload ← c.dict ((data.get? (lit "payload")).getD (.obj []))
  let timestampMs ← c.int ((data.get? (lit "timestamp_ms")).getD (.num (.ofInt now)))
  let ttl ← c.int ((data.get? (lit "ttl")).getD (.num (.ofInt 4)))
  let seq ← c.int ((data.get? (lit "seq")).getD (.num (.ofInt 0)))
  return {
    messageId := c.str messageId
    kind := c.str kind
    senderId := c.str senderId
    topic := c.str topic
    payload, timestampMs, ttl, seq
    correlationId := (data.get? (lit "correlation_id")).getD .null
    replyTo := (data.get? (lit "reply_to")).getD .null
    signature := (data.get? (lit "signature")).getD .null }

/-- The envelope in a text, of which `raw` is the JSON value, if it is JSON. -/
def fromJson (now : ℤ) : Option Json → Option P2PEnvelope
  | some (.obj fs) => ofDict c now (.ofList fs)
  | _ => none

/-- The envelope as it is received, with sorted keys. -/
def received (e : P2PEnvelope) : P2PEnvelope :=
  { e with
    payload := rereadDict e.payload
    correlationId := Py.reread e.correlationId
    replyTo := Py.reread e.replyTo
    signature := Py.reread e.signature }

end P2PEnvelope

/-- What is signed: all fields but the signature. -/
def canonicalP2PEnvelopeJson (e : P2PEnvelope) : Json :=
  reread (Dict.toJson (e.asdict.erase (lit "signature")))

/-- Two envelopes agree in payload and header, up to the order of keys. -/
structure SameFields (e e' : P2PEnvelope) : Prop where
  messageId : e.messageId = e'.messageId
  kind : e.kind = e'.kind
  senderId : e.senderId = e'.senderId
  topic : e.topic = e'.topic
  payload : reread e.payload.toJson = reread e'.payload.toJson
  timestampMs : e.timestampMs = e'.timestampMs
  ttl : e.ttl = e'.ttl
  seq : e.seq = e'.seq
  correlationId : reread e.correlationId = reread e'.correlationId
  replyTo : reread e.replyTo = reread e'.replyTo

/-! ### Lookups -/

namespace P2PEnvelope

/-- The names of payload and header. -/
def signedNames : List Str :=
  [lit "message_id", lit "kind", lit "sender_id", lit "topic", lit "payload", lit "timestamp_ms",
    lit "ttl", lit "seq", lit "correlation_id", lit "reply_to"]

theorem nodup_names : (signedNames ++ [lit "signature"]).Nodup := by decide +kernel

theorem nodup_fields (e : P2PEnvelope) : (e.fields.map Prod.fst).Nodup := nodup_names

theorem nodup_signedFields (e : P2PEnvelope) : (e.signedFields.map Prod.fst).Nodup :=
  nodup_names.of_append_left

/-- A field is found under its name. -/
theorem get?_asdict (e : P2PEnvelope) (n : ℕ) {name : Str} {v : Json}
    (h : e.fields[n]? = some (name, v)) : e.asdict.get? name = some v :=
  OrderedMap.get?_ofList e.nodup_fields (List.mem_of_getElem? h)

/-- What was sent is read as a dictionary with the same fields. -/
theorem fromJson_toJson_eq (c : Conversions) (now : ℤ) (e : P2PEnvelope) :
    fromJson c now (some e.toJson) = ofDict c now (rereadDict e.asdict) := by
  rw [toJson, Py.reread_toJson, Dict.toJson, fromJson, OrderedMap.ofList_entries]

/-- **An envelope is read as it was sent**, with sorted keys. -/
theorem fromJson_toJson (c : Conversions) (now : ℤ) (e : P2PEnvelope) :
    fromJson c now (some e.toJson) = some e.received := by
  have hget : ∀ (n : ℕ) {name v}, e.fields[n]? = some (name, v) →
      (rereadDict e.asdict).get? name = some (Py.reread v) := by
    intro n name v h
    rw [Py.get?_rereadDict, e.get?_asdict n h, Option.map_some]
  rw [fromJson_toJson_eq, ofDict, hget 0 rfl, hget 1 rfl, hget 2 rfl, hget 3 rfl, hget 4 rfl,
    hget 5 rfl, hget 6 rfl, hget 7 rfl, hget 8 rfl, hget 9 rfl, hget 10 rfl]
  have hpayload : c.dict (Py.reread e.payload.toJson) = some (rereadDict e.payload) := by
    rw [Py.reread_toJson, Dict.toJson, c.dict_obj, OrderedMap.ofList_entries]
  have hint : ∀ n : ℤ, c.int (Py.reread (.num (.ofInt n))) = some n := c.int_num
  have hstr : ∀ t, c.str (Py.reread (.str t)) = t := c.str_str
  simp only [Option.getD_some, hpayload, hint]
  simp only [Option.pure_def, Option.bind_eq_bind, Option.bind_some, hstr]
  rfl

end P2PEnvelope

open P2PEnvelope

theorem toJson_signedFields (e : P2PEnvelope) :
    Dict.toJson (.ofList e.signedFields) = .obj e.signedFields := by
  rw [Dict.toJson, OrderedMap.entries_ofList e.nodup_signedFields]

/-- What is signed has payload and header as its fields. -/
theorem canonical_eq (e : P2PEnvelope) :
    canonicalP2PEnvelopeJson e = reread (Dict.toJson (.ofList e.signedFields)) := by
  have herase : e.asdict.erase (lit "signature") = .ofList e.signedFields :=
    OrderedMap.erase_ofList_concat e.nodup_fields
  rw [canonicalP2PEnvelopeJson, herase]

/-- **Envelopes are signed alike exactly if payload and header agree.** -/
theorem canonical_eq_iff (e e' : P2PEnvelope) :
    canonicalP2PEnvelopeJson e = canonicalP2PEnvelopeJson e' ↔ SameFields e e' := by
  rw [canonical_eq, canonical_eq]
  constructor
  · intro h
    have hfield : ∀ (n : ℕ) {name v v'}, e.signedFields[n]? = some (name, v) →
        e'.signedFields[n]? = some (name, v') → reread v = reread v' := by
      intro n name v v' hv hv'
      have hget := Py.get?_of_reread_eq h name
      rw [OrderedMap.get?_ofList e.nodup_signedFields (List.mem_of_getElem? hv),
        OrderedMap.get?_ofList e'.nodup_signedFields (List.mem_of_getElem? hv')] at hget
      exact Option.some.inj hget
    exact {
      messageId := Json.str.inj (hfield 0 rfl rfl)
      kind := Json.str.inj (hfield 1 rfl rfl)
      senderId := Json.str.inj (hfield 2 rfl rfl)
      topic := Json.str.inj (hfield 3 rfl rfl)
      payload := hfield 4 rfl rfl
      timestampMs := Js.Decimal.ofInt_injective (Json.num.inj (hfield 5 rfl rfl))
      ttl := Js.Decimal.ofInt_injective (Json.num.inj (hfield 6 rfl rfl))
      seq := Js.Decimal.ofInt_injective (Json.num.inj (hfield 7 rfl rfl))
      correlationId := hfield 8 rfl rfl
      replyTo := hfield 9 rfl rfl }
  · intro h
    have hfields : e.signedFields.map (fun p : Str × Json => (p.1, reread p.2)) =
        e'.signedFields.map fun p : Str × Json => (p.1, reread p.2) := by
      simp only [signedFields, List.map_cons, List.map_nil, h.messageId, h.kind, h.senderId,
        h.topic, h.payload, h.timestampMs, h.ttl, h.seq, h.correlationId, h.replyTo]
    rw [toJson_signedFields, toJson_signedFields, reread, reread, Json.sortKeys, Json.sortKeys,
      Json.sortFields_eq_map, Json.sortFields_eq_map]
    exact congrArg (fun l => Json.obj (l.insertionSort Json.KeyLe)) hfields

/-- An envelope agrees with what is received of it. -/
theorem sameFields_received (e : P2PEnvelope) : SameFields e e.received where
  messageId := rfl
  kind := rfl
  senderId := rfl
  topic := rfl
  payload := by
    change _ = reread (rereadDict e.payload).toJson
    rw [← Py.reread_toJson, Py.reread_reread]
  timestampMs := rfl
  ttl := rfl
  seq := rfl
  correlationId := (Py.reread_reread e.correlationId).symm
  replyTo := (Py.reread_reread e.replyTo).symm

/-! ### Signatures -/

/-- A text of ASCII characters. -/
def IsAscii (s : Str) : Prop := ∀ u ∈ s, u.val < 128

instance (s : Str) : Decidable (IsAscii s) := List.decidableBAll _ s

/-- Tags in hexadecimal, of a value that stands for its JSON text.  Nobody finds two keys or two
texts with the same tag. -/
structure Hmac (Secret : Type*) where
  tag : Secret → Json → Str
  tag_ne_nil : ∀ k v, tag k v ≠ []
  isAscii_tag : ∀ k v, IsAscii (tag k v)
  tag_inj : ∀ {k k' v v'}, tag k v = tag k' v' → k = k' ∧ v = v'

/-- A signer, with the secret of the node that it belongs to. -/
structure P2PSigner (Secret : Type*) where
  secret : Secret

namespace P2PSigner

variable {Secret : Type*} (H : Hmac Secret) (signer : P2PSigner Secret)

def sign (e : P2PEnvelope) : Str := H.tag signer.secret (canonicalP2PEnvelopeJson e)

/-- Compares a signature with the tag of the envelope; the comparison raises if the signature is no
ASCII text. -/
def verify (e : P2PEnvelope) : Json → Option Bool
  | .str s => if IsAscii s then some (decide (signer.sign H e = s)) else none
  | _ => none

variable {H signer}

/-- **The tag of the envelope is the one signature that is accepted.** -/
theorem verify_eq_true_iff {e : P2PEnvelope} {signature : Json} :
    signer.verify H e signature = some true ↔ signature = .str (signer.sign H e) := by
  constructor
  · intro h
    cases signature with
    | str s =>
        obtain ⟨-, heq⟩ := Option.ite_none_right_eq_some.1 h
        rw [of_decide_eq_true (Option.some.inj heq)]
    | _ => cases h
  · rintro rfl
    have hascii : IsAscii (signer.sign H e) := H.isAscii_tag _ _
    rw [verify, if_pos hascii, decide_eq_true rfl]

/-- **Two signers sign alike exactly if they have the same secret**, and the envelopes agree in
payload and header. -/
theorem sign_eq_iff {signer' : P2PSigner Secret} {e e' : P2PEnvelope} :
    signer.sign H e = signer'.sign H e' ↔ signer.secret = signer'.secret ∧ SameFields e e' := by
  rw [← canonical_eq_iff]
  constructor
  · exact H.tag_inj
  · rintro ⟨hsecret, hfields⟩
    rw [sign, sign, hsecret, hfields]

end P2PSigner

end Sar
