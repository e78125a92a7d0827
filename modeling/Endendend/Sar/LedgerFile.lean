/-
**The mission ledger and its file** (`LedgerEntry`, `MissionLedger` and `JSONFileStore` of
`swarm/sar_vertex_foxmq_backend.py`).

An append seals its entry and pushes it while it holds the lock, and then persists the ledger: the
payload is made under the lock again, but it is written after the lock was released.  Several
threads append, so that a payload may be written when newer ones are already in the file.  When the
node is started again, the ledger is what the file holds.

Main definitions:

* `Sar.LedgerEntry`, `Sar.MissionLedger.sealEntry`, `Sar.MissionLedger.verify` — entries, what an
  append pushes, and the verification;
* `Sar.JSONFileStore.save`, `Sar.MissionLedger.load` — the file;
* `Sar.LedgerWorld`, `Sar.ledgerStep` — the ledger with its file and the open appends;
* `Sar.SavesInOrder` — no payload is written over a longer one.

Main results:

* `Sar.ofRow_row` — an entry is read as it was written;
* `Sar.verify_eq_ok_iff` — a ledger verifies exactly if it is a numbered chain;
* `Sar.ledger_survives_restarts` — **whatever the threads do, ledger and file verify, and the file
  is an initial part of the ledger**;
* `Sar.ledger_durable` — **when payloads are written in order, no entry that was returned is lost**;
* `Sar.same_head_same_entries` — two ledgers that verify and have the same head have the same
  entries.
-/
import Endendend.Foundation.HashChain
import Endendend.Foundation.NumberText
import Endendend.Foundation.PyJson
import Endendend.Foundation.SnapshotFile

set_option relaxedAutoImplicit false
set_option autoImplicit false

namespace Sar

open Js (Str Json OrderedMap lit)
open Py (Dict reread rereadDict)
open Runs

/-! ### Entries -/

inductive EventType
  | missionCreated
  | missionPhase
  | nodeJoined
  | nodeLeft
  | nodeRole
  | telemetry
  | sensor
  | targetFound
  | targetConfirmed
  | targetAssigned
  | targetExtracted
  | safetyAlert
  | checkpoint
  | sync
  | consensus
  | command
  | commandAck
  | heartbeat
  | failure
  | recovery
  | geolock
  | geounlock
  deriving DecidableEq

namespace EventType

def value : EventType → Str
  | missionCreated => "mission_created"
  | missionPhase => "mission_phase"
  | nodeJoined => "node_joined"
  | nodeLeft => "node_left"
  | nodeRole => "node_role"
  | telemetry => "telemetry"
  | sensor => "sensor"
  | targetFound => "target_found"
  | targetConfirmed => "target_confirmed"
  | targetAssigned => "target_assigned"
  | targetExtracted => "target_extracted"
  | safetyAlert => "safety_alert"
  | checkpoint => "checkpoint"
  | sync => "sync"
  | consensus => "consensus"
  | command => "command"
  | commandAck => "command_ack"
  | heartbeat => "heartbeat"
  | failure => "failure"
  | recovery => "recovery"
  | geolock => "geolock"
  | geounlock => "geounlock"

/-- The types in the order of the source. -/
def all : List EventType :=
  [missionCreated, missionPhase, nodeJoined, nodeLeft, nodeRole, telemetry, sensor, targetFound,
    targetConfirmed, targetAssigned, targetExtracted, safetyAlert, checkpoint, sync, consensus,
    command, commandAck, heartbeat, failure, recovery, geolock, geounlock]

/-- `EventType(s)`, which raises for another text. -/
def ofValue (s : Str) : Option EventType := all.find? fun t => t.value = s

theorem ofValue_value (t : EventType) : ofValue t.value = some t := by
  cases t <;> decide

theorem value_injective : Function.Injective value := by
  intro t u h
  rw [← Option.some_inj, ← ofValue_value t, h, ofValue_value u]

end EventType

structure LedgerEntry where
  entryId : Str
  missionId : Str
  eventType : EventType
  actorId : Str
  payload : Dict
  previousHash : Str
  timestampMs : ℤ
  signature : Str
  nonce : Str
  blockIndex : ℤ
  cumulativeHash : Str

namespace LedgerEntry

/-- What is hashed, with the names of the fields. -/
def bodyFields (e : LedgerEntry) : List (Str × Json) :=
  [(lit "entry_id", .str e.entryId), (lit "mission_id", .str e.missionId),
    (lit "event_type", .str e.eventType.value), (lit "actor_id", .str e.actorId),
    (lit "payload", e.payload.toJson), (lit "previous_hash", .str e.previousHash),
    (lit "timestamp_ms", .num (.ofInt e.timestampMs)), (lit "nonce", .str e.nonce),
    (lit "block_index", .num (.ofInt e.blockIndex))]

/-- All fields with their names. -/
def fields (e : LedgerEntry) : List (Str × Json) :=
  e.bodyFields ++ [(lit "signature", .str e.signature),
    (lit "cumulative_hash", .str e.cumulativeHash)]

/-- The JSON value whose text is hashed and signed: its keys are sorted. -/
def body (e : LedgerEntry) : Json := reread (Dict.toJson (.ofList e.bodyFields))

def asdict (e : LedgerEntry) : Dict := .ofList e.fields

/-- The entry as it stands in the file. -/
def row (e : LedgerEntry) : Json := reread e.asdict.toJson

variable (sha256 : Json → Str)

/-- `stable_hash`: the digest of the text of the body, in hexadecimal. -/
def hash (e : LedgerEntry) : Str := sha256 e.body

end LedgerEntry

/-- A text among the values of JSON. -/
def asStr : Json → Option Str
  | .str s => some s
  | _ => none

/-- A whole number among the values of JSON. -/
def asInt : Json → Option ℤ
  | .num x => if x = .ofInt ⌊x.val⌋ then some ⌊x.val⌋ else none
  | _ => none

def asDict : Json → Option Dict
  | .obj fs => some (.ofList fs)
  | _ => none

/-- `_ledger_entry_from_dict`, for a row with all of its fields. -/
def ledgerEntryFromDict (item : Dict) : Option LedgerEntry := do
  let entryId ← (item.get? (lit "entry_id")).bind asStr
  let missionId ← (item.get? (lit "mission_id")).bind asStr
  let eventType ← (asStr ((item.get? (lit "event_type")).getD
    (.str EventType.missionCreated.value))).bind EventType.ofValue
  let actorId ← (item.get? (lit "actor_id")).bind asStr
  let payload ← (item.get? (lit "payload")).bind asDict
  let previousHash ← (item.get? (lit "previous_hash")).bind asStr
  let timestampMs ← (item.get? (lit "timestamp_ms")).bind asInt
  let nonce ← (item.get? (lit "nonce")).bind asStr
  let blockIndex ← asInt ((item.get? (lit "block_index")).getD (.num (.ofInt 0)))
  let signature ← asStr ((item.get? (lit "signature")).getD (.str []))
  let cumulativeHash ← asStr ((item.get? (lit "cumulative_hash")).getD (.str []))
  return { entryId, missionId, eventType, actorId, payload, previousHash, timestampMs, signature,
           nonce, blockIndex, cumulativeHash }

/-- The entry in a row of the file. -/
def ofRow : Json → Option LedgerEntry
  | .obj fs => ledgerEntryFromDict (.ofList fs)
  | _ => none

/-! ### The ledger -/

/-- What the hashes start from. -/
def ledgerGenesis : Str := "genesis"

/-- The input of an append, with the ids that it draws and the time that it reads. -/
structure AppendInput where
  entryId : Str
  missionId : Str
  eventType : EventType
  actorId : Str
  payload : Dict
  timestampMs : ℤ
  nonce : Str

namespace MissionLedger

variable (sha256 : Json → Str) (signer : Option (Json → Str))

def headHash (entries : List LedgerEntry) : Str :=
  match entries.getLast? with
  | some e => e.hash sha256
  | none => ledgerGenesis

/-- The entry that an append pushes. -/
def sealEntry (entries : List LedgerEntry) (input : AppendInput) : LedgerEntry :=
  let entry : LedgerEntry :=
    { input with
      previousHash := headHash sha256 entries
      blockIndex := entries.length
      signature := []
      cumulativeHash := [] }
  { entry with
    signature := signer.elim [] fun sign => sign entry.body
    cumulativeHash := entry.hash sha256 }

/-- The loop of `verify`, at the entry with index `idx`. -/
def verifyFrom (idx : ℕ) (previous : Str) : List LedgerEntry → Bool × Str
  | [] => (true, lit "ok")
  | e :: es =>
    if e.blockIndex ≠ idx then
      (false, lit "bad_block_index:" ++ Js.Decimal.toStr (.ofInt idx))
    else if e.previousHash ≠ previous then
      (false, lit "bad_previous_hash:" ++ Js.Decimal.toStr (.ofInt idx))
    else if e.cumulativeHash ≠ e.hash sha256 then
      (false, lit "bad_entry_hash:" ++ Js.Decimal.toStr (.ofInt idx))
    else verifyFrom (idx + 1) (e.hash sha256) es

def verify (entries : List LedgerEntry) : Bool × Str := verifyFrom sha256 0 ledgerGenesis entries

/-- The payload of `_persist`. -/
def document (entries : List LedgerEntry) : Json :=
  .obj [(lit "ledger", .arr (entries.map fun e => e.asdict.toJson))]

end MissionLedger

/-- What a file reads as after `data` was saved: the keys of the text are sorted. -/
def JSONFileStore.save (data : Json) : Option Json := some (reread data)

/-- What a file reads as, or a default if there is no file or it is no JSON. -/
def JSONFileStore.load (file : Option Json) (default : Json) : Json := file.getD default

/-- The ledger in the file; loading raises if a row is no entry. -/
def MissionLedger.load (file : Option Json) : Option (List LedgerEntry) :=
  match JSONFileStore.load file (.obj [(lit "ledger", .arr [])]) with
  | .obj fs =>
    match ((OrderedMap.ofList fs).get? (lit "ledger")).getD (.arr []) with
    | .arr rows => rows.mapM ofRow
    | _ => none
  | _ => none

/-! ### Threads, the file and restarts -/

/-- An append that has pushed its entry, with the payload once it is made. -/
structure OpenAppend where
  entry : LedgerEntry
  payload : Option Json

structure LedgerWorld where
  entries : List LedgerEntry
  file : Option Json
  calls : List OpenAppend

/-- What happens.  The open appends are named by their place. -/
inductive LedgerMove
  | append (input : AppendInput)
  | makePayload (i : ℕ)
  | save (i : ℕ)
  | restart

variable (sha256 : Json → Str) (signer : Option (Json → Str))

def ledgerStep (w : LedgerWorld) : LedgerMove → Option LedgerWorld
  | .append input =>
      let entry := MissionLedger.sealEntry sha256 signer w.entries input
      some { w with entries := w.entries ++ [entry], calls := w.calls ++ [⟨entry, none⟩] }
  | .makePayload i =>
      match w.calls[i]? with
      | some ⟨entry, none⟩ =>
          some { w with calls := w.calls.set i ⟨entry, some (MissionLedger.document w.entries)⟩ }
      | _ => none
  | .save i =>
      match w.calls[i]? with
      | some ⟨_, some payload⟩ =>
          some { w with file := JSONFileStore.save payload, calls := w.calls.eraseIdx i }
      | _ => none
  | .restart =>
      (MissionLedger.load w.file).map fun entries => { entries, file := w.file, calls := [] }

/-- A node that is started for the first time. -/
def LedgerWorld.start : LedgerWorld := ⟨[], none, []⟩

/-- The entry that an append returns. -/
def appendReturns (w : LedgerWorld) : LedgerMove → Option LedgerEntry
  | .save i => w.calls[i]?.map OpenAppend.entry
  | _ => none

/-- The rows of a document. -/
def documentRows : Json → List Json
  | .obj [(_, .arr rows)] => rows.map reread
  | _ => []

/-- The rows of a file. -/
def fileRows (file : Option Json) : List Json := file.elim [] documentRows

/-- No payload is written over a longer one. -/
def SavesInOrder (w : LedgerWorld) : LedgerMove → Prop
  | .save i => ∀ c ∈ w.calls[i]?, ∀ p ∈ c.payload,
      (fileRows w.file).length ≤ (documentRows p).length
  | _ => True

instance (w : LedgerWorld) : DecidablePred (SavesInOrder w)
  | .save i => inferInstanceAs (Decidable (∀ c ∈ w.calls[i]?, ∀ p ∈ c.payload,
      (fileRows w.file).length ≤ (documentRows p).length))
  | .append _ | .makePayload _ | .restart => isTrue trivial

/-! ### Rows of the file -/

theorem asInt_ofInt (n : ℤ) : asInt (.num (.ofInt n)) = some n := by
  have hval : (Js.Decimal.ofInt n).val = n := by
    rw [Js.Decimal.ofInt, Js.Decimal.val_mk', zpow_zero, mul_one]
  rw [asInt, hval, Int.floor_intCast, if_pos rfl]

namespace LedgerEntry

variable (e : LedgerEntry)

/-- The entry as it is read, with sorted keys. -/
def received : LedgerEntry := { e with payload := rereadDict e.payload }

/-- The names of the fields. -/
def names : List Str :=
  [lit "entry_id", lit "mission_id", lit "event_type", lit "actor_id", lit "payload",
    lit "previous_hash", lit "timestamp_ms", lit "nonce", lit "block_index"]

theorem nodup_names : (names ++ [lit "signature", lit "cumulative_hash"]).Nodup := by
  decide +kernel

theorem nodup_fields : (e.fields.map Prod.fst).Nodup := nodup_names

theorem nodup_bodyFields : (e.bodyFields.map Prod.fst).Nodup := nodup_names.of_append_left

/-- What is hashed has the fields of the body in the order of their names. -/
theorem body_eq :
    e.body = .obj ((e.bodyFields.map fun p => (p.1, reread p.2)).insertionSort Json.KeyLe) :=
  Py.reread_ofList e.nodup_bodyFields

theorem row_eq :
    e.row = .obj ((e.fields.map fun p => (p.1, reread p.2)).insertionSort Json.KeyLe) :=
  Py.reread_ofList e.nodup_fields

theorem reread_payload : reread e.received.payload.toJson = reread e.payload.toJson := by
  change reread (rereadDict e.payload).toJson = _
  rw [← Py.reread_toJson, Py.reread_reread]

/-- The hash of an entry does not change when it is written and read. -/
@[simp] theorem hash_received (sha256 : Json → Str) : e.received.hash sha256 = e.hash sha256 := by
  have hbody : e.received.body = e.body := by
    rw [body_eq, body_eq]
    simp only [bodyFields, List.map_cons, reread_payload, List.map_nil]
    rfl
  rw [hash, hash, hbody]

@[simp] theorem row_received : e.received.row = e.row := by
  rw [row_eq, row_eq]
  simp only [fields, bodyFields, List.cons_append, List.nil_append, List.map_cons, reread_payload,
    List.map_nil]
  rfl

end LedgerEntry

open LedgerEntry

/-- **An entry is read as it was written**, with sorted keys. -/
theorem ofRow_row (e : LedgerEntry) : ofRow e.row = some e.received := by
  have hget : ∀ (n : ℕ) {name v}, e.fields[n]? = some (name, v) →
      (rereadDict e.asdict).get? name = some (reread v) := by
    intro n name v h
    rw [Py.get?_rereadDict, asdict,
      OrderedMap.get?_ofList e.nodup_fields (List.mem_of_getElem? h), Option.map_some]
  rw [row, Py.reread_toJson, Dict.toJson, ofRow, OrderedMap.ofList_entries, ledgerEntryFromDict,
    hget 0 rfl, hget 1 rfl, hget 2 rfl, hget 3 rfl, hget 4 rfl, hget 5 rfl, hget 6 rfl, hget 7 rfl,
    hget 8 rfl, hget 9 rfl, hget 10 rfl]
  have hpayload : asDict (reread e.payload.toJson) = some (rereadDict e.payload) := by
    rw [Py.reread_toJson, Dict.toJson, asDict, OrderedMap.ofList_entries]
  have hint : ∀ n : ℤ, asInt (reread (.num (.ofInt n))) = some n := asInt_ofInt
  have hstr : ∀ s, asStr (reread (.str s)) = some s := fun _ => rfl
  simp only [Option.getD_some, Option.bind_some, hpayload, hint, hstr, EventType.ofValue_value]
  rfl

/-! ### Verification -/

namespace MissionLedger

variable {sha256}

/-- An entry as a row of a hash chain. -/
def chain (e : LedgerEntry) : HashChain.Row Str LedgerEntry :=
  ⟨e.previousHash, e, e.cumulativeHash⟩

/-- The digest of an entry that points back to a hash. -/
def digest (sha256 : Json → Str) (previous : Str) (e : LedgerEntry) : Str :=
  { e with previousHash := previous }.hash sha256

/-- The entries are numbered from `idx` on. -/
def Numbered (idx : ℕ) (es : List LedgerEntry) : Prop :=
  es.map blockIndex = (List.range' idx es.length).map Int.ofNat

theorem numbered_append {idx : ℕ} {es es' : List LedgerEntry} :
    Numbered idx (es ++ es') ↔ Numbered idx es ∧ Numbered (idx + es.length) es' := by
  have hrange : List.range' idx (es ++ es').length =
      List.range' idx es.length ++ List.range' (idx + es.length) es'.length := by
    rw [List.length_append, List.range'_append_1]
  rw [Numbered, hrange, List.map_append, List.map_append]
  constructor
  · exact fun h => List.append_inj h (by simp)
  · rintro ⟨h, h'⟩
    rw [h, h']

theorem numbered_cons {idx : ℕ} {es : List LedgerEntry} {e : LedgerEntry} :
    Numbered idx (e :: es) ↔ e.blockIndex = idx ∧ Numbered (idx + 1) es := by
  simp [Numbered, List.range'_succ]

theorem verifyFrom_eq_ok_iff (idx : ℕ) (previous : Str) (es : List LedgerEntry) :
    verifyFrom sha256 idx previous es = (true, lit "ok") ↔
      Numbered idx es ∧ HashChain.Linked (digest sha256) previous (es.map chain) := by
  induction es generalizing idx previous with
  | nil => simp [verifyFrom, Numbered]
  | cons e es ih =>
      rw [verifyFrom, numbered_cons, List.map_cons, HashChain.Linked]
      by_cases hidx : e.blockIndex = idx
      · by_cases hprev : e.previousHash = previous
        · -- the digest is taken of the entry as it is
          have hdigest : digest sha256 previous e = e.hash sha256 := by rw [digest, ← hprev]
          by_cases hhash : e.cumulativeHash = e.hash sha256
          · simp [hidx, hprev, hhash, chain, hdigest, ih]
          · simp [hidx, hprev, hhash, chain, hdigest]
        · simp [hidx, hprev, chain]
      · simp [hidx]

/-- **A ledger verifies exactly if it is a numbered chain.** -/
theorem verify_eq_ok_iff {es : List LedgerEntry} :
    verify sha256 es = (true, lit "ok") ↔
      Numbered 0 es ∧ HashChain.Linked (digest sha256) ledgerGenesis (es.map chain) :=
  verifyFrom_eq_ok_iff 0 ledgerGenesis es

/-- Where the entries carry their hashes, the head is the tail of the chain. -/
theorem headHash_eq_tail {es : List LedgerEntry}
    (h : HashChain.Linked (digest sha256) ledgerGenesis (es.map chain)) :
    headHash sha256 es = HashChain.tail ledgerGenesis (es.map chain) := by
  induction es using List.reverseRecOn with
  | nil => rfl
  | append_singleton es e _ =>
      rw [List.map_append, List.map_singleton] at h ⊢
      obtain ⟨-, hprev, hhash⟩ := HashChain.linked_concat.1 h
      rw [HashChain.tail_concat, headHash, List.getLast?_concat, hhash, digest, ← hprev]
      rfl

/-- **An append keeps a ledger that verifies.** -/
theorem verify_append {signer : Option (Json → Str)} {es : List LedgerEntry}
    (h : verify sha256 es = (true, lit "ok")) (input : AppendInput) :
    verify sha256 (es ++ [sealEntry sha256 signer es input]) = (true, lit "ok") := by
  obtain ⟨hnum, hlinked⟩ := verify_eq_ok_iff.1 h
  refine verify_eq_ok_iff.2 ⟨numbered_append.2 ⟨hnum, ?_⟩, ?_⟩
  · rw [Nat.zero_add]
    rfl
  · rw [List.map_append, List.map_singleton]
    refine HashChain.linked_concat.2 ⟨hlinked, headHash_eq_tail hlinked, ?_⟩
    rw [← headHash_eq_tail hlinked]
    rfl

/-- The verification sees no difference between a ledger and what is read of it. -/
@[simp] theorem verifyFrom_map_received (idx : ℕ) (previous : Str) (es : List LedgerEntry) :
    verifyFrom sha256 idx previous (es.map received) = verifyFrom sha256 idx previous es := by
  induction es generalizing idx previous with
  | nil => rfl
  | cons e es ih =>
      rw [List.map_cons, verifyFrom, verifyFrom, hash_received, ih]
      rfl

/-- What verifies is verified up to any entry. -/
theorem verify_of_initial {es es' : List LedgerEntry} (h : verify sha256 es' = (true, lit "ok"))
    (hinitial : es <+: es') : verify sha256 es = (true, lit "ok") := by
  obtain ⟨rest, rfl⟩ := hinitial
  obtain ⟨hnum, hlinked⟩ := verify_eq_ok_iff.1 h
  rw [List.map_append] at hlinked
  exact verify_eq_ok_iff.2
    ⟨(numbered_append.1 hnum).1, (HashChain.linked_append.1 hlinked).1⟩

/-- The verification sees the rows of the entries only. -/
theorem verify_congr {es es' : List LedgerEntry} (h : es.map row = es'.map row) :
    verify sha256 es = verify sha256 es' := by
  have hreceived : es.map received = es'.map received := by
    have hrows := congrArg (List.map ofRow) h
    simp only [List.map_map, Function.comp_def, ofRow_row] at hrows
    refine List.map_injective_iff.2 (Option.some_injective LedgerEntry) ?_
    simpa only [List.map_map, Function.comp_def] using hrows
  rw [verify, verify, ← verifyFrom_map_received, ← verifyFrom_map_received _ _ es', hreceived]

/-! ### The file -/

theorem mapM_ofRow_rows (es : List LedgerEntry) :
    (es.map row).mapM ofRow = some (es.map received) := by
  induction es with
  | nil => rfl
  | cons e es ih => simp [ofRow_row, ih]

theorem documentRows_document (es : List LedgerEntry) : documentRows (document es) = es.map row := by
  rw [document, documentRows, List.map_map]
  rfl

/-- What a saved document reads as. -/
theorem save_document (es : List LedgerEntry) :
    JSONFileStore.save (document es) = some (.obj [(lit "ledger", .arr (es.map row))]) := by
  have hobj : ∀ v, reread (.obj [(lit "ledger", v)]) = .obj [(lit "ledger", reread v)] :=
    fun _ => rfl
  rw [JSONFileStore.save, document, hobj, Py.reread_arr, List.map_map]
  rfl

theorem fileRows_save_document (es : List LedgerEntry) :
    fileRows (JSONFileStore.save (document es)) = es.map row := by
  rw [save_document, fileRows, Option.elim_some, documentRows, List.map_map]
  exact List.map_congr_left fun e _ => Py.reread_reread _

/-- **A ledger is read as it was saved**, with sorted keys. -/
theorem load_save_document (es : List LedgerEntry) :
    load (JSONFileStore.save (document es)) = some (es.map received) := by
  rw [save_document]
  exact mapM_ofRow_rows es

end MissionLedger

open MissionLedger

/-! ### The ledger as a list with a file -/

/-- The world as rows. -/
def LedgerWorld.rows (w : LedgerWorld) : SnapshotFile.Store Json where
  items := w.entries.map row
  file := fileRows w.file
  calls := w.calls.map fun c => ⟨row c.entry, c.payload.map documentRows⟩

/-- A move as one of rows. -/
def rowsMove (w : LedgerWorld) : LedgerMove → SnapshotFile.Move Json
  | .append input => .append (row (sealEntry sha256 signer w.entries input))
  | .makePayload i => .snapshot i
  | .save i => .save i
  | .restart => .restart

/-- File and payloads are documents of entries. -/
structure LedgerDocuments (w : LedgerWorld) : Prop where
  file : w.file = none ∨ ∃ es, w.file = JSONFileStore.save (document es)
  payloads : ∀ c ∈ w.calls, ∀ p ∈ c.payload, ∃ es, p = document es

variable {sha256 signer}

/-- A file of the ledger can be read, and its entries have its rows. -/
theorem LedgerDocuments.load {w : LedgerWorld} (h : LedgerDocuments w) :
    ∃ es, MissionLedger.load w.file = some es ∧ es.map row = fileRows w.file := by
  rcases h.file with hfile | ⟨es, hfile⟩
  · rw [hfile]
    exact ⟨[], rfl, rfl⟩
  · refine ⟨es.map received, ?_, ?_⟩
    · rw [hfile, load_save_document]
    · rw [hfile, fileRows_save_document, List.map_map]
      exact List.map_congr_left fun e _ => e.row_received

theorem ledgerStep_makePayload {w w' : LedgerWorld} {i : ℕ}
    (h : ledgerStep sha256 signer w (.makePayload i) = some w') :
    ∃ entry, w.calls[i]? = some ⟨entry, none⟩ ∧
      w' = { w with calls := w.calls.set i ⟨entry, some (document w.entries)⟩ } := by
  simp only [ledgerStep] at h
  split at h
  · next entry hcall => exact ⟨entry, hcall, (Option.some.inj h).symm⟩
  · cases h

theorem ledgerStep_save {w w' : LedgerWorld} {i : ℕ}
    (h : ledgerStep sha256 signer w (.save i) = some w') :
    ∃ entry payload, w.calls[i]? = some ⟨entry, some payload⟩ ∧
      w' = { w with file := JSONFileStore.save payload, calls := w.calls.eraseIdx i } := by
  simp only [ledgerStep] at h
  split at h
  · next entry payload hcall => exact ⟨entry, payload, hcall, (Option.some.inj h).symm⟩
  · cases h

theorem ledgerDocuments_step {w w' : LedgerWorld} {mv : LedgerMove} (h : LedgerDocuments w)
    (hstep : ledgerStep sha256 signer w mv = some w') : LedgerDocuments w' := by
  cases mv with
  | append input =>
      obtain rfl := Option.some.inj hstep
      refine ⟨h.file, fun c hc p hp => ?_⟩
      rcases List.mem_append.1 hc with hc | hc
      · exact h.payloads c hc p hp
      · obtain rfl := List.mem_singleton.1 hc
        cases hp
  | makePayload i =>
      obtain ⟨entry, hcall, rfl⟩ := ledgerStep_makePayload hstep
      refine ⟨h.file, fun c hc p hp => ?_⟩
      rcases List.mem_or_eq_of_mem_set hc with hc | rfl
      · exact h.payloads c hc p hp
      · exact ⟨w.entries, (Option.some.inj hp).symm⟩
  | save i =>
      obtain ⟨entry, payload, hcall, rfl⟩ := ledgerStep_save hstep
      obtain ⟨es, rfl⟩ := h.payloads _ (List.mem_of_getElem? hcall) payload rfl
      exact ⟨.inr ⟨es, rfl⟩, fun c hc => h.payloads c (List.mem_of_mem_eraseIdx hc)⟩
  | restart =>
      obtain ⟨es, -, rfl⟩ := Option.map_eq_some_iff.1 hstep
      exact ⟨h.file, nofun⟩

/-- **The ledger and its file are a list with a file**, row by row. -/
theorem ledger_simulates :
    Simulates SnapshotFile.step LedgerWorld.rows (rowsMove sha256 signer) LedgerDocuments
      (ledgerStep sha256 signer) where
  keeps := ledgerDocuments_step
  step := by
    intro w mv w' h hstep
    cases mv with
    | append input =>
        obtain rfl := Option.some.inj hstep
        simp [rowsMove, SnapshotFile.step, LedgerWorld.rows]
    | makePayload i =>
        obtain ⟨entry, hcall, rfl⟩ := ledgerStep_makePayload hstep
        simp [rowsMove, SnapshotFile.step, LedgerWorld.rows, hcall, documentRows_document,
          List.map_set]
    | save i =>
        obtain ⟨entry, payload, hcall, rfl⟩ := ledgerStep_save hstep
        obtain ⟨es, rfl⟩ := h.payloads _ (List.mem_of_getElem? hcall) payload rfl
        simp [rowsMove, SnapshotFile.step, LedgerWorld.rows, hcall, documentRows_document,
          fileRows_save_document, List.eraseIdx_map]
    | restart =>
        obtain ⟨es, hload, rfl⟩ := Option.map_eq_some_iff.1 hstep
        obtain ⟨es', hload', hrows⟩ := h.load
        obtain rfl := Option.some.inj (hload.symm.trans hload')
        simp [rowsMove, SnapshotFile.step, LedgerWorld.rows, hrows]

theorem ledgerDocuments_start : LedgerDocuments .start := ⟨.inl rfl, nofun⟩

/-! ### Every run -/

section EveryRun

variable {w : LedgerWorld} {mvs : List LedgerMove}

/-- The file can be read, and what is read is an initial part of the ledger. -/
theorem load_prefix (h : run (ledgerStep sha256 signer) .start mvs = some w) :
    ∃ es, MissionLedger.load w.file = some es ∧ es.map row = fileRows w.file ∧
      es.map row <+: w.entries.map row := by
  have hdocs : LedgerDocuments w :=
    invariant_of_run (fun _ _ _ h hstep => ledgerDocuments_step h hstep) ledgerDocuments_start h
  obtain ⟨es, hload, hrows⟩ := hdocs.load
  refine ⟨es, hload, hrows, ?_⟩
  rw [hrows]
  exact SnapshotFile.file_prefix (ledger_simulates.run ledgerDocuments_start h)

/-- A ledger verifies if its rows are an initial part of one that does. -/
theorem verify_of_rows_prefix {es es' : List LedgerEntry}
    (h : verify sha256 es' = (true, lit "ok")) (hinitial : es.map row <+: es'.map row) :
    verify sha256 es = (true, lit "ok") := by
  have htake : es.map row = (es'.take es.length).map row := by
    have hrows := List.prefix_iff_eq_take.1 hinitial
    rwa [List.length_map, ← List.map_take] at hrows
  rw [verify_congr htake]
  exact verify_of_initial h (List.take_prefix _ _)

theorem verify_run (h : run (ledgerStep sha256 signer) .start mvs = some w) :
    verify sha256 w.entries = (true, lit "ok") := by
  refine invariant_of_history (I := fun _ w => verify sha256 w.entries = (true, lit "ok")) rfl ?_ h
  intro mvs mv w₁ w₂ hrun hw₁ hstep
  cases mv with
  | append input =>
      obtain rfl := Option.some.inj hstep
      exact verify_append hw₁ input
  | makePayload i =>
      obtain ⟨entry, -, rfl⟩ := ledgerStep_makePayload hstep
      exact hw₁
  | save i =>
      obtain ⟨entry, payload, -, rfl⟩ := ledgerStep_save hstep
      exact hw₁
  | restart =>
      -- what is read is an initial part of what was there
      obtain ⟨es, hload, rfl⟩ := Option.map_eq_some_iff.1 hstep
      obtain ⟨es', hload', -, hinitial⟩ := load_prefix hrun
      obtain rfl := Option.some.inj (hload.symm.trans hload')
      exact verify_of_rows_prefix hw₁ hinitial

/-- **Whatever the threads do and whenever the node is restarted, the ledger verifies, and so does
what the file holds, which is an initial part of the ledger.** -/
theorem ledger_survives_restarts (h : run (ledgerStep sha256 signer) .start mvs = some w) :
    verify sha256 w.entries = (true, lit "ok") ∧
      ∃ es, MissionLedger.load w.file = some es ∧ verify sha256 es = (true, lit "ok") ∧
        es.map row <+: w.entries.map row := by
  obtain ⟨es, hload, -, hinitial⟩ := load_prefix h
  exact ⟨verify_run h, es, hload, verify_of_rows_prefix (verify_run h) hinitial, hinitial⟩

/-- The order of the saves is that of the rows. -/
theorem savesInOrder_iff {mv : LedgerMove} :
    SnapshotFile.InOrder w.rows (rowsMove sha256 signer w mv) ↔ SavesInOrder w mv := by
  cases mv with
  | save i => cases hcall : w.calls[i]? <;>
      simp [rowsMove, SnapshotFile.InOrder, LedgerWorld.rows, SavesInOrder, hcall]
  | append _ => exact Iff.rfl
  | makePayload _ => exact Iff.rfl
  | restart => exact Iff.rfl

theorem returned_rows (w : LedgerWorld) (mv : LedgerMove) :
    SnapshotFile.returned w.rows (rowsMove sha256 signer w mv) = (appendReturns w mv).map row := by
  cases mv with
  | save i => cases hcall : w.calls[i]? <;>
      simp [rowsMove, SnapshotFile.returned, LedgerWorld.rows, appendReturns, hcall]
  | append _ => rfl
  | makePayload _ => rfl
  | restart => rfl

/-- **When payloads are written in order, the file holds every entry that an append has returned,
and the whole ledger when no append is open.** -/
theorem ledger_durable (hord : Along (ledgerStep sha256 signer) SavesInOrder .start mvs)
    (h : run (ledgerStep sha256 signer) .start mvs = some w) :
    ∃ es, MissionLedger.load w.file = some es ∧
      (∀ e ∈ emitted (ledgerStep sha256 signer) appendReturns .start mvs, e.row ∈ es.map row) ∧
      (w.calls = [] → es.map row = w.entries.map row) := by
  obtain ⟨es, hload, hrows, -⟩ := load_prefix h
  have hrun := ledger_simulates.run ledgerDocuments_start h
  have hord' := (ledger_simulates.along_iff ledgerDocuments_start h).2
    (hord.mono fun w mv => savesInOrder_iff.2)
  refine ⟨es, hload, fun e he => ?_, fun hrest => ?_⟩
  · have hemitted := ledger_simulates.emitted_eq (f := SnapshotFile.returned)
      ledgerDocuments_start h
    simp only [returned_rows, emitted_map] at hemitted
    rw [hrows]
    refine SnapshotFile.returned_mem_file hord' hrun e.row ?_
    exact hemitted.symm ▸ List.mem_map_of_mem he
  · rw [hrows]
    refine SnapshotFile.complete_at_rest hord' hrun ?_
    rw [LedgerWorld.rows, hrest, List.map_nil]

end EveryRun

/-- An append to a mission. -/
def appendOf (entryId : String) : AppendInput where
  entryId := lit entryId
  missionId := "m"
  eventType := .missionCreated
  actorId := "n"
  payload := .ofList [(lit "b", .num 1), (lit "a", .null)]
  timestampMs := 5
  nonce := "n0"

/-- Two appends that overlap; what they make of the ledger is written in order. -/
def overlapping : List LedgerMove :=
  [.append (appendOf "e1"), .append (appendOf "e2"), .makePayload 1, .save 1, .makePayload 0,
    .save 0, .restart]

theorem ledger_survives_restarts_overlapping :
    ∃ w, run (ledgerStep Json.stringify none) .start overlapping = some w ∧
      verify Json.stringify w.entries = (true, lit "ok") ∧
      ∃ es, MissionLedger.load w.file = some es ∧ verify Json.stringify es = (true, lit "ok") ∧
        es.map row <+: w.entries.map row := by
  have hrun : (run (ledgerStep Json.stringify none) .start overlapping).isSome = true := by
    decide +kernel
  obtain ⟨w, hw⟩ := Option.isSome_iff_exists.1 hrun
  exact ⟨w, hw, ledger_survives_restarts hw⟩

theorem ledger_durable_overlapping :
    ∃ w, run (ledgerStep Json.stringify none) .start overlapping = some w ∧
      ∃ es, MissionLedger.load w.file = some es ∧
        (∀ e ∈ emitted (ledgerStep Json.stringify none) appendReturns .start overlapping,
          e.row ∈ es.map row) ∧
        (w.calls = [] → es.map row = w.entries.map row) := by
  have hrun : (run (ledgerStep Json.stringify none) .start overlapping).isSome = true := by
    decide +kernel
  obtain ⟨w, hw⟩ := Option.isSome_iff_exists.1 hrun
  exact ⟨w, hw, ledger_durable (by decide +kernel) hw⟩

/-- Written the other way round, the entry of an append that has returned is lost: two entries are
returned, and one is left after the node is started again. -/
theorem older_payload_loses_entry :
    (run (ledgerStep Json.stringify none) .start
        [.append (appendOf "e1"), .makePayload 0, .append (appendOf "e2"), .makePayload 1, .save 1,
          .save 0, .restart]).map (fun w => w.entries.length) = some 1 ∧
      (emitted (ledgerStep Json.stringify none) appendReturns .start
        [.append (appendOf "e1"), .makePayload 0, .append (appendOf "e2"), .makePayload 1, .save 1,
          .save 0, .restart]).length = 2 := by
  decide +kernel

/-! ### The head seals the ledger -/

/-- Two entries agree in all fields but the signature, up to the order of keys. -/
structure SameEntry (e e' : LedgerEntry) : Prop where
  entryId : e.entryId = e'.entryId
  missionId : e.missionId = e'.missionId
  eventType : e.eventType = e'.eventType
  actorId : e.actorId = e'.actorId
  payload : reread e.payload.toJson = reread e'.payload.toJson
  previousHash : e.previousHash = e'.previousHash
  timestampMs : e.timestampMs = e'.timestampMs
  nonce : e.nonce = e'.nonce
  blockIndex : e.blockIndex = e'.blockIndex

/-- Entries with the same body agree. -/
theorem sameEntry_of_body_eq {e e' : LedgerEntry} (h : e.body = e'.body) : SameEntry e e' := by
  have hfield := Py.reread_field_eq e.nodup_bodyFields e'.nodup_bodyFields h
  exact {
    entryId := Json.str.inj (hfield 0 rfl rfl)
    missionId := Json.str.inj (hfield 1 rfl rfl)
    eventType := EventType.value_injective (Json.str.inj (hfield 2 rfl rfl))
    actorId := Json.str.inj (hfield 3 rfl rfl)
    payload := hfield 4 rfl rfl
    previousHash := Json.str.inj (hfield 5 rfl rfl)
    timestampMs := Js.Decimal.ofInt_injective (Json.num.inj (hfield 6 rfl rfl))
    nonce := Json.str.inj (hfield 7 rfl rfl)
    blockIndex := Js.Decimal.ofInt_injective (Json.num.inj (hfield 8 rfl rfl)) }

/-- The hashes of a ledger that verifies are those of its entries. -/
theorem cumulativeHash_of_verify {es : List LedgerEntry}
    (h : verify sha256 es = (true, lit "ok")) : ∀ e ∈ es, e.cumulativeHash = e.hash sha256 := by
  induction es using List.reverseRecOn with
  | nil => exact nofun
  | append_singleton es e ih =>
      intro x hx
      rcases List.mem_append.1 hx with hx | hx
      · exact ih (verify_of_initial h (List.prefix_append _ _)) x hx
      · obtain rfl := List.mem_singleton.1 hx
        have hlinked := (verify_eq_ok_iff.1 h).2
        rw [List.map_append, List.map_singleton] at hlinked
        obtain ⟨-, hprev, hhash⟩ := HashChain.linked_concat.1 hlinked
        exact hhash.trans (by rw [digest, ← hprev]; rfl)

/-- **The head seals the ledger**: where no digest is the word the hashes start from and the bodies
at hand do not collide, two ledgers that verify and have the same head have the same entries. -/
theorem same_head_same_entries {es es' : List LedgerEntry}
    (hne : ∀ v, sha256 v ≠ ledgerGenesis)
    (hinj : ∀ e ∈ es, ∀ e' ∈ es', e.hash sha256 = e'.hash sha256 → e.body = e'.body)
    (h : verify sha256 es = (true, lit "ok")) (h' : verify sha256 es' = (true, lit "ok"))
    (hhead : headHash sha256 es = headHash sha256 es') : List.Forall₂ SameEntry es es' := by
  have hlinked := (verify_eq_ok_iff.1 h).2
  have hlinked' := (verify_eq_ok_iff.1 h').2
  rw [headHash_eq_tail hlinked, headHash_eq_tail hlinked'] at hhead
  have hbodies : List.Forall₂ SameEntry ((es.map chain).map HashChain.Row.body)
      ((es'.map chain).map HashChain.Row.body) := by
    refine HashChain.forall₂_of_tail_eq ?_ ?_ hlinked hlinked' hhead
    · intro r hr
      rcases List.mem_append.1 hr with hr | hr
      · obtain ⟨e, he, rfl⟩ := List.mem_map.1 hr
        exact (cumulativeHash_of_verify h e he).trans_ne (hne _)
      · obtain ⟨e, he, rfl⟩ := List.mem_map.1 hr
        exact (cumulativeHash_of_verify h' e he).trans_ne (hne _)
    · intro r hr r' hr' heq
      obtain ⟨e, he, rfl⟩ := List.mem_map.1 hr
      obtain ⟨e', he', rfl⟩ := List.mem_map.1 hr'
      have hhash : e.hash sha256 = e'.hash sha256 := by
        rw [← cumulativeHash_of_verify h e he, ← cumulativeHash_of_verify h' e' he']
        exact heq
      have hsame := sameEntry_of_body_eq (hinj e he e' he' hhash)
      exact ⟨hsame.previousHash, hsame⟩
  simpa only [List.map_map, Function.comp_def, chain, List.map_id'] using hbodies

/-- A digest without collisions. -/
def markedText (v : Json) : Str := Js.unit 'x' :: Json.stringify v

/-- The same append with the keys of its payload in the other order. -/
def reordered : AppendInput :=
  { appendOf "e1" with payload := .ofList [(lit "a", .null), (lit "b", .num 1)] }

theorem same_head_same_entries_reordered :
    List.Forall₂ SameEntry [sealEntry markedText none [] (appendOf "e1")]
      [sealEntry markedText (some Json.stringify) [] reordered] := by
  refine @same_head_same_entries markedText _ _ (fun v h => ?_) (fun e _ e' _ h => ?_)
    (by decide +kernel) (by decide +kernel) (by decide +kernel)
  · exact absurd (List.cons.inj h).1 (by decide)
  · exact Json.stringify_injective (List.cons.inj h).2

end Sar
