/-
**The event ledger of the recovery plane** (`EventLedgerStore` of
`shared/tashi-task-bidding-recovery.ts`).

One chain of events for all missions, and for each mission the slice of the chain that is its own.
The payloads are of any type that prints as JSON.

Main definitions:

* `Recovery.LedgerEvent`, `Recovery.EventLedgerStore` — the events and the store; that the slices
  are those of the chain is a field;
* `Recovery.EventLedgerStore.append`, `lastHash`, `missionEventsAfter`, `verify` — the operations.

Main results:

* `Recovery.verify_append` — an append keeps a ledger that verifies;
* `Recovery.cumulativeHash_nodup` — **no two events of a ledger that verifies have the same hash**;
* `Recovery.missionEventsAfter_of_split`, `Recovery.missionEventsAfter_of_notMem` — what follows a
  hash of the slice, and what follows any other.
-/
import Endendend.Foundation.OrderedMap
import Endendend.Tashi.StableStringify
import Endendend.Vertex.StableStringify

set_option relaxedAutoImplicit false
set_option autoImplicit false

namespace Recovery

open Js

variable {P : Type*}

/-! ### Events -/

/-- What the caller of an append provides. -/
structure LedgerEntry (P : Type*) where
  missionId : Str
  kind : Str
  actorId : Str
  payload : P

/-- An event before it is signed. -/
structure LedgerBase (P : Type*) extends LedgerEntry P where
  eventId : Str
  previousHash : Str
  timestampMs : Decimal
  nonce : Str
  blockIndex : ℕ

/-- An event of the ledger. -/
structure LedgerEvent (P : Type*) extends LedgerBase P where
  signature : Str
  cumulativeHash : Str

/-- The ids drawn and the clock read by one append. -/
structure Draw where
  eventId : Str
  nonce : Str
  nowMs : Decimal

/-- The hash a chain starts from. -/
def genesis : Str := "genesis"

/-! ### Hashes -/

section Hash

variable (sha256 : Str → List UInt8) (payloadJson : P → Json)

/-- The digest of a text in hexadecimal. -/
def hashText (input : Str) : Str := Vertex.sha256Hex sha256 input

def hashObject (value : Json) : Str := hashText sha256 (Tashi.stableStringify value)

/-- The fields of an unsigned event. -/
def LedgerBase.fields (base : LedgerBase P) : List (Str × Json) :=
  [("eventId", .str base.eventId), ("missionId", .str base.missionId), ("kind", .str base.kind),
    ("actorId", .str base.actorId), ("payload", payloadJson base.payload),
    ("previousHash", .str base.previousHash), ("timestampMs", .num base.timestampMs),
    ("nonce", .str base.nonce), ("blockIndex", .num (.ofInt base.blockIndex))]

/-- `hashObject(base)`. -/
def signatureOf (base : LedgerBase P) : Str := hashObject sha256 (.obj (base.fields payloadJson))

/-- `hashObject({ ...base, signature })`. -/
def cumulativeHashOf (base : LedgerBase P) (signature : Str) : Str :=
  hashObject sha256 (.obj (base.fields payloadJson ++ [(lit "signature", .str signature)]))

end Hash

/-! ### The store -/

/-- The ledger: all events, oldest first, and the events of each mission. -/
structure EventLedgerStore (P : Type*) where
  entries : List (LedgerEvent P)
  byMission : OrderedMap Str (List (LedgerEvent P))
  /-- The slice of a mission is its part of the ledger. -/
  indexed : ∀ missionId,
    (byMission.get? missionId).getD [] = entries.filter fun e => e.missionId = missionId

namespace EventLedgerStore

/-- The ledger without events. -/
def empty : EventLedgerStore P := ⟨[], ∅, fun _ => rfl⟩

/-- The hash of the last event. -/
def lastHash (store : EventLedgerStore P) : Str :=
  match store.entries.getLast? with
  | some e => e.cumulativeHash
  | none => genesis

def byMissionId (store : EventLedgerStore P) (missionId : Str) : List (LedgerEvent P) :=
  (store.byMission.get? missionId).getD []

/-- The events of a mission strictly after a hash; all of them if the hash is not among them. -/
def missionEventsAfter (store : EventLedgerStore P) (missionId : Str)
    (afterCumulativeHash : Option Str) : List (LedgerEvent P) :=
  let list := store.byMissionId missionId
  match afterCumulativeHash with
  | none => list
  | some hash =>
    if hash = [] ∨ hash = genesis then list
    else
      match list.findIdx? fun e => e.cumulativeHash = hash with
      | none => list
      | some idx => list.drop (idx + 1)

/-- Adds an event to the chain and to the slice of its mission. -/
def push (store : EventLedgerStore P) (e : LedgerEvent P) : EventLedgerStore P where
  entries := store.entries ++ [e]
  byMission := store.byMission.set e.missionId (store.byMissionId e.missionId ++ [e])
  indexed := by
    intro m
    rw [OrderedMap.get?_set, List.filter_append, List.filter_singleton, ← store.indexed m]
    by_cases hm : m = e.missionId
    · subst hm
      simp [byMissionId]
    · simp [hm, Ne.symm hm]

/-- The event an append seals. -/
def record (sha256 : Str → List UInt8) (payloadJson : P → Json) (store : EventLedgerStore P)
    (entry : LedgerEntry P) (d : Draw) : LedgerEvent P :=
  let base : LedgerBase P :=
    { entry with
      eventId := d.eventId
      previousHash := store.lastHash
      timestampMs := d.nowMs
      nonce := d.nonce
      blockIndex := store.entries.length }
  let signature := signatureOf sha256 payloadJson base
  { base with signature, cumulativeHash := cumulativeHashOf sha256 payloadJson base signature }

def append (sha256 : Str → List UInt8) (payloadJson : P → Json) (store : EventLedgerStore P)
    (entry : LedgerEntry P) (d : Draw) : EventLedgerStore P :=
  store.push (store.record sha256 payloadJson entry d)

@[simp] theorem byMissionId_eq (store : EventLedgerStore P) (missionId : Str) :
    store.byMissionId missionId = store.entries.filter fun e => e.missionId = missionId :=
  store.indexed missionId

@[simp] theorem entries_append (sha256 : Str → List UInt8) (payloadJson : P → Json)
    (store : EventLedgerStore P) (entry : LedgerEntry P) (d : Draw) :
    (store.append sha256 payloadJson entry d).entries =
      store.entries ++ [store.record sha256 payloadJson entry d] := rfl

end EventLedgerStore

/-! ### Verification -/

/-- Why a ledger is refused. -/
inductive LedgerFault
  | badBlockIndex
  | badPreviousHash
  | badSignature
  | badHash
  deriving DecidableEq

/-- The verdict of a verification. -/
inductive LedgerVerdict
  | ok
  | failed (reason : LedgerFault) (index : ℕ)
  deriving DecidableEq

section Verify

variable (sha256 : Str → List UInt8) (payloadJson : P → Json)

/-- The loop of the verification, at event `i` with the hash of the event before. -/
def verifyFrom : ℕ → Str → List (LedgerEvent P) → LedgerVerdict
  | _, _, [] => .ok
  | i, previous, e :: entries =>
    if e.blockIndex ≠ i then .failed .badBlockIndex i
    else if e.previousHash ≠ previous then .failed .badPreviousHash i
    else if e.signature ≠ signatureOf sha256 payloadJson e.toLedgerBase then
      .failed .badSignature i
    else if e.cumulativeHash ≠ cumulativeHashOf sha256 payloadJson e.toLedgerBase e.signature then
      .failed .badHash i
    else verifyFrom (i + 1) e.cumulativeHash entries

def EventLedgerStore.verify (store : EventLedgerStore P) : LedgerVerdict :=
  verifyFrom sha256 payloadJson 0 genesis store.entries

/-- The event that stands at place `i` after the hash `previous` is sealed as it should be. -/
structure SealedAt (i : ℕ) (previous : Str) (e : LedgerEvent P) : Prop where
  blockIndex : e.blockIndex = i
  previousHash : e.previousHash = previous
  signature : e.signature = signatureOf sha256 payloadJson e.toLedgerBase
  cumulativeHash :
    e.cumulativeHash = cumulativeHashOf sha256 payloadJson e.toLedgerBase e.signature

variable {sha256 payloadJson}

theorem verifyFrom_cons {i : ℕ} {previous : Str} {e : LedgerEvent P} {l : List (LedgerEvent P)} :
    verifyFrom sha256 payloadJson i previous (e :: l) = .ok ↔
      SealedAt sha256 payloadJson i previous e ∧
        verifyFrom sha256 payloadJson (i + 1) e.cumulativeHash l = .ok := by
  rw [verifyFrom]
  constructor
  · intro h
    split_ifs at h with h₁ h₂ h₃ h₄
    exact ⟨⟨not_not.1 h₁, not_not.1 h₂, not_not.1 h₃, not_not.1 h₄⟩, h⟩
  · rintro ⟨hs, h⟩
    rwa [if_neg (not_not.2 hs.blockIndex), if_neg (not_not.2 hs.previousHash),
      if_neg (not_not.2 hs.signature), if_neg (not_not.2 hs.cumulativeHash)]

/-- The hash that the event after a list points to. -/
def headAfter (previous : Str) (l : List (LedgerEvent P)) : Str :=
  match l.getLast? with
  | some e => e.cumulativeHash
  | none => previous

theorem headAfter_cons (previous : Str) (e : LedgerEvent P) (l : List (LedgerEvent P)) :
    headAfter previous (e :: l) = headAfter e.cumulativeHash l := by
  cases l using List.reverseRecOn with
  | nil => rfl
  | append_singleton l f => simp [headAfter, List.getLast?_cons]

theorem verifyFrom_concat {i : ℕ} {previous : Str} {l : List (LedgerEvent P)}
    {e : LedgerEvent P} :
    verifyFrom sha256 payloadJson i previous (l ++ [e]) = .ok ↔
      verifyFrom sha256 payloadJson i previous l = .ok ∧
        SealedAt sha256 payloadJson (i + l.length) (headAfter previous l) e := by
  induction l generalizing i previous with
  | nil =>
      rw [List.nil_append, verifyFrom_cons]
      simp [verifyFrom, headAfter]
  | cons f l ih =>
      rw [List.cons_append, verifyFrom_cons, ih, verifyFrom_cons, headAfter_cons, List.length_cons,
        and_assoc, Nat.add_right_comm, Nat.add_assoc]

/-- **An append keeps a ledger that verifies.** -/
theorem verify_append {store : EventLedgerStore P}
    (h : store.verify sha256 payloadJson = .ok) (entry : LedgerEntry P) (d : Draw) :
    (store.append sha256 payloadJson entry d).verify sha256 payloadJson = .ok := by
  rw [EventLedgerStore.verify, EventLedgerStore.entries_append, verifyFrom_concat]
  exact ⟨h, ⟨(Nat.zero_add _).symm, rfl, rfl, rfl⟩⟩

theorem sealedAt_of_verifyFrom {i : ℕ} {previous : Str} {l : List (LedgerEvent P)}
    (h : verifyFrom sha256 payloadJson i previous l = .ok) {e : LedgerEvent P} (he : e ∈ l) :
    e.cumulativeHash = cumulativeHashOf sha256 payloadJson e.toLedgerBase e.signature ∧
      i ≤ e.blockIndex := by
  induction l generalizing i previous with
  | nil => exact absurd he List.not_mem_nil
  | cons f l ih =>
      obtain ⟨hf, h⟩ := verifyFrom_cons.1 h
      rcases List.mem_cons.1 he with rfl | he
      · exact ⟨hf.cumulativeHash, hf.blockIndex.ge⟩
      · exact ⟨(ih h he).1, Nat.le_of_succ_le (ih h he).2⟩

/-- The hash of an event tells its place: the index is one of the fields that are hashed. -/
theorem blockIndex_eq_of_cumulativeHash_eq (hinj : Function.Injective (hashText sha256))
    {b c : LedgerBase P} {s t : Str}
    (h : cumulativeHashOf sha256 payloadJson b s = cumulativeHashOf sha256 payloadJson c t) :
    b.blockIndex = c.blockIndex := by
  have hmem := Tashi.mem_helperFields_of_stableStringify_eq (hinj h) (k := "blockIndex")
    (v := .num (.ofInt b.blockIndex)) (by decide) (by
      rw [Tashi.helperFields_eq_map]
      exact List.mem_map.2 ⟨("blockIndex", .num (.ofInt b.blockIndex)), by simp [LedgerBase.fields],
        rfl⟩)
  rw [Tashi.helperFields_eq_map] at hmem
  obtain ⟨⟨k, v⟩, hkv, heq⟩ := List.mem_map.1 hmem
  obtain ⟨rfl, hv⟩ := Prod.mk.inj heq
  -- no other field has this key
  simp only [LedgerBase.fields, List.cons_append, List.nil_append, List.mem_cons, Prod.mk.injEq,
    List.not_mem_nil, or_false,
    show lit "blockIndex" ≠ lit "eventId" by decide,
    show lit "blockIndex" ≠ lit "missionId" by decide,
    show lit "blockIndex" ≠ lit "kind" by decide, show lit "blockIndex" ≠ lit "actorId" by decide,
    show lit "blockIndex" ≠ lit "payload" by decide,
    show lit "blockIndex" ≠ lit "previousHash" by decide,
    show lit "blockIndex" ≠ lit "timestampMs" by decide,
    show lit "blockIndex" ≠ lit "nonce" by decide,
    show lit "blockIndex" ≠ lit "signature" by decide, false_and, false_or, true_and] at hkv
  subst hkv
  simp only [Tashi.helper, Json.num.injEq] at hv
  exact_mod_cast (Decimal.ofInt_injective hv).symm

/-- **No two events of a ledger that verifies have the same hash.** -/
theorem cumulativeHash_nodup (hinj : Function.Injective (hashText sha256)) {i : ℕ} {previous : Str}
    {l : List (LedgerEvent P)} (h : verifyFrom sha256 payloadJson i previous l = .ok) :
    (l.map fun e => e.cumulativeHash).Nodup := by
  induction l generalizing i previous with
  | nil => exact List.nodup_nil
  | cons e l ih =>
      obtain ⟨he, h⟩ := verifyFrom_cons.1 h
      refine List.nodup_cons.2 ⟨fun hmem => ?_, ih h⟩
      obtain ⟨f, hf, hfe⟩ := List.mem_map.1 hmem
      obtain ⟨hhash, hindex⟩ := sealedAt_of_verifyFrom h hf
      have := blockIndex_eq_of_cumulativeHash_eq hinj
        (hhash.symm.trans (hfe.trans he.cumulativeHash))
      have := he.blockIndex
      omega

/-- A hash is neither empty nor the start of the chain. -/
theorem cumulativeHash_ne (hne : ∀ s, hashText sha256 s ≠ []) {i : ℕ} {previous : Str}
    {l : List (LedgerEvent P)} (h : verifyFrom sha256 payloadJson i previous l = .ok)
    {e : LedgerEvent P} (he : e ∈ l) : e.cumulativeHash ≠ [] ∧ e.cumulativeHash ≠ genesis := by
  rw [(sealedAt_of_verifyFrom h he).1]
  exact ⟨hne _, Vertex.sha256Hex_ne_genesis _ _⟩

end Verify

/-! ### The tail of a slice -/

/-- After the hash of an event of the slice come the events after it. -/
theorem missionEventsAfter_of_split {store : EventLedgerStore P} {m : Str}
    {l r : List (LedgerEvent P)} {e : LedgerEvent P}
    (hslice : (store.entries.filter fun e => e.missionId = m) = l ++ e :: r)
    (hnodup : (store.entries.map fun e => e.cumulativeHash).Nodup)
    (hne : e.cumulativeHash ≠ [] ∧ e.cumulativeHash ≠ genesis) :
    store.missionEventsAfter m (some e.cumulativeHash) = r := by
  have hslice' := hnodup.sublist ((List.filter_sublist (p := fun e => e.missionId = m)).map _)
  rw [hslice, List.map_append, List.map_cons, List.nodup_middle, List.nodup_cons] at hslice'
  have hidx : (l ++ e :: r).findIdx? (fun f => decide (f.cumulativeHash = e.cumulativeHash)) =
      some l.length := by
    have hl : l.findIdx? (fun f => decide (f.cumulativeHash = e.cumulativeHash)) = none := by
      rw [List.findIdx?_eq_none_iff]
      intro f hf
      refine decide_eq_false fun hfe => hslice'.1 ?_
      rw [← hfe]
      exact List.mem_append_left _ (List.mem_map_of_mem hf)
    rw [List.findIdx?_append, hl]
    simp [List.findIdx?_cons]
  simp only [EventLedgerStore.missionEventsAfter, EventLedgerStore.byMissionId_eq, hslice, hidx,
    if_neg (not_or.2 hne)]
  rw [List.drop_append, List.drop_of_length_le (by omega), Nat.add_sub_cancel_left]
  rfl

/-- After any other hash come all events of the mission. -/
theorem missionEventsAfter_of_notMem {store : EventLedgerStore P} {m : Str} {hash : Str}
    (h : ∀ e ∈ store.entries, e.missionId = m → e.cumulativeHash ≠ hash) :
    store.missionEventsAfter m (some hash) =
      store.entries.filter fun e => e.missionId = m := by
  simp only [EventLedgerStore.missionEventsAfter, EventLedgerStore.byMissionId_eq]
  have hidx : (store.entries.filter fun e => e.missionId = m).findIdx?
      (fun e => decide (e.cumulativeHash = hash)) = none := by
    rw [List.findIdx?_eq_none_iff]
    intro e he
    obtain ⟨he, hm⟩ := List.mem_filter.1 he
    exact decide_eq_false (h e he (of_decide_eq_true hm))
  rw [hidx]
  split <;> rfl

end Recovery
