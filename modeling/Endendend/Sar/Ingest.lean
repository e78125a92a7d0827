/-
**Ingesting envelopes** (`swarm/sar_vertex_foxmq_backend.py`).

A backend signs what it publishes with a secret of its own.  What it ingests is dispatched if it can
be read, comes from another sender, has no signature or the right one, and if its message id is
neither in the replay guard nor in the dedupe cache.  Both of these forget an id after a while.

Main definitions:

* `Sar.ReplayGuard`, `Sar.DedupeCache` — the message ids of the last two minutes and of the last
  one;
* `Sar.VertexFoxMQBackend`, with `publishKind` and `ingestRaw`;
* `Sar.ingestStep`, `Sar.dispatchedIn` — a backend that ingests one envelope after the other, and
  what it dispatches.

Main results:

* `Sar.ingestRaw_eq_dispatched_iff` — **what is dispatched**;
* `Sar.recentInv_run` — the guard and the cache hold ids that have come in;
* `Sar.guardInv_run` — an id that was dispatched is in the guard, or it is older than two minutes.
-/
import Endendend.Sar.Envelopes
import Endendend.Foundation.Runs
import Mathlib.Algebra.Order.Field.Rat

set_option relaxedAutoImplicit false
set_option autoImplicit false

namespace Sar

open Js (Str Json OrderedMap lit)
open Py (Dict)
open Runs

/-! ### Message ids with their times -/

/-- Drops the ids that are older than `ttl` seconds. -/
def purge (ttl now : ℚ) (ids : OrderedMap Str ℚ) : OrderedMap Str ℚ :=
  ids.keep fun _ ts => decide (¬ now - ts > ttl)

/-- The ids that came in during the last two minutes. -/
structure ReplayGuard where
  recent : OrderedMap Str ℚ

namespace ReplayGuard

def windowS : ℚ := 120

def new : ReplayGuard := ⟨∅⟩

/-- Notes an id, and tells whether it is a new one. -/
def record (g : ReplayGuard) (now : ℚ) (messageId : Str) : ReplayGuard × Bool :=
  let recent := purge windowS now g.recent
  if (recent.get? messageId).isSome then (⟨recent⟩, false)
  else (⟨recent.set messageId now⟩, true)

end ReplayGuard

/-- The ids that came in during the last minute, at most 4096 of them. -/
structure DedupeCache where
  items : OrderedMap Str ℚ

namespace DedupeCache

def ttlS : ℚ := 60

def maxItems : ℕ := 4096

def new : DedupeCache := ⟨∅⟩

/-- Drops the oldest ids while there are too many. -/
def bounded (items : OrderedMap Str ℚ) : OrderedMap Str ℚ :=
  let oldest := (items.entries.insertionSort fun p q => p.2 ≤ q.2).take
    (items.entries.length - maxItems)
  oldest.foldl (fun items p => items.erase p.1) items

/-- Notes an id, and tells whether it was there. -/
def seen (d : DedupeCache) (now : ℚ) (messageId : Str) : DedupeCache × Bool :=
  let items := purge ttlS now d.items
  if (items.get? messageId).isSome then (⟨items⟩, true)
  else (⟨bounded (items.set messageId now)⟩, false)

end DedupeCache

theorem get?_purge (ttl now : ℚ) (ids : OrderedMap Str ℚ) (id : Str) :
    (purge ttl now ids).get? id = (ids.get? id).filter fun ts => decide (¬ now - ts > ttl) :=
  OrderedMap.get?_keep ids _ id

/-- An id is gone after a purge if it was not there, or if it is old. -/
theorem get?_purge_eq_none_iff {ttl now : ℚ} {ids : OrderedMap Str ℚ} {id : Str} :
    (purge ttl now ids).get? id = none ↔ ∀ ts ∈ ids.get? id, ttl < now - ts := by
  rw [get?_purge, Option.filter_eq_none_iff]
  simp only [decide_eq_true_eq, not_not, gt_iff_lt, Option.mem_def]

theorem get?_of_purge {ttl now ts : ℚ} {ids : OrderedMap Str ℚ} {id : Str}
    (h : (purge ttl now ids).get? id = some ts) : ids.get? id = some ts := by
  rw [get?_purge] at h
  exact (Option.filter_eq_some_iff.1 h).1

namespace ReplayGuard

/-- An id is new if the guard does not have it, or has it for more than two minutes. -/
theorem record_new_iff {g : ReplayGuard} {now : ℚ} {id : Str} :
    (g.record now id).2 = true ↔ ∀ ts ∈ g.recent.get? id, windowS < now - ts := by
  rw [← get?_purge_eq_none_iff, record]
  split
  · next h => simp [Option.isSome_iff_ne_none.1 h]
  · next h => simpa using h

theorem get?_record_self {g : ReplayGuard} {now : ℚ} {id : Str} (h : (g.record now id).2 = true) :
    (g.record now id).1.recent.get? id = some now := by
  rw [record_new_iff, ← get?_purge_eq_none_iff] at h
  rw [record, if_neg (by simp [h])]
  exact OrderedMap.get?_set_self _ _ _

/-- An id that the guard has stays there, unless it is old. -/
theorem get?_record_of_get? {g : ReplayGuard} {id : Str} {ts : ℚ} (h : g.recent.get? id = some ts)
    (now : ℚ) (id' : Str) :
    (g.record now id').1.recent.get? id = some ts ∨ windowS < now - ts := by
  by_cases hold : windowS < now - ts
  · exact Or.inr hold
  · have hpurge : (purge windowS now g.recent).get? id = some ts := by
      rw [get?_purge, h, Option.filter_some, if_pos (by simpa using hold)]
    refine Or.inl ?_
    rw [record]
    split
    · exact hpurge
    · next hnew =>
        have hne : id ≠ id' := by
          rintro rfl
          exact hnew (by rw [hpurge]; rfl)
        exact (OrderedMap.get?_set _ _ _ _).trans ((if_neg hne).trans hpurge)

/-- Only the id that is noted comes in. -/
theorem get?_of_record {g : ReplayGuard} {now : ℚ} {id id' : Str} {ts : ℚ}
    (h : (g.record now id').1.recent.get? id = some ts) :
    g.recent.get? id = some ts ∨ id = id' := by
  rw [record] at h
  split at h
  · exact Or.inl (get?_of_purge h)
  · by_cases hid : id = id'
    · exact Or.inr hid
    · have hget : ((purge windowS now g.recent).set id' now).get? id = some ts := h
      rw [OrderedMap.get?_set, if_neg hid] at hget
      exact Or.inl (get?_of_purge hget)

end ReplayGuard

namespace DedupeCache

theorem seen_eq_false_iff {d : DedupeCache} {now : ℚ} {id : Str} :
    (d.seen now id).2 = false ↔ ∀ ts ∈ d.items.get? id, ttlS < now - ts := by
  rw [← get?_purge_eq_none_iff, seen]
  split
  · next h => simp [Option.isSome_iff_ne_none.1 h]
  · next h => simpa using h

theorem get?_of_foldl_erase {items : OrderedMap Str ℚ} {l : List (Str × ℚ)} {id : Str} {ts : ℚ}
    (h : (l.foldl (fun items p => items.erase p.1) items).get? id = some ts) :
    items.get? id = some ts := by
  induction l generalizing items with
  | nil => exact h
  | cons p l ih =>
      have herase := ih h
      rw [OrderedMap.get?_erase] at herase
      split at herase
      · cases herase
      · exact herase

/-- Bounding the cache adds nothing. -/
theorem get?_of_bounded {items : OrderedMap Str ℚ} {id : Str} {ts : ℚ}
    (h : (bounded items).get? id = some ts) : items.get? id = some ts := by
  unfold bounded at h
  exact get?_of_foldl_erase h

theorem get?_of_seen {d : DedupeCache} {now : ℚ} {id id' : Str} {ts : ℚ}
    (h : (d.seen now id').1.items.get? id = some ts) :
    d.items.get? id = some ts ∨ id = id' := by
  rw [seen] at h
  split at h
  · exact Or.inl (get?_of_purge h)
  · by_cases hid : id = id'
    · exact Or.inr hid
    · dsimp only at h
      have hget := get?_of_bounded h
      rw [OrderedMap.get?_set, if_neg hid] at hget
      exact Or.inl (get?_of_purge hget)

/-- An id that was just noted has the time at which it was noted. -/
theorem eq_of_seen {d : DedupeCache} {now : ℚ} {id : Str} {ts : ℚ}
    (hnew : (d.seen now id).2 = false) (h : (d.seen now id).1.items.get? id = some ts) :
    ts = now := by
  rw [seen_eq_false_iff, ← get?_purge_eq_none_iff] at hnew
  rw [seen, if_neg (by simp [hnew])] at h
  dsimp only at h
  have hget := get?_of_bounded h
  rw [OrderedMap.get?_set_self] at hget
  exact (Option.some.inj hget).symm

end DedupeCache

/-! ### Backends -/

/-- The identity of a node, with the secret that was drawn for it. -/
structure NodeIdentity (Secret : Type*) where
  nodeId : Str
  secret : Secret

structure VertexFoxMQBackend (Secret : Type*) where
  identity : NodeIdentity Secret
  p2pSigner : P2PSigner Secret
  replayGuard : ReplayGuard
  dedupe : DedupeCache

structure BackendBootstrapConfig where
  nodeId : Str
  useMockVertex : Bool
  useMockFoxmq : Bool

variable {Secret : Type*}

/-- A backend for an identity: it signs with the secret of the identity. -/
def VertexFoxMQBackend.new (identity : NodeIdentity Secret) : VertexFoxMQBackend Secret :=
  ⟨identity, ⟨identity.secret⟩, .new, .new⟩

/-- A backend with a newly drawn secret; only the mock engines can be configured. -/
def buildBackend (cfg : BackendBootstrapConfig) (urandom : Secret) :
    Option (VertexFoxMQBackend Secret) :=
  if ¬ cfg.useMockVertex then none
  else if ¬ cfg.useMockFoxmq then none
  else some (.new ⟨cfg.nodeId, urandom⟩)

/-- `msg-` and twelve hexadecimal digits. -/
def messageIdOf (bits : ℕ) : Str :=
  lit "msg-" ++ (List.range 12).map fun i => Js.hexDigit (bits / 16 ^ (11 - i) % 16)

/-- What a node asks to be published. -/
structure Publication where
  kind : Str
  topic : Str
  payload : Dict
  ttl : ℤ
  correlationId : Option Str
  replyTo : Option Str

/-- `None` or a string. -/
def optional (s : Option Str) : Json := s.elim .null .str

variable (H : Hmac Secret) (c : Conversions)

namespace VertexFoxMQBackend

variable (b : VertexFoxMQBackend Secret)

/-- The envelope before it is signed. -/
def unsigned (p : Publication) (bits : ℕ) (now : ℤ) : P2PEnvelope where
  messageId := messageIdOf bits
  kind := p.kind
  senderId := b.identity.nodeId
  topic := p.topic
  payload := p.payload
  timestampMs := now
  ttl := p.ttl
  seq := 0
  correlationId := optional p.correlationId
  replyTo := optional p.replyTo
  signature := .null

/-- The envelope that a backend publishes. -/
def publishKind (p : Publication) (bits : ℕ) (now : ℤ) : P2PEnvelope :=
  let envelope := b.unsigned p bits now
  { envelope with signature := .str (b.p2pSigner.sign H envelope) }

end VertexFoxMQBackend

/-- What comes in: a text, of which `raw` is the JSON value if it is JSON, and what the clock shows
each time it is read. -/
structure Arrival where
  raw : Option Json
  nowMs : ℤ
  recordedAt : ℚ
  seenAt : ℚ

/-- What becomes of an envelope. -/
inductive Outcome
  | badPayload
  | own
  | raised
  | signatureFailure
  | replay
  | duplicate
  | dispatched (envelope : P2PEnvelope)
  deriving DecidableEq

/-- The envelope that comes in, if it can be read. -/
def Arrival.envelope (a : Arrival) : Option P2PEnvelope := P2PEnvelope.fromJson c a.nowMs a.raw

namespace VertexFoxMQBackend

variable (b : VertexFoxMQBackend Secret)

/-- An envelope without a signature passes; comparing the signature may raise. -/
def checkSignature (e : P2PEnvelope) : Option Bool :=
  if Py.holds e.signature then b.p2pSigner.verify H e e.signature else some true

/-- An envelope that has passed is dispatched if the guard and the cache do not know its id. -/
def takeIn (e : P2PEnvelope) (a : Arrival) : VertexFoxMQBackend Secret × Outcome :=
  let recorded := b.replayGuard.record a.recordedAt e.messageId
  if recorded.2 then
    let seen := b.dedupe.seen a.seenAt e.messageId
    ({ b with replayGuard := recorded.1, dedupe := seen.1 },
      if seen.2 then .duplicate else .dispatched e)
  else ({ b with replayGuard := recorded.1 }, .replay)

def ingestRaw (a : Arrival) : VertexFoxMQBackend Secret × Outcome :=
  match a.envelope c with
  | none => (b, .badPayload)
  | some e =>
    if e.senderId = b.identity.nodeId then (b, .own)
    else match b.checkSignature H e with
      | none => (b, .raised)
      | some false => (b, .signatureFailure)
      | some true => b.takeIn e a

end VertexFoxMQBackend

/-- A backend ingests an envelope. -/
def ingestStep (b : VertexFoxMQBackend Secret) (a : Arrival) :
    Option (VertexFoxMQBackend Secret) :=
  some (b.ingestRaw H c a).1

/-- The message id that is dispatched when an envelope comes in, and what the clock shows. -/
def dispatches (b : VertexFoxMQBackend Secret) (a : Arrival) : Option (Str × ℚ) :=
  match (b.ingestRaw H c a).2 with
  | .dispatched e => some (e.messageId, a.recordedAt)
  | _ => none

/-- The message ids that a backend dispatches one after the other. -/
def dispatchedIn (b : VertexFoxMQBackend Secret) (l : List Arrival) : List (Str × ℚ) :=
  emitted (ingestStep H c) (dispatches H c) b l

/-! ### What is dispatched -/

variable {H c} {b b' : VertexFoxMQBackend Secret} {a : Arrival}

/-- **An envelope is held back and leaves no trace, or it is taken in**: it could be read, comes
from another sender, and has no signature or the right one. -/
theorem ingestRaw_cases (b : VertexFoxMQBackend Secret) (a : Arrival) :
    ((b.ingestRaw H c a).1 = b ∧ ∀ e, (b.ingestRaw H c a).2 ≠ .dispatched e) ∨
      ∃ e, a.envelope c = some e ∧ e.senderId ≠ b.identity.nodeId ∧
        b.checkSignature H e = some true ∧ b.ingestRaw H c a = b.takeIn e a := by
  rw [VertexFoxMQBackend.ingestRaw]
  cases he : a.envelope c with
  | none => exact Or.inl ⟨rfl, fun _ h => by cases h⟩
  | some e =>
      dsimp only
      by_cases hown : e.senderId = b.identity.nodeId
      · rw [if_pos hown]
        exact Or.inl ⟨rfl, fun _ h => by cases h⟩
      · rw [if_neg hown]
        cases hcheck : b.checkSignature H e with
        | none => exact Or.inl ⟨rfl, fun _ h => by cases h⟩
        | some ok =>
            cases ok with
            | false => exact Or.inl ⟨rfl, fun _ h => by cases h⟩
            | true => exact Or.inr ⟨e, rfl, hown, hcheck, rfl⟩

theorem takeIn_eq_dispatched_iff {e e' : P2PEnvelope} :
    (b.takeIn e' a).2 = .dispatched e ↔ e' = e ∧
      (b.replayGuard.record a.recordedAt e'.messageId).2 = true ∧
        (b.dedupe.seen a.seenAt e'.messageId).2 = false := by
  rw [VertexFoxMQBackend.takeIn]
  cases hnew : (b.replayGuard.record a.recordedAt e'.messageId).2 with
  | false => simp
  | true => cases hseen : (b.dedupe.seen a.seenAt e'.messageId).2 <;> simp [hseen]

/-- **What is dispatched**: an envelope that could be read, of another sender, with no signature or
the right one, and with an id that neither the guard nor the cache knows. -/
theorem ingestRaw_eq_dispatched_iff {e : P2PEnvelope} :
    (b.ingestRaw H c a).2 = .dispatched e ↔
      a.envelope c = some e ∧ e.senderId ≠ b.identity.nodeId ∧ b.checkSignature H e = some true ∧
        (b.replayGuard.record a.recordedAt e.messageId).2 = true ∧
        (b.dedupe.seen a.seenAt e.messageId).2 = false := by
  constructor
  · intro h
    obtain ⟨-, hnot⟩ | ⟨e', he', hown, hcheck, heq⟩ := @ingestRaw_cases _ H c b a
    · exact absurd h (hnot e)
    · rw [heq] at h
      obtain ⟨rfl, hids⟩ := takeIn_eq_dispatched_iff.1 h
      exact ⟨he', hown, hcheck, hids⟩
  · rintro ⟨he, hown, hcheck, hids⟩
    rw [VertexFoxMQBackend.ingestRaw, he]
    dsimp only
    rw [if_neg hown, hcheck]
    exact takeIn_eq_dispatched_iff.2 ⟨rfl, hids⟩

theorem dispatches_eq_some_iff {p : Str × ℚ} :
    dispatches H c b a = some p ↔
      ∃ e, (b.ingestRaw H c a).2 = .dispatched e ∧ p = (e.messageId, a.recordedAt) := by
  rw [dispatches]
  cases (b.ingestRaw H c a).2 <;> simp [eq_comm]

/-! ### Runs -/

variable {b₀ : VertexFoxMQBackend Secret} {l : List Arrival}

theorem dispatchedIn_concat (h : run (ingestStep H c) b₀ l = some b) :
    dispatchedIn H c b₀ (l ++ [a]) = dispatchedIn H c b₀ l ++ (dispatches H c b a).toList :=
  emitted_concat (dispatches H c) a h

/-- A backend keeps its identity and its secret. -/
theorem identity_run (h : run (ingestStep H c) b₀ l = some b) :
    b.identity = b₀.identity ∧ b.p2pSigner = b₀.p2pSigner := by
  refine invariant_of_run (I := fun b => b.identity = b₀.identity ∧ b.p2pSigner = b₀.p2pSigner)
    ?_ ⟨rfl, rfl⟩ h
  intro b a b' hb hs
  obtain rfl := Option.some.inj hs
  obtain ⟨hsame, -⟩ | ⟨e, -, -, -, heq⟩ := @ingestRaw_cases _ H c b a
  · rw [hsame]
    exact hb
  · rw [heq, VertexFoxMQBackend.takeIn]
    split <;> exact hb

/-- The ids that a backend knows are those of envelopes that have come in. -/
def RecentInv (c : Conversions) (l : List Arrival) (b : VertexFoxMQBackend Secret) : Prop :=
  ∀ id ts, b.replayGuard.recent.get? id = some ts ∨ b.dedupe.items.get? id = some ts →
    ∃ a ∈ l, ∃ e, a.envelope c = some e ∧ e.messageId = id

/-- **The guard and the cache hold ids that have come in.** -/
theorem recentInv_run {identity : NodeIdentity Secret}
    (h : run (ingestStep H c) (.new identity) l = some b) : RecentInv c l b := by
  refine invariant_of_history (I := fun l b => RecentInv c l b) ?_ ?_ h
  · rintro id ts (h | h) <;> cases h
  · intro l a b₁ b₂ h₁ hinv hs id ts hts
    have hold : ∀ ts', b₁.replayGuard.recent.get? id = some ts' ∨
        b₁.dedupe.items.get? id = some ts' →
        ∃ a' ∈ l ++ [a], ∃ e, a'.envelope c = some e ∧ e.messageId = id := by
      intro ts' hts'
      obtain ⟨a', ha', he⟩ := hinv id ts' hts'
      exact ⟨a', List.mem_append_left _ ha', he⟩
    obtain rfl := Option.some.inj hs
    obtain ⟨hsame, -⟩ | ⟨e, he, -, -, heq⟩ := @ingestRaw_cases _ H c b₁ a
    · rw [hsame] at hts
      exact hold ts hts
    · have hin : e.messageId = id →
          ∃ a' ∈ l ++ [a], ∃ e, a'.envelope c = some e ∧ e.messageId = id :=
        fun hid => ⟨a, List.mem_append_right _ (List.mem_singleton.2 rfl), e, he, hid⟩
      have hguard : ∀ {ts'}, (b₁.replayGuard.record a.recordedAt e.messageId).1.recent.get? id =
          some ts' → ∃ a' ∈ l ++ [a], ∃ e, a'.envelope c = some e ∧ e.messageId = id := by
        intro ts' hts'
        obtain hts' | hid := ReplayGuard.get?_of_record hts'
        · exact hold ts' (Or.inl hts')
        · exact hin hid.symm
      rw [heq, VertexFoxMQBackend.takeIn] at hts
      dsimp only at hts
      split at hts
      · obtain hts | hts := hts
        · exact hguard hts
        · obtain hts | hid := DedupeCache.get?_of_seen hts
          · exact hold ts (Or.inr hts)
          · exact hin hid.symm
      · obtain hts | hts := hts
        · exact hguard hts
        · exact hold ts (Or.inr hts)

/-- An id that was dispatched is in the guard, or it is older than two minutes. -/
def GuardInv (H : Hmac Secret) (c : Conversions) (b₀ : VertexFoxMQBackend Secret)
    (l : List Arrival) (b : VertexFoxMQBackend Secret) : Prop :=
  ∀ p ∈ dispatchedIn H c b₀ l,
    (∃ ts, b.replayGuard.recent.get? p.1 = some ts ∧ p.2 ≤ ts) ∨
      ∃ a ∈ l, ReplayGuard.windowS < a.recordedAt - p.2

theorem guardInv_run (h : run (ingestStep H c) b₀ l = some b) : GuardInv H c b₀ l b := by
  refine invariant_of_history (I := fun l b => GuardInv H c b₀ l b) ?_ ?_ h
  · intro p hp
    cases hp
  · intro l a b₁ b₂ h₁ hinv hs p hp
    rw [dispatchedIn_concat h₁] at hp
    have hlast : a ∈ l ++ [a] := List.mem_append_right _ (List.mem_singleton.2 rfl)
    obtain rfl := Option.some.inj hs
    obtain hp | hp := List.mem_append.1 hp
    · obtain ⟨ts, hts, hle⟩ | ⟨a', ha', hold⟩ := hinv p hp
      · obtain ⟨hsame, -⟩ | ⟨e, -, -, -, heq⟩ := @ingestRaw_cases _ H c b₁ a
        · rw [hsame]
          exact Or.inl ⟨ts, hts, hle⟩
        · have hguard : (b₁.ingestRaw H c a).1.replayGuard =
              (b₁.replayGuard.record a.recordedAt e.messageId).1 := by
            rw [heq, VertexFoxMQBackend.takeIn]
            split <;> rfl
          rw [hguard]
          obtain hkept | hgone := ReplayGuard.get?_record_of_get? hts a.recordedAt e.messageId
          · exact Or.inl ⟨ts, hkept, hle⟩
          · exact Or.inr ⟨a, hlast, by linarith⟩
      · exact Or.inr ⟨a', List.mem_append_left _ ha', hold⟩
    · obtain ⟨e, he, rfl⟩ := dispatches_eq_some_iff.1 (Option.mem_toList.1 hp)
      obtain ⟨henv, hown, hcheck, hnew, hunseen⟩ := ingestRaw_eq_dispatched_iff.1 he
      refine Or.inl ⟨a.recordedAt, ?_, le_rfl⟩
      obtain ⟨-, hnot⟩ | ⟨e', he', -, -, heq⟩ := @ingestRaw_cases _ H c b₁ a
      · exact absurd he (hnot e)
      · obtain rfl := Option.some.inj (henv.symm.trans he')
        rw [heq, VertexFoxMQBackend.takeIn, hnew]
        exact ReplayGuard.get?_record_self hnew

end Sar
