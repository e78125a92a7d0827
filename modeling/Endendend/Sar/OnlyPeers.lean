/-
**Who is heard** (`swarm/sar_vertex_foxmq_backend.py`).

An envelope that was altered after it was signed is dropped, and an id is not dispatched twice
within two minutes.  But an envelope that has no signature is not checked at all, and after two
minutes an id is new again.  An envelope that was signed is checked with the secret of the backend
that ingests it, so it passes only if both backends were given the same secret.

Main definitions:

* `Sar.Heard`, `Sar.AlteredDropped`, `Sar.RemovedDropped`, `Sar.DispatchedOnce` — what one would
  want of two backends, and `Sar.OnlyPeersHeard`, all of it;
* `Sar.Guarded` — what the signature and the guard keep out.

Main results:

* `Sar.heard_iff` — **an envelope of a peer is heard exactly if the peer has the same secret**;
* `Sar.unsigned_dispatched`, `Sar.altered_dropped` — without a signature, and with the signature of
  another envelope;
* `Sar.dispatched_once_in_window`, `Sar.dispatched_again` — an id is dispatched at most once in two
  minutes, and again after that;
* `Sar.backends_are_guarded` — **what every two backends keep out.**
-/
import Endendend.Sar.Ingest

set_option relaxedAutoImplicit false
set_option autoImplicit false

namespace Sar

open Js (Str Json lit)
open Runs

variable {Secret : Type*} {H : Hmac Secret} {c : Conversions}

/-! ### The first time an id comes in -/

/-- What comes in is an envelope with the id. -/
def Brings (c : Conversions) (id : Str) (a : Arrival) : Prop :=
  ∃ e, a.envelope c = some e ∧ e.messageId = id

variable {identity : NodeIdentity Secret} {l : List Arrival} {b : VertexFoxMQBackend Secret}
  {a : Arrival}

/-- An id that has not come in yet is in neither the guard nor the cache. -/
theorem fresh_of_not_brings (h : run (ingestStep H c) (.new identity) l = some b) {id : Str}
    (hfirst : ∀ a ∈ l, ¬ Brings c id a) (now now' : ℚ) :
    (b.replayGuard.record now id).2 = true ∧ (b.dedupe.seen now' id).2 = false := by
  have hnot : ∀ ts,
      ¬ (b.replayGuard.recent.get? id = some ts ∨ b.dedupe.items.get? id = some ts) := by
    intro ts hts
    obtain ⟨a, ha, hbrings⟩ := recentInv_run h id ts hts
    exact hfirst a ha hbrings
  rw [ReplayGuard.record_new_iff, DedupeCache.seen_eq_false_iff]
  exact ⟨fun ts hts => absurd (Or.inl hts) (hnot ts), fun ts hts => absurd (Or.inr hts) (hnot ts)⟩

/-- **The first time an id comes in**, the envelope is dispatched exactly if it is of another sender
and has no signature or the right one. -/
theorem first_dispatched_iff (h : run (ingestStep H c) (.new identity) l = some b)
    {e : P2PEnvelope} (he : a.envelope c = some e)
    (hfirst : ∀ a ∈ l, ¬ Brings c e.messageId a) :
    (b.ingestRaw H c a).2 = .dispatched e ↔
      e.senderId ≠ identity.nodeId ∧ b.checkSignature H e = some true := by
  rw [ingestRaw_eq_dispatched_iff, (identity_run h).1]
  constructor
  · rintro ⟨-, hown, hcheck, -⟩
    exact ⟨hown, hcheck⟩
  · rintro ⟨hown, hcheck⟩
    exact ⟨he, hown, hcheck, fresh_of_not_brings h hfirst _ _⟩

/-- **An envelope without a signature is not checked.** -/
theorem unsigned_dispatched (h : run (ingestStep H c) (.new identity) l = some b)
    {e : P2PEnvelope} (he : a.envelope c = some e)
    (hfirst : ∀ a ∈ l, ¬ Brings c e.messageId a) (hown : e.senderId ≠ identity.nodeId)
    (hunsigned : Py.holds e.signature = false) : (b.ingestRaw H c a).2 = .dispatched e := by
  refine (first_dispatched_iff h he hfirst).2 ⟨hown, ?_⟩
  rw [VertexFoxMQBackend.checkSignature, if_neg (by simp [hunsigned])]

/-! ### Signed envelopes -/

theorem holds_sign (signer : P2PSigner Secret) (e : P2PEnvelope) :
    Py.holds (.str (signer.sign H e)) = true :=
  decide_eq_true (H.tag_ne_nil _ _)

/-- What a backend publishes is signed with its secret. -/
theorem signature_publishKind (b : VertexFoxMQBackend Secret) (p : Publication) (bits : ℕ)
    (now : ℤ) : (b.publishKind H p bits now).signature =
      .str (b.p2pSigner.sign H (b.publishKind H p bits now)) := by
  have hfields : SameFields (b.unsigned p bits now) (b.publishKind H p bits now) :=
    ⟨rfl, rfl, rfl, rfl, rfl, rfl, rfl, rfl, rfl, rfl⟩
  exact congrArg Json.str (P2PSigner.sign_eq_iff.2 ⟨rfl, hfields⟩)

/-- **The tag of an envelope is the signature of no other one**, whoever has made it. -/
theorem checkSignature_iff {e e' : P2PEnvelope} {signer : P2PSigner Secret}
    (hsignature : e'.signature = .str (signer.sign H e)) :
    b.checkSignature H e' = some true ↔
      b.p2pSigner.secret = signer.secret ∧ SameFields e' e := by
  rw [VertexFoxMQBackend.checkSignature, hsignature, if_pos (holds_sign _ _),
    P2PSigner.verify_eq_true_iff, Json.str.injEq, eq_comm, P2PSigner.sign_eq_iff]

/-- **An envelope that was altered after it was signed is dropped.** -/
theorem altered_dropped {e e' : P2PEnvelope} {signer : P2PSigner Secret}
    (hsignature : e'.signature = .str (signer.sign H e)) (he' : a.envelope c = some e')
    (haltered : ¬ SameFields e' e) (e'' : P2PEnvelope) :
    (b.ingestRaw H c a).2 ≠ .dispatched e'' := by
  intro h
  obtain ⟨he, -, hcheck, -⟩ := ingestRaw_eq_dispatched_iff.1 h
  obtain rfl := Option.some.inj (he'.symm.trans he)
  exact haltered ((checkSignature_iff hsignature).1 hcheck).2

/-- **An envelope of a peer is heard exactly if the peer has the same secret**, and another name. -/
theorem heard_iff (h : run (ingestStep H c) (.new identity) l = some b)
    (b₁ : VertexFoxMQBackend Secret) (p : Publication) (bits : ℕ) (now : ℤ)
    (hraw : a.raw = some (b₁.publishKind H p bits now).toJson)
    (hfirst : ∀ a ∈ l, ¬ Brings c (messageIdOf bits) a) :
    (b.ingestRaw H c a).2 = .dispatched (b₁.publishKind H p bits now).received ↔
      b₁.identity.nodeId ≠ identity.nodeId ∧ identity.secret = b₁.p2pSigner.secret := by
  have he : a.envelope c = some (b₁.publishKind H p bits now).received := by
    rw [Arrival.envelope, hraw, P2PEnvelope.fromJson_toJson]
  have hsignature : (b₁.publishKind H p bits now).received.signature =
      .str (b₁.p2pSigner.sign H (b₁.publishKind H p bits now)) := by
    rw [P2PEnvelope.received, signature_publishKind]
    rfl
  rw [first_dispatched_iff h he hfirst, checkSignature_iff hsignature, (identity_run h).2]
  refine and_congr_right fun _ => and_iff_left ?_
  rw [← canonical_eq_iff]
  exact ((canonical_eq_iff _ _).2 (sameFields_received _)).symm

/-! ### The window -/

/-- **An id is dispatched at most once in two minutes**, on a clock that does not run backwards. -/
theorem dispatched_once_in_window {b₀ : VertexFoxMQBackend Secret}
    (h : run (ingestStep H c) b₀ l = some b)
    (hclock : (l.map Arrival.recordedAt).Pairwise (· ≤ ·)) :
    (dispatchedIn H c b₀ l).Pairwise fun p q => p.1 = q.1 → ReplayGuard.windowS < q.2 - p.2 := by
  refine invariant_of_history (I := fun l _ => (l.map Arrival.recordedAt).Pairwise (· ≤ ·) →
    (dispatchedIn H c b₀ l).Pairwise fun p q => p.1 = q.1 → ReplayGuard.windowS < q.2 - p.2)
    (fun _ => List.Pairwise.nil) ?_ h hclock
  intro l a b₁ b₂ h₁ ih hs hclock
  rw [List.map_append, List.pairwise_append] at hclock
  rw [dispatchedIn_concat h₁, List.pairwise_append]
  refine ⟨ih hclock.1, ?_, fun p hp q hq hid => ?_⟩
  · cases dispatches H c b₁ a with
    | none => exact List.Pairwise.nil
    | some q => exact List.pairwise_singleton _ _
  · obtain ⟨e, he, rfl⟩ := dispatches_eq_some_iff.1 (Option.mem_toList.1 hq)
    obtain ⟨-, -, -, hnew, -⟩ := ingestRaw_eq_dispatched_iff.1 he
    obtain ⟨ts, hts, hle⟩ | ⟨a', ha', hold⟩ := guardInv_run h₁ p hp
    · replace hid : p.1 = e.messageId := hid
      rw [hid] at hts
      have hgone := ReplayGuard.record_new_iff.1 hnew ts hts
      exact hgone.trans_le (sub_le_sub_left hle _)
    · have hle := hclock.2.2 a'.recordedAt (List.mem_map_of_mem ha') a.recordedAt (by simp)
      exact hold.trans_le (sub_le_sub_right hle _)

/-- **After the window an id is new again**: an envelope without a signature that comes in twice is
dispatched twice. -/
theorem dispatched_again {a' : Arrival} {e : P2PEnvelope} (he : a.envelope c = some e)
    (he' : a'.envelope c = some e) (hown : e.senderId ≠ identity.nodeId)
    (hunsigned : Py.holds e.signature = false)
    (hguard : ReplayGuard.windowS < a'.recordedAt - a.recordedAt)
    (hcache : DedupeCache.ttlS < a'.seenAt - a.seenAt) :
    dispatchedIn H c (.new identity) [a, a'] =
      [(e.messageId, a.recordedAt), (e.messageId, a'.recordedAt)] := by
  have hfirst : ((VertexFoxMQBackend.new identity).ingestRaw H c a).2 = .dispatched e :=
    unsigned_dispatched (run_nil _ _) he (fun _ h => by cases h) hown hunsigned
  obtain ⟨-, -, -, hnew, hunseen⟩ := ingestRaw_eq_dispatched_iff.1 hfirst
  have htaken : (VertexFoxMQBackend.new identity).ingestRaw H c a =
      (VertexFoxMQBackend.new identity).takeIn e a := by
    obtain ⟨-, hnot⟩ | ⟨e', he'', -, -, heq⟩ :=
      @ingestRaw_cases _ H c (VertexFoxMQBackend.new identity) a
    · exact absurd hfirst (hnot e)
    · obtain rfl := Option.some.inj (he.symm.trans he'')
      exact heq
  have hsecond : (((VertexFoxMQBackend.new identity).ingestRaw H c a).1.ingestRaw H c a').2 =
      .dispatched e := by
    rw [ingestRaw_eq_dispatched_iff, htaken, VertexFoxMQBackend.takeIn, hnew]
    refine ⟨he', hown, ?_, ReplayGuard.record_new_iff.2 fun ts hts => ?_,
      DedupeCache.seen_eq_false_iff.2 fun ts hts => ?_⟩
    · rw [VertexFoxMQBackend.checkSignature, if_neg (by simp [hunsigned])]
    · have hself := ReplayGuard.get?_record_self hnew
      obtain rfl := Option.some.inj (hts.symm.trans hself)
      exact hguard
    · obtain rfl := DedupeCache.eq_of_seen hunseen hts
      exact hcache
  simp [dispatchedIn, emitted, ingestStep, dispatches, hfirst, hsecond]

/-! ### What is kept out -/

section Claims

variable (H : Hmac Secret) (c : Conversions) (b₁ b₂ : VertexFoxMQBackend Secret)

/-- What one backend publishes is dispatched when it comes to the other one for the first time. -/
def Heard : Prop :=
  ∀ p bits now l b a, run (ingestStep H c) b₂ l = some b →
    (∀ a ∈ l, ¬ Brings c (messageIdOf bits) a) →
    a.raw = some (b₁.publishKind H p bits now).toJson →
    (b.ingestRaw H c a).2 = .dispatched (b₁.publishKind H p bits now).received

/-- What was altered after it was signed, and still has its signature, is dropped. -/
def AlteredDropped : Prop :=
  ∀ p bits now l b a e', run (ingestStep H c) b₂ l = some b → a.envelope c = some e' →
    e'.signature = (b₁.publishKind H p bits now).signature →
    ¬ SameFields e' (b₁.publishKind H p bits now) →
    ∀ e, (b.ingestRaw H c a).2 ≠ .dispatched e

/-- What has lost its signature is dropped. -/
def RemovedDropped : Prop :=
  ∀ p bits now l b a e', run (ingestStep H c) b₂ l = some b → a.envelope c = some e' →
    Py.holds e'.signature = false → SameFields e' (b₁.publishKind H p bits now) →
    ∀ e, (b.ingestRaw H c a).2 ≠ .dispatched e

/-- No id is dispatched twice. -/
def DispatchedOnce : Prop :=
  ∀ l b, run (ingestStep H c) b₂ l = some b → ((dispatchedIn H c b₂ l).map Prod.fst).Nodup

/-- A peer is heard, unaltered and once, and nobody else is. -/
structure OnlyPeersHeard : Prop where
  heard : Heard H c b₁ b₂
  altered : AlteredDropped H c b₁ b₂
  removed : RemovedDropped H c b₁ b₂
  once : DispatchedOnce H c b₂

/-- What has no signature is not checked: it is dispatched, if it is of another sender and its id is
new. -/
def UnsignedAdmitted : Prop :=
  ∀ l b a e, run (ingestStep H c) b₂ l = some b → a.envelope c = some e →
    (∀ a ∈ l, ¬ Brings c e.messageId a) → e.senderId ≠ b₂.identity.nodeId →
    Py.holds e.signature = false → (b.ingestRaw H c a).2 = .dispatched e

/-- On a clock that does not run backwards, an id is dispatched again only when more than two
minutes have passed. -/
def OnceInWindow : Prop :=
  ∀ l b, run (ingestStep H c) b₂ l = some b → (l.map Arrival.recordedAt).Pairwise (· ≤ ·) →
    (dispatchedIn H c b₂ l).Pairwise fun p q => p.1 = q.1 → 120 < q.2 - p.2

/-- What the signature and the replay guard keep out. -/
structure Guarded : Prop where
  altered : AlteredDropped H c b₁ b₂
  unsigned : UnsignedAdmitted H c b₂
  window : OnceInWindow H c b₂

end Claims

theorem eq_new_of_buildBackend {cfg : BackendBootstrapConfig} {urandom : Secret}
    (h : buildBackend cfg urandom = some b) : b = .new ⟨cfg.nodeId, urandom⟩ := by
  rw [buildBackend] at h
  split at h
  · cases h
  · split at h
    · cases h
    · exact (Option.some.inj h).symm

/-- **What every two backends keep out.** -/
theorem backends_are_guarded (H : Hmac Secret) (c : Conversions) (b₁ b₂ : VertexFoxMQBackend Secret)
    (cfg : BackendBootstrapConfig) (urandom : Secret)
    (hbuilt : buildBackend cfg urandom = some b₂) : Guarded H c b₁ b₂ := by
  obtain rfl := eq_new_of_buildBackend hbuilt
  constructor
  · intro p bits now l b a e' _ he' hsignature haltered
    rw [signature_publishKind] at hsignature
    exact altered_dropped hsignature he' haltered
  · intro l b a e h he hfirst hown hunsigned
    exact unsigned_dispatched h he hfirst hown hunsigned
  · intro l b h hclock
    exact dispatched_once_in_window h hclock

/-! ### Two backends -/

/-- Conversions that know only values of the type that is expected, and truncate numbers. -/
def plainConversions : Conversions where
  str
    | .str s => s
    | _ => []
  int
    | .num x => some (x.val.num.tdiv x.val.den)
    | _ => none
  dict
    | .obj fs => some (.ofList fs)
    | _ => none
  str_str _ := rfl
  int_num n := by
    have hval : (Js.Decimal.ofInt n).val = n := by simp [Js.Decimal.ofInt, Js.Decimal.val_mk']
    simp [hval]
  dict_obj _ := rfl

/-- Tags from which key and text can be read off. -/
def transparentTag (k : ℕ) (v : Json) : Str :=
  List.replicate k (Js.unit '1') ++ Js.unit '0' :: v.stringify.flatMap Js.unicodeEscape

theorem flatMap_unicodeEscape_inj {s t : Str}
    (h : s.flatMap Js.unicodeEscape = t.flatMap Js.unicodeEscape) : s = t := by
  induction s generalizing t with
  | nil =>
      cases t with
      | nil => rfl
      | cons v t => cases h
  | cons u s ih =>
      cases t with
      | nil => cases h
      | cons v t =>
          obtain ⟨hhead, htail⟩ := List.append_inj h rfl
          rw [Js.unicodeEscape_inj hhead, ih htail]

theorem transparentTag_inj {k k' : ℕ} {v v' : Json}
    (h : transparentTag k v = transparentTag k' v') : k = k' ∧ v = v' := by
  have hne : Js.unit '1' ≠ Js.unit '0' := by decide
  induction k generalizing k' with
  | zero =>
      cases k' with
      | zero =>
          obtain ⟨-, htext⟩ := List.cons.inj h
          exact ⟨rfl, Json.stringify_injective (flatMap_unicodeEscape_inj htext)⟩
      | succ k' => exact absurd (List.cons.inj h).1.symm hne
  | succ k ih =>
      cases k' with
      | zero => exact absurd (List.cons.inj h).1 hne
      | succ k' =>
          obtain ⟨rfl, hv⟩ := ih (List.cons.inj h).2
          exact ⟨rfl, hv⟩

theorem isAscii_unicodeEscape (u : Js.CodeUnit) : IsAscii (Js.unicodeEscape u) := by
  have hdigit : ∀ n, (Js.hexDigit (n % 16)).val < 128 := by
    intro n
    rw [Js.hexDigit_val (Nat.mod_lt _ (by decide))]
    split <;> omega
  intro x hx
  simp only [Js.unicodeEscape, List.mem_cons, List.not_mem_nil, or_false] at hx
  obtain rfl | rfl | rfl | rfl | rfl | rfl := hx
  · decide
  · decide
  all_goals exact hdigit _

def transparentHmac : Hmac ℕ where
  tag := transparentTag
  tag_ne_nil k v := by simp [transparentTag]
  isAscii_tag k v := by
    intro u hu
    simp only [transparentTag, List.mem_append, List.mem_cons, List.mem_flatMap] at hu
    obtain hu | rfl | ⟨x, -, hu⟩ := hu
    · rw [List.eq_of_mem_replicate hu]
      decide
    · decide
    · exact isAscii_unicodeEscape x u hu
  tag_inj := transparentTag_inj

/-- A backend `b` with a secret of its own. -/
def backendB : VertexFoxMQBackend ℕ := .new ⟨lit "b", 2⟩

def heartbeat : Publication := ⟨lit "heartbeat", lit "swarm/peer/a", ∅, 4, none, none⟩

/-- A heartbeat of a backend `a`. -/
def heartbeatA : P2PEnvelope :=
  (VertexFoxMQBackend.new ⟨lit "a", 1⟩).publishKind transparentHmac heartbeat 7 1000

theorem backends_are_guarded_two : Guarded transparentHmac plainConversions (.new ⟨lit "a", 1⟩)
    backendB :=
  backends_are_guarded transparentHmac plainConversions _ backendB ⟨lit "b", true, true⟩ 2 rfl

/-- The heartbeat of `a` comes to `b` with its signature removed, and once more two minutes later:
it is dispatched both times. -/
theorem unsigned_heartbeat_dispatched_twice :
    ¬ OnlyPeersHeard transparentHmac plainConversions (.new ⟨lit "a", 1⟩) backendB ∧
      ¬ RemovedDropped transparentHmac plainConversions (.new ⟨lit "a", 1⟩) backendB ∧
      ¬ DispatchedOnce transparentHmac plainConversions backendB := by
  let e : P2PEnvelope := { heartbeatA with signature := .null }
  let arrival : ℚ → Arrival := fun t => ⟨some e.toJson, 1000, t, t⟩
  have he : ∀ t, (arrival t).envelope plainConversions = some e.received := fun t =>
    P2PEnvelope.fromJson_toJson plainConversions 1000 e
  have hown : e.received.senderId ≠ lit "b" := by decide
  have hremoved :
      ¬ RemovedDropped transparentHmac plainConversions (.new ⟨lit "a", 1⟩) backendB := by
    intro h
    refine h heartbeat 7 1000 [] backendB (arrival 0) e.received rfl (he 0) rfl ?_ e.received
      (unsigned_dispatched (run_nil _ _) (he 0) (fun _ h => by cases h) hown rfl)
    rw [← canonical_eq_iff]
    exact ((canonical_eq_iff _ _).2 (sameFields_received e)).symm
  have honce : ¬ DispatchedOnce transparentHmac plainConversions backendB := by
    intro h
    have htwice := h [arrival 0, arrival 121] _ rfl
    rw [backendB, dispatched_again (he 0) (he 121) hown rfl (by norm_num [arrival,
      ReplayGuard.windowS]) (by norm_num [arrival, DedupeCache.ttlS])] at htwice
    simp at htwice
  exact ⟨fun h => hremoved h.removed, hremoved, honce⟩

end Sar
