/-
**The tail hash of a verified ledger determines its events.**

The text that is hashed for a row is the hash of the row before, a bar, and the row's core in JSON.
A hash contains no bar, so the two parts can be told apart; the JSON determines the core up to the
order of keys; and going back row by row two verified ledgers with the same tail agree.

Main definitions:

* `Vertex.SameContent` — two cores say the same, up to the order of keys in the payload.

Main results:

* `Vertex.hashInput_inj` — the hashed text determines the hash before it and the core;
* `Vertex.verified_ledgers_agree` — **tamper evidence**.
-/
import Endendend.Foundation.JoinedKeys
import Endendend.Vertex.MissionLedger

set_option relaxedAutoImplicit false
set_option autoImplicit false

namespace Vertex

open Js

/-- Two events say the same, up to the order of keys in the payload. -/
structure SameContent (c d : EventCore) : Prop where
  missionId : c.missionId = d.missionId
  actorId : c.actorId = d.actorId
  eventType : c.eventType = d.eventType
  plane : c.plane = d.plane
  timestamp : c.timestamp = d.timestamp
  payload : Json.Same (.obj c.payload.entries) (.obj d.payload.entries)

/-- The core with its keys sorted. -/
theorem EventCore.sortKeys_toJson (c : EventCore) :
    c.toJson.sortKeys = .obj [("actorId", .str c.actorId), ("eventType", .str c.eventType.text),
      ("missionId", .str c.missionId), ("payload", (Json.obj c.payload.entries).sortKeys),
      ("plane", .str c.plane.text), ("timestamp", .num c.timestamp)] :=
  rfl

theorem sameContent_of_stableStringify_eq {c d : EventCore}
    (h : stableStringify c.toJson = stableStringify d.toJson) : SameContent c d := by
  rw [stableStringify_eq, stableStringify_eq] at h
  have hs := Json.stringify_injective h
  simp only [EventCore.sortKeys_toJson, Json.obj.injEq, List.cons.injEq, Prod.mk.injEq, true_and,
    and_true, Json.str.injEq, Json.num.injEq] at hs
  obtain ⟨hactor, htype, hmission, hpayload, hplane, htime⟩ := hs
  exact ⟨hmission, hactor, MissionLedgerEventType.text_injective htype,
    ControlPlane.text_injective hplane, htime, Json.same_of_sortKeys_eq _ _ hpayload⟩

section

variable {subtleDigest : Str → List UInt8}

/-- **The hashed text determines the hash before it and the core.** -/
theorem hashInput_inj (hinj : Function.Injective (sha256Hex subtleDigest)) {p q : Str}
    {c d : EventCore} (hp : unit '|' ∉ p) (hq : unit '|' ∉ q)
    (h : computeEventHash subtleDigest p c = computeEventHash subtleDigest q d) :
    p = q ∧ SameContent c d := by
  obtain ⟨hpq, hcd⟩ := JoinedKeys.append_cons_inj_left hp hq (hinj h)
  exact ⟨hpq, sameContent_of_stableStringify_eq hcd⟩

/-- **Tamper evidence.**  If the digest has no collision, two ledgers that verify and have the same
tail hash hold the same events, row by row. -/
theorem verified_ledgers_agree (hinj : Function.Injective (sha256Hex subtleDigest))
    {ledger ledger' : MissionLedger} (h : verifyChain subtleDigest ledger = .ok)
    (h' : verifyChain subtleDigest ledger' = .ok) (htail : ledger.tailHash = ledger'.tailHash) :
    List.Forall₂ (fun e e' : MissionLedgerEvent => SameContent e.toEventCore e'.toEventCore)
      ledger ledger' := by
  rw [verifyChain_eq_ok_iff] at h h'
  rw [← tail_map_toRow, ← tail_map_toRow] at htail
  have hbodies := HashChain.bodies_of_tail_eq (G := fun p => unit '|' ∉ p) (R := SameContent)
    (by decide) (fun p c => bar_notMem_sha256Hex _ _) (fun p c => sha256Hex_ne_genesis _ _)
    (fun p c q d hp hq => hashInput_inj hinj hp hq) h h' htail
  rw [List.map_map, List.map_map] at hbodies
  exact List.forall₂_map_right_iff.1 (List.forall₂_map_left_iff.1 hbodies)

end

/-! ### A digest without collisions -/

/-- Concatenations of blocks of one length determine the blocks. -/
theorem flatMap_injective {α β : Type*} {f : α → List β} {n : ℕ} (hn : 0 < n)
    (hlen : ∀ a, (f a).length = n) (hf : Function.Injective f) :
    Function.Injective fun l : List α => l.flatMap f := by
  intro l
  induction l with
  | nil =>
      rintro (_ | ⟨b, m⟩) h
      · rfl
      · have := congrArg List.length h
        simp only [List.flatMap_nil, List.length_nil, List.flatMap_cons, List.length_append,
          hlen] at this
        omega
  | cons a l ih =>
      rintro (_ | ⟨b, m⟩) h
      · have := congrArg List.length h
        simp only [List.flatMap_nil, List.length_nil, List.flatMap_cons, List.length_append,
          hlen] at this
        omega
      · simp only [List.flatMap_cons] at h
        obtain ⟨hab, hlm⟩ := List.append_inj h ((hlen a).trans (hlen b).symm)
        rw [hf hab, ih hlm]

/-- The two bytes of a code unit. -/
def unitBytes (u : CodeUnit) : List UInt8 := [UInt8.ofNat (u.val / 256), UInt8.ofNat (u.val % 256)]

theorem sha256Hex_unitBytes_injective :
    Function.Injective (sha256Hex fun s => s.flatMap unitBytes) := by
  have hbyte : Function.Injective hexByte := by
    intro b c h
    simp only [hexByte, List.cons.injEq, and_true] at h
    have hb : b.toNat < 256 := b.toNat_lt
    have hc : c.toNat < 256 := c.toNat_lt
    have h₁ := hexDigit_inj (by omega) (by omega) h.1
    have h₀ := hexDigit_inj (by omega) (by omega) h.2
    exact UInt8.toNat.inj (by omega)
  have hunit : Function.Injective unitBytes := by
    intro u v h
    simp only [unitBytes, List.cons.injEq, and_true] at h
    have hu := u.isLt
    have hv := v.isLt
    have h₁ := congrArg UInt8.toNat h.1
    have h₀ := congrArg UInt8.toNat h.2
    simp only [UInt8.toNat_ofNat'] at h₁ h₀
    exact Fin.ext (by omega)
  exact (flatMap_injective (n := 2) (by omega) (fun _ => rfl) hbyte).comp
    (flatMap_injective (n := 2) (by omega) (fun _ => rfl) hunit)

/-- A `target_discovered` with the given payload. -/
def discoveredInput (payload : List (Str × Json)) : AppendMissionEventInput where
  missionId := "m"
  actorId := "n1"
  eventType := .targetDiscovered
  plane := .vertex
  payload := .ofList payload
  timestamp := 1
  previousHash := genesis

/-- Two ledgers of one event whose payloads list their keys in different orders. -/
theorem verified_ledgers_agree_key_order :
    SameContent
      (discoveredInput [("targetId", .str "t"), ("notes", .null)]).toEventCore
      (discoveredInput [("notes", .null), ("targetId", .str "t")]).toEventCore := by
  have hok := fun payload => (verifyChain_append_iff (fun s => s.flatMap unitBytes) []
    (discoveredInput payload)).2 ⟨rfl, rfl⟩
  have h := verified_ledgers_agree sha256Hex_unitBytes_injective
    (hok [("targetId", .str "t"), ("notes", .null)])
    (hok [("notes", .null), ("targetId", .str "t")])
    (congrArg (fun body => sha256Hex _ (genesis ++ unit '|' :: body)) rfl)
  exact (List.forall₂_cons.1 h).1

end Vertex
