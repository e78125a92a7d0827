/-
**The order in which a batch is committed** (`vertex/consensus-gateway.ts`).

A batch is sorted by a key and then appended row by row.  The key joins the timestamp, the actor,
the type and a text of the payload with the character `NUL`.  Two defects follow from how it is
made. The text of the payload shows the top-level keys alone, at every depth, and the mission is not
in the key, so different suggestions may have one key and stay in the order in which they came.  And
the timestamps compare as texts, so that 10 comes before 9.

Main definitions:

* `Vertex.commitAlone` — a batch that nobody interrupts;
* `Vertex.MissionLedgerEvent.content` — what a row says, up to the order of keys in the payload;
* `Vertex.DocumentedLe` — the documented order: by timestamp, then by actor, then by type.

Main results:

* `Vertex.commitAlone_eq` — the rows that a batch appends;
* `Vertex.suggestionKey_inj`, `Vertex.suggestionKey_lt_iff` — what the key determines, and how two
  keys compare;
* `Vertex.commit_perm_iff` — **when the order of the suggestions does not matter**;
* `Vertex.commit_sorted_iff` — **when the rows are in the documented order**.
-/
import Endendend.Foundation.JoinedKeys
import Endendend.Foundation.NumberText
import Endendend.Vertex.ConsensusGateway
import Endendend.Vertex.TamperEvidence

set_option relaxedAutoImplicit false
set_option autoImplicit false

namespace Vertex

open Js JoinedKeys

/-! ### A batch that nobody interrupts -/

section Commit

variable (subtleDigest : Str → List UInt8)

/-- Appends suggestions one after the other; each one reads the tail that the one before left. -/
def appendEach (ledger : MissionLedger) : List VertexSuggestion → Except Str MissionLedger
  | [] => .ok ledger
  | s :: rest =>
    match finishAppend subtleDigest ledger (beginAppend ledger s.toCore) with
    | .ok ledger => appendEach ledger rest
    | .error e => .error e

/-- The rest of a batch: the append it waits for and the suggestions after it. -/
def Batch.finish (ledger : MissionLedger) (b : Batch) : Except Str MissionLedger :=
  match b.pending with
  | none => appendEach subtleDigest ledger b.rest
  | some input =>
    match finishAppend subtleDigest ledger input with
    | .ok ledger => appendEach subtleDigest ledger b.rest
    | .error e => .error e

/-- The ledger after a batch, when nobody else appends before it is done. -/
def commitAlone (ledger : MissionLedger) (suggestions : List VertexSuggestion) :
    Except Str MissionLedger :=
  (commitVertexBatch ledger suggestions).finish subtleDigest ledger

/-- The rows of some events after a row with the hash `prev`. -/
def chained (prev : Str) : List EventCore → List MissionLedgerEvent
  | [] => []
  | c :: cs =>
    let e := sealed subtleDigest { c with previousHash := prev }
    e :: chained e.eventHash cs

theorem appendEach_eq (ledger : MissionLedger) (l : List VertexSuggestion) :
    appendEach subtleDigest ledger l =
      .ok (ledger ++ chained subtleDigest ledger.tailHash (l.map (·.toCore))) := by
  induction l generalizing ledger with
  | nil => rw [appendEach, List.map_nil, chained, List.append_nil]
  | cons s l ih =>
      rw [appendEach, finishAppend_eq]
      dsimp only
      rw [ih, List.append_assoc, List.map_cons, chained]
      have htail : MissionLedger.tailHash
          (ledger ++ [sealed subtleDigest (beginAppend ledger s.toCore)]) =
          (sealed subtleDigest (beginAppend ledger s.toCore)).eventHash := by
        rw [MissionLedger.tailHash, List.getLast?_concat]
      rw [htail]
      rfl

/-- **The rows that a batch appends** are those of its suggestions, in the order of their keys. -/
theorem commitAlone_eq (ledger : MissionLedger) (l : List VertexSuggestion) :
    commitAlone subtleDigest ledger l =
      .ok (ledger ++
        chained subtleDigest ledger.tailHash ((sortSuggestions l).map (·.toCore))) := by
  rw [← appendEach_eq, commitAlone, commitVertexBatch]
  cases sortSuggestions l with
  | nil => rfl
  | cons s l => rfl

theorem map_toEventCore_chained (prev : Str) (cs : List EventCore) :
    (chained subtleDigest prev cs).map (·.toEventCore) = cs := by
  induction cs generalizing prev with
  | nil => rfl
  | cons c cs ih => rw [chained, List.map_cons, ih]; rfl

/-! ### What rows say -/

/-- What an event says, up to the order of keys in the payload. -/
def EventCore.content (c : EventCore) : Json := c.toJson.sortKeys

/-- What a row says, up to the order of keys in the payload, with its two hashes. -/
def MissionLedgerEvent.content (e : MissionLedgerEvent) : Json × Str × Str :=
  (e.toEventCore.content, e.previousHash, e.eventHash)

theorem EventCore.content_eq_iff {c d : EventCore} : c.content = d.content ↔
    (c.missionId = d.missionId ∧
      (Json.obj c.payload.entries).sortKeys = (Json.obj d.payload.entries).sortKeys) ∧
    c.actorId = d.actorId ∧ c.eventType = d.eventType ∧ c.plane = d.plane ∧
      c.timestamp = d.timestamp := by
  simp only [content, EventCore.sortKeys_toJson, Json.obj.injEq, List.cons.injEq, Prod.mk.injEq,
    true_and, and_true, Json.str.injEq, Json.num.injEq]
  constructor
  · rintro ⟨hactor, htype, hmission, hpayload, hplane, htime⟩
    exact ⟨⟨hmission, hpayload⟩, hactor, MissionLedgerEventType.text_injective htype,
      ControlPlane.text_injective hplane, htime⟩
  · rintro ⟨⟨hmission, hpayload⟩, hactor, htype, hplane, htime⟩
    exact ⟨hactor, congrArg _ htype, hmission, hpayload, congrArg _ hplane, htime⟩

/-- The hash of an event depends on what it says. -/
theorem computeEventHash_congr {prev : Str} {c d : EventCore} (h : c.content = d.content) :
    computeEventHash subtleDigest prev c = computeEventHash subtleDigest prev d := by
  rw [EventCore.content, EventCore.content] at h
  simp only [computeEventHash, stableStringify_eq, h]

/-- **Two rows of events say the same** exactly if the events do, one by one. -/
theorem chained_content_iff (prev : Str) (cs ds : List EventCore) :
    (chained subtleDigest prev cs).map (·.content) =
        (chained subtleDigest prev ds).map (·.content) ↔
      cs.map (·.content) = ds.map (·.content) := by
  induction cs generalizing prev ds with
  | nil => cases ds <;> simp [chained]
  | cons c cs ih =>
      cases ds with
      | nil => simp [chained]
      | cons d ds =>
          rw [chained, chained, List.map_cons, List.map_cons, List.map_cons, List.map_cons,
            List.cons.injEq, List.cons.injEq]
          constructor
          · rintro ⟨hrow, hrest⟩
            -- equal contents give equal hashes, so the rest hangs on the same row
            have hcontent : c.content = d.content := congrArg Prod.fst hrow
            have hhash : (sealed subtleDigest { c with previousHash := prev }).eventHash =
                (sealed subtleDigest { d with previousHash := prev }).eventHash :=
              computeEventHash_congr subtleDigest hcontent
            exact ⟨hcontent, (ih _ ds).1 (hhash ▸ hrest)⟩
          · rintro ⟨hcontent, hrest⟩
            have hhash : (sealed subtleDigest { c with previousHash := prev }).eventHash =
                (sealed subtleDigest { d with previousHash := prev }).eventHash :=
              computeEventHash_congr subtleDigest hcontent
            refine ⟨Prod.ext hcontent (Prod.ext rfl hhash), ?_⟩
            rw [hhash]
            exact (ih _ ds).2 hrest

end Commit

/-! ### Keys -/

theorem nul_lt {u : CodeUnit} (h : Printable u) : nul < u :=
  Fin.lt_def.2 (lt_of_lt_of_le (by decide) h)

theorem nul_notMem {s : Str} (h : ∀ u ∈ s, Printable u) : nul ∉ s :=
  fun hmem => absurd (h nul hmem) (by decide)

theorem printable_text (t : MissionLedgerEventType) : ∀ u ∈ t.text, Printable u :=
  printable_of_all (by cases t <;> decide)

theorem printable_toStr (x : Decimal) : ∀ u ∈ x.toStr, Printable u :=
  fun _ hu => printable_of_isNumeral (Decimal.mem_toStr hu)

/-- The part of the key after the timestamp. -/
def keyTail (s : VertexSuggestion) : Str :=
  s.actorId ++ nul :: (s.eventType.text ++ nul :: stableOrderPayload s.payload)

theorem suggestionKey_eq (s : VertexSuggestion) :
    suggestionKey s = s.timestamp.toStr ++ nul :: keyTail s := rfl

/-- **Two keys compare** by the texts of the timestamps, and then by what follows. -/
theorem suggestionKey_lt_iff {a b : VertexSuggestion} :
    suggestionKey a < suggestionKey b ↔ a.timestamp.toStr < b.timestamp.toStr ∨
      a.timestamp = b.timestamp ∧ keyTail a < keyTail b := by
  rw [suggestionKey_eq, suggestionKey_eq,
    append_cons_lt_iff (fun u hu => nul_lt (printable_toStr _ u hu))
      fun u hu => nul_lt (printable_toStr _ u hu), Decimal.toStr_injective.eq_iff]

/-- What follows the timestamp determines the actor and the type. -/
theorem keyTail_inj {a b : VertexSuggestion} (h : keyTail a = keyTail b) :
    a.actorId = b.actorId ∧ a.eventType = b.eventType := by
  have hpayload : ∀ s : VertexSuggestion, nul ∉ stableOrderPayload s.payload :=
    fun s => nul_notMem (Json.printable_of_mem_stringify _)
  have hassoc : ∀ s : VertexSuggestion, keyTail s =
      (s.actorId ++ nul :: s.eventType.text) ++ nul :: stableOrderPayload s.payload :=
    fun s => by simp [keyTail]
  rw [hassoc, hassoc] at h
  obtain ⟨hhead, -⟩ := append_cons_inj_right (hpayload a) (hpayload b) h
  obtain ⟨hactor, htype⟩ := append_cons_inj_right (nul_notMem (printable_text _))
    (nul_notMem (printable_text _)) hhead
  exact ⟨hactor, MissionLedgerEventType.text_injective htype⟩

/-- **The key determines** the timestamp, the actor and the type. -/
theorem suggestionKey_inj {a b : VertexSuggestion} (h : suggestionKey a = suggestionKey b) :
    a.timestamp = b.timestamp ∧ a.actorId = b.actorId ∧ a.eventType = b.eventType := by
  rw [suggestionKey_eq, suggestionKey_eq] at h
  obtain ⟨htime, htail⟩ := append_cons_inj_left (nul_notMem (printable_toStr _))
    (nul_notMem (printable_toStr _)) h
  exact ⟨Decimal.toStr_injective htime, keyTail_inj htail⟩

/-! ### Does the order of the suggestions matter? -/

/-- Two suggestions with the same key say the same. -/
def KeysSeparate (l : List VertexSuggestion) : Prop :=
  ∀ a ∈ l, ∀ b ∈ l, suggestionKey a = suggestionKey b →
    a.missionId = b.missionId ∧
      (Json.obj a.payload.entries).sortKeys = (Json.obj b.payload.entries).sortKeys

theorem content_toCore_iff {a b : VertexSuggestion} (h : suggestionKey a = suggestionKey b) :
    a.toCore.content = b.toCore.content ↔ a.missionId = b.missionId ∧
      (Json.obj a.payload.entries).sortKeys = (Json.obj b.payload.entries).sortKeys := by
  obtain ⟨htime, hactor, htype⟩ := suggestionKey_inj h
  rw [EventCore.content_eq_iff]
  exact and_iff_left ⟨hactor, htype, rfl, htime⟩

/-- The contents of a batch in the order of the keys. -/
def sortedContents (l : List VertexSuggestion) : List Json :=
  (sortSuggestions l).map fun s => s.toCore.content

/-- Lists with the same keys say the same, if the keys separate. -/
theorem map_content_eq {l : List VertexSuggestion} (h : KeysSeparate l) :
    ∀ {xs ys : List VertexSuggestion}, (∀ a ∈ xs, a ∈ l) → (∀ b ∈ ys, b ∈ l) →
      xs.map suggestionKey = ys.map suggestionKey →
        xs.map (fun s => s.toCore.content) = ys.map fun s => s.toCore.content := by
  intro xs
  induction xs with
  | nil =>
      intro ys _ _ hkeys
      rw [List.map_eq_nil_iff.1 hkeys.symm]
  | cons x xs ih =>
      intro ys hxs hys hkeys
      cases ys with
      | nil => cases hkeys
      | cons y ys =>
          rw [List.map_cons, List.map_cons, List.cons.injEq] at hkeys
          have hsame := h x (hxs x List.mem_cons_self) y (hys y List.mem_cons_self) hkeys.1
          rw [List.map_cons, List.map_cons, (content_toCore_iff hkeys.1).2 hsame,
            ih (fun a ha => hxs a (List.mem_cons_of_mem _ ha))
              (fun b hb => hys b (List.mem_cons_of_mem _ hb)) hkeys.2]

/-- **The contents do not depend on the order of the suggestions** exactly if the keys separate. -/
theorem sortedContents_perm_iff (l : List VertexSuggestion) :
    (∀ l' : List VertexSuggestion, l'.Perm l → sortedContents l' = sortedContents l) ↔
      KeysSeparate l := by
  constructor
  · intro hall a ha b hb hkey
    rw [← content_toCore_iff hkey]
    by_cases hab : a = b
    · rw [hab]
    -- the two suggestions come first, in both orders
    obtain ⟨rest, hrest⟩ := exists_perm_cons_cons ha hb hab
    obtain ⟨p, q, hfirst, hsecond⟩ := insertionSort_cons_cons hkey rest
    have heq : sortedContents (a :: b :: rest) = sortedContents (b :: a :: rest) :=
      (hall _ hrest).trans (hall _ ((List.Perm.swap a b rest).trans hrest)).symm
    rw [sortedContents, sortedContents, sortSuggestions, sortSuggestions, hfirst, hsecond,
      List.map_append, List.map_append, List.map_cons, List.map_cons] at heq
    exact (List.cons.inj (List.append_cancel_left heq)).1
  · intro h l' hl'
    refine map_content_eq h (fun a ha => ?_) (fun b hb => ?_) (map_insertionSort_eq hl')
    · exact hl'.subset ((List.mem_insertionSort _).1 ha)
    · exact (List.mem_insertionSort _).1 hb

/-- **The order of the suggestions does not matter** to the rows exactly if two suggestions with the
same key have the same mission and the same payload. -/
theorem commit_perm_iff (subtleDigest : Str → List UInt8) (ledger : MissionLedger)
    (l : List VertexSuggestion) :
    (∀ l' : List VertexSuggestion, l'.Perm l → ∃ rows rows',
      commitAlone subtleDigest ledger l = .ok (ledger ++ rows) ∧
      commitAlone subtleDigest ledger l' = .ok (ledger ++ rows') ∧
      rows'.map (·.content) = rows.map (·.content)) ↔ KeysSeparate l := by
  rw [← sortedContents_perm_iff]
  refine forall_congr' fun l' => imp_congr_right fun _ => ?_
  have hcontents : ∀ l : List VertexSuggestion,
      ((sortSuggestions l).map (·.toCore)).map (·.content) = sortedContents l :=
    fun l => List.map_map ..
  rw [← hcontents, ← hcontents, ← chained_content_iff subtleDigest ledger.tailHash, commitAlone_eq,
    commitAlone_eq]
  constructor
  · rintro ⟨rows, rows', hrows, hrows', hsame⟩
    rw [List.append_cancel_left (Except.ok.inj hrows),
      List.append_cancel_left (Except.ok.inj hrows')]
    exact hsame
  · intro hsame
    exact ⟨_, _, rfl, rfl, hsame⟩

/-- A checkpoint that says in a nested object how many cells are known. -/
def checkpointWith (known : ℕ) : VertexSuggestion where
  missionId := "mission"
  actorId := "agent-0"
  eventType := .recoveryCheckpoint
  payload := .ofList [("map", .obj [("cellsKnown", .num (.ofInt known))])]
  timestamp := 1000

theorem suggestionKey_checkpointWith :
    suggestionKey (checkpointWith 1) = suggestionKey (checkpointWith 2) := by
  decide +kernel

theorem sortSuggestions_pair {a b : VertexSuggestion} (h : suggestionKey a ≤ suggestionKey b) :
    sortSuggestions [a, b] = [a, b] := by
  simp [sortSuggestions, h]

/-- Two checkpoints that differ in a nested object are appended in the order in which they came. -/
theorem commit_order_checkpoints :
    ∃ l l' : List VertexSuggestion, l'.Perm l ∧ ∃ rows rows',
      commitAlone (fun _ => []) [] l = .ok ([] ++ rows) ∧
      commitAlone (fun _ => []) [] l' = .ok ([] ++ rows') ∧
      rows'.map (·.content) ≠ rows.map (·.content) := by
  refine ⟨[checkpointWith 1, checkpointWith 2], [checkpointWith 2, checkpointWith 1],
    List.Perm.swap .., _, _, commitAlone_eq .., commitAlone_eq .., ?_⟩
  rw [sortSuggestions_pair suggestionKey_checkpointWith.le,
    sortSuggestions_pair suggestionKey_checkpointWith.ge, Ne, chained_content_iff]
  intro h
  have htext := congrArg Json.stringify (EventCore.content_eq_iff.1 (List.cons.inj h).1).1.2
  revert htext
  decide +kernel

/-! ### Are the rows in the documented order? -/

/-- The documented order: by timestamp, then by actor, then by type. -/
def DocumentedLe (a b : EventCore) : Prop :=
  a.timestamp < b.timestamp ∨ a.timestamp = b.timestamp ∧
    (a.actorId < b.actorId ∨ a.actorId = b.actorId ∧ a.eventType.text ≤ b.eventType.text)

/-- Texts of timestamps compare as the timestamps do, and so do the actors of one time with what
follows them in the key. -/
structure KeysInOrder (l : List VertexSuggestion) : Prop where
  timestamps : ∀ a ∈ l, ∀ b ∈ l, a.timestamp < b.timestamp →
    a.timestamp.toStr < b.timestamp.toStr
  actors : ∀ a ∈ l, ∀ b ∈ l, a.timestamp = b.timestamp → a.actorId < b.actorId →
    keyTail a < keyTail b

/-- Actors without the separator compare in the key as they do alone. -/
theorem keyTail_lt_of_actorId_lt {a b : VertexSuggestion} (ha : nul ∉ a.actorId)
    (hb : nul ∉ b.actorId) (h : a.actorId < b.actorId) : keyTail a < keyTail b := by
  have hlt : ∀ s : Str, nul ∉ s → ∀ u ∈ s, nul < u := fun s hs u hu =>
    lt_of_le_of_ne (Fin.zero_le u) fun heq => hs (heq ▸ hu)
  exact (append_cons_lt_iff (hlt _ ha) (hlt _ hb)).2 (Or.inl h)

theorem keyTail_lt_of_text_lt {a b : VertexSuggestion} (hactor : a.actorId = b.actorId)
    (h : a.eventType.text < b.eventType.text) : keyTail a < keyTail b := by
  rw [keyTail, keyTail, hactor]
  refine List.append_left_lt (List.cons_lt_cons_iff.2 (Or.inr ⟨rfl, ?_⟩))
  exact (append_cons_lt_iff (fun u hu => nul_lt (printable_text _ u hu))
    fun u hu => nul_lt (printable_text _ u hu)).2 (Or.inl h)

theorem not_documentedLe_iff {a b : EventCore} : ¬ DocumentedLe a b ↔
    b.timestamp < a.timestamp ∨ a.timestamp = b.timestamp ∧
      (b.actorId < a.actorId ∨ a.actorId = b.actorId ∧ b.eventType.text < a.eventType.text) := by
  rw [DocumentedLe]
  rcases lt_trichotomy a.timestamp b.timestamp with ht | ht | ht
  · simp [ht, ht.ne, ht.asymm]
  · rcases lt_trichotomy a.actorId b.actorId with hac | hac | hac
    · simp [ht, hac, hac.ne, hac.asymm]
    · simp [ht, hac]
    · simp [ht, hac, hac.ne', hac.asymm]
  · simp [ht, ht.ne', ht.asymm]

/-- **A batch is in the documented order** exactly if its keys are. -/
theorem pairwise_sortSuggestions_iff (l : List VertexSuggestion) :
    (sortSuggestions l).Pairwise (fun a b => DocumentedLe a.toCore b.toCore) ↔ KeysInOrder l := by
  constructor
  · intro h
    -- different keys put their suggestions in the order of the keys
    have hkey : ∀ a ∈ l, ∀ b ∈ l, suggestionKey a < suggestionKey b →
        DocumentedLe a.toCore b.toCore := fun a ha b hb hlt => rel_of_key_lt h ha hb hlt
    constructor
    · intro a ha b hb hlt
      by_contra hnot
      rcases (not_lt.1 hnot).lt_or_eq with htext | htext
      · have hle := hkey b hb a ha (suggestionKey_lt_iff.2 (Or.inl htext))
        have hnle : ¬ DocumentedLe b.toCore a.toCore := not_documentedLe_iff.2 (Or.inl hlt)
        exact hnle hle
      · exact hlt.ne' (Decimal.toStr_injective htext)
    · intro a ha b hb htime hlt
      by_contra hnot
      rcases (not_lt.1 hnot).lt_or_eq with htail | htail
      · have hle := hkey b hb a ha (suggestionKey_lt_iff.2 (Or.inr ⟨htime.symm, htail⟩))
        have hnle : ¬ DocumentedLe b.toCore a.toCore :=
          not_documentedLe_iff.2 (Or.inr ⟨htime.symm, Or.inl hlt⟩)
        exact hnle hle
      · exact hlt.ne' (keyTail_inj htail).1
  · intro h
    have hmem : ∀ a ∈ sortSuggestions l, a ∈ l := fun a => (List.mem_insertionSort _).1
    refine (pairwise_insertionSort l).imp_of_mem fun {a b} ha hb hle => ?_
    have ha := hmem a ha
    have hb := hmem b hb
    by_contra hnot
    refine not_lt.2 hle (suggestionKey_lt_iff.2 ?_)
    rcases not_documentedLe_iff.1 hnot with ht | ⟨ht, hac | ⟨hac, htype⟩⟩
    · exact Or.inl (h.timestamps b hb a ha ht)
    · exact Or.inr ⟨ht.symm, h.actors b hb a ha ht.symm hac⟩
    · exact Or.inr ⟨ht.symm, keyTail_lt_of_text_lt hac.symm htype⟩

/-- **A batch appends every suggestion once and in the documented order** exactly if its keys are in
order. -/
theorem commit_sorted_iff (subtleDigest : Str → List UInt8) (ledger : MissionLedger)
    (l : List VertexSuggestion) :
    (∃ rows, commitAlone subtleDigest ledger l = .ok (ledger ++ rows) ∧
      (rows.map (·.toEventCore)).Perm (l.map (·.toCore)) ∧
      (rows.map (·.toEventCore)).Pairwise DocumentedLe) ↔ KeysInOrder l := by
  rw [commitAlone_eq, ← pairwise_sortSuggestions_iff]
  constructor
  · rintro ⟨rows, hrows, -, hsorted⟩
    rw [← List.append_cancel_left (Except.ok.inj hrows), map_toEventCore_chained] at hsorted
    exact List.pairwise_map.1 hsorted
  · intro hsorted
    refine ⟨_, rfl, ?_, ?_⟩
    · rw [map_toEventCore_chained]
      exact (List.perm_insertionSort _ l).map _
    · rw [map_toEventCore_chained]
      exact List.pairwise_map.2 hsorted

/-- A target that is found at a time. -/
def discoveryAt (time : ℕ) : VertexSuggestion where
  missionId := "mission"
  actorId := "agent-0"
  eventType := .targetDiscovered
  payload := .ofList [("targetId", .str "target")]
  timestamp := .ofInt time

/-- The time 10 comes before the time 9. -/
theorem commit_order_timestamps :
    ∃ rows, commitAlone (fun _ => []) [] [discoveryAt 9, discoveryAt 10] = .ok ([] ++ rows) ∧
      rows.map (·.timestamp) = [.ofInt 10, .ofInt 9] ∧
      ¬ (rows.map (·.toEventCore)).Pairwise DocumentedLe := by
  have hsort : sortSuggestions [discoveryAt 9, discoveryAt 10] =
      [discoveryAt 10, discoveryAt 9] := by
    have hkey : suggestionKey (discoveryAt 10) < suggestionKey (discoveryAt 9) := by
      decide +kernel
    simp [sortSuggestions, hkey]
  refine ⟨_, commitAlone_eq .., ?_, ?_⟩
  · rw [hsort]
    rfl
  · rw [map_toEventCore_chained, hsort]
    intro h
    have hle := List.rel_of_pairwise_cons h (List.mem_singleton.2 rfl)
    refine not_documentedLe_iff.2 (Or.inl ?_) hle
    decide +kernel

end Vertex
