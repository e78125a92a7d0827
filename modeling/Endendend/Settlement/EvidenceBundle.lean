/-
**The leaves of a settlement** (`arc/evidence-bundle.ts`, and `contributionMerkleRoot` of
`arc/reward-manifest.ts`).

The evidence of a mission and the contributions to it are hashed record by record, and the Merkle
root over the digests is what is sealed.  No record is two digests joined, so the root binds them.

Main definitions:

* `Settlement.EvidenceKind`, `Settlement.classifyEvidence` — the kinds of evidence;
* `Settlement.buildEvidenceBundle` — the bundle of a mission;
* `Settlement.contributionMerkleRoot` — the root over the contributions.

Main results:

* `Settlement.isLeaf_evidenceLeaf`, `Settlement.isLeaf_contributionLeaf` — all leaves are digests of
  records that are never inner nodes;
* `Settlement.same_evidence_of_merkleRoot_eq` — **bundles with the same root and as many items hold
  the same evidence, item by item**;
* `Settlement.records_eq_of_contributionMerkleRoot_eq` — **so do contributions**;
* `Settlement.contributionMerkleRoot_ne_nil` — contributions are told from none.
-/
import Endendend.Settlement.RewardManifest
import Endendend.Vertex.MerkleRoot

set_option relaxedAutoImplicit false
set_option autoImplicit false

namespace Settlement

open Js Vertex MerkleTree

/-! ### Evidence -/

inductive EvidenceKind
  | thermalHit
  | opticalConfirmation
  | audioSignal
  | gasDetection
  | mapDisplacement
  | manualNote
  | rescueContact
  | extractionConfirmation
  deriving DecidableEq

/-- The text of a kind of evidence. -/
def EvidenceKind.text : EvidenceKind → Str
  | thermalHit => "thermal_hit"
  | opticalConfirmation => "optical_confirmation"
  | audioSignal => "audio_signal"
  | gasDetection => "gas_detection"
  | mapDisplacement => "map_displacement"
  | manualNote => "manual_note"
  | rescueContact => "rescue_contact"
  | extractionConfirmation => "extraction_confirmation"

/-- The kinds of evidence in the order of the source. -/
def evidenceKinds : List EvidenceKind :=
  [.thermalHit, .opticalConfirmation, .audioSignal, .gasDetection, .mapDisplacement, .manualNote,
    .rescueContact, .extractionConfirmation]

theorem EvidenceKind.find?_text (k : EvidenceKind) :
    (evidenceKinds.find? fun k' => k'.text = k.text) = some k := by
  cases k <;> decide

theorem EvidenceKind.text_injective : Function.Injective EvidenceKind.text := by
  intro k k' h
  rw [← Option.some_inj, ← find?_text k, h, find?_text k']

theorem EvidenceKind.bar_notMem_text (k : EvidenceKind) : unit '|' ∉ k.text := by
  cases k <;> decide

/-- The sensors that a kind of evidence calls for. -/
def evidenceSensors : EvidenceKind → List Str
  | .thermalHit => ["thermal", "ir", "lwir"]
  | .opticalConfirmation => ["rgb", "camera", "eo", "visual"]
  | .gasDetection => ["gas", "chemical", "sniffer"]
  | .extractionConfirmation => ["carrier", "winch", "lidar"]
  | .rescueContact => ["radio", "audio", "lte", "long_range_radio"]
  | _ => []

/-- The kind of evidence that a row is. -/
def classifyEvidence : MissionLedgerEventType → Option EvidenceKind
  | .targetDiscovered => some .thermalHit
  | .targetConfirmed => some .opticalConfirmation
  | .safetyAlert => some .gasDetection
  | .extractionConfirmed => some .extractionConfirmation
  | _ => none

/-- What stays a parameter: the digest, the sensors that a node is known to have, and the number
that is nearest to a fraction. -/
structure EvidencePlatform where
  subtleDigest : Str → List UInt8
  listSensorHints : Str → List Str
  num : ℚ → Decimal

/-- How well the sensors of a node fit a kind of evidence. -/
def capabilityMatch (P : EvidencePlatform) (nodeId : Str) (kind : EvidenceKind) : ℚ :=
  let required := evidenceSensors kind
  if required.length = 0 then 3 / 4
  else
    let hints := P.listSensorHints nodeId
    if hints.length = 0 then 9 / 20
    else
      let hit := (required.filter fun r => hints.any fun h => r <:+: h ∨ h <:+: r).length
      min 1 (7 / 20 + (hit / required.length : ℚ) * (13 / 20))

/-- How sure a payload makes us. -/
def confidenceFromPayload (payload : OrderedMap Str Json) : Decimal :=
  match payload.get? "confidence" with
  | some (.num c) => min 1 (max 0 c)
  | _ =>
    match payload.get? "thermalTemp" with
    | some (.num temp) => if 37 < temp then Decimal.mk' 9 (-1) else Decimal.mk' 72 (-2)
    | _ => Decimal.mk' 72 (-2)

structure LatticeValidation where
  nodeTrust : ℚ
  capabilityMatch : ℚ

structure EvidenceItem where
  sourceNode : Str
  timestamp : Decimal
  evidenceType : EvidenceKind
  confidence : Decimal
  payload : OrderedMap Str Json
  ledgerHash : Str
  latticeValidation : LatticeValidation

structure EvidenceBundleRecord where
  missionId : Str
  bundleHash : Str
  items : List EvidenceItem
  merkleRoot : Str

/-- The evidence that a row gives in a mission, if any. -/
def evidenceItem (P : EvidencePlatform) (registry : NodeRegistry) (missionId : Str)
    (e : MissionLedgerEvent) : Option EvidenceItem :=
  if e.missionId ≠ missionId then none
  else if e.plane = .arc then none
  else
    (classifyEvidence e.eventType).map fun evidenceType =>
      { sourceNode := e.actorId
        timestamp := e.timestamp
        evidenceType
        confidence := confidenceFromPayload e.payload
        payload := e.payload
        ledgerHash := e.eventHash
        latticeValidation :=
          { nodeTrust := registry.latticeTrust01 e.actorId
            capabilityMatch := capabilityMatch P e.actorId evidenceType } }

/-- The record of an item that is hashed. -/
def evidenceRecord (item : EvidenceItem) : Str :=
  item.ledgerHash ++ unit '|' :: (stableStringify (.obj item.payload.entries) ++
    unit '|' :: item.evidenceType.text)

/-- The leaf of an item. -/
def evidenceLeaf (P : EvidencePlatform) (item : EvidenceItem) : Str :=
  sha256Hex P.subtleDigest (evidenceRecord item)

/-- An item as the JSON object that goes into the hash of the bundle. -/
def EvidenceItem.toJson (P : EvidencePlatform) (item : EvidenceItem) : Json :=
  .obj [("sourceNode", .str item.sourceNode), ("timestamp", .num item.timestamp),
    ("evidenceType", .str item.evidenceType.text), ("confidence", .num item.confidence),
    ("payload", .obj item.payload.entries), ("ledgerHash", .str item.ledgerHash),
    ("latticeValidation", .obj [("nodeTrust", .num (P.num item.latticeValidation.nodeTrust)),
      ("capabilityMatch", .num (P.num item.latticeValidation.capabilityMatch))])]

/-- The evidence of a mission, with the root over its leaves. -/
def buildEvidenceBundle (P : EvidencePlatform) (missionId : Str)
    (ledgerEvents : List MissionLedgerEvent) (registry : NodeRegistry) : EvidenceBundleRecord :=
  let items := ledgerEvents.filterMap (evidenceItem P registry missionId)
  let leaves := items.map (evidenceLeaf P)
  let merkleRoot := merkleRootHex P.subtleDigest leaves
  let body := stableStringify (.obj [("missionId", .str missionId),
    ("items", .arr (items.map (EvidenceItem.toJson P))), ("merkleRoot", .str merkleRoot)])
  { missionId
    bundleHash := sha256Hex P.subtleDigest (lit "evidence|" ++ body)
    items
    merkleRoot }

/-! ### Contributions -/

/-- The record of a contribution that is hashed. -/
def contributionRecord (P : EvidencePlatform) (c : ProofContribution) : Str :=
  stableStringify (.obj [("eventType", .str c.eventType.text), ("eventHash", .str c.eventHash),
    ("checkpointHash", .str c.checkpointHash), ("latticeScore", .num (P.num c.latticeScore)),
    ("value", .num (P.num c.value))])

/-- The leaf of a contribution. -/
def contributionLeaf (P : EvidencePlatform) (c : ProofContribution) : Str :=
  sha256Hex P.subtleDigest (contributionRecord P c)

/-- The root over the contributions; for none, the root over one leaf that says so. -/
def contributionMerkleRoot (P : EvidencePlatform) (rows : List ProofContribution) : Str :=
  let leaves := rows.map (contributionLeaf P)
  merkleRootHex P.subtleDigest
    (if leaves.length ≠ 0 then leaves else [sha256Hex P.subtleDigest (lit "reward-manifest|empty")])

/-! ### What the roots bind -/

section

variable {P : EvidencePlatform}

/-- A record of evidence has two bars, and two digests that are joined have one. -/
theorem isLeaf_evidenceLeaf (hinj : Function.Injective (sha256Hex P.subtleDigest))
    (item : EvidenceItem) : IsLeaf P.subtleDigest (evidenceLeaf P item) := by
  refine isLeaf_of_count_ne_one hinj ?_
  simp only [evidenceRecord, List.count_append, List.count_cons_self]
  omega

/-- A record of a contribution is an object in JSON. -/
theorem isLeaf_contributionLeaf (hinj : Function.Injective (sha256Hex P.subtleDigest))
    (c : ProofContribution) : IsLeaf P.subtleDigest (contributionLeaf P c) := by
  have hbrace : unit '{' ∈ contributionRecord P c := by
    rw [contributionRecord, stableStringify]
    exact List.mem_cons_self
  exact isLeaf_of_mem hinj hbrace (by decide) (by decide)

/-- What is hashed of two items says the same, up to the order of keys. -/
structure SameEvidence (item item' : EvidenceItem) : Prop where
  ledgerHash : item.ledgerHash = item'.ledgerHash
  payload : Json.Same (.obj item.payload.entries) (.obj item'.payload.entries)
  evidenceType : item.evidenceType = item'.evidenceType

/-- A record of evidence can be read back: the kind after its last bar, the hash before its
first. -/
theorem sameEvidence_of_evidenceRecord_eq {item item' : EvidenceItem}
    (hbar : unit '|' ∉ item.ledgerHash) (hbar' : unit '|' ∉ item'.ledgerHash)
    (h : evidenceRecord item = evidenceRecord item') : SameEvidence item item' := by
  obtain ⟨hhash, hrest⟩ := JoinedKeys.append_cons_inj_left hbar hbar' h
  obtain ⟨hpayload, hkind⟩ := JoinedKeys.append_cons_inj_right
    item.evidenceType.bar_notMem_text item'.evidenceType.bar_notMem_text hrest
  exact ⟨hhash, same_of_stableStringify_eq hpayload, EvidenceKind.text_injective hkind⟩

/-- Lists whose leaves agree have related elements, if leaves that agree have. -/
theorem forall₂_of_map_eq {α β : Type*} {f : α → β} {R : α → α → Prop} {l l' : List α}
    (hR : ∀ a ∈ l, ∀ b ∈ l', f a = f b → R a b) (h : l.map f = l'.map f) : List.Forall₂ R l l' := by
  have hf : List.Forall₂ (fun a b => f a = f b) l l' :=
    List.forall₂_map_left_iff.1 (List.forall₂_map_right_iff.1 (h ▸ List.forall₂_refl _))
  refine (List.forall₂_iff_zip.1 hf).casesOn fun hlen hzip => List.forall₂_iff_zip.2 ⟨hlen, ?_⟩
  intro a b hab
  exact hR a (List.of_mem_zip hab).1 b (List.of_mem_zip hab).2 (hzip hab)

/-- The items of a bundle give the leaves below its root. -/
theorem merkleRoot_buildEvidenceBundle (missionId : Str) (ledgerEvents : List MissionLedgerEvent)
    (registry : NodeRegistry) :
    (buildEvidenceBundle P missionId ledgerEvents registry).merkleRoot =
      merkleRootHex P.subtleDigest
        ((buildEvidenceBundle P missionId ledgerEvents registry).items.map (evidenceLeaf P)) :=
  rfl

/-- **Bundles with the same root and as many items hold the same evidence, item by item**, if no
hash of a row contains a bar. -/
theorem same_evidence_of_merkleRoot_eq (hinj : Function.Injective (sha256Hex P.subtleDigest))
    {missionId missionId' : Str} {ledgerEvents ledgerEvents' : List MissionLedgerEvent}
    {registry registry' : NodeRegistry}
    (hbar : ∀ item ∈ (buildEvidenceBundle P missionId ledgerEvents registry).items,
      unit '|' ∉ item.ledgerHash)
    (hbar' : ∀ item ∈ (buildEvidenceBundle P missionId' ledgerEvents' registry').items,
      unit '|' ∉ item.ledgerHash)
    (hlen : (buildEvidenceBundle P missionId ledgerEvents registry).items.length =
      (buildEvidenceBundle P missionId' ledgerEvents' registry').items.length)
    (hroot : (buildEvidenceBundle P missionId ledgerEvents registry).merkleRoot =
      (buildEvidenceBundle P missionId' ledgerEvents' registry').merkleRoot) :
    List.Forall₂ SameEvidence (buildEvidenceBundle P missionId ledgerEvents registry).items
      (buildEvidenceBundle P missionId' ledgerEvents' registry').items := by
  have hleaf : ∀ (items : List EvidenceItem), ∀ s ∈ items.map (evidenceLeaf P),
      IsLeaf P.subtleDigest s := by
    intro items s hs
    obtain ⟨item, -, rfl⟩ := List.mem_map.1 hs
    exact isLeaf_evidenceLeaf hinj item
  rw [merkleRoot_buildEvidenceBundle, merkleRoot_buildEvidenceBundle] at hroot
  have hleaves := eq_of_merkleRootHex_eq hinj (hleaf _) (hleaf _)
    (by rw [List.length_map, List.length_map, hlen]) hroot
  refine forall₂_of_map_eq (fun item hitem item' hitem' h => ?_) hleaves
  exact sameEvidence_of_evidenceRecord_eq (hbar item hitem) (hbar' item' hitem') (hinj h)

/-- The root over contributions is the root over their leaves. -/
theorem contributionMerkleRoot_eq {rows : List ProofContribution} (hne : rows ≠ []) :
    contributionMerkleRoot P rows =
      merkleRootHex P.subtleDigest (rows.map (contributionLeaf P)) := by
  have hlen : (rows.map (contributionLeaf P)).length ≠ 0 := by
    rw [List.length_map]
    exact mt List.length_eq_zero_iff.1 hne
  rw [contributionMerkleRoot, if_pos hlen]

theorem isLeaf_of_mem_map_contributionLeaf (hinj : Function.Injective (sha256Hex P.subtleDigest))
    {rows : List ProofContribution} :
    ∀ s ∈ rows.map (contributionLeaf P), IsLeaf P.subtleDigest s := by
  intro s hs
  obtain ⟨c, -, rfl⟩ := List.mem_map.1 hs
  exact isLeaf_contributionLeaf hinj c

/-- **As many contributions with the same root are the same records.** -/
theorem records_eq_of_contributionMerkleRoot_eq
    (hinj : Function.Injective (sha256Hex P.subtleDigest)) {rows rows' : List ProofContribution}
    (hlen : rows.length = rows'.length)
    (hroot : contributionMerkleRoot P rows = contributionMerkleRoot P rows') :
    rows.map (contributionRecord P) = rows'.map (contributionRecord P) := by
  rcases eq_or_ne rows [] with rfl | hne
  · rw [List.length_eq_zero_iff.1 hlen.symm]
  · have hne' : rows' ≠ [] := by
      rintro rfl
      exact hne (List.length_eq_zero_iff.1 hlen)
    rw [contributionMerkleRoot_eq hne, contributionMerkleRoot_eq hne'] at hroot
    have hleaves := eq_of_merkleRootHex_eq hinj (isLeaf_of_mem_map_contributionLeaf hinj)
      (isLeaf_of_mem_map_contributionLeaf hinj) (by rw [List.length_map, List.length_map, hlen])
      hroot
    refine List.map_injective_iff.2 hinj ?_
    rw [List.map_map, List.map_map]
    exact hleaves

/-- **Contributions are told from none**: the one leaf that stands for none is no object. -/
theorem contributionMerkleRoot_ne_nil (hinj : Function.Injective (sha256Hex P.subtleDigest))
    {rows : List ProofContribution} (hne : rows ≠ []) :
    contributionMerkleRoot P rows ≠ contributionMerkleRoot P [] := by
  intro heq
  obtain ⟨c, rest, rfl⟩ := List.exists_cons_of_ne_nil hne
  have hempty : ∀ s ∈ [sha256Hex P.subtleDigest (lit "reward-manifest|empty")],
      IsLeaf P.subtleDigest s := by
    intro s hs
    rw [List.mem_singleton.1 hs]
    exact @isLeaf_of_mem _ hinj _ (unit 'r') (by decide) (by decide) (by decide)
  rw [contributionMerkleRoot_eq hne] at heq
  have hcompleted := (merkleRootHex_eq_iff_completed hinj (isLeaf_of_mem_map_contributionLeaf hinj)
    hempty (by simp) (List.cons_ne_nil _ _)).1 heq
  -- the first leaf is among the completed ones, and these are all the leaf of the empty manifest
  have hmem : contributionLeaf P c ∈ completed ((c :: rest).map (contributionLeaf P)) :=
    (prefix_completed _).subset List.mem_cons_self
  rw [hcompleted] at hmem
  have hrecord := hinj (List.mem_singleton.1 (mem_of_mem_completed hmem))
  rw [contributionRecord, stableStringify] at hrecord
  exact absurd (List.cons.inj hrecord).1 (by decide)

end

end Settlement
