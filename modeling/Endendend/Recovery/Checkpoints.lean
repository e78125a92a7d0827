/-
**Recovery checkpoints** (`InMemoryCheckpointStore` and `RecoveryCheckpointManager` of
`shared/tashi-task-bidding-recovery.ts`).

A checkpoint records the phase, the map, the nodes and the targets of a mission, and seals the head
of the ledger.  The latest checkpoint of a mission is the one with the largest time.

Main definitions:

* `Recovery.NodeProfile`, `Recovery.TargetRecord`, `Recovery.RecoveryCheckpoint` — the records;
* `Recovery.InMemoryCheckpointStore` with `save`, `list`, `latest`;
* `Recovery.createCheckpoint` — builds a checkpoint, seals it and saves it.

Main results:

* `Recovery.latest_save` — **a saved checkpoint becomes the latest exactly if no saved one has a
  time as late**.
-/
import Endendend.Foundation.OwnKeys
import Endendend.Recovery.EventLedger
import Mathlib.Tactic.Order

set_option relaxedAutoImplicit false
set_option autoImplicit false

namespace Recovery

open Js

/-! ### Records -/

inductive NodeRole
  | explorer
  | relay
  | triage
  | rescuer
  | standby
  | command
  | sensor
  | transport
  | emergency
  deriving DecidableEq

/-- The text of a role. -/
def NodeRole.text : NodeRole → Str
  | explorer => "explorer"
  | relay => "relay"
  | triage => "triage"
  | rescuer => "rescuer"
  | standby => "standby"
  | command => "command"
  | sensor => "sensor"
  | transport => "transport"
  | emergency => "emergency"

/-- The health of a node, as far as checkpoints read or write it. -/
structure NodeHealthSample where
  timestampMs : Decimal
  batteryPct : Decimal
  linkQuality : Decimal

/-- The profile of a node, as far as checkpoints and the replay read or write it. -/
structure NodeProfile where
  nodeId : Str
  role : NodeRole
  health : NodeHealthSample
  trustScore : Decimal
  reputationScore : Decimal
  lastSeenMs : Decimal
  metadata : OrderedMap Str Json

/-- A target; `fields` are the properties besides the two that are read. -/
structure TargetRecord where
  targetId : Str
  confirmedBy : List Str
  fields : OrderedMap Str Json

def TargetRecord.toJson (t : TargetRecord) : Json :=
  .obj ((lit "targetId", .str t.targetId) :: (lit "confirmedBy", .arr (t.confirmedBy.map .str)) ::
    t.fields.entries)

/-- What a checkpoint keeps of a node. -/
structure NodeSummary where
  role : NodeRole
  batteryPct : Decimal
  linkQuality : Decimal
  trustScore : Decimal
  reputationScore : Decimal
  lastSeenMs : Option Decimal

def NodeSummary.toJson (s : NodeSummary) : Json :=
  .obj ([(lit "role", .str s.role.text), (lit "batteryPct", .num s.batteryPct),
    (lit "linkQuality", .num s.linkQuality), (lit "trustScore", .num s.trustScore),
    (lit "reputationScore", .num s.reputationScore)] ++
    (s.lastSeenMs.map fun t => (lit "lastSeenMs", Json.num t)).toList)

/-- A checkpoint before its proof is computed. -/
structure CheckpointBody where
  checkpointId : Str
  missionId : Str
  phase : Str
  phaseVersion : Decimal
  consensusSequence : Decimal
  mapVersion : Decimal
  mapHash : Str
  activeNodeIds : List Str
  targetRegistry : OrderedMap Str TargetRecord
  nodeSummary : OrderedMap Str NodeSummary
  lastLedgerHash : Str
  previousCheckpointHash : Str
  createdAtMs : Decimal
  createdBy : Str
  reason : Str
  metadata : List (Str × Json)

structure RecoveryCheckpoint extends CheckpointBody where
  proofHash : Str

def CheckpointBody.toJson (body : CheckpointBody) : Json :=
  .obj [("checkpointId", .str body.checkpointId), ("missionId", .str body.missionId),
    ("phase", .str body.phase), ("phaseVersion", .num body.phaseVersion),
    ("consensusSequence", .num body.consensusSequence), ("mapVersion", .num body.mapVersion),
    ("mapHash", .str body.mapHash), ("activeNodeIds", .arr (body.activeNodeIds.map .str)),
    ("targetRegistry", .obj (body.targetRegistry.entries.map fun p => (p.1, p.2.toJson))),
    ("nodeSummary", .obj (body.nodeSummary.entries.map fun p => (p.1, p.2.toJson))),
    ("lastLedgerHash", .str body.lastLedgerHash),
    ("previousCheckpointHash", .str body.previousCheckpointHash),
    ("createdAtMs", .num body.createdAtMs), ("createdBy", .str body.createdBy),
    ("reason", .str body.reason), ("metadata", .obj body.metadata)]

/-! ### The store -/

/-- The order of checkpoints by time. -/
def CreatedLe (a b : RecoveryCheckpoint) : Prop := a.createdAtMs ≤ b.createdAtMs

instance : DecidableRel CreatedLe :=
  fun a b => inferInstanceAs (Decidable (a.createdAtMs ≤ b.createdAtMs))

/-- The checkpoints under their ids, and for each mission the ids in the order they were saved. -/
structure InMemoryCheckpointStore where
  checkpoints : KeyedMap (CheckpointBody.checkpointId ∘ RecoveryCheckpoint.toCheckpointBody)
  byMission : OrderedMap Str (List Str)
  /-- Every id that is listed leads to a checkpoint. -/
  listed : ∀ missionId, ∀ id ∈ (byMission.get? missionId).getD [], checkpoints.get? id ≠ none

namespace InMemoryCheckpointStore

def empty : InMemoryCheckpointStore := ⟨∅, ∅, by simp⟩

def save (store : InMemoryCheckpointStore) (checkpoint : RecoveryCheckpoint) :
    InMemoryCheckpointStore where
  checkpoints := store.checkpoints.put checkpoint
  byMission :=
    let ids := (store.byMission.get? checkpoint.missionId).getD []
    store.byMission.set checkpoint.missionId (ids ++ [checkpoint.checkpointId])
  listed := by
    intro m id hid
    rw [KeyedMap.get?_put]
    split
    · simp
    · next hne =>
        rw [OrderedMap.get?_set] at hid
        split at hid
        · rcases List.mem_append.1 hid with hid | hid
          · exact store.listed _ id hid
          · exact absurd (List.mem_singleton.1 hid) hne
        · exact store.listed m id hid

/-- The checkpoints of a mission in the order they were saved; without a mission those of all. -/
def saved (store : InMemoryCheckpointStore) (missionId : Str) : List RecoveryCheckpoint :=
  if missionId = [] then store.checkpoints.values
  else ((store.byMission.get? missionId).getD []).filterMap store.checkpoints.get?

/-- The checkpoints of a mission, the oldest first. -/
def list (store : InMemoryCheckpointStore) (missionId : Str) : List RecoveryCheckpoint :=
  (store.saved missionId).insertionSort CreatedLe

/-- The later of two checkpoints, the first if they are of the same time. -/
def later (a b : RecoveryCheckpoint) : RecoveryCheckpoint :=
  if a.createdAtMs ≥ b.createdAtMs then a else b

def latest (store : InMemoryCheckpointStore) (missionId : Str) : Option RecoveryCheckpoint :=
  match store.list missionId with
  | [] => none
  | a :: l => some (l.foldl later a)

end InMemoryCheckpointStore

open InMemoryCheckpointStore

/-! ### Creating a checkpoint -/

/-- The arguments of `createCheckpoint`; of the map snapshot its version and its JSON are read. -/
structure CheckpointArgs where
  missionId : Str
  phase : Str
  phaseVersion : Decimal
  consensusSequence : Decimal
  mapVersion : Decimal
  mapJson : Json
  nodes : List NodeProfile
  targets : List TargetRecord
  lastLedgerHash : Str
  previousCheckpointHash : Str
  createdBy : Str
  reason : Str
  metadata : List (Str × Json)

def summaryOf (node : NodeProfile) : NodeSummary where
  role := node.role
  batteryPct := node.health.batteryPct
  linkQuality := node.health.linkQuality
  trustScore := node.trustScore
  reputationScore := node.reputationScore
  lastSeenMs := some node.lastSeenMs

/-- A node that counts as active. -/
def NodeProfile.active (n : NodeProfile) : Bool :=
  (1 / 10 : ℚ) < n.health.linkQuality.val ∧ 0 < n.health.batteryPct.val

section Manager

variable (sha256 : Str → List UInt8)

def sealCheckpoint (args : CheckpointArgs) (checkpointId : Str) (now : Decimal) :
    RecoveryCheckpoint :=
  let body : CheckpointBody :=
    { checkpointId
      missionId := args.missionId
      phase := args.phase
      phaseVersion := args.phaseVersion
      consensusSequence := args.consensusSequence
      mapVersion := args.mapVersion
      mapHash := hashObject sha256 args.mapJson
      activeNodeIds := ((args.nodes.filter (·.active)).map (·.nodeId)).insertionSort (· ≤ ·)
      targetRegistry := .ofList (args.targets.map fun t => (t.targetId, t))
      nodeSummary := .ofList (args.nodes.map fun n => (n.nodeId, summaryOf n))
      lastLedgerHash := args.lastLedgerHash
      previousCheckpointHash := args.previousCheckpointHash
      createdAtMs := now
      createdBy := args.createdBy
      reason := args.reason
      metadata := args.metadata }
  { body with proofHash := hashObject sha256 body.toJson }

def createCheckpoint (store : InMemoryCheckpointStore) (args : CheckpointArgs) (checkpointId : Str)
    (now : Decimal) : InMemoryCheckpointStore × RecoveryCheckpoint :=
  let checkpoint := sealCheckpoint sha256 args checkpointId now
  (store.save checkpoint, checkpoint)

def verifyIntegrity (checkpoint : RecoveryCheckpoint) : Bool :=
  hashObject sha256 checkpoint.toCheckpointBody.toJson = checkpoint.proofHash

/-- A checkpoint carries its own proof. -/
theorem verifyIntegrity_sealCheckpoint (args : CheckpointArgs) (checkpointId : Str)
    (now : Decimal) : verifyIntegrity sha256 (sealCheckpoint sha256 args checkpointId now) = true :=
  decide_eq_true rfl

end Manager

/-! ### The latest checkpoint -/

/-- The later of a checkpoint and what is known to be the latest of those after it. -/
def laterOr (a : RecoveryCheckpoint) : Option RecoveryCheckpoint → RecoveryCheckpoint
  | none => a
  | some b => later a b

/-- The latest of a list, the first one of those with the largest time. -/
def latestOf : List RecoveryCheckpoint → Option RecoveryCheckpoint
  | [] => none
  | a :: l => some (laterOr a (latestOf l))

theorem later_assoc (a b c : RecoveryCheckpoint) :
    later (later a b) c = later a (later b c) := by
  unfold later
  split_ifs <;> first | rfl | (exfalso; order)

theorem foldl_later (a : RecoveryCheckpoint) (l : List RecoveryCheckpoint) :
    l.foldl later a = laterOr a (latestOf l) := by
  induction l generalizing a with
  | nil => rfl
  | cons b l ih =>
      rw [List.foldl_cons, ih, latestOf]
      cases latestOf l with
      | none => rfl
      | some c => exact later_assoc a b c

theorem latestOf_orderedInsert (a : RecoveryCheckpoint) (l : List RecoveryCheckpoint) :
    latestOf (l.orderedInsert CreatedLe a) = some (laterOr a (latestOf l)) := by
  induction l with
  | nil => rfl
  | cons b l ih =>
      rw [List.orderedInsert]
      split
      · rfl
      · next hab =>
          -- `a` goes behind the strictly older `b`, which the choice then passes over
          have hba : ∀ c, later b (later a c) = later a (later b c) := by
            intro c
            simp only [CreatedLe] at hab
            unfold later
            split_ifs <;> first | rfl | (exfalso; order)
          have hb : later b a = later a b := by
            simp only [CreatedLe] at hab
            unfold later
            split_ifs <;> first | rfl | (exfalso; order)
          rw [latestOf, ih, latestOf]
          cases latestOf l with
          | none => exact congrArg some hb
          | some c => exact congrArg some (hba c)

/-- Sorting by time does not change which checkpoint is chosen. -/
theorem latestOf_insertionSort (l : List RecoveryCheckpoint) :
    latestOf (l.insertionSort CreatedLe) = latestOf l := by
  induction l with
  | nil => rfl
  | cons a l ih => rw [List.insertionSort, List.foldr_cons, ← List.insertionSort,
      latestOf_orderedInsert, ih, latestOf]

theorem latest_eq (store : InMemoryCheckpointStore) (missionId : Str) :
    store.latest missionId = latestOf (store.saved missionId) := by
  rw [← latestOf_insertionSort, latest, list]
  cases (store.saved missionId).insertionSort CreatedLe with
  | nil => rfl
  | cons a l => simp only [foldl_later, latestOf]

theorem latestOf_concat (l : List RecoveryCheckpoint) (c : RecoveryCheckpoint) :
    latestOf (l ++ [c]) =
      some (match latestOf l with
        | none => c
        | some prev => later prev c) := by
  induction l with
  | nil => rfl
  | cons a l ih =>
      rw [List.cons_append, latestOf, ih, latestOf]
      cases latestOf l with
      | none => rfl
      | some b => exact congrArg some (later_assoc a b c).symm

theorem mem_of_latestOf {l : List RecoveryCheckpoint} {c : RecoveryCheckpoint}
    (h : latestOf l = some c) : c ∈ l := by
  induction l generalizing c with
  | nil => exact absurd h (by simp [latestOf])
  | cons a l ih =>
      rw [latestOf, Option.some_inj] at h
      cases hl : latestOf l with
      | none => rw [hl] at h; exact h ▸ List.mem_cons_self
      | some b =>
          rw [hl, laterOr, later] at h
          split at h
          · exact h ▸ List.mem_cons_self
          · exact h ▸ List.mem_cons_of_mem _ (ih hl)

/-- A checkpoint saved under a new id comes last in the list of its mission. -/
theorem saved_save {store : InMemoryCheckpointStore} {c : RecoveryCheckpoint}
    (hfresh : store.checkpoints.get? c.checkpointId = none) :
    (store.save c).saved c.missionId = store.saved c.missionId ++ [c] := by
  unfold saved
  split
  · exact KeyedMap.values_put_of_fresh hfresh
  · have hids : ((store.save c).byMission.get? c.missionId).getD [] =
        (store.byMission.get? c.missionId).getD [] ++ [c.checkpointId] := by
      simp [save]
    have hold : ∀ id ∈ (store.byMission.get? c.missionId).getD [],
        (store.save c).checkpoints.get? id = store.checkpoints.get? id := by
      intro id hid
      rw [save, KeyedMap.get?_put, if_neg]
      rintro rfl
      exact store.listed _ _ hid hfresh
    rw [hids, List.filterMap_append, List.filterMap_congr hold]
    simp [save, KeyedMap.get?_put]

/-- **A saved checkpoint becomes the latest exactly if no saved one has a time as late.** -/
theorem latest_save {store : InMemoryCheckpointStore} {c : RecoveryCheckpoint}
    (hfresh : store.checkpoints.get? c.checkpointId = none) :
    (store.save c).latest c.missionId =
      some (match store.latest c.missionId with
        | none => c
        | some prev => later prev c) := by
  rw [latest_eq, latest_eq, saved_save hfresh, latestOf_concat]

end Recovery
