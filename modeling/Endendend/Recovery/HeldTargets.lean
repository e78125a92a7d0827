/-
**A restore in place** (`MissionRecoveryPlanner.restore` on a mission as that of the smoke demo).

The mission keeps its targets by reference: `upsertTarget` stores the very object the ledger's
payload holds, the baseline takes over the objects of the checkpoint's registry, and a confirmation,
an assignment or an extraction changes the object it finds.  So a replay may change what the ledger
and the checkpoint hold, and with it what the next replay starts from.  Here a target is a
reference, and the records are kept apart from the references to them.  Nodes are never changed in
place.

Main definitions:

* `Recovery.TargetObjects` — the records the references lead to;
* `Recovery.HeldContext` — the mission and the map, with `registerNode`, `upsertTarget` and
  `setPhase` as in the smoke demo;
* `Recovery.HeldContext.applyCheckpointBaseline`, `Recovery.HeldContext.applyLedgerEvent`,
  `Recovery.HeldContext.restore` — the baseline, the replay of an event, the restore.

Main results:

* `Recovery.view_apply` — up to its time stamps a target does not depend on when it was changed.
-/
import Endendend.Foundation.Overwrites
import Endendend.Recovery.RecoveryPlanner

set_option relaxedAutoImplicit false
set_option autoImplicit false

namespace Recovery

open Js

/-! ### Targets and what changes them -/

/-- What an event does to a target. -/
inductive TargetChange
  | confirm (nodeId : Str)
  | assign (nodeId : Str)
  | extract (nodeId : Str)

/-- The target after a change at the time `now`. -/
def TargetChange.apply (now : Decimal) : TargetChange → TargetRecord → TargetRecord
  | .confirm nodeId => TargetRecord.confirmed now nodeId
  | .assign nodeId => TargetRecord.assigned now nodeId
  | .extract nodeId => TargetRecord.extracted now nodeId

/-- The properties stamped with the current time. -/
def timeStamps : List Str := [lit "confirmedAtMs", lit "assignedAtMs", lit "extractedAtMs"]

/-- A target up to its time stamps. -/
structure TargetView where
  confirmedBy : List Str
  fields : Str → Option Json

def TargetRecord.view (t : TargetRecord) : TargetView where
  confirmedBy := t.confirmedBy
  fields := fun k => if k ∈ timeStamps then none else t.fields.get? k

/-- What a change writes besides time stamps. -/
def TargetChange.write : TargetChange → Str → Option Json
  | .confirm _, k => if k = lit "status" then some (.str "confirmed") else none
  | .assign nodeId, k =>
    if k = lit "status" then some (.str "assigned")
    else if k = lit "assignedTo" then some (.str nodeId)
    else none
  | .extract nodeId, k =>
    if k = lit "status" then some (.str "extracted")
    else if k = lit "extractedBy" then some (.str nodeId)
    else none

/-- Who confirms a target by a change. -/
def TargetChange.confirmer : TargetChange → Option Str
  | .confirm nodeId => some nodeId
  | .assign _ => none
  | .extract _ => none

def TargetView.after (v : TargetView) (c : TargetChange) : TargetView where
  confirmedBy := Overwrites.collect TargetChange.confirmer v.confirmedBy c
  fields := Overwrites.overwrite TargetChange.write v.fields c

theorem targetId_apply (now : Decimal) (c : TargetChange) (t : TargetRecord) :
    (c.apply now t).targetId = t.targetId := by
  cases c <;> rfl

/-- Up to its time stamps a target does not depend on when it was changed. -/
theorem view_apply (now : Decimal) (c : TargetChange) (t : TargetRecord) :
    (c.apply now t).view = t.view.after c := by
  have hfields : (c.apply now t).view.fields = (t.view.after c).fields := by
    funext k
    change (if k ∈ timeStamps then none else (c.apply now t).fields.get? k) =
      (c.write k).or (if k ∈ timeStamps then none else t.fields.get? k)
    by_cases hk : k ∈ timeStamps
    · -- a time stamp is no property that a change writes
      have hstatus : k ≠ lit "status" := fun h => absurd (h ▸ hk) (by decide)
      have hassigned : k ≠ lit "assignedTo" := fun h => absurd (h ▸ hk) (by decide)
      have hextracted : k ≠ lit "extractedBy" := fun h => absurd (h ▸ hk) (by decide)
      rw [if_pos hk, if_pos hk]
      cases c <;> simp [TargetChange.write, hstatus, hassigned, hextracted]
    · have hconfirmed : k ≠ lit "confirmedAtMs" := fun h => hk (h ▸ by decide)
      have hassigned : k ≠ lit "assignedAtMs" := fun h => hk (h ▸ by decide)
      have hextracted : k ≠ lit "extractedAtMs" := fun h => hk (h ▸ by decide)
      rw [if_neg hk, if_neg hk]
      cases c with
      | confirm nodeId =>
          rw [TargetChange.apply, TargetRecord.confirmed, OrderedMap.get?_set, OrderedMap.get?_set,
            if_neg hconfirmed, TargetChange.write]
          split <;> rfl
      | assign nodeId =>
          rw [TargetChange.apply, TargetRecord.assigned, OrderedMap.get?_set, OrderedMap.get?_set,
            OrderedMap.get?_set, if_neg hassigned, TargetChange.write]
          by_cases hs : k = lit "status"
          · have hne : k ≠ lit "assignedTo" := hs ▸ by decide
            rw [if_pos hs, if_pos hs, if_neg hne]
            rfl
          · rw [if_neg hs, if_neg hs]
            split <;> rfl
      | extract nodeId =>
          rw [TargetChange.apply, TargetRecord.extracted, OrderedMap.get?_set, OrderedMap.get?_set,
            OrderedMap.get?_set, if_neg hextracted, TargetChange.write]
          by_cases hs : k = lit "status"
          · have hne : k ≠ lit "extractedBy" := hs ▸ by decide
            rw [if_pos hs, if_pos hs, if_neg hne]
            rfl
          · rw [if_neg hs, if_neg hs]
            split <;> rfl
  cases c <;> exact congrArg (TargetView.mk _) hfields

/-! ### The mission and the map -/

section Held

variable {ρ M Snap : Type*} [DecidableEq ρ] {idOf : ρ → Str}

/-- The records that the references to targets lead to; the id of a target never changes. -/
structure TargetObjects (idOf : ρ → Str) where
  get : ρ → TargetRecord
  id_get : ∀ o, (get o).targetId = idOf o

/-- One record is changed in place. -/
def TargetObjects.change (objects : TargetObjects idOf) (o : ρ) (now : Decimal) (c : TargetChange) :
    TargetObjects idOf where
  get := Function.update objects.get o (c.apply now (objects.get o))
  id_get := by
    intro o'
    by_cases h : o' = o
    · rw [h, Function.update_self, targetId_apply, objects.id_get]
    · rw [Function.update_of_ne h, objects.id_get]

/-- A payload: the records a replay hands on, a target by reference, and the other properties. -/
structure HeldPayload (ρ Snap : Type*) where
  node : Option NodeProfile
  patch : Option NodePatch
  target : Option ρ
  snapshot : Option Snap
  fields : OrderedMap Str Json

/-- The mission, with its nodes and targets under their ids, and the map. -/
structure HeldContext (idOf : ρ → Str) (M : Type*) where
  missionId : Str
  phase : Str
  phaseVersion : Decimal
  nodes : KeyedMap NodeProfile.nodeId
  targets : KeyedMap idOf
  objects : TargetObjects idOf
  map : M

/-- What is left open: what `setPhase` makes of the version when it sets a phase in place of
another, and what the map makes of a snapshot. -/
structure HeldPorts (M Snap : Type*) where
  bump : Str → Str → Decimal → Decimal
  mergeSnapshot : Snap → Str → M → M

/-- A checkpoint as the store holds it, as far as the baseline reads it. -/
structure HeldCheckpoint (idOf : ρ → Str) where
  phase : Str
  phaseVersion : Decimal
  activeNodeIds : List Str
  targetRegistry : KeyedMap idOf
  nodeSummary : OrderedMap Str NodeSummary
  lastLedgerHash : Str

namespace HeldContext

variable (ports : HeldPorts M Snap)

def registerNode (ctx : HeldContext idOf M) (node : NodeProfile) : HeldContext idOf M :=
  { ctx with nodes := ctx.nodes.put node }

def upsertTarget (ctx : HeldContext idOf M) (target : ρ) : HeldContext idOf M :=
  { ctx with targets := ctx.targets.put target }

def setPhase (ctx : HeldContext idOf M) (phase : Str) : HeldContext idOf M :=
  { ctx with phase := phase, phaseVersion := ports.bump phase ctx.phase ctx.phaseVersion }

/-! ### The baseline -/

/-- Restores the node with an id, if it is known to both sides. -/
def restoreNode (cp : HeldCheckpoint idOf) (nodes : KeyedMap NodeProfile.nodeId) (id : Str) :
    KeyedMap NodeProfile.nodeId :=
  match nodes.get? id, cp.nodeSummary.get? id with
  | some cur, some sum => nodes.put (cur.restored sum)
  | _, _ => nodes

/-- Restores the nodes, one id after the other. -/
def restoreNodes (cp : HeldCheckpoint idOf) (nodes : KeyedMap NodeProfile.nodeId) :
    KeyedMap NodeProfile.nodeId :=
  cp.activeNodeIds.foldl (restoreNode cp) nodes

/-- The targets are the objects of the registry, the phase is set with its version, and the nodes
are restored. -/
def applyCheckpointBaseline (ctx : HeldContext idOf M) (cp : HeldCheckpoint idOf) :
    HeldContext idOf M :=
  let ctx := { ctx with targets := cp.targetRegistry }
  let ctx := { ctx.setPhase ports cp.phase with phaseVersion := cp.phaseVersion }
  { ctx with nodes := restoreNodes cp ctx.nodes }

/-- The context a replay starts from. -/
def baseline (ctx : HeldContext idOf M) (checkpoint : Option (HeldCheckpoint idOf)) :
    HeldContext idOf M :=
  match checkpoint with
  | some cp => ctx.applyCheckpointBaseline ports cp
  | none => ctx

end HeldContext

/-! ### Events -/

/-- `String(payload[key] ?? "")`. -/
def HeldPayload.text (p : HeldPayload ρ Snap) (key : Str) : Str :=
  (nullish (p.fields.get? key) (.str [])).toText

/-- What an event asks for. -/
inductive ReplayAction (ρ Snap : Type*)
  | registerNode (node : NodeProfile)
  | updateNode (nodeId : Str) (patch : NodePatch)
  | upsertTarget (target : ρ)
  | changeTarget (targetId : Str) (c : TargetChange)
  | setPhase (phase : Str)
  | mergeSnapshot (snapshot : Snap) (actorId : Str)
  | nothing

/-- The target events ask for a change if the payload names a target and a node. -/
def HeldPayload.targetAction (p : HeldPayload ρ Snap) (c : Str → TargetChange) :
    ReplayAction ρ Snap :=
  let targetId := p.text "targetId"
  let nodeId := p.text "nodeId"
  if targetId ≠ [] ∧ nodeId ≠ [] then .changeTarget targetId (c nodeId) else .nothing

/-- What an event asks for, by its kind and its payload; an event of another kind asks for
nothing. -/
def replayAction (event : LedgerEvent (HeldPayload ρ Snap)) : ReplayAction ρ Snap :=
  let p := event.payload
  if event.kind = lit "node_register" then
    match p.node with
    | some node => .registerNode node
    | none => .nothing
  else if event.kind = lit "node_update" then
    let nodeId := p.text "nodeId"
    match p.patch with
    | some patch => if nodeId ≠ [] then .updateNode nodeId patch else .nothing
    | none => .nothing
  else if event.kind = lit "target_upsert" then
    match p.target with
    | some target => .upsertTarget target
    | none => .nothing
  else if event.kind = lit "target_confirm" then p.targetAction .confirm
  else if event.kind = lit "target_assign" then p.targetAction .assign
  else if event.kind = lit "target_extract" then p.targetAction .extract
  else if event.kind = lit "phase_transition_commit" then
    let next := p.text "to"
    if next ≠ [] then .setPhase next else .nothing
  else if event.kind = lit "map_snapshot_merge" then
    match p.snapshot with
    | some snapshot => .mergeSnapshot snapshot event.actorId
    | none => .nothing
  else .nothing

namespace HeldContext

variable (ports : HeldPorts M Snap)

/-- Does what an event asks for at the time `now`: an unknown node or target is left out. -/
def perform (now : Decimal) (ctx : HeldContext idOf M) : ReplayAction ρ Snap → HeldContext idOf M
  | .registerNode node => ctx.registerNode node
  | .updateNode nodeId patch =>
    match ctx.nodes.get? nodeId with
    | some cur => ctx.registerNode (cur.patched patch)
    | none => ctx
  | .upsertTarget target => ctx.upsertTarget target
  | .changeTarget targetId c =>
    match ctx.targets.get? targetId with
    | some target => { ctx with objects := ctx.objects.change target now c }
    | none => ctx
  | .setPhase phase => ctx.setPhase ports phase
  | .mergeSnapshot snapshot actorId =>
    { ctx with map := ports.mergeSnapshot snapshot actorId ctx.map }
  | .nothing => ctx

/-- Replays one event at the time `now`. -/
def applyLedgerEvent (now : Decimal) (ctx : HeldContext idOf M)
    (event : LedgerEvent (HeldPayload ρ Snap)) : HeldContext idOf M :=
  ctx.perform ports now (replayAction event)

/-- Replays events, each at its time. -/
def replay (clock : LedgerEvent (HeldPayload ρ Snap) → Decimal)
    (events : List (LedgerEvent (HeldPayload ρ Snap))) (ctx : HeldContext idOf M) :
    HeldContext idOf M :=
  events.foldl (fun ctx event => ctx.applyLedgerEvent ports (clock event) event) ctx

/-- The events a restore replays. -/
def replayEvents (ledger : EventLedgerStore (HeldPayload ρ Snap))
    (latest : Str → Option (HeldCheckpoint idOf)) (missionId : Str) :
    List (LedgerEvent (HeldPayload ρ Snap)) :=
  ledger.missionEventsAfter missionId ((latest missionId).map (·.lastLedgerHash))

/-- Applies the latest checkpoint as baseline, then replays; the number of replayed events is
reported. -/
def restore (ledger : EventLedgerStore (HeldPayload ρ Snap))
    (latest : Str → Option (HeldCheckpoint idOf))
    (clock : LedgerEvent (HeldPayload ρ Snap) → Decimal) (ctx : HeldContext idOf M) :
    HeldContext idOf M × ℕ :=
  let events := replayEvents ledger latest ctx.missionId
  let ctx := ctx.baseline ports (latest ctx.missionId)
  (ctx.replay ports clock events, events.length)

end HeldContext

end Held

end Recovery
