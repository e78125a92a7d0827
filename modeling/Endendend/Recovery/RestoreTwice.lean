/-
**Is restoring twice restoring once?**

The second of two restores replays the same events.  A phase is set again, a node is registered or
patched again, and a change of a target writes what it wrote before, so nothing changes as long as
both replays find the same objects.

With a checkpoint they do: its registry is where both start.  Without one the second replay starts
from the targets that the first one left.  Confirmations, assignments and extractions that precede
the first upsert of a target then change the object that was upserted last, which is the ledger's
own, while the first replay changed what the context held before.  The target stays as it is exactly
when these early events say nothing new about that object.

Main definitions:

* `Recovery.NodeEffect` — what a restore does to a node: it sets it, or overrides some properties;
* `Recovery.SaysNothingNew` — changes leave no trace between two rounds of others;
* `Recovery.HeldContext.EarlyHarmless` — so it is for the events before the first upsert of each
  target;
* `Recovery.KeepsNames` — no patch renames a node that is ever known.

Main results:

* `Recovery.HeldContext.get?_nodes_restore_restore` — **the nodes are the same after two restores**;
* `Recovery.HeldContext.restore_twice_iff` — **two restores leave the same mission as one exactly
  when there is a checkpoint or the early events are harmless**.
-/
import Endendend.Recovery.HeldTargets

set_option relaxedAutoImplicit false
set_option autoImplicit false

namespace Recovery

open Js

/-! ### What a restore does to a node -/

/-- New values for some properties of a node. -/
structure NodeOverride where
  role : Option NodeRole
  batteryPct : Option Decimal
  linkQuality : Option Decimal
  timestampMs : Option Decimal
  trustScore : Option Decimal
  reputationScore : Option Decimal
  lastSeenMs : Option Decimal
  replayed : Bool

namespace NodeOverride

/-- The metadata of a node after a restore that replayed a patch of it, or none. -/
def mark (replayed : Bool) (metadata : OrderedMap Str Json) : OrderedMap Str Json :=
  if replayed then metadata.set "replayed" (.bool true) else metadata

theorem mark_mark (a b : Bool) (m : OrderedMap Str Json) : mark a (mark b m) = mark (a || b) m := by
  cases a with
  | false => rfl
  | true =>
      cases b with
      | false => rfl
      | true => exact OrderedMap.set_of_get? ((OrderedMap.get?_set _ _ _ _).trans (if_pos rfl))

def apply (o : NodeOverride) (p : NodeProfile) : NodeProfile where
  nodeId := p.nodeId
  role := o.role.getD p.role
  health :=
    { timestampMs := o.timestampMs.getD p.health.timestampMs
      batteryPct := o.batteryPct.getD p.health.batteryPct
      linkQuality := o.linkQuality.getD p.health.linkQuality }
  trustScore := o.trustScore.getD p.trustScore
  reputationScore := o.reputationScore.getD p.reputationScore
  lastSeenMs := o.lastSeenMs.getD p.lastSeenMs
  metadata := mark o.replayed p.metadata

/-- One override and then another one. -/
def andThen (o o' : NodeOverride) : NodeOverride where
  role := o'.role.or o.role
  batteryPct := o'.batteryPct.or o.batteryPct
  linkQuality := o'.linkQuality.or o.linkQuality
  timestampMs := o'.timestampMs.or o.timestampMs
  trustScore := o'.trustScore.or o.trustScore
  reputationScore := o'.reputationScore.or o.reputationScore
  lastSeenMs := o'.lastSeenMs.or o.lastSeenMs
  replayed := o'.replayed || o.replayed

theorem apply_andThen (o o' : NodeOverride) (p : NodeProfile) :
    (o.andThen o').apply p = o'.apply (o.apply p) := by
  simp only [apply, andThen, Option.getD_or, mark_mark]

theorem andThen_self (o : NodeOverride) : o.andThen o = o := by
  simp [andThen]

/-- Overriding twice is overriding once. -/
theorem apply_apply (o : NodeOverride) (p : NodeProfile) : o.apply (o.apply p) = o.apply p := by
  rw [← apply_andThen, andThen_self]

/-- No property has a new value. -/
def unchanged : NodeOverride := ⟨none, none, none, none, none, none, none, false⟩

theorem map_unchanged (x : Option NodeProfile) : x.map unchanged.apply = x := by
  cases x <;> rfl

/-- What the summary of a checkpoint overrides. -/
def ofSummary (sum : NodeSummary) : NodeOverride where
  role := some sum.role
  batteryPct := some sum.batteryPct
  linkQuality := some sum.linkQuality
  timestampMs := sum.lastSeenMs
  trustScore := some sum.trustScore
  reputationScore := some sum.reputationScore
  lastSeenMs := sum.lastSeenMs
  replayed := false

theorem apply_ofSummary (cur : NodeProfile) (sum : NodeSummary) :
    (ofSummary sum).apply cur = cur.restored sum := rfl

/-- What a patch overrides besides the id. -/
def ofPatch (patch : NodePatch) : NodeOverride where
  role := patch.role
  batteryPct := patch.health.map (·.batteryPct)
  linkQuality := patch.health.map (·.linkQuality)
  timestampMs := patch.health.map (·.timestampMs)
  trustScore := patch.trustScore
  reputationScore := patch.reputationScore
  lastSeenMs := patch.lastSeenMs
  replayed := true

/-- A patch that does not rename the node overrides properties. -/
theorem apply_ofPatch {cur : NodeProfile} {patch : NodePatch}
    (h : ∀ b, patch.nodeId = some b → b = cur.nodeId) :
    (ofPatch patch).apply cur = cur.patched patch := by
  have hid : patch.nodeId.getD cur.nodeId = cur.nodeId := by
    cases hb : patch.nodeId with
    | none => rfl
    | some b => exact h b hb
  unfold NodeProfile.patched
  rw [hid]
  cases hh : patch.health with
  | none => simp [apply, ofPatch, mark, hh]
  | some health => simp [apply, ofPatch, mark, hh]

end NodeOverride

/-- What events do to a node: they register it, or override properties if it is known. -/
inductive NodeEffect
  | set (node : NodeProfile)
  | override (o : NodeOverride)

namespace NodeEffect

def apply : NodeEffect → Option NodeProfile → Option NodeProfile
  | .set node, _ => some node
  | .override o, x => x.map o.apply

theorem apply_apply (e : NodeEffect) (x : Option NodeProfile) :
    e.apply (e.apply x) = e.apply x := by
  cases e with
  | set node => rfl
  | override o =>
      cases x with
      | none => rfl
      | some p => exact congrArg some (o.apply_apply p)

/-- An effect and then another one are an effect. -/
theorem exists_andThen (e e' : NodeEffect) :
    ∃ e'' : NodeEffect, ∀ x, e''.apply x = e'.apply (e.apply x) := by
  cases e' with
  | set node => exact ⟨.set node, fun _ => rfl⟩
  | override o' =>
      cases e with
      | set node => exact ⟨.set (o'.apply node), fun _ => rfl⟩
      | override o =>
          refine ⟨.override (o.andThen o'), fun x => ?_⟩
          cases x with
          | none => rfl
          | some p => exact congrArg some (o.apply_andThen o' p)

/-- Effects one after the other are an effect. -/
theorem exists_foldl (es : List NodeEffect) :
    ∃ e : NodeEffect, ∀ x, e.apply x = es.foldl (fun x e => e.apply x) x := by
  induction es with
  | nil => exact ⟨.override .unchanged, fun x => by cases x <;> rfl⟩
  | cons e es ih =>
      obtain ⟨e', h⟩ := ih
      obtain ⟨e'', h'⟩ := exists_andThen e e'
      exact ⟨e'', fun x => (h' x).trans (h _)⟩

end NodeEffect

variable {ρ M Snap : Type*} [DecidableEq ρ] {idOf : ρ → Str}

/-! ### Nodes -/

namespace ReplayAction

/-- What an action does to the node with an id. -/
def nodeEffect (id : Str) : ReplayAction ρ Snap → Option NodeEffect
  | .registerNode node => if node.nodeId = id then some (.set node) else none
  | .updateNode nodeId patch => if nodeId = id then some (.override (.ofPatch patch)) else none
  | _ => none

/-- The action renames the node with an id. -/
def Renames (a : ReplayAction ρ Snap) (id : Str) : Prop :=
  ∃ patch b, a = .updateNode id patch ∧ patch.nodeId = some b ∧ b ≠ id

end ReplayAction

/-- No replayed patch renames a node that is known to the context or registered by the replay. -/
def KeepsNames (events : List (LedgerEvent (HeldPayload ρ Snap))) (ctx : HeldContext idOf M) :
    Prop :=
  ∀ e ∈ events, ∀ id, (replayAction e).Renames id →
    ctx.nodes.get? id = none ∧
      ∀ e' ∈ events, ∀ node, replayAction e' = .registerNode node → node.nodeId ≠ id

namespace HeldContext

variable {ports : HeldPorts M Snap}

/-- The node with an id after an action that renames no node. -/
theorem get?_nodes_perform {now : Decimal} {ctx : HeldContext idOf M} {a : ReplayAction ρ Snap}
    (h : ∀ id, a.Renames id → ctx.nodes.get? id = none) (id : Str) :
    (ctx.perform ports now a).nodes.get? id =
      (a.nodeEffect id).elim (ctx.nodes.get? id) fun e => e.apply (ctx.nodes.get? id) := by
  cases a with
  | registerNode node =>
      change (ctx.nodes.put node).get? id = _
      rw [KeyedMap.get?_put, ReplayAction.nodeEffect]
      by_cases hid : id = node.nodeId
      · rw [if_pos hid, if_pos hid.symm]
        rfl
      · rw [if_neg hid, if_neg (Ne.symm hid)]
        rfl
  | updateNode nodeId patch =>
      simp only [perform, ReplayAction.nodeEffect]
      cases hcur : ctx.nodes.get? nodeId with
      | none =>
          by_cases hid : nodeId = id
          · rw [if_pos hid, Option.elim_some, ← hid, hcur]
            rfl
          · rw [if_neg hid]
            rfl
      | some cur =>
          have hname : ∀ b, patch.nodeId = some b → b = cur.nodeId := by
            intro b hb
            rw [KeyedMap.key_of_get? hcur]
            by_contra hne
            have hnone := h nodeId ⟨patch, b, rfl, hb, hne⟩
            exact absurd (hcur.symm.trans hnone) (Option.some_ne_none cur)
          have hkey : ((NodeOverride.ofPatch patch).apply cur).nodeId = nodeId := by
            change cur.nodeId = nodeId
            exact KeyedMap.key_of_get? hcur
          change (ctx.nodes.put (cur.patched patch)).get? id = _
          rw [← NodeOverride.apply_ofPatch hname, KeyedMap.get?_put, hkey]
          by_cases hid : nodeId = id
          · rw [if_pos hid.symm, if_pos hid, Option.elim_some, ← hid, hcur]
            rfl
          · rw [if_neg (Ne.symm hid), if_neg hid]
            rfl
  | upsertTarget target => rfl
  | changeTarget targetId c =>
      simp only [perform]
      cases ctx.targets.get? targetId with
      | none => rfl
      | some target => rfl
  | setPhase phase => rfl
  | mergeSnapshot snapshot actorId => rfl
  | nothing => rfl

/-- A node that is renamed by no action that finds it, and is not registered, stays unknown. -/
theorem unknown_perform {now : Decimal} {ctx : HeldContext idOf M} {a : ReplayAction ρ Snap}
    {U : Str → Prop} (hrename : ∀ id, a.Renames id → U id)
    (hregister : ∀ node, a = .registerNode node → ¬ U node.nodeId)
    (hunknown : ∀ id, U id → ctx.nodes.get? id = none) {id : Str} (hid : U id) :
    (ctx.perform ports now a).nodes.get? id = none := by
  rw [get?_nodes_perform fun id h => hunknown id (hrename id h), hunknown id hid]
  cases a with
  | registerNode node =>
      have hne : node.nodeId ≠ id := fun h => hregister node rfl (h ▸ hid)
      rw [ReplayAction.nodeEffect, if_neg hne]
      rfl
  | updateNode nodeId patch =>
      rw [ReplayAction.nodeEffect]
      split <;> rfl
  | upsertTarget target => rfl
  | changeTarget targetId c => rfl
  | setPhase phase => rfl
  | mergeSnapshot snapshot actorId => rfl
  | nothing => rfl

variable (ports) in
/-- **The node with an id after a replay** that renames no node: the effects on it, one after the
other; and the nodes that would be renamed stay unknown. -/
theorem get?_nodes_replay (clock : LedgerEvent (HeldPayload ρ Snap) → Decimal)
    {events : List (LedgerEvent (HeldPayload ρ Snap))} (ctx : HeldContext idOf M) {U : Str → Prop}
    (hrename : ∀ e ∈ events, ∀ id, (replayAction e).Renames id → U id)
    (hregister : ∀ e ∈ events, ∀ node, replayAction e = .registerNode node → ¬ U node.nodeId)
    (hunknown : ∀ id, U id → ctx.nodes.get? id = none) :
    (∀ id, (ctx.replay ports clock events).nodes.get? id =
      (events.filterMap fun e => (replayAction e).nodeEffect id).foldl (fun x e => e.apply x)
        (ctx.nodes.get? id)) ∧
    ∀ id, U id → (ctx.replay ports clock events).nodes.get? id = none := by
  induction events generalizing ctx with
  | nil => exact ⟨fun _ => rfl, hunknown⟩
  | cons e events ih =>
      have hrename' := hrename e List.mem_cons_self
      have hstep : ∀ id, U id → (ctx.applyLedgerEvent ports (clock e) e).nodes.get? id = none :=
        fun id hid => unknown_perform hrename' (hregister e List.mem_cons_self) hunknown hid
      obtain ⟨hnodes, hnone⟩ := ih _ (fun e he => hrename e (List.mem_cons_of_mem _ he))
        (fun e he => hregister e (List.mem_cons_of_mem _ he)) hstep
      refine ⟨fun id => (hnodes id).trans ?_, hnone⟩
      rw [applyLedgerEvent, get?_nodes_perform fun id h => hunknown id (hrename' id h)]
      cases heffect : (replayAction e).nodeEffect id with
      | none => simp only [List.filterMap_cons, heffect, Option.elim_none]
      | some effect => simp only [List.filterMap_cons, heffect, Option.elim_some, List.foldl_cons]

/-- What the baseline overrides of the node with an id when it comes to the id `a`. -/
def baselineOverride (cp : HeldCheckpoint idOf) (a id : Str) : NodeOverride :=
  if a = id then (cp.nodeSummary.get? a).elim .unchanged .ofSummary else .unchanged

omit [DecidableEq ρ] in
theorem get?_restoreNode (cp : HeldCheckpoint idOf) (nodes : KeyedMap NodeProfile.nodeId)
    (a id : Str) :
    (restoreNode cp nodes a).get? id = (nodes.get? id).map (baselineOverride cp a id).apply := by
  unfold restoreNode baselineOverride
  cases hsum : cp.nodeSummary.get? a with
  | none =>
      rw [Option.elim_none, ite_self, NodeOverride.map_unchanged]
      cases nodes.get? a <;> rfl
  | some sum =>
      rw [Option.elim_some]
      cases hcur : nodes.get? a with
      | none =>
          by_cases hid : a = id
          · rw [← hid, hcur]
            rfl
          · rw [if_neg hid, NodeOverride.map_unchanged]
      | some cur =>
          have hkey : (cur.restored sum).nodeId = a := by
            change cur.nodeId = a
            exact KeyedMap.key_of_get? hcur
          change (nodes.put (cur.restored sum)).get? id = _
          rw [KeyedMap.get?_put, hkey]
          by_cases hid : a = id
          · rw [if_pos hid.symm, if_pos hid, ← hid, hcur, ← NodeOverride.apply_ofSummary]
            rfl
          · rw [if_neg (Ne.symm hid), if_neg hid, NodeOverride.map_unchanged]

omit [DecidableEq ρ] in
/-- The baseline overrides properties of the nodes that are known. -/
theorem get?_restoreNodes (cp : HeldCheckpoint idOf) (id : Str) :
    ∃ o : NodeOverride, ∀ nodes, (restoreNodes cp nodes).get? id = (nodes.get? id).map o.apply := by
  unfold restoreNodes
  induction cp.activeNodeIds with
  | nil => exact ⟨.unchanged, fun nodes => (NodeOverride.map_unchanged _).symm⟩
  | cons a ids ih =>
      obtain ⟨o, ho⟩ := ih
      refine ⟨(baselineOverride cp a id).andThen o, fun nodes => ?_⟩
      have hcomp : (nodes.get? id).map ((baselineOverride cp a id).andThen o).apply =
          ((nodes.get? id).map (baselineOverride cp a id).apply).map o.apply := by
        rw [Option.map_map]
        exact congrArg (fun f => (nodes.get? id).map f)
          (funext fun p => NodeOverride.apply_andThen _ _ p)
      rw [List.foldl_cons, ho, hcomp]
      refine congrArg (Option.map o.apply) ?_
      exact get?_restoreNode cp nodes a id

end HeldContext

/-! ### Targets -/

/-- What events do to a target: they store an object for it, or change the one that is stored. -/
inductive TargetTouch (ρ : Type*)
  | upsert (target : ρ)
  | change (c : TargetChange)

namespace TargetTouch

/-- The object stored for a target afterwards. -/
def current (cur : Option ρ) : TargetTouch ρ → Option ρ
  | .upsert target => some target
  | .change _ => cur

end TargetTouch

/-- What an action does to the target with an id. -/
def ReplayAction.touch (idOf : ρ → Str) (id : Str) : ReplayAction ρ Snap → Option (TargetTouch ρ)
  | .upsertTarget target => if idOf target = id then some (.upsert target) else none
  | .changeTarget targetId c => if targetId = id then some (.change c) else none
  | _ => none

/-- What events do to the target with an id. -/
def touches (idOf : ρ → Str) (id : Str) (events : List (LedgerEvent (HeldPayload ρ Snap))) :
    List (TargetTouch ρ) :=
  events.filterMap fun e => (replayAction e).touch idOf id

/-- The changes made to the object `o`, when `cur` is stored first. -/
def changesTo (o : ρ) : Option ρ → List (TargetTouch ρ) → List TargetChange
  | _, [] => []
  | _, .upsert target :: ts => changesTo o (some target) ts
  | cur, .change c :: ts => if cur = some o then c :: changesTo o cur ts else changesTo o cur ts

/-- The changes before the first upsert. -/
def early : List (TargetTouch ρ) → List TargetChange
  | .change c :: ts => c :: early ts
  | _ => []

/-- The changes to an object are those before the first upsert, if it is stored first, and those
made after an upsert of it. -/
theorem changesTo_eq (o : ρ) (cur : Option ρ) (ts : List (TargetTouch ρ)) :
    changesTo o cur ts = (if cur = some o then early ts else []) ++ changesTo o none ts := by
  induction ts with
  | nil => simp [changesTo, early]
  | cons x ts ih =>
      cases x with
      | upsert target => simp [changesTo, early]
      | change c =>
          rw [changesTo, changesTo, ih, early, if_neg (Option.some_ne_none o).symm]
          split <;> rfl

namespace TargetView

/-- The changes that leave a target with a new value of a property, and those that add a node to its
confirmations, are made one by one. -/
theorem foldl_after (v : TargetView) (cs : List TargetChange) :
    cs.foldl after v =
      ⟨cs.foldl (Overwrites.collect TargetChange.confirmer) v.confirmedBy,
        cs.foldl (Overwrites.overwrite TargetChange.write) v.fields⟩ := by
  induction cs generalizing v with
  | nil => rfl
  | cons c cs ih => exact ih (v.after c)

/-- Making changes twice is making them once. -/
theorem after_twice (v : TargetView) (cs : List TargetChange) :
    cs.foldl after (cs.foldl after v) = cs.foldl after v := by
  rw [foldl_after, foldl_after, Overwrites.collect_twice, Overwrites.overwrite_twice]

end TargetView

/-- Early changes leave no trace on a target between two rounds of late ones: each property they
write is written by the late ones as well or had the value already, each node that confirms is among
those that had confirmed or confirm late, and no node had confirmed twice. -/
structure SaysNothingNew (early late : List TargetChange) (v : TargetView) : Prop where
  fields : ∀ k x, Overwrites.lastWrite TargetChange.write early k = some x →
    Overwrites.lastWrite TargetChange.write late k = none → v.fields k = some x
  confirmed : ∀ n ∈ early.filterMap TargetChange.confirmer,
    n ∈ v.confirmedBy ∨ n ∈ late.filterMap TargetChange.confirmer
  once : early.filterMap TargetChange.confirmer ≠ [] →
    late.filterMap TargetChange.confirmer ≠ [] ∨ v.confirmedBy.Nodup

theorem saysNothingNew_iff {early late : List TargetChange} {v : TargetView} :
    SaysNothingNew early late v ↔
      late.foldl TargetView.after (early.foldl TargetView.after (late.foldl TargetView.after v)) =
        late.foldl TargetView.after v := by
  rw [TargetView.foldl_after, TargetView.foldl_after, TargetView.foldl_after, TargetView.mk.injEq,
    Overwrites.overwrite_around_iff, Overwrites.collect_around_iff]
  exact ⟨fun h => ⟨⟨h.confirmed, h.once⟩, h.fields⟩, fun h => ⟨h.2, h.1.1, h.1.2⟩⟩

namespace HeldContext

variable {ports : HeldPorts M Snap}

/-- The object stored for a target after an action. -/
theorem get?_targets_perform (now : Decimal) (ctx : HeldContext idOf M) (a : ReplayAction ρ Snap)
    (id : Str) :
    (ctx.perform ports now a).targets.get? id =
      (a.touch idOf id).elim (ctx.targets.get? id) fun x => x.current (ctx.targets.get? id) := by
  cases a with
  | upsertTarget target =>
      change (ctx.targets.put target).get? id = _
      rw [KeyedMap.get?_put, ReplayAction.touch]
      by_cases hid : id = idOf target
      · rw [if_pos hid, if_pos hid.symm]
        rfl
      · rw [if_neg hid, if_neg (Ne.symm hid)]
        rfl
  | changeTarget targetId c =>
      have hsame : (ctx.perform ports now (.changeTarget targetId c)).targets = ctx.targets := by
        simp only [perform]
        split <;> rfl
      rw [hsame, ReplayAction.touch]
      split <;> rfl
  | updateNode nodeId patch =>
      simp only [perform]
      split <;> rfl
  | registerNode node => rfl
  | setPhase phase => rfl
  | mergeSnapshot snapshot actorId => rfl
  | nothing => rfl

/-- The record of an object after an action. -/
theorem view_perform (now : Decimal) (ctx : HeldContext idOf M) (a : ReplayAction ρ Snap) (o : ρ) :
    ((ctx.perform ports now a).objects.get o).view =
      (changesTo o (ctx.targets.get? (idOf o)) (a.touch idOf (idOf o)).toList).foldl
        TargetView.after (ctx.objects.get o).view := by
  cases a with
  | upsertTarget target =>
      rw [ReplayAction.touch]
      split <;> rfl
  | changeTarget targetId c =>
      rw [ReplayAction.touch]
      simp only [perform]
      cases hget : ctx.targets.get? targetId with
      | none =>
          by_cases hid : targetId = idOf o
          · rw [if_pos hid, ← hid, hget]
            rfl
          · rw [if_neg hid]
            rfl
      | some target =>
          have hkey : idOf target = targetId := KeyedMap.key_of_get? hget
          change (Function.update ctx.objects.get target
            (c.apply now (ctx.objects.get target)) o).view = _
          by_cases ho : o = target
          · rw [ho, if_pos hkey.symm, hkey, hget, Function.update_self, view_apply,
              Option.toList_some, changesTo, if_pos rfl]
            rfl
          · have hne : (some target : Option ρ) ≠ some o := fun h => ho (Option.some.inj h).symm
            rw [Function.update_of_ne ho]
            by_cases hid : targetId = idOf o
            · rw [if_pos hid, ← hid, hget, Option.toList_some, changesTo, if_neg hne]
              rfl
            · rw [if_neg hid]
              rfl
  | updateNode nodeId patch =>
      simp only [perform]
      split <;> rfl
  | registerNode node => rfl
  | setPhase phase => rfl
  | mergeSnapshot snapshot actorId => rfl
  | nothing => rfl

omit [DecidableEq ρ] in
theorem touches_cons (id : Str) (e : LedgerEvent (HeldPayload ρ Snap))
    (events : List (LedgerEvent (HeldPayload ρ Snap))) :
    touches idOf id (e :: events) =
      ((replayAction e).touch idOf id).toList ++ touches idOf id events := by
  unfold touches
  cases h : (replayAction e).touch idOf id with
  | none => simp only [List.filterMap_cons, h]; rfl
  | some x => simp only [List.filterMap_cons, h]; rfl

/-- **The object stored for a target after a replay.** -/
theorem get?_targets_replay {clock : LedgerEvent (HeldPayload ρ Snap) → Decimal}
    (events : List (LedgerEvent (HeldPayload ρ Snap))) (ctx : HeldContext idOf M) (id : Str) :
    (ctx.replay ports clock events).targets.get? id =
      (touches idOf id events).foldl TargetTouch.current (ctx.targets.get? id) := by
  induction events generalizing ctx with
  | nil => rfl
  | cons e events ih =>
      refine (ih (ctx.applyLedgerEvent ports (clock e) e)).trans ?_
      rw [applyLedgerEvent, get?_targets_perform, touches_cons, List.foldl_append]
      cases (replayAction e).touch idOf id <;> rfl

theorem changesTo_append (o : ρ) (cur : Option ρ) (ts ts' : List (TargetTouch ρ)) :
    changesTo o cur (ts ++ ts') =
      changesTo o cur ts ++ changesTo o (ts.foldl TargetTouch.current cur) ts' := by
  induction ts generalizing cur with
  | nil => rfl
  | cons x ts ih =>
      cases x with
      | upsert target => exact ih (some target)
      | change c =>
          rw [List.cons_append, changesTo, changesTo, ih]
          split <;> rfl

/-- **The record of an object after a replay.** -/
theorem view_replay {clock : LedgerEvent (HeldPayload ρ Snap) → Decimal}
    (events : List (LedgerEvent (HeldPayload ρ Snap))) (ctx : HeldContext idOf M) (o : ρ) :
    ((ctx.replay ports clock events).objects.get o).view =
      (changesTo o (ctx.targets.get? (idOf o)) (touches idOf (idOf o) events)).foldl
        TargetView.after (ctx.objects.get o).view := by
  induction events generalizing ctx with
  | nil => rfl
  | cons e events ih =>
      refine (ih (ctx.applyLedgerEvent ports (clock e) e)).trans ?_
      rw [applyLedgerEvent, view_perform, get?_targets_perform, touches_cons, changesTo_append,
        List.foldl_append]
      cases (replayAction e).touch idOf (idOf o) <;> rfl

omit [DecidableEq ρ] in
/-- The object stored last is the one upserted last, or the one stored first. -/
theorem foldl_current (cur : Option ρ) (ts : List (TargetTouch ρ)) :
    ts.foldl TargetTouch.current cur = (ts.foldl TargetTouch.current none).or cur := by
  induction ts generalizing cur with
  | nil => rfl
  | cons x ts ih =>
      cases x with
      | upsert target =>
          rw [List.foldl_cons, List.foldl_cons, TargetTouch.current, TargetTouch.current,
            ih (some target), Option.or_assoc]
          rfl
      | change c => exact ih cur

/-! ### The phase -/

/-- The phase an action sets. -/
def phaseSet : ReplayAction ρ Snap → Option Str
  | .setPhase phase => some phase
  | _ => none

variable (ports) in
theorem phase_perform (now : Decimal) (ctx : HeldContext idOf M) (a : ReplayAction ρ Snap) :
    (ctx.perform ports now a).phase = (phaseSet a).getD ctx.phase ∧
      (ctx.perform ports now a).phaseVersion =
        (phaseSet a).elim ctx.phaseVersion fun p => ports.bump p ctx.phase ctx.phaseVersion := by
  cases a with
  | updateNode nodeId patch =>
      simp only [perform]
      split <;> exact ⟨rfl, rfl⟩
  | changeTarget targetId c =>
      simp only [perform]
      split <;> exact ⟨rfl, rfl⟩
  | registerNode node => exact ⟨rfl, rfl⟩
  | upsertTarget target => exact ⟨rfl, rfl⟩
  | setPhase phase => exact ⟨rfl, rfl⟩
  | mergeSnapshot snapshot actorId => exact ⟨rfl, rfl⟩
  | nothing => exact ⟨rfl, rfl⟩

/-- The phase after a replay is the last one set, or the one before. -/
theorem phase_replay {clock : LedgerEvent (HeldPayload ρ Snap) → Decimal}
    (events : List (LedgerEvent (HeldPayload ρ Snap))) (ctx : HeldContext idOf M) :
    (ctx.replay ports clock events).phase =
      (events.filterMap fun e => phaseSet (replayAction e)).getLast?.getD ctx.phase := by
  induction events generalizing ctx with
  | nil => rfl
  | cons e events ih =>
      refine (ih (ctx.applyLedgerEvent ports (clock e) e)).trans ?_
      rw [applyLedgerEvent, (phase_perform ports _ _ _).1]
      cases h : phaseSet (replayAction e) with
      | none => simp only [List.filterMap_cons, h, Option.getD_none]
      | some p => simp only [List.filterMap_cons, h, Option.getD_some, List.getLast?_cons]

/-- A replay of the events over its own result leaves the phase. -/
theorem phase_replay_replay {clock clock' : LedgerEvent (HeldPayload ρ Snap) → Decimal}
    (events : List (LedgerEvent (HeldPayload ρ Snap))) (ctx : HeldContext idOf M) :
    ((ctx.replay ports clock events).replay ports clock' events).phase =
      (ctx.replay ports clock events).phase := by
  rw [phase_replay, phase_replay]
  cases (events.filterMap fun e => phaseSet (replayAction e)).getLast? <;> rfl

variable (ports) in
/-- Two replays of the same events from the same phase and version end with the same ones. -/
theorem phase_replay_congr (clock clock' : LedgerEvent (HeldPayload ρ Snap) → Decimal)
    (events : List (LedgerEvent (HeldPayload ρ Snap))) {ctx ctx' : HeldContext idOf M}
    (hphase : ctx.phase = ctx'.phase) (hversion : ctx.phaseVersion = ctx'.phaseVersion) :
    (ctx.replay ports clock events).phase = (ctx'.replay ports clock' events).phase ∧
      (ctx.replay ports clock events).phaseVersion =
        (ctx'.replay ports clock' events).phaseVersion := by
  induction events generalizing ctx ctx' with
  | nil => exact ⟨hphase, hversion⟩
  | cons e events ih =>
      obtain ⟨hp, hv⟩ := phase_perform ports (clock e) ctx (replayAction e)
      obtain ⟨hp', hv'⟩ := phase_perform ports (clock' e) ctx' (replayAction e)
      refine ih ?_ ?_
      · exact hp.trans ((congrArg _ hphase).trans hp'.symm)
      · refine hv.trans (Eq.trans ?_ hv'.symm)
        rw [hphase, hversion]

theorem missionId_replay {clock : LedgerEvent (HeldPayload ρ Snap) → Decimal}
    (events : List (LedgerEvent (HeldPayload ρ Snap))) (ctx : HeldContext idOf M) :
    (ctx.replay ports clock events).missionId = ctx.missionId := by
  induction events generalizing ctx with
  | nil => rfl
  | cons e events ih =>
      refine (ih (ctx.applyLedgerEvent ports (clock e) e)).trans ?_
      unfold applyLedgerEvent perform
      split <;> try rfl
      all_goals split <;> rfl

/-! ### Two restores -/

section Restore

variable {ledger : EventLedgerStore (HeldPayload ρ Snap)}
  {latest : Str → Option (HeldCheckpoint idOf)}

omit [DecidableEq ρ] in
theorem missionId_baseline (ctx : HeldContext idOf M) (cp : Option (HeldCheckpoint idOf)) :
    (ctx.baseline ports cp).missionId = ctx.missionId := by
  cases cp <;> rfl

/-- A restore does not change the id of the mission, and so not the events it replays. -/
theorem missionId_restore (clock : LedgerEvent (HeldPayload ρ Snap) → Decimal)
    (ctx : HeldContext idOf M) :
    (ctx.restore ports ledger latest clock).1.missionId = ctx.missionId :=
  (missionId_replay _ _).trans (missionId_baseline _ _)

variable (ports) in
omit [DecidableEq ρ] in
/-- A baseline overrides properties of the nodes that are known. -/
theorem get?_nodes_baseline (cp : Option (HeldCheckpoint idOf)) (id : Str) :
    ∃ o : NodeOverride, ∀ ctx : HeldContext idOf M,
      (ctx.baseline ports cp).nodes.get? id = (ctx.nodes.get? id).map o.apply := by
  cases cp with
  | none => exact ⟨.unchanged, fun ctx => (NodeOverride.map_unchanged _).symm⟩
  | some cp =>
      obtain ⟨o, ho⟩ := get?_restoreNodes cp id
      exact ⟨o, fun ctx => ho ctx.nodes⟩

/-- **The nodes are the same after two restores.** -/
theorem get?_nodes_restore_restore {clock clock' : LedgerEvent (HeldPayload ρ Snap) → Decimal}
    {ctx : HeldContext idOf M} (hnames : KeepsNames (replayEvents ledger latest ctx.missionId) ctx)
    (id : Str) :
    ((ctx.restore ports ledger latest clock).1.restore ports ledger latest clock').1.nodes.get? id =
      (ctx.restore ports ledger latest clock).1.nodes.get? id := by
  obtain ⟨o, ho⟩ := get?_nodes_baseline ports (latest ctx.missionId) id
  obtain ⟨e, he⟩ := NodeEffect.exists_foldl
    ((replayEvents ledger latest ctx.missionId).filterMap fun e => (replayAction e).nodeEffect id)
  obtain ⟨g, hg⟩ := NodeEffect.exists_andThen (.override o) e
  -- a restore of the mission is one effect, as long as no node to be renamed is known
  have hrestore : ∀ (clock : LedgerEvent (HeldPayload ρ Snap) → Decimal) (c : HeldContext idOf M),
      c.missionId = ctx.missionId →
      (∀ i, (∃ e ∈ replayEvents ledger latest ctx.missionId, (replayAction e).Renames i) →
        c.nodes.get? i = none) →
      (c.restore ports ledger latest clock).1.nodes.get? id = g.apply (c.nodes.get? id) ∧
      ∀ i, (∃ e ∈ replayEvents ledger latest ctx.missionId, (replayAction e).Renames i) →
        (c.restore ports ledger latest clock).1.nodes.get? i = none := by
    intro clock c hmission hunknown
    have hreplay := get?_nodes_replay ports clock (c.baseline ports (latest ctx.missionId))
      (fun e he i hi => (⟨e, he, hi⟩ : ∃ e ∈ replayEvents ledger latest ctx.missionId,
        (replayAction e).Renames i))
      (fun e' he' node hnode ⟨e, he, hi⟩ => (hnames e he _ hi).2 e' he' node hnode rfl)
      (fun i hi => by
        obtain ⟨o', ho'⟩ := get?_nodes_baseline ports (latest ctx.missionId) i
        rw [ho', hunknown i hi]
        rfl)
    rw [restore, hmission]
    refine ⟨(hreplay.1 id).trans ?_, hreplay.2⟩
    rw [← he, ho, hg]
    rfl
  obtain ⟨hone, hnone⟩ := hrestore clock ctx rfl fun i ⟨e, he, hi⟩ => (hnames e he i hi).1
  rw [(hrestore clock' _ (missionId_restore clock ctx) hnone).1, hone, NodeEffect.apply_apply]

/-- The target with an id, up to its time stamps. -/
def targetView (ctx : HeldContext idOf M) (id : Str) : Option TargetView :=
  (ctx.targets.get? id).map fun o => (ctx.objects.get o).view

/-- Two replays of the same events that start from the same objects for a target leave the same
target, if the second one finds the records that the first one left. -/
theorem targetView_replay_again {clock clock' : LedgerEvent (HeldPayload ρ Snap) → Decimal}
    {events : List (LedgerEvent (HeldPayload ρ Snap))} {ctx ctx' : HeldContext idOf M} {id : Str}
    (htargets : ctx'.targets.get? id = ctx.targets.get? id)
    (hobjects : ctx'.objects = (ctx.replay ports clock events).objects) :
    (ctx'.replay ports clock' events).targetView id =
      (ctx.replay ports clock events).targetView id := by
  unfold targetView
  rw [get?_targets_replay, get?_targets_replay, htargets]
  cases hcur : (touches idOf id events).foldl TargetTouch.current (ctx.targets.get? id) with
  | none => rfl
  | some o =>
      have hget : (ctx.replay ports clock events).targets.get? id = some o :=
        (get?_targets_replay events ctx id).trans hcur
      obtain rfl : idOf o = id := KeyedMap.key_of_get? hget
      rw [Option.map_some, Option.map_some, view_replay events ctx', view_replay events ctx,
        htargets, hobjects, view_replay events ctx, TargetView.after_twice]

/-- **A replay of the events over its own result** leaves a target as it is exactly if the object
upserted last was stored to begin with, or the events before the first upsert say nothing new about
it. -/
theorem targetView_replay_replay_iff {clock clock' : LedgerEvent (HeldPayload ρ Snap) → Decimal}
    (events : List (LedgerEvent (HeldPayload ρ Snap))) (ctx : HeldContext idOf M) (id : Str) :
    ((ctx.replay ports clock events).replay ports clock' events).targetView id =
        (ctx.replay ports clock events).targetView id ↔
      ∀ o, (touches idOf id events).foldl TargetTouch.current none = some o →
        ctx.targets.get? id = some o ∨
          SaysNothingNew (early (touches idOf id events))
            (changesTo o none (touches idOf id events)) (ctx.objects.get o).view := by
  have hafter : ∀ c : HeldContext idOf M, ∀ clock : LedgerEvent (HeldPayload ρ Snap) → Decimal,
      (c.replay ports clock events).targets.get? id =
        ((touches idOf id events).foldl TargetTouch.current none).or (c.targets.get? id) :=
    fun c clock => (get?_targets_replay events c id).trans (foldl_current _ _)
  cases hlast : (touches idOf id events).foldl TargetTouch.current none with
  | none =>
      refine iff_of_true (targetView_replay_again ?_ rfl) fun o ho => absurd ho.symm (by simp)
      rw [hafter, hlast, Option.none_or]
  | some o =>
      have hone : (ctx.replay ports clock events).targets.get? id = some o := by
        rw [hafter, hlast, Option.some_or]
      have hid : idOf o = id := KeyedMap.key_of_get? hone
      by_cases hcur : ctx.targets.get? id = some o
      · refine iff_of_true (targetView_replay_again (hone.trans hcur.symm) rfl) fun o' ho' => ?_
        exact Or.inl (hcur.trans ho')
      · -- the first replay makes the late changes to `o`, the second one the early ones before them
        have htwo : ((ctx.replay ports clock events).replay ports clock' events).targets.get? id =
            some o := by rw [hafter, hlast, Option.some_or]
        have hviews : ((ctx.replay ports clock events).replay ports clock' events).targetView id =
              (ctx.replay ports clock events).targetView id ↔
            SaysNothingNew (early (touches idOf id events))
              (changesTo o none (touches idOf id events)) (ctx.objects.get o).view := by
          unfold targetView
          rw [hone, htwo, Option.map_some, Option.map_some, Option.some_inj, view_replay,
            view_replay, hid, hone, changesTo_eq o (some o),
            changesTo_eq o (ctx.targets.get? id), if_pos rfl, if_neg hcur, List.nil_append,
            List.foldl_append, saysNothingNew_iff]
        rw [hviews]
        refine ⟨fun h o' ho' => Or.inr ?_, fun h => (h o rfl).resolve_left hcur⟩
        obtain rfl := Option.some.inj ho'
        exact h

/-- The events before the first upsert of each target say nothing new about the object upserted
last, unless that object is stored to begin with. -/
def EarlyHarmless (events : List (LedgerEvent (HeldPayload ρ Snap))) (ctx : HeldContext idOf M) :
    Prop :=
  ∀ id o, (touches idOf id events).foldl TargetTouch.current none = some o →
    ctx.targets.get? id = some o ∨
      SaysNothingNew (early (touches idOf id events)) (changesTo o none (touches idOf id events))
        (ctx.objects.get o).view

/-- The same phase, the same nodes, and the same targets up to their time stamps. -/
structure SameMission (one two : HeldContext idOf M) : Prop where
  phase : two.phase = one.phase
  nodes : ∀ id, two.nodes.get? id = one.nodes.get? id
  targets : ∀ id, two.targetView id = one.targetView id

/-- **Two restores leave the same mission as one, and report the same count, exactly when there is a
checkpoint or the early events are harmless**; with a checkpoint the version of the phase is the
same too.  No patch renames a node that is ever known. -/
theorem restore_twice_iff {clock clock' : LedgerEvent (HeldPayload ρ Snap) → Decimal}
    {ctx : HeldContext idOf M}
    (hnames : KeepsNames (replayEvents ledger latest ctx.missionId) ctx) :
    (SameMission (ctx.restore ports ledger latest clock).1
        ((ctx.restore ports ledger latest clock).1.restore ports ledger latest clock').1 ∧
      ((ctx.restore ports ledger latest clock).1.restore ports ledger latest clock').2 =
        (ctx.restore ports ledger latest clock).2 ∧
      (latest ctx.missionId ≠ none →
        ((ctx.restore ports ledger latest clock).1.restore ports ledger latest
            clock').1.phaseVersion =
          (ctx.restore ports ledger latest clock).1.phaseVersion)) ↔
      (latest ctx.missionId = none →
        EarlyHarmless (replayEvents ledger latest ctx.missionId) ctx) := by
  have hnodes : ∀ id, ((ctx.restore ports ledger latest clock).1.restore ports ledger latest
      clock').1.nodes.get? id = (ctx.restore ports ledger latest clock).1.nodes.get? id :=
    get?_nodes_restore_restore hnames
  have hmission : (ctx.restore ports ledger latest clock).1.missionId = ctx.missionId :=
    missionId_restore clock ctx
  have hcount : ((ctx.restore ports ledger latest clock).1.restore ports ledger latest clock').2 =
      (ctx.restore ports ledger latest clock).2 := by
    change (replayEvents ledger latest _).length = _
    rw [hmission]
    rfl
  have hone : (ctx.restore ports ledger latest clock).1 =
      (ctx.baseline ports (latest ctx.missionId)).replay ports clock
        (replayEvents ledger latest ctx.missionId) := rfl
  have htwo : ((ctx.restore ports ledger latest clock).1.restore ports ledger latest clock').1 =
      ((ctx.restore ports ledger latest clock).1.baseline ports (latest ctx.missionId)).replay ports
        clock' (replayEvents ledger latest ctx.missionId) := by
    rw [restore, hmission]
  rw [hcount, htwo, hone]
  rw [htwo, hone] at hnodes
  clear hcount htwo hone hnames
  generalize replayEvents ledger latest ctx.missionId = events at hnodes ⊢
  generalize latest ctx.missionId = checkpoint at hnodes ⊢
  cases checkpoint with
  | some cp =>
      -- both replays start from what the checkpoint holds
      refine iff_of_true ⟨⟨?_, hnodes, fun id => ?_⟩, rfl, fun _ => ?_⟩
        fun h => absurd h (Option.some_ne_none cp)
      · refine (phase_replay_congr ports clock' clock events ?_ ?_).1 <;> rfl
      · exact targetView_replay_again rfl rfl
      · refine (phase_replay_congr ports clock' clock events ?_ ?_).2 <;> rfl
  | none =>
      constructor
      · exact fun h _ id => (targetView_replay_replay_iff events ctx id).1 (h.1.targets id)
      · intro h
        refine ⟨⟨phase_replay_replay events ctx, hnodes, fun id => ?_⟩, rfl,
          fun hne => absurd rfl hne⟩
        exact (targetView_replay_replay_iff events ctx id).2 (h rfl id)

end Restore

/-! ### A confirmation that precedes its target -/

/-- A payload about the target `t1` and the node `n0`, and a reference to the target. -/
def aboutTarget (target : Option Unit) : HeldPayload Unit Unit where
  node := none
  patch := none
  target := target
  snapshot := none
  fields := .ofList [(lit "targetId", .str "t1"), (lit "nodeId", .str "n0")]

/-- A ledger with a confirmation of a target, and then the target. -/
def confirmThenUpsert : EventLedgerStore (HeldPayload Unit Unit) :=
  (EventLedgerStore.empty.append (fun _ => []) (fun _ => .null)
      ⟨"m1", "target_confirm", "n0", aboutTarget none⟩ ⟨"e1", "x1", 1⟩).append
    (fun _ => []) (fun _ => .null)
      ⟨"m1", "target_upsert", "n0", aboutTarget (some ())⟩ ⟨"e2", "x2", 2⟩

/-- A mission that knows no nodes and no targets. -/
def freshMission : HeldContext (fun _ : Unit => lit "t1") Unit where
  missionId := "m1"
  phase := "search"
  phaseVersion := 4
  nodes := ∅
  targets := ∅
  objects := ⟨fun _ => ⟨"t1", [], .ofList [(lit "status", .str "unconfirmed")]⟩, fun _ => rfl⟩
  map := ()

/-- Ports for events without phases and snapshots. -/
def quietPorts : HeldPorts Unit Unit := ⟨fun _ _ version => version, fun _ _ => id⟩

theorem restore_twice_iff_confirmThenUpsert :
    let latest : Str → Option (HeldCheckpoint fun _ : Unit => lit "t1") := fun _ => none
    let one := freshMission.restore quietPorts confirmThenUpsert latest fun _ => 3
    let two := one.1.restore quietPorts confirmThenUpsert latest fun _ => 4
    (SameMission one.1 two.1 ∧ two.2 = one.2 ∧
        (latest "m1" ≠ none → two.1.phaseVersion = one.1.phaseVersion)) ↔
      (latest "m1" = none →
        EarlyHarmless (replayEvents confirmThenUpsert latest "m1") freshMission) := by
  intro latest one two
  have hnames : KeepsNames (replayEvents confirmThenUpsert latest freshMission.missionId)
      freshMission := by
    rintro e he id ⟨patch, b, haction, -⟩
    have hactions :
        (replayEvents confirmThenUpsert latest freshMission.missionId).map replayAction =
          [.changeTarget "t1" (.confirm "n0"), .upsertTarget ()] := rfl
    have hmem := List.mem_map_of_mem (f := replayAction) he
    rw [hactions, haction] at hmem
    simp at hmem
  exact restore_twice_iff hnames

/-- **A restore confirms a target of the ledger**: the first one leaves the target as the ledger has
it, and the second one confirms it before it is upserted again. -/
theorem late_upsert_confirmed :
    let one := (freshMission.restore quietPorts confirmThenUpsert (fun _ => none) fun _ => 3).1
    let two := (one.restore quietPorts confirmThenUpsert (fun _ => none) fun _ => 4).1
    (one.targetView "t1").map (·.confirmedBy) = some [] ∧
      (two.targetView "t1").map (·.confirmedBy) = some [lit "n0"] ∧ ¬ SameMission one two := by
  intro one two
  have hone : (one.targetView "t1").map (·.confirmedBy) = some [] := by decide +kernel
  have htwo : (two.targetView "t1").map (·.confirmedBy) = some [lit "n0"] := by decide +kernel
  refine ⟨hone, htwo, fun h => ?_⟩
  rw [h.targets, hone] at htwo
  exact absurd htwo (by decide)

end HeldContext

end Recovery
