/-
**Victims on the map** (`swarm/sar_vertex_foxmq_backend.py`).

A target that is found marks its cell.  Every telemetry frame marks the cell under the drone as
seen, whatever its state was, so the cell of a victim is forgotten when a drone is above it.

Main definitions:

* `Sar.MapBackend`, `Sar.mapStep` — what a backend does to its map;
* `Sar.KeepsTargets` — the cell of a target stays one until the target is completed;
* `Sar.FliesOver` — a telemetry frame from the cell of a target.

Main results:

* `Sar.isTarget_step_iff` — which targets are there after a move;
* `Sar.keepsTargets_iff` — **targets are kept all along a run exactly if no drone reports from the
  cell of one.**
-/
import Endendend.Foundation.Runs
import Endendend.Sar.WorldMap

set_option relaxedAutoImplicit false
set_option autoImplicit false

namespace Sar

open Js (Str lit OrderedMap)
open Runs

/-! ### The backend and its map -/

structure GeoPoint where
  x : ℚ
  y : ℚ
  z : ℚ

/-- The cell of a position. -/
def GeoPoint.cell (p : GeoPoint) : Str :=
  cellIdOf (Py.roundHalfEven p.x) (Py.roundHalfEven p.y) (Py.roundHalfEven p.z)

structure TelemetryFrame where
  nodeId : Str
  position : GeoPoint

structure RescueTarget where
  targetId : Str
  targetType : Str
  confidence : ℚ
  position : Option GeoPoint
  discoveredBy : Option Str

/-- A backend with its map, and the cells of the targets that it knows. -/
structure MapBackend where
  nodeId : Str
  worldMap : SharedWorldMap
  targetCellByTargetId : OrderedMap Str Str

namespace MapBackend

def new (nodeId : Str) : MapBackend := ⟨nodeId, .new, ∅⟩

variable (b : MapBackend)

/-- The cell under a drone is marked as seen. -/
def seenFrom (position : GeoPoint) (owner : Str) (now : ℤ) : MapBackend :=
  { b with
    worldMap := b.worldMap.markSeen (Py.roundHalfEven position.x) (Py.roundHalfEven position.y)
      (Py.roundHalfEven position.z) (some owner) (4 / 5) now }

def publishTelemetry (telemetry : TelemetryFrame) (now : ℤ) : MapBackend :=
  b.seenFrom telemetry.position b.nodeId now

def handleTelemetry (telemetry : TelemetryFrame) (now : ℤ) : MapBackend :=
  b.seenFrom telemetry.position telemetry.nodeId now

def ingestTarget (target : RescueTarget) (now : ℤ) : MapBackend :=
  match target.position with
  | none => b
  | some p =>
    { b with
      targetCellByTargetId := b.targetCellByTargetId.set target.targetId p.cell
      worldMap := b.worldMap.markTarget (Py.roundHalfEven p.x) (Py.roundHalfEven p.y)
        (Py.roundHalfEven p.z) target.discoveredBy target.targetType target.confidence now }

def completeTarget (targetId byNode : Str) (now : ℤ) : MapBackend :=
  match b.targetCellByTargetId.get? targetId with
  | none => b
  | some cellId => { b with worldMap := b.worldMap.touchCell cellId now .searched byNode }

end MapBackend

/-- What a backend does to its map, at a time. -/
inductive MapMove
  | ingestTarget (target : RescueTarget) (now : ℤ)
  | publishTelemetry (telemetry : TelemetryFrame) (now : ℤ)
  | handleTelemetry (telemetry : TelemetryFrame) (now : ℤ)
  | merge (remoteCells : List (Option WorldCell)) (sourceVersion : ℤ)
  | completeTarget (targetId byNode : Str) (now : ℤ)

def mapStep (b : MapBackend) : MapMove → Option MapBackend
  | .ingestTarget target now => some (b.ingestTarget target now)
  | .publishTelemetry telemetry now => some (b.publishTelemetry telemetry now)
  | .handleTelemetry telemetry now => some (b.handleTelemetry telemetry now)
  | .merge remoteCells sourceVersion =>
    some { b with worldMap := b.worldMap.merge remoteCells sourceVersion }
  | .completeTarget targetId byNode now => some (b.completeTarget targetId byNode now)

/-! ### Targets -/

namespace MapBackend

def stateOf (b : MapBackend) (id : Str) : Option CellState :=
  (b.worldMap.getCell id).map WorldCell.state

/-- The cell of a target. -/
def IsTarget (b : MapBackend) (id : Str) : Prop := b.stateOf id = some .target

instance (b : MapBackend) (id : Str) : Decidable (b.IsTarget id) :=
  inferInstanceAs (Decidable (_ = _))

end MapBackend

/-- A target at the cell is completed. -/
def Completes (id : Str) (b : MapBackend) : MapMove → Prop
  | .completeTarget targetId _ _ => b.targetCellByTargetId.get? targetId = some id
  | _ => False

/-- A merge brings only cells that are older than the ones that are there. -/
def OlderMerge (b : MapBackend) : MapMove → Prop
  | .merge remoteCells _ => ∀ remote, some remote ∈ remoteCells →
      ∀ cell ∈ b.worldMap.getCell remote.cellId, ¬ remote.NotOlder cell
  | _ => True

/-- A telemetry frame from the cell of a target. -/
def FliesOver (b : MapBackend) : MapMove → Prop
  | .publishTelemetry telemetry _ => b.IsTarget telemetry.position.cell
  | .handleTelemetry telemetry _ => b.IsTarget telemetry.position.cell
  | _ => False

instance (b : MapBackend) (mv : MapMove) : Decidable (FliesOver b mv) := by
  cases mv <;> unfold FliesOver <;> infer_instance

/-- The cell of a target stays one until a target at the cell is completed. -/
def KeepsTargets (b₀ : MapBackend) (mvs : List MapMove) : Prop :=
  ∀ pre mid b₁ b₂, pre ++ mid <+: mvs → run mapStep b₀ pre = some b₁ →
    run mapStep b₁ mid = some b₂ → ∀ id, b₁.IsTarget id →
      Along mapStep (fun b mv => ¬ Completes id b mv) b₁ mid → b₂.IsTarget id

variable {b b' b₀ : MapBackend} {mv : MapMove} {id : Str}

/-- A cell that is seen is no target, and the other cells stay as they are. -/
theorem isTarget_seenFrom (position : GeoPoint) (owner : Str) (now : ℤ) :
    (b.seenFrom position owner now).IsTarget id ↔ b.IsTarget id ∧ id ≠ position.cell := by
  obtain ⟨cell, hstate, hget⟩ := SharedWorldMap.getCell_mark (m := b.worldMap)
    (Py.roundHalfEven position.x) (Py.roundHalfEven position.y) (Py.roundHalfEven position.z)
    .seen (some owner) (4 / 5) 1 ∅ now id
  have hstateOf : (b.seenFrom position owner now).stateOf id =
      if id = position.cell then some .seen else b.stateOf id := by
    refine (congrArg (Option.map WorldCell.state) hget).trans ?_
    change Option.map _ (if id = position.cell then _ else _) = _
    by_cases hid : id = position.cell
    · rw [if_pos hid, if_pos hid, Option.map_some, hstate]
    · rw [if_neg hid, if_neg hid]
      rfl
  rw [MapBackend.IsTarget, hstateOf]
  by_cases hid : id = position.cell
  · simp [hid]
  · simp [hid, MapBackend.IsTarget]

/-- What is seen from a cell keeps all targets exactly if the cell is none of them. -/
theorem keeps_seenFrom_iff (position : GeoPoint) (owner : Str) (now : ℤ) :
    (∀ id, b.IsTarget id → (b.seenFrom position owner now).IsTarget id) ↔
      ¬ b.IsTarget position.cell := by
  constructor
  · intro hkeeps hover
    exact ((isTarget_seenFrom _ _ _).1 (hkeeps _ hover)).2 rfl
  · intro hspares id h
    refine (isTarget_seenFrom _ _ _).2 ⟨h, ?_⟩
    rintro rfl
    exact hspares h

theorem isTarget_ingestTarget (target : RescueTarget) (now : ℤ) (h : b.IsTarget id) :
    (b.ingestTarget target now).IsTarget id := by
  rw [MapBackend.ingestTarget]
  split
  · exact h
  · next p _ =>
    obtain ⟨cell, hstate, hget⟩ := SharedWorldMap.getCell_mark (m := b.worldMap)
      (Py.roundHalfEven p.x) (Py.roundHalfEven p.y) (Py.roundHalfEven p.z) .target
      target.discoveredBy target.confidence 1
      (.ofList [(lit "target_type", .str target.targetType)]) now id
    refine (congrArg (Option.map WorldCell.state) hget).trans ?_
    split
    · rw [Option.map_some, hstate]
    · exact h

theorem isTarget_merge {remoteCells : List (Option WorldCell)} {sourceVersion : ℤ}
    (holder : OlderMerge b (.merge remoteCells sourceVersion)) (h : b.IsTarget id) :
    MapBackend.IsTarget { b with worldMap := b.worldMap.merge remoteCells sourceVersion } id := by
  obtain ⟨cell, hcell, hstate⟩ := Option.map_eq_some_iff.1 h
  have hmerged := SharedWorldMap.getCell_merge_of_older hcell
    (fun remote hremote hid => holder remote hremote cell (hid ▸ hcell)) sourceVersion
  exact (congrArg (Option.map WorldCell.state) hmerged).trans (congrArg some hstate)

theorem isTarget_completeTarget {targetId : Str}
    (hother : b.targetCellByTargetId.get? targetId ≠ some id) (byNode : Str) (now : ℤ)
    (h : b.IsTarget id) : (b.completeTarget targetId byNode now).IsTarget id := by
  rw [MapBackend.completeTarget]
  split
  · exact h
  · next cellId hcellId =>
    have hne : id ≠ cellId := by
      rintro rfl
      exact hother hcellId
    refine (congrArg (Option.map WorldCell.state) ?_).trans h
    exact SharedWorldMap.getCell_touchCell cellId now .searched byNode id hne

/-- **What a move does to the targets**: it keeps those that it does not complete, exactly if it is
no telemetry frame from the cell of one. -/
theorem isTarget_step_iff (holder : OlderMerge b mv) (hstep : mapStep b mv = some b') :
    (∀ id, b.IsTarget id → ¬ Completes id b mv → b'.IsTarget id) ↔ ¬ FliesOver b mv := by
  cases mv with
  | ingestTarget target now =>
      obtain rfl := Option.some.inj hstep
      exact iff_of_true (fun id h _ => isTarget_ingestTarget target now h) id
  | publishTelemetry telemetry now =>
      obtain rfl := Option.some.inj hstep
      refine Iff.trans ?_ (keeps_seenFrom_iff telemetry.position b.nodeId now)
      exact ⟨fun hkeeps cell h => hkeeps cell h id, fun hkeeps cell h _ => hkeeps cell h⟩
  | handleTelemetry telemetry now =>
      obtain rfl := Option.some.inj hstep
      refine Iff.trans ?_ (keeps_seenFrom_iff telemetry.position telemetry.nodeId now)
      exact ⟨fun hkeeps cell h => hkeeps cell h id, fun hkeeps cell h _ => hkeeps cell h⟩
  | merge remoteCells sourceVersion =>
      obtain rfl := Option.some.inj hstep
      exact iff_of_true (fun id h _ => isTarget_merge holder h) id
  | completeTarget targetId byNode now =>
      obtain rfl := Option.some.inj hstep
      exact iff_of_true (fun id h hother => isTarget_completeTarget hother byNode now h) id

/-! ### Runs -/

/-- A target is kept by the moves that neither complete it nor report from its cell. -/
theorem isTarget_run {mvs : List MapMove} (h : run mapStep b mvs = some b')
    (holder : Along mapStep OlderMerge b mvs)
    (hspares : Along mapStep (fun b mv => ¬ FliesOver b mv) b mvs)
    (hopen : Along mapStep (fun b mv => ¬ Completes id b mv) b mvs) (hid : b.IsTarget id) :
    b'.IsTarget id := by
  refine invariant_along (I := fun b => b.IsTarget id) (P := fun b mv =>
    (OlderMerge b mv ∧ ¬ FliesOver b mv) ∧ ¬ Completes id b mv) ?_ hid
    (along_and.2 ⟨along_and.2 ⟨holder, hspares⟩, hopen⟩) h
  rintro b mv b' hid ⟨⟨holder, hspares⟩, hopen⟩ hstep
  exact (isTarget_step_iff holder hstep).2 hspares id hid hopen

/-- **When targets are kept**: all along a run that merges older data only, exactly if no telemetry
frame comes from the cell of one. -/
theorem keepsTargets_iff {mvs : List MapMove} (h : run mapStep b₀ mvs = some b)
    (holder : Along mapStep OlderMerge b₀ mvs) :
    KeepsTargets b₀ mvs ↔ Along mapStep (fun b mv => ¬ FliesOver b mv) b₀ mvs := by
  constructor
  · intro hkeeps
    refine along_iff_forall_split.2 ?_
    rintro pre mv post b₁ rfl h₁
    obtain ⟨b₁', h₁', hrest⟩ := run_append.1 h
    obtain rfl := Option.some.inj (h₁.symm.trans h₁')
    obtain ⟨b₂, h₂, -⟩ := run_cons.1 hrest
    have hmv : OlderMerge b₁ mv := along_iff_forall_split.1 holder pre mv post b₁ rfl h₁
    refine (isTarget_step_iff hmv h₂).1 fun id hid hopen => ?_
    refine hkeeps pre [mv] b₁ b₂ ⟨post, by simp⟩ h₁ (run_cons.2 ⟨b₂, h₂, rfl⟩) id hid ?_
    exact ⟨hopen, fun _ _ => trivial⟩
  · intro hspares pre mid b₁ b₂ hprefix h₁ h₂ id hid hopen
    have hpart : ∀ {P : MapBackend → MapMove → Prop},
        Along mapStep P b₀ mvs → Along mapStep P b₁ mid :=
      fun halong => (halong.of_prefix hprefix).of_append h₁
    exact isTarget_run h₂ (hpart holder) (hpart hspares) hopen hid

/-! ### A drone above a victim -/

def victimBackend : MapBackend := .new (lit "drone-1")

/-- The drone finds a victim in the cell below it. -/
def victimFound : MapMove :=
  .ingestTarget ⟨lit "victim-1", lit "victim", 9 / 10, some ⟨3, 4, 0⟩, some (lit "drone-1")⟩ 100

def telemetryFrom (x y z : ℚ) : MapMove := .publishTelemetry ⟨lit "drone-1", ⟨x, y, z⟩⟩ 200

/-- It then sends its telemetry: its cell is no victim's any more. -/
theorem victim_forgotten :
    Along mapStep OlderMerge victimBackend [victimFound, telemetryFrom 3 4 0] ∧
      ¬ KeepsTargets victimBackend [victimFound, telemetryFrom 3 4 0] := by
  refine ⟨⟨trivial, fun _ _ => ⟨trivial, fun _ _ => trivial⟩⟩, fun hkeeps => ?_⟩
  obtain ⟨b₁, h₁⟩ : ∃ b, run mapStep victimBackend [victimFound] = some b := ⟨_, rfl⟩
  obtain ⟨b₂, h₂⟩ : ∃ b, run mapStep b₁ [telemetryFrom 3 4 0] = some b := ⟨_, rfl⟩
  have hfound : b₁.IsTarget (lit "3:4:0") := by
    have h : ∀ b ∈ run mapStep victimBackend [victimFound], b.IsTarget (lit "3:4:0") := by
      decide +kernel
    exact h b₁ h₁
  have hforgotten : ¬ b₂.IsTarget (lit "3:4:0") := by
    have h : ∀ b ∈ run mapStep victimBackend [victimFound, telemetryFrom 3 4 0],
        ¬ b.IsTarget (lit "3:4:0") := by
      decide +kernel
    exact h b₂ (run_append.2 ⟨b₁, h₁, h₂⟩)
  refine hforgotten (hkeeps [victimFound] [telemetryFrom 3 4 0] b₁ b₂ (List.prefix_refl _) h₁ h₂
    (lit "3:4:0") hfound ?_)
  exact ⟨id, fun _ _ => trivial⟩

/-- From another cell its telemetry leaves the victim on the map. -/
theorem keepsTargets_iff_elsewhere :
    KeepsTargets victimBackend [victimFound, telemetryFrom 8 4 0] := by
  obtain ⟨b, hb⟩ : ∃ b, run mapStep victimBackend [victimFound, telemetryFrom 8 4 0] = some b :=
    ⟨_, rfl⟩
  refine (keepsTargets_iff hb ?_).2 (by decide +kernel)
  exact ⟨trivial, fun _ _ => ⟨trivial, fun _ _ => trivial⟩⟩

end Sar
