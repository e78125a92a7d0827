/-
**When a sighting is published** (`MapDeltaCoordinator` of
`shared/tashi-mission-map-machine.ts`).

A target is marked on the map and a delta of up to fifty cells is committed at once.  The delta
takes the cells that have been dirty for longest, and the new sighting may be behind them.

Main definitions:

* `Tashi.MapDeltaCoordinator` — the coordinator, with what its adapter has been given;
* `stageSeen`, `stageFrontier`, `stageSearched`, `stageBlocked`, `stageTarget`, `mergeRemote`,
  `flushDelta`, `replaceFromSnapshot` — its operations;
* `Tashi.MapDeltaCoordinator.PublishesAtOnce` — a staged target is in the delta that is committed.

Main results:

* `Tashi.stageTarget_commits` — what staging a target commits;
* `Tashi.publishes_iff_room` — **a sighting is published at once exactly if fewer than fifty dirty
  cells are before it**;
* `Tashi.sighting_held_back` — a sighting that is not published.
-/
import Endendend.Tashi.DeltaExport

set_option relaxedAutoImplicit false
set_option autoImplicit false

namespace Tashi

open Js SharedMap

/-- What an adapter is given. -/
inductive MapCommit
  | mapDelta (delta : MapDelta)
  | mapSnapshot (snapshot : MapSnapshot)

/-- The coordinator: its map, and what its adapter has been given so far if it has one. -/
structure MapDeltaCoordinator where
  map : SharedMap
  commit : Option (List MapCommit)

/-- What an operation reads from outside: the clock and a random id. -/
structure DeltaReading where
  now : ℚ
  uuid : Str

namespace MapDeltaCoordinator

variable (co : MapDeltaCoordinator)

def stageSeen (x y z : Decimal) (owner : Owner) (now : ℚ) : MapDeltaCoordinator × MapCell :=
  ({ co with map := markSeen co.map x y z owner (3 / 5) ∅ now },
    markedCell .seen (3 / 5) [] co.map x y z owner now)

def stageFrontier (x y z : Decimal) (owner : Owner) (now : ℚ) : MapDeltaCoordinator × MapCell :=
  ({ co with map := markFrontier co.map x y z owner now },
    markedCell .frontier (35 / 100) [("frontier", .bool true)] co.map x y z owner now)

def stageSearched (x y z : Decimal) (owner : Owner) (now : ℚ) : MapDeltaCoordinator × MapCell :=
  ({ co with map := markSearched co.map x y z owner (9 / 10) now },
    markedCell .searched (9 / 10) [("searched", .bool true)] co.map x y z owner now)

def stageBlocked (x y z : Decimal) (owner : Owner) (reason : Str) (now : ℚ) :
    MapDeltaCoordinator × MapCell :=
  ({ co with map := markBlocked co.map x y z owner reason now },
    markedCell .blocked 1 [("blocked", .bool true), ("reason", .str reason)] co.map x y z owner now)

/-- `owner ?? "local"`. -/
def sourceOf : Owner → Str
  | .node nodeId => nodeId
  | _ => lit "local"

/-- Marks a target and commits a delta and a snapshot; without an adapter neither is made. -/
def stageTarget (x y z : Decimal) (owner : Owner) (targetType : Str) (r : DeltaReading) :
    MapDeltaCoordinator × MapCell :=
  let cell := markedCell .target 1 [("targetType", .str targetType)] co.map x y z owner r.now
  let map := markTarget co.map x y z owner targetType 1 r.now
  match co.commit with
  | none => ({ co with map }, cell)
  | some given =>
    let (map, delta) :=
      delta map 50 (lit "target_detection") (sourceOf owner) (lit "delta-" ++ r.uuid) r.now
    (⟨map, some (given ++ [.mapDelta delta, .mapSnapshot (snapshot map r.now)])⟩, cell)

def mergeRemote (s : MapSnapshot) (now : ℚ) : MapDeltaCoordinator × MergeStats :=
  let (map, result) := mergeSnapshot co.map s
  (⟨map, co.commit.map fun given => given ++ [.mapSnapshot (snapshot map now)]⟩, result)

def flushDelta (reason sourceNodeId : Str) (r : DeltaReading) : MapDeltaCoordinator × MapDelta :=
  let (map, delta) := delta co.map 200 reason sourceNodeId (lit "delta-" ++ r.uuid) r.now
  (⟨map, co.commit.map fun given => given ++ [.mapDelta delta]⟩, delta)

def replaceFromSnapshot (s : MapSnapshot) (now : ℚ) : MapDeltaCoordinator × MergeStats :=
  co.mergeRemote s now

/-- **A staged target is published at once**: the adapter is given a delta that holds the new record
of its cell. -/
def PublishesAtOnce (given : List MapCommit) (x y z : Decimal) (owner : Owner) (targetType : Str)
    (r : DeltaReading) : Prop :=
  ∃ delta snapshot, (co.stageTarget x y z owner targetType r).1.commit =
      some (given ++ [.mapDelta delta, .mapSnapshot snapshot]) ∧
    (co.stageTarget x y z owner targetType r).2 ∈ delta.cells

end MapDeltaCoordinator

open MapDeltaCoordinator

/-- The delta that is made when a target is staged. -/
def targetDelta (m : SharedMap) (x y z : Decimal) (owner : Owner) (targetType : Str)
    (r : DeltaReading) : SharedMap × MapDelta :=
  DeltaCall.make ⟨50, lit "target_detection", sourceOf owner, lit "delta-" ++ r.uuid, r.now⟩
    (markTarget m x y z owner targetType 1 r.now)

/-- **What staging a target commits**: the delta, and a snapshot of what the delta leaves. -/
theorem stageTarget_commits {co : MapDeltaCoordinator} {given : List MapCommit}
    (h : co.commit = some given) (x y z : Decimal) (owner : Owner) (targetType : Str)
    (r : DeltaReading) :
    co.stageTarget x y z owner targetType r =
      (⟨(targetDelta co.map x y z owner targetType r).1,
        some (given ++ [.mapDelta (targetDelta co.map x y z owner targetType r).2,
          .mapSnapshot (snapshot (targetDelta co.map x y z owner targetType r).1 r.now)])⟩,
        markedCell .target 1 [("targetType", .str targetType)] co.map x y z owner r.now) := by
  unfold stageTarget
  simp only [h]
  rfl

/-- The marked record is in the delta exactly if its cell is among the first fifty. -/
theorem mem_targetDelta_iff {m : SharedMap} {x y z : Decimal} {owner : Owner} {targetType : Str}
    {r : DeltaReading} :
    markedCell .target 1 [("targetType", .str targetType)] m x y z owner r.now ∈
        (targetDelta m x y z owner targetType r).2.cells ↔
      m.dirty.idxOf (cellIdOf x y z) < 50 := by
  have hfirst : cellIdOf x y z ∈ (markTarget m x y z owner targetType 1 r.now).dirty.take 50 ↔
      m.dirty.idxOf (cellIdOf x y z) < 50 := by
    have hwaiting := congrArg Outbox.waiting
      (outbox_mark .target 1 [("targetType", .str targetType)] m x y z owner r.now)
    have hdirty : (markTarget m x y z owner targetType 1 r.now).dirty = _ := hwaiting
    rw [hdirty]
    exact Outbox.mem_take_write_iff
  rw [← hfirst]
  constructor
  · intro hmem
    obtain ⟨id, htake, hcell⟩ := List.mem_filterMap.1 hmem
    rw [← cellId_of_cell hcell, cellId_markedCell] at htake
    exact htake
  · intro htake
    refine List.mem_filterMap.2 ⟨cellIdOf x y z, htake, ?_⟩
    rw [markTarget, cell_mark]
    exact if_pos rfl

/-- A staged target is published at once exactly if its record is in the delta. -/
theorem publishes_iff_mem_targetDelta {co : MapDeltaCoordinator} {given : List MapCommit}
    (h : co.commit = some given) {x y z : Decimal} {owner : Owner} {targetType : Str}
    {r : DeltaReading} :
    co.PublishesAtOnce given x y z owner targetType r ↔
      markedCell .target 1 [("targetType", .str targetType)] co.map x y z owner r.now ∈
        (targetDelta co.map x y z owner targetType r).2.cells := by
  unfold PublishesAtOnce
  rw [stageTarget_commits h]
  constructor
  · rintro ⟨delta, s, hcommit, hmem⟩
    have hpair := List.append_cancel_left (Option.some.inj hcommit)
    obtain rfl : _ = delta := MapCommit.mapDelta.inj (List.cons.inj hpair).1
    exact hmem
  · exact fun hmem => ⟨_, _, rfl, hmem⟩

/-- **A sighting is published at once exactly if fewer than fifty dirty cells are before it**: its
cell is one of the first fifty, or it is not dirty and fewer than fifty are. -/
theorem publishes_iff_room {co : MapDeltaCoordinator} {given : List MapCommit}
    (h : co.commit = some given) (x y z : Decimal) (owner : Owner) (targetType : Str)
    (r : DeltaReading) :
    co.PublishesAtOnce given x y z owner targetType r ↔
      co.map.dirty.idxOf (cellIdOf x y z) < 50 := by
  rw [publishes_iff_mem_targetDelta h, mem_targetDelta_iff]

/-- On a new map. -/
theorem publishes_iff_room_new :
    MapDeltaCoordinator.PublishesAtOnce ⟨.new "map", some []⟩ [] 0 0 0 .null "victim" ⟨1, "id"⟩ ↔
      (SharedMap.new "map").dirty.idxOf (cellIdOf 0 0 0) < 50 :=
  publishes_iff_room rfl 0 0 0 .null "victim" ⟨1, "id"⟩

/-- Fifty cells in a row have been seen since the last delta. -/
def fiftySeen : SharedMap :=
  (List.range 50).foldl
    (fun m i => markSeen m (Decimal.ofInt i) 0 0 (.node "n1") (3 / 5) ∅ 10) (.new "map")

/-- **A sighting that is not published**: the target is on the next cell. -/
theorem sighting_held_back :
    ¬ ∀ (co : MapDeltaCoordinator) (given : List MapCommit), co.commit = some given →
      ∀ (x y z : Decimal) (owner : Owner) (targetType : Str) (r : DeltaReading),
        co.PublishesAtOnce given x y z owner targetType r := by
  intro h
  have hpublished := h ⟨fiftySeen, some []⟩ [] rfl (Decimal.ofInt 50) 0 0 (.node "n1") "victim"
    ⟨20, "id"⟩
  rw [publishes_iff_mem_targetDelta rfl, mem_targetDelta_iff] at hpublished
  exact absurd hpublished (by decide +kernel)

end Tashi
