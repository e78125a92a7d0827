/-
**Geofences** (`GeoFence` of `swarm/sar_vertex_foxmq_backend.py`).

Whether a point is within a fence is told by a loop over the corners, which turns a flag at every
edge to the right of the point.

Main definitions:

* `Sar.GeoFence`, `Sar.GeoFence.contains` — a fence, and the loop;
* `Sar.GeoFence.Convex`, `Sar.GeoFence.OnBoundary`, `Sar.GeoFence.StrictlyInside` — what the fence
  is in the plane.

Main results:

* `Sar.GeoFence.contains_iff_odd` — the loop counts the edges that are crossed;
* `Sar.GeoFence.contains_geometric` — **the loop does not depend on where the corners start and in
  which direction they go, and finds the points that are strictly inside a convex fence.**
-/
import Endendend.Foundation.ConvexPolygon
import Endendend.Sar.VictimCells

set_option relaxedAutoImplicit false
set_option autoImplicit false

namespace Sar

open CyclicEdges Plane
open Js (Str)

structure GeoFence where
  fenceId : Str
  points : List GeoPoint
  minAltM : ℚ
  maxAltM : ℚ

/-- An edge is met by the ray to the right of a point. -/
def Intersects (point pj pi : GeoPoint) : Prop :=
  ¬ (point.y < pi.y ↔ point.y < pj.y) ∧
    point.x < (pj.x - pi.x) * (point.y - pi.y) /
      (if pj.y - pi.y ≠ 0 then pj.y - pi.y else 1e-9) + pi.x

instance (point pj pi : GeoPoint) : Decidable (Intersects point pj pi) :=
  inferInstanceAs (Decidable (_ ∧ _))

/-- A point without its altitude. -/
def GeoPoint.flat (p : GeoPoint) : ℚ × ℚ := (p.x, p.y)

namespace GeoFence

/-- Is a point within the fence?  A fence of less than three corners holds all points that are at
its altitudes. -/
def contains (fence : GeoFence) (point : GeoPoint) : Bool :=
  if point.z < fence.minAltM ∨ fence.maxAltM < point.z then false
  else if h : fence.points.length < 3 then true
  else
    (fence.points.foldl
      (fun (s : Bool × GeoPoint) pi => (if Intersects point s.2 pi then !s.1 else s.1, pi))
      (false, fence.points.getLast fun hnil => h (by simp [hnil]))).1

/-! ### The fence in the plane -/

variable (fence : GeoFence)

/-- The corners without their altitudes. -/
def corners : List (ℚ × ℚ) := fence.points.map GeoPoint.flat

/-- The corners are those of a convex polygon, in one of the two directions. -/
def Convex : Prop := IsConvexPolygon fence.corners

/-- A point is on an edge of the fence. -/
def OnBoundary (point : GeoPoint) : Prop := point.flat ∈ boundary fence.corners

/-- A point is in the convex hull of the corners, and not on an edge. -/
def StrictlyInside (point : GeoPoint) : Prop :=
  point.flat ∈ region fence.corners ∧ ¬ fence.OnBoundary point

/-! ### The loop -/

variable {fence} {point : GeoPoint}

theorem intersects_iff (point pj pi : GeoPoint) :
    Intersects point pj pi ↔ Crosses point.flat (pj.flat, pi.flat) := by
  rw [Intersects, Crosses, Iff.comm (a := point.y < pi.y)]
  refine and_congr_right fun h => ?_
  have hne : pj.y - pi.y ≠ 0 := sub_ne_zero.2 fun heq => h (by rw [heq])
  rw [if_pos hne]
  rfl

theorem edges_corners : edges fence.corners =
    (edges fence.points).map (Prod.map GeoPoint.flat GeoPoint.flat) := by
  rw [edges, corners, ← List.map_rotate, List.zip_map]
  rfl

/-- **The loop counts the edges that are crossed.** -/
theorem contains_iff_odd (hpoints : 3 ≤ fence.points.length) (hmin : fence.minAltM ≤ point.z)
    (hmax : point.z ≤ fence.maxAltM) :
    fence.contains point = true ↔
      Odd ((edges fence.corners).countP (Crosses point.flat ·)) := by
  have hlow : ¬ (point.z < fence.minAltM ∨ fence.maxAltM < point.z) :=
    not_or.2 ⟨not_lt.2 hmin, not_lt.2 hmax⟩
  rw [contains, if_neg hlow, dif_neg (not_lt.2 hpoints), foldl_toggle]
  -- the loop begins at the last corner
  obtain ⟨init, last, hsplit⟩ : ∃ init last, fence.points = init ++ [last] :=
    ⟨_, _, (List.dropLast_append_getLast (List.ne_nil_of_length_pos (by omega))).symm⟩
  have hloop : (steps (last :: fence.points)).countP (fun e => Intersects point e.1 e.2) =
      (edges fence.corners).countP (Crosses point.flat ·) := by
    have hrot : fence.points.IsRotated (last :: init) := hsplit ▸ List.isRotated_append
    rw [edges_corners, List.countP_map, (perm_edges_of_isRotated hrot).countP_eq, edges_cons,
      hsplit]
    refine List.countP_congr fun e _ => ?_
    simp only [Function.comp_apply, decide_eq_true_eq]
    exact intersects_iff point e.1 e.2
  simp only [hsplit, List.getLast_append_singleton, ← hloop, Bool.false_eq_true, false_iff,
    Nat.not_even_iff_odd]

/-- **Containment is geometric.**  It does not depend on where the corners start and in which
direction they go; and a point that is not on an edge of a convex fence is within it exactly if it
is strictly inside. -/
theorem contains_geometric (fence : GeoFence) (point : GeoPoint)
    (hpoints : 3 ≤ fence.points.length) (hmin : fence.minAltM ≤ point.z)
    (hmax : point.z ≤ fence.maxAltM) :
    (∀ n, { fence with points := fence.points.rotate n }.contains point = fence.contains point) ∧
      { fence with points := fence.points.reverse }.contains point = fence.contains point ∧
      (fence.Convex → ¬ fence.OnBoundary point →
        (fence.contains point = true ↔ fence.StrictlyInside point)) := by
  refine ⟨fun n => ?_, ?_, fun hconvex hboundary => ?_⟩
  · have hlength : 3 ≤ (points { fence with points := fence.points.rotate n }).length := by
      simpa using hpoints
    have hcorners : corners { fence with points := fence.points.rotate n } =
        fence.corners.rotate n := List.map_rotate _ _ n
    rw [Bool.eq_iff_iff, contains_iff_odd hlength hmin hmax, hcorners,
      contains_iff_odd hpoints hmin hmax,
      countP_crosses_of_isRotated point.flat (List.IsRotated.forall fence.corners n)]
  · have hlength : 3 ≤ (points { fence with points := fence.points.reverse }).length := by
      simpa using hpoints
    have hcorners : corners { fence with points := fence.points.reverse } =
        fence.corners.reverse := List.map_reverse
    rw [Bool.eq_iff_iff, contains_iff_odd hlength hmin hmax, hcorners,
      contains_iff_odd hpoints hmin hmax, countP_crosses_reverse]
  · rw [contains_iff_odd hpoints hmin hmax, odd_crosses_iff hconvex hboundary, StrictlyInside,
      and_iff_left hboundary]

/-! ### A triangle -/

def triangle : GeoFence :=
  ⟨("fence-1" : String), [⟨0, 0, 0⟩, ⟨4, 0, 0⟩, ⟨0, 4, 0⟩], 0, 120⟩

/-- A point within the triangle. -/
def hovering : GeoPoint := ⟨1, 1, 10⟩

theorem convex_triangle : triangle.Convex := by
  refine Or.inl fun a b c hsub => ?_
  have hall := hsub.eq_of_length rfl
  simp only [triangle, corners, List.map_cons, List.map_nil, List.cons.injEq] at hall
  obtain ⟨rfl, rfl, rfl, -⟩ := hall
  decide +kernel

theorem not_onBoundary_triangle : ¬ triangle.OnBoundary hovering := by
  rintro ⟨e, he, hp⟩
  have hoff : ∀ e ∈ edges triangle.corners, turn e.1 e.2 hovering.flat ≠ 0 := by decide +kernel
  exact hoff e he (turn_eq_zero_of_mem_segment hp)

theorem contains_geometric_triangle :
    triangle.contains hovering = true ↔ triangle.StrictlyInside hovering :=
  (contains_geometric triangle hovering (by decide) (by decide +kernel) (by decide +kernel)).2.2
    convex_triangle not_onBoundary_triangle

end GeoFence

end Sar
