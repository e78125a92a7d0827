/-
**Backup routes** (`mesh/routeOptimizer.ts`).

The hops of the primary path are taken out one after the other, and the first path that is left and
reads differently is the backup.  If there is none, the primary path is the only one; it is then
given backwards, and leads from the target to the operator.

Main definitions:

* `Mesh.UsableBackup` — what a backup is for;
* `Mesh.TwoRoutes` — there are two paths;
* `Mesh.ReadApart` — different paths read differently, as they do if no id has a comma.

Main results:

* `Mesh.findBackup_eq_some`, `Mesh.findBackup_eq_none` — where a backup comes from, and what its
  absence means;
* `Mesh.passes_of_dropHop` — if nothing is found without a hop, every path passes it;
* `Mesh.backup_usable_iff` — **a backup is usable exactly if there are two paths**.
-/
import Endendend.Mesh.RouteOptimizer

set_option relaxedAutoImplicit false
set_option autoImplicit false

namespace Mesh

open Js Walks Dijkstra

/-- A path along the edges that visits no node twice. -/
def SimplePath (snap : ConnectivitySnapshot) (u v : Str) (p : List Str) : Prop :=
  p.Nodup ∧ ∃ c, Walk (links snap) u v p c

/-- The backup leads to the target, and is another path than the primary one if there is another
path that leaves out one of its hops. -/
structure UsableBackup (snap : ConnectivitySnapshot) (plan : RoutePlan) : Prop where
  route : SimplePath snap plan.fromId plan.toId plan.backupPath
  differs : (∃ p, SimplePath snap plan.fromId plan.toId p ∧ p ≠ plan.primaryPath ∧
    ∃ h ∈ hops plan.primaryPath, ¬ Passes p h) → plan.backupPath ≠ plan.primaryPath

/-- Two different paths lead from one node to the other. -/
def TwoRoutes (snap : ConnectivitySnapshot) (u v : Str) : Prop :=
  ∃ p q, SimplePath snap u v p ∧ SimplePath snap u v q ∧ p ≠ q

/-! ### Plans -/

/-- A plan for a target, from the searches that were made for it. -/
structure Planned (fuel : ℕ) (args : RouteArgs) (plan : RoutePlan) : Prop where
  other : plan.toId ≠ args.operatorId
  operator : plan.fromId = args.operatorId
  primary : ∃ cost, shortestPath fuel (buildAdj args.snap) args.operatorId plan.toId =
    some (some (plan.primaryPath, cost))
  backup : ∃ backup, findBackup fuel (buildAdj args.snap) args.operatorId plan.toId
      plan.primaryPath (hops plan.primaryPath) = some backup ∧
    plan.backupPath = if backup.getD [] ≠ [] then backup.getD [] else plan.primaryPath.reverse

section Plans

variable {fuel : ℕ} {args : RouteArgs}

theorem addPlan_cases {plans plans' : List RoutePlan} {tgt : Str}
    (h : addPlan fuel args (buildAdj args.snap) plans tgt = some plans') :
    plans' = plans ∨ ∃ plan, Planned fuel args plan ∧ plans' = plans ++ [plan] := by
  rw [addPlan] at h
  split at h
  · exact Or.inl (Option.some.inj h).symm
  · next hne =>
      split at h
      · exact absurd h (by simp)
      · exact Or.inl (Option.some.inj h).symm
      · next primary cost hprimary =>
          obtain ⟨backup, hbackup, heq⟩ := Option.map_eq_some_iff.1 h
          exact Or.inr ⟨_, ⟨hne, rfl, ⟨cost, hprimary⟩, backup, hbackup, rfl⟩, heq.symm⟩

theorem planned_of_foldlM {targets : List Str} {plans plans' : List RoutePlan}
    (hplans : ∀ plan ∈ plans, Planned fuel args plan)
    (h : targets.foldlM (addPlan fuel args (buildAdj args.snap)) plans = some plans') :
    ∀ plan ∈ plans', Planned fuel args plan := by
  induction targets generalizing plans with
  | nil => exact Option.some.inj h ▸ hplans
  | cons tgt targets ih =>
      rw [List.foldlM_cons] at h
      obtain ⟨mid, hmid, h⟩ := Option.bind_eq_some_iff.1 h
      refine ih ?_ h
      rcases addPlan_cases hmid with rfl | ⟨plan, hplan, rfl⟩
      · exact hplans
      · intro p hp
        rcases List.mem_append.1 hp with hp | hp
        · exact hplans p hp
        · exact List.mem_singleton.1 hp ▸ hplan

/-- **Every plan comes from the searches for its target.** -/
theorem planned_of_mem {plans : List RoutePlan} (h : computeRoutePlans fuel args = some plans)
    {plan : RoutePlan} (hplan : plan ∈ plans) : Planned fuel args plan := by
  obtain ⟨all, hall, rfl⟩ := Option.map_eq_some_iff.1 h
  refine planned_of_foldlM (fun p hp => absurd hp List.not_mem_nil) hall plan ?_
  exact List.mem_of_mem_take hplan

end Plans

/-! ### Backups -/

theorem mem_neighbors_dropHop {adj : Adj} {h : Str × Str} {v : Str} {nx : Str × ℚ} :
    nx ∈ (adj.dropHop h.1 h.2).neighbors v ↔
      nx ∈ adj.neighbors v ∧ (v, nx.1) ≠ h ∧ (nx.1, v) ≠ h := by
  rw [Adj.neighbors_dropHop, List.mem_filter, decide_eq_true_iff, not_or, ne_eq, ne_eq,
    Prod.ext_iff, Prod.ext_iff, and_comm (a := nx.1 = h.2)]

section Backup

variable {fuel : ℕ} {adj : Adj} {fromId toId : Str} {primary : List Str}

/-- The first hop gives the backup, or the path without it is of no use. -/
theorem findBackup_cons {hop : Str × Str} {hs : List (Str × Str)} {r : Option (List Str)}
    (h : findBackup fuel adj fromId toId primary (hop :: hs) = some r) :
    (∃ path cost, r = some path ∧ joinPath path ≠ joinPath primary ∧
      shortestPath fuel (adj.dropHop hop.1 hop.2) fromId toId = some (some (path, cost))) ∨
    (findBackup fuel adj fromId toId primary hs = some r ∧ ∃ found,
      shortestPath fuel (adj.dropHop hop.1 hop.2) fromId toId = some found ∧
        ∀ path cost, found = some (path, cost) → joinPath path = joinPath primary) := by
  rw [findBackup] at h
  split at h
  · exact absurd h (by simp)
  · next hnone => exact Or.inr ⟨h, none, hnone, fun path cost heq => absurd heq (by simp)⟩
  · next path cost hpath =>
      split at h
      · next hreads => exact Or.inl ⟨path, cost, (Option.some.inj h).symm, hreads, hpath⟩
      · next hsame =>
          refine Or.inr ⟨h, _, hpath, fun path' cost' heq => ?_⟩
          obtain ⟨rfl, rfl⟩ := Prod.mk.inj (Option.some.inj heq)
          exact of_not_not hsame

/-- A backup is found without one of the hops. -/
theorem findBackup_eq_some {hs : List (Str × Str)} {path : List Str}
    (h : findBackup fuel adj fromId toId primary hs = some (some path)) :
    joinPath path ≠ joinPath primary ∧ ∃ hop ∈ hs, ∃ cost,
      shortestPath fuel (adj.dropHop hop.1 hop.2) fromId toId = some (some (path, cost)) := by
  induction hs with
  | nil => exact absurd h (by simp [findBackup])
  | cons hop hs ih =>
      rcases findBackup_cons h with ⟨path, cost, heq, hreads, hpath⟩ | ⟨hrest, -⟩
      · obtain rfl := Option.some.inj heq
        exact ⟨hreads, hop, List.mem_cons_self, cost, hpath⟩
      · obtain ⟨hreads, hop', hmem, hfound⟩ := ih hrest
        exact ⟨hreads, hop', List.mem_cons_of_mem hop hmem, hfound⟩

/-- Without a backup, what is found without a hop reads like the primary path. -/
theorem findBackup_eq_none {hs : List (Str × Str)}
    (h : findBackup fuel adj fromId toId primary hs = some none) :
    ∀ hop ∈ hs, ∃ found,
      shortestPath fuel (adj.dropHop hop.1 hop.2) fromId toId = some found ∧
        ∀ path cost, found = some (path, cost) → joinPath path = joinPath primary := by
  induction hs with
  | nil => exact fun hop hmem => absurd hmem List.not_mem_nil
  | cons hop hs ih =>
      rcases findBackup_cons h with ⟨path, cost, heq, -⟩ | ⟨hrest, hfound⟩
      · exact absurd heq (by simp)
      · intro hop' hmem
        rcases List.mem_cons.1 hmem with rfl | hmem
        · exact hfound
        · exact ih hrest hop' hmem

end Backup

/-! ### Paths without a hop -/

section DropHop

variable {fuel : ℕ} {snap : ConnectivitySnapshot} {u v : Str} {hop : Str × Str}

theorem dropHop_subset (snap : ConnectivitySnapshot) (hop : Str × Str) (x : Str) :
    ((buildAdj snap).dropHop hop.1 hop.2).neighbors x ⊆ links snap x := by
  intro nx hnx
  rw [← neighbors_buildAdj]
  exact (mem_neighbors_dropHop.1 hnx).1

theorem ne_nil_of_dropHop (hids : ∀ x, Connected (links snap) u x → x ≠ []) (x : Str)
    (h : Connected ((buildAdj snap).dropHop hop.1 hop.2).neighbors u x) : x ≠ [] := by
  obtain ⟨p, c, hwalk⟩ := h
  exact hids x ⟨p, c, hwalk.mono (dropHop_subset snap hop)⟩

/-- What is found without a hop is a simple path that does not pass it. -/
theorem simplePath_of_dropHop {path : List Str} {cost : ℚ}
    (hids : ∀ x, Connected (links snap) u x → x ≠ [])
    (h : shortestPath fuel ((buildAdj snap).dropHop hop.1 hop.2) u v = some (some (path, cost))) :
    SimplePath snap u v path ∧ ¬ Passes path hop := by
  obtain ⟨-, hpath⟩ := shortestPath_eq_some (ne_nil_of_dropHop hids) h
  obtain ⟨hnodup, c, hwalk⟩ := hpath path cost rfl
  refine ⟨⟨hnodup, c, hwalk.mono (dropHop_subset snap hop)⟩, hwalk.not_passes fun x y w hedge => ?_⟩
  exact (mem_neighbors_dropHop.1 hedge).2

/-- If nothing is found without a hop, every path passes it. -/
theorem passes_of_dropHop (hids : ∀ x, Connected (links snap) u x → x ≠ [])
    (h : shortestPath fuel ((buildAdj snap).dropHop hop.1 hop.2) u v = some none) {p : List Str}
    (hp : SimplePath snap u v p) : Passes p hop := by
  obtain ⟨hnone, -⟩ := shortestPath_eq_some (ne_nil_of_dropHop hids) h
  obtain ⟨-, c, hwalk⟩ := hp
  by_contra hnot
  refine hnone.1 rfl ⟨p, c, hwalk.avoid (fun x y w hedge hne hne' => ?_) hnot⟩
  exact mem_neighbors_dropHop.2 ⟨neighbors_buildAdj snap ▸ hedge, hne, hne'⟩

end DropHop

/-! ### Backups are usable if there are two paths -/

/-- Different paths between the nodes read differently. -/
def ReadApart (snap : ConnectivitySnapshot) (u v : Str) : Prop :=
  ∀ p q, SimplePath snap u v p → SimplePath snap u v q → joinPath p = joinPath q → p = q

theorem SimplePath.eq_of_passes {snap : ConnectivitySnapshot} {u v : Str} {p q : List Str}
    (hp : SimplePath snap u v p) (hq : SimplePath snap u v q)
    (hpass : ∀ h ∈ hops p, Passes q h) : p = q := by
  obtain ⟨hnodup, c, hwalk⟩ := hp
  obtain ⟨hnodup', c', hwalk'⟩ := hq
  exact eq_of_hops hnodup hnodup' (hwalk.head?.trans hwalk'.head?.symm)
    (hwalk.getLast?.trans hwalk'.getLast?.symm) hpass

/-- **A backup is usable exactly if there are two paths.** -/
theorem backup_usable_iff {fuel : ℕ} {args : RouteArgs} {plans : List RoutePlan} {plan : RoutePlan}
    (hids : ∀ v, Connected (links args.snap) args.operatorId v → v ≠ [])
    (hreads : ReadApart args.snap args.operatorId plan.toId)
    (h : computeRoutePlans fuel args = some plans) (hplan : plan ∈ plans) :
    UsableBackup args.snap plan ↔ TwoRoutes args.snap plan.fromId plan.toId := by
  obtain ⟨hother, hfrom, ⟨cost, hprimary⟩, backup, hbackup, heq⟩ := planned_of_mem h hplan
  rw [← hfrom] at hids hreads hprimary hbackup
  have hsimple : SimplePath args.snap plan.fromId plan.toId plan.primaryPath := by
    have hlive : ∀ v, Connected (buildAdj args.snap).neighbors plan.fromId v → v ≠ [] :=
      fun v hv => hids v (neighbors_buildAdj args.snap ▸ hv)
    obtain ⟨hnodup, hwalk⟩ := (shortestPath_eq_some hlive hprimary).2 _ _ rfl
    exact ⟨hnodup, neighbors_buildAdj args.snap ▸ hwalk⟩
  cases backup with
  | some path =>
      -- the backup is a second path
      obtain ⟨hdiff, hop, -, c, hpath⟩ := findBackup_eq_some hbackup
      have hsimple' := (simplePath_of_dropHop hids hpath).1
      have hne : path ≠ plan.primaryPath := fun heq => hdiff (congrArg joinPath heq)
      have hnil : path ≠ [] := hsimple'.2.elim fun c hwalk => hwalk.ne_nil
      rw [Option.getD_some, if_pos hnil] at heq
      refine iff_of_true ⟨heq ▸ hsimple', fun _ => heq ▸ hne⟩ ?_
      exact ⟨path, plan.primaryPath, hsimple', hsimple, hne⟩
  | none =>
      rw [Option.getD_none, if_neg (not_not.2 rfl)] at heq
      -- every path has the hops of the primary one
      have honly : ∀ p, SimplePath args.snap plan.fromId plan.toId p → p = plan.primaryPath := by
        intro p hp
        refine (hsimple.eq_of_passes hp fun hop hmem => ?_).symm
        obtain ⟨found, hfound, hsame⟩ := findBackup_eq_none hbackup hop hmem
        cases found with
        | none => exact passes_of_dropHop hids hfound hp
        | some found =>
            obtain ⟨hsimple', hnot⟩ := simplePath_of_dropHop hids hfound
            rw [hreads _ _ hsimple' hsimple (hsame found.1 found.2 rfl)] at hnot
            exact absurd (Or.inl hmem) hnot
      refine iff_of_false (fun husable => ?_) ?_
      · -- the primary path backwards begins at the target
        obtain ⟨-, c, hwalk⟩ := husable.route
        obtain ⟨-, c', hwalk'⟩ := hsimple
        have hhead := hwalk.head?
        rw [heq, List.head?_reverse, hwalk'.getLast?] at hhead
        exact hother ((Option.some.inj hhead).trans hfrom)
      · rintro ⟨p, q, hp, hq, hne⟩
        exact hne ((honly p hp).trans (honly q hq).symm)

theorem joinPath_injective {p q : List Str} (hp : ∀ s ∈ p, unit ',' ∉ s)
    (hq : ∀ s ∈ q, unit ',' ∉ s) (hpn : p ≠ []) (hqn : q ≠ []) (h : joinPath p = joinPath q) :
    p = q := by
  have hp' := List.splitOn_intercalate (unit ',') hp hpn
  have hq' := List.splitOn_intercalate (unit ',') hq hqn
  rw [← hp', ← hq']
  exact congrArg (List.splitOn (unit ',')) h

/-- Paths read differently if the ids have no commas. -/
theorem readApart_of_noComma {snap : ConnectivitySnapshot} {u : Str} (hu : unit ',' ∉ u)
    (hids : ∀ e ∈ snap.edges, unit ',' ∉ e.a ∧ unit ',' ∉ e.b) (v : Str) : ReadApart snap u v := by
  rintro p q ⟨-, c, hp⟩ ⟨-, d, hq⟩ h
  exact joinPath_injective (forall_of_walk hids hu hp) (forall_of_walk hids hu hq) hp.ne_nil
    hq.ne_nil h

/-- Two nodes with a direct edge, and a relay between them. -/
def triangle : RouteArgs where
  snap := {
    edges := [
      { a := lit "o", b := lit "t", latencyMs := 200, loss := 0, quality01 := 1 },
      { a := lit "o", b := lit "r", latencyMs := 40, loss := 0, quality01 := 1 },
      { a := lit "r", b := lit "t", latencyMs := 40, loss := 0, quality01 := 1 }]
    stalePeers := [] }
  operatorId := lit "o"
  targets := [lit "t"]

/-- The plan for the target: the relay, and the direct edge as a backup. -/
def trianglePlan : RoutePlan where
  topic := lit "state_sync"
  fromId := lit "o"
  toId := lit "t"
  primaryPath := [lit "o", lit "r", lit "t"]
  backupPath := [lit "o", lit "t"]
  primaryQuality01 := 1
  backupQuality01 := 1

theorem backup_usable_triangle :
    UsableBackup triangle.snap trianglePlan ↔ TwoRoutes triangle.snap (lit "o") (lit "t") :=
  backup_usable_iff (fun v => ne_nil_of_connected (by decide) (by decide))
    (readApart_of_noComma (by decide) (by decide) _)
    (show computeRoutePlans 9 triangle = some [trianglePlan] by decide +kernel)
    List.mem_cons_self

/-- Two nodes and an edge. -/
def pair : RouteArgs where
  snap := {
    edges := [{ a := lit "o", b := lit "t", latencyMs := 40, loss := 0, quality01 := 1 }]
    stalePeers := [] }
  operatorId := lit "o"
  targets := [lit "t"]

def pairPlan : RoutePlan where
  topic := lit "state_sync"
  fromId := lit "o"
  toId := lit "t"
  primaryPath := [lit "o", lit "t"]
  backupPath := [lit "t", lit "o"]
  primaryQuality01 := 1
  backupQuality01 := 8 / 100

/-- The backup of the only path leads from the target to the operator. -/
theorem backup_of_pair_not_usable :
    computeRoutePlans 9 pair = some [pairPlan] ∧ ¬ UsableBackup pair.snap pairPlan := by
  refine ⟨by decide +kernel, fun husable => ?_⟩
  obtain ⟨-, c, hwalk⟩ := husable.route
  exact absurd hwalk.head? (by decide)

end Mesh
