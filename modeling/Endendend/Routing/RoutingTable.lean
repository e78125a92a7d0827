/-
**Routing tables** (`swarm/routing.py`).

For each destination a node keeps a few rows, each a neighbour through which the destination can be
reached and what that costs, the cheapest row first.

Main definitions:

* `Routing.RouteRow`, `Routing.RoutingTable` — the rows of a node;
* `Routing.RoutingTable.addRoute`, with `getBest`, `getNextHops`, `removeRoutesVia`, `cleanupStale`
  and `advertise`.

Main results:

* `Routing.RoutingTable.mem_rows_addRoute` — the rows after a row has been entered;
* `Routing.RoutingTable.getBest_addRoute` — **the best row costs no more than any row that was there
  or has been entered**;
* `Routing.RoutingTable.rows_keepRows` — what is left when rows are taken out;
* `Routing.RoutingTable.mem_advertise` — what is advertised are the best rows.
-/
import Endendend.Foundation.OrderedMap
import Mathlib.Data.List.Sort
import Mathlib.Data.Rat.Defs
import Mathlib.Algebra.Order.Ring.Unbundled.Rat
import Mathlib.Tactic.Linarith

set_option relaxedAutoImplicit false
set_option autoImplicit false

namespace Routing

open Js (OrderedMap)

/-- A way to a destination: the neighbour to go through, the cost, and when the row was entered. -/
structure RouteRow (Id : Type*) where
  nextHop : Id
  cost : ℤ
  ts : ℚ
  version : ℤ
  deriving DecidableEq

/-- A row in an advertisement. -/
structure Advertised (Id : Type*) where
  dest : Id
  cost : ℤ
  version : ℤ
  deriving DecidableEq

structure RoutingTable (Id : Type*) where
  myId : Id
  maxRoutes : ℕ
  table : OrderedMap Id (List (RouteRow Id))

variable {Id : Type*}

/-- The order of the rows: by cost, the newest version first. -/
def RouteRow.Le (a b : RouteRow Id) : Prop :=
  a.cost < b.cost ∨ a.cost = b.cost ∧ -a.version ≤ -b.version

instance : DecidableRel (RouteRow.Le : RouteRow Id → RouteRow Id → Prop) := fun a b =>
  inferInstanceAs (Decidable (a.cost < b.cost ∨ a.cost = b.cost ∧ -a.version ≤ -b.version))

theorem RouteRow.Le.cost_le {a b : RouteRow Id} (h : a.Le b) : a.cost ≤ b.cost := by
  rcases h with h | ⟨h, -⟩
  · exact h.le
  · exact h.le

instance : Std.Total (RouteRow.Le : RouteRow Id → RouteRow Id → Prop) where
  total a b := by
    unfold RouteRow.Le
    omega

instance : IsTrans (RouteRow Id) RouteRow.Le where
  trans a b c hab hbc := by
    unfold RouteRow.Le at *
    omega

/-- The first of some sorted rows costs no more than any of them. -/
theorem head?_insertionSort {rs : List (RouteRow Id)} {r : RouteRow Id} (h : r ∈ rs) :
    ∃ best, (rs.insertionSort RouteRow.Le).head? = some best ∧ best.cost ≤ r.cost := by
  have hmem : r ∈ rs.insertionSort RouteRow.Le := (List.perm_insertionSort _ rs).mem_iff.2 h
  have hsorted : (rs.insertionSort RouteRow.Le).Pairwise RouteRow.Le :=
    List.pairwise_insertionSort RouteRow.Le rs
  cases hs : rs.insertionSort RouteRow.Le with
  | nil =>
      rw [hs] at hmem
      cases hmem
  | cons best rest =>
      rw [hs] at hmem hsorted
      refine ⟨best, rfl, ?_⟩
      rcases List.mem_cons.1 hmem with rfl | hmem
      · exact le_rfl
      · exact (List.rel_of_pairwise_cons hsorted hmem).cost_le

/-- The greatest cost that is entered. -/
def maxCost : ℤ := 64

namespace RoutingTable

/-- A table without rows. -/
def new (myId : Id) (maxRoutes : ℕ) : RoutingTable Id := ⟨myId, maxRoutes, ∅⟩

variable [LinearOrder Id] (t : RoutingTable Id)

/-- Replaces the first row through the same neighbour, or adds one at the end. -/
def putRow (row : RouteRow Id) : List (RouteRow Id) → List (RouteRow Id)
  | [] => [row]
  | r :: rs => if r.nextHop = row.nextHop then row :: rs else r :: putRow row rs

/-- The rows for a destination. -/
def rows (dest : Id) : List (RouteRow Id) := (t.table.get? dest).getD []

def addRoute (dest nextHop : Id) (cost version : ℤ) (now : ℚ) : RoutingTable Id :=
  if dest = t.myId then t
  else if cost < 1 ∨ cost > maxCost then t
  else
    let routes := (putRow ⟨nextHop, cost, now, version⟩ (t.rows dest)).insertionSort RouteRow.Le
    { t with table := t.table.set dest (routes.take t.maxRoutes) }

/-- Keeps the rows that `p` holds of, and drops destinations without rows. -/
def keepRows (p : RouteRow Id → Bool) : RoutingTable Id :=
  { t with
    table := t.table.keys.foldl (fun table dest =>
      let kept := ((table.get? dest).getD []).filter p
      if kept = [] then table.erase dest else table.set dest (kept.take t.maxRoutes)) t.table }

def removeRoutesVia (nextHop : Id) : RoutingTable Id := t.keepRows (·.nextHop ≠ nextHop)

def cleanupStale (now maxAge : ℚ) : RoutingTable Id := t.keepRows (now - ·.ts < maxAge)

def getBest (dest : Id) : Option (RouteRow Id) := (t.rows dest).head?

def getNextHops (dest : Id) (k : ℕ) : List Id := ((t.rows dest).take k).map (·.nextHop)

/-- The order of the destinations. -/
def ByDest (a b : Id × List (RouteRow Id)) : Prop := a.1 ≤ b.1

instance : DecidableRel (ByDest : Id × List (RouteRow Id) → Id × List (RouteRow Id) → Prop) :=
  fun a b => inferInstanceAs (Decidable (a.1 ≤ b.1))

/-- The best row for each destination, at most for `maxDestinations` of them. -/
def advertise (maxDestinations : Option ℕ) : List (Advertised Id) :=
  let items := t.table.entries
  let items :=
    match maxDestinations with
    | some m => if items.length > m then (items.insertionSort ByDest).take m else items
    | none => items
  items.filterMap fun (item : Id × List (RouteRow Id)) =>
    item.2.head?.map fun row => ⟨item.1, row.cost, row.version⟩

variable {t}

/-! ### Rows -/

theorem mem_putRow {row r : RouteRow Id} {rs : List (RouteRow Id)} (h : r ∈ putRow row rs) :
    r = row ∨ r ∈ rs := by
  induction rs with
  | nil => exact Or.inl (List.mem_singleton.1 h)
  | cons r' rs ih =>
      rw [putRow] at h
      split at h
      · exact (List.mem_cons.1 h).imp_right (List.mem_cons_of_mem r')
      · rcases List.mem_cons.1 h with rfl | h
        · exact Or.inr List.mem_cons_self
        · exact (ih h).imp_right (List.mem_cons_of_mem r')

theorem self_mem_putRow (row : RouteRow Id) (rs : List (RouteRow Id)) : row ∈ putRow row rs := by
  induction rs with
  | nil => exact List.mem_singleton_self row
  | cons r rs ih =>
      rw [putRow]
      split
      · exact List.mem_cons_self
      · exact List.mem_cons_of_mem r ih

/-- A row stays, or it is one that is replaced. -/
theorem mem_putRow_or {row r : RouteRow Id} {rs : List (RouteRow Id)} (h : r ∈ rs) :
    r ∈ putRow row rs ∨ r.nextHop = row.nextHop := by
  induction rs with
  | nil => cases h
  | cons r' rs ih =>
      rw [putRow]
      split
      · next heq =>
          rcases List.mem_cons.1 h with rfl | h
          · exact Or.inr heq
          · exact Or.inl (List.mem_cons_of_mem row h)
      · rcases List.mem_cons.1 h with rfl | h
        · exact Or.inl List.mem_cons_self
        · exact (ih h).imp_left (List.mem_cons_of_mem r')

/-! ### Entering a row -/

variable {dest nextHop : Id} {cost version : ℤ} {now : ℚ}

theorem addRoute_eq_or (t : RoutingTable Id) (dest nextHop : Id) (cost version : ℤ) (now : ℚ) :
    t.addRoute dest nextHop cost version now = t ∨
      dest ≠ t.myId ∧ 1 ≤ cost ∧ t.addRoute dest nextHop cost version now = { t with
        table := t.table.set dest (((putRow ⟨nextHop, cost, now, version⟩
          (t.rows dest)).insertionSort RouteRow.Le).take t.maxRoutes) } := by
  unfold addRoute
  split
  · exact Or.inl rfl
  · next hne =>
      split
      · exact Or.inl rfl
      · next hcost => exact Or.inr ⟨hne, by omega, rfl⟩

@[simp] theorem addRoute_myId (t : RoutingTable Id) :
    (t.addRoute dest nextHop cost version now).myId = t.myId := by
  rcases addRoute_eq_or t dest nextHop cost version now with heq | ⟨-, -, heq⟩ <;> rw [heq]

@[simp] theorem addRoute_maxRoutes (t : RoutingTable Id) :
    (t.addRoute dest nextHop cost version now).maxRoutes = t.maxRoutes := by
  rcases addRoute_eq_or t dest nextHop cost version now with heq | ⟨-, -, heq⟩ <;> rw [heq]

theorem rows_set (t : RoutingTable Id) (dest dest' : Id) (rs : List (RouteRow Id)) :
    ({ t with table := t.table.set dest rs } : RoutingTable Id).rows dest' =
      if dest' = dest then rs else t.rows dest' := by
  unfold rows
  dsimp only
  rw [OrderedMap.get?_set]
  split <;> rfl

/-- **The rows after a row has been entered** are old ones, or the new one. -/
theorem mem_rows_addRoute {dest' : Id} {r : RouteRow Id}
    (h : r ∈ (t.addRoute dest nextHop cost version now).rows dest') :
    r ∈ t.rows dest' ∨ dest' = dest ∧ dest ≠ t.myId ∧ 1 ≤ cost ∧
      r = ⟨nextHop, cost, now, version⟩ := by
  rcases addRoute_eq_or t dest nextHop cost version now with heq | ⟨hne, hcost, heq⟩
  · rw [heq] at h
    exact Or.inl h
  · rw [heq, rows_set] at h
    split at h
    · next hd =>
        subst hd
        have hmem := (List.perm_insertionSort _ _).mem_iff.1 (List.mem_of_mem_take h)
        rcases mem_putRow hmem with hr | hr
        · exact Or.inr ⟨rfl, hne, hcost, hr⟩
        · exact Or.inl hr
    · exact Or.inl h

theorem head?_take {α : Type*} {l : List α} {k : ℕ} (h : 0 < k) : (l.take k).head? = l.head? := by
  cases l with
  | nil => rw [List.take_nil]
  | cons a l =>
      obtain ⟨k, rfl⟩ := Nat.exists_eq_succ_of_ne_zero h.ne'
      rfl

/-- **The best row costs no more than the one that was the best**, if the row that is entered costs
no more than the one it replaces. -/
theorem getBest_addRoute (hmax : 0 < t.maxRoutes) {dest' : Id} {r : RouteRow Id}
    (h : t.getBest dest' = some r) (hcheap : dest' = dest → r.nextHop = nextHop → cost ≤ r.cost) :
    ∃ best, (t.addRoute dest nextHop cost version now).getBest dest' = some best ∧
      best.cost ≤ r.cost := by
  rcases addRoute_eq_or t dest nextHop cost version now with heq | ⟨-, -, heq⟩
  · rw [heq]
    exact ⟨r, h, le_rfl⟩
  · rw [heq, getBest, rows_set]
    split
    · next hd =>
        subst hd
        rw [head?_take hmax]
        have hr : r ∈ t.rows dest' := List.mem_of_head? h
        rcases @mem_putRow_or Id _ ⟨nextHop, cost, now, version⟩ _ _ hr with hmem | hsame
        · exact head?_insertionSort hmem
        · obtain ⟨best, hbest, hle⟩ := head?_insertionSort
            (self_mem_putRow ⟨nextHop, cost, now, version⟩ (t.rows dest'))
          exact ⟨best, hbest, hle.trans (hcheap rfl hsame)⟩
    · exact ⟨r, h, le_rfl⟩

/-- **The best row costs no more than the row that is entered.** -/
theorem getBest_addRoute_self (hmax : 0 < t.maxRoutes) (hne : dest ≠ t.myId) (hlow : 1 ≤ cost)
    (hhigh : cost ≤ maxCost) (nextHop : Id) (version : ℤ) (now : ℚ) :
    ∃ best, (t.addRoute dest nextHop cost version now).getBest dest = some best ∧
      best.cost ≤ cost := by
  have hadd : t.addRoute dest nextHop cost version now = { t with
      table := t.table.set dest (((putRow ⟨nextHop, cost, now, version⟩
        (t.rows dest)).insertionSort RouteRow.Le).take t.maxRoutes) } := by
    unfold addRoute
    rw [if_neg hne, if_neg (by omega)]
  rw [hadd, getBest, rows_set, if_pos rfl, head?_take hmax]
  exact head?_insertionSort (self_mem_putRow ⟨nextHop, cost, now, version⟩ (t.rows dest))

theorem keys_addRoute {k : Id}
    (h : k ∈ (t.addRoute dest nextHop cost version now).table.keys) :
    k ∈ t.table.keys ∨ k = dest := by
  rcases addRoute_eq_or t dest nextHop cost version now with heq | ⟨-, -, heq⟩
  · rw [heq] at h
    exact Or.inl h
  · rw [heq] at h
    exact (OrderedMap.mem_keys_setList.1 h).symm

/-! ### Taking rows out -/

/-- **What is left when rows are taken out.** -/
theorem rows_keepRows (t : RoutingTable Id) (p : RouteRow Id → Bool) (dest : Id) :
    (t.keepRows p).rows dest = ((t.rows dest).filter p).take t.maxRoutes := by
  have hfold : ∀ (ks : List Id) (table : OrderedMap Id (List (RouteRow Id))), ks.Nodup →
      ((ks.foldl (fun table dest =>
        let kept := ((table.get? dest).getD []).filter p
        if kept = [] then table.erase dest else table.set dest (kept.take t.maxRoutes))
        table).get? dest).getD [] =
      if dest ∈ ks then (((table.get? dest).getD []).filter p).take t.maxRoutes
      else (table.get? dest).getD [] := by
    intro ks
    induction ks with
    | nil => exact fun _ _ => (if_neg List.not_mem_nil).symm
    | cons k ks ih =>
        intro table hks
        obtain ⟨hk, hks⟩ := List.nodup_cons.1 hks
        rw [List.foldl_cons, ih _ hks]
        by_cases hd : dest = k
        · subst hd
          rw [if_neg hk, if_pos List.mem_cons_self]
          dsimp only
          split
          · next hnone =>
              rw [OrderedMap.get?_erase, if_pos rfl, hnone]
              exact List.take_nil.symm
          · rw [OrderedMap.get?_set_self]
            rfl
        · have hsame : ∀ rs : List (RouteRow Id), (if rs = [] then table.erase k
              else table.set k (rs.take t.maxRoutes)).get? dest = table.get? dest := by
            intro rs
            split
            · rw [OrderedMap.get?_erase, if_neg hd]
            · rw [OrderedMap.get?_set, if_neg hd]
          rw [hsame]
          simp only [List.mem_cons, hd, false_or]
  refine (hfold t.table.keys t.table t.table.nodup).trans ?_
  split
  · rfl
  · next hnot =>
      have hnone : t.table.get? dest = none := OrderedMap.getList_eq_none_iff.2 hnot
      simp [rows, hnone]

theorem keys_keepRows {p : RouteRow Id → Bool} {k : Id} (h : k ∈ (t.keepRows p).table.keys) :
    k ∈ t.table.keys := by
  refine List.foldlRecOn (motive := fun table : OrderedMap Id (List (RouteRow Id)) =>
    k ∈ table.keys → k ∈ t.table.keys) t.table.keys _ id (fun table ih dest hdest => ?_) h
  dsimp only
  split
  · exact fun hk => ih ((List.filter_sublist.map Prod.fst).subset hk)
  · intro hk
    rcases OrderedMap.mem_keys_setList.1 hk with rfl | hk
    · exact hdest
    · exact ih hk

/-! ### Advertisements -/

/-- **What is advertised are the best rows**, if there are not too many destinations. -/
theorem mem_advertise {m : ℕ} (h : t.table.keys.length ≤ m) {a : Advertised Id} :
    a ∈ t.advertise (some m) ↔
      ∃ row, t.getBest a.dest = some row ∧ a = ⟨a.dest, row.cost, row.version⟩ := by
  have hlen : ¬ t.table.entries.length > m := by
    rw [OrderedMap.keys, List.length_map] at h
    omega
  unfold advertise
  dsimp only
  rw [if_neg hlen]
  simp only [List.mem_filterMap, Option.map_eq_some_iff, Prod.exists]
  constructor
  · rintro ⟨dest, rs, hmem, row, hrow, rfl⟩
    have hget := OrderedMap.mem_entries_iff.1 hmem
    exact ⟨row, by rw [getBest, rows, hget]; exact hrow, rfl⟩
  · rintro ⟨row, hrow, ha⟩
    cases hget : t.table.get? a.dest with
    | none => simp [getBest, rows, hget] at hrow
    | some rs =>
        refine ⟨a.dest, rs, OrderedMap.mem_entries_iff.2 hget, row, ?_, ha.symm⟩
        simpa [getBest, rows, hget] using hrow

end RoutingTable

end Routing
