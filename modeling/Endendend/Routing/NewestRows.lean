/-
**Which advertisement a row is from** (`swarm/routing.py`, `swarm/vertex_node.py`).

A table has few rows for each destination, one for each neighbour, in their order.  An update of a
neighbour replaces its rows whether or not a newer one has come before, and a cost out of range is
passed over, so that the row that it should take away stays.  If the updates of a neighbour come in
their order and no cost out of range meets a row, the rows are those of the newest advertisements.

Main definitions:

* `Routing.RoutingTable.WellFormed` — few rows, distinct neighbours, in order;
* `Routing.SentUpdates` — the updates that each node has sent, by their numbers;
* `Routing.UpdateOp`, `Routing.Routed` — deliveries in any order, and what was delivered so far;
* `Routing.NewestRows` — the rows are those of the newest advertisements;
* `Routing.InOrder` — a delivery that is not overtaken.

Main results:

* `Routing.RoutingTable.wellFormed_of_run` — **a table is always well formed**;
* `Routing.FromNewest.step` — deliveries that are not overtaken keep the rows new;
* `Routing.rows_hold_newest` — **the rows are the newest advertisements, if no delivery is
  overtaken**;
* `Routing.overtaken_update_stays` — an older update that comes later.
-/
import Endendend.Foundation.Runs
import Endendend.Routing.VertexNode

set_option relaxedAutoImplicit false
set_option autoImplicit false

namespace Routing

open Js (OrderedMap)

variable {Id : Type*} [LinearOrder Id]

namespace RoutingTable

/-! ### Well-formed tables -/

/-- For each destination there are at most `maxRoutes` rows, through distinct neighbours, by cost
and the newest version first. -/
structure WellFormed (t : RoutingTable Id) : Prop where
  few : ∀ dest, (t.rows dest).length ≤ t.maxRoutes
  distinct : ∀ dest, ((t.rows dest).map (·.nextHop)).Nodup
  sorted : ∀ dest, (t.rows dest).Pairwise RouteRow.Le

/-- The neighbours after a row has been put. -/
theorem nextHop_putRow (row : RouteRow Id) (rs : List (RouteRow Id)) :
    (putRow row rs).map (·.nextHop) = Js.setAdd (rs.map (·.nextHop)) row.nextHop := by
  unfold Js.setAdd
  induction rs with
  | nil => simp [putRow]
  | cons r rs ih =>
      rw [putRow]
      by_cases h : r.nextHop = row.nextHop
      · simp [h]
      · rw [if_neg h, List.map_cons, ih, List.map_cons]
        by_cases hmem : row.nextHop ∈ rs.map (·.nextHop)
        · rw [if_pos hmem, if_pos (List.mem_cons_of_mem _ hmem)]
        · rw [if_neg hmem, if_neg fun hcons => (List.mem_cons.1 hcons).elim (h ·.symm) hmem]
          rfl

theorem wellFormed_new (myId : Id) (maxRoutes : ℕ) : (new myId maxRoutes).WellFormed where
  few _ := Nat.zero_le _
  distinct _ := List.nodup_nil
  sorted _ := List.Pairwise.nil

variable {t : RoutingTable Id}

theorem WellFormed.addRoute (h : t.WellFormed) (dest nextHop : Id) (cost version : ℤ) (now : ℚ) :
    (t.addRoute dest nextHop cost version now).WellFormed := by
  rcases addRoute_eq_or t dest nextHop cost version now with heq | ⟨-, -, heq⟩
  · rwa [heq]
  · rw [heq]
    refine ⟨fun d => ?_, fun d => ?_, fun d => ?_⟩
    · rw [rows_set]
      split
      · exact List.length_take_le _ _
      · exact h.few d
    · rw [rows_set]
      split
      · have hput := Js.nodup_setAdd (x := nextHop) (h.distinct dest)
        rw [← nextHop_putRow ⟨nextHop, cost, now, version⟩] at hput
        have hsort := (List.perm_insertionSort RouteRow.Le
          (putRow ⟨nextHop, cost, now, version⟩ (t.rows dest))).map (·.nextHop)
        exact (hsort.nodup_iff.2 hput).sublist ((List.take_sublist _ _).map _)
      · exact h.distinct d
    · rw [rows_set]
      split
      · exact (List.pairwise_insertionSort RouteRow.Le _).sublist (List.take_sublist _ _)
      · exact h.sorted d

theorem WellFormed.keepRows (h : t.WellFormed) (p : RouteRow Id → Bool) :
    (t.keepRows p).WellFormed := by
  have hsub : ∀ d, ((t.keepRows p).rows d).Sublist (t.rows d) := fun d => by
    rw [rows_keepRows]
    exact (List.take_sublist _ _).trans List.filter_sublist
  refine ⟨fun d => ?_, fun d => (h.distinct d).sublist ((hsub d).map _),
    fun d => (h.sorted d).sublist (hsub d)⟩
  rw [rows_keepRows]
  exact List.length_take_le _ _

/-- The operations that write a table. -/
inductive Op (Id : Type*)
  | addRoute (dest nextHop : Id) (cost version : ℤ) (now : ℚ)
  | removeRoutesVia (nextHop : Id)
  | cleanupStale (now maxAge : ℚ)

/-- One operation; all of them are always possible. -/
def Op.apply (t : RoutingTable Id) : Op Id → Option (RoutingTable Id)
  | .addRoute dest nextHop cost version now => some (t.addRoute dest nextHop cost version now)
  | .removeRoutesVia nextHop => some (t.removeRoutesVia nextHop)
  | .cleanupStale now maxAge => some (t.cleanupStale now maxAge)

theorem WellFormed.step {t' : RoutingTable Id} {op : Op Id} (h : t.WellFormed)
    (hstep : op.apply t = some t') : t'.WellFormed := by
  cases op with
  | addRoute dest nextHop cost version now =>
      obtain rfl := Option.some.inj hstep
      exact h.addRoute dest nextHop cost version now
  | removeRoutesVia nextHop =>
      obtain rfl := Option.some.inj hstep
      exact h.keepRows _
  | cleanupStale now maxAge =>
      obtain rfl := Option.some.inj hstep
      exact h.keepRows _

/-- **A table is always well formed.** -/
theorem wellFormed_of_run {myId : Id} {maxRoutes : ℕ} {ops : List (Op Id)}
    (h : Runs.run Op.apply (new myId maxRoutes) ops = some t) : t.WellFormed :=
  Runs.invariant_of_run (fun _ _ _ h hstep => h.step hstep) (wellFormed_new myId maxRoutes) h

/-! ### Rows after an update -/

/-- A cost that is entered. -/
def InRange (cost : ℤ) : Prop := 1 ≤ cost ∧ cost ≤ maxCost

instance (cost : ℤ) : Decidable (InRange cost) := inferInstanceAs (Decidable (_ ∧ _))

/-- A row is an old one that was not replaced, or the one that has been entered. -/
theorem WellFormed.mem_rows_addRoute (h : t.WellFormed) {dest nextHop d : Id} {cost version : ℤ}
    {now : ℚ} {r : RouteRow Id}
    (hr : r ∈ (t.addRoute dest nextHop cost version now).rows d) :
    r ∈ t.rows d ∧ (d = dest → r.nextHop = nextHop → d = t.myId ∨ ¬ InRange cost) ∨
      d = dest ∧ InRange cost ∧ r = ⟨nextHop, cost, now, version⟩ := by
  unfold RoutingTable.addRoute at hr
  split at hr
  · next hself => exact Or.inl ⟨hr, fun hd _ => Or.inl (hd.trans hself)⟩
  · split at hr
    · next hout =>
        refine Or.inl ⟨hr, fun _ _ => Or.inr fun hin => ?_⟩
        unfold InRange at hin
        omega
    · next hin =>
        rw [rows_set] at hr
        split at hr
        · next hd =>
            subst hd
            have hput := (List.perm_insertionSort _ _).mem_iff.1 (List.mem_of_mem_take hr)
            rcases mem_putRow hput with rfl | hold
            · exact Or.inr ⟨rfl, by unfold InRange; omega, rfl⟩
            · by_cases hvia : r.nextHop = nextHop
              · -- the new row is the only one through its neighbour
                refine Or.inr ⟨rfl, by unfold InRange; omega, ?_⟩
                have hnodup := Js.nodup_setAdd (x := nextHop) (h.distinct d)
                rw [← nextHop_putRow ⟨nextHop, cost, now, version⟩] at hnodup
                exact List.inj_on_of_nodup_map hnodup hput (self_mem_putRow _ _) hvia
              · exact Or.inl ⟨hold, fun _ h => absurd h hvia⟩
        · next hd => exact Or.inl ⟨hr, fun h => absurd h hd⟩

/-- The routes of an update of a neighbour are entered. -/
def addRoutes (t : RoutingTable Id) (sender : Id) (routes : List (Advertised Id)) (packetSeq : ℤ)
    (now : Id → ℚ) : RoutingTable Id :=
  routes.foldl (fun r item =>
    r.addRoute item.dest sender (item.cost + 1) packetSeq (now item.dest)) t

theorem WellFormed.addRoutes (h : t.WellFormed) (sender : Id) (routes : List (Advertised Id))
    (packetSeq : ℤ) (now : Id → ℚ) : (t.addRoutes sender routes packetSeq now).WellFormed := by
  unfold RoutingTable.addRoutes
  induction routes generalizing t with
  | nil => exact h
  | cons item routes ih => exact ih (h.addRoute _ _ _ _ _)

/-- **A row after an update** is an old one that the update does not replace, or one of the
update. -/
theorem WellFormed.mem_rows_addRoutes (h : t.WellFormed) {sender d : Id}
    {routes : List (Advertised Id)} {packetSeq : ℤ} {now : Id → ℚ} {r : RouteRow Id}
    (hr : r ∈ (t.addRoutes sender routes packetSeq now).rows d) :
    r ∈ t.rows d ∧ (r.nextHop = sender → ∀ item ∈ routes, item.dest = d →
        d = t.myId ∨ ¬ InRange (item.cost + 1)) ∨
      ∃ item ∈ routes, item.dest = d ∧ InRange (item.cost + 1) ∧
        r = ⟨sender, item.cost + 1, now d, packetSeq⟩ := by
  unfold RoutingTable.addRoutes at hr
  induction routes generalizing t with
  | nil => exact Or.inl ⟨hr, fun _ _ hmem => absurd hmem List.not_mem_nil⟩
  | cons item routes ih =>
      rcases ih (h.addRoute _ _ _ _ _) hr with ⟨hold, hkept⟩ | ⟨item', hmem, hnew⟩
      · rcases h.mem_rows_addRoute hold with ⟨hbefore, hkept'⟩ | ⟨rfl, hin, rfl⟩
        · refine Or.inl ⟨hbefore, fun hvia item' hmem hdest => ?_⟩
          rcases List.mem_cons.1 hmem with rfl | hmem
          · exact hkept' hdest.symm hvia
          · simpa only [addRoute_myId] using hkept hvia item' hmem hdest
        · exact Or.inr ⟨item, List.mem_cons_self, rfl, hin, rfl⟩
      · exact Or.inr ⟨item', List.mem_cons_of_mem _ hmem, hnew⟩

/-- A table has no rows for its own node. -/
def NoneForSelf (t : RoutingTable Id) : Prop := t.rows t.myId = []

theorem NoneForSelf.addRoutes (h : t.NoneForSelf) (sender : Id) (routes : List (Advertised Id))
    (packetSeq : ℤ) (now : Id → ℚ) : (t.addRoutes sender routes packetSeq now).NoneForSelf := by
  unfold RoutingTable.addRoutes
  induction routes generalizing t with
  | nil => exact h
  | cons item routes ih =>
      refine ih (List.eq_nil_iff_forall_not_mem.2 fun r hr => ?_)
      rw [addRoute_myId] at hr
      rcases RoutingTable.mem_rows_addRoute hr with hold | ⟨hself, hne, -⟩
      · rw [h] at hold
        exact absurd hold List.not_mem_nil
      · exact hne hself.symm

theorem NoneForSelf.keepRows (h : t.NoneForSelf) (p : RouteRow Id → Bool) :
    (t.keepRows p).NoneForSelf := by
  have hrows := rows_keepRows t p t.myId
  rw [h, List.filter_nil, List.take_nil] at hrows
  exact hrows

theorem mem_rows_of_keepRows {p : RouteRow Id → Bool} {d : Id} {r : RouteRow Id}
    (hr : r ∈ (t.keepRows p).rows d) : r ∈ t.rows d := by
  rw [rows_keepRows] at hr
  exact (List.mem_filter.1 (List.mem_of_mem_take hr)).1

end RoutingTable

/-! ### Deliveries -/

open RoutingTable (InRange)

/-- The updates that each node has sent, by their numbers; an update has one row for each
destination. -/
structure SentUpdates (Id : Type*) where
  routes : Id → ℤ → List (Advertised Id)
  distinct : ∀ sender seq, ((routes sender seq).map (·.dest)).Nodup

/-- What happens at a node: an update of a neighbour is delivered, maybe late or again, a neighbour
is gone, or stale rows are dropped. -/
inductive UpdateOp (Id : Type*)
  | handleRoutingUpdate (sender : Id) (packetSeq : ℤ) (now : Id → ℚ)
  | removeRoutesVia (nextHop : Id)
  | cleanupStale (now maxAge : ℚ)

/-- A node, and the updates that it was delivered. -/
structure Routed (Id : Type*) where
  node : VertexNode Id
  delivered : List (Id × ℤ)

/-- A node with an empty table. -/
def Routed.new (nodeId : Id) (maxRoutes : ℕ) : Routed Id :=
  ⟨{ VertexNode.new nodeId with routing := .new nodeId maxRoutes }, []⟩

variable (sent : SentUpdates Id)

/-- One step; all of them are always possible. -/
def UpdateOp.apply (s : Routed Id) : UpdateOp Id → Option (Routed Id)
  | .handleRoutingUpdate sender packetSeq now =>
    some ⟨s.node.handleRoutingUpdate sender (sent.routes sender packetSeq) packetSeq now,
      (sender, packetSeq) :: s.delivered⟩
  | .removeRoutesVia nextHop =>
    some { s with node := { s.node with routing := s.node.routing.removeRoutesVia nextHop } }
  | .cleanupStale now maxAge =>
    some { s with node := { s.node with routing := s.node.routing.cleanupStale now maxAge } }

/-- An update of a neighbour mentions a destination at a cost. -/
def Mentions (sender : Id) (seq : ℤ) (dest : Id) (cost : ℤ) : Prop :=
  ∃ item ∈ sent.routes sender seq, item.dest = dest ∧ item.cost = cost

/-- Of the delivered updates of a neighbour that mention a destination, the one with the highest
number, and the cost there. -/
def NewestMention (s : Routed Id) (sender dest : Id) (seq cost : ℤ) : Prop :=
  ((sender, seq) ∈ s.delivered ∧ Mentions sent sender seq dest cost) ∧
    ∀ seq' cost', (sender, seq') ∈ s.delivered → Mentions sent sender seq' dest cost' →
      seq' ≤ seq

/-- **The rows are the newest advertisements**: a row carries the cost in the newest update that
mentions its destination and one for the link, and there is none if that is too much. -/
structure NewestRows (s : Routed Id) : Prop where
  newest : ∀ dest, ∀ r ∈ s.node.routing.rows dest, ∃ seq cost,
    NewestMention sent s r.nextHop dest seq cost ∧ r.cost = cost + 1
  unreachable : ∀ sender dest seq cost, NewestMention sent s sender dest seq cost →
    64 < cost + 1 → ∀ r ∈ s.node.routing.rows dest, r.nextHop ≠ sender

/-- A delivery is not overtaken: no update that was delivered before and mentions one of its
destinations has a higher number; and if its cost is out of range, there is no row through its
sender, unless a newer update has mentioned the destination. -/
def InOrder (s : Routed Id) : UpdateOp Id → Prop
  | .handleRoutingUpdate sender packetSeq _ =>
    ∀ item ∈ sent.routes sender packetSeq,
      let newer := ∃ seq cost, (sender, seq) ∈ s.delivered ∧ packetSeq < seq ∧
        Mentions sent sender seq item.dest cost
      if InRange (item.cost + 1) then ¬ newer
      else newer ∨ ∀ r ∈ s.node.routing.rows item.dest, r.nextHop ≠ sender
  | .removeRoutesVia .. | .cleanupStale .. => True

/-- **The invariant**: the rows are in range and from the newest mentions. -/
structure FromNewest (s : Routed Id) : Prop where
  wellFormed : s.node.routing.WellFormed
  noneForSelf : s.node.routing.NoneForSelf
  newest : ∀ dest, ∀ r ∈ s.node.routing.rows dest, ∃ seq cost,
    NewestMention sent s r.nextHop dest seq cost ∧ r.cost = cost + 1 ∧ InRange r.cost

variable {sent}

omit [LinearOrder Id] in
theorem Mentions.cost_eq {sender dest : Id} {seq cost cost' : ℤ}
    (h : Mentions sent sender seq dest cost) (h' : Mentions sent sender seq dest cost') :
    cost = cost' := by
  obtain ⟨item, hmem, hdest, rfl⟩ := h
  obtain ⟨item', hmem', hdest', rfl⟩ := h'
  rw [List.inj_on_of_nodup_map (sent.distinct sender seq) hmem hmem' (hdest.trans hdest'.symm)]

omit [LinearOrder Id] in
theorem NewestMention.unique {s : Routed Id} {sender dest : Id} {seq seq' cost cost' : ℤ}
    (h : NewestMention sent s sender dest seq cost)
    (h' : NewestMention sent s sender dest seq' cost') : cost = cost' := by
  obtain rfl := le_antisymm (h'.2 seq cost h.1.1 h.1.2) (h.2 seq' cost' h'.1.1 h'.1.2)
  exact Mentions.cost_eq h.1.2 h'.1.2

theorem FromNewest.newestRows {s : Routed Id} (h : FromNewest sent s) : NewestRows sent s where
  newest dest r hr := by
    obtain ⟨seq, cost, hnewest, hcost, -⟩ := h.newest dest r hr
    exact ⟨seq, cost, hnewest, hcost⟩
  unreachable sender dest seq cost hnewest hlarge r hr hvia := by
    subst hvia
    obtain ⟨seq', cost', hnewest', hcost, hin⟩ := h.newest dest r hr
    have hle : r.cost ≤ 64 := hin.2
    have := hnewest.unique hnewest'
    omega

theorem fromNewest_new (nodeId : Id) (maxRoutes : ℕ) :
    FromNewest sent (.new nodeId maxRoutes) where
  wellFormed := RoutingTable.wellFormed_new nodeId maxRoutes
  noneForSelf := rfl
  newest _ _ hr := absurd hr List.not_mem_nil

/-- Taking rows out leaves the rest new. -/
theorem FromNewest.keepRows {s : Routed Id} (h : FromNewest sent s) (p : RouteRow Id → Bool) :
    FromNewest sent
      { s with node := { s.node with routing := s.node.routing.keepRows p } } where
  wellFormed := h.wellFormed.keepRows p
  noneForSelf := h.noneForSelf.keepRows p
  newest dest r hr := h.newest dest r (RoutingTable.mem_rows_of_keepRows hr)

/-- **A delivery that is not overtaken keeps the rows new.** -/
theorem FromNewest.deliver {s s' : Routed Id} (h : FromNewest sent s) {sender : Id}
    {packetSeq : ℤ} {now : Id → ℚ}
    (horder : InOrder sent s (.handleRoutingUpdate sender packetSeq now))
    (hstep : (UpdateOp.handleRoutingUpdate sender packetSeq now).apply sent s = some s') :
    FromNewest sent s' := by
  obtain rfl := Option.some.inj hstep
  have hwellFormed := h.wellFormed.addRoutes sender (sent.routes sender packetSeq) packetSeq now
  have hself := h.noneForSelf.addRoutes sender (sent.routes sender packetSeq) packetSeq now
  refine ⟨hwellFormed, hself, fun dest r hr => ?_⟩
  rcases h.wellFormed.mem_rows_addRoutes hr with ⟨hold, hkept⟩ | ⟨item, hmem, rfl, hin, rfl⟩
  · -- the row was there before: the update does not mention its destination in range
    obtain ⟨seq, cost, ⟨⟨hdelivered, hmention⟩, hhighest⟩, hcost, hrange⟩ :=
      h.newest dest r hold
    refine ⟨seq, cost, ⟨⟨List.mem_cons_of_mem _ hdelivered, hmention⟩, ?_⟩, hcost, hrange⟩
    intro seq' cost' hdelivered' hmention'
    rcases List.mem_cons.1 hdelivered' with hnew | hbefore
    · obtain ⟨hvia, rfl⟩ := Prod.mk.inj hnew
      obtain ⟨item, hmem, rfl, -⟩ := hmention'
      rcases hkept hvia item (hvia ▸ hmem) rfl with hmine | hout
      · have hnone := h.noneForSelf
        rw [RoutingTable.NoneForSelf, ← hmine] at hnone
        exact absurd (hnone ▸ hold) List.not_mem_nil
      · have hitem := horder item (hvia ▸ hmem)
        simp only [if_neg hout] at hitem
        rcases hitem with ⟨seq₁, cost₁, hdelivered₁, hlt, hmention₁⟩ | hnone
        · exact hlt.le.trans (hhighest seq₁ cost₁ (hvia ▸ hdelivered₁) (hvia ▸ hmention₁))
        · exact absurd hvia (hnone r hold)
    · exact hhighest seq' cost' hbefore hmention'
  · -- the row is one of the update
    refine ⟨packetSeq, item.cost, ⟨⟨List.mem_cons_self, item, hmem, rfl, rfl⟩, ?_⟩, rfl, hin⟩
    intro seq' cost' hdelivered' hmention'
    have hitem := horder item hmem
    simp only [if_pos hin] at hitem
    rcases List.mem_cons.1 hdelivered' with hnew | hbefore
    · exact (Prod.mk.inj hnew).2.le
    · exact not_lt.1 fun hlt => hitem ⟨seq', cost', hbefore, hlt, hmention'⟩

theorem FromNewest.step {s s' : Routed Id} {op : UpdateOp Id} (h : FromNewest sent s)
    (horder : InOrder sent s op) (hstep : op.apply sent s = some s') : FromNewest sent s' := by
  cases op with
  | handleRoutingUpdate sender packetSeq now => exact h.deliver horder hstep
  | removeRoutesVia nextHop =>
      obtain rfl := Option.some.inj hstep
      exact h.keepRows _
  | cleanupStale now maxAge =>
      obtain rfl := Option.some.inj hstep
      exact h.keepRows _

/-- **The rows are the newest advertisements, if no delivery is overtaken**, and a table never holds
too many rows, two rows through one neighbour, or rows out of order. -/
theorem rows_hold_newest (sent : SentUpdates Id) (nodeId : Id) (maxRoutes : ℕ) :
    (∀ ops t, Runs.run RoutingTable.Op.apply (.new nodeId maxRoutes) ops = some t →
      t.WellFormed) ∧
    ∀ ops s, Runs.run (UpdateOp.apply sent) (.new nodeId maxRoutes) ops = some s →
      Runs.Along (UpdateOp.apply sent) (InOrder sent) (.new nodeId maxRoutes) ops →
        NewestRows sent s := by
  refine ⟨fun ops t hrun => RoutingTable.wellFormed_of_run hrun, fun ops s hrun horder => ?_⟩
  have h : FromNewest sent s :=
    Runs.invariant_along (fun _ _ _ h horder hstep => h.step horder hstep)
      (fromNewest_new nodeId maxRoutes) horder hrun
  exact h.newestRows

/-- A delivery in the order of the numbers is not overtaken, if its costs are in range. -/
theorem inOrder_of_forall {s : Routed Id} {sender : Id} {packetSeq : ℤ} (now : Id → ℚ)
    (hseq : ∀ p ∈ s.delivered, p.2 ≤ packetSeq)
    (hin : ∀ item ∈ sent.routes sender packetSeq, InRange (item.cost + 1)) :
    InOrder sent s (.handleRoutingUpdate sender packetSeq now) := by
  intro item hmem
  simp only [if_pos (hin item hmem)]
  rintro ⟨seq, -, hdelivered, hlt, -⟩
  exact absurd (hseq _ hdelivered) (not_le.2 hlt)

/-! ### Two updates -/

/-- The updates of two neighbours for destination `9`: the first costs five, the second one. -/
def twoUpdates : SentUpdates ℕ where
  routes _ seq := if seq = 1 then [⟨9, 5, 0⟩] else if seq = 2 then [⟨9, 1, 0⟩] else []
  distinct _ seq := by
    split_ifs
    · exact List.nodup_singleton _
    · exact List.nodup_singleton _
    · exact List.nodup_nil

/-- The first update comes, then the second one, twice. -/
def inOrder : List (UpdateOp ℕ) :=
  [.handleRoutingUpdate 1 1 fun _ => 0, .handleRoutingUpdate 1 2 fun _ => 1,
    .handleRoutingUpdate 1 2 fun _ => 2]

/-- The second update overtakes the first one. -/
def overtaken : List (UpdateOp ℕ) :=
  [.handleRoutingUpdate 1 2 fun _ => 0, .handleRoutingUpdate 1 1 fun _ => 1]

theorem rows_hold_newest_inOrder :
    (∃ t, Runs.run RoutingTable.Op.apply (.new 0 3) [.addRoute 9 1 6 1 0, .addRoute 9 2 2 1 0] =
      some t ∧ t.WellFormed) ∧
    ∃ s, Runs.run (UpdateOp.apply twoUpdates) (.new 0 3) inOrder = some s ∧
      NewestRows twoUpdates s := by
  have h := rows_hold_newest twoUpdates 0 3
  constructor
  · exact ⟨_, rfl, h.1 [.addRoute 9 1 6 1 0, .addRoute 9 2 2 1 0] _ rfl⟩
  · refine ⟨_, rfl, h.2 inOrder _ rfl ⟨inOrder_of_forall _ (by decide) (by decide), ?_⟩⟩
    intro s hs
    obtain rfl := Option.some.inj hs
    refine ⟨inOrder_of_forall _ (by decide) (by decide), fun s hs => ?_⟩
    obtain rfl := Option.some.inj hs
    exact ⟨inOrder_of_forall _ (by decide) (by decide), fun _ _ => trivial⟩

/-- **An older update that comes later** takes the place of a newer one. -/
theorem overtaken_update_stays :
    ¬ ∀ ops s, Runs.run (UpdateOp.apply twoUpdates) (.new 0 3) ops = some s →
      NewestRows twoUpdates s := by
  intro h
  obtain ⟨seq, cost, ⟨⟨hdelivered, item, hitem, -, rfl⟩, hhighest⟩, hcost⟩ :=
    (h overtaken _ rfl).newest 9 ⟨1, 6, 1, 1⟩ (by decide +kernel)
  have hle : 2 ≤ seq := hhighest 2 1 (by decide) ⟨⟨9, 1, 0⟩, by decide, rfl, rfl⟩
  have hseq : seq = 1 ∨ seq = 2 := by simpa [Routed.new] using hdelivered
  obtain rfl : seq = 2 := by omega
  obtain rfl : item = ⟨9, 1, 0⟩ := by simpa [twoUpdates] using hitem
  exact absurd hcost (by decide)

end Routing
