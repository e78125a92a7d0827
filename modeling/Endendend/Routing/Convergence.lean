/-
**Convergence of the routing tables, and delivery along them.**

A row through a neighbour costs one more than the neighbour's best row cost when it was advertised.
Best rows never get dearer, so a row stays at least one dearer than its neighbour's best row; hence
no row is cheaper than the hop distance.  In every round the rows that cost the hop distance reach
one hop further.

Once the best rows cost the hop distance, each of them leads one hop closer to the destination.  A
message that follows them never goes back to where it has come from, and its hops suffice if there
are as many as the distance.

Main definitions:

* `Routing.CostLe` — a node has a row of at most some cost;
* `Routing.Consistent` — each row is backed by the best row of its neighbour;
* `Routing.Fresh`, `Routing.Advertises` — a tick drops no row, a tick sends an update.

Main results:

* `Routing.Consistent.addRoute` — entering a route that is backed keeps all rows backed;
* `Routing.tick_spec` — what a tick does;
* `Routing.dist_le_of_mem` — no row is cheaper than the hop distance;
* `Routing.converged_of_rounds` — **after `d` rounds the best rows within `d` hops cost the hop
  distance**;
* `Routing.handleForward_delivers` — a message on its way reaches its destination;
* `Routing.converges_and_delivers` — **after `d` rounds, routes within `d` hops are shortest ones,
  and a payload sent along them is delivered once.**
-/
import Endendend.Routing.VertexNode
import Endendend.Foundation.GraphSearch

set_option relaxedAutoImplicit false
set_option autoImplicit false

namespace Routing

open Runs RoutingTable

variable {Id : Type*} [LinearOrder Id] {T : Topology Id}

/-- The tables of all nodes. -/
def tablesOf (w : Mesh Id) (x : Id) : RoutingTable Id := (w x).routing

/-- The best row of a node for a destination costs at most `c`. -/
def CostLe (ρ : Id → RoutingTable Id) (x dest : Id) (c : ℤ) : Prop :=
  ∃ row, (ρ x).getBest dest = some row ∧ row.cost ≤ c

/-- A row through a neighbour is backed: the neighbour is the destination, or its best row is
cheaper. -/
def Backs (ρ : Id → RoutingTable Id) (dest nextHop : Id) (c : ℤ) : Prop :=
  nextHop = dest ∧ c = 1 ∨ nextHop ≠ dest ∧ CostLe ρ nextHop dest (c - 1)

/-- Each row goes through a neighbour and is backed by it. -/
structure Consistent (T : Topology Id) (ρ : Id → RoutingTable Id) : Prop where
  myId : ∀ x, (ρ x).myId = x
  maxRoutes : ∀ x, (ρ x).maxRoutes = 3
  backed : ∀ x dest, ∀ r ∈ (ρ x).rows dest,
    x ≠ dest ∧ 1 ≤ r.cost ∧ T.graph.Adj x r.nextHop ∧ Backs ρ dest r.nextHop r.cost
  registered : ∀ x, ∀ k ∈ (ρ x).table.keys, k ∈ T.ids

/-- No best row gets dearer. -/
def NoDearer (ρ ρ' : Id → RoutingTable Id) : Prop :=
  ∀ x dest c, CostLe ρ x dest c → CostLe ρ' x dest c

variable {ρ ρ' : Id → RoutingTable Id} {x dest nextHop : Id} {c : ℤ}

theorem CostLe.mono {c' : ℤ} (h : CostLe ρ x dest c) (hle : c ≤ c') : CostLe ρ x dest c' := by
  obtain ⟨row, hrow, hc⟩ := h
  exact ⟨row, hrow, hc.trans hle⟩

theorem Backs.mono (h : Backs ρ dest nextHop c) (hρ : NoDearer ρ ρ') : Backs ρ' dest nextHop c :=
  h.imp_right fun ⟨hne, hle⟩ => ⟨hne, hρ _ _ _ hle⟩

theorem NoDearer.refl (ρ : Id → RoutingTable Id) : NoDearer ρ ρ := fun _ _ _ h => h

theorem NoDearer.trans {ρ'' : Id → RoutingTable Id} (h : NoDearer ρ ρ') (h' : NoDearer ρ' ρ'') :
    NoDearer ρ ρ'' := fun x dest c hle => h' x dest c (h x dest c hle)

/-! ### One route -/

/-- A route that a node may enter: to a neighbour, or one dearer than the neighbour's best row. -/
def Offered (ρ : Id → RoutingTable Id) (dest nextHop : Id) (cost : ℤ) : Prop :=
  nextHop = dest ∧ cost = 1 ∨
    nextHop ≠ dest ∧ ∃ best, (ρ nextHop).getBest dest = some best ∧ best.cost + 1 = cost

theorem Offered.backs (h : Offered ρ dest nextHop c) : Backs ρ dest nextHop c := by
  refine h.imp_right fun ⟨hne, best, hbest, hc⟩ => ⟨hne, best, hbest, ?_⟩
  omega

/-- No row through the neighbour is cheaper. -/
theorem Offered.le {c' : ℤ} (h : Offered ρ dest nextHop c) (h' : Backs ρ dest nextHop c') :
    c ≤ c' := by
  rcases h with ⟨heq, hc⟩ | ⟨hne, best, hbest, hc⟩
  · rcases h' with ⟨-, hc'⟩ | ⟨hne, -⟩
    · omega
    · exact absurd heq hne
  · rcases h' with ⟨heq, -⟩ | ⟨-, row, hrow, hle⟩
    · exact absurd heq hne
    · obtain rfl := Option.some.inj (hbest.symm.trans hrow)
      omega

/-- A change of the table of `x` does not change what its neighbours offer. -/
theorem Offered.update (h : Offered ρ dest nextHop c) (hne : nextHop ≠ x) (t : RoutingTable Id) :
    Offered (Function.update ρ x t) dest nextHop c := by
  unfold Offered
  rwa [Function.update_of_ne hne]

theorem CostLe.update {t : RoutingTable Id} (h : CostLe ρ x dest c) {y : Id}
    (hy : y = x → ∃ row, t.getBest dest = some row ∧ row.cost ≤ c) :
    CostLe (Function.update ρ y t) x dest c := by
  unfold CostLe
  by_cases hxy : x = y
  · subst hxy
    rw [Function.update_self]
    exact hy rfl
  · rwa [Function.update_of_ne hxy]

/-- A table that is changed at one node: its rows are old ones or backed, and its keys old ones or
nodes. -/
theorem Consistent.update (h : Consistent T ρ) {t : RoutingTable Id} (hid : t.myId = x)
    (hmax : t.maxRoutes = 3) (hdearer : NoDearer ρ (Function.update ρ x t))
    (hrows : ∀ dest, ∀ r ∈ t.rows dest, r ∈ (ρ x).rows dest ∨
      x ≠ dest ∧ 1 ≤ r.cost ∧ T.graph.Adj x r.nextHop ∧ Backs ρ dest r.nextHop r.cost)
    (hkeys : ∀ k ∈ t.table.keys, k ∈ (ρ x).table.keys ∨ k ∈ T.ids) :
    Consistent T (Function.update ρ x t) where
  myId := (Function.forall_update_iff ρ fun y t => t.myId = y).2 ⟨hid, fun y _ => h.myId y⟩
  maxRoutes :=
    (Function.forall_update_iff ρ fun _ t => t.maxRoutes = 3).2 ⟨hmax, fun y _ => h.maxRoutes y⟩
  backed := by
    intro y dest r hr
    have hbacked : y ≠ dest ∧ 1 ≤ r.cost ∧ T.graph.Adj y r.nextHop ∧
        Backs ρ dest r.nextHop r.cost := by
      by_cases hy : y = x
      · subst hy
        rw [Function.update_self] at hr
        exact (hrows dest r hr).elim (h.backed y dest r) id
      · rw [Function.update_of_ne hy] at hr
        exact h.backed y dest r hr
    obtain ⟨hne, hpos, hadj, hbacks⟩ := hbacked
    exact ⟨hne, hpos, hadj, hbacks.mono hdearer⟩
  registered := (Function.forall_update_iff ρ fun _ t => ∀ k ∈ t.table.keys, k ∈ T.ids).2
    ⟨fun k hk => (hkeys k hk).elim (h.registered x k) id, fun y _ => h.registered y⟩

/-- **Entering a route that is offered keeps all rows backed, and makes no best row dearer.** -/
theorem Consistent.addRoute (h : Consistent T ρ) (hadj : T.graph.Adj x nextHop)
    (hoffered : Offered ρ dest nextHop c) (hdest : dest ∈ T.ids) (version : ℤ) (now : ℚ) :
    Consistent T (Function.update ρ x ((ρ x).addRoute dest nextHop c version now)) ∧
      NoDearer ρ (Function.update ρ x ((ρ x).addRoute dest nextHop c version now)) := by
  have hnodearer :
      NoDearer ρ (Function.update ρ x ((ρ x).addRoute dest nextHop c version now)) := by
    rintro y dest' c' ⟨row, hrow, hc'⟩
    refine CostLe.update ⟨row, hrow, hc'⟩ fun hxy => ?_
    subst hxy
    have hcheap : dest' = dest → row.nextHop = nextHop → c ≤ row.cost := by
      rintro rfl rfl
      exact hoffered.le (h.backed x dest' row (List.mem_of_head? hrow)).2.2.2
    obtain ⟨best, hbest, hle⟩ : ∃ best, ((ρ x).addRoute dest nextHop c version now).getBest dest' =
        some best ∧ best.cost ≤ row.cost :=
      getBest_addRoute (by rw [h.maxRoutes]; omega) hrow hcheap
    exact ⟨best, hbest, hle.trans hc'⟩
  refine ⟨h.update ?_ ?_ hnodearer (fun dest' r hr => ?_) fun k hk => ?_, hnodearer⟩
  · rw [addRoute_myId, h.myId]
  · rw [addRoute_maxRoutes, h.maxRoutes]
  · refine (mem_rows_addRoute hr).imp_right ?_
    rintro ⟨rfl, hne, hpos, rfl⟩
    rw [h.myId] at hne
    exact ⟨hne.symm, hpos, hadj, hoffered.backs⟩
  · refine (keys_addRoute hk).imp_right ?_
    rintro rfl
    exact hdest

/-! ### Several routes -/

/-- Routes that a node enters one after the other. -/
def addRoutes {β : Type*} (dest nextHop : β → Id) (cost version : β → ℤ) (now : β → ℚ)
    (t : RoutingTable Id) (l : List β) : RoutingTable Id :=
  l.foldl (fun t i => t.addRoute (dest i) (nextHop i) (cost i) (version i) (now i)) t

/-- **Entering routes that are offered**: each of them is then in the table at its cost, unless it
is refused. -/
theorem Consistent.addRoutes {β : Type*} {dest nextHop : β → Id} {cost version : β → ℤ}
    {now : β → ℚ} {l : List β} (h : Consistent T ρ) (hitems : ∀ i ∈ l,
      T.graph.Adj x (nextHop i) ∧ Offered ρ (dest i) (nextHop i) (cost i) ∧ dest i ∈ T.ids)
    {t : RoutingTable Id} (ht : Routing.addRoutes dest nextHop cost version now (ρ x) l = t) :
    Consistent T (Function.update ρ x t) ∧ NoDearer ρ (Function.update ρ x t) ∧
      ∀ i ∈ l, dest i ≠ x → 1 ≤ cost i → cost i ≤ maxCost →
        CostLe (Function.update ρ x t) x (dest i) (cost i) := by
  subst ht
  induction l generalizing ρ with
  | nil =>
      have hsame : Function.update ρ x (Routing.addRoutes dest nextHop cost version now (ρ x) []) =
          ρ := Function.update_eq_self x ρ
      rw [hsame]
      exact ⟨h, .refl ρ, fun _ hi => by cases hi⟩
  | cons i l ih =>
      obtain ⟨hadj, hoffered, hdest⟩ := hitems i List.mem_cons_self
      obtain ⟨hcons, hdearer⟩ := h.addRoute hadj hoffered hdest (version i) (now i)
      have hrest := ih hcons fun j hj => by
        obtain ⟨hadj, hoffered, hdest⟩ := hitems j (List.mem_cons_of_mem i hj)
        exact ⟨hadj, hoffered.update hadj.ne' _, hdest⟩
      rw [Function.update_self, Function.update_idem] at hrest
      obtain ⟨hcons', hdearer', hall⟩ := hrest
      refine ⟨hcons', hdearer.trans hdearer', fun j hj hne hlow hhigh => ?_⟩
      rcases List.mem_cons.1 hj with rfl | hj
      · refine hdearer' _ _ _ ?_
        unfold CostLe
        rw [Function.update_self]
        exact getBest_addRoute_self (by rw [h.maxRoutes]; omega) (by rw [h.myId]; exact hne) hlow
          hhigh _ _ _
      · exact hall j hj hne hlow hhigh

/-- Dropping no rows. -/
theorem Consistent.keepRows (h : Consistent T ρ) {p : RouteRow Id → Bool}
    (hp : ∀ dest, ∀ r ∈ (ρ x).rows dest, p r = true) :
    Consistent T (Function.update ρ x ((ρ x).keepRows p)) ∧
      NoDearer ρ (Function.update ρ x ((ρ x).keepRows p)) := by
  have hrows : ∀ dest, ((ρ x).keepRows p).rows dest = ((ρ x).rows dest).take 3 := by
    intro dest
    rw [rows_keepRows, h.maxRoutes, List.filter_eq_self.2 (hp dest)]
  have hdearer : NoDearer ρ (Function.update ρ x ((ρ x).keepRows p)) := by
    rintro y dest c ⟨row, hrow, hc⟩
    refine CostLe.update ⟨row, hrow, hc⟩ fun hxy => ?_
    subst hxy
    refine ⟨row, ?_, hc⟩
    rw [getBest, hrows, head?_take (by omega)]
    exact hrow
  refine ⟨h.update (h.myId x) (h.maxRoutes x) hdearer (fun dest r hr => Or.inl ?_)
    fun k hk => Or.inl (keys_keepRows hk), hdearer⟩
  rw [hrows] at hr
  exact List.mem_of_mem_take hr

/-! ### A tick -/

/-- The tick drops no row: when stale rows are dropped, all rows of its node are fresh. -/
def Fresh (w : Mesh Id) (tick : Tick Id) : Prop :=
  ∀ item ∈ ((w tick.node).readied tick.peers tick.clock).routing.table.entries,
    ∀ r ∈ item.2, tick.clock.cleanup - r.ts < maxAge

instance (w : Mesh Id) (tick : Tick Id) : Decidable (Fresh w tick) := by
  unfold Fresh
  infer_instance

/-- In the tick the node `x` sends an update. -/
def Advertises (log : ℚ → ℚ) (x : Id) (w : Mesh Id) (tick : Tick Id) : Prop :=
  tick.node = x ∧ (w x).due log tick.now tick.peers = true

instance (log : ℚ → ℚ) (x : Id) (w : Mesh Id) (tick : Tick Id) :
    Decidable (Advertises log x w tick) := by
  unfold Advertises
  infer_instance

/-- The neighbours that a node has found are linked to it. -/
def Linked (T : Topology Id) (w : Mesh Id) : Prop :=
  ∀ x, ∀ n ∈ (w x).neighbors, T.linked x n = true

theorem mem_peers {tick : Tick Id} (h : Enabled T tick) {n : Id} :
    n ∈ tick.peers ↔ T.graph.Adj tick.node n := h.2.mem_iff.trans Topology.mem_neighbors

/-- Looking at the links changes no row, as long as no link has gone. -/
theorem refreshNeighbors_routing {node : VertexNode Id} {peers : List Id}
    (h : ∀ n ∈ node.neighbors, n ∈ peers) :
    (node.refreshNeighbors peers).routing = node.routing := by
  have hnone : (node.neighbors.filter fun n => ¬ peers.contains n) = [] := by
    refine List.filter_eq_nil_iff.2 fun n hn => ?_
    simpa using h n hn
  change (node.neighbors.filter fun n => ¬ peers.contains n).foldl _ _ = _
  rw [hnone]
  rfl

theorem tablesOf_update (w : Mesh Id) (x : Id) (node : VertexNode Id) :
    tablesOf (Function.update w x node) = Function.update (tablesOf w) x node.routing := by
  funext y
  unfold tablesOf
  by_cases hy : y = x
  · subst hy
    rw [Function.update_self, Function.update_self]
  · rw [Function.update_of_ne hy, Function.update_of_ne hy]

theorem readied_routing {node : VertexNode Id} {peers : List Id} {clock : TickClock Id}
    (h : ∀ n ∈ node.neighbors, n ∈ peers) : (node.readied peers clock).routing =
      addRoutes id id (fun _ => 1) (fun _ => node.advSeq) clock.added node.routing peers := by
  rw [← refreshNeighbors_routing h]
  rfl

/-- What the neighbours make of an update. -/
theorem Consistent.of_spread {w : Mesh Id} {sender : Id} {routes : List (Advertised Id)} {seq : ℤ}
    {received : Id → Id → ℚ} {peers : List Id} (h : Consistent T (tablesOf w))
    (hpeers : ∀ n ∈ peers, T.graph.Adj sender n)
    (hroutes : ∀ a ∈ routes, a.dest ∈ T.ids ∧
      ∃ row, (tablesOf w sender).getBest a.dest = some row ∧ row.cost = a.cost) :
    Consistent T (tablesOf (spread w sender routes seq received peers)) ∧
      NoDearer (tablesOf w) (tablesOf (spread w sender routes seq received peers)) ∧
      ∀ n ∈ peers, ∀ a ∈ routes, a.dest ≠ n → a.cost + 1 ≤ maxCost →
        CostLe (tablesOf (spread w sender routes seq received peers)) n a.dest (a.cost + 1) := by
  induction peers generalizing w with
  | nil => exact ⟨h, .refl _, fun _ hn => by cases hn⟩
  | cons n peers ih =>
      have hn : T.graph.Adj sender n := hpeers n List.mem_cons_self
      have hbest : ∀ a ∈ routes, sender ≠ a.dest ∧ 1 ≤ a.cost := by
        intro a ha
        obtain ⟨-, row, hrow, hcost⟩ := hroutes a ha
        obtain ⟨hne, hpos, -⟩ := h.backed sender a.dest row (List.mem_of_head? hrow)
        exact ⟨hne, hcost ▸ hpos⟩
      have hitems : ∀ a ∈ routes, T.graph.Adj n sender ∧
          Offered (tablesOf w) a.dest sender (a.cost + 1) ∧ a.dest ∈ T.ids := by
        intro a ha
        obtain ⟨hreg, row, hrow, hcost⟩ := hroutes a ha
        refine ⟨hn.symm, Or.inr ⟨(hbest a ha).1, row, hrow, ?_⟩, hreg⟩
        rw [hcost]
      have hadd := @Consistent.addRoutes _ _ T (tablesOf w) n _ Advertised.dest (fun _ => sender)
        (fun a => a.cost + 1) (fun _ => seq) (fun a => received n a.dest) routes h hitems _ rfl
      have htables : tablesOf (Function.update w n
          ((w n).handleRoutingUpdate sender routes seq (received n))) =
          Function.update (tablesOf w) n (Routing.addRoutes Advertised.dest (fun _ => sender)
            (fun a => a.cost + 1) (fun _ => seq) (fun a => received n a.dest) (tablesOf w n)
            routes) := tablesOf_update _ _ _
      rw [← htables] at hadd
      obtain ⟨hcons, hdearer, hall⟩ := hadd
      have hsender : tablesOf (Function.update w n
          ((w n).handleRoutingUpdate sender routes seq (received n))) sender =
          tablesOf w sender := by
        rw [htables, Function.update_of_ne hn.ne]
      obtain ⟨hcons', hdearer', hall'⟩ := ih hcons
        (fun n' hn' => hpeers n' (List.mem_cons_of_mem n hn')) (by rwa [hsender])
      refine ⟨hcons', hdearer.trans hdearer', fun n' hn' a ha hne hhigh => ?_⟩
      rcases List.mem_cons.1 hn' with rfl | hn'
      · have := (hbest a ha).2
        exact hdearer' _ _ _ (hall a ha hne (by omega) hhigh)
      · exact hall' n' hn' a ha hne hhigh

theorem neighbors_spread {w : Mesh Id} {sender : Id} {routes : List (Advertised Id)} {seq : ℤ}
    {received : Id → Id → ℚ} {peers : List Id} (x : Id) :
    (spread w sender routes seq received peers x).neighbors = (w x).neighbors := by
  induction peers generalizing w with
  | nil => rfl
  | cons n peers ih =>
      refine ih.trans ?_
      dsimp only
      by_cases hx : x = n
      · subst hx
        rw [Function.update_self]
        rfl
      · rw [Function.update_of_ne hx]

/-- The node of a tick, when it has dropped its stale rows. -/
def cleaned (w : Mesh Id) (tick : Tick Id) : RoutingTable Id :=
  ((w tick.node).readied tick.peers tick.clock).routing.cleanupStale tick.clock.cleanup maxAge

variable {log : ℚ → ℚ} {w w' : Mesh Id} {tick : Tick Id}

/-- What a tick does to the table of its node, before it sends an update. -/
theorem cleaned_spec (h : Consistent T (tablesOf w)) (hlinked : Linked T w) (hen : Enabled T tick)
    (hfresh : Fresh w tick) :
    Consistent T (Function.update (tablesOf w) tick.node (cleaned w tick)) ∧
      NoDearer (tablesOf w) (Function.update (tablesOf w) tick.node (cleaned w tick)) ∧
      ∀ n, T.graph.Adj tick.node n →
        CostLe (Function.update (tablesOf w) tick.node (cleaned w tick)) tick.node n 1 := by
  have hpeers : ∀ n ∈ (w tick.node).neighbors, n ∈ tick.peers :=
    fun n hn => (mem_peers hen).2 (hlinked tick.node n hn)
  have hitems : ∀ n ∈ tick.peers, T.graph.Adj tick.node (id n) ∧
      Offered (tablesOf w) (id n) (id n) 1 ∧ id n ∈ T.ids := by
    intro n hn
    have hadj := (mem_peers hen).1 hn
    exact ⟨hadj, Or.inl ⟨rfl, rfl⟩, Topology.mem_ids_of_adj hadj.symm⟩
  obtain ⟨hcons, hdearer, hdirect⟩ := h.addRoutes hitems (readied_routing hpeers).symm
  obtain ⟨hcons', hdearer'⟩ := hcons.keepRows (x := tick.node)
    (p := fun r => tick.clock.cleanup - r.ts < maxAge) (by
      rw [Function.update_self]
      intro dest r hr
      cases hget : ((w tick.node).readied tick.peers tick.clock).routing.table.get? dest with
      | none =>
          rw [rows, hget] at hr
          cases hr
      | some rs =>
          rw [rows, hget] at hr
          exact decide_eq_true (hfresh (dest, rs) (Js.OrderedMap.mem_entries_iff.2 hget) r hr))
  rw [Function.update_self, Function.update_idem] at hcons' hdearer'
  refine ⟨hcons', hdearer.trans hdearer', fun n hadj => hdearer' _ _ _ ?_⟩
  exact hdirect n ((mem_peers hen).2 hadj) hadj.ne' le_rfl (by decide)

theorem mem_keys_of_getBest {t : RoutingTable Id} {row : RouteRow Id}
    (h : t.getBest dest = some row) : dest ∈ t.table.keys := by
  by_contra hnot
  have hnone : t.table.get? dest = none := Js.OrderedMap.getList_eq_none_iff.2 hnot
  rw [getBest, rows, hnone] at h
  cases h

/-- A consistent table has no more destinations than there are nodes. -/
theorem Consistent.keys_length (h : Consistent T ρ) (x : Id) :
    (ρ x).table.keys.length ≤ T.ids.length := by
  have hnodup : (ρ x).table.keys.Nodup := (ρ x).table.nodup
  exact (hnodup.subperm fun k hk => h.registered x k hk).length_le

/-- What the update of a node does, once it has dropped its stale rows. -/
theorem Consistent.of_update (h : Consistent T
    (Function.update (tablesOf w) tick.node (cleaned w tick)))
    (hcap : T.ids.length ≤ maxAdvertiseDests) (hen : Enabled T tick) (node : VertexNode Id)
    (hnode : node.routing = cleaned w tick) (seq : ℤ) (received : Id → Id → ℚ) :
    Consistent T (tablesOf (spread (Function.update w tick.node node) tick.node
        ((cleaned w tick).advertise (some maxAdvertiseDests)) seq received tick.peers)) ∧
      NoDearer (Function.update (tablesOf w) tick.node (cleaned w tick))
        (tablesOf (spread (Function.update w tick.node node) tick.node
          ((cleaned w tick).advertise (some maxAdvertiseDests)) seq received tick.peers)) ∧
      ∀ n dest c, T.graph.Adj tick.node n → n ≠ dest →
        CostLe (Function.update (tablesOf w) tick.node (cleaned w tick)) tick.node dest c →
        c + 1 ≤ maxCost →
        CostLe (tablesOf (spread (Function.update w tick.node node) tick.node
          ((cleaned w tick).advertise (some maxAdvertiseDests)) seq received tick.peers)) n dest
          (c + 1) := by
  have htables : tablesOf (Function.update w tick.node node) =
      Function.update (tablesOf w) tick.node (cleaned w tick) := by
    rw [tablesOf_update, hnode]
  have hlen : (cleaned w tick).table.keys.length ≤ maxAdvertiseDests := by
    have hle := h.keys_length tick.node
    rw [Function.update_self] at hle
    exact hle.trans hcap
  rw [← htables] at h ⊢
  have hself : tablesOf (Function.update w tick.node node) tick.node = cleaned w tick := by
    rw [htables, Function.update_self]
  obtain ⟨hcons, hdearer, hall⟩ := h.of_spread (fun n hn => (mem_peers hen).1 hn) (fun a ha => by
    obtain ⟨row, hrow, hcost⟩ := (mem_advertise hlen).1 ha
    rw [hself]
    refine ⟨h.registered tick.node a.dest ?_, row, hrow, (congrArg Advertised.cost hcost).symm⟩
    rw [hself]
    exact mem_keys_of_getBest hrow)
  refine ⟨hcons, hdearer, fun n dest c hadj hne ⟨row, hrow, hle⟩ hc => ?_⟩
  rw [hself] at hrow
  have hadv : (⟨dest, row.cost, row.version⟩ : Advertised Id) ∈
      (cleaned w tick).advertise (some maxAdvertiseDests) := (mem_advertise hlen).2 ⟨row, hrow, rfl⟩
  have hcost : row.cost + 1 ≤ maxCost := by omega
  exact (hall n ((mem_peers hen).2 hadj) _ hadv hne.symm hcost).mono (Int.add_le_add_right hle 1)

/-- **What a tick does**: the tables stay consistent and no best row gets dearer; the node has a row
for each neighbour; and if it sends an update, its neighbours have its routes at one more. -/
theorem tick_spec (h : Consistent T (tablesOf w)) (hlinked : Linked T w)
    (hcap : T.ids.length ≤ maxAdvertiseDests) (hfresh : Fresh w tick)
    (hstep : meshStep T log w tick = some w') :
    Consistent T (tablesOf w') ∧ Linked T w' ∧ NoDearer (tablesOf w) (tablesOf w') ∧
      (∀ n, T.graph.Adj tick.node n → CostLe (tablesOf w') tick.node n 1) ∧
      ∀ x, Advertises log x w tick → ∀ n dest c, T.graph.Adj x n → n ≠ dest →
        CostLe (tablesOf w) x dest c → c + 1 ≤ maxCost → CostLe (tablesOf w') n dest (c + 1) := by
  obtain ⟨hen, rfl⟩ : Enabled T tick ∧ afterTick log w tick = w' := by
    rw [meshStep, Option.ite_none_right_eq_some, Option.some.injEq] at hstep
    exact hstep
  obtain ⟨hcons, hdearer, hdirect⟩ := cleaned_spec h hlinked hen hfresh
  have hlinked' {node : VertexNode Id} (hnode : node.neighbors = tick.peers) :
      Linked T (Function.update w tick.node node) := by
    intro x n hn
    by_cases hx : x = tick.node
    · subst hx
      rw [Function.update_self, hnode] at hn
      exact (mem_peers hen).1 hn
    · rw [Function.update_of_ne hx] at hn
      exact hlinked x n hn
  unfold afterTick
  cases hdue : (w tick.node).due log tick.now tick.peers with
  | false =>
      have htick : (w tick.node).tickMesh log tick.now tick.peers tick.clock =
          ({ (w tick.node).readied tick.peers tick.clock with routing := cleaned w tick },
            none) := by
        rw [VertexNode.tickMesh, hdue]
        rfl
      rw [htick]
      dsimp only
      rw [tablesOf_update]
      refine ⟨hcons, hlinked' rfl, hdearer, hdirect, ?_⟩
      rintro x ⟨rfl, hadv⟩
      rw [hdue] at hadv
      cases hadv
  | true =>
      have htick : (w tick.node).tickMesh log tick.now tick.peers tick.clock =
          ({ (w tick.node).readied tick.peers tick.clock with
              routing := cleaned w tick
              lastRoutingTick := tick.now
              advSeq := (w tick.node).advSeq + 1 },
            some ((cleaned w tick).advertise (some maxAdvertiseDests),
              (w tick.node).advSeq + 1)) := by
        rw [VertexNode.tickMesh, hdue]
        rfl
      rw [htick]
      dsimp only
      obtain ⟨hcons', hdearer', hroutes⟩ := hcons.of_update hcap hen
        { (w tick.node).readied tick.peers tick.clock with
          routing := cleaned w tick
          lastRoutingTick := tick.now
          advSeq := (w tick.node).advSeq + 1 } rfl ((w tick.node).advSeq + 1) tick.clock.received
      refine ⟨hcons', fun x n hn => ?_, hdearer.trans hdearer', fun n hadj => ?_, ?_⟩
      · rw [neighbors_spread] at hn
        exact hlinked' rfl x n hn
      · exact hdearer' _ _ _ (hdirect n hadj)
      · rintro x ⟨rfl, -⟩ n dest c hadj hne hle hc
        exact hroutes n dest c hadj hne (hdearer _ _ _ hle) hc

/-! ### The hop distance -/

/-- **No row is cheaper than the hop distance.** -/
theorem dist_le_of_mem (h : Consistent T ρ) {k : ℕ} {r : RouteRow Id} (hr : r ∈ (ρ x).rows dest)
    (hk : r.cost ≤ k) : T.graph.Reachable x dest ∧ (T.graph.dist x dest : ℤ) ≤ r.cost := by
  induction k generalizing x r with
  | zero =>
      have hpos := (h.backed x dest r hr).2.1
      omega
  | succ k ih =>
      obtain ⟨-, -, hadj, hbacks⟩ := h.backed x dest r hr
      rcases hbacks with ⟨rfl, hone⟩ | ⟨-, row, hrow, hle⟩
      · refine ⟨hadj.reachable, ?_⟩
        rw [SimpleGraph.dist_eq_one_iff_adj.2 hadj, hone]
        rfl
      · obtain ⟨hreach, hdist⟩ := ih (List.mem_of_head? hrow) (by omega)
        have hsucc := Hops.dist_le_succ hadj hreach
        exact ⟨hadj.reachable.trans hreach, by omega⟩

/-- **A best row that costs no more than the hop distance** costs just that, and goes through a
neighbour that is one hop closer. -/
theorem best_of_costLe (h : Consistent T ρ) (hle : CostLe ρ x dest (T.graph.dist x dest)) :
    ∃ row, (ρ x).getBest dest = some row ∧ row.cost = T.graph.dist x dest ∧
      T.graph.Adj x row.nextHop ∧ T.graph.dist row.nextHop dest + 1 = T.graph.dist x dest := by
  obtain ⟨row, hrow, hcost⟩ := hle
  have hmem := List.mem_of_head? hrow
  obtain ⟨hreach, hdist⟩ := dist_le_of_mem h hmem hcost
  obtain ⟨-, -, hadj, hbacks⟩ := h.backed x dest row hmem
  have heq : row.cost = T.graph.dist x dest := le_antisymm hcost hdist
  refine ⟨row, hrow, heq, hadj, ?_⟩
  rcases hbacks with ⟨hnext, hone⟩ | ⟨-, best, hbest, hle⟩
  · rw [hnext, SimpleGraph.dist_self]
    omega
  · have hbound : best.cost ≤ (T.graph.dist x dest : ℕ) := by omega
    obtain ⟨hreach', hdist'⟩ := dist_le_of_mem h (List.mem_of_head? hbest) hbound
    have hsucc := Hops.dist_le_succ hadj hreach'
    omega

/-! ### Rounds -/

/-- What some ticks do: the nodes that have sent an update have told their neighbours of their
routes. -/
theorem run_spec {ticks : List (Tick Id)} (hcap : T.ids.length ≤ maxAdvertiseDests)
    (h : Consistent T (tablesOf w)) (hlinked : Linked T w)
    (hfresh : Along (meshStep T log) Fresh w ticks)
    (hrun : run (meshStep T log) w ticks = some w') :
    Consistent T (tablesOf w') ∧ Linked T w' ∧ NoDearer (tablesOf w) (tablesOf w') ∧
      ∀ x, Sometime (meshStep T log) (Advertises log x) w ticks →
        (∀ n, T.graph.Adj x n → CostLe (tablesOf w') x n 1) ∧
        ∀ n dest c, T.graph.Adj x n → n ≠ dest → CostLe (tablesOf w) x dest c → c + 1 ≤ maxCost →
          CostLe (tablesOf w') n dest (c + 1) := by
  induction ticks generalizing w with
  | nil =>
      obtain rfl := Option.some.inj hrun
      exact ⟨h, hlinked, .refl _, fun _ hs => hs.elim⟩
  | cons tick ticks ih =>
      obtain ⟨w₁, hstep, hrest⟩ := run_cons.1 hrun
      obtain ⟨hcons, hlinked₁, hdearer, hdirect, htold⟩ :=
        tick_spec h hlinked hcap hfresh.1 hstep
      obtain ⟨hcons', hlinked', hdearer', hall⟩ := ih hcons hlinked₁ (hfresh.2 w₁ hstep) hrest
      refine ⟨hcons', hlinked', hdearer.trans hdearer', fun x hx => ?_⟩
      rcases hx with hadv | ⟨w₂, hstep₂, hx⟩
      · refine ⟨fun n hadj => hdearer' _ _ _ ?_, fun n dest c hadj hne hle hc => ?_⟩
        · obtain rfl := hadv.1
          exact hdirect n hadj
        · exact hdearer' _ _ _ (htold x hadv n dest c hadj hne hle hc)
      · obtain rfl := Option.some.inj (hstep.symm.trans hstep₂)
        obtain ⟨hnear, hfar⟩ := hall x hx
        exact ⟨hnear, fun n dest c hadj hne hle hc => hfar n dest c hadj hne (hdearer _ _ _ hle) hc⟩

/-- The best rows within `k` hops cost no more than the hop distance. -/
def Reached (T : Topology Id) (ρ : Id → RoutingTable Id) (k : ℕ) : Prop :=
  ∀ x dest, x ≠ dest → T.graph.Reachable x dest → T.graph.dist x dest ≤ k →
    CostLe ρ x dest (T.graph.dist x dest)

/-- Every node sends an update in the round. -/
def Round (T : Topology Id) (log : ℚ → ℚ) (w : Mesh Id) (round : List (Tick Id)) : Prop :=
  ∀ x ∈ T.ids, Sometime (meshStep T log) (Advertises log x) w round

instance (T : Topology Id) (log : ℚ → ℚ) (w : Mesh Id) (round : List (Tick Id)) :
    Decidable (Round T log w round) := by
  unfold Round
  infer_instance

/-- **In a round the routes get one hop further.** -/
theorem Reached.round {round : List (Tick Id)} {k : ℕ} (h : Reached T (tablesOf w) k)
    (hcap : T.ids.length ≤ maxAdvertiseDests)
    (hdist : ∀ x y, T.graph.Reachable x y → (T.graph.dist x y : ℤ) ≤ maxCost)
    (hcons : Consistent T (tablesOf w)) (hlinked : Linked T w)
    (hfresh : Along (meshStep T log) Fresh w round) (hround : Round T log w round)
    (hrun : run (meshStep T log) w round = some w') : Reached T (tablesOf w') (k + 1) := by
  obtain ⟨-, -, hdearer, hall⟩ := run_spec hcap hcons hlinked hfresh hrun
  intro x dest hne hreach hk
  obtain ⟨y, hadj, hy, hdy, hyk⟩ := Hops.exists_within hreach hne hk
  by_cases hyd : y = dest
  · -- the destination is a neighbour
    subst hyd
    rw [SimpleGraph.dist_eq_one_iff_adj.2 hadj]
    exact (hall x (hround x (Topology.mem_ids_of_adj hadj))).1 y hadj
  · -- the neighbour has had a best row of its distance since before the round
    have hfar := (hall y (hround y (Topology.mem_ids_of_adj hadj.symm))).2 x dest _ hadj.symm hne
      (h y dest hyd hy hyk)
    have hbound := hdist x dest hreach
    rw [← hdy] at hbound ⊢
    rw [Nat.cast_add, Nat.cast_one] at hbound ⊢
    exact hfar hbound

theorem consistent_newMesh (T : Topology Id) : Consistent T (tablesOf newMesh) where
  myId _ := rfl
  maxRoutes _ := rfl
  backed _ _ _ hr := by cases hr
  registered _ _ hk := by cases hk

/-- **After `d` rounds the best rows within `d` hops cost the hop distance.** -/
theorem converged_of_rounds {rounds : List (List (Tick Id))}
    (hcap : T.ids.length ≤ maxAdvertiseDests)
    (hdist : ∀ x y, T.graph.Reachable x y → (T.graph.dist x y : ℤ) ≤ maxCost)
    (hfresh : Along (run (meshStep T log)) (Along (meshStep T log) Fresh) newMesh rounds)
    (hrounds : Along (run (meshStep T log)) (Round T log) newMesh rounds)
    (hrun : run (run (meshStep T log)) newMesh rounds = some w) :
    Consistent T (tablesOf w) ∧ Linked T w ∧ Reached T (tablesOf w) rounds.length := by
  refine invariant_of_history (I := fun rounds w =>
    Along (run (meshStep T log)) (Along (meshStep T log) Fresh) newMesh rounds →
    Along (run (meshStep T log)) (Round T log) newMesh rounds →
    Consistent T (tablesOf w) ∧ Linked T w ∧ Reached T (tablesOf w) rounds.length)
    (fun _ _ => ⟨consistent_newMesh T, fun _ _ hn => (by cases hn), ?_⟩) ?_ hrun hfresh hrounds
  · intro x dest hne hreach hzero
    have := hreach.pos_dist_of_ne hne
    simp only [List.length_nil] at hzero
    omega
  · intro rounds round w₁ w₂ hrun₁ ih hround hfresh hrounds
    obtain ⟨hfresh, hfresh'⟩ := (along_concat hrun₁).1 hfresh
    obtain ⟨hrounds, hrounds'⟩ := (along_concat hrun₁).1 hrounds
    obtain ⟨hcons, hlinked, hreached⟩ := ih hfresh hrounds
    obtain ⟨hcons', hlinked', -⟩ := run_spec hcap hcons hlinked hfresh' hround
    refine ⟨hcons', hlinked', ?_⟩
    rw [List.length_append, List.length_singleton]
    exact hreached.round hcap hdist hcons hlinked hfresh' hrounds' hround

end Routing

namespace Routing

open Runs RoutingTable

variable {Id α : Type*} [LinearOrder Id] {T : Topology Id} {log : ℚ → ℚ} {w : Mesh Id}
  {x dest : Id} {k : ℕ}

/-- A message goes on along the best row, if that does not lead back. -/
theorem nextHopOf_eq {node : VertexNode Id} {sender : Id} {row : RouteRow Id}
    (h : row.nextHop ≠ sender) : nextHopOf node sender dest row = row.nextHop := if_neg h

/-- **A message on its way reaches its destination**, from a node that it has come to from one hop
farther away. -/
theorem handleForward_delivers (hcons : Consistent T (tablesOf w))
    (hreached : Reached T (tablesOf w) k) (payload : α) (source : Id) {ttl : ℕ}
    {sender node : Id} (hreach : T.graph.Reachable node dest)
    (hsender : T.graph.dist sender dest = T.graph.dist node dest + 1)
    (hk : T.graph.dist node dest ≤ k) (httl : T.graph.dist node dest < ttl) :
    handleForward T w dest payload source ttl sender node = [⟨dest, source, payload⟩] := by
  induction ttl generalizing sender node with
  | zero => omega
  | succ ttl ih =>
      rw [handleForward]
      by_cases hd : dest = node
      · rw [if_pos hd, hd]
      · rw [if_neg hd]
        obtain ⟨row, hrow, -, hadj, hcloser⟩ :=
          best_of_costLe hcons (hreached node dest (Ne.symm hd) hreach hk)
        have hrow : (w node).routing.getBest dest = some row := hrow
        have hne : row.nextHop ≠ sender := by
          rintro rfl
          omega
        have hlink : T.linked node row.nextHop = true := hadj
        rw [hrow]
        dsimp only
        rw [nextHopOf_eq hne, if_pos hlink]
        refine ih (hadj.symm.reachable.trans hreach) hcloser.symm ?_ ?_
        · omega
        · omega

/-- A payload that is sent reaches its destination. -/
theorem sendTo_delivers (hcons : Consistent T (tablesOf w)) (hlinked : Linked T w)
    (hreached : Reached T (tablesOf w) k) (hne : x ≠ dest) (hreach : T.graph.Reachable x dest)
    (hk : T.graph.dist x dest ≤ k) (payload : α) {ttl : ℤ} (httl : (T.graph.dist x dest : ℤ) ≤ ttl)
    {peers : List Id} (hpeers : ∀ n, T.graph.Adj x n → n ∈ peers) :
    (sendTo T w x dest payload ttl peers).1 = true ∧
      (sendTo T w x dest payload ttl peers).2.1 = [⟨dest, x, payload⟩] := by
  have htables : tablesOf (Function.update w x ((w x).refreshNeighbors peers)) = tablesOf w := by
    rw [tablesOf_update, refreshNeighbors_routing fun n hn => hpeers n (hlinked x n hn)]
    exact Function.update_eq_self x (tablesOf w)
  rw [← htables] at hcons hreached
  obtain ⟨row, hrow, -, hadj, hcloser⟩ := best_of_costLe hcons (hreached x dest hne hreach hk)
  have hrow : (Function.update w x ((w x).refreshNeighbors peers) x).routing.getBest dest =
      some row := hrow
  have hlink : T.linked x row.nextHop = true := hadj
  unfold sendTo
  dsimp only
  rw [hrow]
  dsimp only
  rw [if_pos hlink]
  refine ⟨rfl, handleForward_delivers hcons hreached payload x
    (hadj.symm.reachable.trans hreach) hcloser.symm ?_ ?_⟩
  · omega
  · omega

/-- **After `d` rounds in which every node sends an update, the best row of every node within `d`
hops of a destination costs the hop distance and leads one hop closer; and a payload that is sent
with at least as many hops to go is handed to the application of the destination, once, and to no
other one.** -/
theorem converges_and_delivers (T : Topology Id) (log : ℚ → ℚ) (rounds : List (List (Tick Id)))
    (w : Mesh Id) (hcap : T.ids.length ≤ maxAdvertiseDests)
    (hdist : ∀ x y, T.graph.Reachable x y → (T.graph.dist x y : ℤ) ≤ maxCost)
    (hrun : run (run (meshStep T log)) newMesh rounds = some w)
    (hfresh : Along (run (meshStep T log)) (Along (meshStep T log) Fresh) newMesh rounds)
    (hrounds : Along (run (meshStep T log)) (Round T log) newMesh rounds)
    (x dest : Id) (hne : x ≠ dest) (hreach : T.graph.Reachable x dest)
    (hwithin : T.graph.dist x dest ≤ rounds.length) :
    (∃ row, (w x).routing.getBest dest = some row ∧ row.cost = T.graph.dist x dest ∧
      T.graph.Adj x row.nextHop ∧ T.graph.dist row.nextHop dest + 1 = T.graph.dist x dest) ∧
    ∀ (payload : α) (ttl : ℤ) (peers : List Id), (T.graph.dist x dest : ℤ) ≤ ttl →
      (∀ n, n ∈ peers ↔ T.graph.Adj x n) →
      (sendTo T w x dest payload ttl peers).1 = true ∧
        (sendTo T w x dest payload ttl peers).2.1 = [⟨dest, x, payload⟩] := by
  obtain ⟨hcons, hlinked, hreached⟩ := converged_of_rounds hcap hdist hfresh hrounds hrun
  refine ⟨best_of_costLe hcons (hreached x dest hne hreach hwithin), ?_⟩
  intro payload ttl peers httl hpeers
  exact sendTo_delivers hcons hlinked hreached hne hreach hwithin payload httl
    fun n hadj => (hpeers n).2 hadj

/-- Three nodes in a line. -/
def line : Topology (Fin 3) where
  ids := [0, 1, 2]
  nodup := by decide
  linked a b := a.val + 1 = b.val ∨ b.val + 1 = a.val
  symm := by decide
  irrefl := by decide
  registered := by decide

/-- The logarithms of one and two. -/
def lineLog (x : ℚ) : ℚ := if x = 2 then 6243314768165359 / 9007199254740992 else 0

/-- A tick of a node of the line. -/
def lineTick (node : Fin 3) (now : ℚ) (peers : List (Fin 3)) : Tick (Fin 3) :=
  ⟨node, now, peers, ⟨fun _ => now, now, fun _ _ => now⟩⟩

def lineRound (now : ℚ) : List (Tick (Fin 3)) :=
  [lineTick 0 now [1], lineTick 1 now [0, 2], lineTick 2 now [1]]

theorem converges_and_delivers_line :
    ∃ w, run (run (meshStep line lineLog)) newMesh [lineRound 6, lineRound 12] = some w ∧
      (∃ row, (w 0).routing.getBest 2 = some row ∧ row.cost = line.graph.dist 0 2 ∧
        line.graph.Adj 0 row.nextHop ∧
        line.graph.dist row.nextHop 2 + 1 = line.graph.dist 0 2) ∧
      (sendTo line w 0 2 "probe" 2 [1]).1 = true ∧
      (sendTo line w 0 2 "probe" 2 [1]).2.1 = [⟨2, 0, "probe"⟩] := by
  obtain ⟨w, hw⟩ : ∃ w,
      run (run (meshStep line lineLog)) newMesh [lineRound 6, lineRound 12] = some w :=
    Option.isSome_iff_exists.1 (by decide +kernel)
  have h₁ : line.graph.Adj 0 1 := rfl
  have h₂ : line.graph.Adj 1 2 := rfl
  have hdist : line.graph.dist 0 2 ≤ 2 := SimpleGraph.dist_le (.cons h₁ (.cons h₂ .nil))
  have hshort : ∀ x y, line.graph.Reachable x y → (line.graph.dist x y : ℤ) ≤ maxCost := by
    intro x y hreach
    obtain ⟨p, hp, hlen⟩ := hreach.exists_path_of_dist
    have hlt : p.length < 3 := hp.length_lt
    rw [← hlen, maxCost]
    omega
  obtain ⟨hbest, hsend⟩ := converges_and_delivers line lineLog [lineRound 6, lineRound 12] w
    (by decide) hshort hw (by decide +kernel) (by decide +kernel) 0 2 (by decide)
    (h₁.reachable.trans h₂.reachable) hdist
  have hpeers : ∀ n : Fin 3, n ∈ [1] ↔ line.linked 0 n = true := by decide
  exact ⟨w, hw, hbest, hsend "probe" 2 [1] (by exact_mod_cast hdist) hpeers⟩

end Routing
