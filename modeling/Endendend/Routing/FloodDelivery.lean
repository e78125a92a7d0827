/-
**Floods are delivered once, in turn.**

A node that gets a copy remembers the flood, so a copy that comes later is dropped.  This goes wrong
in three ways: the node that starts a flood does not remember it, and hands it to itself when a copy
comes back; a node that has forgotten a flood hands it to its application again; and a copy that is
dropped may have had more hops to go than the one that came before it.  A flood none of whose copies
meets with any of this reaches every node within its hops exactly once: a node has handed a copy, or
there is one on its way to it, with as many hops to go as a shortest path leaves.

Main definitions:

* `Routing.InTurn` — a move does nothing of the three to a flood;
* `Routing.Bound` — a node has handed a copy with some hops to go, or one is on its way to it;
* `Routing.Spreading` — the invariant of a flood.

Main results:

* `Routing.Bound.step` — a copy on its way that is delivered in turn is handed or has been;
* `Routing.Spreading.start`, `Routing.Spreading.step` — the invariant;
* `Routing.Spreading.handed_within` — when no copies are in flight, the nodes within the hops have
  handed one;
* `Routing.delivered_once_in_turn` — **a flood all of whose copies are delivered in turn is handed
  to every other application within its hops exactly once, and never to the one it comes from.**
-/
import Endendend.Routing.Flood
import Endendend.Foundation.GraphSearch

set_option relaxedAutoImplicit false
set_option autoImplicit false

namespace Routing

open Runs Network Network.Protocol

variable {Id α : Type*} [DecidableEq Id]

/-- A move that delivers a copy of a flood with hops to go delivers it to a node that the flood does
not come from and that, if it has handed a copy of the flood, remembers the flood and has handed one
with as many hops to go. -/
def InTurn (f : FloodId Id) (w : FloodWorld Id α) : FloodMove Id α → Prop
  | .act _ _ => True
  | .deliver e _ => e.message.floodId = f → 0 < e.message.ttl →
    e.receiver ≠ f.node ∧ ∀ c ∈ handedOf f (w.nodes e.receiver),
      f ∈ (w.nodes e.receiver).floodSeen ∧ e.message.ttl ≤ c.ttl

instance (f : FloodId Id) (w : FloodWorld Id α) (mv : FloodMove Id α) :
    Decidable (InTurn f w mv) := by
  cases mv <;> unfold InTurn <;> infer_instance

/-- A node has handed a copy of a flood with at least `t` hops to go. -/
def HandedWith (w : FloodWorld Id α) (f : FloodId Id) (d : Id) (t : ℤ) : Prop :=
  ∃ c ∈ handedOf f (w.nodes d), t ≤ c.ttl

/-- A node has handed a copy of a flood with at least `t` hops to go, or one is on its way to it. -/
def Bound (w : FloodWorld Id α) (f : FloodId Id) (d : Id) (t : ℤ) : Prop :=
  (∃ e ∈ w.inFlight, e.receiver = d ∧ e.message.floodId = f ∧ t ≤ e.message.ttl) ∨
    HandedWith w f d t

/-- What is true of a flood after it has been started. -/
structure Spreading (T : Topology Id) (φ : MeshFlood Id α) (w : FloodWorld Id α) : Prop where
  node : φ.floodId.node = φ.origin
  seq : φ.floodId.seq ≤ (w.nodes φ.origin).floodSeq
  body : ∀ c, Circulates w c → c.floodId = φ.floodId → c.origin = φ.origin ∧ c.inner = φ.inner
  sent : ∀ e ∈ w.inFlight, e.message.floodId = φ.floodId →
    e.sender = φ.origin ∨ HandedWith w φ.floodId e.sender e.message.ttl
  root : 0 < φ.ttl → ∀ n, T.graph.Adj φ.origin n → Bound w φ.floodId n φ.ttl
  relay : ∀ d, ∀ c ∈ handedOf φ.floodId (w.nodes d), 2 ≤ c.ttl → ∀ n, T.graph.Adj d n →
    n ≠ φ.origin → Bound w φ.floodId n (c.ttl - 1)
  once : ∀ d, (handedOf φ.floodId (w.nodes d)).length ≤ 1
  origin : ∀ n, T.graph.Adj φ.origin n → handedOf φ.floodId (w.nodes φ.origin) = []

section

variable {T : Topology Id} {φ : MeshFlood Id α} {w w' : FloodWorld Id α} {f : FloodId Id} {d : Id}
  {t : ℤ}

theorem mem_handedOf {s : FloodNode Id α} {c : MeshFlood Id α} :
    c ∈ handedOf f s ↔ c ∈ s.handed ∧ c.floodId = f := by
  rw [handedOf, List.mem_filter, decide_eq_true_eq]

theorem HandedWith.mono {t' : ℤ} (h : HandedWith w f d t) (hle : t' ≤ t) :
    HandedWith w f d t' := by
  obtain ⟨c, hc, ht⟩ := h
  exact ⟨c, hc, hle.trans ht⟩

/-! ### No copies in flight -/

/-- **When no copies are in flight, the nodes within the hops have handed one**, with as many hops
to go as a shortest path leaves. -/
theorem Spreading.handed_within (h : Spreading T φ w)
    (hquiet : ∀ e ∈ w.inFlight, e.message.floodId ≠ φ.floodId) {k : ℕ} (hne : d ≠ φ.origin)
    (hreach : T.graph.Reachable d φ.origin) (hk : T.graph.dist d φ.origin = k) (hle : k ≤ φ.ttl) :
    HandedWith w φ.floodId d (φ.ttl - k + 1) := by
  have hland {n : Id} {t : ℤ} (hn : Bound w φ.floodId n t) : HandedWith w φ.floodId n t := by
    rcases hn with ⟨e, he, -, hid, -⟩ | hn
    · exact absurd hid (hquiet e he)
    · exact hn
  induction k generalizing d with
  | zero =>
      have hpos := hreach.pos_dist_of_ne hne
      omega
  | succ k ih =>
      obtain ⟨z, hadj, hz, hdist⟩ := Hops.exists_closer hreach hne
      by_cases hzo : z = φ.origin
      · -- a neighbour of the node that has started the flood
        subst hzo
        rw [SimpleGraph.dist_self] at hdist
        refine (hland (h.root (by omega) d hadj.symm)).mono ?_
        push_cast
        omega
      · obtain ⟨c, hc, hct⟩ := ih hzo hz (by omega) (by omega)
        refine (hland (h.relay z c hc (by omega) d hadj.symm hne)).mono ?_
        push_cast
        omega

/-! ### One move -/

variable {mv : FloodMove Id α}

/-- A flood is not started again. -/
theorem Spreading.not_started (hφ : Spreading T φ w) {c : MeshFlood Id α}
    (hc : started w mv = some c) : c.floodId ≠ φ.floodId := by
  intro hid
  cases mv with
  | act i call =>
      obtain rfl := Option.some.inj hc
      have hnode : i = φ.origin := (congrArg FloodId.node hid).trans hφ.node
      have hseq : (w.nodes i).floodSeq + 1 = φ.floodId.seq := congrArg FloodId.seq hid
      have hle := hφ.seq
      rw [← hnode] at hle
      omega
  | deliver e r => cases hc

/-- A copy that is handed in turn is the first one at its node, which is not the one the flood comes
from. -/
theorem Spreading.first (hφ : Spreading T φ w) (hturn : InTurn φ.floodId w mv)
    {c : MeshFlood Id α} (hc : hands T w mv = some c) (hid : c.floodId = φ.floodId) :
    mv.node ≠ φ.origin ∧ handedOf φ.floodId (w.nodes mv.node) = [] ∧
      ∃ e r, mv = .deliver e r ∧ e.message = c := by
  cases mv with
  | act i call =>
      have hstart : started w (.act i call : FloodMove Id α) = some c :=
        (Option.ite_none_right_eq_some.1 hc).2
      exact absurd hid (hφ.not_started hstart)
  | deliver e r =>
      obtain ⟨hdrop, hsome⟩ := Option.ite_none_left_eq_some.1 hc
      obtain rfl := Option.some.inj hsome
      obtain ⟨hlive, hseen⟩ := not_or.1 hdrop
      obtain ⟨hnode, hcopies⟩ := hturn hid (not_le.1 hlive)
      refine ⟨hφ.node ▸ hnode, List.eq_nil_iff_forall_not_mem.2 fun c hc => ?_, e, r, rfl, rfl⟩
      exact hseen (hid ▸ (hcopies c hc).1)

variable [DecidableEq α]

/-- What a move hands of a flood to the applications. -/
theorem handedOf_step (h : (flooding T).step w mv = some w') (f : FloodId Id) (d : Id) :
    handedOf f (w'.nodes d) = handedOf f (w.nodes d) ++
      if d = mv.node then (hands T w mv).toList.filter (·.floodId = f) else [] := by
  rw [handedOf, handed_step h d, List.filter_append]
  split <;> rfl

theorem mem_handedOf_step (h : (flooding T).step w mv = some w') {c : MeshFlood Id α}
    (hc : c ∈ handedOf f (w'.nodes d)) :
    c ∈ handedOf f (w.nodes d) ∨ d = mv.node ∧ hands T w mv = some c ∧ c.floodId = f := by
  rw [handedOf_step h, List.mem_append] at hc
  refine hc.imp_right fun hc => ?_
  split at hc
  · next hd =>
      obtain ⟨hc, hid⟩ := List.mem_filter.1 hc
      exact ⟨hd, Option.mem_toList.1 hc, of_decide_eq_true hid⟩
  · cases hc

theorem HandedWith.step (h : (flooding T).step w mv = some w') (hd : HandedWith w f d t) :
    HandedWith w' f d t := by
  obtain ⟨c, hc, ht⟩ := hd
  exact ⟨c, handedOf_step h f d ▸ List.mem_append_left _ hc, ht⟩

/-- A copy that is handed to the application of its receiver. -/
theorem handedWith_of_hands (h : (flooding T).step w mv = some w') {c : MeshFlood Id α}
    (hc : hands T w mv = some c) : HandedWith w' c.floodId mv.node c.ttl := by
  refine ⟨c, ?_, le_rfl⟩
  rw [handedOf_step h, if_pos rfl, hc]
  exact List.mem_append_right _ (List.mem_filter.2 ⟨List.mem_cons_self, decide_eq_true rfl⟩)

/-- **A copy on its way that is delivered in turn is handed or has been**, with as many hops to
go. -/
theorem Bound.step (hw : Numbered w) (hturn : InTurn f w mv)
    (h : (flooding T).step w mv = some w') (ht : 0 < t) (hd : Bound w f d t) :
    Bound w' f d t := by
  rcases hd with ⟨e, he, rfl, hid, hle⟩ | hd
  · rcases stays_in_flight h he with ⟨r, rfl⟩ | he
    · refine Or.inr ?_
      obtain ⟨-, hcopies⟩ := hturn hid (ht.trans_le hle)
      by_cases hdrop : Dropped (w.nodes e.receiver) e.message
      · -- the flood is remembered, so a copy of it has been handed
        have hseen : f ∈ (w.nodes e.receiver).floodSeen :=
          hid ▸ hdrop.resolve_left (not_le.2 (ht.trans_le hle))
        obtain ⟨c, hc, hcf⟩ := hw.seen e.receiver f hseen
        have hc : c ∈ handedOf f (w.nodes e.receiver) := mem_handedOf.2 ⟨hc, hcf⟩
        exact HandedWith.step h ⟨c, hc, hle.trans (hcopies c hc).2⟩
      · have hhands : hands T w (.deliver e r) = some e.message := if_neg hdrop
        exact hid ▸ (handedWith_of_hands h hhands).mono hle
    · exact Or.inl ⟨e, he, rfl, hid, hle⟩
  · exact Or.inr (hd.step h)

/-! ### The invariant -/

/-- A flood that is started spreads. -/
theorem Spreading.start (hw : Numbered w) (h : (flooding T).step w mv = some w')
    (hstart : started w mv = some φ) : Spreading T φ w' := by
  cases mv with
  | deliver e r => cases hstart
  | act i call =>
      obtain rfl := Option.some.inj hstart
      -- there are no copies yet, as the number is new
      have hnew : ∀ c, Circulates w c → c.floodId ≠ ((w.nodes i).wrapped i call).floodId := by
        intro c hc hid
        have hle := hw.seq c hc
        rw [hid] at hle
        exact absurd hle (Nat.not_succ_le_self _)
      have hnone : ∀ d, handedOf ((w.nodes i).wrapped i call).floodId (w.nodes d) = [] := by
        intro d
        refine List.eq_nil_iff_forall_not_mem.2 fun c hc => ?_
        obtain ⟨hc, hid⟩ := mem_handedOf.1 hc
        exact hnew c (Or.inr ⟨d, hc⟩) hid
      have hself : ∀ n, T.graph.Adj i n → ∀ d,
          handedOf ((w.nodes i).wrapped i call).floodId (w'.nodes d) = [] := by
        intro n hadj d
        have hpeers : T.neighbors i ≠ [] := List.ne_nil_of_mem (Topology.mem_neighbors.2 hadj)
        have hhands : hands T w (.act i call) = none := if_neg hpeers
        rw [handedOf_step h, hnone, hhands]
        split <;> rfl
      exact
        { node := rfl
          seq := by
            rw [floodSeq_step h, if_pos ⟨rfl, rfl⟩]
            rfl
          body := by
            intro c hc hid
            rcases circulates_step h hc with ⟨c₀, hc₀, hid₀, -⟩ | hstart
            · exact absurd (hid₀.trans hid) (hnew c₀ hc₀)
            · obtain rfl := Option.some.inj hstart
              exact ⟨rfl, rfl⟩
          sent := by
            intro e he hid
            rcases mem_inFlight_step h he with he | he
            · exact absurd hid (hnew e.message (Or.inl ⟨e, he, rfl⟩))
            · obtain ⟨n, -, rfl⟩ := mem_sent_act.1 he
              exact Or.inl rfl
          root := by
            intro _ n hadj
            exact Or.inl ⟨_, sent_mem_inFlight h (mem_sent_act.2 ⟨n, hadj, rfl⟩), rfl, rfl, le_rfl⟩
          relay := by
            intro d c hc _ n hadj
            rcases mem_handedOf_step h hc with hc | ⟨hd, -, -⟩
            · rw [hnone] at hc
              cases hc
            · obtain rfl : d = i := hd
              rw [hself n hadj] at hc
              cases hc
          once := by
            intro d
            rw [handedOf_step h, hnone, List.nil_append]
            split
            · refine (List.length_filter_le _ _).trans ?_
              cases hands T w (.act i call) <;> simp
            · exact Nat.zero_le 1
          origin := fun n hadj => hself n hadj i }

/-- **Moves in turn keep the invariant of a flood.** -/
theorem Spreading.step (hφ : Spreading T φ w) (hw : Numbered w) (hturn : InTurn φ.floodId w mv)
    (h : (flooding T).step w mv = some w') : Spreading T φ w' where
  node := hφ.node
  seq := by
    have hseq := floodSeq_step h φ.origin
    have hle := hφ.seq
    omega
  body c hc hid := by
    rcases circulates_step h hc with ⟨c₀, hc₀, hid₀, horigin, hinner⟩ | hstart
    · rw [← horigin, ← hinner]
      exact hφ.body c₀ hc₀ (hid₀.trans hid)
    · exact absurd hid (hφ.not_started hstart)
  sent e he hid := by
    rcases mem_inFlight_step h he with he | he
    · exact (hφ.sent e he hid).imp_right fun hd => hd.step h
    · cases mv with
      | act i call =>
          obtain ⟨n, -, rfl⟩ := mem_sent_act.1 he
          have hstart : started w (.act i call : FloodMove Id α) =
              some ((w.nodes i).wrapped i call) := rfl
          exact absurd hid (hφ.not_started hstart)
      | deliver e₀ r =>
          obtain ⟨hdrop, -, n, -, -, rfl⟩ := mem_sent_deliver.1 he
          have hhands : hands T w (.deliver e₀ r) = some e₀.message := if_neg hdrop
          exact Or.inr (hid ▸ (handedWith_of_hands h hhands).mono (sub_le_self _ zero_le_one))
  root hpos n hadj := (hφ.root hpos n hadj).step hw hturn h hpos
  relay d c hc hmore n hadj hne := by
    rcases mem_handedOf_step h hc with hc | ⟨rfl, hhands, hid⟩
    · exact (hφ.relay d c hc hmore n hadj hne).step hw hturn h (by omega)
    · obtain ⟨-, -, e, r, rfl, rfl⟩ := hφ.first hturn hhands hid
      by_cases hsender : n = e.sender
      · -- the sender has handed a copy itself
        have hsent := hφ.sent e (step_eq_some.1 h).1 hid
        have hd := hsent.resolve_left fun horigin => hne (hsender.trans horigin)
        exact Or.inr (hsender ▸ (hd.step h).mono (sub_le_self _ zero_le_one))
      · have hdrop := (Option.ite_none_left_eq_some.1 hhands).1
        exact Or.inl ⟨_, sent_mem_inFlight h
          (mem_sent_deliver.2 ⟨hdrop, hmore, n, hadj, hsender, rfl⟩), rfl, hid, le_rfl⟩
  once d := by
    rw [handedOf_step h, List.length_append]
    split
    · next hd =>
        cases hhands : hands T w mv with
        | none => exact hφ.once d
        | some c =>
            by_cases hid : c.floodId = φ.floodId
            · rw [hd, (hφ.first hturn hhands hid).2.1, List.length_nil, Nat.zero_add]
              exact List.length_filter_le _ _
            · have hother : (some c).toList.filter (·.floodId = φ.floodId) = [] :=
                List.filter_eq_nil_iff.2 fun c' hc' => by
                  obtain rfl := List.mem_singleton.1 hc'
                  exact fun hid' => hid (of_decide_eq_true hid')
              rw [hother]
              exact hφ.once d
    · exact hφ.once d
  origin n hadj := by
    refine List.eq_nil_iff_forall_not_mem.2 fun c hc => ?_
    rcases mem_handedOf_step h hc with hc | ⟨hd, hhands, hid⟩
    · rw [hφ.origin n hadj] at hc
      cases hc
    · exact (hφ.first hturn hhands hid).1 hd.symm

end

variable [DecidableEq α]

/-- What every run in turn comes to. -/
theorem spreading_of_run {T : Topology Id} {φ : MeshFlood Id α} {moves : List (FloodMove Id α)}
    {w : FloodWorld Id α} (hrun : run (flooding T).step noFloods moves = some w)
    (hturn : Along (flooding T).step (InTurn φ.floodId) noFloods moves) :
    Numbered w ∧ (φ ∈ emitted (flooding T).step started noFloods moves → Spreading T φ w) := by
  refine invariant_of_history (I := fun moves w =>
    Along (flooding T).step (InTurn φ.floodId) noFloods moves →
    Numbered w ∧ (φ ∈ emitted (flooding T).step started noFloods moves → Spreading T φ w))
    (fun _ => ⟨numbered_noFloods, fun hφ => (by cases hφ)⟩) ?_ hrun hturn
  intro moves mv w₁ w₂ hrun₁ ih hstep hturn
  obtain ⟨hturns, hturn⟩ := (along_concat hrun₁).1 hturn
  obtain ⟨hw, hspread⟩ := ih hturns
  refine ⟨hw.step hstep, fun hφ => ?_⟩
  rw [emitted_concat started mv hrun₁, List.mem_append] at hφ
  rcases hφ with hφ | hφ
  · exact (hspread hφ).step hw hturn hstep
  · exact Spreading.start hw hstep (Option.mem_toList.1 hφ)

/-- **A flood all of whose copies are delivered in turn is handed to every other application within
its hops exactly once**, when its copies have arrived, and never to the application of the node that
it comes from, if that has neighbours. -/
theorem delivered_once_in_turn (T : Topology Id) (moves : List (FloodMove Id α))
    (w : FloodWorld Id α) (φ : MeshFlood Id α)
    (hrun : run (flooding T).step noFloods moves = some w)
    (hφ : φ ∈ emitted (flooding T).step started noFloods moves)
    (hturn : Along (flooding T).step (InTurn φ.floodId) noFloods moves) :
    ((∃ n, T.graph.Adj φ.origin n) → handedOf φ.floodId (w.nodes φ.origin) = []) ∧
      (∀ d, (handedOf φ.floodId (w.nodes d)).length ≤ 1) ∧
      ((∀ e ∈ w.inFlight, e.message.floodId ≠ φ.floodId) → ∀ d, d ≠ φ.origin →
        T.graph.Reachable φ.origin d → (T.graph.dist φ.origin d : ℤ) ≤ φ.ttl →
        ∃ c, handedOf φ.floodId (w.nodes d) = [c] ∧ c.origin = φ.origin ∧ c.inner = φ.inner) := by
  have hspread : Spreading T φ w := (spreading_of_run hrun hturn).2 hφ
  refine ⟨fun ⟨n, hadj⟩ => hspread.origin n hadj, hspread.once, ?_⟩
  intro hquiet d hne hreach hle
  rw [SimpleGraph.dist_comm] at hle
  obtain ⟨c, hc, -⟩ := hspread.handed_within hquiet hne hreach.symm rfl hle
  obtain ⟨c', hone⟩ : ∃ c', handedOf φ.floodId (w.nodes d) = [c'] :=
    List.length_eq_one_iff.1 (le_antisymm (hspread.once d) (List.length_pos_of_mem hc))
  rw [hone, List.mem_singleton] at hc
  subst hc
  obtain ⟨hhanded, hid⟩ := mem_handedOf.1 (hone ▸ List.mem_singleton_self c)
  exact ⟨c, hone, hspread.body c (Or.inr ⟨d, hhanded⟩) hid⟩

/-! ### Floods over four nodes -/

/-- Three nodes that are linked to each other, and one more behind the last of them. -/
def kite : Topology (Fin 4) where
  ids := [0, 1, 2, 3]
  nodup := by decide
  linked a b := a ≠ b ∧ (a ≠ 3 ∧ b ≠ 3 ∨ a = 2 ∨ b = 2)
  symm := by decide
  irrefl := by decide
  registered := by decide

/-- A copy of the flood of the first node. -/
def wave (ttl : ℤ) : MeshFlood (Fin 4) String := ⟨⟨0, 1, 7⟩, ttl, 0, "WAVE"⟩

/-- The first node starts the flood. -/
def startWave (ttl : ℤ) : FloodMove (Fin 4) String := .act 0 ⟨"WAVE", ttl, 7⟩

def deliverWave (sender receiver : Fin 4) (ttl : ℤ) : FloodMove (Fin 4) String :=
  .deliver ⟨sender, receiver, wave ttl⟩ ()

theorem delivered_once_kite :
    ∃ w, run (flooding kite).step noFloods [startWave 3, deliverWave 0 1 3, deliverWave 0 2 3,
        deliverWave 1 2 2, deliverWave 2 1 2, deliverWave 2 3 2] = some w ∧
      handedOf (wave 3).floodId (w.nodes 0) = [] ∧
      ∃ c, handedOf (wave 3).floodId (w.nodes 3) = [c] ∧ c.inner = "WAVE" := by
  obtain ⟨w, hw⟩ : ∃ w, run (flooding kite).step noFloods [startWave 3, deliverWave 0 1 3,
      deliverWave 0 2 3, deliverWave 1 2 2, deliverWave 2 1 2, deliverWave 2 3 2] = some w :=
    Option.isSome_iff_exists.1 (by decide +kernel)
  have h₁ : kite.graph.Adj 0 2 := rfl
  have h₂ : kite.graph.Adj 2 3 := rfl
  have hdist : kite.graph.dist 0 3 ≤ 2 := SimpleGraph.dist_le (.cons h₁ (.cons h₂ .nil))
  obtain ⟨horigin, -, hall⟩ := delivered_once_in_turn kite _ w (wave 3) hw (by decide +kernel)
    (by decide +kernel)
  have hquiet : ∀ w ∈ run (flooding kite).step noFloods [startWave 3, deliverWave 0 1 3,
      deliverWave 0 2 3, deliverWave 1 2 2, deliverWave 2 1 2, deliverWave 2 3 2],
      ∀ e ∈ w.inFlight, e.message.floodId ≠ (wave 3).floodId := by decide +kernel
  obtain ⟨c, hc, -, hinner⟩ := hall (hquiet w hw) 3 (by decide)
    (h₁.reachable.trans h₂.reachable) ((Int.ofNat_le.2 hdist).trans (by decide))
  exact ⟨w, hw, horigin ⟨2, rfl⟩, c, hc, hinner⟩

/-- The first node hands its own flood to itself when a copy comes back to it; and when the copy
with one hop less to go comes first to the third node, the last node never gets the flood, although
it is within the hops. -/
theorem wave_comes_back_or_stops :
    (∃ w, run (flooding kite).step noFloods [startWave 3, deliverWave 0 1 3, deliverWave 1 2 2,
        deliverWave 2 0 1, deliverWave 2 3 1, deliverWave 0 2 3] = some w ∧ w.inFlight = [] ∧
      kite.graph.Adj 0 1 ∧ handedOf (wave 3).floodId (w.nodes 0) = [wave 1]) ∧
    ∃ w, run (flooding kite).step noFloods [startWave 2, deliverWave 0 1 2, deliverWave 1 2 1,
        deliverWave 0 2 2] = some w ∧ w.inFlight = [] ∧
      kite.graph.Reachable 0 3 ∧ kite.graph.dist 0 3 ≤ 2 ∧
      handedOf (wave 2).floodId (w.nodes 3) = [] := by
  have h₁ : kite.graph.Adj 0 2 := rfl
  have h₂ : kite.graph.Adj 2 3 := rfl
  constructor
  · obtain ⟨w, hw⟩ : ∃ w, run (flooding kite).step noFloods [startWave 3, deliverWave 0 1 3,
        deliverWave 1 2 2, deliverWave 2 0 1, deliverWave 2 3 1, deliverWave 0 2 3] = some w :=
      Option.isSome_iff_exists.1 (by decide +kernel)
    have hend : ∀ w ∈ run (flooding kite).step noFloods [startWave 3, deliverWave 0 1 3,
        deliverWave 1 2 2, deliverWave 2 0 1, deliverWave 2 3 1, deliverWave 0 2 3],
        w.inFlight = [] ∧ handedOf (wave 3).floodId (w.nodes 0) = [wave 1] := by decide +kernel
    exact ⟨w, hw, (hend w hw).1, rfl, (hend w hw).2⟩
  · obtain ⟨w, hw⟩ : ∃ w, run (flooding kite).step noFloods [startWave 2, deliverWave 0 1 2,
        deliverWave 1 2 1, deliverWave 0 2 2] = some w :=
      Option.isSome_iff_exists.1 (by decide +kernel)
    have hend : ∀ w ∈ run (flooding kite).step noFloods [startWave 2, deliverWave 0 1 2,
        deliverWave 1 2 1, deliverWave 0 2 2],
        w.inFlight = [] ∧ handedOf (wave 2).floodId (w.nodes 3) = [] := by decide +kernel
    exact ⟨w, hw, (hend w hw).1, h₁.reachable.trans h₂.reachable,
      SimpleGraph.dist_le (.cons h₁ (.cons h₂ .nil)), (hend w hw).2⟩

end Routing
