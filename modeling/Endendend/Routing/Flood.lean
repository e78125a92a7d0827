/-
**Floods over a mesh** (`mesh_flood` and `_handle_flood` of `swarm/vertex_node.py`).

A node sends a message to all its neighbours.  A node that gets it hands it to its application and
passes it on to its other neighbours with one hop less to go, unless it remembers the flood; what
it remembers is thrown away when it is too much.

Main definitions:

* `Routing.MeshFlood` — a copy of a flooded message;
* `Routing.FloodNode`, with `meshFlood` and `handleFlood`;
* `Routing.flooding` — the nodes of a mesh as a network;
* `Routing.started` — the flood that a move starts.

Main results:

* `Routing.handleFlood_cases` — a copy is dropped, or handed to the application and passed on;
* `Routing.handed_step`, `Routing.mem_sent_act` — **what a move hands to an application, and what a
  call sends**;
* `Routing.Numbered.step` — every copy belongs to a flood that has been started, under its number.
-/
import Endendend.Routing.Topology
import Endendend.Foundation.Network
import Mathlib.Data.Finset.Insert
import Mathlib.Data.Finset.Card

set_option relaxedAutoImplicit false
set_option autoImplicit false

namespace Routing

open Network Network.Protocol

/-- The name of a flood, `node:seq:rand`; from the text, too, all three can be read off, as there
are no colons in numbers. -/
structure FloodId (Id : Type*) where
  node : Id
  seq : ℕ
  rand : ℕ
  deriving DecidableEq

/-- A copy of a flooded message; `ttl` counts the hops to go, the one under way among them. -/
structure MeshFlood (Id α : Type*) where
  floodId : FloodId Id
  ttl : ℤ
  origin : Id
  inner : α
  deriving DecidableEq

/-- What a node has of floods, and the copies that it has handed to its application. -/
structure FloodNode (Id α : Type*) where
  floodSeq : ℕ
  floodSeen : Finset (FloodId Id)
  handed : List (MeshFlood Id α)

/-- A message to flood, with the number that is drawn for its name. -/
structure FloodCall (α : Type*) where
  inner : α
  ttl : ℤ
  rand : ℕ

/-- The number of floods that a node remembers at most. -/
def maxFloodIds : ℕ := 4000

variable {Id α : Type*}

namespace FloodNode

/-- A node that has not seen any flood. -/
def new : FloodNode Id α := ⟨0, ∅, []⟩

variable (s : FloodNode Id α)

/-- The message that a node is about to flood. -/
def wrapped (node : Id) (call : FloodCall α) : MeshFlood Id α :=
  ⟨⟨node, s.floodSeq + 1, call.rand⟩, call.ttl, node, call.inner⟩

/-- Floods a message; a node without neighbours hands it to itself. -/
def meshFlood (peers : List Id) (node : Id) (call : FloodCall α) :
    List (Envelope Id (MeshFlood Id α)) × FloodNode Id α :=
  let copy := s.wrapped node call
  let s := { s with floodSeq := s.floodSeq + 1 }
  if peers.isEmpty then ([], { s with handed := s.handed ++ [copy] })
  else (peers.map fun n => ⟨node, n, copy⟩, s)

variable [DecidableEq Id]

/-- Hands a copy to the application, and passes it on to all neighbours but the sender. -/
def handleFlood (peers : List Id) (e : Envelope Id (MeshFlood Id α)) :
    List (Envelope Id (MeshFlood Id α)) × FloodNode Id α :=
  let copy := e.message
  if copy.ttl ≤ 0 then ([], s)
  else if copy.floodId ∈ s.floodSeen then ([], s)
  else
    let seen := if s.floodSeen.card ≥ maxFloodIds then ∅ else s.floodSeen
    let s := { s with floodSeen := insert copy.floodId seen, handed := s.handed ++ [copy] }
    if copy.ttl ≤ 1 then ([], s)
    else ((peers.filter (· ≠ e.sender)).map fun n =>
      ⟨e.receiver, n, { copy with ttl := copy.ttl - 1 }⟩, s)

end FloodNode

/-- The copies of a flood that a node has handed to its application. -/
def handedOf [DecidableEq Id] (f : FloodId Id) (s : FloodNode Id α) : List (MeshFlood Id α) :=
  s.handed.filter (·.floodId = f)

/-- The nodes with the copies in flight. -/
abbrev FloodWorld (Id α : Type*) := World Id (FloodNode Id α) (MeshFlood Id α)

/-- A node floods a message, or a copy arrives. -/
abbrev FloodMove (Id α : Type*) := Move Id (MeshFlood Id α) (FloodCall α) Unit

/-- The nodes before the first flood. -/
def noFloods : FloodWorld Id α := ⟨fun _ => .new, []⟩

/-- The nodes of a mesh. -/
def flooding [DecidableEq Id] (T : Topology Id) :
    Protocol Id (FloodNode Id α) (MeshFlood Id α) (FloodCall α) Unit where
  members := T.ids
  act i call s := s.meshFlood (T.neighbors i) i call
  receive e _ s := s.handleFlood (T.neighbors e.receiver) e

/-- The flood that a move starts. -/
def started (w : FloodWorld Id α) : FloodMove Id α → Option (MeshFlood Id α)
  | .act i call => some ((w.nodes i).wrapped i call)
  | .deliver _ _ => none

/-! ### One call -/

/-- A node that floods a message hands it to itself if it has no neighbours, and otherwise sends a
copy to each of them. -/
theorem meshFlood_cases (s : FloodNode Id α) (peers : List Id) (node : Id) (call : FloodCall α) :
    (s.meshFlood peers node call).2.floodSeq = s.floodSeq + 1 ∧
      (s.meshFlood peers node call).2.floodSeen = s.floodSeen ∧
      (s.meshFlood peers node call).2.handed =
        s.handed ++ (if peers = [] then [s.wrapped node call] else []) ∧
      (s.meshFlood peers node call).1 = peers.map fun n => ⟨node, n, s.wrapped node call⟩ := by
  unfold FloodNode.meshFlood
  cases peers with
  | nil => exact ⟨rfl, rfl, rfl, rfl⟩
  | cons n peers => exact ⟨rfl, rfl, (List.append_nil _).symm, rfl⟩

/-! ### Copies in circulation -/

/-- A copy is in flight, or it has been handed to an application. -/
def Circulates (w : FloodWorld Id α) (c : MeshFlood Id α) : Prop :=
  (∃ e ∈ w.inFlight, e.message = c) ∨ ∃ d, c ∈ (w.nodes d).handed

/-- The floods of which there are copies have been numbered, and those that are remembered have been
handed to the application. -/
structure Numbered (w : FloodWorld Id α) : Prop where
  seq : ∀ c, Circulates w c → c.floodId.seq ≤ (w.nodes c.floodId.node).floodSeq
  seen : ∀ d, ∀ f ∈ (w.nodes d).floodSeen, ∃ c ∈ (w.nodes d).handed, c.floodId = f

theorem numbered_noFloods : Numbered (noFloods : FloodWorld Id α) where
  seq c hc := by
    rcases hc with ⟨e, he, -⟩ | ⟨d, hc⟩
    · cases he
    · cases hc
  seen d f hf := by cases hf

/-! ### One copy -/

variable [DecidableEq Id]

/-- A copy is dropped if it has no hops to go or its flood is remembered. -/
def Dropped (s : FloodNode Id α) (copy : MeshFlood Id α) : Prop :=
  copy.ttl ≤ 0 ∨ copy.floodId ∈ s.floodSeen

instance (s : FloodNode Id α) (copy : MeshFlood Id α) : Decidable (Dropped s copy) := by
  unfold Dropped
  infer_instance

/-- **A copy is dropped, or handed to the application and passed on.** -/
theorem handleFlood_cases (s : FloodNode Id α) (peers : List Id)
    (e : Envelope Id (MeshFlood Id α)) :
    Dropped s e.message ∧ s.handleFlood peers e = ([], s) ∨
      ¬ Dropped s e.message ∧ (s.handleFlood peers e).2.handed = s.handed ++ [e.message] ∧
        (s.handleFlood peers e).2.floodSeq = s.floodSeq ∧
        (∀ f ∈ (s.handleFlood peers e).2.floodSeen, f = e.message.floodId ∨ f ∈ s.floodSeen) ∧
        ∀ x, x ∈ (s.handleFlood peers e).1 ↔ 2 ≤ e.message.ttl ∧ ∃ n ∈ peers, n ≠ e.sender ∧
          x = ⟨e.receiver, n, { e.message with ttl := e.message.ttl - 1 }⟩ := by
  unfold FloodNode.handleFlood
  dsimp only
  split
  · next hdead => exact Or.inl ⟨Or.inl hdead, rfl⟩
  · next hlive =>
      split
      · next hseen => exact Or.inl ⟨Or.inr hseen, rfl⟩
      · next hseen =>
          have hkept : ∀ f ∈ insert e.message.floodId
              (if s.floodSeen.card ≥ maxFloodIds then ∅ else s.floodSeen),
              f = e.message.floodId ∨ f ∈ s.floodSeen := by
            intro f hf
            refine (Finset.mem_insert.1 hf).imp_right fun hf => ?_
            split at hf
            · cases hf
            · exact hf
          refine Or.inr ⟨not_or.2 ⟨hlive, hseen⟩, ?_⟩
          split
          · next hlast =>
              refine ⟨rfl, rfl, hkept, fun x => ⟨fun hx => (by cases hx), fun hx => ?_⟩⟩
              omega
          · next hmore =>
              refine ⟨rfl, rfl, hkept, fun x => ?_⟩
              rw [List.mem_map]
              constructor
              · rintro ⟨n, hn, rfl⟩
                obtain ⟨hn, hne⟩ := List.mem_filter.1 hn
                exact ⟨by omega, n, hn, of_decide_eq_true hne, rfl⟩
              · rintro ⟨-, n, hn, hne, rfl⟩
                exact ⟨n, List.mem_filter.2 ⟨hn, decide_eq_true hne⟩, rfl⟩

/-! ### One move -/

/-- What a move hands to the application of its node. -/
def hands (T : Topology Id) (w : FloodWorld Id α) : FloodMove Id α → Option (MeshFlood Id α)
  | .act i call => if T.neighbors i = [] then some ((w.nodes i).wrapped i call) else none
  | .deliver e _ => if Dropped (w.nodes e.receiver) e.message then none else some e.message

variable {T : Topology Id} {w w' : FloodWorld Id α} {mv : FloodMove Id α} {d : Id}

/-- **What a node sends that floods a message.** -/
theorem mem_sent_act {i : Id} {call : FloodCall α} {e : Envelope Id (MeshFlood Id α)} :
    e ∈ (flooding T).sent w (.act i call) ↔
      ∃ n, T.graph.Adj i n ∧ e = ⟨i, n, (w.nodes i).wrapped i call⟩ := by
  have hsent : (flooding T).sent w (.act i call) =
      (T.neighbors i).map fun n => ⟨i, n, (w.nodes i).wrapped i call⟩ :=
    (meshFlood_cases (w.nodes i) (T.neighbors i) i call).2.2.2
  rw [hsent, List.mem_map]
  simp only [Topology.mem_neighbors, eq_comm]

/-- **What a node passes on.** -/
theorem mem_sent_deliver {e x : Envelope Id (MeshFlood Id α)} {r : Unit} :
    x ∈ (flooding T).sent w (.deliver e r) ↔
      ¬ Dropped (w.nodes e.receiver) e.message ∧ 2 ≤ e.message.ttl ∧
        ∃ n, T.graph.Adj e.receiver n ∧ n ≠ e.sender ∧
          x = ⟨e.receiver, n, { e.message with ttl := e.message.ttl - 1 }⟩ := by
  simp only [← Topology.mem_neighbors]
  rcases handleFlood_cases (w.nodes e.receiver) (T.neighbors e.receiver) e with
    ⟨hdrop, heq⟩ | ⟨hdrop, -, -, -, hsent⟩
  · have hnone : (flooding T).sent w (.deliver e r) = [] := congrArg Prod.fst heq
    rw [hnone]
    exact ⟨fun hx => (by cases hx), fun hx => absurd hdrop hx.1⟩
  · exact (hsent x).trans (and_iff_right hdrop).symm

variable [DecidableEq α]

/-- **What a move hands to the applications.** -/
theorem handed_step (h : (flooding T).step w mv = some w') (d : Id) :
    (w'.nodes d).handed =
      (w.nodes d).handed ++ if d = mv.node then (hands T w mv).toList else [] := by
  split
  · next hd =>
      subst hd
      rw [nodes_step h]
      cases mv with
      | act i call =>
          refine (meshFlood_cases (w.nodes i) (T.neighbors i) i call).2.2.1.trans ?_
          rw [hands]
          split <;> rfl
      | deliver e r =>
          rw [hands]
          rcases handleFlood_cases (w.nodes e.receiver) (T.neighbors e.receiver) e with
            ⟨hdrop, heq⟩ | ⟨hdrop, hhanded, -⟩
          · rw [if_pos hdrop]
            exact (congrArg (fun r => r.2.handed) heq).trans (List.append_nil _).symm
          · rw [if_neg hdrop]
            exact hhanded
  · next hd => rw [nodes_step_of_ne h hd, List.append_nil]

/-- A flood that is remembered has been remembered, or it is handed to the application. -/
theorem seen_step (h : (flooding T).step w mv = some w') {f : FloodId Id}
    (hf : f ∈ (w'.nodes d).floodSeen) :
    f ∈ (w.nodes d).floodSeen ∨ d = mv.node ∧ ∃ c, hands T w mv = some c ∧ c.floodId = f := by
  by_cases hd : d = mv.node
  · subst hd
    rw [nodes_step h] at hf
    cases mv with
    | act i call =>
        exact Or.inl ((meshFlood_cases (w.nodes i) (T.neighbors i) i call).2.1 ▸ hf)
    | deliver e r =>
        rcases handleFlood_cases (w.nodes e.receiver) (T.neighbors e.receiver) e with
          ⟨-, heq⟩ | ⟨hdrop, -, -, hkept, -⟩
        · exact Or.inl ((congrArg (fun r => r.2.floodSeen) heq) ▸ hf)
        · rcases hkept f hf with rfl | hf
          · exact Or.inr ⟨rfl, e.message, if_neg hdrop, rfl⟩
          · exact Or.inl hf
  · rw [nodes_step_of_ne h hd] at hf
    exact Or.inl hf

/-- Flooding a message takes the next number. -/
theorem floodSeq_step (h : (flooding T).step w mv = some w') (d : Id) :
    (w'.nodes d).floodSeq = (w.nodes d).floodSeq +
      if d = mv.node ∧ (started w mv).isSome then 1 else 0 := by
  by_cases hd : d = mv.node
  · subst hd
    rw [nodes_step h]
    cases mv with
    | act i call =>
        rw [if_pos ⟨rfl, rfl⟩]
        exact (meshFlood_cases (w.nodes i) (T.neighbors i) i call).1
    | deliver e r =>
        rw [if_neg fun hstart => Bool.false_ne_true hstart.2]
        rcases handleFlood_cases (w.nodes e.receiver) (T.neighbors e.receiver) e with
          ⟨-, heq⟩ | ⟨-, -, hseq, -⟩
        · exact congrArg (fun r => r.2.floodSeq) heq
        · exact hseq
  · rw [nodes_step_of_ne h hd, if_neg fun hnode => hd hnode.1]
    rfl

/-- **A copy belongs to a flood of which there was a copy before, or to one that is started.** -/
theorem circulates_step (h : (flooding T).step w mv = some w') {c : MeshFlood Id α}
    (hc : Circulates w' c) :
    (∃ c₀, Circulates w c₀ ∧ c₀.floodId = c.floodId ∧ c₀.origin = c.origin ∧
      c₀.inner = c.inner) ∨ started w mv = some c := by
  rcases hc with ⟨e, he, rfl⟩ | ⟨d, hc⟩
  · rcases mem_inFlight_step h he with he | he
    · exact Or.inl ⟨e.message, Or.inl ⟨e, he, rfl⟩, rfl, rfl, rfl⟩
    · cases mv with
      | act i call =>
          obtain ⟨n, -, rfl⟩ := mem_sent_act.1 he
          exact Or.inr rfl
      | deliver e₀ r =>
          obtain ⟨-, -, n, -, -, rfl⟩ := mem_sent_deliver.1 he
          exact Or.inl ⟨e₀.message, Or.inl ⟨e₀, (step_eq_some.1 h).1, rfl⟩, rfl, rfl, rfl⟩
  · rw [handed_step h d, List.mem_append] at hc
    rcases hc with hc | hc
    · exact Or.inl ⟨c, Or.inr ⟨d, hc⟩, rfl, rfl, rfl⟩
    · split at hc
      · cases mv with
        | act i call =>
            rw [Option.mem_toList, hands, Option.ite_none_right_eq_some] at hc
            exact Or.inr hc.2
        | deliver e₀ r =>
            rw [Option.mem_toList, hands, Option.ite_none_left_eq_some] at hc
            obtain rfl := Option.some.inj hc.2
            exact Or.inl ⟨e₀.message, Or.inl ⟨e₀, (step_eq_some.1 h).1, rfl⟩, rfl, rfl, rfl⟩
      · cases hc

theorem Numbered.step (hw : Numbered w) (h : (flooding T).step w mv = some w') : Numbered w' where
  seq c hc := by
    have hseq := floodSeq_step h c.floodId.node
    rcases circulates_step h hc with ⟨c₀, hc₀, hid, -⟩ | hstart
    · have hle := hw.seq c₀ hc₀
      rw [hid] at hle
      omega
    · cases mv with
      | act i call =>
          obtain rfl := Option.some.inj hstart
          rw [hseq, if_pos ⟨rfl, rfl⟩]
          rfl
      | deliver e r => cases hstart
  seen d f hf := by
    have hhanded := handed_step h d
    rcases seen_step h hf with hf | ⟨hd, c, hc, hcf⟩
    · obtain ⟨c, hc, hcf⟩ := hw.seen d f hf
      exact ⟨c, hhanded ▸ List.mem_append_left _ hc, hcf⟩
    · rw [if_pos hd, hc] at hhanded
      exact ⟨c, hhanded ▸ List.mem_append_right _ List.mem_cons_self, hcf⟩

end Routing
