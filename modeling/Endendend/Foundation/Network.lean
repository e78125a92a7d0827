/-
**Nodes with messages in flight.**

A network of nodes that send each other messages.  At every move a node acts on its own, or one of
the messages in flight reaches the node it is for; which of them, in which order, and how late, is
in the labels, so messages overtake one another freely.

Main definitions:

* `Network.Protocol` — what the nodes do at an event of their own and at a message;
* `Network.Protocol.step` — the moves of the whole network, for `Runs`;
* `Network.broadcast` — one copy of each message for each other node;
* `Network.arriving` — what is in flight to a node, read by a function of the messages.

Main results:

* `Network.Protocol.mem_inFlight_step`, `Network.Protocol.stays_in_flight` — where the messages in
  flight come from, and when they leave;
* `Network.Protocol.arriving_step` — **what is in flight to a node after a move, with what the move
  delivers to it, is what was in flight before and what the move sends**;
* `Network.arriving_broadcast` — a broadcast brings each message to every other node once.
-/
import Endendend.Foundation.Runs
import Mathlib.Data.List.Perm.Basic
import Mathlib.Logic.Function.Basic

set_option relaxedAutoImplicit false
set_option autoImplicit false

namespace Network

/-- A message on its way. -/
structure Envelope (ι μ : Type*) where
  sender : ι
  receiver : ι
  message : μ
  deriving DecidableEq

/-- The states of the nodes and the messages in flight. -/
structure World (ι σ μ : Type*) where
  nodes : ι → σ
  inFlight : List (Envelope ι μ)

/-- A node acts on an event of its own, or a message reaches its receiver, which makes a reading
while it handles it. -/
inductive Move (ι μ ω α : Type*)
  | act (node : ι) (event : ω)
  | deliver (envelope : Envelope ι μ) (reading : α)

/-- What the nodes do. -/
structure Protocol (ι σ μ ω α : Type*) where
  members : List ι
  act : ι → ω → σ → List (Envelope ι μ) × σ
  receive : Envelope ι μ → α → σ → List (Envelope ι μ) × σ

variable {ι σ μ ω α κ : Type*}

/-- The node at which a move is made. -/
def Move.node : Move ι μ ω α → ι
  | .act i _ => i
  | .deliver e _ => e.receiver

/-! ### Messages to a node -/

section Arriving

variable [DecidableEq ι]

/-- What an envelope brings to a node, read by `f`. -/
def brings (d : ι) (f : μ → Option κ) (e : Envelope ι μ) : Option κ :=
  if e.receiver = d then f e.message else none

/-- What some envelopes bring to a node, read by `f`. -/
def arriving (d : ι) (f : μ → Option κ) (l : List (Envelope ι μ)) : List κ :=
  l.filterMap (brings d f)

@[simp] theorem arriving_append (d : ι) (f : μ → Option κ) (l l' : List (Envelope ι μ)) :
    arriving d f (l ++ l') = arriving d f l ++ arriving d f l' := List.filterMap_append

theorem arriving_cons (d : ι) (f : μ → Option κ) (e : Envelope ι μ) (l : List (Envelope ι μ)) :
    arriving d f (e :: l) = (brings d f e).toList ++ arriving d f l := by
  rw [arriving, List.filterMap_cons]
  cases brings d f e <;> rfl

/-- Taking an envelope out takes out what it brings. -/
theorem arriving_erase [DecidableEq μ] (d : ι) (f : μ → Option κ) {l : List (Envelope ι μ)}
    {e : Envelope ι μ} (h : e ∈ l) :
    ((brings d f e).toList ++ arriving d f (l.erase e)).Perm (arriving d f l) := by
  rw [← arriving_cons]
  exact (List.perm_cons_erase h).symm.filterMap (brings d f)

/-- One copy of each message for each other node. -/
def broadcast (members : List ι) (sender : ι) (messages : List μ) : List (Envelope ι μ) :=
  messages.flatMap fun x => (members.filter (· ≠ sender)).map fun r => ⟨sender, r, x⟩

theorem mem_broadcast {members : List ι} {sender : ι} {messages : List μ} {e : Envelope ι μ} :
    e ∈ broadcast members sender messages ↔
      e.sender = sender ∧ e.receiver ≠ sender ∧ e.receiver ∈ members ∧ e.message ∈ messages := by
  obtain ⟨s, r, x⟩ := e
  simp only [broadcast, List.mem_flatMap, List.mem_map, List.mem_filter, decide_eq_true_eq,
    Envelope.mk.injEq]
  constructor
  · rintro ⟨y, hy, r', ⟨hr', hne⟩, rfl, rfl, rfl⟩
    exact ⟨rfl, hne, hr', hy⟩
  · rintro ⟨rfl, hne, hr, hx⟩
    exact ⟨x, hx, r, ⟨hr, hne⟩, rfl, rfl, rfl⟩

/-- One message, sent to nodes that are all different. -/
theorem arriving_map (d : ι) (f : μ → Option κ) (sender : ι) (x : μ) {l : List ι}
    (hl : l.Nodup) :
    arriving d f (l.map fun r => (⟨sender, r, x⟩ : Envelope ι μ)) =
      if d ∈ l then (f x).toList else [] := by
  induction l with
  | nil => rfl
  | cons r l ih =>
      obtain ⟨hr, hl⟩ := List.nodup_cons.1 hl
      rw [List.map_cons, arriving_cons, ih hl]
      by_cases hd : r = d
      · subst hd
        simp only [brings, if_true, if_neg hr, List.mem_cons, true_or, List.append_nil]
      · simp only [brings, if_neg hd, List.mem_cons, Ne.symm hd, false_or, Option.toList_none,
          List.nil_append]

/-- **A broadcast brings each message to every other node once.** -/
theorem arriving_broadcast (d : ι) (f : μ → Option κ) {members : List ι} (h : members.Nodup)
    (sender : ι) (messages : List μ) :
    arriving d f (broadcast members sender messages) =
      if d ∈ members ∧ d ≠ sender then messages.filterMap f else [] := by
  have hmem : d ∈ members.filter (· ≠ sender) ↔ d ∈ members ∧ d ≠ sender := by simp
  induction messages with
  | nil => simp [broadcast, arriving]
  | cons x messages ih =>
      have hcons : broadcast members sender (x :: messages) =
          ((members.filter (· ≠ sender)).map fun r => ⟨sender, r, x⟩) ++
            broadcast members sender messages := List.flatMap_cons
      rw [hcons, arriving_append, ih, arriving_map d f sender x (h.filter _), List.filterMap_cons]
      by_cases hd : d ∈ members ∧ d ≠ sender
      · rw [if_pos (hmem.2 hd), if_pos hd, if_pos hd]
        cases f x <;> rfl
      · rw [if_neg (fun hin => hd (hmem.1 hin)), if_neg hd, if_neg hd]
        rfl

end Arriving

/-! ### Moves of the network -/

namespace Protocol

variable (P : Protocol ι σ μ ω α)

/-- What the node of a move does. -/
def handle : Move ι μ ω α → σ → List (Envelope ι μ) × σ
  | .act i event, s => P.act i event s
  | .deliver e reading, s => P.receive e reading s

/-- What a move sends. -/
def sent (w : World ι σ μ) (mv : Move ι μ ω α) : List (Envelope ι μ) :=
  (P.handle mv (w.nodes mv.node)).1

/-- The state in which a move leaves its node. -/
def after (w : World ι σ μ) (mv : Move ι μ ω α) : σ := (P.handle mv (w.nodes mv.node)).2

/-- Nodes of the network act, and messages in flight are delivered. -/
def Enabled (w : World ι σ μ) : Move ι μ ω α → Prop
  | .act i _ => i ∈ P.members
  | .deliver e _ => e ∈ w.inFlight

variable [DecidableEq ι] [DecidableEq μ]

instance (w : World ι σ μ) (mv : Move ι μ ω α) : Decidable (P.Enabled w mv) := by
  cases mv <;> unfold Enabled <;> infer_instance

/-- What a move leaves of the messages in flight. -/
def left (w : World ι σ μ) : Move ι μ ω α → List (Envelope ι μ)
  | .act _ _ => w.inFlight
  | .deliver e _ => w.inFlight.erase e

/-- A move of the network. -/
def step (w : World ι σ μ) (mv : Move ι μ ω α) : Option (World ι σ μ) :=
  if P.Enabled w mv then
    some ⟨Function.update w.nodes mv.node (P.after w mv), left w mv ++ P.sent w mv⟩
  else none

variable {P} {w w' : World ι σ μ} {mv : Move ι μ ω α}

theorem step_eq_some : P.step w mv = some w' ↔ P.Enabled w mv ∧
    ⟨Function.update w.nodes mv.node (P.after w mv), left w mv ++ P.sent w mv⟩ = w' := by
  rw [step, Option.ite_none_right_eq_some, Option.some.injEq]

theorem nodes_step (h : P.step w mv = some w') : w'.nodes mv.node = P.after w mv := by
  rw [← (step_eq_some.1 h).2]
  exact Function.update_self _ _ _

theorem nodes_step_of_ne (h : P.step w mv = some w') {i : ι} (hi : i ≠ mv.node) :
    w'.nodes i = w.nodes i := by
  rw [← (step_eq_some.1 h).2]
  exact Function.update_of_ne hi _ _

theorem inFlight_step (h : P.step w mv = some w') : w'.inFlight = left w mv ++ P.sent w mv :=
  congrArg World.inFlight (step_eq_some.1 h).2.symm

theorem mem_of_mem_left {e : Envelope ι μ} (h : e ∈ left w mv) : e ∈ w.inFlight := by
  cases mv with
  | act i event => exact h
  | deliver e' reading => exact List.mem_of_mem_erase h

/-- A message in flight was in flight before, or it is sent by the move. -/
theorem mem_inFlight_step (h : P.step w mv = some w') {e : Envelope ι μ} (he : e ∈ w'.inFlight) :
    e ∈ w.inFlight ∨ e ∈ P.sent w mv := by
  rw [inFlight_step h, List.mem_append] at he
  exact he.imp_left mem_of_mem_left

/-- A message stays in flight until it is delivered. -/
theorem stays_in_flight (h : P.step w mv = some w') {e : Envelope ι μ} (he : e ∈ w.inFlight) :
    (∃ reading, mv = .deliver e reading) ∨ e ∈ w'.inFlight := by
  rw [inFlight_step h, List.mem_append]
  cases mv with
  | act i event => exact Or.inr (Or.inl he)
  | deliver e' reading =>
      by_cases hee : e = e'
      · exact Or.inl ⟨reading, by rw [hee]⟩
      · exact Or.inr (Or.inl ((List.mem_erase_of_ne hee).2 he))

theorem sent_mem_inFlight (h : P.step w mv = some w') {e : Envelope ι μ} (he : e ∈ P.sent w mv) :
    e ∈ w'.inFlight := by
  rw [inFlight_step h]
  exact List.mem_append_right _ he

/-- What a move delivers to a node, read by `f`. -/
def delivers (d : ι) (f : μ → Option κ) : Move ι μ ω α → Option κ
  | .act _ _ => none
  | .deliver e _ => brings d f e

/-- **What is in flight to a node after a move, with what the move delivers to it, is what was in
flight before and what the move sends.** -/
theorem arriving_step (h : P.step w mv = some w') (d : ι) (f : μ → Option κ) :
    ((delivers d f mv).toList ++ arriving d f w'.inFlight).Perm
      (arriving d f w.inFlight ++ arriving d f (P.sent w mv)) := by
  rw [inFlight_step h, arriving_append, ← List.append_assoc]
  refine List.Perm.append_right _ ?_
  cases mv with
  | act i event => exact List.Perm.refl _
  | deliver e reading => exact arriving_erase d f (step_eq_some.1 h).1

end Protocol

end Network
