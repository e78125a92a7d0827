/-
**The replicated mission state** (`vertex_swarm/state/replicated_state.py`,
`vertex_swarm/core/vertex_node.py`).

Every node keeps roles, a relay chain, victims and poses, and applies signed operations to them in
whatever order they come in.  A role, the chain and a pose are kept with the Lamport time and the
signer of the operation that set them, and an operation with a greater pair replaces them.  What a
slot holds in the end is decided by which operations were applied, and not by their order or by how
often they came.

Main definitions:

* `VertexSwarm.ReplicatedState`, with `setRole`, `setChain`, `addVictim`, `mergePose`;
* `VertexSwarm.ReplicatedState.applyStateInner` — an operation with its Lamport time and signer;
* `VertexSwarm.Slot`, `VertexSwarm.ReplicatedState.entry` — the places of the state that hold one
  write, and what they hold;
* `VertexSwarm.ReplicatedState.applied` — operations applied one after the other;
* `VertexSwarm.DeliveryOrder` — a list that brings each operation of a set, any number of times;
* `VertexSwarm.Same` — states with the same contents.

Main results:

* `VertexSwarm.tiebreak_iff` — the comparison is a linear order of the pairs;
* `VertexSwarm.ReplicatedState.entry_applyStateInner` — **an operation offers its write to its slot
  and leaves the others alone**;
* `VertexSwarm.ReplicatedState.entry_applied` — a slot is the register of the operations that write
  it;
* `VertexSwarm.replicated_state_converges` — **two delivery orders of the same operations lead to
  the same state.**
-/
import Endendend.Foundation.PyText
import Endendend.Foundation.OrderedMap
import Endendend.Foundation.LastWriter
import Mathlib.Data.Prod.Lex
import Mathlib.Data.Finset.Insert

set_option relaxedAutoImplicit false
set_option autoImplicit false

namespace VertexSwarm

open Py LastWriter
open Js (OrderedMap)

/-- The Lamport time of an operation and its signer. -/
abbrev Stamp := ℤ × Str

/-- Does `a` win over `b`: the higher Lamport time, then the greater signer. -/
def tiebreak (a b : Stamp) : Bool := if a.1 ≠ b.1 then a.1 > b.1 else a.2 > b.2

theorem tiebreak_iff {a b : Stamp} : tiebreak a b = true ↔ toLex b < toLex a := by
  rw [Prod.Lex.toLex_lt_toLex, tiebreak]
  split
  · next hne =>
      rw [decide_eq_true_eq]
      exact ⟨Or.inl, fun h => h.resolve_right fun heq => hne heq.1.symm⟩
  · next heq =>
      rw [not_not] at heq
      rw [decide_eq_true_eq]
      constructor
      · exact fun h => Or.inr ⟨heq.symm, h⟩
      · exact fun h => (h.resolve_left fun hlt => hlt.ne heq.symm).2

/-! ### The state -/

/-- The state of a node.  What is kept with a stamp is there together with its stamp. -/
structure ReplicatedState (Coord : Type*) where
  lamport : ℤ
  roles : OrderedMap Str Str
  roleMeta : OrderedMap Str Stamp
  chain : List Str
  chainMeta : Stamp
  victims : Finset Str
  heartbeat : OrderedMap Str ℚ
  poseGraph : OrderedMap Str (OrderedMap Str Coord)
  poseMeta : OrderedMap Str Stamp
  role_stamped : ∀ k, (roles.get? k).isSome = (roleMeta.get? k).isSome
  pose_stamped : ∀ k, (poseGraph.get? k).isSome = (poseMeta.get? k).isSome

/-- What an operation is about, and what it sets. -/
inductive Op (Coord : Type*)
  | role (droneId role : Str)
  | chain (order : List Str)
  | victim (tag : Str)
  | pose (droneId : Str) (xyz : OrderedMap Str Coord)
  | hb (nodeId : Str) (ts : ℚ)
  | kv
  deriving DecidableEq

/-- An operation as it is signed and sent. -/
structure Inner (Coord : Type*) where
  op : Op Coord
  lamport : ℤ
  signer : Str
  deriving DecidableEq

/-- By which operations are compared. -/
def Inner.stamp {Coord : Type*} (i : Inner Coord) : ℤ ×ₗ Str := toLex (i.lamport, i.signer)

namespace ReplicatedState

variable {Coord : Type*}

/-- The state of a node that starts. -/
def fresh : ReplicatedState Coord where
  lamport := 0
  roles := ∅
  roleMeta := ∅
  chain := []
  chainMeta := (0, Str.empty)
  victims := ∅
  heartbeat := ∅
  poseGraph := ∅
  poseMeta := ∅
  role_stamped _ := rfl
  pose_stamped _ := rfl

variable (s : ReplicatedState Coord)

def tickLamport (remote : ℤ) : ReplicatedState Coord :=
  { s with lamport := max s.lamport remote + 1 }

def setRole (droneId role : Str) (lamport : ℤ) (signerId : Str) : ReplicatedState Coord :=
  let cur := (s.roleMeta.get? droneId).getD (-1, Str.empty)
  let cand := (lamport, signerId)
  if tiebreak cand cur ∨ s.roles.get? droneId = none then
    { s with
      roles := s.roles.set droneId role
      roleMeta := s.roleMeta.set droneId cand
      role_stamped := OrderedMap.isSome_set s.role_stamped droneId role cand }
  else s

def setChain (ordered : List Str) (lamport : ℤ) (signerId : Str) : ReplicatedState Coord :=
  let cand := (lamport, signerId)
  if tiebreak cand s.chainMeta then { s with chain := ordered, chainMeta := cand } else s

def addVictim (tag : Str) : ReplicatedState Coord := { s with victims := insert tag s.victims }

/-- A node was heard of; a time of zero counts as none, and the clock shows `now`. -/
def heartbeatSeen (nodeId : Str) (ts now : ℚ) : ReplicatedState Coord :=
  { s with heartbeat := s.heartbeat.set nodeId (if ts ≠ 0 then ts else now) }

def mergePose (nodeId : Str) (xyz : OrderedMap Str Coord) (lamport : ℤ) (signerId : Str) :
    ReplicatedState Coord :=
  let cur := (s.poseMeta.get? nodeId).getD (-1, Str.empty)
  let cand := (lamport, signerId)
  if tiebreak cand cur then
    { s with
      poseGraph := s.poseGraph.set nodeId xyz
      poseMeta := s.poseMeta.set nodeId cand
      pose_stamped := OrderedMap.isSome_set s.pose_stamped nodeId xyz cand }
  else s

/-- Applies an operation, when the clock shows `now`. -/
def applyStateInner (inner : Inner Coord) (now : ℚ) : ReplicatedState Coord :=
  match inner.op with
  | .role droneId role => s.setRole droneId role inner.lamport inner.signer
  | .chain order => s.setChain order inner.lamport inner.signer
  | .victim tag => s.addVictim tag
  | .pose droneId xyz => s.mergePose droneId xyz inner.lamport inner.signer
  | .hb nodeId ts => s.heartbeatSeen nodeId ts now
  | .kv => s

end ReplicatedState

/-! ### Slots -/

/-- The places of the state that hold one write. -/
inductive Slot
  | role (droneId : Str)
  | chain
  | pose (droneId : Str)
  deriving DecidableEq

variable {Coord : Type*}

/-- The slot that an operation writes. -/
def Op.slot : Op Coord → Option Slot
  | .role droneId _ => some (.role droneId)
  | .chain _ => some .chain
  | .pose droneId _ => some (.pose droneId)
  | _ => none

namespace ReplicatedState

variable (s : ReplicatedState Coord)

/-- What a slot holds, as the operation that set it. -/
def entry : Slot → Option (Inner Coord)
  | .role k =>
    (s.roles.get? k).bind fun r => (s.roleMeta.get? k).map fun m => ⟨.role k r, m.1, m.2⟩
  | .chain => some ⟨.chain s.chain, s.chainMeta.1, s.chainMeta.2⟩
  | .pose k =>
    (s.poseGraph.get? k).bind fun p => (s.poseMeta.get? k).map fun m => ⟨.pose k p, m.1, m.2⟩

/-- A role, the chain or a pose is offered to its slot: the candidate replaces what is there exactly
if it wins over it. -/
theorem entry_setRole (k r : Str) (lamport : ℤ) (signer : Str) (slot : Slot) :
    (s.setRole k r lamport signer).entry slot =
      if slot = .role k then offer Inner.stamp false (s.entry slot) ⟨.role k r, lamport, signer⟩
      else s.entry slot := by
  split
  · next hslot =>
      subst hslot
      have hboth := s.role_stamped k
      cases hr : s.roles.get? k with
      | none =>
          rw [setRole, if_pos (Or.inr hr)]
          simp [entry, hr, offer]
      | some r' =>
          obtain ⟨m, hm⟩ := Option.isSome_iff_exists.1 (hboth.symm.trans (congrArg _ hr))
          have hentry : s.entry (.role k) = some ⟨.role k r', m.1, m.2⟩ := by simp [entry, hr, hm]
          simp only [setRole, hm, hr, Option.getD_some, tiebreak_iff, reduceCtorEq, or_false]
          rw [hentry, offer_some]
          simp only [Inner.stamp, Bool.false_eq_true, false_and, or_false]
          split
          · simp [entry]
          · exact hentry
  · next hslot =>
      rw [setRole]
      split
      · cases slot with
        | role k' =>
            have hne : k' ≠ k := fun heq => hslot (congrArg Slot.role heq)
            simp only [entry, OrderedMap.get?_set, if_neg hne]
        | chain => rfl
        | pose k' => rfl
      · rfl

theorem entry_setChain (order : List Str) (lamport : ℤ) (signer : Str) (slot : Slot) :
    (s.setChain order lamport signer).entry slot =
      if slot = .chain then offer Inner.stamp false (s.entry slot) ⟨.chain order, lamport, signer⟩
      else s.entry slot := by
  split
  · next hslot =>
      subst hslot
      rw [setChain]
      simp only [entry, offer_some, tiebreak_iff, Inner.stamp, Bool.false_eq_true, false_and,
        or_false]
      split <;> rfl
  · next hslot =>
      rw [setChain]
      split
      · cases slot with
        | role k => rfl
        | chain => exact absurd rfl hslot
        | pose k => rfl
      · rfl

/-- A first pose is only kept if its Lamport time is not negative. -/
theorem entry_mergePose (k : Str) (xyz : OrderedMap Str Coord) {lamport : ℤ} (h : 0 ≤ lamport)
    (signer : Str) (slot : Slot) :
    (s.mergePose k xyz lamport signer).entry slot =
      if slot = .pose k then offer Inner.stamp false (s.entry slot) ⟨.pose k xyz, lamport, signer⟩
      else s.entry slot := by
  split
  · next hslot =>
      subst hslot
      have hboth := s.pose_stamped k
      cases hm : s.poseMeta.get? k with
      | none =>
          have hnone : s.poseGraph.get? k = none := by
            rw [hm] at hboth
            exact Option.not_isSome_iff_eq_none.1 (by simp [hboth])
          have hwins : tiebreak (lamport, signer) (-1, Str.empty) = true := by
            rw [tiebreak_iff, Prod.Lex.toLex_lt_toLex]
            exact Or.inl (by simpa using Int.lt_of_lt_of_le (by decide) h)
          simp [mergePose, hm, hwins, entry, hnone, offer]
      | some m =>
          obtain ⟨p, hp⟩ := Option.isSome_iff_exists.1 (hboth.trans (congrArg _ hm))
          have hentry : s.entry (.pose k) = some ⟨.pose k p, m.1, m.2⟩ := by simp [entry, hp, hm]
          simp only [mergePose, hm, Option.getD_some, tiebreak_iff]
          rw [hentry, offer_some]
          simp only [Inner.stamp, Bool.false_eq_true, false_and, or_false]
          split
          · simp [entry]
          · exact hentry
  · next hslot =>
      rw [mergePose]
      split
      · cases slot with
        | role k' => rfl
        | chain => rfl
        | pose k' =>
            have hne : k' ≠ k := fun heq => hslot (congrArg Slot.pose heq)
            simp only [entry, OrderedMap.get?_set, if_neg hne]
      · rfl

/-- **An operation offers its write to its slot and leaves the others alone.** -/
theorem entry_applyStateInner {inner : Inner Coord} (h : 0 ≤ inner.lamport) (now : ℚ)
    (slot : Slot) :
    (s.applyStateInner inner now).entry slot =
      if inner.op.slot = some slot then offer Inner.stamp false (s.entry slot) inner
      else s.entry slot := by
  obtain ⟨op, lamport, signer⟩ := inner
  cases op with
  | role k r =>
      simp only [applyStateInner, entry_setRole, Op.slot, Option.some.injEq, eq_comm]
  | chain order =>
      simp only [applyStateInner, entry_setChain, Op.slot, Option.some.injEq, eq_comm]
  | victim tag => rfl
  | pose k xyz =>
      simp only [applyStateInner, entry_mergePose s k xyz h, Op.slot, Option.some.injEq, eq_comm]
  | hb nodeId ts => rfl
  | kv => rfl

/-- Only a victim operation adds a victim. -/
theorem mem_victims_applyStateInner (inner : Inner Coord) (now : ℚ) (tag : Str) :
    tag ∈ (s.applyStateInner inner now).victims ↔ inner.op = .victim tag ∨ tag ∈ s.victims := by
  obtain ⟨op, lamport, signer⟩ := inner
  cases op with
  | victim t =>
      simp only [applyStateInner, addVictim, Finset.mem_insert, Op.victim.injEq, eq_comm]
  | role k r =>
      simp only [applyStateInner, setRole, reduceCtorEq, false_or]
      split <;> rfl
  | chain order =>
      simp only [applyStateInner, setChain, reduceCtorEq, false_or]
      split <;> rfl
  | pose k xyz =>
      simp only [applyStateInner, mergePose, reduceCtorEq, false_or]
      split <;> rfl
  | hb nodeId ts => simp only [applyStateInner, heartbeatSeen, reduceCtorEq, false_or]
  | kv => simp only [applyStateInner, reduceCtorEq, false_or]

/-- It does not matter whether the clock ticks before an operation is applied or after. -/
theorem applyStateInner_tickLamport (remote : ℤ) (inner : Inner Coord) (now : ℚ) :
    (s.tickLamport remote).applyStateInner inner now =
      (s.applyStateInner inner now).tickLamport remote := by
  obtain ⟨op, lamport, signer⟩ := inner
  cases op with
  | role k r =>
      simp only [applyStateInner, setRole, tickLamport]
      split
      · next h => exact if_pos h
      · next h => exact if_neg h
  | chain order =>
      simp only [applyStateInner, setChain, tickLamport]
      split
      · next h => exact if_pos h
      · next h => exact if_neg h
  | pose k xyz =>
      simp only [applyStateInner, mergePose, tickLamport]
      split
      · next h => exact if_pos h
      · next h => exact if_neg h
  | victim tag => rfl
  | hb nodeId ts => rfl
  | kv => rfl

/-- Applying an operation does not move the Lamport clock. -/
@[simp] theorem lamport_applyStateInner (inner : Inner Coord) (now : ℚ) :
    (s.applyStateInner inner now).lamport = s.lamport := by
  obtain ⟨op, lamport, signer⟩ := inner
  cases op with
  | role k r =>
      simp only [applyStateInner, setRole]
      split <;> rfl
  | chain order =>
      simp only [applyStateInner, setChain]
      split <;> rfl
  | pose k xyz =>
      simp only [applyStateInner, mergePose]
      split <;> rfl
  | victim tag => rfl
  | hb nodeId ts => rfl
  | kv => rfl

end ReplicatedState

end VertexSwarm

namespace VertexSwarm

open Py LastWriter
open Js (OrderedMap)

variable {Coord : Type*}

/-! ### Operations one after the other -/

namespace ReplicatedState

/-- Applies operations in order, each with what the clock shows then. -/
def applied (s : ReplicatedState Coord) (l : List (Inner Coord × ℚ)) : ReplicatedState Coord :=
  l.foldl (fun s d => s.applyStateInner d.1 d.2) s

end ReplicatedState

/-- The operations of a list that write a slot. -/
def writes (slot : Slot) (l : List (Inner Coord × ℚ)) : List (Inner Coord) :=
  (l.map Prod.fst).filter fun i => i.op.slot = some slot

theorem mem_writes {slot : Slot} {l : List (Inner Coord × ℚ)} {i : Inner Coord} :
    i ∈ writes slot l ↔ i ∈ l.map Prod.fst ∧ i.op.slot = some slot := by
  rw [writes, List.mem_filter, decide_eq_true_eq]

theorem writes_cons (slot : Slot) (d : Inner Coord × ℚ) (l : List (Inner Coord × ℚ)) :
    writes slot (d :: l) =
      if d.1.op.slot = some slot then d.1 :: writes slot l else writes slot l := by
  rw [writes, List.map_cons, List.filter_cons]
  simp only [decide_eq_true_eq]
  rfl

namespace ReplicatedState

/-- **A slot is the register of the operations that write it.** -/
theorem entry_applied (s : ReplicatedState Coord) {l : List (Inner Coord × ℚ)}
    (h : ∀ d ∈ l, 0 ≤ d.1.lamport) (slot : Slot) :
    (s.applied l).entry slot =
      register Inner.stamp (fun _ => false) id (s.entry slot) (writes slot l) := by
  induction l generalizing s with
  | nil => rfl
  | cons d l ih =>
      obtain ⟨hd, hl⟩ := List.forall_mem_cons.1 h
      have hcons : s.applied (d :: l) = (s.applyStateInner d.1 d.2).applied l := rfl
      rw [hcons, ih _ hl, entry_applyStateInner s hd, writes_cons]
      split <;> rfl

theorem mem_victims_applied (s : ReplicatedState Coord) (l : List (Inner Coord × ℚ)) (tag : Str) :
    tag ∈ (s.applied l).victims ↔
      tag ∈ s.victims ∨ ∃ i ∈ l.map Prod.fst, i.op = .victim tag := by
  induction l generalizing s with
  | nil => simp [applied]
  | cons d l ih =>
      have hcons : s.applied (d :: l) = (s.applyStateInner d.1 d.2).applied l := rfl
      rw [hcons, ih, mem_victims_applyStateInner, List.map_cons, List.exists_mem_cons_iff, or_assoc,
        or_left_comm]

end ReplicatedState

/-! ### States with the same contents -/

/-- The same roles, chain, victims and poses, with the same stamps. -/
structure Same (s t : ReplicatedState Coord) : Prop where
  roles : ∀ k, s.roles.get? k = t.roles.get? k
  roleMeta : ∀ k, s.roleMeta.get? k = t.roleMeta.get? k
  chain : s.chain = t.chain
  chainMeta : s.chainMeta = t.chainMeta
  victims : s.victims = t.victims
  poseGraph : ∀ k, s.poseGraph.get? k = t.poseGraph.get? k
  poseMeta : ∀ k, s.poseMeta.get? k = t.poseMeta.get? k

/-- Two things that are there together are known from what is made of both. -/
theorem both_eq {α β γ : Type*} {f : α → β → γ}
    (hf : ∀ a a' b b', f a b = f a' b' → a = a' ∧ b = b') {x x' : Option α} {y y' : Option β}
    (h : x.isSome = y.isSome) (h' : x'.isSome = y'.isSome)
    (heq : (x.bind fun a => y.map (f a)) = x'.bind fun a => y'.map (f a)) : x = x' ∧ y = y' := by
  cases x with
  | none =>
      obtain rfl : y = none := by simpa using h.symm
      cases x' with
      | none => exact ⟨rfl, (by simpa using h'.symm : y' = none).symm⟩
      | some a' =>
          obtain ⟨b', rfl⟩ := Option.isSome_iff_exists.1 h'.symm
          cases heq
  | some a =>
      obtain ⟨b, rfl⟩ := Option.isSome_iff_exists.1 h.symm
      cases x' with
      | none => cases heq
      | some a' =>
          obtain ⟨b', rfl⟩ := Option.isSome_iff_exists.1 h'.symm
          obtain ⟨rfl, rfl⟩ := hf a a' b b' (Option.some.inj heq)
          exact ⟨rfl, rfl⟩

/-- **States with the same slots and victims are the same.** -/
theorem same_of_entry {s t : ReplicatedState Coord} (h : ∀ slot, s.entry slot = t.entry slot)
    (hv : s.victims = t.victims) : Same s t := by
  have hrole : ∀ k, s.roles.get? k = t.roles.get? k ∧ s.roleMeta.get? k = t.roleMeta.get? k := by
    intro k
    refine both_eq ?_ (s.role_stamped k) (t.role_stamped k) (h (.role k))
    rintro r r' ⟨l, g⟩ ⟨l', g'⟩ heq
    obtain ⟨hop, rfl, rfl⟩ := Inner.mk.inj heq
    exact ⟨(Op.role.inj hop).2, rfl⟩
  have hpose : ∀ k, s.poseGraph.get? k = t.poseGraph.get? k ∧
      s.poseMeta.get? k = t.poseMeta.get? k := by
    intro k
    refine both_eq ?_ (s.pose_stamped k) (t.pose_stamped k) (h (.pose k))
    rintro p p' ⟨l, g⟩ ⟨l', g'⟩ heq
    obtain ⟨hop, rfl, rfl⟩ := Inner.mk.inj heq
    exact ⟨(Op.pose.inj hop).2, rfl⟩
  obtain ⟨hchain, hl, hs⟩ := Inner.mk.inj (Option.some.inj (h .chain))
  exact
    { roles := fun k => (hrole k).1
      roleMeta := fun k => (hrole k).2
      chain := Op.chain.inj hchain
      chainMeta := Prod.ext hl hs
      victims := hv
      poseGraph := fun k => (hpose k).1
      poseMeta := fun k => (hpose k).2 }

/-! ### Convergence -/

/-- A list that brings each operation of a set, in any order and any number of times. -/
def DeliveryOrder (ops : Set (Inner Coord)) (l : List (Inner Coord × ℚ)) : Prop :=
  ∀ i, i ∈ l.map Prod.fst ↔ i ∈ ops

theorem DeliveryOrder.of_mem {ops : Set (Inner Coord)} {l : List (Inner Coord × ℚ)}
    (h : DeliveryOrder ops l) {d : Inner Coord × ℚ} (hd : d ∈ l) : d.1 ∈ ops :=
  (h d.1).1 (List.mem_map_of_mem hd)

/-- The stamp of an operation is its Lamport time with its signer. -/
theorem stamp_inj {i j : Inner Coord} :
    i.stamp = j.stamp ↔ i.lamport = j.lamport ∧ i.signer = j.signer := by
  rw [Inner.stamp, Inner.stamp, toLex_inj, Prod.mk.injEq]

/-- The one slot that holds something from the start has a stamp that no operation has. -/
theorem lamport_of_mem_fresh {slot : Slot} {i : Inner Coord}
    (h : i ∈ (ReplicatedState.fresh : ReplicatedState Coord).entry slot) : i.lamport = 0 := by
  cases slot with
  | role k => cases h
  | chain =>
      obtain rfl := Option.some.inj h
      rfl
  | pose k => cases h

/-- What a fresh state holds in a slot is the only write there without an operation. -/
theorem latest_unique {ops : Set (Inner Coord)} (hpos : ∀ i ∈ ops, 0 < i.lamport)
    (hid : ∀ i ∈ ops, ∀ j ∈ ops, i.lamport = j.lamport → i.signer = j.signer → i = j)
    {slot : Slot} {v w : Inner Coord}
    (hv : v ∈ (ReplicatedState.fresh : ReplicatedState Coord).entry slot ∨ v ∈ ops)
    (hw : w ∈ (ReplicatedState.fresh : ReplicatedState Coord).entry slot ∨ w ∈ ops)
    (h : v.stamp = w.stamp) : v = w := by
  obtain ⟨hl, hs⟩ := stamp_inj.1 h
  obtain hv | hv := hv <;> obtain hw | hw := hw
  · exact Option.mem_unique hv hw
  · have h₀ := lamport_of_mem_fresh hv
    have h₁ := hpos w hw
    omega
  · have h₀ := lamport_of_mem_fresh hw
    have h₁ := hpos v hv
    omega
  · exact hid v hv w hw hl hs

/-- **Two delivery orders of the same operations lead to the same state.** -/
theorem replicated_state_converges {ops : Set (Inner Coord)} (hpos : ∀ i ∈ ops, 0 < i.lamport)
    (hid : ∀ i ∈ ops, ∀ j ∈ ops, i.lamport = j.lamport → i.signer = j.signer → i = j)
    {l l' : List (Inner Coord × ℚ)} (hl : DeliveryOrder ops l) (hl' : DeliveryOrder ops l') :
    Same (ReplicatedState.fresh.applied l) (ReplicatedState.fresh.applied l') := by
  have hmem : ∀ {l : List (Inner Coord × ℚ)}, DeliveryOrder ops l → ∀ slot i,
      i ∈ (writes slot l).map id ↔ i ∈ ops ∧ i.op.slot = some slot := by
    intro l hl slot i
    rw [List.map_id, mem_writes, hl i]
  refine same_of_entry (fun slot => ?_) ?_
  · rw [ReplicatedState.entry_applied _ (fun d hd => (hpos _ (hl.of_mem hd)).le),
      ReplicatedState.entry_applied _ (fun d hd => (hpos _ (hl'.of_mem hd)).le)]
    refine register_congr (fun i => ?_) fun v w hv hw => ?_
    · rw [hmem hl, hmem hl']
    · have hin : ∀ x, Latest Inner.stamp {x | x ∈ ReplicatedState.fresh.entry slot ∨
          x ∈ (writes slot l).map id} x → x ∈ ReplicatedState.fresh.entry slot ∨ x ∈ ops := by
        intro x hx
        exact hx.1.imp_right fun h => ((hmem hl slot x).1 h).1
      exact latest_unique hpos hid (hin v hv) (hin w hw)
        (le_antisymm (hw.2 v hv.1) (hv.2 w hw.1))
  · ext tag
    rw [ReplicatedState.mem_victims_applied, ReplicatedState.mem_victims_applied]
    refine or_congr_right (exists_congr fun i => and_congr_left fun _ => ?_)
    rw [hl i, hl' i]

/-- Two nodes give a drone a role at the same Lamport time; the second state sees the two operations
in the other order, and one of them twice. -/
theorem replicated_state_converges_tie :
    let scout : Inner ℚ := ⟨.role ("d" : String) ("scout" : String), 1, ("a" : String)⟩
    let relay : Inner ℚ := ⟨.role ("d" : String) ("relay" : String), 1, ("b" : String)⟩
    Same (ReplicatedState.fresh.applied [(scout, 0), (relay, 1)])
      (ReplicatedState.fresh.applied [(relay, 0), (scout, 2), (relay, 5)]) := by
  intro scout relay
  have hne : scout.signer ≠ relay.signer := by decide
  refine @replicated_state_converges _ {i | i = scout ∨ i = relay} ?_ ?_ _ _ ?_ ?_
  · rintro i (rfl | rfl) <;> decide
  · rintro i (rfl | rfl) j (rfl | rfl) - hs
    · rfl
    · exact absurd hs hne
    · exact absurd hs.symm hne
    · rfl
  · intro i
    simp
  · intro i
    simp [or_comm]

end VertexSwarm
