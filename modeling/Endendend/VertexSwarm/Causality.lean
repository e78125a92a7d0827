/-
**Writing after reading.**

A node that submits an event stamps it with its own Lamport clock.  The clock counts the events that
the node has submitted itself: handling an event of another node does not move it.  So an event may
be stamped below the one that its node has just applied, and then nobody ever sees it.

Main definitions:

* `VertexSwarm.SwarmSigner` — signatures with the secret that the nodes share;
* `VertexSwarm.submitEvent`, `VertexSwarm.onVertexMessage` — the two entries of a node;
* `VertexSwarm.step` — a swarm, with any message delivered to any node any number of times;
* `VertexSwarm.Causal` — what a node submits replaces what it had applied before, wherever both
  arrive;
* `VertexSwarm.Outstamps` — the next stamp of a node wins over the stamp that it keeps.

Main results:

* `VertexSwarm.entry_run` — a slot of a node is the register of the operations it has applied;
* `VertexSwarm.verified_of_sent` — a message that was sent is applied wherever it arrives;
* `VertexSwarm.causal_iff_outstamps` — **events replace what their nodes had applied, all along a
  run, exactly if each is stamped above what its node keeps in the slot.**
-/
import Endendend.VertexSwarm.ReplicatedState
import Endendend.Foundation.Runs
import Mathlib.Logic.Function.Basic

set_option relaxedAutoImplicit false
set_option autoImplicit false

namespace VertexSwarm

open Py Runs LastWriter
open Js (OrderedMap)

/-! ### Nodes and their messages -/

/-- Signatures with a shared secret: what is signed with it is accepted. -/
structure SwarmSigner (Coord Sig : Type*) where
  sign : Inner Coord → Sig
  verify : Inner Coord → Sig → Bool
  verify_sign : ∀ payload, verify payload (sign payload) = true

/-- A message that carries a signed operation. -/
structure StateMessage (Coord Sig : Type*) where
  payload : Inner Coord
  signature : Sig
  deriving DecidableEq

variable {Coord Sig : Type*} (S : SwarmSigner Coord Sig)

/-- The operation that a node makes of its next event. -/
def nextInner (nodeId : Str) (s : ReplicatedState Coord) (op : Op Coord) : Inner Coord :=
  ⟨op, (s.tickLamport 0).lamport, nodeId⟩

/-- A node publishes an operation, and applies it itself. -/
def submitEvent (nodeId : Str) (s : ReplicatedState Coord) (op : Op Coord) (now : ℚ) :
    ReplicatedState Coord × StateMessage Coord Sig :=
  let inner := nextInner nodeId s op
  ((s.tickLamport 0).applyStateInner inner now, ⟨inner, S.sign inner⟩)

/-- A message of another node is applied if its signature is right. -/
def onVertexMessage (s : ReplicatedState Coord) (msg : StateMessage Coord Sig) (now : ℚ) :
    ReplicatedState Coord :=
  if S.verify msg.payload msg.signature then s.applyStateInner msg.payload now else s

theorem lamport_onVertexMessage (s : ReplicatedState Coord) (msg : StateMessage Coord Sig)
    (now : ℚ) : (onVertexMessage S s msg now).lamport = s.lamport := by
  rw [onVertexMessage]
  split
  · exact ReplicatedState.lamport_applyStateInner s msg.payload now
  · rfl

theorem lamport_nextInner {s : ReplicatedState Coord} (h : 0 ≤ s.lamport) (b : Str)
    (op : Op Coord) : (nextInner b s op).lamport = s.lamport + 1 :=
  congrArg (· + 1) (max_eq_left h)

theorem lamport_le_of_stamp_le {i j : Inner Coord} (h : i.stamp ≤ j.stamp) :
    i.lamport ≤ j.lamport := by
  obtain h | h := Prod.Lex.toLex_le_toLex.1 h
  · exact h.le
  · exact h.1.le

theorem stamp_nextInner {s : ReplicatedState Coord} (h : 0 ≤ s.lamport) (b : Str)
    (op : Op Coord) : (nextInner b s op).stamp = toLex (s.lamport + 1, b) := by
  rw [Inner.stamp, lamport_nextInner h]
  rfl

/-- What a node keeps when it has submitted an operation. -/
theorem entry_submitEvent {s : ReplicatedState Coord} (h : 0 ≤ s.lamport) (b : Str) {op : Op Coord}
    (now : ℚ) {slot : Slot} (hslot : op.slot = some slot) :
    (submitEvent S b s op now).1.entry slot =
      offer Inner.stamp false (s.entry slot) (nextInner b s op) := by
  have hpos : 0 ≤ (nextInner b s op).lamport := by
    rw [lamport_nextInner h]
    omega
  exact (ReplicatedState.entry_applyStateInner _ hpos now slot).trans (if_pos hslot)

/-! ### The swarm -/

/-- The states of the nodes, and every message sent so far. -/
structure Swarm (Coord Sig : Type*) where
  nodes : Str → ReplicatedState Coord
  sent : List (StateMessage Coord Sig)

/-- A node submits an event, or a message that was sent reaches a node, once more or for the first
time. -/
inductive Move (Coord Sig : Type*)
  | submit (node : Str) (op : Op Coord) (now : ℚ)
  | deliver (node : Str) (msg : StateMessage Coord Sig) (now : ℚ)

/-- The swarm before its first event. -/
def newSwarm : Swarm Coord Sig := ⟨fun _ => .fresh, []⟩

section Step

variable [DecidableEq Coord] [DecidableEq Sig]

def step (w : Swarm Coord Sig) : Move Coord Sig → Option (Swarm Coord Sig)
  | .submit b op now =>
    let r := submitEvent S b (w.nodes b) op now
    some ⟨Function.update w.nodes b r.1, w.sent ++ [r.2]⟩
  | .deliver c msg now =>
    if msg ∈ w.sent then
      some ⟨Function.update w.nodes c (onVertexMessage S (w.nodes c) msg now), w.sent⟩
    else none

/-- What a node applies in a move, and what the clock shows then. -/
def applies (c : Str) (w : Swarm Coord Sig) : Move Coord Sig → Option (Inner Coord × ℚ)
  | .submit b op now => if b = c then some (nextInner b (w.nodes b) op, now) else none
  | .deliver d msg now =>
    if d = c ∧ S.verify msg.payload msg.signature then some (msg.payload, now) else none

/-- What a node has applied in a run. -/
def appliedBy (c : Str) (ls : List (Move Coord Sig)) : List (Inner Coord × ℚ) :=
  emitted (step S) (applies S c) newSwarm ls

/-! ### What the nodes keep -/

variable {S} {w w' : Swarm Coord Sig}

theorem nodes_step {mv : Move Coord Sig} (h : step S w mv = some w') (c : Str) (slot : Slot) :
    (w'.nodes c).entry slot =
      ((w.nodes c).applied (applies S c w mv).toList).entry slot := by
  cases mv with
  | submit b op now =>
      obtain rfl := Option.some.inj h
      by_cases hc : b = c
      · subst hc
        simp only [Function.update_self, applies, if_pos, submitEvent]
        rw [ReplicatedState.applyStateInner_tickLamport]
        rfl
      · simp only [Function.update_of_ne (Ne.symm hc), applies, if_neg hc]
        rfl
  | deliver d msg now =>
      obtain ⟨-, heq⟩ := Option.ite_none_right_eq_some.1 h
      obtain rfl := Option.some.inj heq
      by_cases hc : d = c
      · subst hc
        simp only [Function.update_self, onVertexMessage, applies, true_and]
        split <;> rfl
      · simp only [Function.update_of_ne (Ne.symm hc), applies, hc, false_and, if_false]
        rfl

/-- Clocks only tick, and every message is stamped with a clock that has ticked. -/
structure Ticked (w : Swarm Coord Sig) : Prop where
  clocks : ∀ c, 0 ≤ (w.nodes c).lamport
  stamps : ∀ msg ∈ w.sent, 0 < msg.payload.lamport

theorem Ticked.step {mv : Move Coord Sig} (hw : Ticked w) (h : step S w mv = some w') :
    Ticked w' := by
  cases mv with
  | submit b op now =>
      obtain rfl := Option.some.inj h
      have hnext := lamport_nextInner (hw.clocks b) b op
      have hb := hw.clocks b
      refine ⟨fun c => ?_, fun msg hmsg => ?_⟩
      · by_cases hc : c = b
        · subst hc
          simp only [Function.update_self, submitEvent, ReplicatedState.lamport_applyStateInner,
            ReplicatedState.tickLamport]
          omega
        · simpa only [Function.update_of_ne hc] using hw.clocks c
      · obtain hmsg | hmsg := List.mem_append.1 hmsg
        · exact hw.stamps msg hmsg
        · obtain rfl := List.mem_singleton.1 hmsg
          change 0 < (nextInner b (w.nodes b) op).lamport
          omega
  | deliver d msg now =>
      obtain ⟨-, heq⟩ := Option.ite_none_right_eq_some.1 h
      obtain rfl := Option.some.inj heq
      refine ⟨fun c => ?_, hw.stamps⟩
      by_cases hc : c = d
      · subst hc
        simpa only [Function.update_self, lamport_onVertexMessage] using hw.clocks c
      · simpa only [Function.update_of_ne hc] using hw.clocks c

theorem ticked_run {ls : List (Move Coord Sig)}
    (h : run (VertexSwarm.step S) newSwarm ls = some w) : Ticked w :=
  invariant_of_run (fun _ _ _ hw hs => hw.step hs) ⟨fun _ => le_rfl, fun _ hm => by cases hm⟩ h

/-- What a node applies in a move has a positive Lamport time. -/
theorem lamport_applies {mv : Move Coord Sig} (hw : Ticked w)
    (h : VertexSwarm.step S w mv = some w') {c : Str} {d : Inner Coord × ℚ}
    (hd : d ∈ applies S c w mv) : 0 < d.1.lamport := by
  cases mv with
  | submit b op now =>
      obtain ⟨rfl, heq⟩ := Option.ite_none_right_eq_some.1 hd
      obtain rfl := Option.some.inj heq
      have hnext := lamport_nextInner (hw.clocks b) b op
      have hb := hw.clocks b
      change 0 < (nextInner b (w.nodes b) op).lamport
      omega
  | deliver e msg now =>
      obtain ⟨-, heq⟩ := Option.ite_none_right_eq_some.1 hd
      obtain rfl := Option.some.inj heq
      exact hw.stamps msg (Option.ite_none_right_eq_some.1 h).1

theorem appliedBy_concat {ls : List (Move Coord Sig)} {mv : Move Coord Sig} (c : Str)
    (h : run (VertexSwarm.step S) newSwarm ls = some w) :
    appliedBy S c (ls ++ [mv]) = appliedBy S c ls ++ (applies S c w mv).toList :=
  emitted_concat (applies S c) mv h

/-- **A slot of a node is the register of the operations it has applied.** -/
theorem entry_run {ls : List (Move Coord Sig)} (h : run (VertexSwarm.step S) newSwarm ls = some w)
    (c : Str) (slot : Slot) :
    (w.nodes c).entry slot = register Inner.stamp (fun _ => false) id
      ((.fresh : ReplicatedState Coord).entry slot) (writes slot (appliedBy S c ls)) := by
  refine invariant_of_history
    (I := fun ls w => (w.nodes c).entry slot = register Inner.stamp (fun _ => false) id
      ((.fresh : ReplicatedState Coord).entry slot) (writes slot (appliedBy S c ls))) rfl ?_ h
  intro ls mv w₁ w₂ h₁ ih hs
  have hpos : ∀ d ∈ (applies S c w₁ mv).toList, 0 ≤ d.1.lamport := by
    intro d hd
    exact (lamport_applies (ticked_run h₁) hs (Option.mem_toList.1 hd)).le
  rw [nodes_step hs, appliedBy_concat c h₁, ReplicatedState.entry_applied _ hpos, ih, writes,
    writes, writes, List.map_append, List.filter_append]
  exact List.foldl_append.symm

/-- What a node keeps in a slot wins over whatever it has applied there, or is it. -/
theorem exists_entry_of_applied {ls : List (Move Coord Sig)}
    (h : run (VertexSwarm.step S) newSwarm ls = some w) {c : Str} {slot : Slot} {u : Inner Coord}
    (hu : u ∈ (appliedBy S c ls).map Prod.fst) (hslot : u.op.slot = some slot) :
    ∃ v, (w.nodes c).entry slot = some v ∧ u.stamp ≤ v.stamp := by
  have hmem : u ∈ (writes slot (appliedBy S c ls)).map id := by
    rw [List.map_id]
    exact mem_writes.2 ⟨hu, hslot⟩
  have hentry := entry_run h c slot
  have hne : writes slot (appliedBy S c ls) ≠ [] := fun hnil => by simp [hnil] at hmem
  obtain ⟨v, hv⟩ := Option.isSome_iff_exists.1 (hentry ▸ isSome_register (Or.inr hne))
  exact ⟨v, hv, (latest_register (hentry.symm.trans hv)).2 u (Or.inr hmem)⟩

/-- What a node keeps in a slot is something it has applied, or the chain of the start. -/
theorem applied_of_entry {ls : List (Move Coord Sig)}
    (h : run (VertexSwarm.step S) newSwarm ls = some w) {c : Str} {slot : Slot} {v : Inner Coord}
    (hv : (w.nodes c).entry slot = some v) (hpos : 0 < v.lamport) :
    v ∈ (appliedBy S c ls).map Prod.fst ∧ v.op.slot = some slot := by
  obtain hv | hv := (latest_register ((entry_run h c slot).symm.trans hv)).1
  · exact absurd (lamport_of_mem_fresh hv) hpos.ne'
  · rw [List.map_id] at hv
    exact mem_writes.1 hv

/-! ### Signatures -/

/-- **A message that was sent is applied wherever it arrives.** -/
theorem verified_of_sent {ls : List (Move Coord Sig)}
    (h : run (VertexSwarm.step S) newSwarm ls = some w) {msg : StateMessage Coord Sig}
    (hmsg : msg ∈ w.sent) (s : ReplicatedState Coord) (now : ℚ) :
    onVertexMessage S s msg now = s.applyStateInner msg.payload now := by
  have hsigned : ∀ msg ∈ w.sent, msg.signature = S.sign msg.payload := by
    refine invariant_of_run
      (I := fun w => ∀ msg ∈ w.sent, msg.signature = S.sign msg.payload) ?_ (by simp [newSwarm]) h
    intro w₁ mv w₂ hw hs
    cases mv with
    | submit b op now =>
        obtain rfl := Option.some.inj hs
        intro msg hmsg
        obtain hmsg | hmsg := List.mem_append.1 hmsg
        · exact hw msg hmsg
        · obtain rfl := List.mem_singleton.1 hmsg
          rfl
    | deliver d msg now =>
        obtain ⟨-, heq⟩ := Option.ite_none_right_eq_some.1 hs
        obtain rfl := Option.some.inj heq
        exact hw
  rw [onVertexMessage, hsigned msg hmsg, if_pos (S.verify_sign _)]

/-! ### Causality -/

/-- In a slot an operation stands in the place of an earlier one: it is there, or what is there wins
over it, and the earlier one is not there. -/
def Replaced (s : ReplicatedState Coord) (slot : Slot) (earlier new : Inner Coord) : Prop :=
  ∃ v, s.entry slot = some v ∧ v ≠ earlier ∧ new.stamp ≤ v.stamp

/-- When a node submits an operation for a slot where it has applied an earlier one, the new
operation is what it keeps then, and replaces the earlier one at every node that has applied
both. -/
def Causal (S : SwarmSigner Coord Sig) (ls : List (Move Coord Sig)) : Prop :=
  ∀ pre b op now post w₀ w slot earlier, ls = pre ++ .submit b op now :: post →
    run (VertexSwarm.step S) newSwarm pre = some w₀ →
    run (VertexSwarm.step S) newSwarm ls = some w → op.slot = some slot →
    earlier ∈ (appliedBy S b pre).map Prod.fst → earlier.op.slot = some slot →
    (submitEvent S b (w₀.nodes b) op now).1.entry slot = some (nextInner b (w₀.nodes b) op) ∧
    ∀ c, earlier ∈ (appliedBy S c ls).map Prod.fst →
      nextInner b (w₀.nodes b) op ∈ (appliedBy S c ls).map Prod.fst →
      Replaced (w.nodes c) slot earlier (nextInner b (w₀.nodes b) op)

/-- An event is stamped above what its node keeps in the slot. -/
def Outstamps (w : Swarm Coord Sig) : Move Coord Sig → Prop
  | .submit b op _ => ∀ slot ∈ op.slot, ∀ v ∈ (w.nodes b).entry slot,
      v.stamp < toLex ((w.nodes b).lamport + 1, b)
  | .deliver _ _ _ => True

/-- **Events replace what their nodes had applied, all along a run, exactly if each is stamped above
what its node keeps in the slot.** -/
theorem causal_iff_outstamps (S : SwarmSigner Coord Sig) (ls : List (Move Coord Sig)) :
    (∀ p, p <+: ls → Causal S p) ↔ Along (VertexSwarm.step S) Outstamps newSwarm ls := by
  rw [along_iff_forall_split]
  constructor
  · intro h pre mv post w₀ hsplit hpre
    cases mv with
    | deliver d msg now => trivial
    | submit b op now =>
        intro slot hslot v hv
        have hclock := (ticked_run hpre).clocks b
        by_contra hlow
        rw [← stamp_nextInner hclock b op, not_lt] at hlow
        have hpos : 0 < v.lamport := by
          have hle := lamport_le_of_stamp_le hlow
          rw [lamport_nextInner hclock] at hle
          omega
        -- what is kept then was applied before, and it is still kept after the event
        obtain ⟨hmem, hvslot⟩ := applied_of_entry hpre hv hpos
        have hprefix : pre ++ [.submit b op now] <+: ls := ⟨post, by simp [hsplit]⟩
        have hrun : run (VertexSwarm.step S) newSwarm (pre ++ [.submit b op now]) =
            some ⟨Function.update w₀.nodes b (submitEvent S b (w₀.nodes b) op now).1,
              w₀.sent ++ [(submitEvent S b (w₀.nodes b) op now).2]⟩ :=
          run_concat.2 ⟨w₀, hpre, rfl⟩
        have happlied := @appliedBy_concat _ _ S _ _ _ _ (.submit b op now) b hpre
        obtain ⟨-, hreplaced⟩ := h _ hprefix pre b op now [] w₀ _ slot v rfl hpre hrun hslot hmem
          hvslot
        obtain ⟨v', hv', hne, -⟩ := hreplaced b (by simp [happlied, hmem])
          (by simp [happlied, applies])
        simp only [Function.update_self] at hv'
        rw [entry_submitEvent S hclock b now hslot, hv, offer_of_le hlow] at hv'
        exact hne (Option.some.inj hv').symm
  · rintro h p ⟨rest, rfl⟩ pre b op now post w₀ w slot earlier rfl hpre hrun hslot hearlier hsame
    have hclock := (ticked_run hpre).clocks b
    obtain ⟨v₀, hv₀, hle₀⟩ := exists_entry_of_applied hpre hearlier hsame
    have hlt : v₀.stamp < (nextInner b (w₀.nodes b) op).stamp := by
      rw [stamp_nextInner hclock]
      exact h pre (.submit b op now) (post ++ rest) w₀ (by simp) hpre slot hslot v₀ hv₀
    constructor
    · rw [entry_submitEvent S hclock b now hslot, hv₀, offer_of_lt hlt]
    · intro c _ hnew
      obtain ⟨v, hv, hle⟩ := exists_entry_of_applied hrun hnew hslot
      refine ⟨v, hv, ?_, hle⟩
      rintro rfl
      exact absurd (hlt.trans_le hle) (not_lt.2 hle₀)

/-- A secret with which an operation is its own signature. -/
def plainSigner : SwarmSigner ℚ (Inner ℚ) where
  sign i := i
  verify i j := i = j
  verify_sign _ := decide_eq_true rfl

/-- Node `a` gives a drone one role and then another; node `b` applies the second one. -/
def roleFromPeer : List (Move ℚ (Inner ℚ)) :=
  let relay : Inner ℚ := ⟨.role ("d" : String) ("relay" : String), 2, ("a" : String)⟩
  [.submit ("a" : String) (.role ("d" : String) ("scout" : String)) 0,
    .submit ("a" : String) relay.op 1, .deliver ("b" : String) ⟨relay, relay⟩ 2]

/-- Then node `b` gives the drone a role itself, at its first Lamport time, and it is lost. -/
theorem own_role_is_lost : ¬ Causal plainSigner
    (roleFromPeer ++ [.submit ("b" : String) (.role ("d" : String) ("lead" : String)) 3]) := by
  intro h
  obtain ⟨w₀, hw₀⟩ : ∃ w, run (VertexSwarm.step plainSigner) newSwarm roleFromPeer = some w :=
    Option.isSome_iff_exists.1 (by decide +kernel)
  have hkept : ∀ w ∈ run (VertexSwarm.step plainSigner) newSwarm roleFromPeer,
      (submitEvent plainSigner ("b" : String) (w.nodes ("b" : String))
        (.role ("d" : String) ("lead" : String)) 3).1.entry (.role ("d" : String)) ≠
      some (nextInner ("b" : String) (w.nodes ("b" : String))
        (.role ("d" : String) ("lead" : String))) := by
    decide +kernel
  obtain ⟨hnew, -⟩ := h _ _ _ _ _ w₀ _ (.role ("d" : String))
    ⟨.role ("d" : String) ("relay" : String), 2, ("a" : String)⟩ rfl hw₀
    (run_concat.2 ⟨w₀, hw₀, rfl⟩) rfl (by decide +kernel) rfl
  exact hkept w₀ hw₀ hnew

end Step

end VertexSwarm
