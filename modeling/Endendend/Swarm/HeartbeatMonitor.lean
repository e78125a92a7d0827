/-
**Heartbeats and the standby that steps in** (`swarm/coordination/heartbeat_monitor.py`,
`swarm/coordination/swarm_coordinator.py`).

Every coordinator notes when it last heard each of its peers.  Its ticks report a peer that was not
heard for long, first as stale and then as dead.  When a peer has failed, every coordinator picks
the standby to take its place for itself, among those it does not hold dead, and takes the role if
the pick is itself.  Nothing is agreed on, so who steps in depends on what everyone has heard.

Main definitions:

* `Swarm.HeartbeatMonitor`, with `record`, `forget`, `peerState` and `tick`;
* `Swarm.Coordinator.promoteStandbyToRole` — the pick of one coordinator;
* `Swarm.coordinatorStep` — coordinators that hear, tick, forget and pick in any order;
* `Swarm.watch`, `Swarm.SilentFor` — what a run says about a peer.

Main results:

* `Swarm.monitorLaw_run` — **what a monitor holds after any run**;
* `Swarm.callbacks_once` — a peer is reported as often as it came back, and once more while it is
  held stale or dead;
* `Swarm.takes_role_iff` — **who takes the role: those that hold all better standbys dead**;
* `Swarm.one_takes_role` — where nobody holds the best standby dead, only that one takes it.
-/
import Endendend.Foundation.OrderedMap
import Endendend.Foundation.Runs
import Mathlib.Algebra.GroupWithZero.Nat
import Mathlib.Algebra.Order.Group.Int
import Mathlib.Data.Finset.Basic
import Mathlib.Data.List.MinMax
import Mathlib.Data.Prod.Lex
import Mathlib.Logic.Function.Basic

set_option relaxedAutoImplicit false
set_option autoImplicit false

namespace Swarm

open Js (OrderedMap)
open Runs

variable {Id T S R : Type*} [LinearOrder Id]

/-! ### The monitor -/

/-- What a peer is reported as. -/
inductive Level
  | stale
  | dead
  deriving DecidableEq

inductive LivenessState
  | ok
  | stale
  | dead
  deriving DecidableEq

/-- What is known of one peer at one time. -/
structure PeerLiveness (Id T S : Type*) where
  nodeId : Id
  lastSeen : T
  stake : S
  state : LivenessState
  deriving DecidableEq

structure HeartbeatMonitor (Id T S : Type*) where
  staleSec : T
  deadSec : T
  lastSeen : OrderedMap Id T
  stake : OrderedMap Id S
  dead : Finset Id
  staleReported : Finset Id

namespace HeartbeatMonitor

/-- A monitor that has heard of nobody. -/
def start (staleSec deadSec : T) : HeartbeatMonitor Id T S := ⟨staleSec, deadSec, ∅, ∅, ∅, ∅⟩

/-- The time without a heartbeat from which a peer is reported. -/
def bound (m : HeartbeatMonitor Id T S) : Level → T
  | .stale => m.staleSec
  | .dead => m.deadSec

/-- The peers that have been reported and were not heard since. -/
def marked (m : HeartbeatMonitor Id T S) : Level → Finset Id
  | .stale => m.staleReported
  | .dead => m.dead

/-- One if the peer is held stale or dead, and otherwise zero. -/
def held (m : HeartbeatMonitor Id T S) (lv : Level) (p : Id) : ℕ := if p ∈ m.marked lv then 1 else 0

def record (m : HeartbeatMonitor Id T S) (peerId : Id) (stake : S) (t : T) :
    HeartbeatMonitor Id T S :=
  { m with
    lastSeen := m.lastSeen.set peerId t
    stake := m.stake.set peerId stake
    dead := m.dead.erase peerId
    staleReported := m.staleReported.erase peerId }

def forget (m : HeartbeatMonitor Id T S) (peerId : Id) : HeartbeatMonitor Id T S :=
  { m with
    lastSeen := m.lastSeen.erase peerId
    stake := m.stake.erase peerId
    dead := m.dead.erase peerId
    staleReported := m.staleReported.erase peerId }

@[simp] theorem bound_record (m : HeartbeatMonitor Id T S) (p : Id) (st : S) (t : T) (lv : Level) :
    (m.record p st t).bound lv = m.bound lv := by cases lv <;> rfl

@[simp] theorem bound_forget (m : HeartbeatMonitor Id T S) (p : Id) (lv : Level) :
    (m.forget p).bound lv = m.bound lv := by cases lv <;> rfl

@[simp] theorem marked_record (m : HeartbeatMonitor Id T S) (p : Id) (st : S) (t : T)
    (lv : Level) : (m.record p st t).marked lv = (m.marked lv).erase p := by cases lv <;> rfl

@[simp] theorem marked_forget (m : HeartbeatMonitor Id T S) (p : Id) (lv : Level) :
    (m.forget p).marked lv = (m.marked lv).erase p := by cases lv <;> rfl

variable [LinearOrder T] [Sub T]

def peerState [Zero S] (m : HeartbeatMonitor Id T S) (peerId : Id) (t0 : T) :
    Option (PeerLiveness Id T S) :=
  (m.lastSeen.get? peerId).map fun last =>
    let age := t0 - last
    let st :=
      if peerId ∈ m.dead ∨ m.deadSec ≤ age then .dead
      else if m.staleSec ≤ age then .stale
      else .ok
    ⟨peerId, last, (m.stake.get? peerId).getD 0, st⟩

/-- A monitor in the middle of a tick: what was called back so far, and who died. -/
structure Ticking (Id T S : Type*) where
  monitor : HeartbeatMonitor Id T S
  callbacks : List (Level × Id)
  newlyDead : List Id

/-- One peer in the loop of `tick`. -/
def tickPeer (t0 : T) (o : Ticking Id T S) (peer : Id × T) : Ticking Id T S :=
  let age := t0 - peer.2
  let o :=
    if o.monitor.staleSec ≤ age ∧ peer.1 ∉ o.monitor.staleReported then
      { o with
        monitor := { o.monitor with staleReported := insert peer.1 o.monitor.staleReported }
        callbacks := o.callbacks ++ [(.stale, peer.1)] }
    else o
  if o.monitor.deadSec ≤ age ∧ peer.1 ∉ o.monitor.dead then
    { monitor := { o.monitor with dead := insert peer.1 o.monitor.dead }
      newlyDead := o.newlyDead ++ [peer.1]
      callbacks := o.callbacks ++ [(.dead, peer.1)] }
  else o

/-- Reports the peers that were not heard for long. -/
def tick (m : HeartbeatMonitor Id T S) (t0 : T) : Ticking Id T S :=
  m.lastSeen.entries.foldl (tickPeer t0) ⟨m, [], []⟩

end HeartbeatMonitor

open HeartbeatMonitor

/-! ### The coordinators -/

variable [LinearOrder T] [Sub T]

structure Coordinator (Id T S R : Type*) where
  heartbeat : HeartbeatMonitor Id T S
  role : R

namespace Coordinator

def peerEligibleForPromotion [Zero S] (c : Coordinator Id T S R) (peerId : Id) (now : T) : Bool :=
  match c.heartbeat.peerState peerId now with
  | none => true
  | some st => st.state ≠ .dead

/-- What standbys are compared by. -/
def promotionKey (stakeFor : Id → S) (cid : Id) : S ×ₗ Id := toLex (stakeFor cid, cid)

/-- The pick of the coordinator `nodeId`, which takes the role if it picks itself. -/
def promoteStandbyToRole [LinearOrder S] [Zero S] (nodeId : Id)
    (c : Coordinator Id T S R) (failedPeer : Id) (standbyIds : List Id) (targetRole : R)
    (stakeFor : Id → S) (t0 : T) : Option Id × Coordinator Id T S R :=
  let base := standbyIds.filter (· ≠ failedPeer)
  let eligible := base.filter fun s => c.peerEligibleForPromotion s t0
  let candidates := if eligible = [] then base else eligible
  match candidates.argmax (promotionKey stakeFor) with
  | none => (none, c)
  | some best => (some best, if nodeId = best then { c with role := targetRole } else c)

end Coordinator

open Coordinator

/-- What happens at a coordinator: a heartbeat comes in, time is checked, a peer is dropped, or a
standby is picked. -/
inductive CoordinatorMove (Id T S R : Type*)
  | hear (node sender : Id) (stake : S) (now : T)
  | tick (node : Id) (now : T)
  | forget (node peer : Id)
  | promote (node failedPeer : Id) (standbyIds : List Id) (targetRole : R) (stakeFor : Id → S)
      (now : T)

/-- The coordinator that makes a move. -/
def CoordinatorMove.node : CoordinatorMove Id T S R → Id
  | .hear n .. => n
  | .tick n _ => n
  | .forget n _ => n
  | .promote n .. => n

/-- The coordinators, and what each of them was called back with. -/
structure CoordinatorWorld (Id T S R : Type*) where
  nodes : Id → Coordinator Id T S R
  callbacks : Id → List (Level × Id)

/-- Nobody has heard anything yet. -/
def CoordinatorWorld.start (staleSec deadSec : T) (role : R) : CoordinatorWorld Id T S R where
  nodes _ := ⟨.start staleSec deadSec, role⟩
  callbacks _ := []

/-- A change of one coordinator. -/
def CoordinatorWorld.update (w : CoordinatorWorld Id T S R) (n : Id)
    (c : Coordinator Id T S R) : CoordinatorWorld Id T S R :=
  { w with nodes := Function.update w.nodes n c }

def coordinatorStep [LinearOrder S] [Zero S] (w : CoordinatorWorld Id T S R) :
    CoordinatorMove Id T S R → Option (CoordinatorWorld Id T S R)
  -- the network skips the sender
  | .hear n p stake now =>
      if p = n then none
      else some (w.update n
        { w.nodes n with heartbeat := (w.nodes n).heartbeat.record p stake now })
  | .tick n now =>
      let o := (w.nodes n).heartbeat.tick now
      some
        { nodes := Function.update w.nodes n { w.nodes n with heartbeat := o.monitor }
          callbacks := Function.update w.callbacks n (w.callbacks n ++ o.callbacks) }
  | .forget n p =>
      some (w.update n { w.nodes n with heartbeat := (w.nodes n).heartbeat.forget p })
  | .promote n failedPeer standbyIds targetRole stakeFor now =>
      some (w.update n
        ((w.nodes n).promoteStandbyToRole n failedPeer standbyIds targetRole stakeFor now).2)

/-- The coordinator that takes the role of a failed peer in a step. -/
def takesRole [LinearOrder S] [Zero S] (failedPeer : Id) (w : CoordinatorWorld Id T S R) :
    CoordinatorMove Id T S R → Option Id
  | .promote n failedPeer' standbyIds targetRole stakeFor now =>
      if failedPeer' = failedPeer ∧ ((w.nodes n).promoteStandbyToRole n failedPeer' standbyIds
          targetRole stakeFor now).1 = some n then
        some n
      else none
  | _ => none

/-! ### What a run says about a peer -/

/-- When the coordinator last heard a peer that it has not dropped since, and the times that it
looked at its clock after that. -/
def watch (n p : Id) : List (CoordinatorMove Id T S R) → Option (T × List T) :=
  List.foldl (fun seen mv =>
    match mv with
    | .hear n' p' _ now => if n' = n ∧ p' = p then some (now, []) else seen
    | .forget n' p' => if n' = n ∧ p' = p then none else seen
    | .tick n' now => if n' = n then seen.map fun q => (q.1, q.2 ++ [now]) else seen
    | .promote .. => seen) none

/-- The last heartbeat of a peer was `limit` old when the coordinator looked, now or before. -/
def SilentFor (limit : T) (n p : Id) (mvs : List (CoordinatorMove Id T S R)) (looks : List T) :
    Prop :=
  ∃ q ∈ watch n p mvs, ∃ now ∈ q.2 ++ looks, limit ≤ now - q.1

instance (limit : T) (n p : Id) (mvs : List (CoordinatorMove Id T S R)) (looks : List T) :
    Decidable (SilentFor limit n p mvs looks) :=
  inferInstanceAs (Decidable (∃ q ∈ watch n p mvs, ∃ now ∈ q.2 ++ looks, limit ≤ now - q.1))

/-- A move after which nothing is held against a peer any more. -/
def clears (n p : Id) : CoordinatorMove Id T S R → Bool
  | .hear n' p' .. => n' = n ∧ p' = p
  | .forget n' p' => n' = n ∧ p' = p
  | _ => false

/-- A peer comes back that was held stale or dead. -/
def comesBack (lv : Level) (n p : Id) (w : CoordinatorWorld Id T S R)
    (mv : CoordinatorMove Id T S R) : Option Unit :=
  if clears n p mv ∧ p ∈ (w.nodes n).heartbeat.marked lv then some () else none

/-! ### One tick -/

namespace HeartbeatMonitor

@[simp] theorem lastSeen_tickPeer (t0 : T) (o : Ticking Id T S) (peer : Id × T) :
    (tickPeer t0 o peer).monitor.lastSeen = o.monitor.lastSeen := by
  simp only [tickPeer]
  split_ifs <;> rfl

@[simp] theorem bound_tickPeer (t0 : T) (o : Ticking Id T S) (peer : Id × T) (lv : Level) :
    (tickPeer t0 o peer).monitor.bound lv = o.monitor.bound lv := by
  simp only [tickPeer]
  cases lv <;> split_ifs <;> rfl

/-- A peer that was not heard for the time of a level is marked. -/
theorem mem_marked_tickPeer (t0 : T) (o : Ticking Id T S) (peer : Id × T) (lv : Level) (p : Id) :
    p ∈ (tickPeer t0 o peer).monitor.marked lv ↔
      p ∈ o.monitor.marked lv ∨ p = peer.1 ∧ o.monitor.bound lv ≤ t0 - peer.2 := by
  simp only [tickPeer]
  cases lv <;> simp only [marked, bound] <;> split_ifs <;> grind

/-- A peer is called back for exactly when it becomes marked. -/
theorem count_tickPeer (t0 : T) (o : Ticking Id T S) (peer : Id × T) (lv : Level) (p : Id) :
    (tickPeer t0 o peer).callbacks.count (lv, p) + o.monitor.held lv p =
      o.callbacks.count (lv, p) + (tickPeer t0 o peer).monitor.held lv p := by
  simp only [tickPeer]
  cases lv <;> simp only [held, marked] <;> split_ifs <;> grind

theorem lastSeen_foldl_tickPeer (t0 : T) (peers : List (Id × T)) (o : Ticking Id T S) :
    (peers.foldl (tickPeer t0) o).monitor.lastSeen = o.monitor.lastSeen := by
  induction peers generalizing o with
  | nil => rfl
  | cons peer peers ih => rw [List.foldl_cons, ih, lastSeen_tickPeer]

theorem bound_foldl_tickPeer (t0 : T) (peers : List (Id × T)) (o : Ticking Id T S) (lv : Level) :
    (peers.foldl (tickPeer t0) o).monitor.bound lv = o.monitor.bound lv := by
  induction peers generalizing o with
  | nil => rfl
  | cons peer peers ih => rw [List.foldl_cons, ih, bound_tickPeer]

theorem mem_marked_foldl_tickPeer (t0 : T) (peers : List (Id × T)) (o : Ticking Id T S)
    (lv : Level) (p : Id) :
    p ∈ (peers.foldl (tickPeer t0) o).monitor.marked lv ↔
      p ∈ o.monitor.marked lv ∨ ∃ last, (p, last) ∈ peers ∧ o.monitor.bound lv ≤ t0 - last := by
  induction peers generalizing o with
  | nil => simp
  | cons peer peers ih =>
      obtain ⟨peerId, last⟩ := peer
      rw [List.foldl_cons, ih, mem_marked_tickPeer, bound_tickPeer, or_assoc]
      refine or_congr_right ?_
      constructor
      · rintro (⟨rfl, hold⟩ | ⟨last', hmem, hold⟩)
        · exact ⟨last, List.mem_cons_self, hold⟩
        · exact ⟨last', List.mem_cons_of_mem _ hmem, hold⟩
      · rintro ⟨last', hmem, hold⟩
        rcases List.mem_cons.1 hmem with heq | hmem
        · obtain ⟨rfl, rfl⟩ := Prod.mk.inj heq
          exact Or.inl ⟨rfl, hold⟩
        · exact Or.inr ⟨last', hmem, hold⟩

theorem count_foldl_tickPeer (t0 : T) (peers : List (Id × T)) (o : Ticking Id T S) (lv : Level)
    (p : Id) :
    (peers.foldl (tickPeer t0) o).callbacks.count (lv, p) + o.monitor.held lv p =
      o.callbacks.count (lv, p) + (peers.foldl (tickPeer t0) o).monitor.held lv p := by
  induction peers generalizing o with
  | nil => rfl
  | cons peer peers ih =>
      have hone := count_tickPeer t0 o peer lv p
      have hrest := ih (tickPeer t0 o peer)
      rw [List.foldl_cons]
      omega

@[simp] theorem lastSeen_tick (m : HeartbeatMonitor Id T S) (t0 : T) :
    (m.tick t0).monitor.lastSeen = m.lastSeen := lastSeen_foldl_tickPeer t0 _ _

@[simp] theorem bound_tick (m : HeartbeatMonitor Id T S) (t0 : T) (lv : Level) :
    (m.tick t0).monitor.bound lv = m.bound lv := bound_foldl_tickPeer t0 _ _ lv

theorem mem_marked_tick (m : HeartbeatMonitor Id T S) (t0 : T) (lv : Level) (p : Id) :
    p ∈ (m.tick t0).monitor.marked lv ↔
      p ∈ m.marked lv ∨ ∃ last ∈ m.lastSeen.get? p, m.bound lv ≤ t0 - last := by
  rw [tick, mem_marked_foldl_tickPeer]
  simp only [OrderedMap.mem_entries_iff, Option.mem_def]

theorem count_tick (m : HeartbeatMonitor Id T S) (t0 : T) (lv : Level) (p : Id) :
    (m.tick t0).callbacks.count (lv, p) + m.held lv p = (m.tick t0).monitor.held lv p := by
  have h := count_foldl_tickPeer t0 m.lastSeen.entries ⟨m, [], []⟩ lv p
  rwa [List.count_nil, Nat.zero_add] at h

end HeartbeatMonitor

/-! ### What a monitor holds -/

omit [LinearOrder T] [Sub T] in
@[simp] theorem watch_concat (n p : Id) (mvs : List (CoordinatorMove Id T S R))
    (mv : CoordinatorMove Id T S R) :
    watch n p (mvs ++ [mv]) =
      match mv with
      | .hear n' p' _ now => if n' = n ∧ p' = p then some (now, []) else watch n p mvs
      | .forget n' p' => if n' = n ∧ p' = p then none else watch n p mvs
      | .tick n' now =>
          if n' = n then (watch n p mvs).map fun q => (q.1, q.2 ++ [now]) else watch n p mvs
      | .promote .. => watch n p mvs := by
  rw [watch, List.foldl_append]
  rfl

omit [LinearOrder T] [Sub T] in
theorem watch_frame {n : Id} {mv : CoordinatorMove Id T S R} (hn : mv.node ≠ n) (p : Id)
    (mvs : List (CoordinatorMove Id T S R)) : watch n p (mvs ++ [mv]) = watch n p mvs := by
  cases mv <;> simp_all [CoordinatorMove.node]

/-- What a run says about the monitor of a coordinator. -/
structure MonitorLaw (staleSec deadSec : T) (n : Id) (mvs : List (CoordinatorMove Id T S R))
    (m : HeartbeatMonitor Id T S) : Prop where
  bound : ∀ lv, m.bound lv = (start staleSec deadSec : HeartbeatMonitor Id T S).bound lv
  lastSeen : ∀ p, m.lastSeen.get? p = (watch n p mvs).map Prod.fst
  marked : ∀ lv p, p ∈ m.marked lv ↔ SilentFor (m.bound lv) n p mvs []
  own : watch n n mvs = none

namespace MonitorLaw

variable {staleSec deadSec : T} {n : Id} {mvs : List (CoordinatorMove Id T S R)}
  {m : HeartbeatMonitor Id T S}

/-- Moves of other coordinators, and picks, say nothing about the monitor. -/
theorem congr (h : MonitorLaw staleSec deadSec n mvs m) (mv : CoordinatorMove Id T S R)
    (hwatch : ∀ p, watch n p (mvs ++ [mv]) = watch n p mvs) :
    MonitorLaw staleSec deadSec n (mvs ++ [mv]) m where
  bound := h.bound
  lastSeen p := by rw [hwatch, h.lastSeen]
  marked lv p := by rw [SilentFor, hwatch, h.marked, SilentFor]
  own := by rw [hwatch, h.own]

theorem record (h : MonitorLaw staleSec deadSec n mvs m) {p : Id} (hp : p ≠ n) (stake : S)
    (now : T) : MonitorLaw staleSec deadSec n (mvs ++ [.hear n p stake now])
      (m.record p stake now) where
  bound lv := by rw [bound_record, h.bound]
  lastSeen p' := by
    rw [watch_concat]
    by_cases hpp : p' = p
    · subst hpp
      simp [HeartbeatMonitor.record]
    · simp [HeartbeatMonitor.record, OrderedMap.get?_set, hpp, Ne.symm hpp, h.lastSeen]
  marked lv p' := by
    rw [marked_record, bound_record, Finset.mem_erase, h.marked, SilentFor, SilentFor, watch_concat]
    by_cases hpp : p' = p
    · subst hpp
      simp
    · simp [hpp, Ne.symm hpp]
  own := by simp [hp, h.own]

theorem forget (h : MonitorLaw staleSec deadSec n mvs m) (p : Id) :
    MonitorLaw staleSec deadSec n (mvs ++ [.forget n p]) (m.forget p) where
  bound lv := by rw [bound_forget, h.bound]
  lastSeen p' := by
    rw [watch_concat]
    by_cases hpp : p' = p
    · subst hpp
      simp [HeartbeatMonitor.forget, OrderedMap.get?_erase]
    · simp [HeartbeatMonitor.forget, OrderedMap.get?_erase, hpp, Ne.symm hpp, h.lastSeen]
  marked lv p' := by
    rw [marked_forget, bound_forget, Finset.mem_erase, h.marked, SilentFor, SilentFor, watch_concat]
    by_cases hpp : p' = p
    · subst hpp
      simp
    · simp [hpp, Ne.symm hpp]
  own := by simp [h.own]

theorem tick (h : MonitorLaw staleSec deadSec n mvs m) (now : T) :
    MonitorLaw staleSec deadSec n (mvs ++ [.tick n now]) (m.tick now).monitor where
  bound lv := by rw [bound_tick, h.bound]
  lastSeen p := by
    rw [lastSeen_tick, watch_concat, h.lastSeen]
    simp [Function.comp_def]
  marked lv p := by
    rw [mem_marked_tick, bound_tick, h.marked, h.lastSeen, SilentFor, SilentFor, watch_concat]
    cases watch n p mvs with
    | none => simp
    | some q => simp [or_and_right, exists_or]
  own := by simp [h.own]

end MonitorLaw

variable [LinearOrder S] [Zero S]

@[simp] theorem Coordinator.heartbeat_promoteStandbyToRole (n : Id) (c : Coordinator Id T S R)
    (failedPeer : Id) (standbyIds : List Id) (targetRole : R) (stakeFor : Id → S) (t0 : T) :
    (c.promoteStandbyToRole n failedPeer standbyIds targetRole stakeFor t0).2.heartbeat =
      c.heartbeat := by
  simp only [promoteStandbyToRole]
  repeat' split
  all_goals rfl

/-- A move of another coordinator changes nothing here. -/
theorem frame_step {n : Id} {w w' : CoordinatorWorld Id T S R} {mv : CoordinatorMove Id T S R}
    (hn : mv.node ≠ n) (hstep : coordinatorStep w mv = some w') :
    w'.nodes n = w.nodes n ∧ w'.callbacks n = w.callbacks n := by
  cases mv with
  | hear n' p stake now =>
      simp only [coordinatorStep] at hstep
      split_ifs at hstep with hp
      obtain rfl := Option.some.inj hstep
      exact ⟨Function.update_of_ne (Ne.symm hn) _ _, rfl⟩
  | tick n' now =>
      obtain rfl := Option.some.inj hstep
      exact ⟨Function.update_of_ne (Ne.symm hn) _ _, Function.update_of_ne (Ne.symm hn) _ _⟩
  | forget n' p =>
      obtain rfl := Option.some.inj hstep
      exact ⟨Function.update_of_ne (Ne.symm hn) _ _, rfl⟩
  | promote n' failedPeer standbyIds targetRole stakeFor now =>
      obtain rfl := Option.some.inj hstep
      exact ⟨Function.update_of_ne (Ne.symm hn) _ _, rfl⟩

/-- **A step of the coordinators keeps the laws of all their monitors.** -/
theorem monitorLaw_step {staleSec deadSec : T} {mvs : List (CoordinatorMove Id T S R)}
    {mv : CoordinatorMove Id T S R} {w w' : CoordinatorWorld Id T S R}
    (hw : ∀ n, MonitorLaw staleSec deadSec n mvs (w.nodes n).heartbeat)
    (hstep : coordinatorStep w mv = some w') :
    ∀ n, MonitorLaw staleSec deadSec n (mvs ++ [mv]) (w'.nodes n).heartbeat := by
  intro n
  by_cases hn : mv.node = n
  · subst hn
    cases mv with
    | hear n p stake now =>
        simp only [coordinatorStep] at hstep
        split_ifs at hstep with hp
        obtain rfl := Option.some.inj hstep
        simpa [CoordinatorWorld.update, CoordinatorMove.node] using (hw n).record hp stake now
    | tick n now =>
        obtain rfl := Option.some.inj hstep
        simpa [CoordinatorMove.node] using (hw n).tick now
    | forget n p =>
        obtain rfl := Option.some.inj hstep
        simpa [CoordinatorWorld.update, CoordinatorMove.node] using (hw n).forget p
    | promote n failedPeer standbyIds targetRole stakeFor now =>
        obtain rfl := Option.some.inj hstep
        simpa [CoordinatorWorld.update, CoordinatorMove.node] using
          (hw n).congr (.promote n failedPeer standbyIds targetRole stakeFor now)
            fun p => watch_concat n p mvs _
  · rw [(frame_step hn hstep).1]
    exact (hw n).congr mv fun p => watch_frame hn p mvs

/-- **What a monitor holds after any run**: when it last heard each peer, and as stale or dead
exactly those whose last heartbeat was too old at a tick since. -/
theorem monitorLaw_run {staleSec deadSec : T} {role : R} {mvs : List (CoordinatorMove Id T S R)}
    {w : CoordinatorWorld Id T S R}
    (h : run coordinatorStep (.start staleSec deadSec role) mvs = some w) :
    ∀ n, MonitorLaw staleSec deadSec n mvs (w.nodes n).heartbeat := by
  refine invariant_of_history
    (I := fun mvs w => ∀ n, MonitorLaw staleSec deadSec n mvs (w.nodes n).heartbeat) ?_
    (fun mvs mv w w' _ hw hstep => monitorLaw_step hw hstep) h
  intro n
  exact ⟨fun _ => rfl, fun _ => rfl, fun lv p => by cases lv <;> simp [SilentFor, watch,
    CoordinatorWorld.start, HeartbeatMonitor.start, HeartbeatMonitor.marked], rfl⟩

/-! ### Who is called back for -/

/-- **A step keeps the count of the reports**: as many as the returns, and one more while it is
held stale or dead. -/
theorem count_callbacks_step {w w' : CoordinatorWorld Id T S R} {mv : CoordinatorMove Id T S R}
    (hstep : coordinatorStep w mv = some w') (n p : Id) (lv : Level) :
    (w'.callbacks n).count (lv, p) + (w.nodes n).heartbeat.held lv p =
      (w.callbacks n).count (lv, p) + (comesBack lv n p w mv).toList.length +
        (w'.nodes n).heartbeat.held lv p := by
  by_cases hn : mv.node = n
  · subst hn
    cases mv with
    | hear n p' stake now =>
        simp only [coordinatorStep] at hstep
        split_ifs at hstep with hp
        obtain rfl := Option.some.inj hstep
        simp only [CoordinatorMove.node, CoordinatorWorld.update, Function.update_self, comesBack,
          clears, held, marked_record, Finset.mem_erase]
        grind
    | tick n now =>
        obtain rfl := Option.some.inj hstep
        have htick := count_tick (w.nodes n).heartbeat now lv p
        simp [CoordinatorMove.node, comesBack, clears]
        omega
    | forget n p' =>
        obtain rfl := Option.some.inj hstep
        simp only [CoordinatorMove.node, CoordinatorWorld.update, Function.update_self, comesBack,
          clears, held, marked_forget, Finset.mem_erase]
        grind
    | promote n failedPeer standbyIds targetRole stakeFor now =>
        obtain rfl := Option.some.inj hstep
        simp [CoordinatorMove.node, CoordinatorWorld.update, comesBack, clears]
  · obtain ⟨hnode, hcalls⟩ := frame_step hn hstep
    have hback : comesBack lv n p w mv = none := by
      cases mv <;> simp_all [comesBack, clears, CoordinatorMove.node]
    rw [hnode, hcalls, hback]
    rfl

/-- **A peer is reported as often as it came back**, and once more while it is held stale or
dead. -/
theorem callbacks_once {staleSec deadSec : T} {role : R} {mvs : List (CoordinatorMove Id T S R)}
    {w : CoordinatorWorld Id T S R}
    (h : run coordinatorStep (.start staleSec deadSec role) mvs = some w) (n p : Id) (lv : Level) :
    (w.callbacks n).count (lv, p) =
      (emitted coordinatorStep (comesBack lv n p) (.start staleSec deadSec role) mvs).length +
        (w.nodes n).heartbeat.held lv p := by
  refine invariant_of_history (I := fun mvs w => (w.callbacks n).count (lv, p) =
    (emitted coordinatorStep (comesBack lv n p) (.start staleSec deadSec role) mvs).length +
      (w.nodes n).heartbeat.held lv p) ?_ ?_ h
  · cases lv <;> rfl
  · intro mvs mv w₁ w₂ h₁ hcount hstep
    have hstep' := count_callbacks_step hstep n p lv
    rw [emitted_concat _ _ h₁, List.length_append]
    omega

/-- A peer goes silent, comes back, and goes silent again. -/
def silentTwice : List (CoordinatorMove ℕ ℤ ℕ Bool) :=
  [.hear 0 1 5 0, .tick 0 10, .tick 0 30, .hear 0 1 5 31, .tick 0 60]

theorem callbacks_once_silentTwice :
    ∃ w, run coordinatorStep (.start 8 24 false) silentTwice = some w ∧
      (w.callbacks 0).count (.dead, 1) = 2 ∧ (w.callbacks 0).count (.stale, 1) = 2 := by
  obtain ⟨w, hw⟩ : ∃ w, run coordinatorStep (.start 8 24 false) silentTwice = some w := ⟨_, rfl⟩
  have hdead := callbacks_once hw 0 1 .dead
  have hstale := callbacks_once hw 0 1 .stale
  obtain rfl := Option.some.inj hw
  exact ⟨_, hw, hdead.trans (by decide), hstale.trans (by decide)⟩

/-! ### Who steps in -/

omit [LinearOrder T] [Sub T] [Zero S] in
/-- The pick of the best: ties are impossible, since ids are part of the key. -/
theorem argmax_promotionKey {stakeFor : Id → S} {cids : List Id} {best : Id} :
    cids.argmax (promotionKey stakeFor) = some best ↔
      best ∈ cids ∧ ∀ p ∈ cids, ¬ promotionKey stakeFor best < promotionKey stakeFor p := by
  constructor
  · intro h
    exact ⟨List.argmax_mem h, fun p hp => List.not_lt_of_mem_argmax hp h⟩
  · rintro ⟨hmem, hbest⟩
    cases hpick : cids.argmax (promotionKey stakeFor) with
    | none => simp [List.argmax_eq_none.1 hpick] at hmem
    | some best' =>
        have hle := not_lt.1 (hbest best' (List.argmax_mem hpick))
        have heq := le_antisymm hle (List.le_of_mem_argmax hmem hpick)
        exact congrArg some (Prod.mk.inj (toLex.injective heq)).2

theorem Coordinator.fst_promoteStandbyToRole (n : Id) (c : Coordinator Id T S R) (failedPeer : Id)
    (standbyIds : List Id) (targetRole : R) (stakeFor : Id → S) (t0 : T) :
    (c.promoteStandbyToRole n failedPeer standbyIds targetRole stakeFor t0).1 =
      let base := standbyIds.filter (· ≠ failedPeer)
      let eligible := base.filter fun s => c.peerEligibleForPromotion s t0
      (if eligible = [] then base else eligible).argmax (promotionKey stakeFor) := by
  simp only [promoteStandbyToRole]
  split <;> simp_all

/-- A coordinator that has no heartbeat of its own takes the role exactly if it is a standby and
all better ones are held dead. -/
theorem Coordinator.picks_itself_iff {n : Id} {c : Coordinator Id T S R}
    (hown : c.heartbeat.lastSeen.get? n = none) {failedPeer : Id} {standbyIds : List Id}
    {targetRole : R} {stakeFor : Id → S} {t0 : T} :
    (c.promoteStandbyToRole n failedPeer standbyIds targetRole stakeFor t0).1 = some n ↔
      n ∈ standbyIds ∧ n ≠ failedPeer ∧ ∀ p ∈ standbyIds, p ≠ failedPeer →
        promotionKey stakeFor n < promotionKey stakeFor p →
          c.peerEligibleForPromotion p t0 = false := by
  rw [fst_promoteStandbyToRole]
  have helig : c.peerEligibleForPromotion n t0 = true := by
    simp [peerEligibleForPromotion, peerState, hown]
  set base := standbyIds.filter (· ≠ failedPeer)
  have hbase : ∀ p, p ∈ base ↔ p ∈ standbyIds ∧ p ≠ failedPeer := by simp [base]
  by_cases hn : n ∈ base
  · -- the coordinator is eligible itself, so the dead standbys are left out
    have hself : n ∈ base.filter fun s => c.peerEligibleForPromotion s t0 :=
      List.mem_filter.2 ⟨hn, helig⟩
    simp only [if_neg (List.ne_nil_of_mem hself), argmax_promotionKey]
    constructor
    · rintro ⟨-, hbest⟩
      refine ⟨((hbase n).1 hn).1, ((hbase n).1 hn).2, fun p hp hpf hlt => ?_⟩
      by_contra heligp
      exact hbest p (List.mem_filter.2 ⟨(hbase p).2 ⟨hp, hpf⟩, by simpa using heligp⟩) hlt
    · rintro ⟨-, -, hdead⟩
      refine ⟨hself, fun p hp hlt => ?_⟩
      obtain ⟨hpbase, heligp⟩ := List.mem_filter.1 hp
      have hdeadp := hdead p ((hbase p).1 hpbase).1 ((hbase p).1 hpbase).2 hlt
      exact absurd (heligp.symm.trans hdeadp) (by decide)
  · refine iff_of_false (fun hpick => hn ?_) fun h => hn ((hbase n).2 ⟨h.1, h.2.1⟩)
    have hmem := List.argmax_mem hpick
    split_ifs at hmem
    · exact hmem
    · exact List.mem_of_mem_filter hmem

omit [LinearOrder S] in
/-- Who is held dead when a standby is picked. -/
theorem MonitorLaw.eligible_iff {staleSec deadSec : T} {n : Id}
    {mvs : List (CoordinatorMove Id T S R)} {c : Coordinator Id T S R}
    (h : MonitorLaw staleSec deadSec n mvs c.heartbeat) (p : Id) (t0 : T) :
    c.peerEligibleForPromotion p t0 = false ↔ SilentFor deadSec n p mvs [t0] := by
  have hdead : c.heartbeat.deadSec = deadSec := h.bound .dead
  have hmarked : p ∈ c.heartbeat.dead ↔ SilentFor deadSec n p mvs [] := by
    rw [← hdead]
    exact h.marked .dead p
  have hseen := h.lastSeen p
  rw [SilentFor] at hmarked ⊢
  cases hwatch : watch n p mvs with
  | none =>
      rw [hwatch] at hseen
      simp [peerEligibleForPromotion, peerState, hseen]
  | some q =>
      rw [hwatch] at hseen hmarked
      simp only [Option.map_some] at hseen
      have hold : (p ∈ c.heartbeat.dead ∨ deadSec ≤ t0 - q.1) ↔
          ∃ q' ∈ some q, ∃ now ∈ q'.2 ++ [t0], deadSec ≤ now - q'.1 := by
        rw [hmarked]
        simp [or_and_right, exists_or]
      rw [← hold]
      simp only [peerEligibleForPromotion, peerState, hseen, Option.map_some, hdead]
      split_ifs <;> simp_all

theorem MonitorLaw.picks_itself_iff {staleSec deadSec : T} {n : Id}
    {mvs : List (CoordinatorMove Id T S R)} {c : Coordinator Id T S R}
    (h : MonitorLaw staleSec deadSec n mvs c.heartbeat) (failedPeer : Id) (standbyIds : List Id)
    (targetRole : R) (stakeFor : Id → S) (t0 : T) :
    (c.promoteStandbyToRole n failedPeer standbyIds targetRole stakeFor t0).1 = some n ↔
      n ∈ standbyIds ∧ n ≠ failedPeer ∧ ∀ p ∈ standbyIds, p ≠ failedPeer →
        promotionKey stakeFor n < promotionKey stakeFor p → SilentFor deadSec n p mvs [t0] := by
  have hown : c.heartbeat.lastSeen.get? n = none := by
    rw [h.lastSeen, h.own, Option.map_none]
  simp only [Coordinator.picks_itself_iff hown, h.eligible_iff]

/-- **Who takes the role of a failed peer**: exactly the standbys that hold all better standbys
dead, because their last heartbeat was too old when they looked at the clock. -/
theorem takes_role_iff {staleSec deadSec : T} {role : R} {mvs : List (CoordinatorMove Id T S R)}
    {w : CoordinatorWorld Id T S R}
    (h : run coordinatorStep (.start staleSec deadSec role) mvs = some w) (n failedPeer : Id)
    (standbyIds : List Id) (targetRole : R) (stakeFor : Id → S) (t0 : T) :
    ((w.nodes n).promoteStandbyToRole n failedPeer standbyIds targetRole stakeFor t0).1 = some n ↔
      n ∈ standbyIds ∧ n ≠ failedPeer ∧ ∀ p ∈ standbyIds, p ≠ failedPeer →
        promotionKey stakeFor n < promotionKey stakeFor p → SilentFor deadSec n p mvs [t0] :=
  (monitorLaw_run h n).picks_itself_iff failedPeer standbyIds targetRole stakeFor t0

/-- Two standbys hear each other once, and one of them looks at its clock much later. -/
def lostHeartbeats : List (CoordinatorMove ℕ ℤ ℕ Bool) :=
  [.hear 0 1 5 0, .hear 1 0 5 0, .tick 0 30]

/-- Both of them take the role. -/
theorem takes_role_iff_lostHeartbeats :
    ∃ w, run coordinatorStep (.start 8 24 false) lostHeartbeats = some w ∧
      ((w.nodes 0).promoteStandbyToRole 0 2 [0, 1, 2] true (fun _ => 5) 31).1 = some 0 ∧
      ((w.nodes 1).promoteStandbyToRole 1 2 [0, 1, 2] true (fun _ => 5) 31).1 = some 1 := by
  obtain ⟨w, hw⟩ : ∃ w, run coordinatorStep (.start 8 24 false) lostHeartbeats = some w := ⟨_, rfl⟩
  exact ⟨w, hw, (takes_role_iff hw 0 2 [0, 1, 2] true (fun _ => 5) 31).2 (by decide),
    (takes_role_iff hw 1 2 [0, 1, 2] true (fun _ => 5) 31).2 (by decide)⟩

/-- **Only the best standby steps in**, and it does, as long as nobody that picks holds it dead. -/
theorem one_takes_role {staleSec deadSec : T} {role : R} {mvs : List (CoordinatorMove Id T S R)}
    {w : CoordinatorWorld Id T S R}
    (h : run coordinatorStep (.start staleSec deadSec role) mvs = some w) {failedPeer best : Id}
    {standbyIds : List Id} {stakeFor : Id → S}
    (hbest : (standbyIds.filter (· ≠ failedPeer)).argmax (promotionKey stakeFor) = some best)
    (hcalm : ∀ i n ids tgt stk t0, mvs[i]? = some (.promote n failedPeer ids tgt stk t0) →
      ids = standbyIds ∧ stk = stakeFor ∧ ¬ SilentFor deadSec n best (mvs.take i) [t0]) (n : Id) :
    n ∈ emitted coordinatorStep (takesRole failedPeer) (.start staleSec deadSec role) mvs ↔
      n = best ∧ ∃ ids tgt stk t0, .promote n failedPeer ids tgt stk t0 ∈ mvs := by
  have hmax := argmax_promotionKey.1 hbest
  simp only [List.mem_filter, decide_eq_true_eq] at hmax
  obtain ⟨⟨hmem, hne⟩, hbetter⟩ := hmax
  rw [mem_emitted]
  constructor
  · rintro ⟨pre, mv, w₁, ⟨post, hsplit⟩, h₁, htakes⟩
    rw [List.append_assoc, List.singleton_append] at hsplit
    subst hsplit
    cases mv with
    | promote n' failedPeer' ids tgt stk t0 =>
        simp only [takesRole, Option.mem_def, Option.ite_none_right_eq_some,
          Option.some.injEq] at htakes
        obtain ⟨⟨rfl, hpick⟩, rfl⟩ := htakes
        refine ⟨?_, ids, tgt, stk, t0, by simp⟩
        obtain ⟨rfl, rfl, hfresh⟩ := hcalm pre.length n' ids tgt stk t0 (by simp)
        rw [List.take_left] at hfresh
        obtain ⟨hn, hnf, hdead⟩ := ((monitorLaw_run h₁ n').picks_itself_iff _ _ _ _ _).1 hpick
        -- a worse standby would have to hold the best one dead
        have hle := not_lt.1 fun hlt => hfresh (hdead best hmem hne hlt)
        have heq := le_antisymm hle (not_lt.1 (hbetter n' ⟨hn, hnf⟩))
        exact (Prod.mk.inj (toLex.injective heq)).2.symm
    | _ => simp [takesRole] at htakes
  · rintro ⟨rfl, ids, tgt, stk, t0, hmv⟩
    obtain ⟨pre, post, rfl⟩ := List.append_of_mem hmv
    obtain ⟨w₁, h₁, -⟩ := run_append.1 h
    obtain ⟨rfl, rfl, -⟩ := hcalm pre.length n ids tgt stk t0 (by simp)
    refine ⟨pre, .promote n failedPeer ids tgt stk t0, w₁, ⟨post, by simp⟩, h₁, ?_⟩
    have hpick := ((monitorLaw_run h₁ n).picks_itself_iff failedPeer ids tgt stk t0).2
      ⟨hmem, hne, fun p hp hpf hlt => absurd hlt (hbetter p ⟨hp, hpf⟩)⟩
    simp [takesRole, hpick]

/-- Two standbys hear each other and pick in time. -/
def pickedInTime : List (CoordinatorMove ℕ ℤ ℕ Bool) :=
  [.hear 0 1 5 0, .hear 1 0 5 0, .promote 0 2 [0, 1, 2] true (fun _ => 5) 10,
    .promote 1 2 [0, 1, 2] true (fun _ => 5) 12]

theorem one_takes_role_pickedInTime :
    0 ∉ emitted coordinatorStep (takesRole 2) (.start 8 24 false) pickedInTime ∧
      1 ∈ emitted coordinatorStep (takesRole 2) (.start 8 24 false) pickedInTime := by
  obtain ⟨w, hw⟩ : ∃ w, run coordinatorStep (.start 8 24 false) pickedInTime = some w := ⟨_, rfl⟩
  have hbest : (([0, 1, 2] : List ℕ).filter (· ≠ 2)).argmax (promotionKey fun _ => 5) = some 1 := by
    decide
  have hcalm : ∀ i n ids tgt stk t0, pickedInTime[i]? = some (.promote n 2 ids tgt stk t0) →
      ids = [0, 1, 2] ∧ (stk = fun _ => 5) ∧ ¬ SilentFor 24 n 1 (pickedInTime.take i) [t0] := by
    intro i n ids tgt stk t0 hi
    rcases i with _ | _ | _ | _ | i <;> simp [pickedInTime] at hi
    all_goals
      obtain ⟨rfl, rfl, rfl, rfl, rfl⟩ := hi
      exact ⟨rfl, rfl, by decide⟩
  refine ⟨fun h => ?_, (one_takes_role hw hbest hcalm 1).2
    ⟨rfl, [0, 1, 2], true, fun _ => 5, 12, by simp [pickedInTime]⟩⟩
  exact absurd ((one_takes_role hw hbest hcalm 0).1 h).1 (by decide)

end Swarm
