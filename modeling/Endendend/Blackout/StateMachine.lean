/-
**The blackout coordination machine** (`swarm/coordination/state_machine.py`).

The machine turns heartbeats and the time into a mode of the whole swarm.  A heartbeat refreshes the
table of drones; the number of live drones, an isolation timer and the question whether an explorer
was ever elected then decide the mode, one guard of the source after the other.

Main definitions:

* `Blackout.BlackoutStateMachine` — the machine, with `liveDrones`, `transition`, `electExplorer`;
* `Blackout.BlackoutStateMachine.onHeartbeat` — a heartbeat, the composition of the guards
  `noteHeartbeat`, `checkIsolation`, `checkQuorum`, `checkForming`, `checkElection`,
  `checkRestored`;
* `Blackout.beat` — heartbeats as the steps of a system.

Main results:

* `Blackout.electExplorer_of_mem` — an election among drones that are known elects one of them;
* `Blackout.swarmState_of_quorum` — the mode after a heartbeat with enough peers to form;
* `Blackout.explorerId_onHeartbeat` — an explorer, once elected, is never replaced.
-/
import Endendend.Foundation.OrderedMap
import Endendend.Foundation.Runs
import Mathlib.Data.List.MinMax
import Mathlib.Data.Prod.Lex
import Mathlib.Algebra.Order.Ring.Rat

set_option relaxedAutoImplicit false
set_option autoImplicit false

namespace Blackout

open Js

inductive DroneRole
  | explorer
  | relay
  | standby
  deriving DecidableEq

/-- The posture of the swarm. -/
inductive SwarmState
  | discovery
  | forming
  | exploring
  | recovering
  | solo
  deriving DecidableEq

inductive ActionType
  | rebuildChain
  | noop
  | log
  deriving DecidableEq

structure Action where
  kind : ActionType
  detail : String
  deriving DecidableEq

-- ids are strings of the source; all that matters is that they are compared
variable {Id : Type*} [LinearOrder Id]

structure HeartbeatMsg (Id : Type*) where
  nodeId : Id
  ts : ℚ
  depth : ℚ
  trust : ℚ
  role : DroneRole

structure DroneState (Id : Type*) where
  id : Id
  role : DroneRole
  depth : ℚ
  trust : ℚ
  lastSeen : ℚ

/-- What drones are elected by: the deepest one, then the most trusted one, then the least id. -/
def DroneState.electionKey (d : DroneState Id) : ℚ ×ₗ ℚ ×ₗ Id :=
  toLex (-d.depth, toLex (-d.trust, d.id))

structure BlackoutCoordinationConfig where
  minPeersForming : ℤ := 5
  minLiveRecovering : ℤ := 3
  soloNoPeerSec : ℚ := 30
  explorerCandidatesRoles : List DroneRole := [.standby]

/-- An entry of the audit buffer. -/
inductive Decision (Id : Type*)
  | swarmTransition (why : String) (before after : SwarmState)
  | explorerElect (depth trust : ℚ) (after : Id)

structure BlackoutStateMachine (Id : Type*) [LinearOrder Id] where
  cfg : BlackoutCoordinationConfig
  swarmState : SwarmState
  drones : KeyedMap (DroneState.id : DroneState Id → Id)
  explorerId : Option Id
  firstEmptyPeersAt : Option ℚ
  lastDecisions : List (Decision Id)

namespace BlackoutStateMachine

/-- A machine that has heard nothing yet. -/
def new (cfg : BlackoutCoordinationConfig) : BlackoutStateMachine Id where
  cfg
  swarmState := .discovery
  drones := ∅
  explorerId := none
  firstEmptyPeersAt := none
  lastDecisions := []

variable (m : BlackoutStateMachine Id)

/-- The drones heard of in the last seconds, three unless told otherwise. -/
def liveDrones (now : ℚ) (maxAge : ℚ := 3) : List Id :=
  (m.drones.values.filter fun d => now - d.lastSeen ≤ maxAge).map DroneState.id

def transition (new : SwarmState) (why : String) : BlackoutStateMachine Id :=
  if m.swarmState = new then m
  else { m with
    swarmState := new
    lastDecisions := m.lastDecisions ++ [.swarmTransition why m.swarmState new] }

/-- The drones that may be elected: those with a role that qualifies, or else every drone that was
ever heard of. -/
def explorerCandidates : List (DroneState Id) :=
  let candidates := m.drones.values.filter fun d => d.role ∈ m.cfg.explorerCandidatesRoles
  if candidates = [] then m.drones.values else candidates

/-- The election; it leaves the machine as it is if there is nobody to elect. -/
def electExplorer : Option Id × BlackoutStateMachine Id :=
  match m.explorerCandidates.argmin DroneState.electionKey with
  | none => (none, m)
  | some chosen => (some chosen.id, { m with
      explorerId := some chosen.id
      lastDecisions := m.lastDecisions ++ [.explorerElect chosen.depth chosen.trust chosen.id] })

/-! ### The guards of a heartbeat -/

def noteHeartbeat (hb : HeartbeatMsg Id) (now : ℚ) : BlackoutStateMachine Id :=
  { m with drones := m.drones.put ⟨hb.nodeId, hb.role, hb.depth, hb.trust, now⟩ }

/-- The isolation timer: it runs while the drone that beats is alone, and takes the swarm to solo
flight when it has run long enough.  Company ends solo flight. -/
def checkIsolation (peerCount : ℕ) (now : ℚ) : BlackoutStateMachine Id :=
  if peerCount ≤ 1 then
    let since := m.firstEmptyPeersAt.getD now
    let m := { m with firstEmptyPeersAt := some since }
    if now - since ≥ m.cfg.soloNoPeerSec then
      m.transition .solo "mesh quorum lost >= solo window"
    else m
  else
    let m := { m with firstEmptyPeersAt := none }
    if m.swarmState = .solo then m.transition .discovery "peers rediscovered after solo" else m

/-- The loss of the quorum, with the actions it asks for. -/
def checkQuorum (peerCount : ℕ) : List Action × BlackoutStateMachine Id :=
  if peerCount < m.cfg.minLiveRecovering ∧ peerCount > 0 then
    let m := if m.swarmState ∉ [.recovering, .discovery, .solo] then
        m.transition .recovering s!"live<{m.cfg.minLiveRecovering}" else m
    (if m.swarmState ≠ .solo then [⟨.rebuildChain, s!"peers={peerCount}"⟩] else [], m)
  else ([], m)

def checkForming (peerCount : ℕ) : BlackoutStateMachine Id :=
  if m.swarmState = .discovery ∧ peerCount ≥ m.cfg.minPeersForming then
    m.transition .forming s!"peers>={m.cfg.minPeersForming}"
  else m

/-- A swarm that is forming elects its explorer once. -/
def checkElection : BlackoutStateMachine Id :=
  if m.swarmState = .forming ∧ m.explorerId = none then
    if m.electExplorer.1.isSome then
      m.electExplorer.2.transition .exploring "explorer elected + chain policy armed"
    else m.electExplorer.2
  else m

def checkRestored (peerCount : ℕ) : BlackoutStateMachine Id :=
  if m.swarmState = .recovering ∧ peerCount ≥ m.cfg.minLiveRecovering then
    m.transition .exploring "quorum restored"
  else m

/-- A heartbeat, with the actions it asks for. -/
def onHeartbeat (hb : HeartbeatMsg Id) (now : ℚ) : List Action × BlackoutStateMachine Id :=
  let m := m.noteHeartbeat hb now
  let peerCount := (m.liveDrones now).length
  let m := m.checkIsolation peerCount now
  let r := m.checkQuorum peerCount
  (r.1, ((r.2.checkForming peerCount).checkElection).checkRestored peerCount)

/-- Hands out the audit buffer. -/
def popDecisions : List (Decision Id) × BlackoutStateMachine Id :=
  (m.lastDecisions, { m with lastDecisions := [] })

end BlackoutStateMachine

open BlackoutStateMachine

/-- A heartbeat and the time at which it is handled. -/
structure Beat (Id : Type*) where
  hb : HeartbeatMsg Id
  now : ℚ

/-- Heartbeats as steps. -/
def beat (m : BlackoutStateMachine Id) (e : Beat Id) : Option (BlackoutStateMachine Id) :=
  some (m.onHeartbeat e.hb e.now).2

/-- The number of live drones that a heartbeat counts. -/
def peerCount (m : BlackoutStateMachine Id) (e : Beat Id) : ℕ :=
  ((m.noteHeartbeat e.hb e.now).liveDrones e.now).length

variable (m : BlackoutStateMachine Id)

/-! ### What the guards leave alone -/

@[simp] theorem swarmState_transition (s : SwarmState) (why : String) :
    (m.transition s why).swarmState = s := by
  unfold transition
  split <;> simp [*]

@[simp] theorem transition_rest (s : SwarmState) (why : String) :
    (m.transition s why).cfg = m.cfg ∧ (m.transition s why).drones = m.drones ∧
      (m.transition s why).explorerId = m.explorerId := by
  unfold transition
  split <;> exact ⟨rfl, rfl, rfl⟩

@[simp] theorem checkIsolation_rest (peers : ℕ) (now : ℚ) :
    (m.checkIsolation peers now).cfg = m.cfg ∧ (m.checkIsolation peers now).drones = m.drones ∧
      (m.checkIsolation peers now).explorerId = m.explorerId := by
  unfold checkIsolation
  dsimp only
  split <;> split <;> simp

@[simp] theorem checkQuorum_rest (peers : ℕ) :
    (m.checkQuorum peers).2.cfg = m.cfg ∧ (m.checkQuorum peers).2.drones = m.drones ∧
      (m.checkQuorum peers).2.explorerId = m.explorerId := by
  unfold checkQuorum
  dsimp only
  split
  · split <;> simp
  · simp

@[simp] theorem checkForming_rest (peers : ℕ) :
    (m.checkForming peers).cfg = m.cfg ∧ (m.checkForming peers).drones = m.drones ∧
      (m.checkForming peers).explorerId = m.explorerId := by
  unfold checkForming
  split <;> simp

@[simp] theorem checkRestored_rest (peers : ℕ) :
    (m.checkRestored peers).cfg = m.cfg ∧ (m.checkRestored peers).drones = m.drones ∧
      (m.checkRestored peers).explorerId = m.explorerId := by
  unfold checkRestored
  split <;> simp

@[simp] theorem electExplorer_rest :
    m.electExplorer.2.cfg = m.cfg ∧ m.electExplorer.2.drones = m.drones := by
  unfold electExplorer
  cases m.explorerCandidates.argmin DroneState.electionKey <;> simp

@[simp] theorem checkElection_rest :
    m.checkElection.cfg = m.cfg ∧ m.checkElection.drones = m.drones := by
  unfold checkElection
  split
  · split <;> simp
  · simp

@[simp] theorem cfg_onHeartbeat (hb : HeartbeatMsg Id) (now : ℚ) :
    (m.onHeartbeat hb now).2.cfg = m.cfg := by
  simp [onHeartbeat, noteHeartbeat]

@[simp] theorem drones_onHeartbeat (hb : HeartbeatMsg Id) (now : ℚ) :
    (m.onHeartbeat hb now).2.drones = (m.noteHeartbeat hb now).drones := by
  simp [onHeartbeat]

/-! ### The mode after each guard -/

theorem swarmState_checkIsolation (peers : ℕ) (now : ℚ) :
    (m.checkIsolation peers now).swarmState =
      if peers ≤ 1 then
        if now - m.firstEmptyPeersAt.getD now ≥ m.cfg.soloNoPeerSec then .solo else m.swarmState
      else if m.swarmState = .solo then .discovery else m.swarmState := by
  unfold checkIsolation
  dsimp only
  split <;> split <;> simp [*]

theorem swarmState_checkQuorum (peers : ℕ) :
    (m.checkQuorum peers).2.swarmState =
      if (peers < m.cfg.minLiveRecovering ∧ peers > 0) ∧
        m.swarmState ∉ [.recovering, .discovery, .solo] then .recovering else m.swarmState := by
  unfold checkQuorum
  dsimp only
  by_cases h : (peers : ℤ) < m.cfg.minLiveRecovering ∧ peers > 0
  · rw [if_pos h]
    split <;> simp_all
  · rw [if_neg h, if_neg fun hn => h hn.1]

theorem swarmState_checkForming (peers : ℕ) :
    (m.checkForming peers).swarmState =
      if m.swarmState = .discovery ∧ (peers : ℤ) ≥ m.cfg.minPeersForming then .forming
      else m.swarmState := by
  unfold checkForming
  split <;> simp

theorem swarmState_checkRestored (peers : ℕ) :
    (m.checkRestored peers).swarmState =
      if m.swarmState = .recovering ∧ (peers : ℤ) ≥ m.cfg.minLiveRecovering then .exploring
      else m.swarmState := by
  unfold checkRestored
  split <;> simp

/-! ### Elections -/

theorem explorerCandidates_subset {d : DroneState Id} (h : d ∈ m.explorerCandidates) :
    d ∈ m.drones.values := by
  unfold explorerCandidates at h
  dsimp only at h
  split at h
  · exact h
  · exact (List.mem_filter.1 h).1

theorem explorerCandidates_ne_nil (h : m.drones.values ≠ []) : m.explorerCandidates ≠ [] := by
  unfold explorerCandidates
  dsimp only
  split
  · exact h
  · assumption

/-- **An election among drones that are known elects one of them.** -/
theorem electExplorer_of_mem (h : m.drones.values ≠ []) :
    ∃ chosen ∈ m.drones.values, m.electExplorer.1 = some chosen.id ∧
      m.electExplorer.2.explorerId = some chosen.id := by
  have hne := explorerCandidates_ne_nil m h
  obtain ⟨chosen, hchosen⟩ : ∃ chosen,
      m.explorerCandidates.argmin DroneState.electionKey = some chosen :=
    Option.ne_none_iff_exists'.1 (mt List.argmin_eq_none.1 hne)
  refine ⟨chosen, explorerCandidates_subset m (List.argmin_mem hchosen), ?_⟩
  simp [electExplorer, hchosen]

theorem checkElection_of_forming (h : m.drones.values ≠ []) (hf : m.swarmState = .forming)
    (he : m.explorerId = none) : m.checkElection.swarmState = .exploring ∧
      ∃ chosen ∈ m.drones.values, m.checkElection.explorerId = some chosen.id := by
  obtain ⟨chosen, hmem, hsome, hid⟩ := electExplorer_of_mem m h
  simp only [checkElection, hf, he, hsome, and_self, if_true, Option.isSome_some,
    swarmState_transition, true_and]
  exact ⟨chosen, hmem, by simp [hid]⟩

theorem checkElection_of_not (h : ¬ (m.swarmState = .forming ∧ m.explorerId = none)) :
    m.checkElection = m := by
  rw [checkElection, if_neg h]

/-! ### What a heartbeat does -/

/-- The machine when a heartbeat has been noted, its mode settled up to the elections. -/
def beforeElection (e : Beat Id) : BlackoutStateMachine Id :=
  ((((m.noteHeartbeat e.hb e.now).checkIsolation (peerCount m e) e.now).checkQuorum
    (peerCount m e)).2).checkForming (peerCount m e)

theorem onHeartbeat_eq (e : Beat Id) :
    (m.onHeartbeat e.hb e.now).2 =
      (beforeElection m e).checkElection.checkRestored (peerCount m e) := by
  rw [onHeartbeat, beforeElection, peerCount]

@[simp] theorem beforeElection_rest (e : Beat Id) :
    (beforeElection m e).cfg = m.cfg ∧
      (beforeElection m e).drones = (m.noteHeartbeat e.hb e.now).drones ∧
      (beforeElection m e).explorerId = m.explorerId := by
  simp [beforeElection, noteHeartbeat]

/-- The drone that beats is known. -/
theorem get?_noteHeartbeat (e : Beat Id) (k : Id) :
    (m.noteHeartbeat e.hb e.now).drones.get? k =
      if k = e.hb.nodeId then some ⟨e.hb.nodeId, e.hb.role, e.hb.depth, e.hb.trust, e.now⟩
      else m.drones.get? k :=
  KeyedMap.get?_put _ _ _

theorem values_noteHeartbeat_ne_nil (e : Beat Id) :
    (m.noteHeartbeat e.hb e.now).drones.values ≠ [] := by
  have h : (⟨e.hb.nodeId, e.hb.role, e.hb.depth, e.hb.trust, e.now⟩ : DroneState Id) ∈
      (m.noteHeartbeat e.hb e.now).drones.values := by
    rw [KeyedMap.mem_values_iff, get?_noteHeartbeat, if_pos rfl]
  exact List.ne_nil_of_mem h

/-- The drone that beats is live. -/
theorem peerCount_pos (e : Beat Id) : 0 < peerCount m e := by
  have h : (⟨e.hb.nodeId, e.hb.role, e.hb.depth, e.hb.trust, e.now⟩ : DroneState Id) ∈
      (m.noteHeartbeat e.hb e.now).drones.values := by
    rw [KeyedMap.mem_values_iff, get?_noteHeartbeat, if_pos rfl]
  refine List.length_pos_of_mem (List.mem_map_of_mem (List.mem_filter.2 ⟨h, ?_⟩))
  exact decide_eq_true (by rw [sub_self]; exact zero_le_three)

/-- **The mode of a quorum.**  Before the elections, a swarm with enough live drones to form is
forming, unless it is already past that. -/
theorem swarmState_beforeElection_of_quorum (e : Beat Id) (h₂ : 2 ≤ m.cfg.minLiveRecovering)
    (hcfg : m.cfg.minLiveRecovering ≤ m.cfg.minPeersForming)
    (hp : m.cfg.minPeersForming ≤ peerCount m e) :
    (beforeElection m e).swarmState =
      if m.swarmState ∈ [.discovery, .forming, .solo] then .forming else m.swarmState := by
  have hpeers : ¬ peerCount m e ≤ 1 := by omega
  have hlive : ¬ (peerCount m e : ℤ) < m.cfg.minLiveRecovering := by omega
  simp only [beforeElection, swarmState_checkForming, swarmState_checkQuorum, checkQuorum_rest,
    checkIsolation_rest, swarmState_checkIsolation, noteHeartbeat, if_neg hpeers, hlive,
    false_and, if_false, ge_iff_le, hp, and_true]
  cases m.swarmState <;> simp

/-- **The mode before the elections**, whatever the number of live drones: how a heartbeat can come
to be forming, exploring or recovering. -/
theorem swarmState_beforeElection_cases (e : Beat Id) :
    (beforeElection m e).swarmState = .forming ∧ m.cfg.minPeersForming ≤ peerCount m e ∨
      (beforeElection m e).swarmState = .exploring ∧ m.swarmState = .exploring ∧
        m.cfg.minLiveRecovering ≤ peerCount m e ∨
      (beforeElection m e).swarmState = .recovering ∧
        m.swarmState ∈ [.forming, .exploring, .recovering] ∨
      (beforeElection m e).swarmState = m.swarmState ∧ m.swarmState = .forming ∨
      (beforeElection m e).swarmState ∈ [.discovery, .solo] := by
  have hpos := peerCount_pos m e
  simp only [beforeElection, swarmState_checkForming, swarmState_checkQuorum, checkQuorum_rest,
    checkIsolation_rest, swarmState_checkIsolation, noteHeartbeat]
  cases m.swarmState <;> split_ifs <;> simp_all

/-- An explorer, once elected, is never replaced. -/
theorem explorerId_onHeartbeat (e : Beat Id) {x : Id} (h : m.explorerId = some x) :
    (m.onHeartbeat e.hb e.now).2.explorerId = some x := by
  have hnot : ¬ ((beforeElection m e).swarmState = .forming ∧
      (beforeElection m e).explorerId = none) := by
    simp [h]
  rw [onHeartbeat_eq, checkElection_of_not _ hnot]
  simp [h]

/-- **The mode after a heartbeat with enough peers to form**: the swarm explores, unless it has to
form again and has its explorer already. -/
theorem swarmState_of_quorum (e : Beat Id) (h₂ : 2 ≤ m.cfg.minLiveRecovering)
    (hcfg : m.cfg.minLiveRecovering ≤ m.cfg.minPeersForming)
    (hp : m.cfg.minPeersForming ≤ peerCount m e) :
    (m.onHeartbeat e.hb e.now).2.swarmState =
      if m.swarmState ∈ [.discovery, .forming, .solo] ∧ m.explorerId ≠ none then .forming
      else .exploring := by
  have hlive : m.cfg.minLiveRecovering ≤ peerCount m e := le_trans hcfg hp
  have hmode := swarmState_beforeElection_of_quorum m e h₂ hcfg hp
  rw [onHeartbeat_eq, swarmState_checkRestored]
  by_cases hf : m.swarmState ∈ [.discovery, .forming, .solo]
  · rw [if_pos hf] at hmode
    by_cases he : m.explorerId = none
    · have helect := checkElection_of_forming (beforeElection m e)
        (by simpa using values_noteHeartbeat_ne_nil m e) hmode (by simpa using he)
      simp [helect.1, he]
    · rw [checkElection_of_not _ (by simp [he])]
      simp [hmode, hf, he]
  · rw [if_neg hf] at hmode
    have hnot : ¬ ((beforeElection m e).swarmState = .forming ∧
        (beforeElection m e).explorerId = none) := by
      rw [hmode]
      exact fun hforming => hf (by simp [hforming.1])
    rw [checkElection_of_not _ hnot, hmode]
    cases hm : m.swarmState <;> simp_all

/-- **How a swarm comes to explore.**  Once every mode past discovery has its explorer, a heartbeat
that leaves the swarm exploring has enough live drones to operate. -/
theorem quorum_of_exploring (e : Beat Id)
    (hcfg : m.cfg.minLiveRecovering ≤ m.cfg.minPeersForming)
    (hforming : m.swarmState = .forming → m.explorerId ≠ none)
    (h : (m.onHeartbeat e.hb e.now).2.swarmState = .exploring) :
    m.cfg.minLiveRecovering ≤ peerCount m e := by
  have hcases := swarmState_beforeElection_cases m e
  rw [onHeartbeat_eq, swarmState_checkRestored] at h
  by_cases helect : (beforeElection m e).swarmState = .forming ∧
      (beforeElection m e).explorerId = none
  · -- an election: the swarm was not forming before, so it has just found its peers
    have hnone : m.explorerId = none := by simpa using helect.2
    rw [helect.1] at hcases
    rcases hcases with ⟨-, hp⟩ | ⟨hne, -⟩ | ⟨hne, -⟩ | ⟨-, hm⟩ | hne
    · exact le_trans hcfg hp
    · cases hne
    · cases hne
    · exact absurd hnone (hforming hm)
    · simp at hne
  · rw [checkElection_of_not _ helect] at h
    split at h
    · next hrestored => simpa using hrestored.2
    · rw [h] at hcases
      rcases hcases with ⟨hne, -⟩ | ⟨-, -, hp⟩ | ⟨hne, -⟩ | ⟨hne, hm⟩ | hne
      · cases hne
      · exact hp
      · cases hne
      · rw [hm] at hne
        cases hne
      · simp at hne

/-- **A swarm past discovery has its explorer**, if it had one before whenever it was past
discovery, and the explorer is a drone that was heard of. -/
theorem explorer_onHeartbeat (e : Beat Id)
    (hheard : ∀ x, m.explorerId = some x → (m.drones.get? x).isSome)
    (hset : m.swarmState ∈ [.forming, .exploring, .recovering] → m.explorerId ≠ none) :
    (∀ x, (m.onHeartbeat e.hb e.now).2.explorerId = some x →
      ((m.onHeartbeat e.hb e.now).2.drones.get? x).isSome) ∧
    ((m.onHeartbeat e.hb e.now).2.swarmState ∈ [.forming, .exploring, .recovering] →
      (m.onHeartbeat e.hb e.now).2.explorerId ≠ none) := by
  rw [drones_onHeartbeat]
  by_cases helect : (beforeElection m e).swarmState = .forming ∧
      (beforeElection m e).explorerId = none
  · obtain ⟨-, chosen, hmem, hid⟩ := checkElection_of_forming (beforeElection m e)
      (by simpa using values_noteHeartbeat_ne_nil m e) helect.1 helect.2
    have hafter : (m.onHeartbeat e.hb e.now).2.explorerId = some chosen.id := by
      rw [onHeartbeat_eq]
      simp [hid]
    rw [hafter]
    refine ⟨fun x hx => ?_, fun _ => by simp⟩
    obtain rfl := Option.some.inj hx
    rw [(beforeElection_rest m e).2.1, KeyedMap.mem_values_iff] at hmem
    rw [hmem, Option.isSome_some]
  · have hafter : (m.onHeartbeat e.hb e.now).2.explorerId = m.explorerId := by
      rw [onHeartbeat_eq, checkElection_of_not _ helect]
      simp
    rw [hafter]
    refine ⟨fun x hx => ?_, fun hmode hnone => ?_⟩
    · rw [get?_noteHeartbeat]
      split
      · rfl
      · exact hheard x hx
    · -- without an election the swarm was past discovery before
      have hm : m.swarmState ∉ [.forming, .exploring, .recovering] := fun hm => hset hm hnone
      rw [onHeartbeat_eq, checkElection_of_not _ helect, swarmState_checkRestored] at hmode
      rcases swarmState_beforeElection_cases m e with h | h | h | h | h
      · exact helect ⟨h.1, by simpa using hnone⟩
      · exact hm (by simp [h.2.1])
      · exact hm h.2
      · exact hm (by simp [h.2])
      · simp only [List.mem_cons, List.not_mem_nil, or_false] at h
        rcases h with h | h <;> simp [h] at hmode

end Blackout
