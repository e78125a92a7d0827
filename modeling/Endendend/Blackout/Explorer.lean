/-
**The explorer of an exploring swarm.**

The explorer is elected once, from all the drones that were ever heard of, and is never replaced.
So a swarm that explores has an explorer, but the explorer need not be live: it may fall silent
while the others keep the quorum.  And a swarm that comes back from solo flight forms again, but
since it has its explorer already there is no election that would take it out of forming.

Main definitions:

* `Blackout.InOrder` — heartbeats at times that do not decrease;
* `Blackout.ExploresWithQuorum` — a heartbeat with enough live drones to form leaves the swarm
  exploring;
* `Blackout.FormsAnew` — a heartbeat makes a swarm form that has its explorer already.

Main results:

* `Blackout.explorer_was_heard` — **an exploring swarm has an explorer that was heard of and a
  quorum of live drones**; the explorer is one of them exactly if it was heard of recently;
* `Blackout.never_sticks_iff` — **a run never sticks in forming exactly if it never forms anew**.
-/
import Endendend.Blackout.StateMachine
import Endendend.Swarm.BullyElection

set_option relaxedAutoImplicit false
set_option autoImplicit false

namespace Blackout

open Js Runs BlackoutStateMachine
open Swarm (NodeId)

variable {Id : Type*} [LinearOrder Id]

/-! ### The explorer -/

/-- Heartbeats handled at times that do not decrease. -/
def InOrder (es : List (Beat Id)) : Prop := es.Pairwise fun e e' => e.now ≤ e'.now

/-- The table of drones holds the latest heartbeat of every drone that was heard of. -/
structure Latest (es : List (Beat Id)) (m : BlackoutStateMachine Id) : Prop where
  recorded : ∀ e ∈ es, (m.drones.get? e.hb.nodeId).isSome
  heard : ∀ x d, m.drones.get? x = some d → ∃ e ∈ es, e.hb.nodeId = x ∧ e.now = d.lastSeen
  latest : ∀ x d, m.drones.get? x = some d → ∀ e ∈ es, e.hb.nodeId = x → e.now ≤ d.lastSeen

theorem Latest.concat {es : List (Beat Id)} {m : BlackoutStateMachine Id} (h : Latest es m)
    (e : Beat Id) (hord : ∀ e' ∈ es, e'.now ≤ e.now) :
    Latest (es ++ [e]) (m.onHeartbeat e.hb e.now).2 := by
  have hget (x : Id) := get?_noteHeartbeat m e x
  refine ⟨fun e' he' => ?_, fun x d hd => ?_, fun x d hd e' he' hx => ?_⟩
  · rw [drones_onHeartbeat, hget]
    split
    · rfl
    · next hne =>
        rcases List.mem_append.1 he' with he' | he'
        · exact h.recorded e' he'
        · rw [List.mem_singleton.1 he'] at hne
          exact absurd rfl hne
  · rw [drones_onHeartbeat, hget] at hd
    split at hd
    · next hx =>
        obtain rfl := Option.some.inj hd
        exact ⟨e, by simp, hx.symm, rfl⟩
    · obtain ⟨e', he', hx, hnow⟩ := h.heard x d hd
      exact ⟨e', List.mem_append_left _ he', hx, hnow⟩
  · rw [drones_onHeartbeat, hget] at hd
    split at hd
    · obtain rfl := Option.some.inj hd
      rcases List.mem_append.1 he' with he' | he'
      · exact hord e' he'
      · rw [List.mem_singleton.1 he']
    · next hne =>
        rcases List.mem_append.1 he' with he' | he'
        · exact h.latest x d hd e' he' hx
        · rw [List.mem_singleton.1 he'] at hx
          exact absurd hx.symm hne

/-- A drone is live exactly if one of its heartbeats came at most three seconds ago. -/
theorem Latest.mem_liveDrones_iff {es : List (Beat Id)} {m : BlackoutStateMachine Id}
    (h : Latest es m) (now : ℚ) (x : Id) :
    x ∈ m.liveDrones now ↔ ∃ e ∈ es, e.hb.nodeId = x ∧ now - e.now ≤ 3 := by
  simp only [liveDrones, List.mem_map, List.mem_filter, decide_eq_true_eq]
  constructor
  · rintro ⟨d, ⟨hd, hage⟩, rfl⟩
    obtain ⟨e, he, hx, hnow⟩ := h.heard d.id d (KeyedMap.mem_values_iff.1 hd)
    exact ⟨e, he, hx, hnow ▸ hage⟩
  · rintro ⟨e, he, rfl, hage⟩
    obtain ⟨d, hd⟩ := Option.isSome_iff_exists.1 (h.recorded e he)
    have hid : d.id = e.hb.nodeId := KeyedMap.key_of_get? hd
    refine ⟨d, ⟨KeyedMap.mem_values_iff.2 (hid ▸ hd), ?_⟩, hid⟩
    exact le_trans (sub_le_sub_left (h.latest _ d hd e he rfl) now) hage

/-- What is known of a machine after some heartbeats: its configuration is the one it began with,
its explorer was heard of, and it has one whenever it is past discovery. -/
structure Explored (cfg : BlackoutCoordinationConfig) (m : BlackoutStateMachine Id) : Prop where
  cfg_eq : m.cfg = cfg
  heard : ∀ x, m.explorerId = some x → (m.drones.get? x).isSome
  elected : m.swarmState ∈ [.forming, .exploring, .recovering] → m.explorerId ≠ none

theorem explored_new (cfg : BlackoutCoordinationConfig) :
    Explored cfg (new cfg : BlackoutStateMachine Id) :=
  ⟨rfl, fun _ h => absurd h (by simp [new]), fun h => absurd h (by simp [new])⟩

theorem Explored.onHeartbeat {cfg : BlackoutCoordinationConfig} {m : BlackoutStateMachine Id}
    (h : Explored cfg m) (e : Beat Id) : Explored cfg (m.onHeartbeat e.hb e.now).2 := by
  obtain ⟨hheard, helected⟩ := explorer_onHeartbeat m e h.heard h.elected
  exact ⟨(cfg_onHeartbeat m e.hb e.now).trans h.cfg_eq, hheard, helected⟩

theorem explored_of_run {cfg : BlackoutCoordinationConfig} {es : List (Beat Id)}
    {m : BlackoutStateMachine Id} (h : run beat (new cfg) es = some m) : Explored cfg m := by
  refine invariant_of_run (fun s e s' hs hstep => ?_) (explored_new cfg) h
  obtain rfl := Option.some.inj hstep
  exact hs.onHeartbeat e

theorem latest_of_run {cfg : BlackoutCoordinationConfig} {es : List (Beat Id)}
    {m : BlackoutStateMachine Id} (h : run beat (new cfg) es = some m) (hord : InOrder es) :
    Latest es m := by
  induction es using List.reverseRecOn generalizing m with
  | nil =>
      obtain rfl := Option.some.inj h
      have hnone (x : Id) (d : DroneState Id) : (new cfg).drones.get? x ≠ some d :=
        Option.some_ne_none d ∘ Eq.symm
      exact ⟨by simp, fun x d hd => absurd hd (hnone x d), fun x d hd => absurd hd (hnone x d)⟩
  | append_singleton es e ih =>
      obtain ⟨m₁, h₁, hstep⟩ := run_concat.1 h
      obtain rfl := Option.some.inj hstep
      obtain ⟨hes, -, hcross⟩ := List.pairwise_append.1 hord
      exact (ih h₁ hes).concat e fun e' he' => hcross e' he' e (by simp)

/-- **An exploring swarm has an explorer that was heard of and a quorum of live drones.**  The
explorer is live exactly if one of its heartbeats came in the last three seconds. -/
theorem explorer_was_heard {cfg : BlackoutCoordinationConfig}
    (hcfg : cfg.minLiveRecovering ≤ cfg.minPeersForming) {es : List (Beat Id)} {e : Beat Id}
    (hord : InOrder (es ++ [e])) {m : BlackoutStateMachine Id}
    (hrun : run beat (new cfg) es = some m)
    (h : (m.onHeartbeat e.hb e.now).2.swarmState = .exploring) :
    (∃ x, (m.onHeartbeat e.hb e.now).2.explorerId = some x ∧
      (∃ e' ∈ es ++ [e], e'.hb.nodeId = x) ∧
      (x ∈ (m.onHeartbeat e.hb e.now).2.liveDrones e.now ↔
        ∃ e' ∈ es ++ [e], e'.hb.nodeId = x ∧ e.now - e'.now ≤ 3)) ∧
    cfg.minLiveRecovering ≤ ((m.onHeartbeat e.hb e.now).2.liveDrones e.now).length := by
  have hm := explored_of_run hrun
  have hm' := hm.onHeartbeat e
  have hlatest : Latest (es ++ [e]) (m.onHeartbeat e.hb e.now).2 :=
    latest_of_run (run_concat.2 ⟨m, hrun, rfl⟩) hord
  constructor
  · obtain ⟨x, hx⟩ := Option.ne_none_iff_exists'.1 (hm'.elected (by simp [h]))
    obtain ⟨d, hd⟩ := Option.isSome_iff_exists.1 (hm'.heard x hx)
    obtain ⟨e', he', hid, -⟩ := hlatest.heard x d hd
    exact ⟨x, hx, ⟨e', he', hid⟩, hlatest.mem_liveDrones_iff e.now x⟩
  · have hquorum := quorum_of_exploring m e (by rwa [hm.cfg_eq])
      (fun hf => hm.elected (by simp [hf])) h
    rw [hm.cfg_eq] at hquorum
    simpa [liveDrones, peerCount] using hquorum

/-- Two drones are enough to form and to operate, and five seconds alone make solo flight. -/
def pairConfig : BlackoutCoordinationConfig where
  minPeersForming := 2
  minLiveRecovering := 2
  soloNoPeerSec := 5

/-- A heartbeat with the time it carries. -/
def beatOf (nodeId : NodeId) (depth now : ℚ) : Beat NodeId :=
  ⟨⟨nodeId, now, depth, 1, .standby⟩, now⟩

theorem explorer_was_heard_pair :
    pairConfig.minLiveRecovering ≤ pairConfig.minPeersForming ∧
    InOrder [beatOf "a" 2 0, beatOf "b" 1 0] ∧
    (∃ x, (((new pairConfig).onHeartbeat (beatOf "a" 2 0).hb 0).2.onHeartbeat
        (beatOf "b" 1 0).hb 0).2.explorerId = some x ∧
      (∃ e' ∈ [beatOf "a" 2 0, beatOf "b" 1 0], e'.hb.nodeId = x)) := by
  have hord : InOrder [beatOf "a" 2 0, beatOf "b" 1 0] := by
    unfold InOrder
    decide +kernel
  have hrun : run beat (new pairConfig) [beatOf "a" 2 0] =
    some ((new pairConfig).onHeartbeat (beatOf "a" 2 0).hb 0).2 := rfl
  obtain ⟨⟨x, hx, hheard, -⟩, -⟩ :=
    explorer_was_heard (by decide) (e := beatOf "b" 1 0) hord hrun (by decide +kernel)
  exact ⟨by decide, hord, x, hx, hheard⟩

/-- The explorer falls silent while two other drones keep the quorum. -/
def explorerLost : List (Beat NodeId) :=
  [beatOf "a" 2 0, beatOf "b" 1 0, beatOf "b" 1 4]

theorem explorer_not_always_live :
    ¬ ∀ (cfg : BlackoutCoordinationConfig), cfg.minLiveRecovering ≤ cfg.minPeersForming →
      ∀ (es : List (Beat NodeId)) (e : Beat NodeId) (m : BlackoutStateMachine NodeId),
        InOrder (es ++ [e]) → run beat (new cfg) es = some m →
        (m.onHeartbeat e.hb e.now).2.swarmState = .exploring →
        ∃ x, (m.onHeartbeat e.hb e.now).2.explorerId = some x ∧
          x ∈ (m.onHeartbeat e.hb e.now).2.liveDrones e.now := by
  intro h
  obtain ⟨m, hm⟩ : ∃ m, run beat (new pairConfig) explorerLost = some m := ⟨_, rfl⟩
  have hlast : (m.onHeartbeat (beatOf "c" 1 4).hb 4).2.swarmState = .exploring ∧
      (m.onHeartbeat (beatOf "c" 1 4).hb 4).2.explorerId = some ("a" : NodeId) ∧
      ("a" : NodeId) ∉ (m.onHeartbeat (beatOf "c" 1 4).hb 4).2.liveDrones 4 := by
    obtain rfl := Option.some.inj hm
    decide +kernel
  obtain ⟨x, hx, hlive⟩ := h pairConfig (by decide) explorerLost (beatOf "c" 1 4) m
    (by unfold InOrder; decide +kernel) hm hlast.1
  obtain rfl := Option.some.inj (hlast.2.1.symm.trans hx)
  exact hlast.2.2 hlive

/-! ### Forming again -/

/-- A heartbeat with enough live drones to form leaves the swarm exploring. -/
def ExploresWithQuorum (m : BlackoutStateMachine Id) (e : Beat Id) : Prop :=
  m.cfg.minPeersForming ≤ ((m.onHeartbeat e.hb e.now).2.liveDrones e.now).length →
    (m.onHeartbeat e.hb e.now).2.swarmState = .exploring

/-- A heartbeat brings together enough live drones to form, in a swarm that is not past forming
although it has its explorer already. -/
def FormsAnew (m : BlackoutStateMachine Id) (e : Beat Id) : Prop :=
  m.cfg.minPeersForming ≤ peerCount m e ∧ m.swarmState ∈ [.discovery, .forming, .solo] ∧
    m.explorerId ≠ none

theorem exploresWithQuorum_iff {m : BlackoutStateMachine Id} (e : Beat Id)
    (h₂ : 2 ≤ m.cfg.minLiveRecovering)
    (hcfg : m.cfg.minLiveRecovering ≤ m.cfg.minPeersForming) :
    ExploresWithQuorum m e ↔ ¬ FormsAnew m e := by
  have hlive : (m.onHeartbeat e.hb e.now).2.liveDrones e.now =
      (m.noteHeartbeat e.hb e.now).liveDrones e.now := by
    simp [liveDrones]
  unfold ExploresWithQuorum FormsAnew
  rw [hlive, ← peerCount]
  by_cases hp : m.cfg.minPeersForming ≤ peerCount m e
  · rw [swarmState_of_quorum m e h₂ hcfg hp]
    by_cases hanew : m.swarmState ∈ [.discovery, .forming, .solo] ∧ m.explorerId ≠ none
    · simp [hp, hanew]
    · rw [if_neg hanew]
      exact iff_of_true (fun _ => rfl) fun h => hanew h.2
  · exact iff_of_true (fun h => absurd h hp) fun h => hp h.1

/-- **A run never sticks in forming exactly if it never forms anew.** -/
theorem never_sticks_iff {cfg : BlackoutCoordinationConfig} (h₂ : 2 ≤ cfg.minLiveRecovering)
    (hcfg : cfg.minLiveRecovering ≤ cfg.minPeersForming) (es : List (Beat Id)) :
    Along beat ExploresWithQuorum (new cfg) es ↔
      Along beat (fun m e => ¬ FormsAnew m e) (new cfg) es := by
  suffices h : ∀ m : BlackoutStateMachine Id, m.cfg = cfg →
      (Along beat ExploresWithQuorum m es ↔ Along beat (fun m e => ¬ FormsAnew m e) m es) from
    h _ rfl
  induction es with
  | nil => exact fun m _ => Iff.rfl
  | cons e es ih =>
      intro m hm
      rw [along_cons rfl, along_cons rfl,
        exploresWithQuorum_iff e (by rwa [hm]) (by rwa [hm]),
        ih _ ((cfg_onHeartbeat m e.hb e.now).trans hm)]

theorem never_sticks_iff_pair :
    Along beat ExploresWithQuorum (new pairConfig) [beatOf "a" 2 0, beatOf "b" 1 0] ↔
      Along beat (fun m e => ¬ FormsAnew m e) (new pairConfig)
        [beatOf "a" 2 0, beatOf "b" 1 0] :=
  never_sticks_iff (by decide) (by decide) _

/-- The two drones explore, one is alone for long enough to fly solo, and the other comes back. -/
def reunion : List (Beat NodeId) :=
  [beatOf "a" 2 0, beatOf "b" 1 0, beatOf "a" 2 10, beatOf "a" 2 16]

theorem forming_sticks :
    ¬ ∀ (cfg : BlackoutCoordinationConfig), 2 ≤ cfg.minLiveRecovering →
      cfg.minLiveRecovering ≤ cfg.minPeersForming →
      ∀ (es : List (Beat NodeId)) (e : Beat NodeId) (m : BlackoutStateMachine NodeId),
        InOrder (es ++ [e]) → run beat (new cfg) es = some m →
        cfg.minPeersForming ≤ ((m.onHeartbeat e.hb e.now).2.liveDrones e.now).length →
        (m.onHeartbeat e.hb e.now).2.swarmState = .exploring := by
  intro h
  obtain ⟨m, hm⟩ : ∃ m, run beat (new pairConfig) reunion = some m := ⟨_, rfl⟩
  have hlast : pairConfig.minPeersForming ≤
      ((m.onHeartbeat (beatOf "b" 1 16).hb 16).2.liveDrones 16).length ∧
      (m.onHeartbeat (beatOf "b" 1 16).hb 16).2.swarmState = .forming := by
    obtain rfl := Option.some.inj hm
    decide +kernel
  have hexploring := h pairConfig (by decide) (by decide) reunion (beatOf "b" 1 16) m
    (by unfold InOrder; decide +kernel) hm hlast.1
  cases hlast.2.symm.trans hexploring

end Blackout
