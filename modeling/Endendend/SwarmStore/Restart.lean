/-
**A store that starts again.**

After every change a store is written to a file, and a new store with the file starts from what it
reads there.  Registers, tasks, alerts and counters come back; a peer record is written with its
`node_id` and then read with the `node_id` given twice, which raises.

Main definitions:

* `SwarmStore.StateFile`, `SwarmStore.SwarmStateStore.persist`, `SwarmStore.load` — the file and
  how it is read;
* `SwarmStore.SameContents` — stores with the same contents;
* `SwarmStore.StoreOp` — the operations of a store.

Main results:

* `SwarmStore.load_of_peers` — **a file with a peer record cannot be loaded**;
* `SwarmStore.sameContents_load` — without one, everything comes back;
* `SwarmStore.restart_keeps_state_iff` — a store survives a restart exactly if it has no peers.
-/
import Endendend.SwarmStore.SwarmStateStore

set_option relaxedAutoImplicit false
set_option autoImplicit false

namespace SwarmStore

open Py (Dict Deque reread rereadDict SameDict)
open Js (Str Json OrderedMap Decimal)

/-! ### The file -/

/-- A file with the state of a store: the keys that it has. -/
structure StateFile where
  nodeId : Option Str
  swarmId : Option Str
  version : Option ℤ
  role : Option Str
  status : Option Str
  depth : Option ℤ
  peers : Option (OrderedMap Str PeerData)
  registers : Option (OrderedMap Str RegisterData)
  tasks : Option (OrderedMap Str Dict)
  alerts : Option (List Dict)
  metrics : Option (OrderedMap Str ℤ)
  savedAtMs : Option ℤ

/-- What a store writes. -/
def SwarmStateStore.persist (s : SwarmStateStore) (now : ℤ) : StateFile where
  nodeId := some s.nodeId
  swarmId := some s.swarmId
  version := some s.version
  role := some s.role
  status := some s.status
  depth := some s.depth
  peers := some (s.peers.mapValues PeerRecord.asdict)
  registers := some (s.registers.mapValues LWWValue.asdict)
  tasks := some s.tasks
  alerts := some s.alerts.items
  metrics := some s.metrics
  savedAtMs := some now

/-- What `json.loads` makes of the text that `json.dumps` writes with sorted keys. -/
def StateFile.reread (d : StateFile) : StateFile :=
  { d with
    peers := d.peers.map (rereadMap PeerData.reread)
    registers := d.registers.map (rereadMap RegisterData.reread)
    tasks := d.tasks.map (rereadMap rereadDict)
    alerts := d.alerts.map (·.map rereadDict)
    metrics := d.metrics.map (rereadMap id) }

/-! ### Loading -/

def loadPeer (s : SwarmStateStore) (entry : Str × PeerData) :
    Except TypeError SwarmStateStore := do
  let peer ← PeerRecord.ofData entry.1 entry.2
  return { s with peers := s.peers.set entry.1 peer }

def loadRegister (s : SwarmStateStore) (entry : Str × RegisterData) :
    Except TypeError SwarmStateStore := do
  let value ← LWWValue.ofData entry.2
  return { s with registers := s.registers.set entry.1 value }

/-- A new store over a file, or over none; a record that cannot be read stops the constructor. -/
def load (nodeId swarmId : Str) (file : Option StateFile) : Except TypeError SwarmStateStore :=
  let s := SwarmStateStore.new nodeId swarmId
  match file with
  | none => .ok s
  | some data => do
    let s : SwarmStateStore :=
      { s with
        version := data.version.getD 0
        role := data.role.getD s.role
        status := data.status.getD s.status
        depth := data.depth.getD s.depth }
    let s ← (data.peers.getD ∅).entries.foldlM loadPeer s
    let s ← (data.registers.getD ∅).entries.foldlM loadRegister s
    return { s with
      tasks := data.tasks.getD ∅
      alerts := s.alerts.extend (data.alerts.getD [])
      metrics := s.metrics.assign (data.metrics.getD ∅).entries
      counted := fun p hp => OrderedMap.isSome_get?_assign (s.counted p hp) _ }

/-! ### Stores with the same contents -/

/-- The same version, role, status, depth, peers, registers, tasks, alerts and counters. -/
structure SameContents (s t : SwarmStateStore) : Prop where
  version : s.version = t.version
  role : s.role = t.role
  status : s.status = t.status
  depth : s.depth = t.depth
  peers : ∀ k, Option.Rel PeerRecord.Same (s.peers.get? k) (t.peers.get? k)
  registers : ∀ k, Option.Rel LWWValue.Same (s.registers.get? k) (t.registers.get? k)
  tasks : ∀ k, Option.Rel SameDict (s.tasks.get? k) (t.tasks.get? k)
  alerts : List.Forall₂ SameDict s.alerts.items t.alerts.items
  metrics : ∀ k, s.metrics.get? k = t.metrics.get? k

/-! ### What comes back -/

/-- **A file with a peer record cannot be loaded.** -/
theorem load_of_peers (nodeId swarmId : Str) (s : SwarmStateStore) (now : ℤ)
    (h : s.peers.entries ≠ []) :
    load nodeId swarmId (some (s.persist now).reread) =
      .error (.multipleValues ("node_id" : String)) := by
  obtain ⟨p, l, hl, hp⟩ := reread_peers h
  have hfold : ∀ s' : SwarmStateStore, (p :: l).foldlM loadPeer s' =
      .error (.multipleValues ("node_id" : String)) := by
    intro s'
    rw [List.foldlM_cons, loadPeer, hp]
    rfl
  unfold load
  simp only [StateFile.reread, SwarmStateStore.persist, Option.map_some, Option.getD_some, hl,
    hfold]
  rfl

/-- Registers come back one after the other. -/
theorem foldlM_loadRegister (l : List (Str × LWWValue)) (s : SwarmStateStore) :
    (l.map fun p => (p.1, p.2.asdict)).foldlM loadRegister s =
      .ok { s with registers := s.registers.assign l } := by
  induction l generalizing s with
  | nil => rfl
  | cons p l ih =>
      rw [List.map_cons, List.foldlM_cons]
      exact ih { s with registers := s.registers.set p.1 p.2 }

/-- What a store without peers starts with again. -/
theorem load_of_no_peers (nodeId swarmId : Str) (s : SwarmStateStore) (now : ℤ)
    (h : s.peers.entries = []) :
    load nodeId swarmId (some (s.persist now).reread) = .ok
      { SwarmStateStore.new nodeId swarmId with
        version := s.version
        role := s.role
        status := s.status
        depth := s.depth
        registers := .ofList (rereadMap LWWValue.reread s.registers).entries
        tasks := rereadMap rereadDict s.tasks
        alerts := Deque.empty.extend (s.alerts.items.map rereadDict)
        metrics := (OrderedMap.ofList defaultMetrics).assign (rereadMap id s.metrics).entries
        counted := fun p hp => OrderedMap.isSome_get?_assign
          ((SwarmStateStore.new nodeId swarmId).counted p hp) _ } := by
  have hpeers := reread_no_peers h
  unfold load
  simp only [StateFile.reread, SwarmStateStore.persist, Option.map_some, Option.getD_some, hpeers,
    rereadMap_asdict]
  rw [List.foldlM_nil]
  have hregisters := foldlM_loadRegister (rereadMap LWWValue.reread s.registers).entries
    { SwarmStateStore.new nodeId swarmId with
      version := s.version, role := s.role, status := s.status, depth := s.depth }
  change (List.foldlM loadRegister _ _ >>= _) = _
  rw [show ((rereadMap LWWValue.reread s.registers).mapValues LWWValue.asdict).entries =
    (rereadMap LWWValue.reread s.registers).entries.map fun p => (p.1, p.2.asdict) from rfl,
    hregisters]
  rfl

/-- The keys of the counters of a new store. -/
theorem get?_defaultMetrics {k : Str} {v : ℤ}
    (h : (OrderedMap.ofList defaultMetrics).get? k = some v) : ∃ p ∈ defaultMetrics, p.1 = k := by
  have hnodup : (defaultMetrics.map Prod.fst).Nodup := by decide +kernel
  rw [OrderedMap.ofList, OrderedMap.get?_assign _ _ hnodup, OrderedMap.get?_empty, Option.or_none,
    ← OrderedMap.mem_iff_getList hnodup] at h
  exact ⟨(k, v), h, rfl⟩

/-- **Without peers everything comes back.** -/
theorem sameContents_load (nodeId swarmId : Str) (s : SwarmStateStore) (now : ℤ)
    (h : s.peers.entries = []) :
    ∃ t, load nodeId swarmId (some (s.persist now).reread) = .ok t ∧ SameContents s t := by
  refine ⟨_, load_of_no_peers nodeId swarmId s now h, rfl, rfl, rfl, rfl, ?_, ?_, ?_, ?_, ?_⟩
  · intro k
    have hnone : s.peers.get? k = none := by
      rw [OrderedMap.get?, h]
      rfl
    rw [hnone]
    exact .none
  · intro k
    rw [OrderedMap.ofList, OrderedMap.get?_assign _ _ (rereadMap _ _).nodup,
      OrderedMap.get?_empty, Option.or_none]
    change Option.Rel _ _ ((rereadMap LWWValue.reread s.registers).get? k)
    rw [get?_rereadMap]
    cases s.registers.get? k with
    | none => exact .none
    | some v => exact .some ⟨rfl, Js.Json.same_sortKeys v.value⟩
  · intro k
    rw [get?_rereadMap]
    cases s.tasks.get? k with
    | none => exact .none
    | some d => exact .some (Py.sameDict_reread d)
  · have hroom : (Deque.empty : Deque Dict 256).items.length +
        (s.alerts.items.map rereadDict).length ≤ 256 := by
      simpa [Deque.empty] using s.alerts.bounded
    change List.Forall₂ _ _ (Deque.empty.extend _).items
    rw [Deque.items_extend hroom]
    exact List.forall₂_map_right_iff.2 (List.forall₂_same.2 fun d _ => Py.sameDict_reread d)
  · intro k
    rw [OrderedMap.get?_assign _ _ (rereadMap _ _).nodup]
    change _ = ((rereadMap id s.metrics).get? k).or _
    rw [get?_rereadMap, Option.map_id]
    cases hs : s.metrics.get? k with
    | some v => rfl
    | none =>
        rw [id, Option.none_or]
        cases hd : (OrderedMap.ofList defaultMetrics).get? k with
        | none => rfl
        | some v =>
            obtain ⟨p, hp, rfl⟩ := get?_defaultMetrics hd
            have hcounted := s.counted p hp
            simp [hs] at hcounted

/-! ### Restarts -/

/-- An operation of a store, with what the clock shows. -/
inductive StoreOp
  | setRole (role : Str)
  | setStatus (status : Str)
  | setDepth (depth : ℤ)
  | updateRegister (key : Str) (value : Json) (sourceId : Option Str) (version : Option ℤ)
      (now : ℤ)
  | mergeRegister (key : Str) (incoming : LWWValue)
  | addPeer (peer : PeerRecord)
  | touchPeer (peerId : Str) (nowMs : Option ℤ) (updates : List PeerField) (clock : ℤ)
  | removePeer (peerId : Str)
  | recordAlert (alert : Dict)
  | upsertTask (taskId : Str) (payload : Dict)
  | mergeSnapshot (snap : MeshStateSnapshot) (now : ℤ)
  | incrementMetric (key : Str) (amount : ℤ)
  | pruneStalePeers (timeoutS : ℚ) (now : ℤ)

/-- The store after an operation. -/
def StoreOp.apply (s : SwarmStateStore) : StoreOp → SwarmStateStore
  | .setRole role => s.setRole role
  | .setStatus status => s.setStatus status
  | .setDepth depth => s.setDepth depth
  | .updateRegister key value sourceId version now =>
    s.updateRegister key value sourceId version now
  | .mergeRegister key incoming => s.mergeRegister key incoming
  | .addPeer peer => s.addPeer peer
  | .touchPeer peerId nowMs updates clock => s.touchPeer peerId nowMs updates clock
  | .removePeer peerId => s.removePeer peerId
  | .recordAlert alert => s.recordAlert alert
  | .upsertTask taskId payload => s.upsertTask taskId payload
  | .mergeSnapshot snap now => (s.mergeSnapshot snap now).1
  | .incrementMetric key amount => s.incrementMetric key amount
  | .pruneStalePeers timeoutS now => s.pruneStalePeers timeoutS now

/-- A store that has been through some operations. -/
def reached (nodeId swarmId : Str) (ops : List StoreOp) : SwarmStateStore :=
  ops.foldl StoreOp.apply (.new nodeId swarmId)

/-- A new store over the file that a store has written starts with the same contents, and does not
raise. -/
def SurvivesRestart (nodeId swarmId : Str) (s : SwarmStateStore) (now : ℤ) : Prop :=
  ∃ t, load nodeId swarmId (some (s.persist now).reread) = .ok t ∧ SameContents s t

/-- **A store survives a restart exactly if it has no peers.** -/
theorem restart_keeps_state_iff (nodeId swarmId : Str) (ops : List StoreOp) (now : ℤ) :
    SurvivesRestart nodeId swarmId (reached nodeId swarmId ops) now ↔
      (reached nodeId swarmId ops).peers.entries = [] := by
  constructor
  · rintro ⟨t, ht, -⟩
    by_contra hne
    rw [load_of_peers nodeId swarmId _ now hne] at ht
    cases ht
  · exact sameContents_load nodeId swarmId _ now

/-- A node that has heard of one peer cannot start again. -/
theorem one_peer_blocks_restart :
    ¬ SurvivesRestart ("n1" : String) ("s" : String)
      (reached ("n1" : String) ("s" : String) [.touchPeer ("n2" : String) none [] 1000]) 2000 := by
  rintro ⟨t, ht, -⟩
  rw [load_of_peers _ _ _ _ (List.cons_ne_nil _ _)] at ht
  cases ht

end SwarmStore
