/-
**The state store of a mesh node, and its messages** (`swarm/foxmq_integration.py`).

A store keeps what a node knows of itself and of the swarm: its role, status and depth, its peers,
registers with a version and a time, tasks, alerts and counters.  It is written to a file after
every change, and a snapshot of it is sent to other nodes, which merge it into theirs.  Records are
written by `asdict` and read field by field, so a record as it is written or received is a record of
optional fields.

A client counts a message, notes that its sender was heard of, and handles it by its kind.  Tasks
are stored whole; a commit is laid over the task that is there; bids are collected in a register;
snapshots are merged.

Main definitions:

* `SwarmStore.SwarmStateStore`, with the operations of the class;
* `SwarmStore.PeerData`, `SwarmStore.RegisterData` — records as dictionaries, `asdict`, and
  `PeerRecord.ofData`, `LWWValue.ofData`, which build a record from keyword arguments;
* `SwarmStore.SwarmStateStore.mergeSnapshot` — the merge, which may raise when it is half done;
* `SwarmStore.SwarmStateStore.persist`, `SwarmStore.load` — the file and how it is read;
* `SwarmStore.StoreOp` — the operations as one type;
* `SwarmStore.MeshEnvelope` — a message that is not from the node itself and was not seen before;
* `SwarmStore.handleTask`, `SwarmStore.handleTaskBid`, `SwarmStore.handleTaskCommit`,
  `SwarmStore.handleState`, `SwarmStore.handleStateResponse` — the handlers;
* `SwarmStore.onMessage` — what a client does with a message.

Main results:

* `SwarmStore.PeerRecord.ofData_asdict` — **a peer record that was written by `asdict` cannot be
  read**;
* `SwarmStore.LWWValue.ofData_asdict` — a register can.
-/
import Endendend.Foundation.PyJson

set_option relaxedAutoImplicit false
set_option autoImplicit false

namespace SwarmStore

open Py (Dict Deque reread rereadDict SameDict)
open Js (Str Json OrderedMap Decimal)

/-! ### Records -/

/-- What is known of a peer. -/
structure PeerRecord where
  nodeId : Str
  lastSeenMs : ℤ
  role : Str
  status : Str
  depth : ℤ
  battery : Decimal
  latencyMs : Decimal
  lossRate : Decimal
  version : ℤ
  metadata : Dict

/-- A peer record as a dictionary: the fields that it has. -/
structure PeerData where
  nodeId : Option Str
  lastSeenMs : Option ℤ
  role : Option Str
  status : Option Str
  depth : Option ℤ
  battery : Option Decimal
  latencyMs : Option Decimal
  lossRate : Option Decimal
  version : Option ℤ
  metadata : Option Dict

/-- A value with what decides which of two values stays. -/
structure LWWValue where
  value : Json
  version : ℤ
  updatedAtMs : ℤ
  sourceId : Str

/-- A register as a dictionary. -/
structure RegisterData where
  value : Option Json
  version : Option ℤ
  updatedAtMs : Option ℤ
  sourceId : Option Str

/-- What a call raises when its keyword arguments do not fit. -/
inductive TypeError
  | multipleValues (argument : Str)
  | missing (argument : Str)
  deriving DecidableEq

namespace PeerRecord

/-- A record with the defaults of the class. -/
def new (nodeId : Str) (lastSeenMs : ℤ) : PeerRecord where
  nodeId
  lastSeenMs
  role := ("standby" : String)
  status := ("ready" : String)
  depth := 0
  battery := 1
  latencyMs := 0
  lossRate := 0
  version := 0
  metadata := ∅

def asdict (p : PeerRecord) : PeerData where
  nodeId := some p.nodeId
  lastSeenMs := some p.lastSeenMs
  role := some p.role
  status := some p.status
  depth := some p.depth
  battery := some p.battery
  latencyMs := some p.latencyMs
  lossRate := some p.lossRate
  version := some p.version
  metadata := some p.metadata

/-- `PeerRecord(node_id=peer_id, **pdata)`, where `pdata` has every field that the dictionary has,
`node_id` among them. -/
def ofData (peerId : Str) (data : PeerData) : Except TypeError PeerRecord :=
  if data.nodeId.isSome then .error (.multipleValues ("node_id" : String))
  else
    match data.lastSeenMs with
    | none => .error (.missing ("last_seen_ms" : String))
    | some lastSeenMs =>
      let default := new peerId lastSeenMs
      .ok
        { nodeId := peerId
          lastSeenMs
          role := data.role.getD default.role
          status := data.status.getD default.status
          depth := data.depth.getD default.depth
          battery := data.battery.getD default.battery
          latencyMs := data.latencyMs.getD default.latencyMs
          lossRate := data.lossRate.getD default.lossRate
          version := data.version.getD default.version
          metadata := data.metadata.getD default.metadata }

/-- **A peer record that was written by `asdict` cannot be read.** -/
theorem ofData_asdict (peerId : Str) (p : PeerRecord) :
    ofData peerId p.asdict = .error (.multipleValues ("node_id" : String)) := rfl

end PeerRecord

/-- An argument of `touch`: a field of the record, or an entry of its metadata. -/
inductive PeerField
  | nodeId (v : Str)
  | lastSeenMs (v : ℤ)
  | role (v : Str)
  | status (v : Str)
  | depth (v : ℤ)
  | battery (v : Decimal)
  | latencyMs (v : Decimal)
  | lossRate (v : Decimal)
  | version (v : ℤ)
  | metadata (v : Dict)
  | other (key : Str) (v : Json)

namespace PeerRecord

def assign (p : PeerRecord) : PeerField → PeerRecord
  | .nodeId v => { p with nodeId := v }
  | .lastSeenMs v => { p with lastSeenMs := v }
  | .role v => { p with role := v }
  | .status v => { p with status := v }
  | .depth v => { p with depth := v }
  | .battery v => { p with battery := v }
  | .latencyMs v => { p with latencyMs := v }
  | .lossRate v => { p with lossRate := v }
  | .version v => { p with version := v }
  | .metadata v => { p with metadata := v }
  | .other key v => { p with metadata := p.metadata.set key v }

/-- The peer was heard of: at the time that is given if it is not zero, else at that of the
clock. -/
def touch (p : PeerRecord) (nowMs : Option ℤ) (updates : List PeerField) (clock : ℤ) :
    PeerRecord :=
  updates.foldl assign { p with lastSeenMs := (nowMs.filter (· ≠ 0)).getD clock }

end PeerRecord

namespace LWWValue

def asdict (v : LWWValue) : RegisterData where
  value := some v.value
  version := some v.version
  updatedAtMs := some v.updatedAtMs
  sourceId := some v.sourceId

/-- `LWWValue(**vdata)`, which has no defaults. -/
def ofData (data : RegisterData) : Except TypeError LWWValue :=
  match data.value, data.version, data.updatedAtMs, data.sourceId with
  | some value, some version, some updatedAtMs, some sourceId =>
    .ok { value, version, updatedAtMs, sourceId }
  | none, _, _, _ => .error (.missing ("value" : String))
  | _, none, _, _ => .error (.missing ("version" : String))
  | _, _, none, _ => .error (.missing ("updated_at_ms" : String))
  | _, _, _, none => .error (.missing ("source_id" : String))

theorem ofData_asdict (v : LWWValue) : ofData v.asdict = .ok v := rfl

end LWWValue

/-! ### The store -/

/-- The counters of a new store. -/
def defaultMetrics : List (Str × ℤ) :=
  [(("messages_sent" : String), 0), (("messages_received" : String), 0),
    (("acks_received" : String), 0), (("retries" : String), 0), (("syncs" : String), 0),
    (("state_merges" : String), 0), (("peer_timeouts" : String), 0), (("last_sync_ms" : String), 0)]

/-- The state of a node.  There are at most 256 alerts, and no counter of a new store is ever
lost. -/
structure SwarmStateStore where
  nodeId : Str
  swarmId : Str
  version : ℤ
  role : Str
  status : Str
  depth : ℤ
  peers : OrderedMap Str PeerRecord
  registers : OrderedMap Str LWWValue
  tasks : OrderedMap Str Dict
  alerts : Deque Dict 256
  metrics : OrderedMap Str ℤ
  counted : ∀ p ∈ defaultMetrics, (metrics.get? p.1).isSome

/-- A store before it has looked for a file. -/
def SwarmStateStore.new (nodeId swarmId : Str) : SwarmStateStore where
  nodeId
  swarmId
  version := 0
  role := ("standby" : String)
  status := ("ready" : String)
  depth := 0
  peers := ∅
  registers := ∅
  tasks := ∅
  alerts := .empty
  metrics := .ofList defaultMetrics
  counted := by decide +kernel

/-- A snapshot, as it is sent to another node. -/
structure MeshStateSnapshot where
  nodeId : Str
  swarmId : Str
  role : Str
  status : Str
  depth : ℤ
  version : ℤ
  peers : OrderedMap Str PeerData
  registers : OrderedMap Str RegisterData
  tasks : OrderedMap Str Dict
  alerts : List Dict
  metrics : OrderedMap Str ℤ
  updatedAtMs : ℤ

namespace SwarmStateStore

variable (s : SwarmStateStore)

def snapshot (now : ℤ) : MeshStateSnapshot where
  nodeId := s.nodeId
  swarmId := s.swarmId
  role := s.role
  status := s.status
  depth := s.depth
  version := s.version
  peers := s.peers.mapValues PeerRecord.asdict
  registers := s.registers.mapValues LWWValue.asdict
  tasks := s.tasks
  alerts := s.alerts.items
  metrics := s.metrics
  updatedAtMs := now

def bumpVersion : SwarmStateStore := { s with version := s.version + 1 }

def setMetric (key : Str) (value : ℤ) : SwarmStateStore :=
  { s with
    metrics := s.metrics.set key value
    counted := fun p hp => OrderedMap.isSome_get?_set (s.counted p hp) key value }

def setRole (role : Str) : SwarmStateStore :=
  if s.role = role then s else { s with role }.bumpVersion

def setStatus (status : Str) : SwarmStateStore :=
  if s.status = status then s else { s with status }.bumpVersion

def setDepth (depth : ℤ) : SwarmStateStore :=
  if s.depth = depth then s else { s with depth }.bumpVersion

/-- Writes a register, as the next version of it unless a version is given.  A source that is not
there or empty is the node itself. -/
def updateRegister (key : Str) (value : Json) (sourceId : Option Str) (version : Option ℤ)
    (now : ℤ) : SwarmStateStore :=
  let sourceId := (sourceId.filter (· ≠ [])).getD s.nodeId
  let current := s.registers.get? key
  let nextVersion := version.getD ((current.map (·.version + 1)).getD 1)
  if current.any (nextVersion < ·.version) then s
  else
    { s with
      registers := s.registers.set key ⟨value, nextVersion, now, sourceId⟩ }.bumpVersion

def mergeRegister (key : Str) (incoming : LWWValue) : SwarmStateStore :=
  let current := s.registers.get? key
  if current.any fun c => c.version > incoming.version then s
  else if current.any fun c =>
      c.version = incoming.version ∧ c.updatedAtMs ≥ incoming.updatedAtMs then s
  else { s with registers := s.registers.set key incoming }.bumpVersion

def addPeer (peer : PeerRecord) : SwarmStateStore :=
  if (s.peers.get? peer.nodeId).all (peer.lastSeenMs ≥ ·.lastSeenMs) then
    { s with peers := s.peers.set peer.nodeId peer }.bumpVersion
  else s

def touchPeer (peerId : Str) (nowMs : Option ℤ) (updates : List PeerField) (clock : ℤ) :
    SwarmStateStore :=
  let peer := (s.peers.get? peerId).getD (.new peerId clock)
  { s with peers := s.peers.set peerId (peer.touch nowMs updates clock) }.bumpVersion

def removePeer (peerId : Str) : SwarmStateStore :=
  if (s.peers.get? peerId).isSome then { s with peers := s.peers.erase peerId }.bumpVersion else s

def recordAlert (alert : Dict) : SwarmStateStore :=
  { s with alerts := s.alerts.push alert }.bumpVersion

def upsertTask (taskId : Str) (payload : Dict) : SwarmStateStore :=
  { s with tasks := s.tasks.set taskId payload }.bumpVersion

def getTaskPayload (taskId : Str) : Dict := (s.tasks.get? taskId).getD ∅

def incrementMetric (key : Str) (amount : ℤ) : SwarmStateStore :=
  s.setMetric key ((s.metrics.get? key).getD 0 + amount)

/-- Drops a peer that was not heard of for longer than the timeout, in seconds. -/
def prunePeer (timeoutS : ℚ) (now : ℤ) (s : SwarmStateStore) (p : Str × PeerRecord) :
    SwarmStateStore :=
  if ((now - p.2.lastSeenMs : ℤ) : ℚ) / 1000 > timeoutS then
    ({ s with peers := s.peers.erase p.1 }.incrementMetric ("peer_timeouts" : String) 1).bumpVersion
  else s

def pruneStalePeers (timeoutS : ℚ) (now : ℤ) : SwarmStateStore :=
  s.peers.entries.foldl (prunePeer timeoutS now) s

end SwarmStateStore

/-! ### Merging -/

/-- How many parts of a store a merge has changed. -/
structure Changes where
  peers : ℕ
  registers : ℕ
  tasks : ℕ
  alerts : ℕ

/-- A merge in progress. -/
structure Merging where
  store : SwarmStateStore
  changes : Changes

/-- A loop that an error stops, with the state that it has reached. -/
def untilError {σ α ε : Type*} (f : σ → α → Except ε σ) : σ → List α → σ × Option ε
  | s, [] => (s, none)
  | s, a :: l =>
    match f s a with
    | .ok s' => untilError f s' l
    | .error e => (s, some e)

namespace Merging

variable (m : Merging)

def changedRegister : Changes := { m.changes with registers := m.changes.registers + 1 }

def mergeVersion (version : ℤ) : Merging :=
  if version > m.store.version then { m with store := { m.store with version } } else m

def mergeRole (role : Str) : Merging :=
  if role ≠ m.store.role then ⟨{ m.store with role }, m.changedRegister⟩ else m

def mergeStatus (status : Str) : Merging :=
  if status ≠ m.store.status then ⟨{ m.store with status }, m.changedRegister⟩ else m

def mergeDepth (depth : ℤ) : Merging :=
  if depth ≠ m.store.depth then ⟨{ m.store with depth }, m.changedRegister⟩ else m

/-- The version, and what the snapshot says of the node that sent it. -/
def mergeLocal (snap : MeshStateSnapshot) : Merging :=
  (((m.mergeVersion snap.version).mergeRole snap.role).mergeStatus snap.status).mergeDepth
    snap.depth

theorem store_mergeRole (role : Str) : (m.mergeRole role).store = { m.store with role } := by
  unfold mergeRole
  split
  · rfl
  · next h =>
      obtain rfl := not_not.1 h
      rfl

theorem store_mergeStatus (status : Str) :
    (m.mergeStatus status).store = { m.store with status } := by
  unfold mergeStatus
  split
  · rfl
  · next h =>
      obtain rfl := not_not.1 h
      rfl

theorem store_mergeDepth (depth : ℤ) : (m.mergeDepth depth).store = { m.store with depth } := by
  unfold mergeDepth
  split
  · rfl
  · next h =>
      obtain rfl := not_not.1 h
      rfl

theorem store_mergeVersion (version : ℤ) :
    (m.mergeVersion version).store = { m.store with version := max m.store.version version } := by
  unfold mergeVersion
  split
  · next h => rw [max_eq_right h.le]
  · next h => rw [max_eq_left (not_lt.1 h)]

/-- **The role, status and depth of the sender are taken over.** -/
theorem store_mergeLocal (snap : MeshStateSnapshot) :
    (m.mergeLocal snap).store =
      { m.store with
        version := max m.store.version snap.version
        role := snap.role
        status := snap.status
        depth := snap.depth } := by
  rw [mergeLocal, store_mergeDepth, store_mergeStatus, store_mergeRole, store_mergeVersion]

/-- A peer record is taken over if it is not older than the one that is there. -/
def offerPeer (peerId : Str) (incoming : PeerRecord) : Merging :=
  if (m.store.peers.get? peerId).all (incoming.lastSeenMs ≥ ·.lastSeenMs) then
    ⟨{ m.store with peers := m.store.peers.set peerId incoming },
      { m.changes with peers := m.changes.peers + 1 }⟩
  else m

def mergePeer (entry : Str × PeerData) : Except TypeError Merging :=
  (PeerRecord.ofData entry.1 entry.2).map (m.offerPeer entry.1)

/-- A register is taken over if it is newer than the one that is there, or as new. -/
def offerRegister (key : Str) (incoming : LWWValue) : Merging :=
  if (m.store.registers.get? key).all fun current =>
      incoming.version > current.version ∨
        (incoming.version = current.version ∧ incoming.updatedAtMs ≥ current.updatedAtMs) then
    ⟨{ m.store with registers := m.store.registers.set key incoming }, m.changedRegister⟩
  else m

def mergeRegister (entry : Str × RegisterData) : Except TypeError Merging :=
  (LWWValue.ofData entry.2).map (m.offerRegister entry.1)

/-- A task is replaced if it is not equal to the one that is there. -/
def mergeTask (entry : Str × Dict) : Merging :=
  if (m.store.tasks.get? entry.1).map Py.canonDict ≠ some (Py.canonDict entry.2) then
    ⟨{ m.store with tasks := m.store.tasks.set entry.1 entry.2 },
      { m.changes with tasks := m.changes.tasks + 1 }⟩
  else m

/-- An alert is added if none with the same text is there. -/
def mergeAlert (acc : Merging × List Dict) (alert : Dict) : Merging × List Dict :=
  let (m, existing) := acc
  if rereadDict alert ∈ existing then acc
  else
    (⟨{ m.store with alerts := m.store.alerts.push alert },
      { m.changes with alerts := m.changes.alerts + 1 }⟩, existing ++ [rereadDict alert])

def mergeAlerts (alerts : List Dict) : Merging :=
  (alerts.foldl mergeAlert (m, m.store.alerts.items.map rereadDict)).1

/-- The end of a merge that did not raise. -/
def finish (now : ℤ) : Merging :=
  let store := m.store.bumpVersion.incrementMetric ("state_merges" : String) 1
  { m with store := store.setMetric ("last_sync_ms" : String) now }

end Merging

namespace SwarmStateStore

variable (s : SwarmStateStore)

/-- Merges a snapshot.  A record that cannot be read stops the merge, and what was merged before
it stays. -/
def mergeSnapshot (snap : MeshStateSnapshot) (now : ℤ) :
    SwarmStateStore × Except TypeError Changes :=
  let m := Merging.mergeLocal ⟨s, 0, 0, 0, 0⟩ snap
  match untilError Merging.mergePeer m snap.peers.entries with
  | (m, some e) => (m.store, .error e)
  | (m, none) =>
    match untilError Merging.mergeRegister m snap.registers.entries with
    | (m, some e) => (m.store, .error e)
    | (m, none) =>
      let m := snap.tasks.entries.foldl Merging.mergeTask m
      let m := (m.mergeAlerts snap.alerts).finish now
      (m.store, .ok m.changes)

end SwarmStateStore

/-! ### Written and read again -/

/-- The same peer, up to the order of the keys of its metadata. -/
def PeerRecord.Same (p q : PeerRecord) : Prop :=
  { p with metadata := q.metadata } = q ∧ SameDict p.metadata q.metadata

/-- The same register, up to the order of the keys of its value. -/
def LWWValue.Same (v w : LWWValue) : Prop :=
  { v with value := w.value } = w ∧ Json.Same v.value w.value

/-- A peer record that was written with sorted keys and read again. -/
def PeerData.reread (d : PeerData) : PeerData := { d with metadata := d.metadata.map rereadDict }

def RegisterData.reread (d : RegisterData) : RegisterData :=
  { d with value := d.value.map Py.reread }

/-- A register value that was written with sorted keys and read again. -/
def LWWValue.reread (v : LWWValue) : LWWValue := { v with value := Py.reread v.value }

/-- A map that was written with sorted keys, and its values too, and read again. -/
def rereadMap {α : Type*} (f : α → α) (m : OrderedMap Str α) : OrderedMap Str α :=
  (m.mapValues f).sorted

theorem get?_rereadMap {α : Type*} (f : α → α) (m : OrderedMap Str α) (k : Str) :
    (rereadMap f m).get? k = (m.get? k).map f := by
  rw [rereadMap, OrderedMap.get?_sorted, OrderedMap.get?_mapValues]

/-- Registers are written and read as they are. -/
theorem rereadMap_asdict (m : OrderedMap Str LWWValue) :
    rereadMap RegisterData.reread (m.mapValues LWWValue.asdict) =
      (rereadMap LWWValue.reread m).mapValues LWWValue.asdict := by
  rw [rereadMap, rereadMap, OrderedMap.mapValues_mapValues, OrderedMap.sorted_mapValues,
    OrderedMap.sorted_mapValues, OrderedMap.mapValues_mapValues]
  rfl

/-- **The first record of some peers, written and read again, cannot be read.** -/
theorem reread_peers {m : OrderedMap Str PeerRecord} (h : m.entries ≠ []) :
    ∃ p l, (rereadMap PeerData.reread (m.mapValues PeerRecord.asdict)).entries = p :: l ∧
      PeerRecord.ofData p.1 p.2 = .error (.multipleValues ("node_id" : String)) := by
  obtain ⟨p, l, hl⟩ : ∃ p l,
      (rereadMap PeerData.reread (m.mapValues PeerRecord.asdict)).entries = p :: l := by
    refine List.exists_cons_of_ne_nil fun hnil => h ?_
    have hlen := congrArg List.length hnil
    simpa [rereadMap, OrderedMap.sorted, OrderedMap.mapValues] using hlen
  have hget : (rereadMap PeerData.reread (m.mapValues PeerRecord.asdict)).get? p.1 = some p.2 := by
    refine OrderedMap.mem_entries_iff.1 ?_
    rw [hl]
    exact List.mem_cons_self
  refine ⟨p, l, hl, ?_⟩
  rw [get?_rereadMap, OrderedMap.get?_mapValues] at hget
  cases hr : m.get? p.1 with
  | none => simp [hr] at hget
  | some r =>
      simp only [hr, Option.map_some, Option.some.injEq] at hget
      rw [← hget]
      rfl

/-- Without peers there is nothing to read. -/
theorem reread_no_peers {m : OrderedMap Str PeerRecord} (h : m.entries = []) :
    (rereadMap PeerData.reread (m.mapValues PeerRecord.asdict)).entries = [] := by
  simp [rereadMap, OrderedMap.sorted, OrderedMap.mapValues, h]

end SwarmStore

namespace SwarmStore

open Py (Dict)
open Js (Str Json OrderedMap)

/-- What a message says, by its kind.  A snapshot is given as it is decoded. -/
inductive Body
  | task (payload : Dict)
  | taskBid (payload : Dict)
  | taskCommit (payload : Dict)
  | state (snap : MeshStateSnapshot)
  | stateResponse (snapshot : Option MeshStateSnapshot)

/-- A message: who sent it, its id, what can be read off it about the sender (its role, status,
depth and version), and what it says. -/
structure MeshEnvelope where
  senderId : Str
  messageId : Str
  about : List PeerField
  body : Body

section Handlers

/- `text` is `str` on values that are not strings. -/
variable (text : Json → Str) (s : SwarmStateStore)

/-- `str(payload.get("task_id", message_id))` -/
def taskIdOf (payload : Dict) (messageId : Str) : Str :=
  match payload.get? ("task_id" : String) with
  | none => messageId
  | some (.str taskId) => taskId
  | some v => text v

def handleTask (payload : Dict) (messageId : Str) : SwarmStateStore :=
  s.upsertTask (taskIdOf text payload messageId) payload

/-- The register with the bids for a task. -/
def bidsKey (taskId : Str) : Str := ("task_bids:" : String) ++ taskId

/-- The bids in a register; a value that is not a list counts as none. -/
def bidsIn (register : Option LWWValue) : List Json :=
  match register.map LWWValue.value with
  | some (.arr bids) => bids
  | _ => []

/-- A bid is added to the bids that are there. -/
def handleTaskBid (payload : Dict) (messageId senderId : Str) (now : ℤ) : SwarmStateStore :=
  let key := bidsKey (taskIdOf text payload messageId)
  let cur := bidsIn (s.registers.get? key) ++ [payload.toJson]
  s.updateRegister key (.arr cur) (some senderId) none now

/-- A commit is laid over the task that is there. -/
def handleTaskCommit (payload : Dict) (messageId : Str) : SwarmStateStore :=
  let taskId := taskIdOf text payload messageId
  let merged := ((s.getTaskPayload taskId).assign payload.entries).set ("committed" : String)
    (.bool true)
  s.upsertTask taskId merged

/-- The handler stops where the merge raises. -/
def handleState (snap : MeshStateSnapshot) (now : ℤ) : SwarmStateStore :=
  let merged := s.mergeSnapshot snap now
  if merged.2.isOk then merged.1.incrementMetric ("syncs" : String) 1 else merged.1

def handleStateResponse (snapshot : Option MeshStateSnapshot) (now : ℤ) : SwarmStateStore :=
  match snapshot with
  | none => s
  | some snap => (s.mergeSnapshot snap now).1

def handle (env : MeshEnvelope) (now : ℤ) : SwarmStateStore :=
  match env.body with
  | .task payload => handleTask text s payload env.messageId
  | .taskBid payload => handleTaskBid text s payload env.messageId env.senderId now
  | .taskCommit payload => handleTaskCommit text s payload env.messageId
  | .state snap => handleState s snap now
  | .stateResponse snapshot => handleStateResponse s snapshot now

/-- A message is counted, its sender was heard of, and it is handled. -/
def onMessage (env : MeshEnvelope) (now : ℤ) : SwarmStateStore :=
  let counted := s.incrementMetric ("messages_received" : String) 1
  handle text (counted.touchPeer env.senderId none env.about now) env now

end Handlers

end SwarmStore
