/-
**The peer-to-peer store** (`store/p2pStore.ts`).

The store keeps the peers, the relay chain and the name of the explorer.  A tick listens to the
peers, enters the solo mode when nobody is heard for long and leaves it when a peer has been active
for three ticks; then the snapshot on the disk is merged and an election is held.  Elections,
takeovers and repairs can be asked for at any time.

The clock, the draws and what other tabs leave in the storage come from outside.

Main definitions:

* `P2p.P2PState` — the store with the storage it reads;
* `P2p.P2PState.tickP2P`, `P2p.P2PState.mergePartitions`, `P2p.P2PState.requestStateMerge` — its
  main actions;
* `P2p.P2PMove`, `P2p.P2PState.step` — everything that can happen to it.
-/
import Endendend.P2p.ChainManager
import Endendend.Foundation.Runs

set_option relaxedAutoImplicit false
set_option autoImplicit false

namespace P2p

open Js

def SOLO_TIMEOUT_MS : ℚ := 30000

def SOLO_EXIT_STABLE_TICKS : ℕ := 3

def PERSIST_EVERY_TICKS : ℕ := 10

/-- Active peer: heartbeat within this window. -/
def HEARTBEAT_STALE_MS : ℚ := 5000

/-- Total silence before a stale peer is dead. -/
def HEARTBEAT_DEAD_MS : ℚ := 30000

/-- How old a stored state may be. -/
def DAY_MS : ℚ := 86400000

/-- The text of a role. -/
def PeerRole.text : PeerRole → Str
  | explorer => lit "explorer"
  | relay => lit "relay"
  | standby => lit "standby"

/-! ### The storage -/

/-- A stored snapshot; any part of it may be missing. -/
structure SwarmPersistedSnapshot where
  drones : Option (List SwarmDrone)
  chain : Option (List Str)
  shadowChain : Option (List Str)
  explorerId : Option Str
  chainHealth : Option ChainHealth
  savedAt : Option ℚ

/-- The stored state of a node; any part of it may be missing. -/
structure DroneNodePersisted where
  nodeId : Option Str
  role : Option Str
  depth : Option ℚ
  savedAt : Option ℚ

def SwarmStatePayload.persisted (p : SwarmStatePayload) : SwarmPersistedSnapshot where
  drones := some p.drones
  chain := some p.chain
  shadowChain := some p.shadowChain
  explorerId := p.explorerId
  chainHealth := some p.chainHealth
  savedAt := some p.savedAt

/-- The snapshot as the other side of a merge, if it has drones. -/
def SwarmPersistedSnapshot.payload (disk : SwarmPersistedSnapshot) (shadowChain : List Str)
    (now : ℚ) : Option SwarmStatePayload :=
  (disk.drones.filter (· ≠ [])).map fun drones =>
    { drones
      chain := disk.chain.getD []
      shadowChain := disk.shadowChain.getD shadowChain
      explorerId := disk.explorerId
      chainHealth := disk.chainHealth.getD .stable
      savedAt := disk.savedAt.getD now }

/-- Is a stored state dated, and from the last day? -/
def recent (savedAt : Option ℚ) (now : ℚ) : Bool :=
  savedAt.any fun t => decide (t ≠ 0 ∧ now - t < DAY_MS)

/-! ### The store -/

structure P2PState where
  peers : Peers
  localNodeId : Str
  relayChain : RelayChainState
  currentExplorerId : Option Str
  p2pTick : ℕ
  soloMode : Bool
  lastPeerHeardAt : ℚ
  soloExitStableTicks : ℕ
  /-- The snapshot in the storage. -/
  disk : Option SwarmPersistedSnapshot
  /-- The state of a node in the storage. -/
  node : Option DroneNodePersisted

structure Agent where
  id : Str
  name : Str
  role : Str
  battery : ℚ

def emptyChain (now : ℚ) : RelayChainState where
  chain := []
  version := 0
  updatedAt := now
  updatedBy := lit "system"
  shadowChain := none
  chainHealth := some .forming

/-- The store before anything happens. -/
def P2PState.empty (now : ℚ) (disk : Option SwarmPersistedSnapshot)
    (node : Option DroneNodePersisted) : P2PState where
  peers := ∅
  localNodeId := lit "agent-0"
  relayChain := emptyChain now
  currentExplorerId := none
  p2pTick := 0
  soloMode := false
  lastPeerHeardAt := now
  soloExitStableTicks := 0
  disk := disk
  node := node

/-! ### The start -/

def createInitialPeers (agents : List Agent) (draws : ℕ → ℚ) (now : ℚ) : Peers :=
  agents.zipIdx.foldl
    (fun peers a =>
      let role := (PeerRole.named a.1.role).getD .standby
      peers.put
        { nodeId := a.1.id, name := a.1.name, status := .active, lastHeartbeat := now
          depth := a.2 * 8 + draws a.2 * 2, role
          explorerVersion := if role = .explorer then 1 else 0
          explorerSince := if role = .explorer then now else 0
          partitionId := lit "main", battery := a.1.battery })
    ∅

/-- The peers with the depth and the role that are stored for one of them. -/
def restoreNode (peers : Peers) (restored : Option DroneNodePersisted) (now : ℚ) : Peers :=
  match restored with
  | none => peers
  | some r =>
      match (present r.nodeId).filter fun id => (peers.get? id).isSome && recent r.savedAt now with
      | none => peers
      | some id =>
          peers.update id
            (fun cur =>
              { cur with depth := r.depth.getD cur.depth
                         role := (r.role.bind PeerRole.named).getD cur.role })
            fun _ => rfl

namespace P2PState

variable (s : P2PState)

def initializeP2P (agents : List Agent) (draws : ℕ → ℚ) (now : ℚ) : P2PState :=
  let peers := restoreNode (createInitialPeers agents draws now) s.node now
  let explorerId := present ((agents.find? fun a => decide (a.role = lit "explorer")).map (·.id))
  let relayChain := buildRelayChain peers explorerId .stable none now
  let shadow := s.disk.bind fun disk =>
    if recent disk.savedAt now then disk.shadowChain.filter (· ≠ []) else none
  { s with
    peers
    localNodeId := lit "agent-0"
    currentExplorerId := explorerId
    relayChain := { relayChain with shadowChain := shadow.or relayChain.shadowChain }
    soloMode := false
    lastPeerHeardAt := now
    soloExitStableTicks := 0 }

/-- The chain without a node that is in it, if the repair succeeds. -/
def withoutNode (failedNodeId : Str) (now : ℚ) : RelayChainState :=
  (attemptChainRepair s.relayChain failedNodeId s.peers now).getD s.relayChain

/-- What is stored of the local node. -/
def nodeState (me : Option PeerInfo) (now : ℚ) : DroneNodePersisted where
  nodeId := some s.localNodeId
  role := some (((me.map PeerInfo.role).getD .standby).text)
  depth := some ((me.map (·.depth)).getD 0)
  savedAt := some now

def stopP2P (now : ℚ) : P2PState :=
  { s with
    relayChain := s.withoutNode s.localNodeId now
    node := some (s.nodeState (s.peers.get? s.localNodeId) now) }

def resetP2P (now : ℚ) : P2PState :=
  { s with
    peers := ∅
    relayChain := emptyChain now
    currentExplorerId := none
    p2pTick := 0
    soloMode := false
    lastPeerHeardAt := now
    soloExitStableTicks := 0 }

end P2PState

/-! ### Ticks -/

def updatePeerStatuses (peers : Peers) (now : ℚ) (localNodeId : Str) : Peers :=
  peers.modifyAll
    (fun p =>
      let silent := now - p.lastHeartbeat
      if p.nodeId = localNodeId then p
      else if p.status = .active ∧ HEARTBEAT_STALE_MS < silent then { p with status := .stale }
      else if p.status = .stale ∧ HEARTBEAT_DEAD_MS < silent then { p with status := .dead }
      else p)
    fun p => by
      dsimp only
      split_ifs <;> rfl

def hasActiveRemote (peers : Peers) (localNodeId : Str) : Bool :=
  peers.listed.any fun p => decide (p.nodeId ≠ localNodeId ∧ p.status = .active)

/-- The part of the store that a tick works on. -/
structure TickView where
  peers : Peers
  relayChain : RelayChainState
  explorerId : Option Str
  solo : Bool
  soloStable : ℕ
  lastHeard : ℚ

namespace P2PState

variable (s : P2PState)

/-- Does a tick hear a peer?  Every second tick exchanges heartbeats; `heard` are the nodes whose
draw lets the answer through. -/
def hears (heard : Str → Bool) (p : PeerInfo) : Bool :=
  decide ((s.p2pTick + 1) % 2 = 0 ∧ p.nodeId ≠ s.localNodeId ∧ p.status ≠ .dead) &&
    heard p.nodeId

/-- The first part of a tick: the statuses and the heartbeats. -/
def listen (heard : Str → Bool) (now : ℚ) : TickView :=
  let updatedPeers := updatePeerStatuses s.peers now s.localNodeId
  { peers := updatedPeers.modifyAll
      (fun p => if s.hears heard p then { p with lastHeartbeat := now } else p)
      fun p => by split <;> rfl
    relayChain := s.relayChain
    explorerId := s.currentExplorerId
    solo := s.soloMode
    soloStable := s.soloExitStableTicks
    lastHeard :=
      if updatedPeers.listed.any (s.hears heard) || hasActiveRemote updatedPeers s.localNodeId then
        now
      else s.lastPeerHeardAt }

end P2PState

namespace TickView

variable (localNodeId : Str) (now : ℚ) (v : TickView)

/-- The node makes itself the explorer when nobody is heard for long. -/
def enterSolo (remote : Bool) : TickView :=
  if !v.solo && !remote && decide (SOLO_TIMEOUT_MS < now - v.lastHeard) then
    let updatedPeers :=
      v.peers.update localNodeId (fun me => me.crowned (me.explorerVersion + 1) now)
      fun _ => rfl
    { v with
      peers := updatedPeers
      relayChain := buildRelayChain updatedPeers (some localNodeId) .solo (some v.relayChain) now
      explorerId := some localNodeId
      solo := true }
  else v

/-- Counts the ticks with an active peer. -/
def countStable (remote : Bool) : TickView :=
  if v.solo then { v with soloStable := if remote then v.soloStable + 1 else 0 } else v

/-- The peers after the merge with the snapshot on the disk, and the explorer that it names. -/
def meetSnapshot (disk : Option SwarmPersistedSnapshot) : Peers × Option Str :=
  match disk.bind fun d => d.payload (d.chain.getD []) now with
  | some remotePayload =>
      let merged := mergeSwarmStatePayloads
        (buildSwarmStatePayload v.peers v.relayChain v.explorerId now) remotePayload
      (applyPayloadToPeers v.peers merged now, merged.explorerId)
  | none => (v.peers, none)

/-- The candidate of the election that ends the solo mode. -/
def candidate (met : Peers × Option Str) : Str :=
  (met.2.or (pickExplorerId met.1)).getD localNodeId

/-- The end of the solo mode: a merge, an election and a new chain. -/
def leaveSolo (disk : Option SwarmPersistedSnapshot) (voting : Str → Bool) : TickView :=
  let met := v.meetSnapshot now disk
  let cand := candidate localNodeId met
  let election := runElection cand met.1 voting
  let updatedPeers :=
    if election.won then met.1.appoint cand (fun _ => election.explorerVersion) now else met.1
  let explorerId := (pickExplorerId updatedPeers).getD cand
  { peers := updatedPeers
    relayChain := buildRelayChain updatedPeers (some explorerId) .forming (some v.relayChain) now
    explorerId := some explorerId
    solo := false
    soloStable := 0
    lastHeard := now }

/-- Takes the dead relays out of the chain. -/
def repairDeadRelays : TickView :=
  { v with
    relayChain :=
      (v.peers.listed.filter fun p => decide (p.status = .dead ∧ p.role = .relay)).foldl
        (fun chain dead => (attemptChainRepair chain dead.nodeId v.peers now).getD chain)
        v.relayChain }

end TickView

namespace P2PState

variable (s : P2PState)

/-- Is there an active peer, as a tick sees it? -/
def remote (now : ℚ) : Bool :=
  hasActiveRemote (updatePeerStatuses s.peers now s.localNodeId) s.localNodeId

/-- The view of a tick before it may leave the solo mode. -/
def view (heard : Str → Bool) (now : ℚ) : TickView :=
  ((s.listen heard now).enterSolo s.localNodeId now (s.remote now)).countStable (s.remote now)

/-- Does a tick leave the solo mode? -/
def leavesSolo (heard : Str → Bool) (now : ℚ) : Bool :=
  (s.view heard now).solo && s.remote now &&
    decide (SOLO_EXIT_STABLE_TICKS ≤ (s.view heard now).soloStable)

def tickP2P (heard voting : Str → Bool) (now : ℚ) : P2PState :=
  let v := s.view heard now
  let v := if s.leavesSolo heard now then v.leaveSolo s.localNodeId now s.disk voting else v
  let v := v.repairDeadRelays now
  let explorerId := v.explorerId.or (pickExplorerId v.peers)
  let persists := decide ((s.p2pTick + 1) % PERSIST_EVERY_TICKS = 0)
  { s with
    peers := v.peers
    relayChain := v.relayChain
    currentExplorerId := explorerId
    p2pTick := s.p2pTick + 1
    soloMode := v.solo
    lastPeerHeardAt := v.lastHeard
    soloExitStableTicks := v.soloStable
    disk :=
      if persists then
        some (buildSwarmStatePayload v.peers v.relayChain explorerId now).persisted
      else s.disk
    node :=
      if persists && (v.peers.get? s.localNodeId).isSome then
        some (s.nodeState (v.peers.get? s.localNodeId) now)
      else s.node }

/-! ### The other actions -/

def triggerElection (candidateId : Str) (voting : Str → Bool) (now : ℚ) : P2PState :=
  let election := runElection candidateId s.peers voting
  if election.won then
    let updatedPeers := s.peers.appoint candidateId (fun _ => election.explorerVersion) now
    { s with
      peers := updatedPeers
      currentExplorerId := some candidateId
      relayChain :=
        buildRelayChain updatedPeers (some candidateId) .stable (some s.relayChain) now }
  else s

def triggerChainRepair (failedNodeId : Str) (now : ℚ) : P2PState :=
  { s with relayChain := s.withoutNode failedNodeId now }

def gracefulLeavePeer (nodeId : Str) (now : ℚ) : P2PState :=
  if (s.peers.get? nodeId).isSome then s.triggerChainRepair nodeId now else s

def injectPartition (nodeIds : List Str) (partitionId : Str) : P2PState :=
  { s with
    peers := nodeIds.foldl
      (fun peers id => Peers.update peers id (fun p => { p with partitionId }) fun _ => rfl)
      s.peers }

/-- The explorer that wins over another one: deeper, then newer, then with the smaller id. -/
def betterExplorer (a b : PeerInfo) : PeerInfo :=
  if a.depth < b.depth then b
  else if b.depth = a.depth then
    if a.explorerVersion < b.explorerVersion then b
    else if b.explorerVersion = a.explorerVersion ∧ b.nodeId < a.nodeId then b
    else a
  else a

/-- One explorer is left, if there is any. -/
def resolveExplorers (peers : Peers) : Peers :=
  match peers.listed.filter fun p => decide (p.role = .explorer) with
  | first :: second :: rest =>
      let winner := (second :: rest).foldl betterExplorer first
      peers.modifyAll (fun p => if p.nodeId = winner.nodeId then p else p.demoted)
        fun p => by split <;> rfl
  | _ => peers

def mergePartitions (now : ℚ) : P2PState :=
  let healed := s.peers.modifyAll
    (fun p => { p with partitionId := lit "main", lastHeartbeat := now, status := .active })
    fun _ => rfl
  let updatedPeers := resolveExplorers healed
  let winnerId :=
    (updatedPeers.listed.find? fun p => decide (p.role = .explorer)).map (·.nodeId)
  let newChain := buildRelayChain updatedPeers winnerId .stable (some s.relayChain) now
  { s with
    peers := updatedPeers
    relayChain := newChain
    currentExplorerId := winnerId
    disk := some (buildSwarmStatePayload updatedPeers newChain winnerId now).persisted }

def simulateNodeFailure (nodeId : Str) : P2PState :=
  { s with
    peers := s.peers.update nodeId (fun p => { p with status := .dead, lastHeartbeat := 0 })
      fun _ => rfl }

def simulateNodeRecovery (nodeId : Str) (now : ℚ) : P2PState :=
  { s with
    peers := s.peers.update nodeId (fun p => { p with status := .active, lastHeartbeat := now })
      fun _ => rfl }

def requestExplorerTakeover (requesterId : Str) (now : ℚ) : P2PState :=
  match s.peers.get? requesterId with
  | none => s
  | some p =>
      match handleExplorerTakeover s.peers s.currentExplorerId requesterId p.depth now with
      | none => s
      | some (nextPeers, nextExplorerId) =>
          { s with
            peers := nextPeers
            currentExplorerId := nextExplorerId
            relayChain :=
              buildRelayChain nextPeers nextExplorerId .stable (some s.relayChain) now }

/-- The snapshot on the disk that a request merges, if it has drones. -/
def storedPayload (now : ℚ) : Option SwarmStatePayload :=
  s.disk.bind fun d => d.payload [] now

/-- What a request makes of the view of the store and a snapshot. -/
def mergedPayload (remotePayload : SwarmStatePayload) (now : ℚ) : SwarmStatePayload :=
  mergeSwarmStatePayloads
    (buildSwarmStatePayload s.peers s.relayChain (pickExplorerId s.peers) now) remotePayload

def requestStateMerge (now : ℚ) : P2PState :=
  match s.storedPayload now with
  | none => s
  | some remotePayload =>
      let merged := s.mergedPayload remotePayload now
      let updatedPeers := applyPayloadToPeers s.peers merged now
      let explorerId := merged.explorerId.or (pickExplorerId s.peers)
      { s with
        peers := updatedPeers
        relayChain := buildRelayChain updatedPeers explorerId .forming (some s.relayChain) now
        currentExplorerId := explorerId }

end P2PState

/-! ### Runs -/

/-- What can happen to the store.  Starting it and broadcasting a state entry touch no field of
`P2PState`. -/
inductive P2PMove
  | initializeP2P (agents : List Agent) (draws : ℕ → ℚ) (now : ℚ)
  | startP2P
  | stopP2P (now : ℚ)
  | resetP2P (now : ℚ)
  | tickP2P (heard voting : Str → Bool) (now : ℚ)
  | triggerElection (candidateId : Str) (voting : Str → Bool) (now : ℚ)
  | triggerChainRepair (failedNodeId : Str) (now : ℚ)
  | injectPartition (nodeIds : List Str) (partitionId : Str)
  | mergePartitions (now : ℚ)
  | broadcastStateUpdate
  | simulateNodeFailure (nodeId : Str)
  | simulateNodeRecovery (nodeId : Str) (now : ℚ)
  | gracefulLeavePeer (nodeId : Str) (now : ℚ)
  | requestExplorerTakeover (requesterId : Str) (now : ℚ)
  | requestStateMerge (now : ℚ)
  /-- Another tab, or an earlier session, leaves something in the storage. -/
  | storage (disk : Option SwarmPersistedSnapshot) (node : Option DroneNodePersisted)

def P2PState.after (s : P2PState) : P2PMove → P2PState
  | .initializeP2P agents draws now => s.initializeP2P agents draws now
  | .startP2P => s
  | .stopP2P now => s.stopP2P now
  | .resetP2P now => s.resetP2P now
  | .tickP2P heard voting now => s.tickP2P heard voting now
  | .triggerElection candidateId voting now => s.triggerElection candidateId voting now
  | .triggerChainRepair failedNodeId now => s.triggerChainRepair failedNodeId now
  | .injectPartition nodeIds partitionId => s.injectPartition nodeIds partitionId
  | .mergePartitions now => s.mergePartitions now
  | .broadcastStateUpdate => s
  | .simulateNodeFailure nodeId => s.simulateNodeFailure nodeId
  | .simulateNodeRecovery nodeId now => s.simulateNodeRecovery nodeId now
  | .gracefulLeavePeer nodeId now => s.gracefulLeavePeer nodeId now
  | .requestExplorerTakeover requesterId now => s.requestExplorerTakeover requesterId now
  | .requestStateMerge now => s.requestStateMerge now
  | .storage disk node => { s with disk, node }

/-- No action fails. -/
def P2PState.step (s : P2PState) (mv : P2PMove) : Option P2PState := some (s.after mv)

end P2p
