/-
**The relay chain and the snapshots of the peer-to-peer store** (`store/chainManager.ts`,
`store/peerDiscovery.ts`).

The store keeps a record of every peer.  The relay chain lists the active relays by their depth and
ends with the explorer.  A snapshot carries the records of the drones, a chain and the name of the
explorer; two snapshots are merged into one, and what comes out is applied to the peers.

Main definitions:

* `P2p.buildRelayChain`, `P2p.attemptChainRepair` — the chain;
* `P2p.runElection`, `P2p.handleExplorerTakeover` — how a peer becomes the explorer;
* `P2p.mergeSwarmStatePayloads`, `P2p.applyPayloadToPeers` — the meeting with a snapshot.

Main results:

* `P2p.explorer_of_mem_getLast?` — a chain that is built ends with the explorer it is built for;
* `P2p.isExplorer_applyPayloadToPeers` — a snapshot that names an explorer leaves no other one.
-/
import Endendend.Foundation.OwnKeys
import Mathlib.Data.Rat.Defs
import Mathlib.Algebra.Order.Ring.Rat

set_option relaxedAutoImplicit false
set_option autoImplicit false

namespace P2p

open Js

/-! ### Peers -/

inductive PeerStatus
  | active
  | stale
  | dead
  deriving DecidableEq

inductive PeerRole
  | explorer
  | relay
  | standby
  deriving DecidableEq

inductive ChainHealth
  | forming
  | stable
  | repairing
  | degraded
  | solo
  deriving DecidableEq

/-- The role a text names. -/
def PeerRole.named (text : Str) : Option PeerRole :=
  if text = lit "explorer" then some .explorer
  else if text = lit "relay" then some .relay
  else if text = lit "standby" then some .standby
  else none

structure PeerInfo where
  nodeId : Str
  name : Str
  status : PeerStatus
  lastHeartbeat : ℚ
  depth : ℚ
  role : PeerRole
  explorerVersion : ℕ
  /-- When the peer last became the explorer. -/
  explorerSince : ℚ
  partitionId : Str
  battery : ℚ
  deriving DecidableEq

abbrev Peers := KeyedMap PeerInfo.nodeId

/-- An id that a condition takes for one: it is there and not empty. -/
def present (id : Option Str) : Option Str := id.filter (· ≠ [])

/-- The time itself, or the given one in place of a zero. -/
def timeOr (t now : ℚ) : ℚ := if t = 0 then now else t

/-- A peer made the explorer. -/
def PeerInfo.crowned (p : PeerInfo) (version : ℕ) (now : ℚ) : PeerInfo :=
  { p with role := .explorer, explorerVersion := version,
           explorerSince := timeOr p.explorerSince now }

def PeerInfo.demoted (p : PeerInfo) : PeerInfo :=
  { p with role := if p.role = .explorer then .standby else p.role }

namespace Peers

/-- The peers in the order the object lists them. -/
def listed (peers : Peers) : List PeerInfo := (ownOrder peers.toMap.entries).map Prod.snd

/-- Changes the record of one peer. -/
def update (peers : Peers) (id : Str) (f : PeerInfo → PeerInfo)
    (hf : ∀ p, (f p).nodeId = p.nodeId) : Peers :=
  peers.modifyAll (fun p => if p.nodeId = id then f p else p) fun p => by
    split
    · exact hf p
    · rfl

/-- One peer becomes the explorer, every other explorer stands by. -/
def appoint (peers : Peers) (id : Str) (version : PeerInfo → ℕ) (now : ℚ) : Peers :=
  peers.modifyAll (fun p => if p.nodeId = id then p.crowned (version p) now else p.demoted)
    fun p => by split <;> rfl

end Peers

/-- The first explorer that is not dead. -/
def pickExplorerId (peers : Peers) : Option Str :=
  (peers.listed.find? fun p => decide (p.role = .explorer ∧ p.status ≠ .dead)).map (·.nodeId)

/-! ### The relay chain -/

structure RelayChainState where
  chain : List Str
  version : ℚ
  updatedAt : ℚ
  updatedBy : Str
  /-- The last stable chain. -/
  shadowChain : Option (List Str)
  chainHealth : Option ChainHealth

/-- The active relays by their depth. -/
def activeRelays (peers : Peers) (explorerId : Str) : List PeerInfo :=
  ((peers.listed.filter fun p => decide (p.status ≠ .dead)).filter fun p =>
    decide (p.nodeId ≠ explorerId ∧ p.role = .relay ∧ p.status = .active)).insertionSort
      fun a b => a.depth ≤ b.depth

def buildRelayChain (peers : Peers) (explorerId : Option Str) (health : ChainHealth)
    (previous : Option RelayChainState) (now : ℚ) : RelayChainState :=
  match (present explorerId).filter fun id => (peers.get? id).isSome with
  | none =>
      { chain := [], version := now, updatedAt := now, updatedBy := lit "chain"
        shadowChain := previous.bind fun r => r.shadowChain.or (some r.chain)
        chainHealth := some health }
  | some id =>
      let chain := (activeRelays peers id).map (·.nodeId) ++ [id]
      { chain, version := now, updatedAt := now, updatedBy := lit "chain"
        shadowChain := ((previous.map (·.chain)).filter (· ≠ [])).or (some chain)
        chainHealth := some health }

def RELAY_INSERTION_DISTANCE_STEP : ℚ := 8

/-- The neighbours of a failed node in the chain, if they are close enough for a direct link. -/
def directLinkOk (chain : List Str) (failedNodeId : Str) (peers : Peers) : Bool :=
  let idx := chain.idxOf failedNodeId
  let depth (id : Str) : ℚ := ((peers.get? id).map (·.depth)).getD 0
  match present (if 0 < idx then chain[idx - 1]? else none), present chain[idx + 1]? with
  | some predId, some succId =>
      decide (|depth succId - depth predId| ≤ RELAY_INSERTION_DISTANCE_STEP * 2)
  | _, _ => false

/-- The chain without a failed node, if the node is in it and it is not all there is. -/
def attemptChainRepair (relayChain : RelayChainState) (failedNodeId : Str) (peers : Peers)
    (now : ℚ) : Option RelayChainState :=
  if relayChain.chain.contains failedNodeId then
    let nextChain := relayChain.chain.filter (· ≠ failedNodeId)
    let linked := directLinkOk relayChain.chain failedNodeId peers
    if nextChain = [] then none
    else
      some
        { chain := nextChain, version := relayChain.version + 1, updatedAt := now
          updatedBy := lit "repair"
          shadowChain := (relayChain.shadowChain.filter (· ≠ [])).or (some relayChain.chain)
          chainHealth := some (if linked then .repairing else .degraded) }
  else none

/-! ### Elections and takeovers -/

structure ElectionState where
  candidateId : Str
  depth : ℚ
  explorerVersion : ℕ
  votes : List Str
  quorumNeeded : ℕ
  won : Bool

/-- An election; `voting` are the nodes whose draw is a vote. -/
def runElection (candidateId : Str) (peers : Peers) (voting : Str → Bool) : ElectionState :=
  let candidate := peers.get? candidateId
  let activeIds := (peers.listed.filter fun p => decide (p.status = .active)).map (·.nodeId)
  let quorumNeeded := max 2 ((activeIds.length + 1) / 2)
  let votes := activeIds.filter voting
  { candidateId, votes, quorumNeeded
    depth := (candidate.map (·.depth)).getD 0
    explorerVersion := (candidate.map (·.explorerVersion)).getD 0 + 1
    won := decide (quorumNeeded ≤ votes.length) &&
      candidate.any fun c => decide (c.status = .active) }

/-- The peers and the explorer after a takeover, if it is accepted. -/
def handleExplorerTakeover (peers : Peers) (currentExplorerId : Option Str) (requesterId : Str)
    (requesterDepth now : ℚ) : Option (Peers × Option Str) :=
  match (present currentExplorerId).filter (· ≠ requesterId) with
  | none => none
  | some currentId =>
      match peers.get? currentId, peers.get? requesterId with
      | some current, some requester =>
          if requesterDepth ≤ current.depth then none
          else
            some
              ((peers.put { current with role := .standby }).put
                (requester.crowned (requester.explorerVersion + 1) now), some requesterId)
      | _, _ => none

/-! ### Snapshots -/

/-- What a snapshot says about a drone. -/
structure SwarmDrone where
  id : Str
  name : Str
  depth : ℚ
  role : PeerRole
  timestamp : ℚ
  explorerSince : ℚ
  battery : ℚ
  status : PeerStatus
  deriving DecidableEq

structure SwarmStatePayload where
  drones : List SwarmDrone
  chain : List Str
  shadowChain : List Str
  explorerId : Option Str
  chainHealth : ChainHealth
  savedAt : ℚ

def PeerInfo.drone (p : PeerInfo) : SwarmDrone where
  id := p.nodeId
  name := p.name
  depth := p.depth
  role := p.role
  timestamp := p.lastHeartbeat
  explorerSince := p.explorerSince
  battery := p.battery
  status := p.status

def buildSwarmStatePayload (peers : Peers) (relayChain : RelayChainState)
    (explorerId : Option Str) (now : ℚ) : SwarmStatePayload where
  drones := peers.listed.map (·.drone)
  chain := relayChain.chain
  shadowChain := relayChain.shadowChain.getD relayChain.chain
  explorerId := explorerId
  chainHealth := relayChain.chainHealth.getD .stable
  savedAt := now

abbrev Drones := KeyedMap SwarmDrone.id

def depthOf (id : Option Str) (drones : Drones) : ℚ :=
  (((present id).bind drones.get?).map (·.depth)).getD (-1)

/-- A record of the other side, unless the one at hand is as new. -/
def takeNewer (combined : Drones) (d : SwarmDrone) : Drones :=
  if (combined.get? d.id).all fun cur => decide (cur.timestamp < d.timestamp) then combined.put d
  else combined

/-- The records of two snapshots, the newest one of every drone. -/
def combine (own remote : List SwarmDrone) : Drones :=
  remote.foldl takeNewer (own.foldl KeyedMap.put ∅)

/-- Does an explorer come before the one at hand: deeper, or as deep with a smaller id? -/
def Outranks (drones : Drones) (remoteExplorer : Str) (explorerId : Option Str) : Prop :=
  depthOf explorerId drones < depthOf (some remoteExplorer) drones ∨
    depthOf (some remoteExplorer) drones = depthOf explorerId drones ∧
      remoteExplorer < explorerId.getD []

instance (drones : Drones) (remoteExplorer : Str) (explorerId : Option Str) :
    Decidable (Outranks drones remoteExplorer explorerId) :=
  inferInstanceAs (Decidable (_ ∨ _))

/-- The explorer of two snapshots. -/
def mergeExplorer (drones : Drones) (explorerId remoteExplorer : Option Str) : Option Str :=
  match present remoteExplorer with
  | none => explorerId
  | some r =>
      if some r ≠ explorerId ∧ Outranks drones r explorerId then some r else explorerId

/-- The newest record of every drone, the explorer by depth and then by id. -/
def mergeSwarmStatePayloads (own remote : SwarmStatePayload) : SwarmStatePayload :=
  let combined := combine own.drones remote.drones
  { drones := combined.values
    chain :=
      if own.savedAt < remote.savedAt ∧ own.chain.length ≤ remote.chain.length then remote.chain
      else own.chain
    shadowChain :=
      if remote.shadowChain.length ≤ own.shadowChain.length then own.shadowChain
      else remote.shadowChain
    explorerId := mergeExplorer combined own.explorerId remote.explorerId
    chainHealth := .forming
    savedAt := max own.savedAt remote.savedAt }

/-- What a snapshot's record changes in the record of a peer. -/
def PeerInfo.apply (cur : PeerInfo) (d : SwarmDrone) : PeerInfo :=
  { cur with
    depth := d.depth
    lastHeartbeat := max cur.lastHeartbeat d.timestamp
    explorerSince := max cur.explorerSince d.explorerSince
    battery := d.battery
    status := d.status }

/-- The peers after a snapshot: drones that are no peers are left out. -/
def applyPayloadToPeers (peers : Peers) (payload : SwarmStatePayload) (now : ℚ) : Peers :=
  let next := payload.drones.foldl
    (fun next d => Peers.update next d.id (·.apply d) fun _ => rfl) peers
  match present payload.explorerId with
  | none => next
  | some ex => Peers.appoint next ex (·.explorerVersion + 1) now

/-! ### Who is the explorer -/

/-- Is an id the one of a peer with the role of the explorer? -/
def IsExplorer (peers : Peers) (x : Str) : Prop :=
  (peers.get? x).map (·.role) = some .explorer

instance (peers : Peers) (x : Str) : Decidable (IsExplorer peers x) :=
  inferInstanceAs (Decidable (_ = _))

@[simp] theorem present_eq_some_iff {id : Option Str} {x : Str} :
    present id = some x ↔ id = some x ∧ x ≠ [] := by
  simp [present, Option.filter_eq_some_iff]

theorem mem_listed_iff {peers : Peers} {p : PeerInfo} :
    p ∈ peers.listed ↔ peers.get? p.nodeId = some p := by
  rw [← KeyedMap.mem_values_iff]
  exact ((ownOrder_perm peers.toMap.entries).map Prod.snd).mem_iff

theorem isExplorer_iff_exists {peers : Peers} {x : Str} :
    IsExplorer peers x ↔ ∃ p ∈ peers.listed, p.nodeId = x ∧ p.role = .explorer := by
  constructor
  · intro h
    obtain ⟨p, hp, hrole⟩ := Option.map_eq_some_iff.1 h
    have hkey : p.nodeId = x := KeyedMap.key_of_get? hp
    exact ⟨p, mem_listed_iff.2 (hkey ▸ hp), hkey, hrole⟩
  · rintro ⟨p, hp, rfl, hrole⟩
    rw [IsExplorer, mem_listed_iff.1 hp, Option.map_some, hrole]

/-- A change that leaves every role leaves the explorers. -/
theorem isExplorer_modifyAll {peers : Peers} {f : PeerInfo → PeerInfo}
    {hf : ∀ p, (f p).nodeId = p.nodeId} (hrole : ∀ p, (f p).role = p.role) {x : Str} :
    IsExplorer (peers.modifyAll f hf) x ↔ IsExplorer peers x := by
  rw [IsExplorer, KeyedMap.get?_modifyAll, Option.map_map]
  exact Eq.congr_left (Option.map_congr fun p _ => hrole p)

theorem isSome_get?_modifyAll {peers : Peers} {f : PeerInfo → PeerInfo}
    {hf : ∀ p, (f p).nodeId = p.nodeId} {x : Str} :
    ((peers.modifyAll f hf).get? x).isSome = (peers.get? x).isSome := by
  rw [KeyedMap.get?_modifyAll, Option.isSome_map]

/-- **After an appointment there is no other explorer.** -/
theorem isExplorer_appoint {peers : Peers} {id : Str} {version : PeerInfo → ℕ} {now : ℚ}
    {x : Str} :
    IsExplorer (peers.appoint id version now) x ↔ x = id ∧ (peers.get? id).isSome := by
  rw [IsExplorer, Peers.appoint, KeyedMap.get?_modifyAll]
  cases hget : peers.get? x with
  | none =>
      refine iff_of_false (by simp) ?_
      rintro ⟨rfl, hid⟩
      simp [hget] at hid
  | some p =>
      have hkey : p.nodeId = x := KeyedMap.key_of_get? hget
      by_cases hx : x = id
      · subst hx
        simp [hkey, hget, PeerInfo.crowned]
      · simp only [Option.map_some, hkey, hx, if_false, PeerInfo.demoted, Option.some_inj,
          false_and, iff_false]
        split
        · exact PeerRole.noConfusion
        · assumption

theorem isSome_get?_update {peers : Peers} {id : Str} {f : PeerInfo → PeerInfo}
    {hf : ∀ p, (f p).nodeId = p.nodeId} {x : Str} :
    ((peers.update id f hf).get? x).isSome = (peers.get? x).isSome :=
  isSome_get?_modifyAll

/-- The records of a snapshot change no role and add no peer. -/
theorem fold_apply (drones : List SwarmDrone) (peers : Peers) (x : Str) :
    let next := drones.foldl (fun next d => Peers.update next d.id (·.apply d) fun _ => rfl) peers
    (IsExplorer next x ↔ IsExplorer peers x) ∧ (next.get? x).isSome = (peers.get? x).isSome := by
  induction drones generalizing peers with
  | nil => exact ⟨Iff.rfl, rfl⟩
  | cons d drones ih =>
      obtain ⟨hrole, hsome⟩ := ih (peers.update d.id (·.apply d) fun _ => rfl)
      refine ⟨hrole.trans (isExplorer_modifyAll fun p => ?_), hsome.trans isSome_get?_update⟩
      split
      · rfl
      · rfl

/-- **A snapshot that names an explorer leaves no other one**; a snapshot that names none leaves the
explorers as they are. -/
theorem isExplorer_applyPayloadToPeers {peers : Peers} {payload : SwarmStatePayload} {now : ℚ}
    {x : Str} :
    IsExplorer (applyPayloadToPeers peers payload now) x ↔
      (present payload.explorerId).elim (IsExplorer peers x)
        fun ex => x = ex ∧ (peers.get? ex).isSome := by
  unfold applyPayloadToPeers
  cases present payload.explorerId with
  | none => exact (fold_apply payload.drones peers x).1
  | some ex =>
      dsimp only [Option.elim_some]
      rw [isExplorer_appoint, (fold_apply payload.drones peers ex).2]

theorem isSome_get?_applyPayloadToPeers {peers : Peers} {payload : SwarmStatePayload} {now : ℚ}
    {x : Str} :
    ((applyPayloadToPeers peers payload now).get? x).isSome = (peers.get? x).isSome := by
  unfold applyPayloadToPeers
  cases present payload.explorerId with
  | none => exact (fold_apply payload.drones peers x).2
  | some ex => exact isSome_get?_modifyAll.trans (fold_apply payload.drones peers x).2

/-! ### Who is picked -/

theorem isExplorer_of_pickExplorerId {peers : Peers} {x : Str}
    (h : pickExplorerId peers = some x) : IsExplorer peers x := by
  obtain ⟨p, hp, rfl⟩ := Option.map_eq_some_iff.1 h
  have hex : p.role = .explorer ∧ p.status ≠ .dead := by simpa using List.find?_some hp
  exact isExplorer_iff_exists.2 ⟨p, List.mem_of_find?_eq_some hp, rfl, hex.1⟩

/-! ### What a chain ends with -/

/-- **A chain that is built ends with the explorer it is built for**, and that is a peer. -/
theorem explorer_of_mem_getLast? {peers : Peers} {explorerId : Option Str} {health : ChainHealth}
    {previous : Option RelayChainState} {now : ℚ} {x : Str}
    (h : x ∈ (buildRelayChain peers explorerId health previous now).chain.getLast?) :
    explorerId = some x := by
  unfold buildRelayChain at h
  split at h
  · cases h
  · next id hid =>
      have hlast : id = x := by simpa using h
      exact hlast ▸ (present_eq_some_iff.1 (Option.filter_eq_some_iff.1 hid).1).1

/-- The nodes of a chain that is built are its explorer and active relays. -/
theorem mem_buildRelayChain {peers : Peers} {explorerId : Option Str} {health : ChainHealth}
    {previous : Option RelayChainState} {now : ℚ} {x : Str}
    (h : x ∈ (buildRelayChain peers explorerId health previous now).chain) :
    explorerId = some x ∨ ∃ p, peers.get? x = some p ∧ p.status = .active := by
  unfold buildRelayChain at h
  split at h
  · cases h
  · next id hid =>
      rcases List.mem_append.1 h with h | h
      · obtain ⟨p, hp, rfl⟩ := List.mem_map.1 h
        have hp := List.mem_filter.1 ((List.mem_insertionSort _).1 hp)
        have hactive := of_decide_eq_true hp.2
        exact Or.inr ⟨p, mem_listed_iff.1 (List.mem_filter.1 hp.1).1, hactive.2.2⟩
      · obtain rfl := List.mem_singleton.1 h
        exact Or.inl (present_eq_some_iff.1 (Option.filter_eq_some_iff.1 hid).1).1

end P2p
