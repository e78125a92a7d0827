/-
**One explorer after a reintegration** (`store/p2pStore.ts`).

Three fields of the store say who the explorer is: the roles of the peers, the name of the current
explorer and the end of the relay chain.  The store brings them together when a tick leaves the
solo mode, when partitions are merged and when a snapshot is merged.

The merge of partitions always leaves one explorer.  A merge with a snapshot does so exactly if the
explorer it names is a peer.  A tick that meets no named explorer does so exactly if the election
is won or nobody else was an explorer: a lost election leaves the explorer of the mesh beside the
node that made itself the explorer.

Main definitions:

* `P2p.OneExplorer` — the three fields agree on one explorer, or on none;
* `P2p.P2PState.Settles` — the condition under which a reintegration gets there.

Main results:

* `P2p.oneExplorer_after_iff` — one reintegration;
* `P2p.oneExplorer_iff_along` — all reintegrations of a run.
-/
import Endendend.P2p.P2pStore

set_option relaxedAutoImplicit false
set_option autoImplicit false

namespace P2p

open Js Runs

/-! ### The explorers -/

/-- The ids of the explorers. -/
def explorers (peers : Peers) : List Str :=
  (peers.listed.filter fun p => decide (p.role = .explorer)).map (·.nodeId)

theorem mem_explorers_iff {peers : Peers} {x : Str} : x ∈ explorers peers ↔ IsExplorer peers x := by
  rw [isExplorer_iff_exists, explorers, List.mem_map]
  refine exists_congr fun p => ?_
  rw [List.mem_filter, decide_eq_true_iff]
  exact and_right_comm.trans (and_assoc.trans Iff.rfl)

theorem nodup_explorers (peers : Peers) : (explorers peers).Nodup := by
  have hlisted : (peers.listed.map (·.nodeId)).Nodup :=
    (((ownOrder_perm peers.toMap.entries).map Prod.snd).map _).nodup_iff.2 peers.nodup_map_values
  exact hlisted.sublist (List.filter_sublist.map _)

/-- The explorers are those of an option exactly if it holds who is an explorer. -/
theorem explorers_eq_toList_iff {peers : Peers} {o : Option Str} :
    explorers peers = o.toList ↔ ∀ x, IsExplorer peers x ↔ o = some x := by
  constructor
  · intro h x
    rw [← mem_explorers_iff, h, Option.mem_toList]
  · intro h
    have hnodup : o.toList.Nodup := by
      cases o with
      | none => exact List.nodup_nil
      | some a => exact List.nodup_singleton a
    have hperm : (explorers peers).Perm o.toList :=
      (List.perm_ext_iff_of_nodup (nodup_explorers peers) hnodup).2 fun x => by
        rw [mem_explorers_iff, h x, Option.mem_toList]
    cases o with
    | none => exact List.perm_nil.1 hperm
    | some a => exact List.perm_singleton.1 hperm

theorem explorers_congr {peers peers' : Peers} {o : Option Str}
    (h : ∀ x, IsExplorer peers x ↔ IsExplorer peers' x) :
    explorers peers = o.toList ↔ explorers peers' = o.toList := by
  rw [explorers_eq_toList_iff, explorers_eq_toList_iff]
  exact forall_congr' fun x => by rw [h x]

/-- **The store knows one explorer, or none**: its explorers are the current one, and a chain that
is not empty ends with it. -/
structure OneExplorer (s : P2PState) : Prop where
  named : explorers s.peers = s.currentExplorerId.toList
  last : ∀ x ∈ s.relayChain.chain.getLast?, s.currentExplorerId = some x

instance (s : P2PState) : Decidable (OneExplorer s) :=
  decidable_of_iff
    (explorers s.peers = s.currentExplorerId.toList ∧
      ∀ x ∈ s.relayChain.chain.getLast?, s.currentExplorerId = some x)
    ⟨fun h => ⟨h.1, h.2⟩, fun h => ⟨h.named, h.last⟩⟩

/-! ### The conditions -/

namespace P2PState

variable (s : P2PState)

/-- Does a move reintegrate the store into the mesh? -/
def Reintegrates : P2PMove → Prop
  | .tickP2P heard _ now => s.leavesSolo heard now = true
  | .mergePartitions _ => True
  | .requestStateMerge _ => True
  | _ => False

/-- A tick that leaves the solo mode ends with one explorer: the explorer that the merge names is a
peer; where it names none, the election is won or the picked peer is the only explorer. -/
def SettlesTick (heard voting : Str → Bool) (now : ℚ) : Prop :=
  let met := (s.view heard now).meetSnapshot now s.disk
  let cand := TickView.candidate s.localNodeId met
  (present met.2).elim
    ((runElection cand met.1 voting).won = true ∨
      explorers s.peers = [(pickExplorerId met.1).getD cand])
    fun ex => (s.peers.get? ex).isSome = true

/-- A request ends with one explorer: the explorer that the merge names is a peer; where it names
none, the picked peer is the only explorer; without a snapshot nothing changes. -/
def SettlesRequest (now : ℚ) : Prop :=
  (s.storedPayload now).elim (OneExplorer s) fun remotePayload =>
    (present (s.mergedPayload remotePayload now).explorerId).elim
      (explorers s.peers = (pickExplorerId s.peers).toList)
      fun ex => (s.peers.get? ex).isSome = true

def Settles : P2PMove → Prop
  | .tickP2P heard voting now => s.leavesSolo heard now = true → s.SettlesTick heard voting now
  | .requestStateMerge now => s.SettlesRequest now
  | _ => True

end P2PState

/-! ### Merging partitions -/

/-- Who is an explorer when the others are demoted. -/
theorem isExplorer_demoteOthers {peers : Peers} {w x : Str}
    {hf : ∀ p : PeerInfo, (if p.nodeId = w then p else p.demoted).nodeId = p.nodeId} :
    IsExplorer (peers.modifyAll (fun p => if p.nodeId = w then p else p.demoted) hf) x ↔
      x = w ∧ IsExplorer peers w := by
  rw [IsExplorer, KeyedMap.get?_modifyAll]
  by_cases hx : x = w
  · subst hx
    cases hget : peers.get? x with
    | none => simp [IsExplorer, hget]
    | some p => simp [IsExplorer, hget, KeyedMap.key_of_get? hget]
  · refine iff_of_false ?_ fun h => hx h.1
    cases hget : peers.get? x with
    | none => simp
    | some p =>
        simp only [Option.map_some, KeyedMap.key_of_get? hget, hx, if_false, PeerInfo.demoted,
          Option.some_inj]
        split
        · exact PeerRole.noConfusion
        · assumption

/-- **At most one explorer is left.** -/
theorem eq_of_isExplorer_resolveExplorers {peers : Peers} {x y : Str}
    (hx : IsExplorer (P2PState.resolveExplorers peers) x)
    (hy : IsExplorer (P2PState.resolveExplorers peers) y) : x = y := by
  unfold P2PState.resolveExplorers at hx hy
  split at hx
  · next first second rest heq =>
      simp only [heq] at hy
      rw [isExplorer_demoteOthers] at hx hy
      exact hx.1.trans hy.1.symm
  · -- with fewer than two explorers nobody is demoted
    next hnot =>
      have hy : IsExplorer peers y := by
        split at hy
        · next first second rest heq => exact absurd heq (hnot first second rest)
        · exact hy
      rw [← mem_explorers_iff, explorers] at hx hy
      cases hl : peers.listed.filter fun p => decide (p.role = .explorer) with
      | nil => simp [hl] at hx
      | cons first rest =>
          cases rest with
          | nil =>
              rw [hl] at hx hy
              exact (List.mem_singleton.1 hx).trans (List.mem_singleton.1 hy).symm
          | cons second rest => exact absurd hl (hnot first second rest)

theorem isExplorer_iff_find? {peers : Peers}
    (huniq : ∀ x y, IsExplorer peers x → IsExplorer peers y → x = y) {x : Str} :
    IsExplorer peers x ↔
      (peers.listed.find? fun p => decide (p.role = .explorer)).map (·.nodeId) = some x := by
  constructor
  · intro h
    obtain ⟨p, hp, rfl, hrole⟩ := isExplorer_iff_exists.1 h
    cases hfind : peers.listed.find? fun p => decide (p.role = .explorer) with
    | none => exact absurd (decide_eq_true hrole) (List.find?_eq_none.1 hfind p hp)
    | some q =>
        have hq : q.role = .explorer := by simpa using List.find?_some hfind
        have hqex : IsExplorer peers q.nodeId :=
          isExplorer_iff_exists.2 ⟨q, List.mem_of_find?_eq_some hfind, rfl, hq⟩
        exact congrArg some (huniq _ _ hqex h)
  · intro h
    obtain ⟨q, hfind, rfl⟩ := Option.map_eq_some_iff.1 h
    have hq : q.role = .explorer := by simpa using List.find?_some hfind
    exact isExplorer_iff_exists.2 ⟨q, List.mem_of_find?_eq_some hfind, rfl, hq⟩

/-- **The merge of partitions leaves one explorer**, whatever the state before. -/
theorem oneExplorer_mergePartitions (s : P2PState) (now : ℚ) :
    OneExplorer (s.mergePartitions now) where
  named :=
    explorers_eq_toList_iff.2 fun _ =>
      isExplorer_iff_find? fun _ _ => eq_of_isExplorer_resolveExplorers
  last := fun _ hx => explorer_of_mem_getLast? hx

/-! ### Leaving the solo mode -/

theorem remote_of_leavesSolo {s : P2PState} {heard : Str → Bool} {now : ℚ}
    (h : s.leavesSolo heard now = true) : s.remote now = true := by
  simp only [P2PState.leavesSolo, Bool.and_eq_true] at h
  exact h.1.2

theorem isExplorer_updatePeerStatuses {peers : Peers} {now : ℚ} {localNodeId x : Str} :
    IsExplorer (updatePeerStatuses peers now localNodeId) x ↔ IsExplorer peers x :=
  isExplorer_modifyAll fun p => by
    dsimp only
    split_ifs <;> rfl

/-- A tick that can leave the solo mode has changed no role so far and has lost no peer. -/
theorem view_of_remote {s : P2PState} {heard : Str → Bool} {now : ℚ} (h : s.remote now = true)
    (x : Str) :
    (IsExplorer (s.view heard now).peers x ↔ IsExplorer s.peers x) ∧
      ((s.view heard now).peers.get? x).isSome = (s.peers.get? x).isSome := by
  -- somebody was heard, so the tick does not enter the solo mode
  have hpeers : (s.view heard now).peers = (s.listen heard now).peers := by
    have henter : (s.listen heard now).enterSolo s.localNodeId now (s.remote now) =
        s.listen heard now := by
      rw [TickView.enterSolo, if_neg]
      simp [h]
    rw [P2PState.view, henter, TickView.countStable]
    split <;> rfl
  rw [hpeers]
  constructor
  · refine (isExplorer_modifyAll fun p => ?_).trans isExplorer_updatePeerStatuses
    split <;> rfl
  · exact isSome_get?_modifyAll.trans isSome_get?_modifyAll

/-- The explorers after the meeting with the snapshot. -/
theorem isExplorer_meetSnapshot {v : TickView} {now : ℚ} {disk : Option SwarmPersistedSnapshot}
    {x : Str} :
    IsExplorer (v.meetSnapshot now disk).1 x ↔
      (present (v.meetSnapshot now disk).2).elim (IsExplorer v.peers x)
        fun ex => x = ex ∧ (v.peers.get? ex).isSome := by
  unfold TickView.meetSnapshot
  split
  · exact isExplorer_applyPayloadToPeers
  · exact Iff.rfl

theorem isSome_get?_meetSnapshot {v : TickView} {now : ℚ} {disk : Option SwarmPersistedSnapshot}
    {x : Str} : ((v.meetSnapshot now disk).1.get? x).isSome = (v.peers.get? x).isSome := by
  unfold TickView.meetSnapshot
  split
  · exact isSome_get?_applyPayloadToPeers
  · rfl

theorem candidate_of_present {localNodeId ex : Str} {met : Peers × Option Str}
    (h : present met.2 = some ex) : TickView.candidate localNodeId met = ex := by
  rw [TickView.candidate, (present_eq_some_iff.1 h).1]
  rfl

/-- The winner of an election is an active peer. -/
theorem isSome_get?_of_won {candidateId : Str} {peers : Peers} {voting : Str → Bool}
    (h : (runElection candidateId peers voting).won = true) :
    (peers.get? candidateId).isSome = true := by
  simp only [runElection, Bool.and_eq_true] at h
  obtain ⟨p, hp, -⟩ := (Option.any_eq_true _ _).1 h.2
  rw [hp, Option.isSome_some]

/-- If nobody but the candidate is an explorer, the candidate is picked. -/
theorem getD_pickExplorerId {peers : Peers} {cand : Str}
    (h : ∀ x, IsExplorer peers x → x = cand) : (pickExplorerId peers).getD cand = cand := by
  cases hpick : pickExplorerId peers with
  | none => rfl
  | some x => exact h x (isExplorer_of_pickExplorerId hpick)

/-- **The end of the solo mode leaves one explorer exactly if the tick settles.** -/
theorem explorers_leaveSolo_iff {s : P2PState} {heard voting : Str → Bool} {now : ℚ}
    (h : s.remote now = true) {w : TickView}
    (hw : w = (s.view heard now).leaveSolo s.localNodeId now s.disk voting) :
    explorers w.peers = w.explorerId.toList ↔ s.SettlesTick heard voting now := by
  subst hw
  have hview := @view_of_remote s heard now h
  set v := s.view heard now with hv
  set met := v.meetSnapshot now s.disk with hmet
  set cand := TickView.candidate s.localNodeId met with hcand
  have hmetex : ∀ x, IsExplorer met.1 x ↔ (present met.2).elim (IsExplorer v.peers x)
      fun ex => x = ex ∧ (v.peers.get? ex).isSome := fun _ => isExplorer_meetSnapshot
  rw [explorers_eq_toList_iff, P2PState.SettlesTick]
  dsimp only [TickView.leaveSolo]
  rw [← hv, ← hmet, ← hcand]
  by_cases hwon : (runElection cand met.1 voting).won = true
  · -- the winner is the only explorer, and a peer
    have hsome := isSome_get?_of_won hwon
    have hex : ∀ x, IsExplorer (met.1.appoint cand
        (fun _ => (runElection cand met.1 voting).explorerVersion) now) x ↔ x = cand :=
      fun _ => isExplorer_appoint.trans (and_iff_left hsome)
    rw [if_pos hwon, getD_pickExplorerId fun x hx => (hex x).1 hx]
    refine iff_of_true (fun x => (hex x).trans (by rw [Option.some_inj, eq_comm])) ?_
    cases hnamed : present met.2 with
    | none => exact Or.inl hwon
    | some ex =>
        rw [hcand, candidate_of_present hnamed, hmet, isSome_get?_meetSnapshot,
          (hview ex).2] at hsome
        exact hsome
  · -- the explorers are those that the merge leaves
    rw [if_neg hwon]
    cases hnamed : present met.2 with
    | none =>
        simp only [hnamed, Option.elim_none] at hmetex
        rw [Option.elim_none, or_iff_right hwon, ← explorers_eq_toList_iff,
          explorers_congr fun x => (hmetex x).trans (hview x).1]
        rfl
    | some ex =>
        simp only [hnamed, Option.elim_some] at hmetex
        rw [Option.elim_some, hcand, candidate_of_present hnamed,
          getD_pickExplorerId fun x hx => ((hmetex x).1 hx).1, ← (hview ex).2]
        constructor
        · intro hall
          exact ((hmetex ex).1 ((hall ex).2 rfl)).2
        · intro hsome x
          rw [hmetex x, and_iff_left hsome, Option.some_inj, eq_comm]

/-- A chain with its explorer and active relays has no dead relay to repair. -/
theorem repairDeadRelays_leaveSolo {s : P2PState} {heard voting : Str → Bool} {now : ℚ}
    {w : TickView} (hw : w = (s.view heard now).leaveSolo s.localNodeId now s.disk voting)
    (hone : explorers w.peers = w.explorerId.toList) :
    (w.repairDeadRelays now).relayChain = w.relayChain := by
  -- repairs are tried only for peers of the chain
  have hfold : ∀ l : List PeerInfo, (∀ dead ∈ l, dead.nodeId ∉ w.relayChain.chain) →
      l.foldl (fun chain dead => (attemptChainRepair chain dead.nodeId w.peers now).getD chain)
        w.relayChain = w.relayChain := by
    intro l hl
    induction l with
    | nil => rfl
    | cons dead l ih =>
        have hdead : w.relayChain.chain.contains dead.nodeId = false := by
          simpa using hl dead List.mem_cons_self
        rw [List.foldl_cons, attemptChainRepair, hdead, if_neg Bool.false_ne_true]
        exact ih fun d hd => hl d (List.mem_cons_of_mem _ hd)
  refine hfold _ fun dead hdead hmem => ?_
  obtain ⟨hlisted, hrole⟩ := List.mem_filter.1 hdead
  obtain ⟨hstatus, hrole⟩ : dead.status = .dead ∧ dead.role = .relay := of_decide_eq_true hrole
  have hget := mem_listed_iff.1 hlisted
  have hchain : w.explorerId = some dead.nodeId ∨
      ∃ p, w.peers.get? dead.nodeId = some p ∧ p.status = .active := by
    subst hw
    exact mem_buildRelayChain hmem
  -- a dead relay is neither the explorer nor active
  rcases hchain with hex | ⟨p, hp, hactive⟩
  · have hexplorer := (explorers_eq_toList_iff.1 hone dead.nodeId).2 hex
    rw [IsExplorer, hget, Option.map_some, hrole] at hexplorer
    cases hexplorer
  · rw [hget] at hp
    cases hp
    rw [hstatus] at hactive
    cases hactive

/-- **A tick that leaves the solo mode.** -/
theorem oneExplorer_tickP2P_iff {s : P2PState} {heard voting : Str → Bool} {now : ℚ}
    (h : s.leavesSolo heard now = true) :
    OneExplorer (s.tickP2P heard voting now) ↔ s.SettlesTick heard voting now := by
  obtain ⟨w, hw⟩ : ∃ w, w = (s.view heard now).leaveSolo s.localNodeId now s.disk voting :=
    ⟨_, rfl⟩
  have hpeers : (s.tickP2P heard voting now).peers = w.peers := by
    rw [P2PState.tickP2P, hw, if_pos h]
    rfl
  have hchain : (s.tickP2P heard voting now).relayChain = (w.repairDeadRelays now).relayChain := by
    rw [P2PState.tickP2P, hw, if_pos h]
  have hcurrent : (s.tickP2P heard voting now).currentExplorerId = w.explorerId := by
    rw [P2PState.tickP2P, hw, if_pos h]
    rfl
  rw [← explorers_leaveSolo_iff (remote_of_leavesSolo h) hw]
  constructor
  · intro hone
    rw [← hpeers, ← hcurrent]
    exact hone.named
  · intro hone
    refine ⟨by rw [hpeers, hcurrent, hone], ?_⟩
    rw [hchain, hcurrent, repairDeadRelays_leaveSolo hw hone]
    subst hw
    exact fun x hx => explorer_of_mem_getLast? hx

/-! ### Merging a snapshot on request -/

theorem mergeExplorer_of_absent {drones : Drones} {explorerId remoteExplorer : Option Str}
    (h : present (mergeExplorer drones explorerId remoteExplorer) = none) :
    mergeExplorer drones explorerId remoteExplorer = explorerId := by
  unfold mergeExplorer at h ⊢
  cases hr : present remoteExplorer with
  | none => rfl
  | some r =>
      rw [hr] at h
      dsimp only at h ⊢
      split_ifs at h ⊢
      · rw [present_eq_some_iff] at hr
        simp [present, hr.2] at h
      · rfl

/-- **A request to merge the snapshot.** -/
theorem oneExplorer_requestStateMerge_iff {s : P2PState} {now : ℚ} :
    OneExplorer (s.requestStateMerge now) ↔ s.SettlesRequest now := by
  unfold P2PState.requestStateMerge P2PState.SettlesRequest
  cases s.storedPayload now with
  | none => exact Iff.rfl
  | some remotePayload =>
      set merged := s.mergedPayload remotePayload now with hmerged
      have hex : ∀ x, IsExplorer (applyPayloadToPeers s.peers merged now) x ↔
          (present merged.explorerId).elim (IsExplorer s.peers x)
            fun ex => x = ex ∧ (s.peers.get? ex).isSome := fun _ => isExplorer_applyPayloadToPeers
      -- an explorer that is named demotes all others; if none is named, the roles stay
      have hone : explorers (applyPayloadToPeers s.peers merged now) =
          (merged.explorerId.or (pickExplorerId s.peers)).toList ↔
          (present merged.explorerId).elim
            (explorers s.peers = (pickExplorerId s.peers).toList)
            fun ex => (s.peers.get? ex).isSome = true := by
        cases hnamed : present merged.explorerId with
        | none =>
            simp only [hnamed, Option.elim_none] at hex
            have hown : merged.explorerId = pickExplorerId s.peers :=
              mergeExplorer_of_absent hnamed
            rw [hown, Option.or_self, Option.elim_none, explorers_congr hex]
        | some ex =>
            simp only [hnamed, Option.elim_some] at hex
            rw [(present_eq_some_iff.1 hnamed).1, Option.some_or, Option.elim_some,
              explorers_eq_toList_iff]
            constructor
            · intro hall
              exact ((hex ex).1 ((hall ex).2 rfl)).2
            · intro hsome x
              rw [hex x, and_iff_left hsome, Option.some_inj, eq_comm]
      rw [Option.elim_some, ← hmerged, ← hone]
      exact ⟨fun h => h.named, fun h => ⟨h, fun x hx => explorer_of_mem_getLast? hx⟩⟩

/-! ### Runs -/

/-- **A reintegration ends with one explorer exactly if it settles.** -/
theorem oneExplorer_after_iff {s : P2PState} {mv : P2PMove} (h : s.Reintegrates mv) :
    OneExplorer (s.after mv) ↔ s.Settles mv := by
  cases mv with
  | tickP2P heard voting now =>
      exact (oneExplorer_tickP2P_iff h).trans ⟨fun hs _ => hs, fun hs => hs h⟩
  | mergePartitions now => exact iff_of_true (oneExplorer_mergePartitions s now) trivial
  | requestStateMerge now => exact oneExplorer_requestStateMerge_iff
  | _ => exact h.elim

/-- The store after its first initialization. -/
def started (disk : Option SwarmPersistedSnapshot) (node : Option DroneNodePersisted)
    (agents : List Agent) (draws : ℕ → ℚ) (loaded now : ℚ) : P2PState :=
  (P2PState.empty loaded disk node).initializeP2P agents draws now

/-- **All reintegrations of a run end with one explorer exactly if all of them settle.** -/
theorem oneExplorer_iff_along (disk : Option SwarmPersistedSnapshot)
    (node : Option DroneNodePersisted) (agents : List Agent) (draws : ℕ → ℚ) (loaded now : ℚ)
    (moves : List P2PMove) :
    (∀ pre mv post s, moves = pre ++ mv :: post →
      run P2PState.step (started disk node agents draws loaded now) pre = some s →
        s.Reintegrates mv → OneExplorer (s.after mv)) ↔
      Along P2PState.step (fun s mv => s.Reintegrates mv → s.Settles mv)
        (started disk node agents draws loaded now) moves := by
  rw [along_iff_forall_split]
  constructor
  · intro h pre mv post s hsplit hrun hmv
    exact (oneExplorer_after_iff hmv).1 (h pre mv post s hsplit hrun hmv)
  · intro h pre mv post s hsplit hrun hmv
    exact (oneExplorer_after_iff hmv).2 (h pre mv post s hsplit hrun hmv)

/-- A relay, which is the local node, and an explorer. -/
def twoAgents : List Agent :=
  [⟨lit "agent-0", lit "Relay", lit "relay", 90⟩,
    ⟨lit "agent-1", lit "Explorer", lit "explorer", 90⟩]

/-- The explorer is not heard for half a minute and comes back for two ticks. -/
def isolation : List P2PMove :=
  [.tickP2P (fun _ => true) (fun _ => true) 31000, .simulateNodeRecovery (lit "agent-1") 31000,
    .tickP2P (fun _ => true) (fun _ => true) 31001, .tickP2P (fun _ => true) (fun _ => true) 31002]

/-- The third tick holds an election that is lost, and two explorers are left. -/
theorem two_explorers_lostElection :
    (twoAgents.filter fun a => decide (a.role = lit "explorer")).length ≤ 1 ∧
      ∃ s, run P2PState.step (started none none twoAgents (fun _ => 0) 0 0) isolation = some s ∧
        s.Reintegrates (.tickP2P (fun _ => true) (fun _ => false) 31003) ∧
        explorers (s.after (.tickP2P (fun _ => true) (fun _ => false) 31003)).peers =
          [lit "agent-0", lit "agent-1"] ∧
        ¬ OneExplorer (s.after (.tickP2P (fun _ => true) (fun _ => false) 31003)) := by
  refine ⟨by decide +kernel, ?_⟩
  obtain ⟨s, hs⟩ : ∃ s, run P2PState.step (started none none twoAgents (fun _ => 0) 0 0) isolation =
      some s := Option.isSome_iff_exists.1 (by decide +kernel)
  have hlast : ∀ s ∈ run P2PState.step (started none none twoAgents (fun _ => 0) 0 0) isolation,
      s.leavesSolo (fun _ => true) 31003 = true ∧
      explorers (s.tickP2P (fun _ => true) (fun _ => false) 31003).peers =
        [lit "agent-0", lit "agent-1"] ∧
      ¬ OneExplorer (s.tickP2P (fun _ => true) (fun _ => false) 31003) := by
    decide +kernel
  exact ⟨s, hs, hlast s hs⟩

end P2p
