/-
**Shared state with counted versions** (`swarm/improved_foxmq.py`).

A node that updates a key counts its version up and publishes the value; the others take it over if
the version is greater than theirs.  Two nodes that update a key at the same time give it the same
version, and then each of them keeps its own value.

Main definitions:

* `SwarmStore.SharedStateManager`, with `update` and `handleStateUpdate`;
* `SwarmStore.sharedState` — the protocol: every update is delivered once to every other node;
* `SwarmStore.published` — the updates of a run;
* `SwarmStore.SharedInv` — what the nodes hold in a run, with the updates that were published.

Main results:

* `SwarmStore.SharedStateManager.held_update`,
  `SwarmStore.SharedStateManager.held_handleStateUpdate` — what a node holds for a key;
* `SwarmStore.held_step` — a move puts a greater version at a key of a node, or nothing;
* `SwarmStore.sharedInv_run` — **an update is on its way to a node, or the node holds one that is
  not older.**
-/
import Endendend.Foundation.Network
import Endendend.Foundation.OrderedMap
import Endendend.Foundation.LastWriter
import Endendend.Foundation.Text

set_option relaxedAutoImplicit false
set_option autoImplicit false

namespace SwarmStore

open Js (Str OrderedMap)
open Runs LastWriter
open Network (Move World Envelope broadcast mem_broadcast)

variable {V : Type*}

/-! ### One node -/

/-- A value and a version for each key that was written. -/
structure SharedStateManager (V : Type*) where
  state : OrderedMap Str V
  versions : OrderedMap Str ℤ
  together : ∀ k, (state.get? k).isSome = (versions.get? k).isSome

/-- What a node publishes when it updates a key. -/
structure StateUpdate (V : Type*) where
  key : Str
  value : V
  version : ℤ
  sender : Str
  deriving DecidableEq

/-- The value and the version that an update carries. -/
def StateUpdate.write (u : StateUpdate V) : V × ℤ := (u.value, u.version)

namespace SharedStateManager

def new : SharedStateManager V := ⟨∅, ∅, fun _ => rfl⟩

variable (s : SharedStateManager V)

def put (key : Str) (value : V) (version : ℤ) : SharedStateManager V where
  state := s.state.set key value
  versions := s.versions.set key version
  together := OrderedMap.isSome_set s.together key value version

/-- A node writes a key, and publishes the value with the next version. -/
def update (key : Str) (value : V) (nodeId : Str) : SharedStateManager V × StateUpdate V :=
  let version := (s.versions.get? key).getD 0 + 1
  (s.put key value version, ⟨key, value, version, nodeId⟩)

/-- A node takes over a value with a greater version; an update of the empty key is ignored. -/
def handleStateUpdate (u : StateUpdate V) : SharedStateManager V :=
  if u.key = [] then s
  else if u.version > (s.versions.get? u.key).getD (-1) then s.put u.key u.value u.version
  else s

/-- What a node holds for a key: the value and its version. -/
def held (key : Str) : Option (V × ℤ) :=
  (s.state.get? key).bind fun value => (s.versions.get? key).map fun version => (value, version)

variable {s}

theorem held_put (key : Str) (value : V) (version : ℤ) (key' : Str) :
    (s.put key value version).held key' =
      if key' = key then some (value, version) else s.held key' := by
  simp only [held, put, OrderedMap.get?_set]
  split <;> rfl

theorem snd_held (key : Str) : (s.held key).map Prod.snd = s.versions.get? key := by
  have htogether := s.together key
  rw [held]
  cases hs : s.state.get? key with
  | none =>
      rw [hs] at htogether
      exact (Option.not_isSome_iff_eq_none.1 (by simp [← htogether])).symm
  | some value => simp

theorem version_of_held {key : Str} {v : V × ℤ} (h : s.held key = some v) :
    s.versions.get? key = some v.2 := by
  rw [← snd_held, h]
  rfl

theorem version_of_not_held {key : Str} (h : s.held key = none) : s.versions.get? key = none := by
  rw [← snd_held, h]
  rfl

/-- **An update is the next version of what the node holds.** -/
theorem held_update (key : Str) (value : V) (nodeId key' : Str) :
    (s.update key value nodeId).1.held key' =
      if key' = key then some (s.update key value nodeId).2.write else s.held key' :=
  held_put _ _ _ _

/-- Its version is greater than that of what the node holds. -/
theorem lt_version_update {key : Str} {v : V × ℤ} (h : s.held key = some v) (value : V)
    (nodeId : Str) : v.2 < (s.update key value nodeId).2.version := by
  have hversion := version_of_held h
  simp only [update, hversion, Option.getD_some]
  omega

/-- An update of another node leaves the empty key alone. -/
theorem held_nil_handleStateUpdate (u : StateUpdate V) :
    (s.handleStateUpdate u).held [] = s.held [] := by
  rw [handleStateUpdate]
  split
  · rfl
  · next hkey =>
      split
      · rw [held_put, if_neg (Ne.symm hkey)]
      · rfl

/-- **An update of another node is offered to the key.** -/
theorem held_handleStateUpdate {u : StateUpdate V} (hkey : u.key ≠ []) (hpos : 0 < u.version)
    (key : Str) :
    (s.handleStateUpdate u).held key =
      if key = u.key then offer Prod.snd false (s.held key) (u.value, u.version)
      else s.held key := by
  rw [handleStateUpdate, if_neg hkey]
  cases h : s.held u.key with
  | none =>
      rw [version_of_not_held h, if_pos (by simpa using by omega), held_put]
      split
      · next hk =>
          rw [hk, h]
          rfl
      · rfl
  | some v =>
      rw [version_of_held h, Option.getD_some]
      by_cases hlt : v.2 < u.version
      · rw [if_pos hlt, held_put]
        split
        · next hk => rw [hk, h, offer_of_lt hlt]
        · rfl
      · rw [if_neg hlt]
        split
        · next hk => rw [hk, h, offer_of_le (not_lt.1 hlt)]
        · rfl

end SharedStateManager

/-! ### The network -/

/-- Nodes that update keys, and hand each update once to every other node. -/
def sharedState (members : List Str) :
    Network.Protocol Str (SharedStateManager V) (StateUpdate V) (Str × V) Unit where
  members
  act i event s :=
    let r := s.update event.1 event.2 i
    (broadcast members i [r.2], r.1)
  receive e _ s := ([], s.handleStateUpdate e.message)

/-- New nodes, and nothing in flight. -/
def newShared : World Str (SharedStateManager V) (StateUpdate V) := ⟨fun _ => .new, []⟩

/-- The update that the node of a move gets to know. -/
def news (w : World Str (SharedStateManager V) (StateUpdate V)) :
    Move Str (StateUpdate V) (Str × V) Unit → StateUpdate V
  | .act i event => ((w.nodes i).update event.1 event.2 i).2
  | .deliver e _ => e.message

/-- The update that a move publishes. -/
def publishes (w : World Str (SharedStateManager V) (StateUpdate V)) :
    Move Str (StateUpdate V) (Str × V) Unit → Option (StateUpdate V)
  | .act i event => some (news w (.act i event))
  | .deliver _ _ => none

variable {members : List Str} {w w' : World Str (SharedStateManager V) (StateUpdate V)}
  {mv : Move Str (StateUpdate V) (Str × V) Unit} {us : List (StateUpdate V)}

/-- What the nodes hold in a run, with the updates that were published. -/
structure SharedInv (members : List Str) (us : List (StateUpdate V))
    (w : World Str (SharedStateManager V) (StateUpdate V)) : Prop where
  /-- Versions count from one. -/
  positive : ∀ u ∈ us, 0 < u.version
  /-- Only the nodes of the network publish. -/
  senders : ∀ u ∈ us, u.sender ∈ members
  /-- Messages in flight were published. -/
  inFlight : ∀ e ∈ w.inFlight, e.message ∈ us
  /-- What a node holds was published. -/
  within : ∀ i key v, (w.nodes i).held key = some v → ∃ u ∈ us, u.key = key ∧ u.write = v
  /-- A node holds its own last update, or a later one. -/
  ownKept : ∀ u ∈ us, ∃ v, (w.nodes u.sender).held u.key = some v ∧
    (u.version < v.2 ∨ v = u.write)
  /-- An update is on its way to a node, or the node holds one that is not older. -/
  reaches : ∀ u ∈ us, u.key ≠ [] → ∀ i ∈ members,
    (∃ e ∈ w.inFlight, e.receiver = i ∧ e.message = u) ∨
      ∃ v, (w.nodes i).held u.key = some v ∧ u.version ≤ v.2

theorem version_le_of_mono {v v' : V × ℤ} (h : v.2 < v'.2 ∨ v' = v) : v.2 ≤ v'.2 := by
  obtain hlt | rfl := h
  · exact hlt.le
  · exact le_rfl

theorem version_pos_act (hinv : SharedInv members us w) (i : Str) (event : Str × V) :
    0 < (news w (.act i event)).version := by
  cases hv : (w.nodes i).held event.1 with
  | none =>
      simp only [news, SharedStateManager.update, SharedStateManager.version_of_not_held hv]
      decide
  | some v =>
      obtain ⟨u, hu, -, rfl⟩ := hinv.within i event.1 v hv
      exact (hinv.positive u hu).trans (SharedStateManager.lt_version_update hv event.2 i)

section Run

variable [DecidableEq V]

/-- Moves of the network as steps. -/
abbrev sharedStep (members : List Str) := (sharedState (V := V) members).step

/-- The updates that were published in a run. -/
def published (members : List Str) (mvs : List (Move Str (StateUpdate V) (Str × V) Unit)) :
    List (StateUpdate V) :=
  emitted (sharedStep members) publishes newShared mvs

variable {mvs : List (Move Str (StateUpdate V) (Str × V) Unit)}

theorem published_concat (h : run (sharedStep members) newShared mvs = some w) :
    published members (mvs ++ [mv]) = published members mvs ++ (publishes w mv).toList :=
  emitted_concat publishes mv h

/-- What a node holds after a move of its own. -/
theorem nodes_act {i : Str} {event : Str × V} (h : sharedStep members w (.act i event) = some w') :
    w'.nodes i = ((w.nodes i).update event.1 event.2 i).1 :=
  Network.Protocol.nodes_step h

theorem nodes_deliver {e : Envelope Str (StateUpdate V)} {r : Unit}
    (h : sharedStep members w (.deliver e r) = some w') :
    w'.nodes e.receiver = (w.nodes e.receiver).handleStateUpdate e.message :=
  Network.Protocol.nodes_step h

/-- A node that publishes an update holds it. -/
theorem held_act {i : Str} {event : Str × V} (h : sharedStep members w (.act i event) = some w') :
    (w'.nodes i).held event.1 = some (news w (.act i event)).write := by
  rw [nodes_act h, SharedStateManager.held_update, if_pos rfl]
  rfl

theorem SharedInv.news_mem (hinv : SharedInv members us w)
    (h : sharedStep members w mv = some w') : news w mv ∈ us ++ (publishes w mv).toList := by
  cases mv with
  | act i event => exact List.mem_append_right _ (List.mem_singleton.2 rfl)
  | deliver e r =>
      exact List.mem_append_left _ (hinv.inFlight e (Network.Protocol.step_eq_some.1 h).1)

/-- **What a move does at a key of a node**: nothing, or it puts the news there, which has a greater
version than what was there. -/
theorem held_step (hinv : SharedInv members us w) (h : sharedStep members w mv = some w')
    (i key : Str) :
    (w'.nodes i).held key = (w.nodes i).held key ∨
      i = mv.node ∧ (news w mv).key = key ∧ (w'.nodes i).held key = some (news w mv).write ∧
        ∀ v ∈ (w.nodes i).held key, v.2 < (news w mv).version := by
  by_cases hi : i = mv.node
  · cases mv with
    | act j event =>
        obtain rfl : i = j := hi
        rw [nodes_act h, SharedStateManager.held_update]
        split
        · next hk =>
            refine Or.inr ⟨rfl, hk.symm, rfl, fun v hv => ?_⟩
            exact SharedStateManager.lt_version_update (hk ▸ hv) event.2 i
        · exact Or.inl rfl
    | deliver e r =>
        obtain rfl : i = e.receiver := hi
        have hmem := hinv.inFlight e (Network.Protocol.step_eq_some.1 h).1
        rw [nodes_deliver h]
        by_cases hkey : e.message.key = []
        · rw [SharedStateManager.handleStateUpdate, if_pos hkey]
          exact Or.inl rfl
        · rw [SharedStateManager.held_handleStateUpdate hkey (hinv.positive _ hmem)]
          split
          · next hk =>
              have hcases := @offer_cases_strict _ _ _ Prod.snd
                ((w.nodes e.receiver).held key) (e.message.value, e.message.version)
              exact hcases.imp_right fun hnew => ⟨rfl, hk.symm, hnew⟩
          · exact Or.inl rfl
  · rw [Network.Protocol.nodes_step_of_ne h hi]
    exact Or.inl rfl

/-- **A node never goes back**: after a move it holds what it held, or a greater version. -/
theorem held_mono (hinv : SharedInv members us w) (h : sharedStep members w mv = some w')
    {i key : Str} {v : V × ℤ} (hv : (w.nodes i).held key = some v) :
    ∃ v', (w'.nodes i).held key = some v' ∧ (v.2 < v'.2 ∨ v' = v) := by
  obtain hsame | ⟨-, -, hnew, hlt⟩ := held_step hinv h i key
  · exact ⟨v, hsame.trans hv, Or.inr rfl⟩
  · exact ⟨_, hnew, Or.inl (hlt v hv)⟩

/-- **A node that gets to know an update holds one that is not older.** -/
theorem held_news (hinv : SharedInv members us w) (h : sharedStep members w mv = some w')
    (hkey : (news w mv).key ≠ []) :
    ∃ v, (w'.nodes mv.node).held (news w mv).key = some v ∧ (news w mv).version ≤ v.2 := by
  cases mv with
  | act i event => exact ⟨_, held_act h, le_rfl⟩
  | deliver e r =>
      have hmem := hinv.inFlight e (Network.Protocol.step_eq_some.1 h).1
      replace hkey : e.message.key ≠ [] := hkey
      change ∃ v, (w'.nodes e.receiver).held e.message.key = some v ∧ e.message.version ≤ v.2
      rw [nodes_deliver h, SharedStateManager.held_handleStateUpdate hkey (hinv.positive _ hmem),
        if_pos rfl]
      cases hcur : (w.nodes e.receiver).held e.message.key with
      | none => exact ⟨_, rfl, le_rfl⟩
      | some v =>
          by_cases hle : e.message.version ≤ v.2
          · exact ⟨v, offer_of_le hle, hle⟩
          · exact ⟨_, offer_of_lt (not_le.1 hle), le_rfl⟩

theorem SharedInv.step (hinv : SharedInv members us w) (h : sharedStep members w mv = some w') :
    SharedInv members (us ++ (publishes w mv).toList) w' := by
  constructor
  case positive =>
    intro u hu
    obtain hu | hu := List.mem_append.1 hu
    · exact hinv.positive u hu
    · cases mv with
      | act i event =>
          obtain rfl := List.mem_singleton.1 hu
          exact version_pos_act hinv i event
      | deliver e r => cases hu
  case senders =>
    intro u hu
    obtain hu | hu := List.mem_append.1 hu
    · exact hinv.senders u hu
    · cases mv with
      | act i event =>
          obtain rfl := List.mem_singleton.1 hu
          exact (Network.Protocol.step_eq_some.1 h).1
      | deliver e r => cases hu
  case inFlight =>
    intro e he
    obtain he | he := Network.Protocol.mem_inFlight_step h he
    · exact List.mem_append_left _ (hinv.inFlight e he)
    · cases mv with
      | act i event => exact List.mem_append_right _ (mem_broadcast.1 he).2.2.2
      | deliver e' r => cases he
  case within =>
    intro i key v hv
    obtain hsame | ⟨-, hk, hput, -⟩ := held_step hinv h i key
    · obtain ⟨u, hu, hrest⟩ := hinv.within i key v (hsame.symm.trans hv)
      exact ⟨u, List.mem_append_left _ hu, hrest⟩
    · exact ⟨_, hinv.news_mem h, hk, Option.some.inj (hput.symm.trans hv)⟩
  case ownKept =>
    intro u hu
    obtain hu | hu := List.mem_append.1 hu
    · obtain ⟨v, hv, hown⟩ := hinv.ownKept u hu
      obtain ⟨v', hv', hmono⟩ := held_mono hinv h hv
      refine ⟨v', hv', ?_⟩
      obtain hlt | rfl := hown
      · exact Or.inl (hlt.trans_le (version_le_of_mono hmono))
      · exact hmono
    · cases mv with
      | act i event =>
          obtain rfl := List.mem_singleton.1 hu
          exact ⟨_, held_act h, Or.inr rfl⟩
      | deliver e r => cases hu
  case reaches =>
    intro u hu hkey i hi
    obtain hu | hu := List.mem_append.1 hu
    · obtain ⟨e, he, rfl, rfl⟩ | ⟨v, hv, hle⟩ := hinv.reaches u hu hkey i hi
      · obtain ⟨r, rfl⟩ | he := Network.Protocol.stays_in_flight h he
        · exact Or.inr (held_news hinv h hkey)
        · exact Or.inl ⟨e, he, rfl, rfl⟩
      · obtain ⟨v', hv', hmono⟩ := held_mono hinv h hv
        exact Or.inr ⟨v', hv', hle.trans (version_le_of_mono hmono)⟩
    · cases mv with
      | act j event =>
          obtain rfl := List.mem_singleton.1 hu
          by_cases hij : i = j
          · subst hij
            exact Or.inr ⟨_, held_act h, le_rfl⟩
          · refine Or.inl ⟨⟨j, i, _⟩, Network.Protocol.sent_mem_inFlight h ?_, rfl, rfl⟩
            exact mem_broadcast.2 ⟨rfl, hij, hi, List.mem_singleton.2 rfl⟩
      | deliver e r => cases hu

/-- **The invariant holds all along a run.** -/
theorem sharedInv_run (h : run (sharedStep members) newShared mvs = some w) :
    SharedInv members (published members mvs) w := by
  have hnew : SharedInv members [] (newShared : World Str (SharedStateManager V) _) := by
    constructor
    case within => exact fun _ _ _ hv => by cases hv
    all_goals exact fun _ hmem => by cases hmem
  refine invariant_of_history (I := fun mvs w => SharedInv members (published members mvs) w)
    hnew ?_ h
  intro mvs mv w₁ w₂ h₁ hinv hs
  rw [published_concat h₁]
  exact hinv.step hs

end Run

end SwarmStore
