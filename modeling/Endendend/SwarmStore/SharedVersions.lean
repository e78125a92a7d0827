/-
**When shared state converges.**

The version of an update counts the updates of the key that led up to it: it is the length of the
longest chain in which the node of each update knew the update before.  All nodes end with an update
at the end of a longest chain, and when there are several of these, the nodes that made them keep
their own.

Main definitions:

* `SwarmStore.known` — the updates that a node has made or been handed;
* `SwarmStore.Follows` — an update that was made with the knowledge of another one of its key;
* `SwarmStore.ownValues` — the values that a node has given to the empty key, which no other node
  takes over;
* `SwarmStore.Settles` — the updates of a key from which all nodes take the same value.

Main results:

* `SwarmStore.version_counts` — **versions are the lengths of the longest chains of updates**;
* `SwarmStore.KnownInv` — what a node holds is the greatest of what it knows;
* `SwarmStore.shared_state_converges_iff` — **when nothing is in flight, all nodes hold the same
  exactly if the updates of every key settle it.**
-/
import Endendend.SwarmStore.SharedStateManager
import Endendend.Foundation.LongestChain

set_option relaxedAutoImplicit false
set_option autoImplicit false

namespace SwarmStore

open Js (Str)
open Runs LongestChain
open Network (Move World Envelope)

variable {V : Type*}

/-! ### What a node knows -/

/-- What a node gets to know in a move. -/
def learns (i : Str) (w : World Str (SharedStateManager V) (StateUpdate V))
    (mv : Move Str (StateUpdate V) (Str × V) Unit) : Option (StateUpdate V) :=
  if mv.node = i then some (news w mv) else none

/-- The value that a node gives to the empty key in a move. -/
def ownValue (i : Str) : Move Str (StateUpdate V) (Str × V) Unit → Option V
  | .act j event => if j = i ∧ event.1 = [] then some event.2 else none
  | .deliver _ _ => none

/-- The values that a node gives to the empty key in a run. -/
def ownValues (mvs : List (Move Str (StateUpdate V) (Str × V) Unit)) (i : Str) : List V :=
  mvs.filterMap (ownValue i)

theorem ownValues_concat (mvs : List (Move Str (StateUpdate V) (Str × V) Unit))
    (mv : Move Str (StateUpdate V) (Str × V) Unit) (i : Str) :
    ownValues (mvs ++ [mv]) i = ownValues mvs i ++ (ownValue i mv).toList := by
  rw [ownValues, List.filterMap_append]
  cases h : ownValue i mv <;> simp [ownValues, h]

/-- An update is published with the next version of what its node holds. -/
theorem exists_held_of_publishes {w : World Str (SharedStateManager V) (StateUpdate V)}
    {mv : Move Str (StateUpdate V) (Str × V) Unit} {v : StateUpdate V} (hv : v ∈ publishes w mv) :
    v.version = (((w.nodes v.sender).held v.key).map Prod.snd).getD 0 + 1 := by
  cases mv with
  | act i event =>
      obtain rfl := Option.some.inj hv
      rw [SharedStateManager.snd_held]
      rfl
  | deliver e r => cases hv

/-- The last element of a list, with its length, tells both. -/
theorem last_with_length_eq_iff (a b : List V) :
    (a.getLast?.map fun x => (x, (a.length : ℤ))) = (b.getLast?.map fun x => (x, (b.length : ℤ))) ↔
      a.length = b.length ∧ a.getLast? = b.getLast? := by
  cases ha : a.getLast? with
  | none =>
      obtain rfl := List.getLast?_eq_none_iff.1 ha
      cases hb : b.getLast? with
      | none =>
          obtain rfl := List.getLast?_eq_none_iff.1 hb
          simp
      | some y => simp
  | some x =>
      cases hb : b.getLast? with
      | none => simp
      | some y =>
          simp only [Option.map_some, Option.some.injEq, Prod.mk.injEq, Int.natCast_inj]
          exact and_comm

variable [DecidableEq V] (members : List Str)
  (mvs : List (Move Str (StateUpdate V) (Str × V) Unit))

/-- The updates that a node has made or been handed in a run. -/
def known (i : Str) : List (StateUpdate V) :=
  emitted (sharedStep members) (learns i) newShared mvs

/-- The second update is one of the same key, and its node made it when it knew the first one. -/
def Follows (u v : StateUpdate V) : Prop :=
  u.key = v.key ∧ ∃ pre mv w, pre ++ [mv] <+: mvs ∧
    run (sharedStep members) newShared pre = some w ∧ v ∈ publishes w mv ∧
    u ∈ known members pre v.sender

/-- The updates of a key in a run. -/
def updatesOf (key : Str) : Set (StateUpdate V) :=
  {u | u ∈ published members mvs ∧ u.key = key}

/-- All nodes take the same from the updates of a key: the updates at the ends of the longest chains
carry one value.  The empty key is settled if every node gave it the same last value, and as many
values as the others. -/
def Settles (key : Str) : Prop :=
  if key = [] then
    ∀ i ∈ members, ∀ j ∈ members, (ownValues mvs i).length = (ownValues mvs j).length ∧
      (ownValues mvs i).getLast? = (ownValues mvs j).getLast?
  else
    ∀ u v, Foremost (Follows members mvs) (updatesOf members mvs key) u →
      Foremost (Follows members mvs) (updatesOf members mvs key) v → u.value = v.value

variable {members mvs} {w w' : World Str (SharedStateManager V) (StateUpdate V)}
  {mv : Move Str (StateUpdate V) (Str × V) Unit}

theorem known_concat (h : run (sharedStep members) newShared mvs = some w) (i : Str) :
    known members (mvs ++ [mv]) i = known members mvs i ++ (learns i w mv).toList :=
  emitted_concat (learns i) mv h

/-- The empty key is left alone by all moves but the updates of its node. -/
theorem held_nil_of_none (h : sharedStep members w mv = some w') {i : Str}
    (hown : ownValue i mv = none) : (w'.nodes i).held [] = (w.nodes i).held [] := by
  by_cases hi : i = mv.node
  · cases mv with
    | act j event =>
        obtain rfl : i = j := hi
        rw [nodes_act h, SharedStateManager.held_update, if_neg]
        intro hk
        simp [ownValue, ← hk] at hown
    | deliver e r =>
        obtain rfl : i = e.receiver := hi
        rw [nodes_deliver h, SharedStateManager.held_nil_handleStateUpdate]
  · rw [Network.Protocol.nodes_step_of_ne h hi]

theorem held_nil_of_some (h : sharedStep members w mv = some w') {i : Str} {value : V}
    (hown : ownValue i mv = some value) :
    (w'.nodes i).held [] = some (value, (((w.nodes i).held []).map Prod.snd).getD 0 + 1) := by
  cases mv with
  | act j event =>
      obtain ⟨⟨rfl, hk⟩, heq⟩ := Option.ite_none_right_eq_some.1 hown
      obtain rfl := Option.some.inj heq
      have hheld := held_act h
      rw [hk] at hheld
      rw [hheld, SharedStateManager.snd_held, ← hk]
      rfl
  | deliver e r => cases hown

/-- What a node holds, with what it knows. -/
structure KnownInv (members : List Str) (mvs : List (Move Str (StateUpdate V) (Str × V) Unit))
    (w : World Str (SharedStateManager V) (StateUpdate V)) : Prop where
  within : ∀ i key v, (w.nodes i).held key = some v →
    ∃ u ∈ known members mvs i, u.key = key ∧ u.write = v
  atLeast : ∀ i, ∀ u ∈ known members mvs i, u.key ≠ [] →
    ∃ v, (w.nodes i).held u.key = some v ∧ u.version ≤ v.2
  wasPublished : ∀ i, ∀ u ∈ known members mvs i, u ∈ published members mvs
  ownEmpty : ∀ i, (w.nodes i).held [] =
    (ownValues mvs i).getLast?.map fun value => (value, ((ownValues mvs i).length : ℤ))

theorem KnownInv.step (hinv : KnownInv members mvs w)
    (hrun : run (sharedStep members) newShared mvs = some w)
    (h : sharedStep members w mv = some w') : KnownInv members (mvs ++ [mv]) w' := by
  have hshared := sharedInv_run hrun
  constructor
  case within =>
    intro i key v hv
    rw [known_concat hrun]
    obtain hsame | ⟨rfl, hk, hput, -⟩ := held_step hshared h i key
    · obtain ⟨u, hu, hrest⟩ := hinv.within i key v (hsame.symm.trans hv)
      exact ⟨u, List.mem_append_left _ hu, hrest⟩
    · refine ⟨news w mv, List.mem_append_right _ ?_, hk, Option.some.inj (hput.symm.trans hv)⟩
      rw [learns, if_pos rfl]
      exact List.mem_singleton.2 rfl
  case atLeast =>
    intro i u hu hkey
    rw [known_concat hrun] at hu
    obtain hu | hu := List.mem_append.1 hu
    · obtain ⟨v, hv, hle⟩ := hinv.atLeast i u hu hkey
      obtain ⟨v', hv', hmono⟩ := held_mono hshared h hv
      exact ⟨v', hv', hle.trans (version_le_of_mono hmono)⟩
    · obtain ⟨rfl, heq⟩ := Option.ite_none_right_eq_some.1 (Option.mem_toList.1 hu)
      obtain rfl := Option.some.inj heq
      exact held_news hshared h hkey
  case wasPublished =>
    intro i u hu
    rw [known_concat hrun] at hu
    rw [published_concat hrun]
    obtain hu | hu := List.mem_append.1 hu
    · exact List.mem_append_left _ (hinv.wasPublished i u hu)
    · obtain ⟨-, heq⟩ := Option.ite_none_right_eq_some.1 (Option.mem_toList.1 hu)
      obtain rfl := Option.some.inj heq
      exact hshared.news_mem h
  case ownEmpty =>
    intro i
    rw [ownValues_concat]
    cases hown : ownValue i mv with
    | none => simpa using (held_nil_of_none h hown).trans (hinv.ownEmpty i)
    | some value =>
        rw [held_nil_of_some h hown, hinv.ownEmpty i]
        cases hlast : (ownValues mvs i).getLast? with
        | none => simp [List.getLast?_eq_none_iff.1 hlast]
        | some value' => simp

/-- **The invariant holds all along a run.** -/
theorem knownInv_run (h : run (sharedStep members) newShared mvs = some w) :
    KnownInv members mvs w := by
  have hnew : KnownInv members [] (newShared : World Str (SharedStateManager V) _) := by
    constructor
    case within => exact fun _ _ _ hv => by cases hv
    case ownEmpty => exact fun _ => rfl
    all_goals exact fun _ _ hmem => by cases hmem
  exact invariant_of_history hnew (fun _ _ _ _ h₁ hinv hs => hinv.step h₁ hs) h

/-! ### Versions and chains -/

/-- **Versions are the lengths of the longest chains of updates.** -/
theorem version_counts (h : run (sharedStep members) newShared mvs = some w) {key : Str}
    (hkey : key ≠ []) :
    Counts (Follows members mvs) (updatesOf members mvs key) StateUpdate.version where
  pos u hu := (sharedInv_run h).positive u hu.1
  source := by
    rintro u v ⟨-, rfl⟩ ⟨hk, pre, mv, w₁, hpre, h₁, hv, hu⟩
    obtain ⟨pre', mv', w₂, hpre', h₂, hu'⟩ :=
      mem_emitted.1 ((knownInv_run h₁).wasPublished _ u hu)
    exact ⟨mem_emitted.2 ⟨pre', mv', w₂,
      hpre'.trans ((List.prefix_append pre [mv]).trans hpre), h₂, hu'⟩, hk⟩
  above := by
    rintro u v ⟨-, rfl⟩ ⟨hk, pre, mv, w₁, hpre, h₁, hv, hu⟩
    obtain ⟨x, hx, hle⟩ := (knownInv_run h₁).atLeast _ u hu (hk ▸ hkey)
    have hversion := exists_held_of_publishes hv
    rw [← hk, hx, Option.map_some, Option.getD_some] at hversion
    omega
  next := by
    rintro v ⟨hv, rfl⟩
    obtain ⟨pre, mv, w₁, hpre, h₁, hv⟩ := mem_emitted.1 hv
    have hversion := exists_held_of_publishes hv
    cases hx : (w₁.nodes v.sender).held v.key with
    | none =>
        rw [hx] at hversion
        exact Or.inl hversion
    | some x =>
        obtain ⟨u, hu, hk, rfl⟩ := (knownInv_run h₁).within _ _ x hx
        rw [hx] at hversion
        exact Or.inr ⟨u, ⟨hk, pre, mv, w₁, hpre, h₁, hv, hu⟩, hversion⟩

/-! ### Convergence -/

/-- When nothing is in flight, a node holds an update at the end of a longest chain. -/
theorem foremost_of_held (h : run (sharedStep members) newShared mvs = some w)
    (hquiet : w.inFlight = []) {key : Str} (hkey : key ≠ []) {i : Str} (hi : i ∈ members)
    {v : V × ℤ} (hv : (w.nodes i).held key = some v) :
    ∃ u, Foremost (Follows members mvs) (updatesOf members mvs key) u ∧ u.write = v := by
  have hinv := sharedInv_run h
  obtain ⟨u, hu, hk, rfl⟩ := hinv.within i key v hv
  refine ⟨u, ((version_counts h hkey).foremost_iff u).2 ⟨⟨hu, hk⟩, ?_⟩, rfl⟩
  rintro u' ⟨hu', rfl⟩
  obtain ⟨e, he, -⟩ | ⟨v', hv', hle⟩ := hinv.reaches u' hu' hkey i hi
  · rw [hquiet] at he
    cases he
  · obtain rfl := Option.some.inj (hv.symm.trans hv')
    exact hle

/-- A node that made an update at the end of a longest chain holds it. -/
theorem held_of_foremost (h : run (sharedStep members) newShared mvs = some w) {key : Str}
    (hkey : key ≠ []) {u : StateUpdate V}
    (hu : Foremost (Follows members mvs) (updatesOf members mvs key) u) :
    u.sender ∈ members ∧ (w.nodes u.sender).held key = some u.write := by
  have hinv := sharedInv_run h
  obtain ⟨⟨hmem, rfl⟩, hgreatest⟩ := ((version_counts h hkey).foremost_iff u).1 hu
  obtain ⟨v, hv, hlt | rfl⟩ := hinv.ownKept u hmem
  · obtain ⟨u', hu', hk, rfl⟩ := hinv.within _ _ v hv
    exact absurd hlt (not_lt.2 (hgreatest u' ⟨hu', hk⟩))
  · exact ⟨hinv.senders u hmem, hv⟩

/-- When nothing is in flight, a key that was updated is held by all nodes. -/
theorem isSome_held (h : run (sharedStep members) newShared mvs = some w)
    (hquiet : w.inFlight = []) {key : Str} (hkey : key ≠ []) {i j : Str} (hj : j ∈ members)
    (hi : ((w.nodes i).held key).isSome) : ((w.nodes j).held key).isSome := by
  have hinv := sharedInv_run h
  obtain ⟨v, hv⟩ := Option.isSome_iff_exists.1 hi
  obtain ⟨u, hu, rfl, -⟩ := hinv.within i key v hv
  obtain ⟨e, he, -⟩ | ⟨v', hv', -⟩ := hinv.reaches u hu hkey j hj
  · rw [hquiet] at he
    cases he
  · exact Option.isSome_iff_exists.2 ⟨v', hv'⟩

/-- **When nothing is in flight, all nodes hold the same for every key exactly if the updates of
every key settle it.** -/
theorem shared_state_converges_iff (members : List Str)
    (mvs : List (Move Str (StateUpdate V) (Str × V) Unit))
    (w : World Str (SharedStateManager V) (StateUpdate V))
    (h : run (sharedStep members) newShared mvs = some w) (hquiet : w.inFlight = []) :
    (∀ key, ∀ i ∈ members, ∀ j ∈ members, (w.nodes i).held key = (w.nodes j).held key) ↔
      ∀ key, Settles members mvs key := by
  refine forall_congr' fun key => ?_
  rw [Settles]
  split
  · next hkey =>
      subst hkey
      simp only [(knownInv_run h).ownEmpty, last_with_length_eq_iff]
  · next hkey =>
      constructor
      · intro hsame u v hu hv
        obtain ⟨hi, hheldu⟩ := held_of_foremost h hkey hu
        obtain ⟨hj, hheldv⟩ := held_of_foremost h hkey hv
        have heq := (hheldu.symm.trans (hsame _ hi _ hj)).trans hheldv
        exact congrArg Prod.fst (Option.some.inj heq)
      · intro hsettles i hi j hj
        cases hx : (w.nodes i).held key with
        | none =>
            by_contra hne
            have hsome := isSome_held h hquiet hkey hi (Option.isSome_iff_ne_none.2 (Ne.symm hne))
            simp [hx] at hsome
        | some x =>
            obtain ⟨y, hy⟩ := Option.isSome_iff_exists.1
              (isSome_held h hquiet hkey hj (Option.isSome_iff_exists.2 ⟨x, hx⟩))
            obtain ⟨u, hu, rfl⟩ := foremost_of_held h hquiet hkey hi hx
            obtain ⟨v, hv, rfl⟩ := foremost_of_held h hquiet hkey hj hy
            have hcounts := version_counts h hkey
            have huv := (hcounts.foremost_iff u).1 hu
            have hvu := (hcounts.foremost_iff v).1 hv
            have hversion := le_antisymm (hvu.2 u huv.1) (huv.2 v hvu.1)
            rw [hy, StateUpdate.write, StateUpdate.write, hsettles u v hu hv, hversion]

/-- A node updates a key, the other one takes the value over and updates the key again. -/
theorem shared_state_converges_in_turn :
    let a : Str := ("a" : String)
    let b : Str := ("b" : String)
    let k : Str := ("k" : String)
    let mvs : List (Move Str (StateUpdate ℕ) (Str × ℕ) Unit) :=
      [.act a (k, 1), .deliver ⟨a, b, ⟨k, 1, 1, a⟩⟩ (), .act b (k, 2),
        .deliver ⟨b, a, ⟨k, 2, 2, b⟩⟩ ()]
    ∃ w, run (sharedStep [a, b]) newShared mvs = some w ∧ w.inFlight = [] ∧
      ((∀ key, ∀ i ∈ [a, b], ∀ j ∈ [a, b], (w.nodes i).held key = (w.nodes j).held key) ↔
        ∀ key, Settles [a, b] mvs key) := by
  intro a b k mvs
  obtain ⟨w, hw⟩ : ∃ w, run (sharedStep [a, b]) newShared mvs = some w :=
    Option.isSome_iff_exists.1 (by decide +kernel)
  have hfacts : ∀ w ∈ run (sharedStep [a, b]) newShared mvs, w.inFlight = [] := by decide +kernel
  have hquiet := hfacts w hw
  exact ⟨w, hw, hquiet, shared_state_converges_iff [a, b] mvs w hw hquiet⟩

/-- Two nodes update a key before either of them gets the update of the other: both updates have
version 1, and each node keeps its own value. -/
theorem concurrent_updates_diverge :
    let a : Str := ("a" : String)
    let b : Str := ("b" : String)
    let k : Str := ("k" : String)
    let mvs : List (Move Str (StateUpdate ℕ) (Str × ℕ) Unit) :=
      [.act a (k, 1), .act b (k, 2), .deliver ⟨a, b, ⟨k, 1, 1, a⟩⟩ (),
        .deliver ⟨b, a, ⟨k, 2, 1, b⟩⟩ ()]
    ∃ w, run (sharedStep [a, b]) newShared mvs = some w ∧ w.inFlight = [] ∧
      ¬ ∀ key, ∀ i ∈ [a, b], ∀ j ∈ [a, b], (w.nodes i).held key = (w.nodes j).held key := by
  intro a b k mvs
  obtain ⟨w, hw⟩ : ∃ w, run (sharedStep [a, b]) newShared mvs = some w :=
    Option.isSome_iff_exists.1 (by decide +kernel)
  have hfacts : ∀ w ∈ run (sharedStep [a, b]) newShared mvs, w.inFlight = [] ∧
      (w.nodes a).held k = some (1, 1) ∧ (w.nodes b).held k = some (2, 1) := by decide +kernel
  obtain ⟨hquiet, ha, hb⟩ := hfacts w hw
  refine ⟨w, hw, hquiet, fun hsame => ?_⟩
  have heq := (ha.symm.trans (hsame k a (by simp) b (by simp))).trans hb
  cases heq

end SwarmStore
