/-
**What version vectors reveal** (`store/stateManager.ts`).

Nodes write entries, messages carry them to other nodes, late, repeatedly or never, and partitions
are merged.  A version counts the writes of a key that a node has seen, whoever made them: two nodes
that write the same key without having heard of each other issue the same version twice.  Then the
vectors agree, the values do not, and a merge keeps the entry of its first argument.

The vectors reveal every difference as long as no step puts an entry at a node while another node
holds a different entry of the same key and version.

Main definitions:

* `P2p.Network` — the nodes and the messages that have been sent;
* `P2p.Network.Revealing` — versions that are counted right, reveal all differences and make the
  merge symmetric;
* `P2p.Network.Unopposed` — a step that no other node opposes.

Main results:

* `P2p.revealing_iff_agree` — the vectors reveal the differences exactly if an entry is determined
  by its key and its version;
* `P2p.revealing_iff_along` — they do so all along a run exactly if its steps are unopposed.
-/
import Endendend.P2p.StateManager
import Endendend.Foundation.Runs
import Mathlib.Logic.Function.Basic

set_option relaxedAutoImplicit false
set_option autoImplicit false

namespace P2p

open Js Runs

variable {V : Type*}

/-- The states of the nodes and all messages sent so far; a message may be delivered at any time and
any number of times. -/
structure Network (V : Type*) where
  nodes : Str → ManagedState V
  sent : List (StateMessage V)

def Network.start : Network V := ⟨fun _ => createInitialState, []⟩

inductive NetworkMove (V : Type*)
  | updateLocalState (node key : Str) (value : V) (now later : ℤ)
  | handleStateUpdate (node : Str) (message : ℕ)
  | mergePartitionStates (node other : Str)

namespace Network

variable (s : Network V)

def step : NetworkMove V → Option (Network V)
  | .updateLocalState node key value now later =>
      let (state, message) := P2p.updateLocalState (s.nodes node) key value node now later
      some { nodes := Function.update s.nodes node state, sent := s.sent ++ [message] }
  | .handleStateUpdate node message =>
      s.sent[message]?.map fun msg =>
        { s with nodes := Function.update s.nodes node (P2p.handleStateUpdate (s.nodes node) msg) }
  | .mergePartitionStates node other =>
      some { s with nodes :=
        Function.update s.nodes node (P2p.mergePartitionStates (s.nodes node) (s.nodes other)) }

/-- The entry of a key at a node. -/
def entry (node key : Str) : Option (StateEntry V) := (s.nodes node).entries.get? key

/-! ### What is asked of the vectors -/

/-- **The version vectors reveal every divergence.** -/
structure Revealing : Prop where
  /-- The vector of a node has the versions of its entries. -/
  counted : ∀ n k, (s.nodes n).localVersionVector.get? k = (s.entry n k).map (·.version)
  /-- Two nodes between which no key is found hold the same values. -/
  revealed : ∀ n m,
    detectDivergence ((s.nodes n).vector n) ((s.nodes m).vector m) = [] →
      ∀ k, (s.entry n k).map (·.value) = (s.entry m k).map (·.value)
  /-- A merge has the same entries whichever node comes first. -/
  merged : ∀ n m k,
    (P2p.mergePartitionStates (s.nodes n) (s.nodes m)).entries.get? k =
      (P2p.mergePartitionStates (s.nodes m) (s.nodes n)).entries.get? k

/-- No other node holds a different entry with the key and the version of this one. -/
def Free (node : Str) (e : StateEntry V) : Prop :=
  ∀ m, m ≠ node → ∀ f, s.entry m e.key = some f → f.version = e.version → f = e

/-- A step that no other node opposes: a write, or a message that is taken, while no other node
holds a different entry with the same key and version. -/
def Unopposed : NetworkMove V → Prop
  | .updateLocalState node key value now _ =>
      s.Free node (localEntry (s.nodes node) key value node now)
  | .handleStateUpdate node message =>
      ∀ msg, s.sent[message]? = some msg → ∀ e, msg.entry = some e →
        (s.nodes node).version e.key < e.version → s.Free node e
  | .mergePartitionStates _ _ => True

/-- An entry is determined by its key and its version. -/
def Agree : Prop :=
  ∀ n m k e f, s.entry n k = some e → s.entry m k = some f → e.version = f.version → e = f

/-- The versions are counted right at every node. -/
def AllCounted : Prop := ∀ n, (s.nodes n).Counted

end Network

open P2p.Network

/-! ### Revealing vectors -/

theorem merge_comm_iff (a b : ManagedState V) (k : Str) :
    (mergePartitionStates a b).entries.get? k = (mergePartitionStates b a).entries.get? k ↔
      ∀ e f, a.entries.get? k = some e → b.entries.get? k = some f → e.version = f.version →
        e = f := by
  rw [get?_mergePartitionStates, get?_mergePartitionStates]
  cases ha : a.entries.get? k with
  | none =>
      refine iff_of_true ?_ fun e f he => by cases he
      cases b.entries.get? k <;> rfl
  | some e =>
      cases hb : b.entries.get? k with
      | none => exact iff_of_true rfl fun e f _ hf => by cases hf
      | some f =>
          rcases lt_trichotomy e.version f.version with h | h | h
          · refine iff_of_true ?_ fun e' f' he hf hver => ?_
            · simp [Option.filter_some, h, h.asymm]
            · cases he
              cases hf
              exact absurd hver h.ne
          · -- entries of one version: each side keeps its own
            simp [Option.filter_some, h]
          · refine iff_of_true ?_ fun e' f' he hf hver => ?_
            · simp [Option.filter_some, h, h.asymm]
            · cases he
              cases hf
              exact absurd hver.symm h.ne

/-- **The vectors reveal the differences exactly if an entry is determined by its key and its
version.** -/
theorem revealing_iff_agree {s : Network V} (h : s.AllCounted) : s.Revealing ↔ s.Agree := by
  constructor
  · intro hr n m k e f he hf hver
    exact (merge_comm_iff _ _ k).1 (hr.merged n m k) e f he hf hver
  · intro hagree
    refine ⟨fun n k => (h n).versions k, fun n m hnil k => ?_, fun n m k => ?_⟩
    · -- versions that agree are both zero or both of entries
      have hsame : (s.nodes n).version k = (s.nodes m).version k := by
        rw [← (h n).at_vector n, ← (h m).at_vector m]
        exact detectDivergence_eq_nil_iff.1 hnil k
      rw [ManagedState.version, ManagedState.version] at hsame
      cases hn : s.entry n k with
      | none =>
          cases hm : s.entry m k with
          | none => rfl
          | some f =>
              have hpos := (h m).pos k f hm
              rw [Network.entry] at hn hm
              rw [hn, hm] at hsame
              exact absurd hsame hpos.ne
      | some e =>
          cases hm : s.entry m k with
          | none =>
              have hpos := (h n).pos k e hn
              rw [Network.entry] at hn hm
              rw [hn, hm] at hsame
              exact absurd hsame hpos.ne'
          | some f =>
              have hver : e.version = f.version := by
                rw [Network.entry] at hn hm
                rwa [hn, hm] at hsame
              rw [hagree n m k e f hn hm hver]
    · exact (merge_comm_iff _ _ k).2 fun e f he hf hver => hagree n m k e f he hf hver

/-! ### Steps -/

theorem allCounted_step {s s' : Network V} {mv : NetworkMove V} (h : s.AllCounted)
    (hstep : s.step mv = some s') : s'.AllCounted := by
  have hset : ∀ (node : Str) (state : ManagedState V), state.Counted → ∀ n,
      (Function.update s.nodes node state n).Counted := by
    intro node state hstate n
    by_cases hn : n = node
    · rw [hn, Function.update_self]
      exact hstate
    · rw [Function.update_of_ne hn]
      exact h n
  cases mv with
  | updateLocalState node key value now later =>
      obtain rfl := Option.some.inj hstep
      exact hset node _ ((h node).put (Nat.succ_pos _))
  | handleStateUpdate node message =>
      obtain ⟨msg, -, rfl⟩ := Option.map_eq_some_iff.1 hstep
      exact hset node _ ((h node).handleStateUpdate msg)
  | mergePartitionStates node other =>
      obtain rfl := Option.some.inj hstep
      exact hset node _ ((h node).merge (h other))

/-- Entries that were held before are still determined by their keys and versions. -/
theorem agree_of_held {s s' : Network V} (h : s.Agree)
    (hheld : ∀ n k e, s'.entry n k = some e → ∃ m, s.entry m k = some e) : s'.Agree := by
  intro n m k e f he hf hver
  obtain ⟨n', hn'⟩ := hheld n k e he
  obtain ⟨m', hm'⟩ := hheld m k f hf
  exact h n' m' k e f hn' hm' hver

/-- **A new entry at a node** leaves all entries determined exactly if no other node holds a
different one with its key and version. -/
theorem agree_put_iff {s s' : Network V} (h : s.Agree) {node : Str} {e : StateEntry V}
    (hnodes : s'.nodes = Function.update s.nodes node ((s.nodes node).put e)) :
    s'.Agree ↔ s.Free node e := by
  have hself : ∀ k, s'.entry node k = if k = e.key then some e else s.entry node k := fun k => by
    rw [Network.entry, hnodes, Function.update_self, ManagedState.get?_put]
    rfl
  have hother : ∀ m, m ≠ node → ∀ k, s'.entry m k = s.entry m k := fun m hm k => by
    rw [Network.entry, hnodes, Function.update_of_ne hm]
    rfl
  constructor
  · intro hagree m hm f hf hver
    exact hagree m node e.key f e ((hother m hm e.key).trans hf)
      ((hself e.key).trans (if_pos rfl)) hver
  · intro hfree
    -- an entry is the new one or was held before, and then by another node if the key is the same
    have hcases : ∀ n k f, s'.entry n k = some f →
        k = e.key ∧ f = e ∨ ∃ m, s.entry m k = some f ∧ (k = e.key → m ≠ node) := by
      intro n k f hf
      by_cases hn : n = node
      · subst hn
        rw [hself k] at hf
        split_ifs at hf with hk
        · exact Or.inl ⟨hk, (Option.some_inj.1 hf).symm⟩
        · exact Or.inr ⟨n, hf, fun hk' => absurd hk' hk⟩
      · exact Or.inr ⟨n, (hother n hn k).symm.trans hf, fun _ => hn⟩
    intro n m k a b ha hb hver
    rcases hcases n k a ha with ⟨rfl, rfl⟩ | ⟨n', hn', hne⟩
    · rcases hcases m _ b hb with ⟨-, rfl⟩ | ⟨m', hm', hne'⟩
      · rfl
      · exact (hfree m' (hne' rfl) b hm' hver.symm).symm
    · rcases hcases m k b hb with ⟨rfl, rfl⟩ | ⟨m', hm', -⟩
      · exact hfree n' (hne rfl) a hn' hver
      · exact h n' m' k a b hn' hm' hver

/-- **An unopposed step** is one after which all entries are determined. -/
theorem unopposed_iff {s s' : Network V} {mv : NetworkMove V} (h : s.Agree)
    (hstep : s.step mv = some s') : s.Unopposed mv ↔ s'.Agree := by
  cases mv with
  | updateLocalState node key value now later =>
      obtain rfl := Option.some.inj hstep
      exact (agree_put_iff h rfl).symm
  | handleStateUpdate node message =>
      obtain ⟨msg, hmsg, rfl⟩ := Option.map_eq_some_iff.1 hstep
      rw [Unopposed, hmsg]
      simp only [Option.some.injEq, forall_eq']
      cases he : msg.entry with
      | none =>
          refine iff_of_true (fun e he' => by cases he') (agree_of_held h fun n k f hf => ⟨n, ?_⟩)
          rwa [Network.entry, handleStateUpdate, he, Function.update_eq_self] at hf
      | some e =>
          simp only [Option.some.injEq, forall_eq']
          by_cases hle : e.version ≤ (s.nodes node).version e.key
          · refine iff_of_true (fun hlt => absurd hle (not_le.2 hlt))
              (agree_of_held h fun n k f hf => ⟨n, ?_⟩)
            simp only [Network.entry, handleStateUpdate, he, if_pos hle,
              Function.update_eq_self] at hf
            exact hf
          · rw [imp_iff_right (not_le.1 hle)]
            refine (agree_put_iff h ?_).symm
            simp only [handleStateUpdate, he, if_neg hle]
  | mergePartitionStates node other =>
      obtain rfl := Option.some.inj hstep
      refine iff_of_true trivial (agree_of_held h fun n k e he => ?_)
      by_cases hn : n = node
      · subst hn
        simp only [Network.entry, Function.update_self] at he
        rcases get?_mergePartitionStates_cases (s.nodes n) (s.nodes other) k with heq | heq
        · exact ⟨n, heq.symm.trans he⟩
        · exact ⟨other, heq.symm.trans he⟩
      · simp only [Network.entry, Function.update_of_ne hn] at he
        exact ⟨n, he⟩

/-- A message that has not been sent is not delivered. -/
theorem unopposed_of_step_eq_none {s : Network V} {mv : NetworkMove V}
    (h : s.step mv = none) : s.Unopposed mv := by
  cases mv with
  | handleStateUpdate node message =>
      intro msg hmsg
      rw [step, hmsg] at h
      cases h
  | _ => cases h

/-! ### Runs -/

theorem allCounted_of_run {s : Network V} {moves : List (NetworkMove V)}
    (h : run step start moves = some s) : s.AllCounted :=
  invariant_of_run (fun _ _ _ => allCounted_step) (fun _ => counted_createInitialState) h

/-- **The version vectors reveal every divergence all along a run** exactly if its steps are
unopposed. -/
theorem revealing_iff_along (moves : List (NetworkMove V)) :
    (∀ p s, p <+: moves → run step start p = some s → s.Revealing) ↔
      Along step Unopposed start moves := by
  have hagree : (∀ p s, p <+: moves → run step start p = some s → s.Revealing) ↔
      ∀ p s, p <+: moves → run step start p = some s → s.Agree := by
    refine forall_congr' fun p => forall_congr' fun s => forall_congr' fun _ => ?_
    exact forall_congr' fun hrun => revealing_iff_agree (allCounted_of_run hrun)
  have hstart : (start : Network V).Agree := by
    intro n m k e f he
    cases he
  rw [hagree, always_iff_along, and_iff_right hstart]
  intro s mv hs
  constructor
  · intro hun s' hstep
    exact (unopposed_iff hs hstep).1 hun
  · intro hall
    cases hstep : s.step mv with
    | none => exact unopposed_of_step_eq_none hstep
    | some s' => exact (unopposed_iff hs hstep).2 (hall s' hstep)

/-- Two nodes write the same key before they hear of each other. -/
def concurrentWrites : List (NetworkMove ℕ) :=
  [.updateLocalState (lit "agent-0") (lit "explorer_id") 0 1000 1000,
    .updateLocalState (lit "agent-1") (lit "explorer_id") 1 1000 1000]

/-- The vectors of the two writers agree, their values do not, and a merge keeps the entry of its
first argument. -/
theorem not_revealing_concurrentWrites :
    ∃ s, run step start concurrentWrites = some s ∧
      detectDivergence ((s.nodes (lit "agent-0")).vector (lit "agent-0"))
        ((s.nodes (lit "agent-1")).vector (lit "agent-1")) = [] ∧
      (s.entry (lit "agent-0") (lit "explorer_id")).map (·.value) ≠
        (s.entry (lit "agent-1") (lit "explorer_id")).map (·.value) ∧
      (mergePartitionStates (s.nodes (lit "agent-0"))
          (s.nodes (lit "agent-1"))).entries.get? (lit "explorer_id") ≠
        (mergePartitionStates (s.nodes (lit "agent-1"))
          (s.nodes (lit "agent-0"))).entries.get? (lit "explorer_id") := by
  refine ⟨_, rfl, ?_, ?_, ?_⟩
  · decide +kernel
  · decide +kernel
  · decide +kernel

end P2p
