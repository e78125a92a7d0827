/-
**The managed state of a node** (`store/stateManager.ts`).

A node keeps an entry for every key, with a version, and beside the entries the versions alone.  A
local write counts the version of its key up; a write of another node is taken if its version is
above the one at hand.  After a partition the entries of two nodes are merged, and two nodes compare
their versions to find the keys that they have to exchange.

Main definitions:

* `P2p.updateLocalState`, `P2p.handleStateUpdate`, `P2p.mergePartitionStates` — what changes a
  state;
* `P2p.detectDivergence` — the keys on which two version vectors differ.

Main results:

* `P2p.get?_mergePartitionStates` — a merged entry is the own one, unless the other one is newer;
* `P2p.detectDivergence_eq_nil_iff` — no key is found exactly if all versions are the same.
-/
import Endendend.Foundation.OwnKeys

set_option relaxedAutoImplicit false
set_option autoImplicit false

namespace P2p

open Js

variable {V : Type*}

structure StateEntry (V : Type*) where
  key : Str
  value : V
  version : ℕ
  updatedBy : Str
  timestamp : ℤ
  deriving DecidableEq

structure VersionVector where
  nodeId : Str
  versions : OrderedMap Str ℕ

structure ManagedState (V : Type*) where
  entries : OrderedMap Str (StateEntry V)
  localVersionVector : OrderedMap Str ℕ
  versionVectors : List VersionVector

/-- A message of a node; only a state update is read here.  The key and the version are there if
they have the right type. -/
inductive StateMessage (V : Type*)
  | stateUpdate (source : Str) (timestamp : ℤ) (key : Option Str) (value : V) (version : Option ℕ)
  | other

def createInitialState : ManagedState V := ⟨∅, ∅, []⟩

namespace ManagedState

variable (s : ManagedState V)

/-- The version of a key. -/
def version (key : Str) : ℕ := ((s.entries.get? key).map (·.version)).getD 0

/-- Puts an entry under its key, with its version. -/
def put (e : StateEntry V) : ManagedState V :=
  { s with
    entries := s.entries.set e.key e
    localVersionVector := s.localVersionVector.set e.key e.version }

end ManagedState

/-- The entry of a local write; `now` is the first reading of the clock. -/
def localEntry (s : ManagedState V) (key : Str) (value : V) (nodeId : Str) (now : ℤ) :
    StateEntry V where
  key := key
  value := value
  version := s.version key + 1
  updatedBy := nodeId
  timestamp := now

/-- A local write and its message; `later` is the clock when the message is made. -/
def updateLocalState (s : ManagedState V) (key : Str) (value : V) (nodeId : Str)
    (now later : ℤ) : ManagedState V × StateMessage V :=
  let entry := localEntry s key value nodeId now
  (s.put entry, .stateUpdate nodeId later (some key) value (some entry.version))

/-- The entry that a message brings, if it is a state update of the right types. -/
def StateMessage.entry : StateMessage V → Option (StateEntry V)
  | stateUpdate source timestamp (some key) value (some version) =>
      some ⟨key, value, version, source, timestamp⟩
  | _ => none

def handleStateUpdate (s : ManagedState V) (msg : StateMessage V) : ManagedState V :=
  match msg.entry with
  | none => s
  | some e => if e.version ≤ s.version e.key then s else s.put e

/-- The keys of a version vector, as the object lists them. -/
def VersionVector.keys (v : VersionVector) : List Str :=
  (ownOrder v.versions.entries).map Prod.fst

def VersionVector.at (v : VersionVector) (key : Str) : ℕ := (v.versions.get? key).getD 0

def detectDivergence (a b : VersionVector) : List Str :=
  (uniq (a.keys ++ b.keys)).filter fun k => decide (a.at k ≠ b.at k)

/-- Assigns those entries of an object to another one that beat what is there. -/
def assignIf {β : Type*} (beats : Option β → β → Bool) (m other : OrderedMap Str β) :
    OrderedMap Str β :=
  (ownOrder other.entries).foldl
    (fun m p => if beats (m.get? p.1) p.2 then m.set p.1 p.2 else m) m

def mergePartitionStates (a b : ManagedState V) : ManagedState V where
  entries := assignIf (fun cur e => cur.all fun c => decide (c.version < e.version))
    a.entries b.entries
  localVersionVector := assignIf (fun cur v => decide (cur.getD 0 < v))
    a.localVersionVector b.localVersionVector
  versionVectors := a.versionVectors ++ b.versionVectors

/-! ### What the operations change -/

theorem ManagedState.get?_put (s : ManagedState V) (e : StateEntry V) (k : Str) :
    (s.put e).entries.get? k = if k = e.key then some e else s.entries.get? k :=
  s.entries.get?_set e.key k e

/-- Each key of an assignment is looked at once. -/
theorem get?_assignIf {β : Type*} (beats : Option β → β → Bool) (m other : OrderedMap Str β)
    (k : Str) :
    (assignIf beats m other).get? k =
      ((other.get? k).filter fun v => beats (m.get? k) v).or (m.get? k) := by
  -- a key that was looked at does not come again, so it is decided by the value of `m`
  have hfold : ∀ (l : List (Str × β)) (m : OrderedMap Str β), (l.map Prod.fst).Nodup →
      (l.foldl (fun m p => if beats (m.get? p.1) p.2 then m.set p.1 p.2 else m) m).get? k =
        ((OrderedMap.getList k l).filter fun v => beats (m.get? k) v).or (m.get? k) := by
    intro l
    induction l with
    | nil => exact fun m _ => rfl
    | cons p l ih =>
        intro m h
        rw [List.map_cons, List.nodup_cons] at h
        rw [List.foldl_cons, ih _ h.2, OrderedMap.getList]
        by_cases hk : p.1 = k
        · subst hk
          rw [if_pos rfl, OrderedMap.getList_eq_none_iff.2 h.1]
          by_cases hb : beats (m.get? p.1) p.2 = true
          · simp [hb, Option.filter_some]
          · simp [hb, Option.filter_some]
        · rw [if_neg hk]
          split
          · rw [OrderedMap.get?_set, if_neg (Ne.symm hk)]
          · rfl
  rw [assignIf, hfold _ _ (nodup_ownOrder other.nodup), getList_ownOrder k other.nodup]
  rfl

/-- **A merged entry is the own one, unless the other one is newer.** -/
theorem get?_mergePartitionStates (a b : ManagedState V) (k : Str) :
    (mergePartitionStates a b).entries.get? k =
      ((b.entries.get? k).filter fun e =>
        (a.entries.get? k).all fun c => decide (c.version < e.version)).or (a.entries.get? k) :=
  get?_assignIf _ _ _ k

/-- A merged entry is one of the two. -/
theorem get?_mergePartitionStates_cases (a b : ManagedState V) (k : Str) :
    (mergePartitionStates a b).entries.get? k = a.entries.get? k ∨
      (mergePartitionStates a b).entries.get? k = b.entries.get? k := by
  rw [get?_mergePartitionStates]
  cases b.entries.get? k with
  | none => exact Or.inl rfl
  | some e =>
      rw [Option.filter_some]
      split
      · exact Or.inr rfl
      · exact Or.inl rfl

/-! ### Version vectors -/

/-- The vector that a node broadcasts. -/
def ManagedState.vector (s : ManagedState V) (nodeId : Str) : VersionVector where
  nodeId := nodeId
  versions := s.localVersionVector

theorem mem_keys_of_at_pos {v : VersionVector} {k : Str} (h : 0 < v.at k) : k ∈ v.keys := by
  have hne : OrderedMap.getList k v.versions.entries ≠ none := by
    intro hnone
    rw [VersionVector.at, OrderedMap.get?, hnone] at h
    exact lt_irrefl 0 h
  rw [Ne, OrderedMap.getList_eq_none_iff, not_not] at hne
  exact (((ownOrder_perm v.versions.entries).map Prod.fst).mem_iff).2 hne

/-- **No key is found exactly if all versions are the same.** -/
theorem detectDivergence_eq_nil_iff {a b : VersionVector} :
    detectDivergence a b = [] ↔ ∀ k, a.at k = b.at k := by
  rw [detectDivergence, List.filter_eq_nil_iff]
  constructor
  · intro h k
    by_contra hne
    refine h k ?_ (decide_eq_true hne)
    rw [mem_uniq, List.mem_append]
    rcases Nat.eq_zero_or_pos (a.at k) with hzero | hpos
    · exact Or.inr (mem_keys_of_at_pos (Nat.pos_of_ne_zero fun hb => hne (hzero.trans hb.symm)))
    · exact Or.inl (mem_keys_of_at_pos hpos)
  · intro h k _
    simp [h k]

/-- The versions beside the entries are those of the entries, and they count from one. -/
structure ManagedState.Counted (s : ManagedState V) : Prop where
  versions : ∀ k, s.localVersionVector.get? k = (s.entries.get? k).map (·.version)
  pos : ∀ k e, s.entries.get? k = some e → 0 < e.version

theorem counted_createInitialState : (createInitialState : ManagedState V).Counted where
  versions := fun _ => rfl
  pos := by
    intro k e h
    cases h

theorem ManagedState.Counted.put {s : ManagedState V} (h : s.Counted) {e : StateEntry V}
    (he : 0 < e.version) : (s.put e).Counted where
  versions := by
    intro k
    rw [ManagedState.get?_put, ManagedState.put, OrderedMap.get?_set]
    split
    · rfl
    · exact h.versions k
  pos := by
    intro k f hf
    rw [ManagedState.get?_put] at hf
    split at hf
    · exact Option.some_inj.1 hf ▸ he
    · exact h.pos k f hf

theorem ManagedState.Counted.handleStateUpdate {s : ManagedState V} (h : s.Counted)
    (msg : StateMessage V) : (P2p.handleStateUpdate s msg).Counted := by
  unfold P2p.handleStateUpdate
  cases msg.entry with
  | none => exact h
  | some e =>
      dsimp only
      split_ifs with hle
      · exact h
      · exact h.put (Nat.zero_lt_of_lt (not_le.1 hle))

/-- **A merge keeps the two records of the versions together.** -/
theorem ManagedState.Counted.merge {a b : ManagedState V} (ha : a.Counted) (hb : b.Counted) :
    (mergePartitionStates a b).Counted where
  versions := by
    intro k
    rw [get?_mergePartitionStates, mergePartitionStates, get?_assignIf, ha.versions, hb.versions]
    cases hget : b.entries.get? k with
    | none => rfl
    | some e =>
        have hpos := hb.pos k e hget
        cases hown : a.entries.get? k with
        | none => simp [hpos, Option.filter_some]
        | some c =>
            by_cases hlt : c.version < e.version
            · simp [hlt, Option.filter_some]
            · simp [hlt, Option.filter_some]
  pos := by
    intro k e h
    rcases get?_mergePartitionStates_cases a b k with heq | heq
    · exact ha.pos k e (heq.symm.trans h)
    · exact hb.pos k e (heq.symm.trans h)

theorem ManagedState.Counted.at_vector {s : ManagedState V} (h : s.Counted) (nodeId k : Str) :
    (s.vector nodeId).at k = s.version k := by
  rw [VersionVector.at, ManagedState.vector, h.versions, ManagedState.version]

end P2p
