/-
**The PBFT cluster** (`swarm/bft_pbft.py`).

A round of the cluster collects prepare and commit votes from its active replicas under the primary
of the current view.  Ordering a value runs rounds, one view after the other, until one succeeds.

Main definitions:

* `Swarm.PBFTCluster` — the cluster, with `activeReplicas`, `primary`, `quorum`, `advanceView`;
* `Swarm.PBFTCluster.runConsensusRound` — one attempt at the current view;
* `Swarm.PBFTCluster.order`, `orderFast`, `consensusTaskWinner` — the calls that order a value.

Main results:

* `Swarm.exists_honest_primary` — among the primaries of one view more than there are Byzantine
  replicas, one is honest;
* `Swarm.round_cases` — what a round does to the log;
* `Swarm.round_of_few`, `Swarm.round_of_quorum` — when a round fails and when it succeeds.
-/
import Endendend.Foundation.OrderedMap
import Mathlib.Algebra.Order.Ring.Rat
import Mathlib.Data.Prod.Lex
import Mathlib.Data.List.MinMax
import Mathlib.Data.List.Sort
import Mathlib.Data.List.Perm.Subperm
import Mathlib.Data.Finset.Insert

set_option relaxedAutoImplicit false
set_option autoImplicit false

namespace Swarm

-- ids and the values that are ordered are strings of the source
variable {Id : Type*} [LinearOrder Id]

def quorumSize (n : ℕ) : ℕ := max 1 (2 * n / 3 + 1)

/-- The id at a view, or the error of the source. -/
def primaryId (sortedIds : List Id) (view : ℤ) : Except String Id :=
  match sortedIds[(view % (sortedIds.length : ℤ)).toNat]? with
  | some nid => .ok nid
  | none => .error "no nodes"

/-- The lowest distance wins; ties are broken by the id. -/
def deterministicTaskWinner (bids : List (Id × ℚ)) : Option Id :=
  (bids.argmin fun x => (toLex (x.2, x.1) : ℚ ×ₗ Id)).map Prod.fst

inductive RoundResult
  | success
  | failure
  deriving DecidableEq

structure ConsensusOutcome (Id : Type*) where
  result : RoundResult
  view : ℤ
  primary : Id
  prepareVotes : List Id
  commitVotes : List Id
  byzantineBlocked : ℕ
  globalSeq : Option ℕ

structure OrderedEntry (Id : Type*) where
  seq : ℕ
  view : ℤ
  payload : List (String × Id)

structure PBFTCluster (Id : Type*) where
  nodeIds : List Id
  committeeCap : Option ℤ
  byzantine : Finset Id
  view : ℤ
  ordered : List (OrderedEntry Id)
  nextSeq : ℕ

namespace PBFTCluster

def new (nodeIds : List Id) (byzantineIds : Finset Id) (committeeSize : Option ℤ) :
    PBFTCluster Id where
  nodeIds := nodeIds.insertionSort (· ≤ ·)
  committeeCap := committeeSize
  byzantine := byzantineIds
  view := 0
  ordered := []
  nextSeq := 1

variable (c : PBFTCluster Id)

def n : ℕ := c.nodeIds.length

/-- The replicas that take part: a committee or all. -/
def activeReplicas : List Id :=
  match c.committeeCap with
  | none => c.nodeIds
  | some cap =>
    if cap ≥ c.n then c.nodeIds else c.nodeIds.take (max 4 (min cap c.n)).toNat

def primary : Except String Id := primaryId c.activeReplicas c.view

def quorum : ℕ := quorumSize c.activeReplicas.length

def advanceView : PBFTCluster Id := { c with view := c.view + 1 }

/-- The replicas that prepare a value: nobody under a Byzantine primary, else the primary and all
honest replicas that find the value valid. -/
def prepareVotes (primary proposedValue : Id) (validatePrepare : Option (Id → Bool)) : List Id :=
  c.activeReplicas.filter fun nid =>
    if nid = primary then primary ∉ c.byzantine
    else primary ∉ c.byzantine ∧ nid ∉ c.byzantine ∧ validatePrepare.all fun f => f proposedValue

/-- The replicas that commit: the honest ones that have prepared. -/
def commitVotes (prepareVotes : List Id) : List Id :=
  c.activeReplicas.filter fun nid => prepareVotes.contains nid ∧ nid ∉ c.byzantine

/-- The replicas that are kept from voting: a Byzantine primary, or the Byzantine replicas under an
honest one. -/
def byzantineBlocked (primary : Id) : ℕ :=
  c.activeReplicas.countP fun nid =>
    if nid = primary then primary ∈ c.byzantine
    else primary ∉ c.byzantine ∧ nid ∈ c.byzantine

/-- One attempt at the current view. -/
def runConsensusRound (proposedValue : Id) (validatePrepare : Option (Id → Bool)) :
    Except String (ConsensusOutcome Id) × PBFTCluster Id :=
  match c.primary with
  | .error e => (.error e, c)
  | .ok primary =>
    let prepareVotes := c.prepareVotes primary proposedValue validatePrepare
    let commitVotes := c.commitVotes prepareVotes
    let outcome : ConsensusOutcome Id :=
      { result := .failure
        view := c.view
        primary
        prepareVotes
        commitVotes := []
        byzantineBlocked := c.byzantineBlocked primary
        globalSeq := none }
    if prepareVotes.length < c.quorum then (.ok outcome, c)
    else if commitVotes.length < c.quorum then (.ok { outcome with commitVotes }, c)
    else
      (.ok { outcome with result := .success, commitVotes, globalSeq := some c.nextSeq },
        { c with
          nextSeq := c.nextSeq + 1
          ordered := c.ordered ++ [⟨c.nextSeq, c.view, [("value", proposedValue)]⟩] })

/-- Attempts at the views from the current one on, at most as many as told. -/
def orderLoop (proposedValue : Id) (validatePrepare : Option (Id → Bool)) :
    ℕ → PBFTCluster Id → Except String (Option ℕ × List (ConsensusOutcome Id)) × PBFTCluster Id
  | 0, c => (.ok (none, []), c)
  | limit + 1, c =>
    match c.runConsensusRound proposedValue validatePrepare with
    | (.error e, c) => (.error e, c)
    | (.ok out, c) =>
      if out.result = .success then (.ok (out.globalSeq, [out]), c)
      else
        match orderLoop proposedValue validatePrepare limit c.advanceView with
        | (.error e, c) => (.error e, c)
        | (.ok (seq, attempts), c) => (.ok (seq, out :: attempts), c)

/-- Orders a value: attempts at the views in turn, as many as there are nodes if no other number is
given. -/
def order (proposedValue : Id) (validatePrepare : Option (Id → Bool)) (maxViews : Option ℤ) :
    Except String (Option ℕ × List (ConsensusOutcome Id)) × PBFTCluster Id :=
  orderLoop proposedValue validatePrepare (maxViews.getD c.n).toNat c

def orderFast (proposedValue : Id) (validatePrepare : Option (Id → Bool)) (maxFastViews : ℤ) :
    Except String (Option ℕ × List (ConsensusOutcome Id)) × PBFTCluster Id :=
  c.order proposedValue validatePrepare (some (max 1 (min maxFastViews c.n)))

/-- Orders the winner of a list of bids; honest replicas prepare no other value. -/
def consensusTaskWinner (bids : List (Id × ℚ)) (maxViews : Option ℤ) :
    Except String (Option Id × Option ℕ × List (ConsensusOutcome Id)) × PBFTCluster Id :=
  match deterministicTaskWinner bids with
  | none => (.ok (none, none, []), c)
  | some expected =>
    let (result, c) := c.order expected (some fun val => val = expected) maxViews
    (result.map fun r => (some expected, r.1, r.2), c)

end PBFTCluster

open PBFTCluster

/-! ### Primaries -/

section Replicas

omit [LinearOrder Id]

variable (c : PBFTCluster Id)

/-- The place of the primary at a view that is some steps ahead. -/
def primaryIndex (i : ℕ) : ℕ := ((c.view + i) % (c.activeReplicas.length : ℤ)).toNat

theorem primaryIndex_lt (h : c.activeReplicas ≠ []) (i : ℕ) :
    primaryIndex c i < c.activeReplicas.length := by
  have hlen := List.length_pos_of_ne_nil h
  have := Int.emod_lt_of_pos (c.view + i) (b := c.activeReplicas.length) (by omega)
  unfold primaryIndex
  omega

theorem primaryId_eq (h : c.activeReplicas ≠ []) (i : ℕ) :
    primaryId c.activeReplicas (c.view + i) =
      .ok (c.activeReplicas.get ⟨primaryIndex c i, primaryIndex_lt c h i⟩) := by
  have hget : c.activeReplicas[primaryIndex c i]? =
      some (c.activeReplicas.get ⟨primaryIndex c i, primaryIndex_lt c h i⟩) :=
    List.getElem?_eq_getElem (primaryIndex_lt c h i)
  rw [primaryId, ← primaryIndex, hget]

/-- The primaries of fewer views than there are replicas are at different places. -/
theorem primaryIndex_injOn (h : c.activeReplicas ≠ []) {i j : ℕ}
    (hi : i < c.activeReplicas.length) (hj : j < c.activeReplicas.length)
    (hij : primaryIndex c i = primaryIndex c j) : i = j := by
  have hlen : (0 : ℤ) < c.activeReplicas.length := by
    exact_mod_cast List.length_pos_of_ne_nil h
  have hi₀ := Int.emod_nonneg (c.view + i) hlen.ne'
  have hj₀ := Int.emod_nonneg (c.view + j) hlen.ne'
  have hmod : (c.view + i) % (c.activeReplicas.length : ℤ) =
      (c.view + j) % (c.activeReplicas.length : ℤ) := by
    unfold primaryIndex at hij
    omega
  have hdvd : (c.activeReplicas.length : ℤ) ∣ (c.view + i) - (c.view + j) :=
    Int.dvd_of_emod_eq_zero (Int.emod_eq_emod_iff_emod_sub_eq_zero.1 hmod)
  have hzero : (c.view + i) - (c.view + j) = 0 := by
    refine Int.eq_zero_of_abs_lt_dvd hdvd ?_
    rw [abs_lt]
    omega
  omega

theorem quorum_pos : 0 < c.quorum := le_max_left 1 _

theorem activeReplicas_length_le : c.activeReplicas.length ≤ c.n := by
  unfold activeReplicas PBFTCluster.n
  split
  · exact le_rfl
  · split
    · exact le_rfl
    · exact List.length_take_le' _ _

/-- A cluster without active replicas has no replicas at all. -/
theorem n_eq_zero_of_activeReplicas (h : c.activeReplicas = []) : c.n = 0 := by
  unfold activeReplicas at h
  split at h
  · exact congrArg List.length h
  · split at h
    · exact congrArg List.length h
    · rw [List.take_eq_nil_iff] at h
      rcases h with h | h
      · omega
      · exact congrArg List.length h

theorem nodup_activeReplicas (h : c.nodeIds.Nodup) : c.activeReplicas.Nodup := by
  unfold activeReplicas
  split
  · exact h
  · split
    · exact h
    · exact h.sublist (List.take_sublist _ _)

end Replicas

variable (c : PBFTCluster Id)

/-- The Byzantine replicas among the active ones. -/
def byzantineActive : List Id := c.activeReplicas.filter fun nid => nid ∈ c.byzantine

/-- **Among the primaries of one view more than there are Byzantine replicas, one is honest.** -/
theorem exists_honest_primary (hnodup : c.activeReplicas.Nodup)
    (hb : (byzantineActive c).length < c.activeReplicas.length) :
    ∃ i ≤ (byzantineActive c).length, ∃ nid,
      primaryId c.activeReplicas (c.view + i) = .ok nid ∧ nid ∉ c.byzantine := by
  have hne : c.activeReplicas ≠ [] := List.ne_nil_of_length_pos (by omega)
  by_contra hall
  push Not at hall
  let primaries := (List.range ((byzantineActive c).length + 1)).map fun i =>
    c.activeReplicas.get ⟨primaryIndex c i, primaryIndex_lt c hne i⟩
  have hdistinct : primaries.Nodup := by
    refine List.Nodup.map_on (fun i hi j hj hij => ?_) List.nodup_range
    rw [List.mem_range] at hi hj
    have hplace := (List.Nodup.get_inj_iff hnodup).1 hij
    exact primaryIndex_injOn c hne (by omega) (by omega) (Fin.mk.inj_iff.1 hplace)
  have hsub : primaries ⊆ byzantineActive c := by
    intro nid hnid
    obtain ⟨i, hi, rfl⟩ := List.mem_map.1 hnid
    rw [List.mem_range] at hi
    refine List.mem_filter.2 ⟨List.get_mem _ _, decide_eq_true ?_⟩
    exact hall i (by omega) _ (primaryId_eq c hne i)
  have hle := (hdistinct.subperm hsub).length_le
  simp only [primaries, List.length_map, List.length_range] at hle
  omega

/-! ### Rounds -/

/-- The entry that a successful round appends. -/
def nextEntry (value : Id) : OrderedEntry Id := ⟨c.nextSeq, c.view, [("value", value)]⟩

/-- The cluster after a successful round. -/
def appended (value : Id) : PBFTCluster Id :=
  { c with nextSeq := c.nextSeq + 1, ordered := c.ordered ++ [nextEntry c value] }

/-- **What a round does**: it fails and changes nothing, or it succeeds and appends one entry. -/
theorem round_cases (value : Id) (validate : Option (Id → Bool)) :
    (∃ e, c.runConsensusRound value validate = (.error e, c)) ∨
      (∃ out, c.runConsensusRound value validate = (.ok out, c) ∧ out.result = .failure) ∨
      ∃ out, c.runConsensusRound value validate = (.ok out, appended c value) ∧
        out.result = .success ∧ out.globalSeq = some c.nextSeq := by
  unfold runConsensusRound
  cases c.primary with
  | error e => exact Or.inl ⟨e, rfl⟩
  | ok primary =>
      dsimp only
      split
      · exact Or.inr (Or.inl ⟨_, rfl, rfl⟩)
      · split
        · exact Or.inr (Or.inl ⟨_, rfl, rfl⟩)
        · exact Or.inr (Or.inr ⟨_, rfl, rfl, rfl⟩)

/-- A round without a quorum of commits fails. -/
theorem round_of_few {primary : Id} (value : Id) (validate : Option (Id → Bool))
    (hp : c.primary = .ok primary)
    (hq : (c.commitVotes (c.prepareVotes primary value validate)).length < c.quorum) :
    ∃ out, c.runConsensusRound value validate = (.ok out, c) ∧ out.result = .failure := by
  unfold runConsensusRound
  rw [hp]
  dsimp only
  split <;> exact ⟨_, rfl, rfl⟩

/-- A round with a quorum of commits succeeds. -/
theorem round_of_quorum {primary : Id} (value : Id) (validate : Option (Id → Bool))
    (hp : c.primary = .ok primary)
    (hq : c.quorum ≤ (c.commitVotes (c.prepareVotes primary value validate)).length) :
    ∃ out, c.runConsensusRound value validate = (.ok out, appended c value) ∧
      out.result = .success ∧ out.globalSeq = some c.nextSeq := by
  have hle : (c.commitVotes (c.prepareVotes primary value validate)).length ≤
      (c.prepareVotes primary value validate).length := by
    refine (List.monotone_filter_right c.activeReplicas fun nid hnid => ?_).length_le
    exact (List.mem_filter.1 (List.contains_iff_mem.1 (of_decide_eq_true hnid).1)).2
  unfold runConsensusRound
  rw [hp]
  dsimp only
  rw [if_neg (by omega), if_neg (by omega)]
  exact ⟨_, rfl, rfl, rfl⟩

/-- Nobody prepares under a Byzantine primary. -/
theorem commitVotes_of_byzantine {primary : Id} (hbyz : primary ∈ c.byzantine) (value : Id)
    (validate : Option (Id → Bool)) :
    c.commitVotes (c.prepareVotes primary value validate) = [] := by
  have hnobody : c.prepareVotes primary value validate = [] := by
    rw [PBFTCluster.prepareVotes, List.filter_eq_nil_iff]
    intro nid _
    split <;> simp [hbyz]
  simp [PBFTCluster.commitVotes, hnobody]

/-- Under an honest primary all honest replicas prepare and commit a value that nobody checks. -/
theorem length_commitVotes_of_honest {primary : Id} (hp : primary ∉ c.byzantine) (value : Id) :
    (c.commitVotes (c.prepareVotes primary value none)).length + (byzantineActive c).length =
      c.activeReplicas.length := by
  have hcommit : c.commitVotes (c.prepareVotes primary value none) =
      c.activeReplicas.filter fun nid => nid ∉ c.byzantine := by
    refine List.filter_congr fun nid hnid => ?_
    by_cases hnb : nid ∈ c.byzantine
    · simp [hnb]
    · rcases eq_or_ne nid primary with rfl | hne
      · simp [PBFTCluster.prepareVotes, hnid, hnb]
      · simp [PBFTCluster.prepareVotes, hnid, hnb, hp, hne]
  have hsplit := c.activeReplicas.length_eq_length_filter_add fun nid => nid ∈ c.byzantine
  rw [hcommit, byzantineActive, hsplit, Nat.add_comm]
  simp

end Swarm
