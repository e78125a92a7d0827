/-
**What the Merkle root of a list of leaves says** (`vertex/hash-chain.ts`, `merkleRootHex`).

A level of odd length hashes its last node with itself.  A list and the same list with that end
written out have one root, so the root does not bind the list; it binds the list completed.

Main definitions:

* `Vertex.innerNode`, `Vertex.merkleRootHex` — the node over two digests, and the root;
* `Vertex.IsLeaf` — a digest that is no inner node.

Main results:

* `Vertex.separated_innerNode` — digests without collisions tell leaves and inner nodes apart;
* `Vertex.isLeaf_of_count_ne_one`, `Vertex.isLeaf_of_mem` — records that are not two digests joined;
* `Vertex.merkleRootHex_eq_iff` — **the root binds the completed list, and lists of one length**;
* `Vertex.merkleRootHex_repeated_end` — three leaves with the root of four.
-/
import Endendend.Foundation.MerkleTree
import Endendend.Vertex.TamperEvidence

set_option relaxedAutoImplicit false
set_option autoImplicit false

namespace Vertex

open Js MerkleTree

section

variable (subtleDigest : Str → List UInt8)

/-- The node over two digests. -/
def innerNode (left right : Str) : Str := sha256Hex subtleDigest (left ++ unit '|' :: right)

/-- The binary Merkle root over leaf digests; odd levels duplicate the last node. -/
def merkleRootHex (leaves : List Str) : Str :=
  if leaves.length = 0 then sha256Hex subtleDigest (lit "merkle|empty")
  else (root? (innerNode subtleDigest) leaves).getD []

/-- A digest in the range of the hash. -/
def IsDigest (s : Str) : Prop := ∃ record, s = sha256Hex subtleDigest record

/-- **The digest of a record that is never an inner node.** -/
structure IsLeaf (s : Str) : Prop where
  isDigest : IsDigest subtleDigest s
  ne_innerNode : ∀ {left right}, IsDigest subtleDigest left → IsDigest subtleDigest right →
    s ≠ innerNode subtleDigest left right

variable {subtleDigest}

/-- The root of a list that is not empty is the node that is left in the end. -/
theorem root?_innerNode {leaves : List Str} (hne : leaves ≠ []) :
    root? (innerNode subtleDigest) leaves = some (merkleRootHex subtleDigest leaves) := by
  obtain ⟨top, -, hroot⟩ := exists_root?_eq (innerNode subtleDigest) hne
  rw [merkleRootHex, if_neg (mt List.length_eq_zero_iff.1 hne), hroot]
  rfl

/-- Without collisions, leaves and inner nodes are told apart: no digest contains a bar. -/
theorem separated_innerNode (hinj : Function.Injective (sha256Hex subtleDigest)) :
    Separated (innerNode subtleDigest) (IsDigest subtleDigest) (IsLeaf subtleDigest) where
  digest_leaf h := h.isDigest
  digest_combine {a b} _ _ := ⟨a ++ unit '|' :: b, rfl⟩
  combine_inj {a b c d} ha _ hc _ h := by
    obtain ⟨x, rfl⟩ := ha
    obtain ⟨y, rfl⟩ := hc
    exact JoinedKeys.append_cons_inj_left (bar_notMem_sha256Hex _ _) (bar_notMem_sha256Hex _ _)
      (hinj h)
  leaf_ne_combine h hb hc := h.ne_innerNode hb hc

/-! ### Records -/

/-- Two digests that are joined contain one bar and hexadecimal digits. -/
theorem IsDigest.joined {left right : Str} (hl : IsDigest subtleDigest left)
    (hr : IsDigest subtleDigest right) :
    (left ++ unit '|' :: right).count (unit '|') = 1 ∧
      ∀ u ∈ left ++ unit '|' :: right, u = unit '|' ∨ u ∈ lit "0123456789abcdef" := by
  obtain ⟨x, rfl⟩ := hl
  obtain ⟨y, rfl⟩ := hr
  refine ⟨?_, fun u hu => ?_⟩
  · rw [List.count_append, List.count_cons_self, List.count_eq_zero.2 (bar_notMem_sha256Hex _ x),
      List.count_eq_zero.2 (bar_notMem_sha256Hex _ y)]
  · rcases List.mem_append.1 hu with hu | hu
    · exact .inr (mem_sha256Hex hu)
    · rcases List.mem_cons.1 hu with rfl | hu
      · exact .inl rfl
      · exact .inr (mem_sha256Hex hu)

/-- A record that does not have exactly one bar gives a leaf. -/
theorem isLeaf_of_count_ne_one (hinj : Function.Injective (sha256Hex subtleDigest)) {record : Str}
    (h : record.count (unit '|') ≠ 1) : IsLeaf subtleDigest (sha256Hex subtleDigest record) where
  isDigest := ⟨record, rfl⟩
  ne_innerNode hl hr heq := h (hinj heq ▸ (hl.joined hr).1)

/-- A record with anything but bars and hexadecimal digits gives a leaf. -/
theorem isLeaf_of_mem (hinj : Function.Injective (sha256Hex subtleDigest)) {record : Str}
    {u : CodeUnit} (hu : u ∈ record) (hbar : u ≠ unit '|') (hhex : u ∉ lit "0123456789abcdef") :
    IsLeaf subtleDigest (sha256Hex subtleDigest record) where
  isDigest := ⟨record, rfl⟩
  ne_innerNode hl hr heq := ((hl.joined hr).2 u (hinj heq ▸ hu)).elim hbar hhex

/-! ### What the root binds -/

section Root

variable (hinj : Function.Injective (sha256Hex subtleDigest)) {leaves leaves' : List Str}
  (h : ∀ s ∈ leaves, IsLeaf subtleDigest s) (h' : ∀ s ∈ leaves', IsLeaf subtleDigest s)

include hinj h h'

/-- The root is that of the completed list. -/
theorem merkleRootHex_eq_iff_completed (hne : leaves ≠ []) (hne' : leaves' ≠ []) :
    merkleRootHex subtleDigest leaves = merkleRootHex subtleDigest leaves' ↔
      completed leaves = completed leaves' := by
  rw [← Option.some_inj, ← root?_innerNode hne, ← root?_innerNode hne']
  exact (separated_innerNode hinj).root?_eq_iff h h' hne hne'

/-- Lists of one length with one root are equal. -/
theorem eq_of_merkleRootHex_eq (hlen : leaves.length = leaves'.length)
    (heq : merkleRootHex subtleDigest leaves = merkleRootHex subtleDigest leaves') :
    leaves = leaves' := by
  rcases eq_or_ne leaves [] with rfl | hne
  · exact (List.length_eq_zero_iff.1 hlen.symm).symm
  · have hne' : leaves' ≠ [] := by
      rintro rfl
      exact hne (List.length_eq_zero_iff.1 hlen)
    exact eq_of_completed_eq hlen ((merkleRootHex_eq_iff_completed hinj h h' hne hne').1 heq)

/-- **The root binds the completed list.**  If the digest has no collision, two lists of leaves have
the same root exactly if they agree once every odd level has its end repeated; two lists of one
length have the same root only if they are equal. -/
theorem merkleRootHex_eq_iff (hne : leaves ≠ []) (hne' : leaves' ≠ []) :
    (merkleRootHex subtleDigest leaves = merkleRootHex subtleDigest leaves' ↔
        completed leaves = completed leaves') ∧
      (leaves.length = leaves'.length →
        merkleRootHex subtleDigest leaves = merkleRootHex subtleDigest leaves' →
        leaves = leaves') :=
  ⟨merkleRootHex_eq_iff_completed hinj h h' hne hne', eq_of_merkleRootHex_eq hinj h h'⟩

end Root

end

/-- Three leaves, with a digest that has no collision. -/
def threeLeaves : List Str :=
  [sha256Hex (fun s => s.flatMap unitBytes) "a", sha256Hex (fun s => s.flatMap unitBytes) "b",
    sha256Hex (fun s => s.flatMap unitBytes) "c"]

/-- The same leaves, with the last one written twice. -/
def fourLeaves : List Str := threeLeaves ++ [sha256Hex (fun s => s.flatMap unitBytes) "c"]

theorem isLeaf_of_mem_fourLeaves {s : Str} (hs : s ∈ fourLeaves) :
    IsLeaf (fun s => s.flatMap unitBytes) s := by
  have hleaf : ∀ record : Str, record.count (unit '|') ≠ 1 →
      IsLeaf (fun s => s.flatMap unitBytes) (sha256Hex (fun s => s.flatMap unitBytes) record) :=
    fun record h => isLeaf_of_count_ne_one sha256Hex_unitBytes_injective h
  simp only [fourLeaves, threeLeaves, List.cons_append, List.nil_append, List.mem_cons,
    List.not_mem_nil, or_false] at hs
  rcases hs with rfl | rfl | rfl | rfl <;> exact hleaf _ (by decide)

theorem isLeaf_of_mem_threeLeaves {s : Str} (hs : s ∈ threeLeaves) :
    IsLeaf (fun s => s.flatMap unitBytes) s :=
  isLeaf_of_mem_fourLeaves (List.mem_append_left _ hs)

/-- The two lists, which are completed alike. -/
theorem merkleRootHex_eq_iff_fourLeaves :
    (merkleRootHex (fun s => s.flatMap unitBytes) threeLeaves =
          merkleRootHex (fun s => s.flatMap unitBytes) fourLeaves ↔
        completed threeLeaves = completed fourLeaves) ∧
      (threeLeaves.length = fourLeaves.length →
        merkleRootHex (fun s => s.flatMap unitBytes) threeLeaves =
          merkleRootHex (fun s => s.flatMap unitBytes) fourLeaves →
        threeLeaves = fourLeaves) :=
  merkleRootHex_eq_iff sha256Hex_unitBytes_injective (fun _ hs => isLeaf_of_mem_threeLeaves hs)
    (fun _ hs => isLeaf_of_mem_fourLeaves hs) (List.cons_ne_nil _ _) (List.cons_ne_nil _ _)

/-- **Two lists with one root**: the third leaf is hashed with itself either way. -/
theorem merkleRootHex_repeated_end :
    Function.Injective (sha256Hex fun s => s.flatMap unitBytes) ∧
      (∀ s ∈ threeLeaves, IsLeaf (fun s => s.flatMap unitBytes) s) ∧
      (∀ s ∈ fourLeaves, IsLeaf (fun s => s.flatMap unitBytes) s) ∧
      merkleRootHex (fun s => s.flatMap unitBytes) threeLeaves =
        merkleRootHex (fun s => s.flatMap unitBytes) fourLeaves ∧
      threeLeaves ≠ fourLeaves :=
  ⟨sha256Hex_unitBytes_injective, fun _ hs => isLeaf_of_mem_threeLeaves hs,
    fun _ hs => isLeaf_of_mem_fourLeaves hs, rfl,
    fun h => absurd (congrArg List.length h) (by decide)⟩

end Vertex
