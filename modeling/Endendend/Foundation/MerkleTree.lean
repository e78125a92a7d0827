/-
**Trees of digests over a list.**

A level of digests is combined in pairs until one digest is left.  A level of odd length combines
its last digest with itself, so the root does not see the list but the list *completed*: the leaves
of a perfect binary tree, in which the end of the list is repeated.

Main definitions:

* `MerkleTree.levelUp`, `MerkleTree.climb`, `MerkleTree.root?` — one level, the climb, the root;
* `MerkleTree.completed` — the list with its end repeated wherever a level was odd;
* `MerkleTree.Tree`, `MerkleTree.Tree.hash`, `MerkleTree.Tree.Perfect` — the tree itself;
* `MerkleTree.Separated` — leaves and inner nodes are told apart.

Main results:

* `MerkleTree.exists_root?_eq` — a list that is not empty has a root;
* `MerkleTree.Separated.hash_injective` — a digest determines its tree;
* `MerkleTree.Separated.root?_eq_iff` — **two lists have the same root exactly if they are completed
  alike**;
* `MerkleTree.prefix_completed` — a list is where its completion starts;
* `MerkleTree.eq_of_completed_eq` — **the completion determines a list of known length**.
-/
import Mathlib.Data.List.Basic
import Mathlib.Algebra.Ring.Nat

set_option relaxedAutoImplicit false
set_option autoImplicit false

namespace MerkleTree

/-! ### The climb -/

section Climb

variable {α β : Type*} (node : α → α → α)

/-- One level up: neighbours are combined, a last one without a neighbour with itself. -/
def levelUp : List α → List α
  | left :: right :: rest => node left right :: levelUp rest
  | [left] => [node left left]
  | [] => []

/-- Levels are combined until at most one node is left. -/
def climb : ℕ → List α → List α
  | 0, level => level
  | fuel + 1, level => if level.length ≤ 1 then level else climb fuel (levelUp node level)

/-- The root over a list: the node that is left in the end. -/
def root? (l : List α) : Option α := (climb node l.length l).head?

theorem length_levelUp (level : List α) : (levelUp node level).length = (level.length + 1) / 2 := by
  induction level using levelUp.induct with
  | case1 left right rest ih => simp only [levelUp, List.length_cons, ih]; omega
  | case2 left => simp [levelUp]
  | case3 => simp [levelUp]

/-- With as much fuel as there are nodes, exactly one is left. -/
theorem length_climb {fuel : ℕ} {level : List α} (hne : 1 ≤ level.length)
    (hfuel : level.length ≤ fuel) : (climb node fuel level).length = 1 := by
  induction fuel generalizing level with
  | zero => omega
  | succ fuel ih =>
      by_cases h : level.length ≤ 1
      · rw [climb, if_pos h]
        omega
      · rw [climb, if_neg h]
        have hlen := length_levelUp node level
        exact ih (by omega) (by omega)

/-- A list that is not empty has a root. -/
theorem exists_root?_eq {l : List α} (hne : l ≠ []) :
    ∃ a, climb node l.length l = [a] ∧ root? node l = some a := by
  have hlen := length_climb node (List.length_pos_iff.2 hne) (Nat.le_refl _)
  obtain ⟨a, ha⟩ := List.length_eq_one_iff.1 hlen
  exact ⟨a, ha, by rw [root?, ha]; rfl⟩

variable {node}

/-- What holds of two nodes that are combined. -/
theorem forall_levelUp {P Q : α → Prop} (hPQ : ∀ a b, P a → P b → Q (node a b)) {level : List α}
    (h : ∀ a ∈ level, P a) : ∀ a ∈ levelUp node level, Q a := by
  induction level using levelUp.induct with
  | case1 left right rest ih =>
      intro a ha
      rcases List.mem_cons.1 ha with rfl | ha
      · exact hPQ _ _ (h left (by simp)) (h right (by simp))
      · exact ih (fun b hb => h b (by simp [hb])) a ha
  | case2 left =>
      intro a ha
      rw [levelUp, List.mem_singleton] at ha
      subst ha
      exact hPQ _ _ (h left (by simp)) (h left (by simp))
  | case3 =>
      intro a ha
      exact absurd ha (by simp [levelUp])

/-- What combining keeps holds of all that is left in the end. -/
theorem forall_climb {P : α → Prop} (hP : ∀ a b, P a → P b → P (node a b)) (fuel : ℕ)
    {level : List α} (h : ∀ a ∈ level, P a) : ∀ a ∈ climb node fuel level, P a := by
  induction fuel generalizing level with
  | zero => exact h
  | succ fuel ih =>
      rw [climb]
      split
      · exact h
      · exact ih (forall_levelUp hP h)

variable {node' : β → β → β} {f : α → β}

theorem map_levelUp (hf : ∀ a b, f (node a b) = node' (f a) (f b)) (level : List α) :
    (levelUp node level).map f = levelUp node' (level.map f) := by
  induction level using levelUp.induct with
  | case1 left right rest ih => simp only [levelUp, List.map_cons, ih, hf]
  | case2 left => simp only [levelUp, List.map_cons, List.map_nil, hf]
  | case3 => rfl

/-- **The climb commutes with everything that combining commutes with.** -/
theorem map_climb (hf : ∀ a b, f (node a b) = node' (f a) (f b)) (fuel : ℕ) (level : List α) :
    (climb node fuel level).map f = climb node' fuel (level.map f) := by
  induction fuel generalizing level with
  | zero => rfl
  | succ fuel ih =>
      simp only [climb, List.length_map]
      by_cases h : level.length ≤ 1
      · rw [if_pos h, if_pos h]
      · rw [if_neg h, if_neg h, ih, map_levelUp hf]

theorem map_root? (hf : ∀ a b, f (node a b) = node' (f a) (f b)) (l : List α) :
    (root? node l).map f = root? node' (l.map f) := by
  rw [root?, root?, ← List.head?_map, map_climb hf, List.length_map]

end Climb

/-! ### The completed list -/

section Completed

variable {α : Type*}

/-- The list with its end repeated, wherever a level of the climb has odd length. -/
def completed (l : List α) : List α := (root? (· ++ ·) (l.map fun a => [a])).getD []

/-- Combining blocks repeats at most the last one. -/
theorem prefix_flatten_levelUp (level : List (List α)) :
    level.flatten <+: (levelUp (· ++ ·) level).flatten := by
  induction level using levelUp.induct with
  | case1 left right rest ih =>
      simpa only [levelUp, List.flatten_cons, List.append_assoc, List.prefix_append_right_inj]
        using ih
  | case2 left => simp [levelUp]
  | case3 => exact List.prefix_refl _

theorem prefix_flatten_climb (fuel : ℕ) (level : List (List α)) :
    level.flatten <+: (climb (· ++ ·) fuel level).flatten := by
  induction fuel generalizing level with
  | zero => exact List.prefix_refl _
  | succ fuel ih =>
      rw [climb]
      split
      · exact List.prefix_refl _
      · exact (prefix_flatten_levelUp level).trans (ih _)

/-- **A list is where its completion starts.** -/
theorem prefix_completed (l : List α) : l <+: completed l := by
  rcases eq_or_ne l [] with rfl | hne
  · exact List.nil_prefix
  · obtain ⟨block, hclimb, hroot⟩ :=
      @exists_root?_eq _ (· ++ ·) (l.map fun a => [a]) (by simpa using hne)
    have hpre := prefix_flatten_climb (l.map fun a => [a]).length (l.map fun a => [a])
    rw [hclimb] at hpre
    rw [completed, hroot]
    simpa [← List.flatMap_def] using hpre

/-- Only elements of the list are repeated. -/
theorem mem_of_mem_completed {l : List α} {a : α} (h : a ∈ completed l) : a ∈ l := by
  have hblocks := @forall_climb _ (· ++ ·) (fun block : List α => ∀ b ∈ block, b ∈ l)
    (fun _ _ hl hr b hb => (List.mem_append.1 hb).elim (hl b) (hr b))
    (l.map fun a => [a]).length (l.map fun a => [a])
    (by simp only [List.mem_map]; rintro _ ⟨b, hb, rfl⟩ c hc; exact List.mem_singleton.1 hc ▸ hb)
  rw [completed, root?] at h
  cases hhead : (climb (· ++ ·) (l.map fun a => [a]).length (l.map fun a => [a])).head? with
  | none => rw [hhead] at h; exact absurd h (by simp)
  | some block =>
      rw [hhead] at h
      exact hblocks block (List.mem_of_head? hhead) a h

/-- Two lists of one length that are completed alike are equal. -/
theorem eq_of_completed_eq {l l' : List α} (hlen : l.length = l'.length)
    (h : completed l = completed l') : l = l' :=
  List.IsPrefix.eq_of_length (List.prefix_of_prefix_length_le (prefix_completed l)
    (h ▸ prefix_completed l') (Nat.le_of_eq hlen)) hlen

end Completed

/-! ### The tree -/

/-- A binary tree with its leaves. -/
inductive Tree (α : Type*)
  | leaf (a : α)
  | node (left right : Tree α)

namespace Tree

variable {α : Type*}

/-- The leaves from left to right. -/
def leaves : Tree α → List α
  | leaf a => [a]
  | node left right => left.leaves ++ right.leaves

/-- The digest at the top of a tree. -/
def hash (combine : α → α → α) : Tree α → α
  | leaf a => a
  | node left right => combine (left.hash combine) (right.hash combine)

/-- All leaves lie at the same depth. -/
def Perfect : ℕ → Tree α → Prop
  | 0, leaf _ => True
  | depth + 1, node left right => Perfect depth left ∧ Perfect depth right
  | 0, node _ _ => False
  | _ + 1, leaf _ => False

theorem Perfect.length_leaves {depth : ℕ} {t : Tree α} (h : Perfect depth t) :
    t.leaves.length = 2 ^ depth := by
  induction t generalizing depth with
  | leaf a =>
      cases depth with
      | zero => rfl
      | succ depth => exact h.elim
  | node left right ihl ihr =>
      cases depth with
      | zero => exact h.elim
      | succ depth =>
          rw [leaves, List.length_append, ihl h.1, ihr h.2, Nat.pow_succ]
          omega

/-- **A perfect tree is known by its leaves.** -/
theorem Perfect.ext {depth : ℕ} {t t' : Tree α} (h : Perfect depth t) (h' : Perfect depth t')
    (hleaves : t.leaves = t'.leaves) : t = t' := by
  induction t generalizing depth t' with
  | leaf a =>
      cases depth with
      | succ depth => exact h.elim
      | zero =>
          cases t' with
          | leaf b => exact congrArg leaf (List.singleton_inj.1 hleaves)
          | node left' right' => exact h'.elim
  | node left right ihl ihr =>
      cases depth with
      | zero => exact h.elim
      | succ depth =>
          cases t' with
          | leaf b => exact h'.elim
          | node left' right' =>
              have hlen : left.leaves.length = left'.leaves.length :=
                h.1.length_leaves.trans h'.1.length_leaves.symm
              obtain ⟨hl, hr⟩ := List.append_inj hleaves hlen
              rw [ihl h.1 h'.1 hl, ihr h.2 h'.2 hr]

end Tree

/-- **The climb ends in perfect trees.** -/
theorem perfect_climb {α : Type*} {depth : ℕ} (fuel : ℕ) {level : List (Tree α)}
    (h : ∀ t ∈ level, t.Perfect depth) :
    ∃ top, ∀ t ∈ climb .node fuel level, t.Perfect top := by
  induction fuel generalizing depth level with
  | zero => exact ⟨depth, h⟩
  | succ fuel ih =>
      rw [climb]
      split
      · exact ⟨depth, h⟩
      · -- a node over two perfect trees of one depth is perfect and one deeper
        exact @ih (depth + 1) _ (forall_levelUp (fun _ _ hl hr => ⟨hl, hr⟩) h)

/-- The tree over a list: its leaves are the completed list, and its digest is the root. -/
theorem exists_tree {α : Type*} (combine : α → α → α) {l : List α} (hne : l ≠ []) :
    ∃ depth, ∃ t : Tree α, t.Perfect depth ∧ t.leaves = completed l ∧
      root? combine l = some (t.hash combine) := by
  obtain ⟨t, hclimb, hroot⟩ := @exists_root?_eq _ Tree.node (l.map .leaf) (by simpa using hne)
  have hleafs : ∀ s ∈ l.map Tree.leaf, s.Perfect 0 := by
    intro s hs
    obtain ⟨a, -, rfl⟩ := List.mem_map.1 hs
    trivial
  obtain ⟨top, htop⟩ := perfect_climb (l.map Tree.leaf).length hleafs
  refine ⟨top, t, htop t (by rw [hclimb]; exact List.mem_singleton_self t), ?_, ?_⟩
  · have h := @map_root? _ _ Tree.node (· ++ ·) Tree.leaves (fun _ _ => rfl) (l.map .leaf)
    rw [hroot, List.map_map] at h
    rw [completed]
    exact congrArg (fun o => Option.getD o []) h
  · have h := @map_root? _ _ Tree.node combine (Tree.hash combine) (fun _ _ => rfl) (l.map .leaf)
    rw [hroot, List.map_map] at h
    exact (h.trans (congrArg (root? combine) (List.map_id l))).symm

/-! ### What a root says -/

/-- **Leaves and inner nodes are told apart**: an inner node is a digest that determines the two
digests below it, and no leaf is one. -/
structure Separated {α : Type*} (combine : α → α → α) (Digest Leaf : α → Prop) : Prop where
  digest_leaf : ∀ {a}, Leaf a → Digest a
  digest_combine : ∀ {a b}, Digest a → Digest b → Digest (combine a b)
  combine_inj : ∀ {a b c d}, Digest a → Digest b → Digest c → Digest d →
    combine a b = combine c d → a = c ∧ b = d
  leaf_ne_combine : ∀ {a b c}, Leaf a → Digest b → Digest c → a ≠ combine b c

section Separated

variable {α : Type*} {combine : α → α → α} {Digest Leaf : α → Prop}

theorem Separated.digest_hash (hsep : Separated combine Digest Leaf) {t : Tree α}
    (h : ∀ a ∈ t.leaves, Leaf a) : Digest (t.hash combine) := by
  induction t with
  | leaf a => exact hsep.digest_leaf (h a (by simp [Tree.leaves]))
  | node left right ihl ihr =>
      exact hsep.digest_combine (ihl fun a ha => h a (List.mem_append_left _ ha))
        (ihr fun a ha => h a (List.mem_append_right _ ha))

/-- **A digest determines its tree.** -/
theorem Separated.hash_injective (hsep : Separated combine Digest Leaf) {t t' : Tree α}
    (h : ∀ a ∈ t.leaves, Leaf a) (h' : ∀ a ∈ t'.leaves, Leaf a)
    (heq : t.hash combine = t'.hash combine) : t = t' := by
  induction t generalizing t' with
  | leaf a =>
      cases t' with
      | leaf b => exact congrArg Tree.leaf heq
      | node left' right' =>
          have hl := hsep.digest_hash fun b hb => h' b (List.mem_append_left right'.leaves hb)
          have hr := hsep.digest_hash fun b hb => h' b (List.mem_append_right left'.leaves hb)
          exact absurd heq (hsep.leaf_ne_combine (h a (by simp [Tree.leaves])) hl hr)
  | node left right ihl ihr =>
      have hl : ∀ a ∈ left.leaves, Leaf a := fun a ha => h a (List.mem_append_left _ ha)
      have hr : ∀ a ∈ right.leaves, Leaf a := fun a ha => h a (List.mem_append_right _ ha)
      cases t' with
      | leaf b =>
          exact absurd heq.symm (hsep.leaf_ne_combine (h' b (by simp [Tree.leaves]))
            (hsep.digest_hash hl) (hsep.digest_hash hr))
      | node left' right' =>
          have hl' : ∀ a ∈ left'.leaves, Leaf a := fun a ha => h' a (List.mem_append_left _ ha)
          have hr' : ∀ a ∈ right'.leaves, Leaf a := fun a ha => h' a (List.mem_append_right _ ha)
          obtain ⟨hll, hrr⟩ := hsep.combine_inj (hsep.digest_hash hl) (hsep.digest_hash hr)
            (hsep.digest_hash hl') (hsep.digest_hash hr') heq
          rw [ihl hl hl' hll, ihr hr hr' hrr]

/-- **Two lists have the same root exactly if they are completed alike.** -/
theorem Separated.root?_eq_iff (hsep : Separated combine Digest Leaf) {l l' : List α}
    (h : ∀ a ∈ l, Leaf a) (h' : ∀ a ∈ l', Leaf a) (hne : l ≠ []) (hne' : l' ≠ []) :
    root? combine l = root? combine l' ↔ completed l = completed l' := by
  obtain ⟨depth, t, hperfect, hleaves, hroot⟩ := exists_tree combine hne
  obtain ⟨depth', t', hperfect', hleaves', hroot'⟩ := exists_tree combine hne'
  rw [hroot, hroot', ← hleaves, ← hleaves', Option.some_inj]
  constructor
  · intro heq
    have hl : ∀ a ∈ t.leaves, Leaf a := fun a ha => h a (mem_of_mem_completed (hleaves ▸ ha))
    have hl' : ∀ a ∈ t'.leaves, Leaf a := fun a ha => h' a (mem_of_mem_completed (hleaves' ▸ ha))
    exact congrArg Tree.leaves (hsep.hash_injective hl hl' heq)
  · intro heq
    -- a perfect tree has as many leaves as its depth says, so the depths agree
    have hpow : 2 ^ depth = 2 ^ depth' :=
      hperfect.length_leaves.symm.trans ((congrArg List.length heq).trans hperfect'.length_leaves)
    obtain rfl : depth = depth' := Nat.pow_right_injective (Nat.le_refl 2) hpow
    rw [hperfect.ext hperfect' heq]

end Separated

end MerkleTree
