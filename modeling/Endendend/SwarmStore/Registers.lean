/-
**Registers that are merged by two ways.**

A register is merged on its own, where what is there stays on a tie, or as a part of a snapshot,
where it is replaced on a tie.  Either way it ends with a write of greatest version and time; when
there are several of these, it depends on the order and the way which of them it is.

Main definitions:

* `SwarmStore.MergeOp`, `SwarmStore.mergeStep` — the two merges that bring writes to registers;
* `SwarmStore.brought` — the writes that some merges bring to a register.

Main results:

* `SwarmStore.get?_registers_run` — a register is the register of the writes that were brought;
* `SwarmStore.registers_converge_iff` — **stores that merged the same writes agree exactly if the
  writes of greatest version and time are all the same.**
-/
import Endendend.SwarmStore.MergeSnapshot
import Endendend.Foundation.Runs

set_option relaxedAutoImplicit false
set_option autoImplicit false

namespace SwarmStore

open Js (Str Json OrderedMap)
open LastWriter Runs

/-! ### Merges -/

/-- A merge that brings writes to registers. -/
inductive MergeOp
  | register (key : Str) (incoming : LWWValue)
  | snapshot (snap : MeshStateSnapshot) (now : ℤ)

/-- A store after a merge, if the merge does not raise. -/
def mergeStep (s : SwarmStateStore) : MergeOp → Option SwarmStateStore
  | .register key incoming => some (s.mergeRegister key incoming)
  | .snapshot snap now =>
    if (s.mergeSnapshot snap now).2.isOk then some (s.mergeSnapshot snap now).1 else none

/-- What a merge brings to a register, and whether it replaces on a tie. -/
def MergeOp.brings (key : Str) : MergeOp → Option (Bool × LWWValue)
  | .register key' incoming => if key' = key then some (false, incoming) else none
  | .snapshot snap _ => (snap.registers.get? key).bind fun d =>
    (LWWValue.ofData d).toOption.map fun v => (true, v)

/-- What some merges bring to a register. -/
def brought (key : Str) (ops : List MergeOp) : List (Bool × LWWValue) :=
  ops.filterMap (MergeOp.brings key)

/-- A merge of a register on its own does not replace on a tie. -/
theorem get?_mergeRegister (s : SwarmStateStore) (key : Str) (incoming : LWWValue) (key' : Str) :
    (s.mergeRegister key incoming).registers.get? key' =
      if key' = key then offer LWWValue.stamp false (s.registers.get? key) incoming
      else s.registers.get? key' := by
  rw [SwarmStateStore.mergeRegister]
  cases hcur : s.registers.get? key with
  | none => exact OrderedMap.get?_set _ _ _ _
  | some cur =>
      simp only [Option.any_some, decide_eq_true_eq]
      by_cases hold : cur.version > incoming.version
      · rw [if_pos hold, offer_of_le (stamp_le.2 (Or.inl hold))]
        exact get?_of_kept hcur key'
      · rw [if_neg hold]
        by_cases htie : cur.version = incoming.version ∧ cur.updatedAtMs ≥ incoming.updatedAtMs
        · rw [if_pos htie, offer_of_le (stamp_le.2 (Or.inr ⟨htie.1.symm, htie.2⟩))]
          exact get?_of_kept hcur key'
        · have hlt : cur.stamp < incoming.stamp := by
            rw [stamp_lt]
            omega
          rw [if_neg htie, offer_of_lt hlt]
          exact OrderedMap.get?_set _ _ _ _

/-- A merge offers what it brings. -/
theorem get?_mergeStep {s s' : SwarmStateStore} {op : MergeOp} (h : mergeStep s op = some s')
    (key : Str) : s'.registers.get? key =
      (op.brings key).elim (s.registers.get? key) fun b =>
        offer LWWValue.stamp b.1 (s.registers.get? key) b.2 := by
  cases op with
  | register key' incoming =>
      obtain rfl := Option.some.inj h
      rw [get?_mergeRegister, MergeOp.brings]
      by_cases hk : key' = key
      · subst hk
        rw [if_pos rfl, if_pos rfl]
        rfl
      · rw [if_neg (Ne.symm hk), if_neg hk]
        rfl
  | snapshot snap now =>
      obtain ⟨hok, heq⟩ := Option.ite_none_right_eq_some.1 h
      obtain rfl := Option.some.inj heq
      have hread : snap.Readable := by
        by_contra hnot
        obtain ⟨e, he⟩ := mergeSnapshot_of_not_readable (s := s) hnot now
        rw [he] at hok
        cases hok
      rw [get?_registers_mergeSnapshot hread, MergeOp.brings]
      cases snap.registers.get? key with
      | none => rfl
      | some d =>
          rw [Option.bind_some, Option.bind_some]
          cases LWWValue.ofData d <;> rfl

/-- **A register is the register of the writes that were brought.** -/
theorem get?_registers_run {s s' : SwarmStateStore} {ops : List MergeOp}
    (h : run mergeStep s ops = some s') (key : Str) :
    s'.registers.get? key =
      register LWWValue.stamp Prod.fst Prod.snd (s.registers.get? key) (brought key ops) := by
  induction ops generalizing s with
  | nil =>
      obtain rfl := Option.some.inj h
      rfl
  | cons op ops ih =>
      obtain ⟨s₁, h₁, h⟩ := run_cons.1 h
      rw [ih h, get?_mergeStep h₁, brought, brought, List.filterMap_cons]
      cases op.brings key <;> rfl

/-! ### Convergence -/

theorem LWWValue.stamp_eq {v w : LWWValue} (h : v.reread = w.reread) : v.stamp = w.stamp :=
  (congrArg LWWValue.stamp h : v.reread.stamp = w.reread.stamp)

/-- **A snapshot of a store brings what the store holds**, with sorted keys. -/
theorem brings_snapshot (s : SwarmStateStore) (sent now : ℤ) (key : Str) :
    MergeOp.brings key (.snapshot (s.snapshot sent).reread now) =
      (s.registers.get? key).map fun v => (true, v.reread) := by
  rw [MergeOp.brings, get?_registers_snapshot]
  cases s.registers.get? key <;> rfl

/-- What a store has received for a register: what it holds in the beginning, and what the merges
bring. -/
def received (key : Str) (s : SwarmStateStore) (ops : List MergeOp) : Set LWWValue :=
  {x | x ∈ s.registers.get? key ∨ x ∈ (brought key ops).map Prod.snd}

/-- A store has merged some writes: in the beginning it holds none or one of them, and the merges
bring the others, in any order, by any way and any number of times. -/
structure Merged (key : Str) (writes : List LWWValue) (s s' : SwarmStateStore)
    (ops : List MergeOp) : Prop where
  runs : run mergeStep s ops = some s'
  mem_iff : ∀ y, (∃ v ∈ writes, v.reread = y) ↔ ∃ x ∈ received key s ops, x.reread = y

/-- **A store that has merged some writes holds one of those with the greatest version and
time.** -/
theorem Merged.latest {key : Str} {writes : List LWWValue} {s s' : SwarmStateStore}
    {ops : List MergeOp} (h : Merged key writes s s' ops) {x : LWWValue}
    (hx : s'.registers.get? key = some x) :
    ∃ v, Latest LWWValue.stamp {w | w ∈ writes} v ∧ v.reread = x.reread := by
  have hlatest : Latest LWWValue.stamp (received key s ops) x :=
    latest_register ((get?_registers_run h.runs key).symm.trans hx)
  obtain ⟨v, hv, heq⟩ := (h.mem_iff x.reread).2 ⟨x, hlatest.1, rfl⟩
  refine ⟨v, ⟨hv, fun w hw => ?_⟩, heq⟩
  obtain ⟨y, hy, hyw⟩ := (h.mem_iff w.reread).1 ⟨w, hw, rfl⟩
  calc w.stamp = y.stamp := LWWValue.stamp_eq hyw.symm
    _ ≤ x.stamp := hlatest.2 y hy
    _ = v.stamp := LWWValue.stamp_eq heq.symm

theorem Merged.isSome {key : Str} {writes : List LWWValue} {s s' : SwarmStateStore}
    {ops : List MergeOp} (h : Merged key writes s s' ops) (hne : writes ≠ []) :
    (s'.registers.get? key).isSome := by
  obtain ⟨v, hv⟩ := List.exists_mem_of_ne_nil writes hne
  obtain ⟨x, hx, -⟩ := (h.mem_iff v.reread).1 ⟨v, hv, rfl⟩
  rw [get?_registers_run h.runs key]
  refine isSome_register ?_
  obtain hx | hx := hx
  · exact Or.inl (Option.isSome_iff_exists.2 ⟨x, hx⟩)
  · exact Or.inr fun hnil => by simp [hnil] at hx

theorem Merged.eq_none {key : Str} {s s' : SwarmStateStore} {ops : List MergeOp}
    (h : Merged key [] s s' ops) : s'.registers.get? key = none := by
  by_contra hne
  obtain ⟨x, hx⟩ := Option.isSome_iff_exists.1 (Option.isSome_iff_ne_none.2 hne)
  obtain ⟨v, hv, -⟩ := h.latest hx
  cases hv.1

/-- A new store that merges some writes one by one, one of the latest first, keeps that one. -/
theorem merged_of_first {key : Str} {writes : List LWWValue} {v : LWWValue}
    (hv : Latest LWWValue.stamp {w | w ∈ writes} v) :
    ∃ t, Merged key writes (.new [] []) t ((v :: writes).map (MergeOp.register key)) ∧
      t.registers.get? key = some v := by
  have hbrought : ∀ l : List LWWValue,
      brought key (l.map (MergeOp.register key)) = l.map fun w => (false, w) := by
    intro l
    rw [brought, List.filterMap_map, ← List.filterMap_eq_map]
    refine List.filterMap_congr fun w _ => ?_
    rw [Function.comp_apply, MergeOp.brings, if_pos rfl]
    rfl
  have hruns : ∀ (l : List LWWValue) (s : SwarmStateStore),
      ∃ t, run mergeStep s (l.map (MergeOp.register key)) = some t := by
    intro l
    induction l with
    | nil => exact fun s => ⟨s, rfl⟩
    | cons w l ih =>
        intro s
        obtain ⟨t, ht⟩ := ih (s.mergeRegister key w)
        exact ⟨t, run_cons.2 ⟨_, rfl, ht⟩⟩
  obtain ⟨t, ht⟩ := hruns (v :: writes) (.new [] [])
  refine ⟨t, ⟨ht, fun y => ?_⟩, ?_⟩
  · have hmem : ∀ x, x ∈ received key (.new [] []) ((v :: writes).map (MergeOp.register key)) ↔
        x ∈ writes := by
      intro x
      change (_ ∨ _) ↔ _
      rw [hbrought, List.map_map]
      simp only [Function.comp_def, List.map_id', List.mem_cons]
      constructor
      · rintro (hx | rfl | hx)
        · cases hx
        · exact hv.1
        · exact hx
      · exact fun hx => Or.inr (Or.inr hx)
    simp only [hmem]
  · rw [get?_registers_run ht key, hbrought, List.map_cons, register_cons]
    refine register_eq_of_le (fun b hb => ?_) fun b hb => ?_
    · obtain ⟨w, -, rfl⟩ := List.mem_map.1 hb
      rfl
    · obtain ⟨w, hw, rfl⟩ := List.mem_map.1 hb
      exact hv.2 w hw

/-- **Stores that merged the same writes agree exactly if the writes of greatest version and time
are all the same.** -/
theorem registers_converge_iff (key : Str) (writes : List LWWValue) :
    (∀ s₁ s₂ t₁ t₂ ops₁ ops₂, Merged key writes s₁ t₁ ops₁ → Merged key writes s₂ t₂ ops₂ →
      (t₁.registers.get? key).map LWWValue.reread = (t₂.registers.get? key).map LWWValue.reread) ↔
    ∀ v w, Latest LWWValue.stamp {x | x ∈ writes} v → Latest LWWValue.stamp {x | x ∈ writes} w →
      v.reread = w.reread := by
  constructor
  · intro h v w hv hw
    obtain ⟨t₁, h₁, hv₁⟩ := @merged_of_first key _ _ hv
    obtain ⟨t₂, h₂, hw₂⟩ := @merged_of_first key _ _ hw
    have hsame := h _ _ _ _ _ _ h₁ h₂
    rw [hv₁, hw₂] at hsame
    exact Option.some.inj hsame
  · intro h s₁ s₂ t₁ t₂ ops₁ ops₂ h₁ h₂
    cases writes with
    | nil => rw [h₁.eq_none, h₂.eq_none]
    | cons w₀ writes =>
        obtain ⟨x₁, hx₁⟩ := Option.isSome_iff_exists.1 (h₁.isSome (List.cons_ne_nil _ _))
        obtain ⟨x₂, hx₂⟩ := Option.isSome_iff_exists.1 (h₂.isSome (List.cons_ne_nil _ _))
        obtain ⟨v₁, hv₁, heq₁⟩ := h₁.latest hx₁
        obtain ⟨v₂, hv₂, heq₂⟩ := h₂.latest hx₂
        rw [hx₁, hx₂, Option.map_some, Option.map_some, ← heq₁, ← heq₂, h v₁ v₂ hv₁ hv₂]

/-- Two nodes write a register at the same version and time; a store that merges the first write and
then the second one keeps another value than a store that merges them the other way round. -/
theorem tied_writes_diverge :
    let key : Str := ("r" : String)
    let a : LWWValue := ⟨.bool true, 1, 1000, ("a" : String)⟩
    let b : LWWValue := ⟨.bool false, 1, 1000, ("b" : String)⟩
    ¬ ∀ s₁ s₂ t₁ t₂ ops₁ ops₂, Merged key [a, b] s₁ t₁ ops₁ → Merged key [a, b] s₂ t₂ ops₂ →
      (t₁.registers.get? key).map LWWValue.reread =
        (t₂.registers.get? key).map LWWValue.reread := by
  intro key a b h
  have hlatest : ∀ v, v = a ∨ v = b → Latest LWWValue.stamp {x | x ∈ [a, b]} v := by
    rintro v (rfl | rfl)
    · exact ⟨by simp, by simp [a, b, LWWValue.stamp]⟩
    · exact ⟨by simp, by simp [a, b, LWWValue.stamp]⟩
  obtain ⟨t₁, h₁, ha⟩ := @merged_of_first key _ _ (hlatest a (Or.inl rfl))
  obtain ⟨t₂, h₂, hb⟩ := @merged_of_first key _ _ (hlatest b (Or.inr rfl))
  have hsame := h _ _ _ _ _ _ h₁ h₂
  rw [ha, hb] at hsame
  have hvalue := congrArg LWWValue.value (Option.some.inj hsame)
  simp [a, b, LWWValue.reread, Py.reread, Json.sortKeys] at hvalue

end SwarmStore
