/-
**Which checkpoint counts as the newest.**

Checkpoints are compared by the millisecond they were created in, and of two with the same time the
one saved first is kept.  A checkpoint that is saved while the clock still shows the time of the one
before it is therefore passed over: the next one is chained to the older one, and a restore starts
from that.  The empty mission id stands for all missions, so a checkpoint of any of them counts for
it.

Main definitions:

* `Recovery.Recorded`, `Recovery.recordStep` — the planner with the checkpoints it has saved, in
  their order;
* `Recovery.UsesNewest` — the latest checkpoint of each mission is the one saved last, each is
  chained to the one saved before it, and a restore starts from the last;
* `Recovery.Advancing` — the condition on a step: the clock has moved on since the checkpoints of
  the mission were created.

Main results:

* `Recovery.usesNewest_iff_advancing` — **the newest checkpoint is used all along a run if and only
  if the clock moves on before each checkpoint**;
* `Recovery.passes_over_same_millisecond` — two checkpoints of one millisecond: the second is
  passed over.
-/
import Endendend.Recovery.MissingTail

set_option relaxedAutoImplicit false
set_option autoImplicit false

namespace Recovery

open Js InMemoryCheckpointStore

/-! ### The latest of a list -/

/-- No checkpoint of the list is later than the chosen one. -/
theorem le_of_latestOf {l : List RecoveryCheckpoint} {a : RecoveryCheckpoint}
    (h : latestOf l = some a) : ∀ c ∈ l, c.createdAtMs ≤ a.createdAtMs := by
  induction l generalizing a with
  | nil => exact fun c hc => absurd hc List.not_mem_nil
  | cons b l ih =>
      rw [latestOf, Option.some_inj] at h
      intro c hc
      cases hl : latestOf l with
      | none =>
          rw [hl, laterOr] at h
          cases l with
          | nil => exact h ▸ (List.mem_singleton.1 hc ▸ le_refl _)
          | cons d l => exact absurd hl (by simp [latestOf])
      | some d =>
          rw [hl, laterOr, later] at h
          rcases List.mem_cons.1 hc with rfl | hc
          · split at h <;> subst h
            · exact le_refl _
            · order
          · have hd := ih hl c hc
            split at h <;> subst h
            · order
            · exact hd

theorem latestOf_eq_none {l : List RecoveryCheckpoint} : latestOf l = none ↔ l = [] := by
  cases l <;> simp [latestOf]

/-- **A checkpoint behind the others is chosen exactly if it is later than all of them.** -/
theorem latestOf_concat_self {l : List RecoveryCheckpoint} {c : RecoveryCheckpoint} (hc : c ∉ l) :
    latestOf (l ++ [c]) = some c ↔ ∀ x ∈ l, x.createdAtMs < c.createdAtMs := by
  rw [latestOf_concat, Option.some_inj]
  cases hl : latestOf l with
  | none => simp [latestOf_eq_none.1 hl]
  | some a =>
      have hmem := mem_of_latestOf hl
      have hle := le_of_latestOf hl
      simp only [later]
      split
      · next hge =>
          refine iff_of_false (fun h => hc (h ▸ hmem)) fun h => ?_
          exact absurd (h a hmem) (not_lt.2 hge)
      · next hge => exact iff_of_true rfl fun x hx => lt_of_le_of_lt (hle x hx) (not_le.1 hge)

/-- **It leaves the choice as it is exactly if one of them is as late.** -/
theorem latestOf_concat_left {l : List RecoveryCheckpoint} {a c : RecoveryCheckpoint} (hc : c ∉ l)
    (hl : latestOf l = some a) :
    latestOf (l ++ [c]) = some a ↔ ∃ x ∈ l, c.createdAtMs ≤ x.createdAtMs := by
  have hmem := mem_of_latestOf hl
  have hle := le_of_latestOf hl
  rw [latestOf_concat, hl, Option.some_inj]
  simp only [later]
  split
  · next hge => exact iff_of_true rfl ⟨a, hmem, hge⟩
  · next hge =>
      refine iff_of_false (fun h => hc (h ▸ hmem)) ?_
      rintro ⟨x, hx, hxc⟩
      exact hge (le_trans hxc (hle x hx))

/-! ### The record of what was saved -/

/-- The planner, with the checkpoints in the order they were saved. -/
structure Recorded (Snap : Type*) where
  planner : MissionRecoveryPlanner Snap
  history : List RecoveryCheckpoint

def Recorded.new {Snap : Type*} : Recorded Snap := ⟨.new, []⟩

/-- The checkpoint of a mission that was saved last. -/
def lastSaved (m : Str) (history : List RecoveryCheckpoint) : Option RecoveryCheckpoint :=
  (history.filter fun c => c.missionId = m).getLast?

/-- The checkpoints that `list` takes for those of a mission. -/
def listedFor (m : Str) (history : List RecoveryCheckpoint) : List RecoveryCheckpoint :=
  if m = [] then history else history.filter fun c => c.missionId = m

theorem lastSaved_concat (m : Str) (history : List RecoveryCheckpoint) (c : RecoveryCheckpoint) :
    lastSaved m (history ++ [c]) = if c.missionId = m then some c else lastSaved m history := by
  rw [lastSaved, List.filter_append, lastSaved]
  split
  · next h => simp [h]
  · next h => simp [h]

theorem mem_listedFor {m : Str} {history : List RecoveryCheckpoint} {c : RecoveryCheckpoint} :
    c ∈ listedFor m history ↔ c ∈ history ∧ (m = [] ∨ c.missionId = m) := by
  unfold listedFor
  split <;> simp_all

theorem listedFor_concat (m : Str) (history : List RecoveryCheckpoint) (c : RecoveryCheckpoint) :
    listedFor m (history ++ [c]) =
      if m = [] ∨ c.missionId = m then listedFor m history ++ [c] else listedFor m history := by
  unfold listedFor
  split <;> simp_all [List.filter_append, List.filter_singleton]
  split <;> simp_all

section Steps

variable {X M Snap : Type*} (ports : RecoveryPorts X M Snap) (sha256 : Str → List UInt8)
  (payloadJson : LedgerPayload Snap → Json)

/-- The checkpoint that a command saves. -/
def checkpointOf (p : MissionRecoveryPlanner Snap) : Command X M Snap → Option RecoveryCheckpoint
  | .append _ _ => none
  | .createCheckpoint ctx reason createdBy seq id now =>
    some (sealCheckpoint sha256 (checkpointArgs ports p ctx reason createdBy seq) id now)

/-- One operation, put on record. -/
def recordStep (r : Recorded Snap) (command : Command X M Snap) : Option (Recorded Snap) :=
  (step ports sha256 payloadJson r.planner command).map fun p =>
    ⟨p, r.history ++ (checkpointOf ports sha256 r.planner command).toList⟩

/-- The store holds what is on record. -/
def OnRecord (r : Recorded Snap) : Prop :=
  ∀ m, r.planner.store.saved m = listedFor m r.history

/-- **The newest checkpoint is used.** -/
structure UsesNewest (r : Recorded Snap) : Prop where
  /-- The latest checkpoint of a mission is the one saved last. -/
  latest : ∀ m c, lastSaved m r.history = some c → r.planner.store.latest m = some c
  /-- A checkpoint is chained to the one of its mission saved before it. -/
  chained : ∀ before c after prev, r.history = before ++ c :: after →
    lastSaved c.missionId before = some prev → c.previousCheckpointHash = prev.proofHash
  /-- A restore starts from the one saved last. -/
  restored : ∀ (ctx : RecoveryReplayContext X M) clock c,
    lastSaved ctx.missionId r.history = some c →
      (r.planner.restore ports clock ctx).2.checkpoint = some c

/-- The time has passed that the checkpoints of the mission were created at; and the empty mission
id, which stands for all missions, keeps its latest checkpoint only while the time has not. -/
structure Advances (r : Recorded Snap) (m : Str) (now : Decimal) : Prop where
  own : ∀ c ∈ r.history, m = [] ∨ c.missionId = m → c.createdAtMs < now
  unnamed : m ≠ [] → lastSaved [] r.history ≠ none → ∃ c ∈ r.history, now ≤ c.createdAtMs

/-- The clock has moved on when the command reads it. -/
def Advancing (r : Recorded Snap) : Command X M Snap → Prop
  | .append _ _ => True
  | .createCheckpoint ctx _ _ _ _ now => Advances r ctx.missionId now

end Steps

variable {X M Snap : Type*} {ports : RecoveryPorts X M Snap} {sha256 : Str → List UInt8}
  {payloadJson : LedgerPayload Snap → Json}

/-! ### What is on record -/

/-- A checkpoint that is saved under a new id comes last for its own mission and for the empty
mission id, and changes no other list. -/
theorem saved_save_eq {store : InMemoryCheckpointStore} {c : RecoveryCheckpoint}
    (hfresh : store.checkpoints.get? c.checkpointId = none) (m : Str) :
    (store.save c).saved m =
      if m = [] ∨ c.missionId = m then store.saved m ++ [c] else store.saved m := by
  by_cases hm : m = []
  · rw [if_pos (Or.inl hm), saved, if_pos hm, saved, if_pos hm]
    exact KeyedMap.values_put_of_fresh hfresh
  by_cases hc : c.missionId = m
  · rw [if_pos (Or.inr hc), ← hc]
    exact saved_save hfresh
  · rw [if_neg (not_or_intro hm hc), saved, if_neg hm, saved, if_neg hm]
    have hids : ((store.save c).byMission.get? m).getD [] = (store.byMission.get? m).getD [] := by
      rw [save, OrderedMap.get?_set, if_neg (fun h => hc h.symm)]
    rw [hids]
    refine List.filterMap_congr fun id hid => ?_
    rw [save, KeyedMap.get?_put, if_neg]
    rintro rfl
    exact store.listed _ _ hid hfresh

/-- What a step does: an event leaves the checkpoints alone, and a checkpoint gets a new id and is
chained to the latest one of its mission. -/
theorem recordStep_cases {r r' : Recorded Snap} {command : Command X M Snap}
    (h : recordStep ports sha256 payloadJson r command = some r') :
    (r'.planner.store = r.planner.store ∧ r'.history = r.history ∧ Advancing r command) ∨
      ∃ c, r.planner.store.checkpoints.get? c.checkpointId = none ∧
        r'.planner.store = r.planner.store.save c ∧ r'.history = r.history ++ [c] ∧
          (Advancing r command ↔ Advances r c.missionId c.createdAtMs) ∧
            c.previousCheckpointHash =
              ((r.planner.store.latest c.missionId).map (·.proofHash)).getD genesis := by
  obtain ⟨p, hp, rfl⟩ := Option.map_eq_some_iff.1 h
  cases command with
  | append entry d =>
      obtain rfl := Option.some.inj hp
      exact Or.inl ⟨rfl, List.append_nil _, trivial⟩
  | createCheckpoint ctx reason createdBy seq id now =>
      rw [step] at hp
      split at hp
      · exact absurd hp (by simp)
      · next hfresh =>
          obtain rfl := Option.some.inj hp
          exact Or.inr ⟨_, hfresh, rfl, rfl, Iff.rfl, rfl⟩

theorem onRecord_new : OnRecord (Recorded.new : Recorded Snap) := by
  intro m
  rw [Recorded.new, saved, listedFor]
  split <;> rfl

theorem onRecord_step {r r' : Recorded Snap} {command : Command X M Snap} (hr : OnRecord r)
    (h : recordStep ports sha256 payloadJson r command = some r') : OnRecord r' := by
  intro m
  rcases recordStep_cases h with ⟨hstore, hhist, -⟩ | ⟨c, hfresh, hstore, hhist, -⟩
  · rw [hstore, hhist, hr m]
  · rw [hstore, hhist, saved_save_eq hfresh, listedFor_concat, hr m]

/-- A checkpoint with a new id is not on record. -/
theorem not_mem_history {r : Recorded Snap} (hr : OnRecord r) {c : RecoveryCheckpoint}
    (hfresh : r.planner.store.checkpoints.get? c.checkpointId = none) : c ∉ r.history := by
  intro hc
  have hvalues : c ∈ r.planner.store.checkpoints.values := by
    have h := hr []
    rw [saved, if_pos rfl, listedFor, if_pos rfl] at h
    exact h ▸ hc
  have hget := KeyedMap.mem_values_iff.1 hvalues
  exact absurd (hfresh.symm.trans hget) (by simp)

theorem latest_eq_latestOf {r : Recorded Snap} (hr : OnRecord r) (m : Str) :
    r.planner.store.latest m = latestOf (listedFor m r.history) := by rw [latest_eq, hr m]

/-! ### When the newest checkpoint is used -/

theorem usesNewest_new : UsesNewest ports (Recorded.new : Recorded Snap) where
  latest _ _ h := by simp [Recorded.new, lastSaved] at h
  chained _ _ _ _ h := by simp [Recorded.new] at h
  restored _ _ _ h := by simp [Recorded.new, lastSaved] at h

/-- A restore starts from what the store takes for the latest checkpoint. -/
theorem checkpoint_restore (p : MissionRecoveryPlanner Snap)
    (clock : LedgerEvent (LedgerPayload Snap) → Decimal) (ctx : RecoveryReplayContext X M) :
    (p.restore ports clock ctx).2.checkpoint = p.store.latest ctx.missionId := rfl

/-- The latest checkpoints after a new one, by the mission it is of. -/
theorem latest_of_advances {r : Recorded Snap} (hr : OnRecord r) (hu : UsesNewest ports r)
    {c : RecoveryCheckpoint} (hc : c ∉ r.history) :
    Advances r c.missionId c.createdAtMs ↔
      ∀ m d, lastSaved m (r.history ++ [c]) = some d →
        latestOf (listedFor m (r.history ++ [c])) = some d := by
  have hlisted : ∀ m, c ∉ listedFor m r.history := fun m h => hc (mem_listedFor.1 h).1
  constructor
  · intro h m d hd
    rw [lastSaved_concat] at hd
    rw [listedFor_concat]
    split at hd
    · next hm =>
        obtain rfl := Option.some.inj hd
        subst hm
        rw [if_pos (Or.inr rfl), latestOf_concat_self (hlisted _)]
        intro x hx
        obtain ⟨hx, hxm⟩ := mem_listedFor.1 hx
        exact h.own x hx hxm
    · next hm =>
        have hold := hu.latest m d hd
        rw [latest_eq_latestOf hr] at hold
        split
        · next hmc =>
            -- the empty mission id takes note of the new checkpoint, and keeps its own
            obtain rfl := hmc.resolve_right hm
            rw [latestOf_concat_left (hlisted _) hold]
            obtain ⟨x, hx, hle⟩ := h.unnamed hm (by simp [hd])
            exact ⟨x, mem_listedFor.2 ⟨hx, Or.inl rfl⟩, hle⟩
        · exact hold
  · intro h
    refine ⟨fun x hx hxm => ?_, fun hm hd => ?_⟩
    · have hlast := h c.missionId c (by rw [lastSaved_concat, if_pos rfl])
      rw [listedFor_concat, if_pos (Or.inr rfl), latestOf_concat_self (hlisted _)] at hlast
      exact hlast x (mem_listedFor.2 ⟨hx, hxm⟩)
    · obtain ⟨d, hd⟩ := Option.ne_none_iff_exists'.1 hd
      have hold := hu.latest [] d hd
      rw [latest_eq_latestOf hr] at hold
      have hnew := h [] d (by rw [lastSaved_concat, if_neg hm, hd])
      rw [listedFor_concat, if_pos (Or.inl rfl), latestOf_concat_left (hlisted _) hold] at hnew
      obtain ⟨x, hx, hle⟩ := hnew
      exact ⟨x, (mem_listedFor.1 hx).1, hle⟩

theorem usesNewest_step {r r' : Recorded Snap} {command : Command X M Snap} (hr : OnRecord r)
    (hu : UsesNewest ports r) (hadv : Advancing r command)
    (h : recordStep ports sha256 payloadJson r command = some r') : UsesNewest ports r' := by
  have hr' := onRecord_step hr h
  rcases recordStep_cases h with
    ⟨hstore, hhist, -⟩ | ⟨c, hfresh, -, hhist, hiff, hchain⟩
  · refine ⟨fun m c hc => ?_, fun before c after prev hsplit => ?_, fun ctx clock c hc => ?_⟩
    · rw [hstore]
      exact hu.latest m c (hhist ▸ hc)
    · exact hu.chained before c after prev (hhist ▸ hsplit)
    · rw [checkpoint_restore, hstore]
      exact hu.latest _ c (hhist ▸ hc)
  · have hnew := (latest_of_advances hr hu (not_mem_history hr hfresh)).1 (hiff.1 hadv)
    have hlatest : ∀ m d, lastSaved m r'.history = some d →
        r'.planner.store.latest m = some d := by
      intro m d hd
      rw [latest_eq_latestOf hr', hhist]
      exact hnew m d (hhist ▸ hd)
    refine ⟨hlatest, fun before d after prev hsplit hprev => ?_, fun ctx clock d hd => ?_⟩
    · rw [hhist] at hsplit
      cases after using List.reverseRecOn with
      | nil =>
          obtain ⟨rfl, hd⟩ := List.append_inj' hsplit rfl
          obtain rfl := (List.cons.inj hd).1
          rw [hchain, hu.latest _ prev hprev]
          rfl
      | append_singleton after e =>
          rw [← List.cons_append, ← List.append_assoc] at hsplit
          exact hu.chained before d after prev (List.append_inj' hsplit rfl).1 hprev
    · rw [checkpoint_restore]
      exact hlatest _ d hd

theorem not_usesNewest_step {r r' : Recorded Snap} {command : Command X M Snap} (hr : OnRecord r)
    (hu : UsesNewest ports r) (hadv : ¬ Advancing r command)
    (h : recordStep ports sha256 payloadJson r command = some r') : ¬ UsesNewest ports r' := by
  intro hu'
  have hr' := onRecord_step hr h
  rcases recordStep_cases h with ⟨-, -, hadv'⟩ | ⟨c, hfresh, -, hhist, hiff, -⟩
  · exact hadv hadv'
  · rw [hiff, latest_of_advances hr hu (not_mem_history hr hfresh)] at hadv
    refine hadv fun m d hd => ?_
    rw [← hhist] at hd ⊢
    rw [← latest_eq_latestOf hr']
    exact hu'.latest m d hd

/-- **The newest checkpoint is used all along a run if and only if the clock moves on before each
checkpoint.**  The run makes any events and checkpoints of any missions. -/
theorem usesNewest_iff_advancing {commands : List (Command X M Snap)} {r : Recorded Snap}
    (hrun : Runs.run (recordStep ports sha256 payloadJson) .new commands = some r) :
    (∀ pre q, pre <+: commands →
        Runs.run (recordStep ports sha256 payloadJson) .new pre = some q → UsesNewest ports q) ↔
      Runs.Along (recordStep ports sha256 payloadJson) Advancing .new commands :=
  Runs.always_iff_along_of_run (I := fun r => OnRecord r ∧ UsesNewest ports r)
    (fun _ h => h.2)
    (fun _ _ _ hi hadv h => ⟨onRecord_step hi.1 h, usesNewest_step hi.1 hi.2 hadv h⟩)
    (fun _ _ _ hi hadv h => not_usesNewest_step hi.1 hi.2 hadv h)
    ⟨onRecord_new, usesNewest_new⟩ hrun

/-! ### Two checkpoints of one mission -/

/-- A checkpoint of a mission without nodes and targets. -/
def checkpointAt (m id : Str) (now : Decimal) : Command Unit Unit Unit :=
  .createCheckpoint (bareContext m) "r" "n1" 0 id now

/-- Two checkpoints that are created in different milliseconds. -/
theorem usesNewest_iff_advancing_two_milliseconds :
    let commands := [checkpointAt "m1" "a" 1, checkpointAt "m1" "b" 2]
    (Runs.run (recordStep barePorts wideDigest fun _ => .null) .new commands).isSome ∧
      ∀ pre q, pre <+: commands →
        Runs.run (recordStep barePorts wideDigest fun _ => .null) .new pre = some q →
          UsesNewest barePorts q := by
  have hfirst : Advances (Recorded.new : Recorded Unit) "m1" 1 :=
    ⟨fun _ hc => absurd hc List.not_mem_nil, fun _ h => absurd rfl h⟩
  refine ⟨rfl, (usesNewest_iff_advancing rfl).2 ⟨hfirst, fun r hr => ⟨?_, fun _ _ => trivial⟩⟩⟩
  obtain rfl := Option.some.inj hr
  refine ⟨fun c hc _ => ?_, fun _ h => absurd rfl h⟩
  obtain rfl := List.mem_singleton.1 hc
  decide

/-- When the commands read the clock. -/
def Command.readAt {X M Snap : Type*} : Command X M Snap → Option Decimal
  | .append _ _ => none
  | .createCheckpoint _ _ _ _ _ now => some now

/-- The clock does not go back. -/
def ClockKept {X M Snap : Type*} (commands : List (Command X M Snap)) : Prop :=
  (commands.filterMap Command.readAt).Pairwise (· ≤ ·)

/-- **A checkpoint of the same millisecond is passed over**: of two, the second was saved last, and
the first counts as the latest, also for a restore. -/
theorem passes_over_same_millisecond :
    let commands := [checkpointAt "m1" "a" 5, checkpointAt "m1" "b" 5]
    ClockKept commands ∧
      ∃ r, Runs.run (recordStep barePorts wideDigest fun _ => .null) .new commands = some r ∧
        (lastSaved "m1" r.history).map (·.checkpointId) = some (lit "b") ∧
          (r.planner.store.latest "m1").map (·.checkpointId) = some (lit "a") ∧
            ¬ UsesNewest barePorts r := by
  refine ⟨by simp [ClockKept, checkpointAt, Command.readAt], _, rfl, rfl, rfl, fun h => ?_⟩
  have hlatest := h.latest "m1" _ rfl
  exact absurd (congrArg (Option.map (·.checkpointId)) hlatest) (by decide)

end Recovery
