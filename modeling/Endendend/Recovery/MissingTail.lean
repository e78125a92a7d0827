/-
**Which events a restore replays.**

A checkpoint seals the head of the whole ledger, and a restore looks that hash up in the slice of
its mission.  If the head belongs to another mission it is not found there, and the whole slice is
replayed; and if the clock has not advanced since an older checkpoint, the restore starts from that
one.  So the missing tail is replayed exactly when the mission has no event before the checkpoint,
or the checkpoint that the restore starts from has sealed the last of them.

Main definitions:

* `Recovery.WellSealed` — every checkpoint has sealed the start of the chain or one of its events;
* `Recovery.SealsMissionTail` — the condition, on the state before the checkpoint and its time.

Main results:

* `Recovery.wellSealed_of_run` — every run keeps the ledger verifiable and the checkpoints sealed;
* `Recovery.replays_missing_tail_iff` — **the restore replays exactly the missing tail if and only
  if the condition holds**;
* `Recovery.replays_sealed_event` — a checkpoint taken after an event of another mission makes the
  restore replay what it has sealed.
-/
import Endendend.Recovery.RecoveryPlanner
import Endendend.Vertex.TamperEvidence

set_option relaxedAutoImplicit false
set_option autoImplicit false

namespace Recovery

open Js

variable {X M Snap : Type*} {ports : RecoveryPorts X M Snap} {sha256 : Str → List UInt8}
  {payloadJson : LedgerPayload Snap → Json}

/-- The events of a mission, in a part of the ledger. -/
def missionSlice (m : Str) (l : List (LedgerEvent (LedgerPayload Snap))) :
    List (LedgerEvent (LedgerPayload Snap)) :=
  l.filter fun e => e.missionId = m

/-- The hash is the start of the chain or that of one of its events. -/
def Occurs (ledger : EventLedgerStore (LedgerPayload Snap)) (hash : Str) : Prop :=
  hash = genesis ∨ ∃ e ∈ ledger.entries, e.cumulativeHash = hash

/-- The ledger verifies, and every checkpoint has sealed a hash that occurs in it. -/
structure WellSealed (sha256 : Str → List UInt8) (payloadJson : LedgerPayload Snap → Json)
    (p : MissionRecoveryPlanner Snap) : Prop where
  verifies : p.ledger.verify sha256 payloadJson = .ok
  occurs : ∀ cp ∈ p.store.checkpoints.values, Occurs p.ledger cp.lastLedgerHash

/-- What the new checkpoint, or an older one that keeps its place as the latest because the clock
has not advanced, has sealed: the last event of the mission, if there is one. -/
def SealsMissionTail (p : MissionRecoveryPlanner Snap) (m : Str) (now : Decimal) : Prop :=
  ∀ e, (missionSlice m p.ledger.entries).getLast? = some e →
    match p.store.latest m with
    | some prev =>
      if prev.createdAtMs ≥ now then prev.lastLedgerHash = e.cumulativeHash
      else ∃ f, p.ledger.entries.getLast? = some f ∧ f.missionId = m
    | none => ∃ f, p.ledger.entries.getLast? = some f ∧ f.missionId = m

/-! ### Runs -/

theorem occurs_lastHash (ledger : EventLedgerStore (LedgerPayload Snap)) :
    Occurs ledger ledger.lastHash := by
  unfold EventLedgerStore.lastHash
  cases h : ledger.entries.getLast? with
  | none => exact Or.inl rfl
  | some e => exact Or.inr ⟨e, List.mem_of_getLast? h, rfl⟩

theorem Occurs.append {ledger : EventLedgerStore (LedgerPayload Snap)} {hash : Str}
    (h : Occurs ledger hash) (entry : LedgerEntry (LedgerPayload Snap)) (d : Draw) :
    Occurs (ledger.append sha256 payloadJson entry d) hash := by
  rcases h with h | ⟨e, he, h⟩
  · exact Or.inl h
  · exact Or.inr ⟨e, List.mem_append_left _ he, h⟩

theorem wellSealed_append {p : MissionRecoveryPlanner Snap}
    (h : WellSealed sha256 payloadJson p) (entry : LedgerEntry (LedgerPayload Snap)) (d : Draw) :
    WellSealed sha256 payloadJson (p.append sha256 payloadJson entry d) where
  verifies := verify_append h.verifies entry d
  occurs cp hcp := (h.occurs cp hcp).append entry d

theorem wellSealed_createCheckpoint {p : MissionRecoveryPlanner Snap}
    (h : WellSealed sha256 payloadJson p) (ctx : RecoveryReplayContext X M)
    (reason createdBy : Str) (seq : Decimal) {id : Str} (now : Decimal)
    (hfresh : p.store.checkpoints.get? id = none) :
    WellSealed sha256 payloadJson
      (p.createCheckpoint ports sha256 ctx reason createdBy seq id now) where
  verifies := h.verifies
  occurs cp hcp := by
    have hvalues := KeyedMap.values_put_of_fresh (m := p.store.checkpoints)
      (v := sealCheckpoint sha256 (checkpointArgs ports p ctx reason createdBy seq) id now) hfresh
    rcases List.mem_append.1 (hvalues ▸ hcp) with hcp | hcp
    · exact h.occurs cp hcp
    · rw [List.mem_singleton.1 hcp]
      exact occurs_lastHash p.ledger

/-- **Every run keeps the ledger verifiable and the checkpoints sealed.** -/
theorem wellSealed_of_run {commands : List (Command X M Snap)} {p : MissionRecoveryPlanner Snap}
    (h : Runs.run (step ports sha256 payloadJson) .new commands = some p) :
    WellSealed sha256 payloadJson p := by
  have hnew : WellSealed sha256 payloadJson MissionRecoveryPlanner.new :=
    ⟨rfl, fun _ hcp => absurd hcp List.not_mem_nil⟩
  refine Runs.invariant_of_run (fun p command p' hp hstep => ?_) hnew h
  cases command with
  | append entry d => exact Option.some_inj.1 hstep ▸ wellSealed_append hp entry d
  | createCheckpoint ctx reason createdBy seq id now =>
      rw [step] at hstep
      split at hstep
      · exact absurd hstep (by simp)
      · next hfresh =>
          exact Option.some_inj.1 hstep ▸
            wellSealed_createCheckpoint hp ctx reason createdBy seq now hfresh

/-! ### Appends after the checkpoint -/

theorem appendAll_spec {p : MissionRecoveryPlanner Snap} (h : WellSealed sha256 payloadJson p)
    (later : List (LedgerEntry (LedgerPayload Snap) × Draw)) :
    WellSealed sha256 payloadJson (p.appendAll sha256 payloadJson later) ∧
      (p.appendAll sha256 payloadJson later).store = p.store ∧
      ∃ tail, (p.appendAll sha256 payloadJson later).ledger.entries = p.ledger.entries ++ tail := by
  induction later generalizing p with
  | nil => exact ⟨h, rfl, [], (List.append_nil _).symm⟩
  | cons e later ih =>
      obtain ⟨hw, hstore, tail, htail⟩ := ih (wellSealed_append h e.1 e.2)
      refine ⟨hw, hstore, p.ledger.record sha256 payloadJson e.1 e.2 :: tail, htail.trans ?_⟩
      rw [MissionRecoveryPlanner.append, EventLedgerStore.entries_append, List.append_assoc]
      rfl

variable (ports sha256) in
/-- The hash that the restore starts from. -/
theorem sealedHash_createCheckpoint (p : MissionRecoveryPlanner Snap)
    (ctx : RecoveryReplayContext X M) (reason createdBy : Str) (seq : Decimal) {id : Str}
    (now : Decimal) (hfresh : p.store.checkpoints.get? id = none) :
    ((p.createCheckpoint ports sha256 ctx reason createdBy seq id now).store.latest
        ctx.missionId).map (·.lastLedgerHash) =
      some (match p.store.latest ctx.missionId with
        | some prev => if prev.createdAtMs ≥ now then prev.lastLedgerHash else p.ledger.lastHash
        | none => p.ledger.lastHash) := by
  have hlatest := @latest_save p.store
    (sealCheckpoint sha256 (checkpointArgs ports p ctx reason createdBy seq) id now) hfresh
  rw [show (sealCheckpoint sha256 (checkpointArgs ports p ctx reason createdBy seq) id
    now).missionId = ctx.missionId from rfl] at hlatest
  rw [show (p.createCheckpoint ports sha256 ctx reason createdBy seq id now).store.latest
    ctx.missionId = _ from hlatest, Option.map_some]
  cases p.store.latest ctx.missionId with
  | none => rfl
  | some prev =>
      simp only [InMemoryCheckpointStore.later, apply_ite RecoveryCheckpoint.toCheckpointBody,
        apply_ite CheckpointBody.lastLedgerHash]
      rfl

theorem occurs_of_latest {p : MissionRecoveryPlanner Snap} (h : WellSealed sha256 payloadJson p)
    {m : Str} {cp : RecoveryCheckpoint} (hcp : p.store.latest m = some cp) :
    Occurs p.ledger cp.lastLedgerHash := by
  rw [latest_eq] at hcp
  have hmem := mem_of_latestOf hcp
  refine h.occurs cp ?_
  unfold InMemoryCheckpointStore.saved at hmem
  split at hmem
  · exact hmem
  · obtain ⟨id, -, hid⟩ := List.mem_filterMap.1 hmem
    exact OrderedMap.mem_values_iff.2 ⟨id, hid⟩

/-! ### What is replayed -/

/-- After a hash that occurs before the point, the restore replays exactly the events after the
point if and only if the hash is that of the last event of the mission, or there is none. -/
theorem missionEventsAfter_eq_tail_iff (hinj : Function.Injective (hashText sha256))
    (hne : ∀ s, hashText sha256 s ≠ []) {ledger : EventLedgerStore (LedgerPayload Snap)}
    (hok : ledger.verify sha256 payloadJson = .ok)
    {before tail : List (LedgerEvent (LedgerPayload Snap))}
    (hentries : ledger.entries = before ++ tail) {m hash : Str}
    (hocc : hash = genesis ∨ ∃ e ∈ before, e.cumulativeHash = hash) :
    ledger.missionEventsAfter m (some hash) = missionSlice m tail ↔
      ∀ e, (missionSlice m before).getLast? = some e → hash = e.cumulativeHash := by
  have hnodup := cumulativeHash_nodup hinj hok
  have hhash : ∀ e ∈ ledger.entries, e.cumulativeHash ≠ [] ∧ e.cumulativeHash ≠ genesis :=
    fun e he => cumulativeHash_ne hne hok he
  have hslice : (ledger.entries.filter fun e => e.missionId = m) =
      missionSlice m before ++ missionSlice m tail := by
    rw [hentries, List.filter_append, missionSlice, missionSlice]
  -- an event of the mission with this hash stands before the point
  by_cases hfound : ∃ e ∈ missionSlice m before, e.cumulativeHash = hash
  · obtain ⟨e, he, rfl⟩ := hfound
    obtain ⟨l, r, hlr⟩ := List.append_of_mem he
    have hafter : ledger.missionEventsAfter m (some e.cumulativeHash) =
        r ++ missionSlice m tail := by
      refine missionEventsAfter_of_split (l := l) ?_ hnodup (hhash e ?_)
      · rw [hslice, hlr, List.append_assoc, List.cons_append]
      · rw [hentries]
        exact List.mem_append_left _ (List.mem_filter.1 he).1
    rw [hafter, hlr, List.append_left_eq_self]
    cases r using List.reverseRecOn with
    | nil => simp
    | append_singleton r f =>
        refine ⟨fun h => absurd h (by simp), fun h => ?_⟩
        -- the last event of the mission is another one, so it has another hash
        have hlast := h f (by simp [List.getLast?_cons])
        have hbefore : ((missionSlice m before).map fun e => e.cumulativeHash).Nodup :=
          hnodup.sublist (((List.filter_sublist).trans
            (hentries ▸ List.sublist_append_left before tail)).map _)
        rw [hlr, List.map_append, List.map_cons] at hbefore
        have hcons := (List.nodup_append.1 hbefore).2.1
        exact absurd (by simp [hlast]) (List.nodup_cons.1 hcons).1
  · have hafter : ledger.missionEventsAfter m (some hash) =
        missionSlice m before ++ missionSlice m tail := by
      rw [← hslice]
      refine missionEventsAfter_of_notMem fun e he hem heh => ?_
      rcases List.mem_append.1 (hentries ▸ he) with he | he
      · exact hfound ⟨e, List.mem_filter.2 ⟨he, decide_eq_true hem⟩, heh⟩
      · -- the hash belongs to an event before the point, and an event after it has another
        rcases hocc with rfl | ⟨f, hf, hfh⟩
        · exact (hhash e (hentries ▸ List.mem_append_right _ he)).2 heh
        · rw [hentries, List.map_append] at hnodup
          refine (List.nodup_append.1 hnodup).2.2 hash ?_ hash ?_ rfl
          · exact hfh ▸ List.mem_map_of_mem hf
          · exact heh ▸ List.mem_map_of_mem he
    rw [hafter, List.append_left_eq_self]
    constructor
    · intro h e he
      rw [h] at he
      exact absurd he (by simp)
    · intro h
      by_contra hbefore
      have hlast := List.getLast?_eq_some_getLast hbefore
      exact hfound ⟨_, List.getLast_mem hbefore, (h _ hlast).symm⟩

/-- The head of a ledger is the last event of the mission exactly if the mission wrote it. -/
theorem lastHash_eq_iff (hinj : Function.Injective (hashText sha256))
    {ledger : EventLedgerStore (LedgerPayload Snap)}
    (hok : ledger.verify sha256 payloadJson = .ok) {m : Str}
    {e : LedgerEvent (LedgerPayload Snap)}
    (he : (missionSlice m ledger.entries).getLast? = some e) :
    ledger.lastHash = e.cumulativeHash ↔
      ∃ f, ledger.entries.getLast? = some f ∧ f.missionId = m := by
  have hnodup := cumulativeHash_nodup hinj hok
  unfold EventLedgerStore.lastHash
  revert he hnodup
  generalize ledger.entries = l
  intro he hnodup
  induction l using List.reverseRecOn with
  | nil => exact absurd he (by simp [missionSlice])
  | append_singleton l f _ =>
      rw [List.getLast?_concat]
      simp only [Option.some.injEq, exists_eq_left']
      by_cases hf : f.missionId = m
      · simp only [missionSlice, List.filter_append, List.filter_singleton, hf, decide_true,
          cond_true, List.getLast?_concat, Option.some.injEq] at he
        subst he
        simp [hf]
      · simp only [missionSlice, List.filter_append, List.filter_singleton, hf, decide_false,
          cond_false, List.append_nil] at he
        refine ⟨fun h => ?_, fun h => absurd h hf⟩
        have hmem := (List.mem_filter.1 (List.mem_of_getLast? he)).1
        rw [List.map_append, List.nodup_append] at hnodup
        exact absurd h.symm (hnodup.2.2 _ (List.mem_map_of_mem hmem) _ (by simp))

/-- **A restore replays exactly the missing tail if and only if the last event of the mission before
the checkpoint is the one that is sealed.**  Before the checkpoint there is any run of appends and
checkpoints of any missions, after it any appends. -/
theorem replays_missing_tail_iff (hinj : Function.Injective (hashText sha256))
    (hne : ∀ s, hashText sha256 s ≠ []) {commands : List (Command X M Snap)}
    {p p' : MissionRecoveryPlanner Snap}
    (hrun : Runs.run (step ports sha256 payloadJson) .new commands = some p)
    {ctx : RecoveryReplayContext X M} {reason createdBy : Str} {seq : Decimal} {id : Str}
    {now : Decimal}
    (hcp : step ports sha256 payloadJson p
      (.createCheckpoint ctx reason createdBy seq id now) = some p')
    (later : List (LedgerEntry (LedgerPayload Snap) × Draw))
    (clock : LedgerEvent (LedgerPayload Snap) → Decimal)
    {ctx' : RecoveryReplayContext X M} (hctx : ctx'.missionId = ctx.missionId) :
    let q := p'.appendAll sha256 payloadJson later
    let missing := missionSlice ctx.missionId (q.ledger.entries.drop p.ledger.entries.length)
    (q.replayEvents ctx'.missionId = missing ∧
        (q.restore ports clock ctx').2.replayCount = missing.length) ↔
      SealsMissionTail p ctx.missionId now := by
  intro q missing
  have hw := wellSealed_of_run hrun
  obtain ⟨hfresh, rfl⟩ : p.store.checkpoints.get? id = none ∧
      p.createCheckpoint ports sha256 ctx reason createdBy seq id now = p' := by
    rw [step] at hcp
    split at hcp
    · exact absurd hcp (by simp)
    · next h => exact ⟨h, Option.some_inj.1 hcp⟩
  have hw' : WellSealed sha256 payloadJson
      (p.createCheckpoint ports sha256 ctx reason createdBy seq id now) :=
    wellSealed_createCheckpoint hw ctx reason createdBy seq now hfresh
  obtain ⟨hwq, hstore, tail, htail⟩ := appendAll_spec hw' later
  have hmissing : missing = missionSlice ctx.missionId tail := by
    change missionSlice _ (q.ledger.entries.drop _) = _
    rw [show q.ledger.entries = p.ledger.entries ++ tail from htail, List.drop_left]
  have hsealed := sealedHash_createCheckpoint ports sha256 p ctx reason createdBy seq now hfresh
  rw [← show q.store = _ from hstore] at hsealed
  rw [replayCount_restore, hctx, hmissing, and_iff_left_of_imp fun h => congrArg List.length h,
    MissionRecoveryPlanner.replayEvents, hsealed]
  rw [missionEventsAfter_eq_tail_iff hinj hne hwq.verifies htail, SealsMissionTail]
  · refine forall₂_congr fun e he => ?_
    cases p.store.latest ctx.missionId with
    | none => exact lastHash_eq_iff hinj hw.verifies he
    | some prev =>
        simp only
        split
        · exact Iff.rfl
        · exact lastHash_eq_iff hinj hw.verifies he
  · cases hlatest : p.store.latest ctx.missionId with
    | none => exact occurs_lastHash p.ledger
    | some prev =>
        simp only
        split
        · exact occurs_of_latest hw hlatest
        · exact occurs_lastHash p.ledger

/-! ### Two missions in one ledger -/

/-- A digest without collisions that is never empty. -/
def wideDigest (s : Str) : List UInt8 := 0 :: s.flatMap Vertex.unitBytes

theorem hashText_wideDigest_injective : Function.Injective (hashText wideDigest) := by
  intro s t h
  simp only [hashText, Vertex.sha256Hex, wideDigest, List.flatMap_cons] at h
  exact Vertex.sha256Hex_unitBytes_injective (List.append_cancel_left h)

theorem hashText_wideDigest_ne_nil (s : Str) : hashText wideDigest s ≠ [] := by
  simp [hashText, Vertex.sha256Hex, wideDigest, Vertex.hexByte]

/-- A mission and a map without methods. -/
def barePorts : RecoveryPorts Unit Unit Unit where
  setPhase := none
  registerNode := none
  upsertTarget := none
  snapshot := id
  mergeSnapshot _ _ := id
  getVersion _ := 1
  dirtyCount _ := 0
  version _ := 1
  coveragePct _ := 0
  snapshotJson _ := .null

def bareContext (m : Str) : RecoveryReplayContext Unit Unit where
  missionId := m
  mission :=
    { phase := "search", phaseVersion := 1, nodes := ∅, targets := ∅, safetyCritical := false
      other := () }
  map := ()

/-- The append of an event of a mission. -/
def noted (m : Str) (n : ℕ) : LedgerEntry (LedgerPayload Unit) × Draw :=
  (⟨m, "note", "n1", ⟨none, none, none, none, ∅⟩⟩, ⟨[codeUnit n], [codeUnit n], .ofInt n⟩)

/-- The ledger with one event of the mission. -/
def plannerNoted : MissionRecoveryPlanner Unit :=
  MissionRecoveryPlanner.new.append wideDigest (fun _ => .null) (noted "m1" 0).1 (noted "m1" 0).2

/-- The last event is the mission's own, and one event is replayed. -/
theorem replays_missing_tail_iff_own_event :
    let p' :=
      plannerNoted.createCheckpoint barePorts wideDigest (bareContext "m1") "r" "n1" 0 "cp" 1
    let q := p'.appendAll wideDigest (fun _ => .null) [noted "m1" 2]
    let missing := missionSlice "m1" (q.ledger.entries.drop plannerNoted.ledger.entries.length)
    q.replayEvents "m1" = missing ∧
      (q.restore barePorts (fun _ => 3) (bareContext "m1")).2.replayCount = missing.length := by
  intro p' q missing
  have hrun : Runs.run (step barePorts wideDigest fun _ => .null) .new
      [.append (noted "m1" 0).1 (noted "m1" 0).2] = some plannerNoted := rfl
  have hcp : step barePorts wideDigest (fun _ => .null) plannerNoted
      (.createCheckpoint (bareContext "m1") "r" "n1" 0 "cp" 1) = some p' := rfl
  exact (replays_missing_tail_iff hashText_wideDigest_injective hashText_wideDigest_ne_nil hrun hcp
    [noted "m1" 2] (fun _ => 3)
    (show (bareContext "m1").missionId = (bareContext "m1").missionId from rfl)).2
    fun e _ => ⟨_, rfl, rfl⟩

/-- The ledger with an event of each of two missions and a checkpoint of the first, then one more
event of the first. -/
def plannerOfTwo : MissionRecoveryPlanner Unit :=
  let p := plannerNoted.append wideDigest (fun _ => .null) (noted "m2" 1).1 (noted "m2" 1).2
  p.createCheckpoint barePorts wideDigest (bareContext "m1") "r" "n1" 0 "cp" 2

/-- **A checkpoint taken after an event of another mission makes the restore replay what it has
sealed**: of the two events that are replayed, one is older than the checkpoint. -/
theorem replays_sealed_event :
    Function.Injective (hashText wideDigest) ∧ (∀ s, hashText wideDigest s ≠ []) ∧
      Runs.run (step barePorts wideDigest fun _ => .null) .new
          [.append (noted "m1" 0).1 (noted "m1" 0).2, .append (noted "m2" 1).1 (noted "m2" 1).2,
            .createCheckpoint (bareContext "m1") "r" "n1" 0 "cp" 2] = some plannerOfTwo ∧
        let q := plannerOfTwo.appendAll wideDigest (fun _ => .null) [noted "m1" 3]
        (missionSlice "m1" (q.ledger.entries.drop plannerOfTwo.ledger.entries.length)).length = 1 ∧
          (q.restore barePorts (fun _ => 4) (bareContext "m1")).2.replayCount = 2 := by
  have hrun : Runs.run (step barePorts wideDigest fun _ => .null) .new
      [.append (noted "m1" 0).1 (noted "m1" 0).2, .append (noted "m2" 1).1 (noted "m2" 1).2,
        .createCheckpoint (bareContext "m1") "r" "n1" 0 "cp" 2] = some plannerOfTwo := rfl
  refine ⟨hashText_wideDigest_injective, hashText_wideDigest_ne_nil, hrun, rfl, ?_⟩
  obtain ⟨hw, -⟩ := appendAll_spec (wellSealed_of_run hrun) [noted "m1" 3]
  have hnodup := cumulativeHash_nodup hashText_wideDigest_injective hw.verifies
  -- the sealed head is the hash of the second event, which is not the first mission's
  have hafter : ∀ e ∈ (plannerOfTwo.appendAll wideDigest (fun _ => .null)
      [noted "m1" 3]).ledger.entries, e.missionId = "m1" →
        e.cumulativeHash ≠ plannerOfTwo.ledger.lastHash := by
    obtain ⟨hfirst, hrest⟩ := List.nodup_cons.1 hnodup
    obtain ⟨hsecond, -⟩ := List.nodup_cons.1 hrest
    intro e he hm
    rcases List.mem_cons.1 he with rfl | he
    · intro h
      exact hfirst (List.mem_map.2 ⟨_, List.mem_cons_self, h.symm⟩)
    · rcases List.mem_cons.1 he with rfl | he
      · exact absurd hm (by decide)
      · intro h
        exact hsecond (List.mem_map.2 ⟨e, he, h⟩)
  rw [replayCount_restore]
  exact congrArg List.length (missionEventsAfter_of_notMem hafter)

end Recovery
