/-
**Merging a snapshot of another node, and committed tasks.**

A merge goes through the parts of a snapshot one after the other.  It takes over the role, the
status and the depth of the node that sent the snapshot as if they were its own, and it raises at
the first peer record, when these are already changed.

A commit is kept in the record of its task, which has no version.  A later proposal of the task, and
a snapshot of a node that has not seen the commit, replace the record whole.

Main definitions:

* `SwarmStore.readEntries` — the records of a snapshot up to the first that cannot be read;
* `SwarmStore.MeshStateSnapshot.reread` — a snapshot that was sent as JSON;
* `SwarmStore.MergesCleanly` — a merge does not raise and keeps the local role, status and depth,
  and where it raises it changes nothing;
* `SwarmStore.Committed` — a store where a task is;
* `SwarmStore.KeepsCommit` — a message that does not replace the record by one without a commit.

Main results:

* `SwarmStore.untilError_map` — a loop over records is a loop over the ones that can be read;
* `SwarmStore.mergeSnapshot_of_readable` — **a merge that does not raise**;
* `SwarmStore.get?_registers_mergeSnapshot`, `SwarmStore.get?_tasks_mergeSnapshot` — what it does to
  one register and to one task;
* `SwarmStore.merges_cleanly_iff` — a merge is clean exactly if the sender knows no peer and has the
  same role, status and depth;
* `SwarmStore.committed_onMessage` — what one message does;
* `SwarmStore.commit_stays_iff` — **a task stays committed all along a run exactly if every message
  of the run keeps the commit.**
-/
import Endendend.SwarmStore.SwarmStateStore
import Endendend.Foundation.LastWriter
import Endendend.Foundation.Runs
import Mathlib.Data.Prod.Lex

set_option relaxedAutoImplicit false
set_option autoImplicit false

namespace SwarmStore

open Py (Dict Deque rereadDict)
open Js (Str Json OrderedMap)
open LastWriter

/-! ### Records that can be read -/

section Reading

variable {κ δ ρ ε σ : Type*}

/-- The records up to the first that cannot be read, and the error there. -/
def readEntries (decode : κ → δ → Except ε ρ) : List (κ × δ) → List (κ × ρ) × Option ε
  | [] => ([], none)
  | (k, d) :: l =>
    match decode k d with
    | .ok r => ((k, r) :: (readEntries decode l).1, (readEntries decode l).2)
    | .error e => ([], some e)

/-- **A loop over records is a loop over the ones that can be read.** -/
theorem untilError_map (decode : κ → δ → Except ε ρ) (g : σ → κ → ρ → σ) (s : σ)
    (l : List (κ × δ)) :
    untilError (fun s p => (decode p.1 p.2).map (g s p.1)) s l =
      ((readEntries decode l).1.foldl (fun s p => g s p.1 p.2) s, (readEntries decode l).2) := by
  induction l generalizing s with
  | nil => rfl
  | cons p l ih =>
      obtain ⟨k, d⟩ := p
      rw [untilError, readEntries]
      cases decode k d with
      | ok r => exact ih (g s k r)
      | error e => rfl

theorem readEntries_keys {decode : κ → δ → Except ε ρ} (l : List (κ × δ)) :
    ((readEntries decode l).1.map Prod.fst).Sublist (l.map Prod.fst) := by
  induction l with
  | nil => exact .slnil
  | cons p l ih =>
      obtain ⟨k, d⟩ := p
      rw [readEntries]
      split
      · exact ih.cons_cons k
      · exact List.nil_sublist _

/-- All records can be read. -/
theorem readEntries_of_ok {decode : κ → δ → Except ε ρ} {l : List (κ × ρ)} {encode : ρ → δ}
    (h : ∀ k r, decode k (encode r) = .ok r) :
    readEntries decode (l.map fun p => (p.1, encode p.2)) = (l, none) := by
  induction l with
  | nil => rfl
  | cons p l ih =>
      rw [List.map_cons, readEntries, h, ih]

/-- The records that are read, if all of them can be. -/
theorem getList_readEntries [DecidableEq κ] {decode : κ → δ → Except ε ρ} {l : List (κ × δ)}
    (h : (readEntries decode l).2 = none) (k : κ) :
    OrderedMap.getList k (readEntries decode l).1 =
      (OrderedMap.getList k l).bind fun d => (decode k d).toOption := by
  induction l with
  | nil => rfl
  | cons p l ih =>
      obtain ⟨k', d⟩ := p
      rw [readEntries] at h ⊢
      cases hd : decode k' d with
      | error e =>
          rw [hd] at h
          cases h
      | ok r =>
          rw [hd] at h
          simp only [OrderedMap.getList]
          split
          · next hk =>
              subst hk
              rw [Option.bind_some, hd]
              rfl
          · exact ih h

end Reading

/-! ### The merge part by part -/

/-- The peers of a snapshot that can be read. -/
def MeshStateSnapshot.readPeers (snap : MeshStateSnapshot) :
    List (Str × PeerRecord) × Option TypeError :=
  readEntries PeerRecord.ofData snap.peers.entries

/-- The registers of a snapshot that can be read. -/
def MeshStateSnapshot.readRegisters (snap : MeshStateSnapshot) :
    List (Str × LWWValue) × Option TypeError :=
  readEntries (fun _ => LWWValue.ofData) snap.registers.entries

namespace Merging

variable (m : Merging) (snap : MeshStateSnapshot)

/-- What is merged before the registers. -/
def withPeers : Merging :=
  snap.readPeers.1.foldl (fun m p => m.offerPeer p.1 p.2) (m.mergeLocal snap)

/-- What is merged before the tasks. -/
def withRegisters : Merging :=
  snap.readRegisters.1.foldl (fun m p => m.offerRegister p.1 p.2) (m.withPeers snap)

/-- What is merged in the end. -/
def withAll (now : ℤ) : Merging :=
  ((snap.tasks.entries.foldl mergeTask (m.withRegisters snap)).mergeAlerts snap.alerts).finish now

end Merging

/-- A merge that has changed nothing yet. -/
def Merging.start (s : SwarmStateStore) : Merging := ⟨s, 0, 0, 0, 0⟩

section Parts

variable (s : SwarmStateStore) (snap : MeshStateSnapshot)

theorem untilError_mergePeer :
    untilError Merging.mergePeer ((Merging.start s).mergeLocal snap) snap.peers.entries =
      ((Merging.start s).withPeers snap, snap.readPeers.2) :=
  untilError_map PeerRecord.ofData Merging.offerPeer _ _

theorem untilError_mergeRegister :
    untilError Merging.mergeRegister ((Merging.start s).withPeers snap) snap.registers.entries =
      ((Merging.start s).withRegisters snap, snap.readRegisters.2) :=
  untilError_map (fun _ => LWWValue.ofData) Merging.offerRegister _ _

variable {s snap}

/-- A peer record that cannot be read stops a merge before the registers. -/
theorem mergeSnapshot_of_peers {e : TypeError} (h : snap.readPeers.2 = some e) (now : ℤ) :
    s.mergeSnapshot snap now = (((Merging.start s).withPeers snap).store, .error e) := by
  rw [SwarmStateStore.mergeSnapshot, ← Merging.start, untilError_mergePeer, h]

/-- A register that cannot be read stops a merge before the tasks. -/
theorem mergeSnapshot_of_registers {e : TypeError} (hp : snap.readPeers.2 = none)
    (h : snap.readRegisters.2 = some e) (now : ℤ) :
    s.mergeSnapshot snap now = (((Merging.start s).withRegisters snap).store, .error e) := by
  rw [SwarmStateStore.mergeSnapshot, ← Merging.start, untilError_mergePeer, hp]
  dsimp only
  rw [untilError_mergeRegister, h]

/-- All records of a snapshot can be read. -/
def MeshStateSnapshot.Readable (snap : MeshStateSnapshot) : Prop :=
  snap.readPeers.2 = none ∧ snap.readRegisters.2 = none

instance (snap : MeshStateSnapshot) : Decidable snap.Readable :=
  inferInstanceAs (Decidable (_ ∧ _))

/-- **A merge of records that can be read goes through.** -/
theorem mergeSnapshot_of_readable (h : snap.Readable) (now : ℤ) :
    s.mergeSnapshot snap now = (((Merging.start s).withAll snap now).store,
      .ok ((Merging.start s).withAll snap now).changes) := by
  rw [SwarmStateStore.mergeSnapshot, ← Merging.start, untilError_mergePeer, h.1]
  dsimp only
  rw [untilError_mergeRegister, h.2]
  rfl

/-- A merge of another snapshot raises. -/
theorem mergeSnapshot_of_not_readable (h : ¬ snap.Readable) (now : ℤ) :
    ∃ e, (s.mergeSnapshot snap now).2 = .error e := by
  cases hp : snap.readPeers.2 with
  | some e => exact ⟨e, congrArg Prod.snd (mergeSnapshot_of_peers hp now)⟩
  | none =>
      cases hr : snap.readRegisters.2 with
      | some e => exact ⟨e, congrArg Prod.snd (mergeSnapshot_of_registers hp hr now)⟩
      | none => exact absurd ⟨hp, hr⟩ h

end Parts

/-! ### What a merge does to one register -/

/-- By which the values of a register are compared. -/
def LWWValue.stamp (v : LWWValue) : ℤ ×ₗ ℤ := toLex (v.version, v.updatedAtMs)

theorem stamp_lt {v w : LWWValue} : v.stamp < w.stamp ↔
    v.version < w.version ∨ v.version = w.version ∧ v.updatedAtMs < w.updatedAtMs :=
  Prod.Lex.toLex_lt_toLex

theorem stamp_le {v w : LWWValue} : v.stamp ≤ w.stamp ↔
    v.version < w.version ∨ v.version = w.version ∧ v.updatedAtMs ≤ w.updatedAtMs :=
  Prod.Lex.toLex_le_toLex

/-- A lookup in a map where nothing was set. -/
theorem get?_of_kept {α β : Type*} [DecidableEq α] {m : OrderedMap α β} {k : α} {v : β}
    (h : m.get? k = some v) (k' : α) : m.get? k' = if k' = k then some v else m.get? k' := by
  split
  · next hk => rw [hk, h]
  · rfl

namespace Merging

variable (m : Merging)

/-- A register of a snapshot replaces the one that is there on a tie. -/
theorem get?_offerRegister (key : Str) (incoming : LWWValue) (key' : Str) :
    (m.offerRegister key incoming).store.registers.get? key' =
      if key' = key then offer LWWValue.stamp true (m.store.registers.get? key) incoming
      else m.store.registers.get? key' := by
  rw [offerRegister]
  cases hcur : m.store.registers.get? key with
  | none =>
      rw [Option.all_none, if_pos rfl, offer]
      exact OrderedMap.get?_set _ _ _ _
  | some cur =>
      have hle : ((some cur).all fun current => decide (incoming.version > current.version ∨
          (incoming.version = current.version ∧ incoming.updatedAtMs ≥ current.updatedAtMs))) =
          true ↔ cur.stamp < incoming.stamp ∨ cur.stamp = incoming.stamp := by
        rw [← le_iff_lt_or_eq, stamp_le, Option.all_some, decide_eq_true_eq,
          eq_comm (a := incoming.version)]
      split
      · next h =>
          rw [hle] at h
          rw [offer_some, if_pos (h.imp_right fun heq => ⟨rfl, heq⟩)]
          exact OrderedMap.get?_set _ _ _ _
      · next h =>
          rw [hle] at h
          have hkept : offer LWWValue.stamp true (some cur) incoming = some cur := by
            rw [offer_some, if_neg fun hor => h (hor.imp_right And.right)]
          rw [hkept]
          exact get?_of_kept hcur key'

/-- The registers of a snapshot, one after the other. -/
theorem get?_foldl_offerRegister {l : List (Str × LWWValue)} (h : (l.map Prod.fst).Nodup)
    (key : Str) :
    (l.foldl (fun m p => m.offerRegister p.1 p.2) m).store.registers.get? key =
      (OrderedMap.getList key l).elim (m.store.registers.get? key)
        fun v => offer LWWValue.stamp true (m.store.registers.get? key) v := by
  induction l generalizing m with
  | nil => rfl
  | cons p l ih =>
      rw [List.map_cons, List.nodup_cons] at h
      rw [List.foldl_cons, ih _ h.2, get?_offerRegister, OrderedMap.getList]
      by_cases hk : p.1 = key
      · subst hk
        rw [OrderedMap.getList_eq_none_iff.2 h.1, if_pos rfl, if_pos rfl]
        rfl
      · rw [if_neg (Ne.symm hk), if_neg hk]

/-! ### Each part of a merge changes its own part of the store -/

theorem foldl_invariant {σ α : Type*} {P : σ → Prop} {g : σ → α → σ} (h : ∀ s a, P s → P (g s a))
    {s : σ} (hs : P s) (l : List α) : P (l.foldl g s) := by
  induction l generalizing s with
  | nil => exact hs
  | cons a l ih => exact ih (h s a hs)

variable (snap : MeshStateSnapshot)

theorem store_withPeers :
    ∃ peers, (m.withPeers snap).store = { (m.mergeLocal snap).store with peers } := by
  refine foldl_invariant (P := fun m' : Merging =>
    ∃ peers, m'.store = { (m.mergeLocal snap).store with peers }) ?_ ⟨_, rfl⟩ _
  rintro m' p ⟨peers, h⟩
  rw [offerPeer]
  split
  · exact ⟨_, congrArg (fun s => { s with peers := m'.store.peers.set p.1 p.2 }) h⟩
  · exact ⟨peers, h⟩

theorem store_withRegisters :
    ∃ registers, (m.withRegisters snap).store = { (m.withPeers snap).store with registers } := by
  refine foldl_invariant (P := fun m' : Merging =>
    ∃ registers, m'.store = { (m.withPeers snap).store with registers }) ?_ ⟨_, rfl⟩ _
  rintro m' p ⟨registers, h⟩
  rw [offerRegister]
  split
  · exact ⟨_, congrArg (fun s => { s with registers := m'.store.registers.set p.1 p.2 }) h⟩
  · exact ⟨registers, h⟩

theorem store_foldl_mergeTask (l : List (Str × Dict)) :
    ∃ tasks, (l.foldl mergeTask m).store = { m.store with tasks } := by
  refine foldl_invariant (P := fun m' : Merging =>
    ∃ tasks, m'.store = { m.store with tasks }) ?_ ⟨_, rfl⟩ _
  rintro m' p ⟨tasks, h⟩
  rw [mergeTask]
  split
  · exact ⟨_, congrArg (fun s => { s with tasks := m'.store.tasks.set p.1 p.2 }) h⟩
  · exact ⟨tasks, h⟩

theorem store_mergeAlerts (l : List Dict) :
    ∃ alerts, (m.mergeAlerts l).store = { m.store with alerts } := by
  refine foldl_invariant (P := fun acc : Merging × List Dict =>
    ∃ alerts, acc.1.store = { m.store with alerts }) ?_ ⟨_, rfl⟩ _
  rintro ⟨m', existing⟩ alert ⟨alerts, h⟩
  unfold mergeAlert
  dsimp only
  split
  · exact ⟨alerts, h⟩
  · exact ⟨_, congrArg (fun s => { s with alerts := m'.store.alerts.push alert }) h⟩

/-- The tasks of a snapshot, one after the other. -/
theorem get?_mergeTask (entry : Str × Dict) (taskId : Str) :
    (m.mergeTask entry).store.tasks.get? taskId =
      if taskId = entry.1 ∧
          (m.store.tasks.get? entry.1).map Py.canonDict ≠ some (Py.canonDict entry.2) then
        some entry.2
      else m.store.tasks.get? taskId := by
  rw [mergeTask]
  split
  · next h => simp only [OrderedMap.get?_set, h, ne_eq, not_false_eq_true, and_true]
  · next h => rw [if_neg fun hand => h hand.2]

/-- What a task of a snapshot makes of the one that is there. -/
def taskAfter (current : Option Dict) (payload : Dict) : Option Dict :=
  if current.map Py.canonDict ≠ some (Py.canonDict payload) then some payload else current

theorem get?_foldl_mergeTask {l : List (Str × Dict)} (h : (l.map Prod.fst).Nodup)
    (taskId : Str) :
    (l.foldl mergeTask m).store.tasks.get? taskId =
      (OrderedMap.getList taskId l).elim (m.store.tasks.get? taskId)
        (taskAfter (m.store.tasks.get? taskId)) := by
  induction l generalizing m with
  | nil => rfl
  | cons p l ih =>
      rw [List.map_cons, List.nodup_cons] at h
      rw [List.foldl_cons, ih _ h.2, get?_mergeTask, OrderedMap.getList]
      by_cases hk : p.1 = taskId
      · subst hk
        rw [OrderedMap.getList_eq_none_iff.2 h.1, if_pos rfl]
        simp only [true_and]
        rfl
      · rw [if_neg fun hand => hk hand.1.symm, if_neg hk]

end Merging

section Spec

variable {s : SwarmStateStore} {snap : MeshStateSnapshot}

open Merging

theorem readRegisters_nodup (snap : MeshStateSnapshot) :
    (snap.readRegisters.1.map Prod.fst).Nodup :=
  (readEntries_keys snap.registers.entries).nodup snap.registers.nodup

/-- Up to the registers, a merge leaves the registers alone. -/
theorem registers_withPeers : ((start s).withPeers snap).store.registers = s.registers := by
  obtain ⟨peers, h⟩ := store_withPeers (start s) snap
  rw [h, store_mergeLocal]
  rfl

theorem tasks_withRegisters : ((start s).withRegisters snap).store.tasks = s.tasks := by
  obtain ⟨peers, hp⟩ := store_withPeers (start s) snap
  obtain ⟨registers, hr⟩ := store_withRegisters (start s) snap
  rw [hr, hp, store_mergeLocal]
  rfl

theorem tasks_withPeers : ((start s).withPeers snap).store.tasks = s.tasks := by
  obtain ⟨peers, hp⟩ := store_withPeers (start s) snap
  rw [hp, store_mergeLocal]
  rfl

theorem registers_withAll (now : ℤ) :
    ((start s).withAll snap now).store.registers =
      ((start s).withRegisters snap).store.registers := by
  obtain ⟨alerts, ha⟩ := store_mergeAlerts
    (snap.tasks.entries.foldl mergeTask ((start s).withRegisters snap)) snap.alerts
  obtain ⟨tasks, ht⟩ := store_foldl_mergeTask ((start s).withRegisters snap) snap.tasks.entries
  change (mergeAlerts _ _).store.registers = _
  rw [ha, ht]

theorem tasks_withAll (now : ℤ) :
    ((start s).withAll snap now).store.tasks =
      (snap.tasks.entries.foldl mergeTask ((start s).withRegisters snap)).store.tasks := by
  obtain ⟨alerts, ha⟩ := store_mergeAlerts
    (snap.tasks.entries.foldl mergeTask ((start s).withRegisters snap)) snap.alerts
  change (mergeAlerts _ _).store.tasks = _
  rw [ha]

/-- **What a merge does to a register.** -/
theorem get?_registers_mergeSnapshot (h : snap.Readable) (now : ℤ) (key : Str) :
    (s.mergeSnapshot snap now).1.registers.get? key =
      ((snap.registers.get? key).bind fun d => (LWWValue.ofData d).toOption).elim
        (s.registers.get? key) (offer LWWValue.stamp true (s.registers.get? key)) := by
  rw [mergeSnapshot_of_readable h, registers_withAll, withRegisters,
    get?_foldl_offerRegister _ (readRegisters_nodup snap), registers_withPeers]
  congr 1
  exact getList_readEntries h.2 key

/-- **What a merge does to a task.** -/
theorem get?_tasks_mergeSnapshot (h : snap.Readable) (now : ℤ) (taskId : Str) :
    (s.mergeSnapshot snap now).1.tasks.get? taskId =
      (snap.tasks.get? taskId).elim (s.tasks.get? taskId) (taskAfter (s.tasks.get? taskId)) := by
  rw [mergeSnapshot_of_readable h, tasks_withAll, get?_foldl_mergeTask _ snap.tasks.nodup,
    tasks_withRegisters]
  rfl

/-- A merge that raises leaves the tasks alone. -/
theorem tasks_mergeSnapshot_of_not_readable (h : ¬ snap.Readable) (now : ℤ) :
    (s.mergeSnapshot snap now).1.tasks = s.tasks := by
  cases hp : snap.readPeers.2 with
  | some e =>
      rw [mergeSnapshot_of_peers hp now]
      exact tasks_withPeers
  | none =>
      cases hr : snap.readRegisters.2 with
      | some e =>
          rw [mergeSnapshot_of_registers hp hr now]
          exact tasks_withRegisters
      | none => exact absurd ⟨hp, hr⟩ h

end Spec

/-! ### Merging what another store has sent -/

/-- What a node says of itself. -/
def SwarmStateStore.identity (s : SwarmStateStore) : Str × Str × ℤ := (s.role, s.status, s.depth)

def MeshStateSnapshot.identity (snap : MeshStateSnapshot) : Str × Str × ℤ :=
  (snap.role, snap.status, snap.depth)

/-- A snapshot that was sent as JSON, with sorted keys. -/
def MeshStateSnapshot.reread (snap : MeshStateSnapshot) : MeshStateSnapshot :=
  { snap with
    peers := rereadMap PeerData.reread snap.peers
    registers := rereadMap RegisterData.reread snap.registers
    tasks := rereadMap rereadDict snap.tasks
    alerts := snap.alerts.map rereadDict
    metrics := rereadMap id snap.metrics }

theorem get?_registers_snapshot (s : SwarmStateStore) (sent : ℤ) (key : Str) :
    (s.snapshot sent).reread.registers.get? key =
      (s.registers.get? key).map fun v => v.reread.asdict := by
  change (rereadMap RegisterData.reread (s.registers.mapValues LWWValue.asdict)).get? key = _
  rw [get?_rereadMap, OrderedMap.get?_mapValues, Option.map_map]
  rfl

/-- What is read of the snapshot of a store. -/
theorem readRegisters_snapshot (s : SwarmStateStore) (now : ℤ) :
    (s.snapshot now).reread.readRegisters =
      ((rereadMap LWWValue.reread s.registers).entries, none) := by
  have hentries : (s.snapshot now).reread.registers.entries =
      (rereadMap LWWValue.reread s.registers).entries.map fun p => (p.1, p.2.asdict) :=
    congrArg OrderedMap.entries (rereadMap_asdict s.registers)
  rw [MeshStateSnapshot.readRegisters, hentries]
  exact readEntries_of_ok fun _ => LWWValue.ofData_asdict

/-- **The snapshot of a store can be read exactly if the store has no peers.** -/
theorem readable_snapshot (s : SwarmStateStore) (now : ℤ) :
    (s.snapshot now).reread.Readable ↔ s.peers.entries = [] := by
  constructor
  · rintro ⟨hp, -⟩
    by_contra hne
    obtain ⟨p, l, hl, he⟩ := reread_peers hne
    have hread : (s.snapshot now).reread.readPeers =
        readEntries PeerRecord.ofData (p :: l) := congrArg _ hl
    rw [hread, readEntries, he] at hp
    cases hp
  · intro h
    refine ⟨?_, congrArg Prod.snd (readRegisters_snapshot s now)⟩
    have hread : (s.snapshot now).reread.readPeers = readEntries PeerRecord.ofData [] :=
      congrArg _ (reread_no_peers h)
    rw [hread]
    rfl

/-- A merge that goes through takes over the role, status and depth of the sender. -/
theorem identity_mergeSnapshot {s : SwarmStateStore} {snap : MeshStateSnapshot} (h : snap.Readable)
    (now : ℤ) : (s.mergeSnapshot snap now).1.identity = snap.identity := by
  obtain ⟨peers, hp⟩ := Merging.store_withPeers (Merging.start s) snap
  obtain ⟨registers, hr⟩ := Merging.store_withRegisters (Merging.start s) snap
  obtain ⟨alerts, ha⟩ := Merging.store_mergeAlerts
    (snap.tasks.entries.foldl Merging.mergeTask ((Merging.start s).withRegisters snap)) snap.alerts
  obtain ⟨tasks, ht⟩ := Merging.store_foldl_mergeTask ((Merging.start s).withRegisters snap)
    snap.tasks.entries
  rw [mergeSnapshot_of_readable h]
  change (Merging.mergeAlerts _ _).store.identity = _
  rw [ha, ht, hr, hp, Merging.store_mergeLocal]
  rfl

/-- A merge does not raise and keeps the role, status and depth of the node, and if it raises it
changes nothing. -/
structure MergesCleanly (s : SwarmStateStore) (snap : MeshStateSnapshot) (now : ℤ) : Prop where
  returns : ∃ changes, (s.mergeSnapshot snap now).2 = .ok changes
  keeps : (s.mergeSnapshot snap now).1.identity = s.identity
  atomic : ∀ e, (s.mergeSnapshot snap now).2 = .error e → (s.mergeSnapshot snap now).1 = s

/-- **A merge is clean exactly if the sender knows no peer and has the same role, status and
depth.** -/
theorem merges_cleanly_iff (s sender : SwarmStateStore) (sent now : ℤ) :
    MergesCleanly s (sender.snapshot sent).reread now ↔
      sender.peers.entries = [] ∧ sender.identity = s.identity := by
  rw [← readable_snapshot sender sent]
  constructor
  · rintro ⟨⟨changes, hok⟩, hkeeps, -⟩
    have hread : (sender.snapshot sent).reread.Readable := by
      by_contra hnot
      obtain ⟨e, he⟩ := mergeSnapshot_of_not_readable (s := s) hnot now
      rw [hok] at he
      cases he
    exact ⟨hread, (identity_mergeSnapshot hread now).symm.trans hkeeps⟩
  · rintro ⟨hread, hsame⟩
    have hok := congrArg Prod.snd (mergeSnapshot_of_readable (s := s) hread now)
    refine ⟨⟨_, hok⟩, (identity_mergeSnapshot hread now).trans hsame, fun e he => ?_⟩
    rw [hok] at he
    cases he

/-- A sender that has heard of one node, and is at depth one: the merge raises, and the store has
the depth of the sender. -/
theorem merge_of_known_peer_fails :
    ¬ MergesCleanly (.new ("n1" : String) ("s" : String))
      ((((SwarmStateStore.new ("n2" : String) ("s" : String)).touchPeer ("n3" : String) none []
        1000).setDepth 1).snapshot 2000).reread 3000 := by
  intro h
  obtain ⟨changes, hok⟩ := h.returns
  have hread := (readable_snapshot ((SwarmStateStore.new ("n2" : String) ("s" : String)).touchPeer
    ("n3" : String) none [] 1000 |>.setDepth 1) 2000).not.2 (List.cons_ne_nil _ _)
  obtain ⟨e, he⟩ := mergeSnapshot_of_not_readable hread 3000
  rw [hok] at he
  cases he

end SwarmStore

namespace SwarmStore

open Py (Dict canon canonDict)
open Js (Str Json OrderedMap)
open Runs

/-! ### Committed records -/

/-- A record is committed, and names somebody. -/
def HasCommit (d : Dict) : Prop :=
  (d.get? ("committed" : String)).map canon = some (canon (.bool true)) ∧
    (d.get? ("assignee_id" : String)).isSome

instance (d : Dict) : Decidable (HasCommit d) := inferInstanceAs (Decidable (_ ∧ _))

/-- **Equal records are committed alike.** -/
theorem hasCommit_congr {d e : Dict} (h : canonDict d = canonDict e) :
    HasCommit d ↔ HasCommit e := by
  have hassignee := congrArg Option.isSome (Py.get?_of_canonDict_eq h ("assignee_id" : String))
  rw [Option.isSome_map, Option.isSome_map] at hassignee
  rw [HasCommit, HasCommit, Py.get?_of_canonDict_eq h, hassignee]

/-- The record of a task is committed. -/
def Committed (taskId : Str) (s : SwarmStateStore) : Prop :=
  ∃ d, s.tasks.get? taskId = some d ∧ HasCommit d

instance (taskId : Str) (s : SwarmStateStore) : Decidable (Committed taskId s) :=
  decidable_of_iff ((s.tasks.get? taskId).any (HasCommit ·) = true) (by
    simp only [Option.any_eq_true, decide_eq_true_eq, Committed])

/-- A message does not replace the record of a task by one without a commit. -/
def KeepsCommit (text : Json → Str) (taskId : Str) (m : MeshEnvelope × ℤ) : Prop :=
  match m.1.body with
  | .task payload => taskIdOf text payload m.1.messageId = taskId → HasCommit payload
  | .state snap => snap.Readable → ∀ d ∈ snap.tasks.get? taskId, HasCommit d
  | .stateResponse snapshot =>
    ∀ snap ∈ snapshot, snap.Readable → ∀ d ∈ snap.tasks.get? taskId, HasCommit d
  | _ => True

/-! ### What one message does -/

variable {text : Json → Str} {taskId : Str} {s : SwarmStateStore}

theorem committed_upsertTask (h : Committed taskId s) (taskId' : Str) (payload : Dict) :
    Committed taskId (s.upsertTask taskId' payload) ↔ (taskId' = taskId → HasCommit payload) := by
  have hget : (s.upsertTask taskId' payload).tasks.get? taskId =
      if taskId = taskId' then some payload else s.tasks.get? taskId := OrderedMap.get?_set _ _ _ _
  unfold Committed
  rw [hget]
  split
  · next heq => simp only [Option.some.injEq, exists_eq_left', heq, forall_const]
  · next hne => exact iff_of_true h fun heq => absurd heq.symm hne

/-- A commit of a committed task leaves it committed. -/
theorem committed_handleTaskCommit (h : Committed taskId s) (payload : Dict) (messageId : Str) :
    Committed taskId (handleTaskCommit text s payload messageId) := by
  refine (committed_upsertTask h _ _).2 fun heq => ⟨?_, ?_⟩
  · rw [OrderedMap.get?_set_self]
    rfl
  · obtain ⟨d, hd, -, hassignee⟩ := h
    have hold : s.getTaskPayload (taskIdOf text payload messageId) = d := by
      rw [SwarmStateStore.getTaskPayload, heq, hd]
      rfl
    rw [hold]
    exact OrderedMap.isSome_get?_set (OrderedMap.isSome_get?_assign hassignee _) _ _

/-- A merge leaves a task committed exactly if the snapshot has no record of it, or a committed
one. -/
theorem committed_mergeSnapshot (h : Committed taskId s) (snap : MeshStateSnapshot) (now : ℤ) :
    Committed taskId (s.mergeSnapshot snap now).1 ↔
      (snap.Readable → ∀ d ∈ snap.tasks.get? taskId, HasCommit d) := by
  by_cases hread : snap.Readable
  · simp only [hread, forall_const]
    unfold Committed
    rw [get?_tasks_mergeSnapshot hread]
    obtain ⟨old, hold, hcommit⟩ := h
    cases hsnap : snap.tasks.get? taskId with
    | none => exact iff_of_true ⟨old, hold, hcommit⟩ fun d hd => by cases hd
    | some d =>
        simp only [Option.elim_some, Option.mem_def, Option.some.injEq, forall_eq',
          Merging.taskAfter, hold, Option.map_some]
        split
        · simp only [Option.some.injEq, exists_eq_left']
        · next heq =>
            have heq := Option.some.inj (not_not.1 heq)
            simp only [Option.some.injEq, exists_eq_left', hasCommit_congr heq]
  · simp only [hread, false_implies, iff_true]
    unfold Committed
    rw [tasks_mergeSnapshot_of_not_readable hread]
    exact h

/-- **What one message does to a committed task.** -/
theorem committed_onMessage (h : Committed taskId s) (m : MeshEnvelope × ℤ) :
    Committed taskId (onMessage text s m.1 m.2) ↔ KeepsCommit text taskId m := by
  obtain ⟨⟨senderId, messageId, about, body⟩, now⟩ := m
  -- the message is counted and its sender noted, which does not concern the tasks
  have h' : Committed taskId ((s.incrementMetric ("messages_received" : String) 1).touchPeer
      senderId none about now) := h
  cases body with
  | task payload => exact committed_upsertTask h' _ payload
  | taskBid payload =>
      refine iff_of_true ?_ trivial
      change Committed taskId (handleTaskBid text _ payload messageId senderId now)
      unfold handleTaskBid SwarmStateStore.updateRegister
      dsimp only
      split
      · exact h'
      · exact h'
  | taskCommit payload =>
      exact iff_of_true (committed_handleTaskCommit h' payload messageId) trivial
  | state snap =>
      refine Iff.trans ?_ (committed_mergeSnapshot h' snap now)
      change Committed taskId (handleState _ snap now) ↔ _
      unfold handleState
      dsimp only
      split
      · exact Iff.rfl
      · exact Iff.rfl
  | stateResponse snapshot =>
      cases snapshot with
      | none => exact iff_of_true h' fun snap hsnap => by cases hsnap
      | some snap =>
          refine (committed_mergeSnapshot h' snap now).trans ?_
          simp only [KeepsCommit, Option.mem_def, Option.some.injEq, forall_eq']

/-! ### Runs -/

/-- Messages as steps. -/
def clientStep (text : Json → Str) (s : SwarmStateStore) (m : MeshEnvelope × ℤ) :
    Option SwarmStateStore :=
  some (onMessage text s m.1 m.2)

/-- **A task stays committed all along a run exactly if every message of the run keeps the
commit.** -/
theorem commit_stays_iff (text : Json → Str) (taskId : Str) (s : SwarmStateStore)
    (ms : List (MeshEnvelope × ℤ)) :
    (∀ p t, p <+: ms → run (clientStep text) s p = some t → Committed taskId t) ↔
      Committed taskId s ∧ Along (clientStep text) (fun _ m => KeepsCommit text taskId m) s ms := by
  refine always_iff_along fun s m hs => ?_
  simp only [clientStep, Option.some.injEq, forall_eq']
  exact (committed_onMessage hs m).symm

/-- A task is proposed to two nodes, one of which misses the commit; when it has forgotten its
silent peers, it sends a snapshot to the other one. -/
theorem snapshot_removes_commit :
    let text : Json → Str := fun _ => []
    let task : Dict := .ofList [(("task_id" : String), .str ("t1" : String))]
    let commit : Dict := task.set ("assignee_id" : String) (.str ("n2" : String))
    let proposal : MeshEnvelope := ⟨("n2" : String), ("m1" : String), [], .task task⟩
    let n1 := onMessage text (onMessage text (.new ("n1" : String) ("s" : String)) proposal 1000)
      ⟨("n2" : String), ("m2" : String), [], .taskCommit commit⟩ 2000
    let n3 := (onMessage text (.new ("n3" : String) ("s" : String)) proposal 1000).pruneStalePeers
      10 20000
    Committed ("t1" : String) n1 ∧
      ¬ Committed ("t1" : String) (onMessage text n1
        ⟨("n3" : String), ("m3" : String), [], .state (n3.snapshot 20000).reread⟩ 21000) := by
  decide +kernel

end SwarmStore
