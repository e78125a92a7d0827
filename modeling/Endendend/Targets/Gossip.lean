/-
**A fleet and its gossip about targets.**

Drones at fixed places, each with its `TargetManager`.  What a manager sends goes to every other
drone, one copy each; the copies arrive in any order.  Of an operation that is about other targets
than `t` it is enough to know that it leaves `t` alone and says nothing of it.

Main definitions:

* `Targets.Fleet`, `Targets.Fleet.protocol` — the drones as a network;
* `Targets.Concerns` — what an operation is about;
* `Targets.Frame` — an operation leaves a target alone;
* `Targets.Learns`, `Targets.Attempt` — a new target is entered, and the drone may claim it.

Main results:

* `Targets.frame_of_not_concerns` — **an operation leaves alone the targets it is not about**;
* `Targets.act_detectTarget_cases`, `Targets.act_victimDetected_cases`,
  `Targets.act_announcement_cases` — what an operation does to the target it is about.
-/
import Endendend.Targets.TargetManager
import Endendend.Foundation.Network

set_option relaxedAutoImplicit false
set_option autoImplicit false

namespace Targets

open Py Network TargetManager
open Js (OrderedMap KeyedMap)
open Blackout (DroneRole)

/-! ### The fleet -/

/-- Drones at fixed places. -/
structure Fleet where
  sqrt : ℚ → ℚ
  ids : List Str
  nodup : ids.Nodup
  position : Str → Location

/-- What happens at a drone, apart from the messages of other managers. -/
inductive Event
  | detectTarget (role : DroneRole) (clock : Clock) (location : Location) (confidence : ℚ)
  | victimDetected (role : DroneRole) (clock : Clock) (sender : Str) (location : List ℚ)
    (confidence : Option ℚ)
  | tick (now : ℚ)
  | reachedTarget

/-- The role of a drone and the clock while it handles a message. -/
structure Reading where
  role : DroneRole
  clock : Clock

/-- The moves of a fleet. -/
abbrev FleetMove := Move Str Message Event Reading

/-- The operation of a manager that a move is. -/
def Fleet.op (F : Fleet) : FleetMove → ManagerOp
  | .act d (.detectTarget role clock location confidence) =>
    .detectTarget ⟨role, F.position d⟩ clock location confidence
  | .act d (.victimDetected role clock sender location confidence) =>
    .handleMessage ⟨role, F.position d⟩ clock sender (.victimDetected location confidence)
  | .act _ (.tick now) => .tick now
  | .act _ .reachedTarget => .reachedTarget
  | .deliver e reading =>
    .handleMessage ⟨reading.role, F.position e.receiver⟩ reading.clock e.sender e.message

/-- What a manager sends goes to every other drone. -/
def Fleet.perform (F : Fleet) (mv : FleetMove) (m : TargetManager) :
    List (Envelope Str Message) × TargetManager :=
  (broadcast F.ids mv.node ((F.op mv).act F.sqrt m).1, ((F.op mv).act F.sqrt m).2)

def Fleet.protocol (F : Fleet) : Protocol Str TargetManager Message Event Reading where
  members := F.ids
  act d event m := F.perform (.act d event) m
  receive e reading m := F.perform (.deliver e reading) m

/-- The drones before any of them has moved. -/
def newWorld : World Str TargetManager Message := ⟨TargetManager.new, []⟩

/-- What a move makes its drone say. -/
def Fleet.said (F : Fleet) (w : World Str TargetManager Message) (mv : FleetMove) : List Message :=
  ((F.op mv).act F.sqrt (w.nodes mv.node)).1

variable {F : Fleet} {w w' : World Str TargetManager Message} {mv : FleetMove}

theorem Fleet.sent_eq (F : Fleet) (w : World Str TargetManager Message) (mv : FleetMove) :
    F.protocol.sent w mv = broadcast F.ids mv.node (F.said w mv) := by
  cases mv <;> rfl

theorem Fleet.after_eq (F : Fleet) (w : World Str TargetManager Message) (mv : FleetMove) :
    F.protocol.after w mv = ((F.op mv).act F.sqrt (w.nodes mv.node)).2 := by
  cases mv <;> rfl

/-! ### What an operation is about -/

/-- The target a message is about. -/
def Message.target? : Message → Option Str
  | .victimDetected location _ =>
    (locationOf location).map fun place => victimId (locationKey place)
  | .targetAnnouncement dict => some dict.id
  | .targetUpdate dict => some dict.id
  | .targetClaim targetId _ _ => some targetId
  | .targetResolved targetId => some targetId

/-- What an operation is about. -/
def Concerns (t : Str) (m : TargetManager) : ManagerOp → Prop
  | .detectTarget _ _ location _ => victimId (locationKey location) = t
  | .handleMessage _ _ _ message => message.target? = some t
  | .tick now => ∃ target, m.targets.get? t = some target ∧ stale now target = true
  | .reachedTarget => m.claimedTarget = some t

/-- The operation is not a claim that another drone makes for this one. -/
def Foreign (m : TargetManager) : ManagerOp → Prop
  | .handleMessage _ _ _ (.targetClaim _ _ claimant) => claimant ≠ m.myId
  | _ => True

/-- The target is known to a manager. -/
def Knows (t : Str) (m : TargetManager) : Prop := (m.targets.get? t).isSome

instance (t : Str) (m : TargetManager) : Decidable (Knows t m) := by
  unfold Knows
  infer_instance

/-- A target that is known is pending. -/
def Pending (t : Str) (m : TargetManager) : Prop :=
  ∀ target, m.targets.get? t = some target → target.status = ("pending" : Str)

/-- A result leaves a target alone and says nothing of it. -/
structure Frame (t : Str) (m : TargetManager) (r : List Message × TargetManager) : Prop where
  record : r.2.targets.get? t = m.targets.get? t
  claimed : r.2.claimedTarget = some t ↔ m.claimedTarget = some t
  silent : ∀ x ∈ r.1, x.target? ≠ some t

variable {t : Str} {m : TargetManager}

theorem Frame.refl (t : Str) (m : TargetManager) : Frame t m ([], m) :=
  ⟨rfl, Iff.rfl, fun _ h => by cases h⟩

/-- One result after the other. -/
theorem Frame.trans {m₁ m₂ : TargetManager} {xs ys : List Message} (h : Frame t m (xs, m₁))
    (h' : Frame t m₁ (ys, m₂)) : Frame t m (xs ++ ys, m₂) := by
  refine ⟨h'.record.trans h.record, h'.claimed.trans h.claimed, fun x hx => ?_⟩
  rcases List.mem_append.1 hx with hx | hx
  · exact h.silent x hx
  · exact h'.silent x hx

/-- A message about another target. -/
theorem Frame.say {m' : TargetManager} {xs : List Message} (h : Frame t m (xs, m')) {x : Message}
    (hx : x.target? ≠ some t) : Frame t m (x :: xs, m') := by
  refine ⟨h.record, h.claimed, fun y hy => ?_⟩
  rcases List.mem_cons.1 hy with rfl | hy
  · exact hx
  · exact h.silent y hy

/-- A new record of another target. -/
theorem Frame.put (m : TargetManager) {target : Target} (h : target.id ≠ t) (keys : List Str) :
    Frame t m ([], { m with targets := m.targets.put target, reportedKeys := keys }) := by
  refine ⟨(KeyedMap.get?_put _ _ _).trans (if_neg fun heq => h heq.symm), Iff.rfl, fun _ h => ?_⟩
  cases h

theorem Frame.tryClaim (m : TargetManager) (sqrt : ℚ → ℚ) (senses : Senses) (clock : Clock)
    {targetId : Str} (h : targetId ≠ t) : Frame t m (m.tryClaim sqrt senses clock targetId) := by
  rcases tryClaim_cases m sqrt senses clock targetId with heq | ⟨target, ht, _, hnone, _, heq⟩
  · rw [heq]
    exact .refl t m
  · have hid : target.id = targetId := KeyedMap.key_of_get? ht
    rw [heq]
    constructor
    · refine (KeyedMap.get?_put _ _ _).trans (if_neg ?_)
      exact fun heq => h (hid.symm.trans heq.symm)
    · refine iff_of_false (fun hc => h (Option.some.inj hc)) ?_
      rw [hnone]
      exact (Option.some_ne_none t).symm
    · intro x hx
      obtain rfl := List.mem_singleton.1 hx
      exact fun hc => h (Option.some.inj hc)

/-- A new record of another target, and an attempt to claim it. -/
theorem Frame.put_tryClaim (m : TargetManager) {target : Target} (h : target.id ≠ t)
    (sqrt : ℚ → ℚ) (senses : Senses) (clock : Clock) :
    Frame t m (TargetManager.tryClaim { m with targets := m.targets.put target } sqrt senses clock
      target.id) :=
  (Frame.put m h m.reportedKeys).trans (.tryClaim _ sqrt senses clock h)

theorem Frame.applyClaim (m : TargetManager) {targetId claimant : Str} (distance now : ℚ)
    (h : targetId ≠ t) (hforeign : claimant ≠ m.myId) :
    Frame t m ([], m.applyClaim targetId distance claimant now) := by
  rcases applyClaim_cases m targetId distance claimant now with heq | ⟨target, ht, hp, hw⟩
  · rw [heq]
    exact .refl t m
  · have hid : target.id = targetId := KeyedMap.key_of_get? ht
    rw [applyClaim_of_wins m ht hp hw, if_neg hforeign]
    constructor
    · refine (KeyedMap.get?_put _ _ _).trans (if_neg ?_)
      exact fun heq => h (hid.symm.trans heq.symm)
    · by_cases hc : m.claimedTarget = some targetId
      · rw [if_pos hc, hc]
        exact iff_of_false (Option.some_ne_none t).symm fun hc => h (Option.some.inj hc)
      · rw [if_neg hc]
    · exact fun _ h => by cases h

theorem Frame.createAndAnnounceTarget (m : TargetManager) (sqrt : ℚ → ℚ) (senses : Senses)
    (clock : Clock) {targetId : Str} (h : targetId ≠ t) (location : Location) (confidence : ℚ)
    (reportedBy : Str) (keys : List Str) :
    Frame t m ({ m with reportedKeys := keys }.createAndAnnounceTarget sqrt senses clock targetId
      location confidence reportedBy) := by
  let target : Target :=
    ⟨targetId, location, clock.created, confidence, reportedBy, "pending", none, none, none⟩
  have hput := @Frame.put t m target h keys
  refine (hput.trans (Frame.tryClaim _ sqrt senses clock h)).say fun hc => ?_
  exact h (Option.some.inj hc)

theorem Frame.reclaim (m : TargetManager) {tid : Str} (h : tid ≠ t) :
    Frame t m (m.reclaim tid) := by
  unfold TargetManager.reclaim
  split
  · exact .refl t m
  · next target ht =>
      have hid : target.id ≠ t := fun heq => h ((KeyedMap.key_of_get? ht).symm.trans heq)
      constructor
      · exact (KeyedMap.get?_put _ _ _).trans (if_neg fun heq => hid heq.symm)
      · by_cases hc : m.claimedTarget = some tid
        · rw [if_pos hc, hc]
          exact iff_of_false (Option.some_ne_none t).symm fun hc => h (Option.some.inj hc)
        · rw [if_neg hc]
      · intro x hx
        obtain rfl := List.mem_singleton.1 hx
        exact fun hc => hid (Option.some.inj hc)

/-- Only targets that are resolved are cleaned up. -/
theorem Frame.cleanupOldResolved (h : Pending t m) (now : ℚ) :
    Frame t m ([], m.cleanupOldResolved now) := by
  refine ⟨get?_foldl_erase _ fun d hd hid => ?_, Iff.rfl, fun _ h => by cases h⟩
  obtain ⟨hmem, hres⟩ := List.mem_filter.1 hd
  have hresolved := (of_decide_eq_true hres).1
  rw [KeyedMap.mem_values_iff, hid] at hmem
  rw [h d hmem] at hresolved
  exact absurd hresolved (by decide)

theorem Pending.of_frame {r : List Message × TargetManager} (h : Pending t m) (hr : Frame t m r) :
    Pending t r.2 := by
  intro target htarget
  rw [hr.record] at htarget
  exact h target htarget

theorem Frame.tick (h : Pending t m) {now : ℚ}
    (hfresh : ∀ target, m.targets.get? t = some target → stale now target = false) :
    Frame t m (m.tick now) := by
  have hstale : ∀ tid ∈ (m.targets.values.filter (stale now)).map (·.id), tid ≠ t := by
    rintro tid htid rfl
    obtain ⟨target, htarget, rfl⟩ := List.mem_map.1 htid
    obtain ⟨hmem, hstale⟩ := List.mem_filter.1 htarget
    rw [hfresh target (KeyedMap.mem_values_iff.1 hmem)] at hstale
    cases hstale
  have hr : Frame t m (((m.targets.values.filter (stale now)).map (·.id)).foldl (fun r tid =>
      ((r.1 ++ (r.2.reclaim tid).1 : List Message), (r.2.reclaim tid).2)) ([], m)) :=
    List.foldlRecOn _ _ (.refl t m) fun r hr tid htid =>
      Frame.trans hr (.reclaim r.2 (hstale tid htid))
  have hclean := Frame.cleanupOldResolved (h.of_frame hr) now
  exact ⟨hclean.record.trans hr.record, hclean.claimed.trans hr.claimed, hr.silent⟩

theorem Frame.reachedTarget (h : m.claimedTarget ≠ some t) : Frame t m m.reachedTarget := by
  unfold TargetManager.reachedTarget
  split
  · exact .refl t m
  · split
    · exact ⟨rfl, iff_of_false (Option.some_ne_none t).symm h, fun _ hx => by cases hx⟩
    · next target htarget =>
        obtain ⟨tid, hclaimed, hget⟩ := Option.bind_eq_some_iff.1 htarget
        have hid : target.id ≠ t := by
          rintro rfl
          exact h (hclaimed.trans (congrArg some (KeyedMap.key_of_get? hget).symm))
        refine ⟨(KeyedMap.get?_erase _ _ _).trans (if_neg fun heq => hid heq.symm),
          iff_of_false (Option.some_ne_none t).symm h, fun x hx => ?_⟩
        obtain rfl := List.mem_singleton.1 hx
        exact fun hc => hid (Option.some.inj hc)

/-- **An operation leaves alone the targets it is not about.** -/
theorem frame_of_not_concerns (sqrt : ℚ → ℚ) (op : ManagerOp) (hpending : Pending t m)
    (hforeign : Foreign m op) (h : ¬ Concerns t m op) : Frame t m (op.act sqrt m) := by
  cases op with
  | detectTarget senses clock location confidence =>
      change Frame t m (m.detectTarget sqrt senses clock location confidence)
      unfold TargetManager.detectTarget
      split
      · exact .refl t m
      · dsimp only
        split
        · exact .refl t m
        · exact .createAndAnnounceTarget m sqrt senses clock h _ _ _ _
  | handleMessage senses clock sender message =>
      have hne {id : Str} (hid : message.target? = some id) : id ≠ t := by
        rintro rfl
        exact h hid
      cases message with
      | victimDetected location confidence =>
          simp only [ManagerOp.act, TargetManager.handleMessage]
          cases hplace : locationOf location with
          | none => exact .refl t m
          | some place =>
              have hkey : victimId (locationKey place) ≠ t :=
                hne (congrArg (Option.map fun place => victimId (locationKey place)) hplace)
              dsimp only
              unfold TargetManager.ingestPeerVictimDetection
              split
              · exact .refl t m
              · dsimp only
                split
                · exact .refl t m
                · exact .createAndAnnounceTarget m sqrt senses clock hkey _ _ _ m.reportedKeys
      | targetAnnouncement dict =>
          change Frame t m (m.handleAnnouncement sqrt senses clock dict)
          unfold TargetManager.handleAnnouncement
          dsimp only
          split
          · exact .refl t m
          · exact .put_tryClaim m (hne rfl) sqrt senses clock
      | targetUpdate dict =>
          change Frame t m (m.handleUpdate sqrt senses clock dict)
          unfold TargetManager.handleUpdate
          split
          · exact .refl t m
          · exact .put_tryClaim m (hne rfl) sqrt senses clock
      | targetClaim targetId distance claimant =>
          exact .applyClaim m distance clock.assigned (hne rfl) hforeign
      | targetResolved targetId =>
          refine ⟨(KeyedMap.get?_erase _ _ _).trans (if_neg (Ne.symm (hne rfl))), ?_,
            fun _ hx => by cases hx⟩
          change (if m.claimedTarget = some targetId then none else m.claimedTarget) = some t ↔ _
          by_cases hc : m.claimedTarget = some targetId
          · rw [if_pos hc, hc]
            refine iff_of_false (Option.some_ne_none t).symm fun heq => ?_
            exact hne rfl (Option.some.inj heq)
          · rw [if_neg hc]
  | tick now =>
      refine .tick hpending fun target htarget => ?_
      exact Bool.eq_false_iff.2 fun hstale => h ⟨target, htarget, hstale⟩
  | reachedTarget => exact .reachedTarget h

/-! ### What an operation does to its target -/

/-- An attempt to claim a target that is in the table: nothing happens, or the drone says that it
claims the target and is assigned to it. -/
inductive Attempt (t : Str) (m : TargetManager) (target : Target) :
    List Message × TargetManager → Prop
  | passes {m' : TargetManager} (hget : m'.targets.get? t = some target)
      (hclaimed : m'.claimedTarget = m.claimedTarget) : Attempt t m target ([], m')
  | claims {m' : TargetManager} (distance now : ℚ)
      (hget : m'.targets.get? t = some (assigned target m.myId distance now))
      (hclaimed : m'.claimedTarget = some t) :
      Attempt t m target ([.targetClaim t distance m.myId], m')

theorem attempt_tryClaim {target : Target} (h : m.targets.get? t = some target) (sqrt : ℚ → ℚ)
    (senses : Senses) (clock : Clock) : Attempt t m target (m.tryClaim sqrt senses clock t) := by
  rcases tryClaim_cases m sqrt senses clock t with heq | ⟨target', ht', _, _, _, heq⟩
  · rw [heq]
    exact .passes h rfl
  · obtain rfl := Option.some.inj (h.symm.trans ht')
    have hid : target.id = t := KeyedMap.key_of_get? h
    rw [heq]
    exact .claims _ clock.assigned ((KeyedMap.get?_put _ _ _).trans (if_pos hid.symm)) rfl

/-- An attempt depends on the drone and on what it has claimed. -/
theorem Attempt.congr {m₁ : TargetManager} {target : Target} {r : List Message × TargetManager}
    (h : Attempt t m₁ target r) (hid : m₁.myId = m.myId)
    (hclaimed : m₁.claimedTarget = m.claimedTarget) : Attempt t m target r := by
  cases h with
  | passes hget hcl => exact .passes hget (hcl.trans hclaimed)
  | claims distance now hget hcl =>
      rw [hid] at hget ⊢
      exact .claims distance now hget hcl

/-- A new target is entered and announced, and the drone may claim it. -/
def Learns (t : Str) (m : TargetManager) (r : List Message × TargetManager) : Prop :=
  ¬ Knows t m ∧ ∃ (target : Target) (claims : List Message), target.id = t ∧
    target.status = ("pending" : Str) ∧ target.assignedTo = none ∧ target.assignedDistance = none ∧
    r.1 = .targetAnnouncement target.toDict :: claims ∧ Attempt t m target (claims, r.2)

theorem learns_createAndAnnounceTarget (h : ¬ Knows t m) (sqrt : ℚ → ℚ) (senses : Senses)
    (clock : Clock) (location : Location) (confidence : ℚ) (reportedBy : Str) (keys : List Str) :
    Learns t m ({ m with reportedKeys := keys }.createAndAnnounceTarget sqrt senses clock t location
      confidence reportedBy) := by
  let target : Target :=
    ⟨t, location, clock.created, confidence, reportedBy, "pending", none, none, none⟩
  have hattempt := attempt_tryClaim (m := { m with
    reportedKeys := keys, targets := m.targets.put target }) (KeyedMap.get?_put_self _ target)
    sqrt senses clock
  exact ⟨h, target, _, rfl, rfl, rfl, rfl, rfl, hattempt.congr rfl rfl⟩

/-- **A target that is detected** is entered, unless it is known or was reported already. -/
theorem act_detectTarget_cases (m : TargetManager) (sqrt : ℚ → ℚ) (senses : Senses) (clock : Clock)
    (location : Location) (confidence : ℚ) :
    m.detectTarget sqrt senses clock location confidence = ([], m) ∨
      Learns (victimId (locationKey location)) m
        (m.detectTarget sqrt senses clock location confidence) := by
  unfold TargetManager.detectTarget
  split
  · exact Or.inl rfl
  · dsimp only
    split
    · exact Or.inl rfl
    · next hnew =>
        have hnew := fun h => hnew (Or.inl h)
        exact Or.inr (learns_createAndAnnounceTarget hnew sqrt senses clock location confidence
          m.myId _)

/-- **A target that others have detected** is entered, unless it is known. -/
theorem act_victimDetected_cases (m : TargetManager) (sqrt : ℚ → ℚ) (senses : Senses)
    (clock : Clock) (sender : Str) (location : Location) (confidence : ℚ) :
    m.ingestPeerVictimDetection sqrt senses clock sender location confidence = ([], m) ∨
      Learns (victimId (locationKey location)) m
        (m.ingestPeerVictimDetection sqrt senses clock sender location confidence) := by
  unfold TargetManager.ingestPeerVictimDetection
  split
  · exact Or.inl rfl
  · dsimp only
    split
    · exact Or.inl rfl
    · next hnew =>
        exact Or.inr (learns_createAndAnnounceTarget hnew sqrt senses clock location confidence
          sender m.reportedKeys)

/-- What happens at a drone apart from messages of other managers: it finds the target, or it acts
on a target that it knows. -/
theorem act_event_cases (F : Fleet) (d : Str) (event : Event)
    (h : Concerns t m (F.op (.act d event))) :
    (F.op (.act d event)).act F.sqrt m = ([], m) ∨
      Learns t m ((F.op (.act d event)).act F.sqrt m) ∨
      (∃ now, event = .tick now) ∨ event = .reachedTarget := by
  cases event with
  | detectTarget role clock location confidence =>
      obtain rfl : victimId (locationKey location) = t := h
      exact (act_detectTarget_cases m F.sqrt _ clock location confidence).imp_right Or.inl
  | victimDetected role clock sender location confidence =>
      simp only [Fleet.op, ManagerOp.act, TargetManager.handleMessage]
      cases hplace : locationOf location with
      | none => exact Or.inl rfl
      | some place =>
          obtain rfl : victimId (locationKey place) = t := by
            simpa [Concerns, Fleet.op, Message.target?, hplace] using h
          exact (act_victimDetected_cases m F.sqrt _ clock sender place _).imp_right Or.inl
  | tick now => exact Or.inr (Or.inr (Or.inl ⟨now, rfl⟩))
  | reachedTarget => exact Or.inr (Or.inr (Or.inr rfl))

/-- **An announcement** enters a target that is not known, and the drone may claim it. -/
theorem act_announcement_cases (m : TargetManager) (sqrt : ℚ → ℚ) (senses : Senses) (clock : Clock)
    (dict : TargetDict) :
    (Knows dict.id m ∧ m.handleAnnouncement sqrt senses clock dict = ([], m)) ∨
      (¬ Knows dict.id m ∧ Attempt dict.id m (Target.fromDict dict)
        (m.handleAnnouncement sqrt senses clock dict)) := by
  unfold TargetManager.handleAnnouncement
  dsimp only
  split
  · next hknown => exact Or.inl ⟨hknown, rfl⟩
  · next hnew =>
      refine Or.inr ⟨hnew, ?_⟩
      have hattempt := attempt_tryClaim (m := { m with
        targets := m.targets.put (Target.fromDict dict) }) (KeyedMap.get?_put_self _ _)
        sqrt senses clock
      exact hattempt.congr rfl rfl

/-! ### The drone of a manager -/

@[simp] theorem applyClaim_myId (m : TargetManager) (targetId : Str) (distance : ℚ)
    (claimant : Str) (now : ℚ) : (m.applyClaim targetId distance claimant now).myId = m.myId := by
  unfold TargetManager.applyClaim
  split
  · rfl
  · split
    · rfl
    · split <;> rfl

@[simp] theorem tryClaim_myId (m : TargetManager) (sqrt : ℚ → ℚ) (senses : Senses) (clock : Clock)
    (targetId : Str) : (m.tryClaim sqrt senses clock targetId).2.myId = m.myId := by
  rcases tryClaim_cases m sqrt senses clock targetId with heq | ⟨_, _, _, _, _, heq⟩ <;> rw [heq]

@[simp] theorem tick_myId (m : TargetManager) (now : ℚ) : (m.tick now).2.myId = m.myId := by
  refine List.foldlRecOn (motive := fun r : List Message × TargetManager => r.2.myId = m.myId) _ _
    rfl fun r hr tid _ => Eq.trans ?_ hr
  change (r.2.reclaim tid).2.myId = r.2.myId
  unfold TargetManager.reclaim
  split <;> rfl

/-- An operation leaves a manager with its drone. -/
@[simp] theorem act_myId (sqrt : ℚ → ℚ) (m : TargetManager) (op : ManagerOp) :
    (op.act sqrt m).2.myId = m.myId := by
  cases op with
  | detectTarget senses clock location confidence =>
      simp only [ManagerOp.act, TargetManager.detectTarget]
      split
      · rfl
      · split
        · rfl
        · exact tryClaim_myId _ sqrt senses clock _
  | handleMessage senses clock sender message =>
      cases message with
      | victimDetected location confidence =>
          simp only [ManagerOp.act, TargetManager.handleMessage,
            TargetManager.ingestPeerVictimDetection]
          split
          · split
            · rfl
            · split
              · rfl
              · exact tryClaim_myId _ sqrt senses clock _
          · rfl
      | targetAnnouncement dict =>
          simp only [ManagerOp.act, TargetManager.handleMessage, TargetManager.handleAnnouncement]
          split
          · rfl
          · exact tryClaim_myId _ sqrt senses clock _
      | targetUpdate dict =>
          simp only [ManagerOp.act, TargetManager.handleMessage, TargetManager.handleUpdate]
          split
          · rfl
          · exact tryClaim_myId _ sqrt senses clock _
      | targetClaim targetId distance claimant => exact applyClaim_myId m _ _ _ _
      | targetResolved targetId => rfl
  | tick now => exact tick_myId m now
  | reachedTarget =>
      simp only [ManagerOp.act, TargetManager.reachedTarget]
      split
      · rfl
      · split <;> rfl

/-! ### What the managers of a fleet say -/

/-- A message that a manager sends: the records in it are pending, and a claim is its own. -/
def Message.Tame (d : Str) : Message → Prop
  | .targetAnnouncement dict => dict.status = some ("pending" : Str)
  | .targetUpdate dict => dict.status = some ("pending" : Str)
  | .targetClaim _ _ claimant => claimant = d
  | _ => True

theorem status_fromDict {dict : TargetDict} (h : dict.status = some ("pending" : Str)) :
    (Target.fromDict dict).status = ("pending" : Str) := by
  rw [Target.fromDict, h]
  rfl

/-- A result keeps all targets pending and says what a manager says. -/
def Tame (m : TargetManager) (r : List Message × TargetManager) : Prop :=
  (∀ t, Pending t r.2) ∧ ∀ x ∈ r.1, x.Tame m.myId

theorem Tame.refl (h : ∀ t, Pending t m) : Tame m ([], m) := ⟨h, fun _ hx => by cases hx⟩

theorem Pending.put (h : ∀ t, Pending t m) {target : Target}
    (htarget : target.status = ("pending" : Str)) (t : Str) :
    Pending t { m with targets := m.targets.put target } := by
  intro target' ht'
  rw [KeyedMap.get?_put] at ht'
  split at ht'
  · obtain rfl := Option.some.inj ht'
    exact htarget
  · exact h t target' ht'

theorem Pending.erase (h : ∀ t, Pending t m) (tid t : Str) :
    Pending t { m with targets := m.targets.erase tid } := by
  intro target' ht'
  rw [KeyedMap.get?_erase] at ht'
  split at ht'
  · cases ht'
  · exact h t target' ht'

theorem Tame.applyClaim (h : ∀ t, Pending t m) (targetId : Str) (distance : ℚ) (claimant : Str)
    (now : ℚ) : Tame m ([], m.applyClaim targetId distance claimant now) := by
  refine ⟨fun t => ?_, fun _ hx => by cases hx⟩
  unfold TargetManager.applyClaim
  split
  · exact h t
  · next target ht =>
      split
      · exact h t
      · next hp =>
          split
          · exact @Pending.put m h (assigned target claimant distance now) (not_not.1 hp) t
          · exact h t

theorem Tame.tryClaim (h : ∀ t, Pending t m) (sqrt : ℚ → ℚ) (senses : Senses) (clock : Clock)
    (targetId : Str) : Tame m (m.tryClaim sqrt senses clock targetId) := by
  rcases tryClaim_cases m sqrt senses clock targetId with heq | ⟨target, _, hp, _, _, heq⟩
  · rw [heq]
    exact .refl h
  · rw [heq]
    refine ⟨@Pending.put m h (assigned target _ _ _) hp, fun x hx => ?_⟩
    obtain rfl := List.mem_singleton.1 hx
    rfl

/-- A record that is entered, and an attempt to claim its target. -/
theorem Tame.put_tryClaim (h : ∀ t, Pending t m) {target : Target}
    (htarget : target.status = ("pending" : Str)) (sqrt : ℚ → ℚ) (senses : Senses) (clock : Clock)
    (keys : List Str) :
    Tame m (TargetManager.tryClaim
      { m with targets := m.targets.put target, reportedKeys := keys } sqrt senses clock
      target.id) :=
  Tame.tryClaim (m := { m with targets := m.targets.put target, reportedKeys := keys })
    (Pending.put h htarget) sqrt senses clock target.id

theorem Tame.say {r : List Message × TargetManager} (h : Tame m r) {x : Message}
    (hx : x.Tame m.myId) : Tame m (x :: r.1, r.2) := by
  refine ⟨h.1, fun y hy => ?_⟩
  rcases List.mem_cons.1 hy with rfl | hy
  · exact hx
  · exact h.2 y hy

theorem Tame.tick (h : ∀ t, Pending t m) (now : ℚ) : Tame m (m.tick now) := by
  have hr : Tame m (((m.targets.values.filter (stale now)).map (·.id)).foldl (fun r tid =>
      ((r.1 ++ (r.2.reclaim tid).1 : List Message), (r.2.reclaim tid).2)) ([], m)) := by
    refine List.foldlRecOn (motive := Tame m) _ _ (.refl h) fun r hr tid _ => ?_
    unfold TargetManager.reclaim
    split
    · exact ⟨hr.1, fun x hx => hr.2 x (by simpa using hx)⟩
    · next target ht =>
        have hp := hr.1 tid target ht
        refine ⟨Pending.put hr.1 hp, fun x hx => ?_⟩
        rcases List.mem_append.1 hx with hx | hx
        · exact hr.2 x hx
        · obtain rfl := List.mem_singleton.1 hx
          exact congrArg some hp
  refine ⟨fun t => ?_, hr.2⟩
  have hclean := Pending.of_frame (hr.1 t) (Frame.cleanupOldResolved (hr.1 t) now)
  exact hclean

/-- **Every operation keeps all targets pending** and says what a manager says, if the records it is
told of are pending. -/
theorem Tame.act (h : ∀ t, Pending t m) (sqrt : ℚ → ℚ) {op : ManagerOp}
    (hop : ∀ senses clock sender x, op = .handleMessage senses clock sender x →
      ∃ d, x.Tame d) : Tame m (op.act sqrt m) := by
  cases op with
  | detectTarget senses clock location confidence =>
      simp only [ManagerOp.act, TargetManager.detectTarget]
      split
      · exact .refl h
      · split
        · exact .refl h
        · exact Tame.say (.put_tryClaim h rfl sqrt senses clock _) rfl
  | handleMessage senses clock sender message =>
      obtain ⟨d, hd⟩ := hop senses clock sender message rfl
      cases message with
      | victimDetected location confidence =>
          simp only [ManagerOp.act, TargetManager.handleMessage,
            TargetManager.ingestPeerVictimDetection]
          split
          · split
            · exact .refl h
            · split
              · exact .refl h
              · exact Tame.say (.put_tryClaim h rfl sqrt senses clock m.reportedKeys) rfl
          · exact .refl h
      | targetAnnouncement dict =>
          have hp : (Target.fromDict dict).status = ("pending" : Str) := status_fromDict hd
          simp only [ManagerOp.act, TargetManager.handleMessage, TargetManager.handleAnnouncement]
          split
          · exact .refl h
          · exact .put_tryClaim h hp sqrt senses clock m.reportedKeys
      | targetUpdate dict =>
          have hp : (Target.fromDict dict).status = ("pending" : Str) := status_fromDict hd
          simp only [ManagerOp.act, TargetManager.handleMessage, TargetManager.handleUpdate]
          split
          · exact .refl h
          · exact .put_tryClaim h hp sqrt senses clock m.reportedKeys
      | targetClaim targetId distance claimant => exact .applyClaim h _ _ _ _
      | targetResolved targetId => exact ⟨Pending.erase h targetId, fun _ hx => by cases hx⟩
  | tick now => exact .tick h now
  | reachedTarget =>
      simp only [ManagerOp.act, TargetManager.reachedTarget]
      split
      · exact .refl h
      · split
        · exact ⟨h, fun _ hx => by cases hx⟩
        · refine ⟨Pending.erase h _, fun x hx => ?_⟩
          obtain rfl := List.mem_singleton.1 hx
          trivial

/-- What holds of a fleet all along. -/
structure Sane (F : Fleet) (w : World Str TargetManager Message) : Prop where
  myId : ∀ d, (w.nodes d).myId = d
  pending : ∀ d t, Pending t (w.nodes d)
  receiver : ∀ e ∈ w.inFlight, e.receiver ∈ F.ids ∧ e.receiver ≠ e.sender
  tame : ∀ e ∈ w.inFlight, e.message.Tame e.sender

theorem sane_newWorld (F : Fleet) : Sane F newWorld where
  myId _ := rfl
  pending _ _ _ h := by cases h
  receiver _ h := by cases h
  tame _ h := by cases h

theorem Sane.tame_act (h : Sane F w) (hmv : F.protocol.Enabled w mv) :
    Tame (w.nodes mv.node) ((F.op mv).act F.sqrt (w.nodes mv.node)) := by
  refine .act (h.pending mv.node) F.sqrt fun senses clock sender x hop => ?_
  cases mv with
  | act d event =>
      cases event with
      | victimDetected role clock' sender' location confidence =>
          cases hop
          exact ⟨d, trivial⟩
      | detectTarget => cases hop
      | tick => cases hop
      | reachedTarget => cases hop
  | deliver e reading =>
      cases hop
      exact ⟨e.sender, h.tame e hmv⟩

/-- **A fleet stays sane.** -/
theorem Sane.step (h : Sane F w) (hstep : F.protocol.step w mv = some w') : Sane F w' := by
  have hen := (Protocol.step_eq_some.1 hstep).1
  have hact := h.tame_act hen
  have hsent {e : Envelope Str Message} (he : e ∈ F.protocol.sent w mv) := by
    rw [Fleet.sent_eq] at he
    exact mem_broadcast.1 he
  constructor
  · intro d
    by_cases hd : d = mv.node
    · rw [hd, Protocol.nodes_step hstep, Fleet.after_eq, act_myId]
      exact h.myId _
    · rw [Protocol.nodes_step_of_ne hstep hd]
      exact h.myId d
  · intro d t
    by_cases hd : d = mv.node
    · rw [hd, Protocol.nodes_step hstep, Fleet.after_eq]
      exact hact.1 t
    · rw [Protocol.nodes_step_of_ne hstep hd]
      exact h.pending d t
  · intro e he
    rcases Protocol.mem_inFlight_step hstep he with he | he
    · exact h.receiver e he
    · obtain ⟨hs, hne, hr, -⟩ := hsent he
      exact ⟨hr, hs ▸ hne⟩
  · intro e he
    rcases Protocol.mem_inFlight_step hstep he with he | he
    · exact h.tame e he
    · obtain ⟨hs, -, -, hx⟩ := hsent he
      rw [hs, ← h.myId mv.node]
      exact hact.2 _ hx

/-- No drone is told of a claim of its own. -/
theorem Sane.foreign (h : Sane F w) (hmv : F.protocol.Enabled w mv) :
    Foreign (w.nodes mv.node) (F.op mv) := by
  cases mv with
  | act d event => cases event <;> trivial
  | deliver e reading =>
      have htame := h.tame e hmv
      have hne := (h.receiver e hmv).2
      cases hx : e.message with
      | targetClaim targetId distance claimant =>
          rw [hx] at htame
          obtain rfl : claimant = e.sender := htame
          simp only [Fleet.op, hx, Foreign]
          rw [h.myId]
          exact hne.symm
      | victimDetected => simp only [Fleet.op, hx, Foreign]
      | targetAnnouncement => simp only [Fleet.op, hx, Foreign]
      | targetUpdate => simp only [Fleet.op, hx, Foreign]
      | targetResolved => simp only [Fleet.op, hx, Foreign]

/-- A move that is not about a target leaves it alone. -/
theorem Sane.frame (h : Sane F w) (hmv : F.protocol.Enabled w mv)
    (hother : ¬ Concerns t (w.nodes mv.node) (F.op mv)) :
    Frame t (w.nodes mv.node) ((F.op mv).act F.sqrt (w.nodes mv.node)) :=
  frame_of_not_concerns F.sqrt (F.op mv) (h.pending mv.node t) (h.foreign hmv) hother

end Targets
