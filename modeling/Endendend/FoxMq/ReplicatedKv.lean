/-
**The replicated store of the tabs of a browser** (`lib/foxmq/replicatedKv.ts`).

Every tab has a replica of one bucket.  A write changes the bucket of the tab, saves it in the
storage that all tabs share and sends the whole bucket to the other tabs; a bucket that comes in
replaces the one at hand.  So a write to one key carries what its tab knows of all the others: made
at a tab that has not heard of the newest write, it undoes that write wherever it arrives.

Nothing is lost as long as the tabs keep in step with the storage: a tab writes only when its bucket
is the stored one, and no delivery takes a tab back behind the stored bucket unless that bucket is
still on its way to the tab.

Main definitions:

* `FoxMq.Tabs` — the replicas, the storage and the messages on their way;
* `FoxMq.Tabs.step` — writes at any tab and deliveries, in the order in which a tab has sent;
* `FoxMq.Tabs.InStep` — a step that keeps the tabs in step with the storage.

Main results:

* `FoxMq.covered_step` — every tab has the stored bucket or is about to receive it;
* `FoxMq.sharedBucket_of_run` — **without lost updates** as long as the tabs keep in step.
-/
import Endendend.Foundation.OwnKeys
import Endendend.Foundation.Runs
import Mathlib.Logic.Function.Basic

set_option relaxedAutoImplicit false
set_option autoImplicit false

namespace FoxMq

open Js Runs

abbrev StoredBucket := OrderedMap Str Str

/-- What a caller changes. -/
inductive KvWrite
  | set (key value : Str)
  | deleteKey (key : Str)
  | clear

/-- The bucket after a change. -/
def KvWrite.apply (bucket : StoredBucket) : KvWrite → StoredBucket
  | set key value => bucket.set key value
  | deleteKey key => bucket.erase key
  | clear => ∅

/-- Does a change concern a key? -/
def KvWrite.Touches (k : Str) : KvWrite → Prop
  | set key _ => key = k
  | deleteKey key => key = k
  | clear => True

/-- The two ways by which a tab hears of a write. -/
inductive KvPath
  | broadcast
  | storage
  deriving DecidableEq

/-- A bucket on its way to a tab. -/
structure KvMessage (ι : Type*) where
  sender : ι
  receiver : ι
  path : KvPath
  bucket : StoredBucket

/-- The tabs of a browser.  `fires` says whether replacing the stored bucket by another one raises a
storage event in the other tabs. -/
structure Browser (ι : Type*) where
  members : List ι
  fires : StoredBucket → StoredBucket → Bool

structure Tabs (ι : Type*) where
  buckets : ι → StoredBucket
  stored : StoredBucket
  inFlight : List (KvMessage ι)

inductive KvMove (ι : Type*)
  | write (tab : ι) (change : KvWrite)
  | deliver (sender receiver : ι) (path : KvPath)

variable {ι : Type*} [DecidableEq ι]

/-- Is a message the one that a delivery may take? -/
def KvMessage.onRoute (sender receiver : ι) (path : KvPath) (e : KvMessage ι) : Bool :=
  decide (e.sender = sender ∧ e.receiver = receiver ∧ e.path = path)

/-- The messages of a write: the broadcast, and the storage event if there is one. -/
def announcements (b : Browser ι) (tab : ι) (old bucket : StoredBucket) : List (KvMessage ι) :=
  (b.members.filter (· ≠ tab)).flatMap fun receiver =>
    ⟨tab, receiver, .broadcast, bucket⟩ ::
      if b.fires old bucket then [⟨tab, receiver, .storage, bucket⟩] else []

namespace Tabs

variable (b : Browser ι) (s : Tabs ι)

/-- All tabs have loaded the stored bucket. -/
def start (stored : StoredBucket) : Tabs ι := ⟨fun _ => stored, stored, []⟩

def step : KvMove ι → Option (Tabs ι)
  | .write tab change =>
      if tab ∈ b.members then
        let bucket := change.apply (s.buckets tab)
        some
          { buckets := Function.update s.buckets tab bucket
            stored := bucket
            inFlight := s.inFlight ++ announcements b tab s.stored bucket }
      else none
  | .deliver sender receiver path =>
      (s.inFlight.find? (·.onRoute sender receiver path)).map fun e =>
        { s with
          buckets := Function.update s.buckets receiver e.bucket
          inFlight := s.inFlight.eraseP (·.onRoute sender receiver path) }

/-- A message brings the stored bucket to a tab. -/
def Brings (tab : ι) (e : KvMessage ι) : Prop := e.receiver = tab ∧ e.bucket = s.stored

/-- **The tabs keep in step with the storage**: a tab that writes has the stored bucket, and a
message that does not bring the stored bucket is delivered only if another one to the tab still
does. -/
def InStep : KvMove ι → Prop
  | .write tab _ => s.buckets tab = s.stored
  | .deliver sender receiver path =>
      ∀ e, s.inFlight.find? (·.onRoute sender receiver path) = some e → e.bucket = s.stored ∨
        ∃ e' ∈ s.inFlight.eraseP (·.onRoute sender receiver path), s.Brings receiver e'

/-- Every tab has the stored bucket or is about to receive it. -/
def Covered : Prop :=
  ∀ tab ∈ b.members, s.buckets tab = s.stored ∨ ∃ e ∈ s.inFlight, s.Brings tab e

end Tabs

open Tabs

/-! ### The tabs stay covered -/

variable {b : Browser ι} {s s' : Tabs ι}

theorem mem_announcements {tab receiver : ι} {old bucket : StoredBucket}
    (hmem : receiver ∈ b.members) (hne : receiver ≠ tab) :
    ⟨tab, receiver, .broadcast, bucket⟩ ∈ announcements b tab old bucket :=
  List.mem_flatMap.2
    ⟨receiver, List.mem_filter.2 ⟨hmem, decide_eq_true hne⟩, List.mem_cons_self⟩

/-- **A step that keeps the tabs in step leaves them covered.** -/
theorem covered_step (h : s.Covered b) {mv : KvMove ι} (hmv : s.InStep mv)
    (hstep : s.step b mv = some s') : s'.Covered b := by
  cases mv with
  | write tab change =>
      rw [Tabs.step] at hstep
      split_ifs at hstep
      obtain rfl := Option.some.inj hstep
      intro r hr
      by_cases hrt : r = tab
      · subst hrt
        exact Or.inl (Function.update_self ..)
      · -- every other tab is sent the bucket that is stored now
        exact Or.inr ⟨_, List.mem_append_right _ (mem_announcements hr hrt), rfl, rfl⟩
  | deliver sender receiver path =>
      obtain ⟨e, he, rfl⟩ := Option.map_eq_some_iff.1 hstep
      intro r hr
      by_cases hrr : r = receiver
      · subst hrr
        refine (hmv e he).imp (fun heq => ?_) id
        exact (Function.update_self ..).trans heq
      · refine (h r hr).imp (fun heq => ?_) ?_
        · exact (Function.update_of_ne hrr ..).trans heq
        · rintro ⟨e', he', hbrings⟩
          refine ⟨e', (List.mem_eraseP_of_neg ?_).2 he', hbrings⟩
          -- the message that is taken goes to another tab
          simp [KvMessage.onRoute, hbrings.1, hrr]

theorem covered_of_run {stored : StoredBucket} {moves : List (KvMove ι)}
    (h : run (Tabs.step b) (start stored) moves = some s)
    (hmoves : Along (Tabs.step b) InStep (start stored) moves) : s.Covered b :=
  invariant_along (fun _ _ _ hs hmv hstep => covered_step hs hmv hstep)
    (fun _ _ => Or.inl rfl) hmoves h

/-! ### The stored bucket -/

/-- A change that does not concern a key leaves its value. -/
theorem get?_apply_of_not_touches {bucket : StoredBucket} {change : KvWrite} {k : Str}
    (h : ¬ change.Touches k) : (change.apply bucket).get? k = bucket.get? k := by
  cases change with
  | set key value => exact (bucket.get?_set ..).trans (if_neg fun hk => h hk.symm)
  | deleteKey key => exact (bucket.get?_erase ..).trans (if_neg fun hk => h hk.symm)
  | clear => exact absurd trivial h

/-- Does a move change a key? -/
def KvMove.Touches (k : Str) : KvMove ι → Prop
  | .write _ change => change.Touches k
  | .deliver _ _ _ => False

/-- **The stored value of a key stays** until the key is changed, while the tabs are in step. -/
theorem stored_step {k : Str} {mv : KvMove ι} (hmv : s.InStep mv) (hk : ¬ mv.Touches k)
    (hstep : s.step b mv = some s') : s'.stored.get? k = s.stored.get? k := by
  cases mv with
  | write tab change =>
      rw [Tabs.step] at hstep
      split_ifs at hstep
      obtain rfl := Option.some.inj hstep
      exact (get?_apply_of_not_touches hk).trans (congrArg (·.get? k) hmv)
  | deliver sender receiver path =>
      obtain ⟨e, -, rfl⟩ := Option.map_eq_some_iff.1 hstep
      rfl

theorem stored_of_run {k : Str} {moves : List (KvMove ι)} (h : run (Tabs.step b) s moves = some s')
    (hmoves : Along (Tabs.step b) InStep s moves) (hk : ∀ mv ∈ moves, ¬ mv.Touches k) :
    s'.stored.get? k = s.stored.get? k := by
  induction moves generalizing s with
  | nil => rw [Option.some.inj h]
  | cons mv moves ih =>
      obtain ⟨s₁, h₁, h⟩ := run_cons.1 h
      rw [ih h (hmoves.2 s₁ h₁) fun mv' hmv' => hk mv' (List.mem_cons_of_mem _ hmv')]
      exact stored_step hmoves.1 (hk mv List.mem_cons_self) h₁

/-! ### Runs -/

/-- **No update is lost** as long as the tabs keep in step: when nothing is on its way, all tabs
have the same bucket, and a key that was set and not changed since has its value at all of them. -/
theorem sharedBucket_of_run {stored : StoredBucket} {moves : List (KvMove ι)}
    (h : run (Tabs.step b) (start stored) moves = some s)
    (hmoves : Along (Tabs.step b) InStep (start stored) moves) (hquiet : s.inFlight = []) :
    (∀ tab ∈ b.members, ∀ tab' ∈ b.members, s.buckets tab = s.buckets tab') ∧
      ∀ pre tab key value post, moves = pre ++ .write tab (.set key value) :: post →
        (∀ mv ∈ post, ¬ mv.Touches key) →
          ∀ tab' ∈ b.members, (s.buckets tab').get? key = some value := by
  -- with nothing in flight a tab that is covered has the stored bucket
  have hstored : ∀ tab ∈ b.members, s.buckets tab = s.stored := by
    intro tab htab
    refine (covered_of_run h hmoves tab htab).resolve_right ?_
    rintro ⟨e, he, -⟩
    rw [hquiet] at he
    cases he
  refine ⟨fun tab htab tab' htab' => (hstored tab htab).trans (hstored tab' htab').symm, ?_⟩
  intro pre tab key value post hsplit hpost tab' htab'
  subst hsplit
  obtain ⟨s₁, hpre, hrest⟩ := run_append.1 h
  obtain ⟨s₂, hset, hrest⟩ := run_cons.1 hrest
  -- the write puts the value into the storage, where it stays
  have hvalue : s₂.stored.get? key = some value := by
    rw [Tabs.step] at hset
    split_ifs at hset
    obtain rfl := Option.some.inj hset
    exact OrderedMap.get?_set_self ..
  have hpostmoves : Along (Tabs.step b) InStep s₂ post := (hmoves.of_append hpre).2 s₂ hset
  rw [hstored tab' htab', stored_of_run hrest hpostmoves hpost, hvalue]

/-- Two tabs; the storage raises no event. -/
def twoTabs : Browser ℕ := ⟨[0, 1], fun _ _ => false⟩

/-- The second tab writes after it has heard of the write of the first one. -/
def writesInTurn : List (KvMove ℕ) :=
  [.write 0 (.set (lit "role") (lit "relay")), .deliver 0 1 .broadcast,
    .write 1 (.set (lit "depth") (lit "8")), .deliver 1 0 .broadcast]

/-- Both writes arrive when the tabs write in turn. -/
theorem sharedBucket_of_run_writesInTurn :
    ∃ s, run (Tabs.step twoTabs) (start ∅) writesInTurn = some s ∧
      s.buckets 0 = s.buckets 1 ∧ (s.buckets 0).get? (lit "depth") = some (lit "8") := by
  obtain ⟨s, hs⟩ : ∃ s, run (Tabs.step twoTabs) (start ∅) writesInTurn = some s :=
    Option.isSome_iff_exists.1 (by decide +kernel)
  have hquiet : ∀ s ∈ run (Tabs.step twoTabs) (start ∅) writesInTurn, s.inFlight.length = 0 := by
    decide +kernel
  have hmoves : Along (Tabs.step twoTabs) InStep (start ∅) writesInTurn := by
    refine ⟨rfl, ?_⟩
    rintro _ ⟨⟩
    refine ⟨?_, ?_⟩
    · rintro _ ⟨⟩
      exact Or.inl rfl
    rintro _ ⟨⟩
    refine ⟨rfl, ?_⟩
    rintro _ ⟨⟩
    refine ⟨?_, fun _ _ => trivial⟩
    rintro _ ⟨⟩
    exact Or.inl rfl
  have h := sharedBucket_of_run hs hmoves (List.length_eq_zero_iff.1 (hquiet s hs))
  refine ⟨s, hs, h.1 0 (by decide) 1 (by decide), ?_⟩
  exact h.2 [.write 0 (.set (lit "role") (lit "relay")), .deliver 0 1 .broadcast] 1 _ _
    [.deliver 1 0 .broadcast] rfl (by simp [KvMove.Touches]) 0 (by decide)

/-- Both tabs write before they have heard of each other. -/
def crossingWrites : List (KvMove ℕ) :=
  [.write 0 (.set (lit "role") (lit "relay")), .write 1 (.set (lit "depth") (lit "8")),
    .deliver 0 1 .broadcast, .deliver 1 0 .broadcast]

/-- Each tab ends without its own write, which no other operation concerns. -/
theorem lost_update_crossingWrites :
    ∃ s, run (Tabs.step twoTabs) (start ∅) crossingWrites = some s ∧ s.inFlight = [] ∧
      s.buckets 0 ≠ s.buckets 1 ∧
      (s.buckets 0).get? (lit "role") = none ∧ (s.buckets 1).get? (lit "depth") = none := by
  obtain ⟨s, hs⟩ : ∃ s, run (Tabs.step twoTabs) (start ∅) crossingWrites = some s :=
    Option.isSome_iff_exists.1 (by decide +kernel)
  have hfacts : ∀ s ∈ run (Tabs.step twoTabs) (start ∅) crossingWrites, s.inFlight.length = 0 ∧
      (s.buckets 0).get? (lit "role") = none ∧ (s.buckets 1).get? (lit "depth") = none ∧
      (s.buckets 1).get? (lit "role") = some (lit "relay") := by
    decide +kernel
  obtain ⟨hquiet, hrole, hdepth, hother⟩ := hfacts s hs
  refine ⟨s, hs, List.length_eq_zero_iff.1 hquiet, fun heq => ?_, hrole, hdepth⟩
  rw [heq, hother] at hrole
  cases hrole

end FoxMq
