/-
**Which checkpoint a reward cites.**

Each contribution of the reward manifest cites the last checkpoint up to it.  The last one is looked
up by its time, over all rows of the mission, and not by its place in the ledger.  So a checkpoint
that was appended later is cited if its time is no later, as it is within one millisecond, and one
that was appended before is passed over if its time is later.

Main definitions:

* `Settlement.precedingCheckpointHash` — the last checkpoint at or before a row, by its place;
* `Settlement.CitesPreceding` — every contribution of a manifest cites it;
* `Settlement.Timely` — where the times of the checkpoints agree with their places.

Main results:

* `Settlement.getLast?_filter_append`, `Settlement.of_getLast?_filter_append` — when the last
  element with a property of a list is the last element of its first part;
* `Settlement.cites_preceding_iff` — **the manifest cites the preceding checkpoints if the times
  agree with the places, and, where hashes tell rows apart, only then**;
* `Settlement.cites_later_checkpoint` — a checkpoint of the same millisecond that was appended after
  the contribution is cited.
-/
import Endendend.Settlement.TwoPaths

set_option relaxedAutoImplicit false
set_option autoImplicit false

namespace Settlement

open Js Vertex

/-! ### Lists -/

section Lists

variable {α : Type*} {p : α → Bool}

/-- The last element with a property is the last one of the first part, if that one has the property
and no element of the second part has it. -/
theorem getLast?_filter_append {A B : List α} (hB : ∀ x ∈ B, p x = false)
    (hA : ∀ x, A.getLast? = some x → p x = true) :
    ((A ++ B).filter p).getLast? = A.getLast? := by
  have hnone : B.filter p = [] := List.filter_eq_nil_iff.2 fun x hx => by simp [hB x hx]
  rw [List.filter_append, hnone, List.append_nil]
  cases A using List.reverseRecOn with
  | nil => rfl
  | append_singleton A x =>
      have hx : p x = true := hA x List.getLast?_concat
      rw [List.filter_append, List.filter_cons_of_pos hx, List.filter_nil, List.getLast?_concat,
        List.getLast?_concat]

/-- It is so in no other case, if the parts have no element in common. -/
theorem of_getLast?_filter_append {A B : List α} (hAB : A.Disjoint B)
    (h : ((A ++ B).filter p).getLast? = A.getLast?) :
    (∀ x ∈ B, p x = false) ∧ ∀ x, A.getLast? = some x → p x = true := by
  constructor
  · intro x hx
    by_contra hp
    have hmem : x ∈ B.filter p := List.mem_filter.2 ⟨hx, by simpa using hp⟩
    -- the last element with the property comes from the second part
    cases hlast : (B.filter p).getLast? with
    | none => exact List.not_mem_nil (List.getLast?_eq_none_iff.1 hlast ▸ hmem)
    | some y =>
        rw [List.filter_append, List.getLast?_append, hlast, Option.some_or] at h
        exact hAB (List.mem_of_getLast? h.symm) (List.mem_filter.1 (List.mem_of_getLast? hlast)).1
  · intro x hx
    exact (List.mem_filter.1 (List.mem_of_getLast? (h.trans hx))).2

/-- An element of a filtered list, at its place in the whole list. -/
theorem exists_split_of_getElem?_filter {l : List α} {j : ℕ} {a : α}
    (h : (l.filter p)[j]? = some a) :
    ∃ before after, l = before ++ a :: after ∧ p a = true ∧ before.countP p = j := by
  induction l generalizing j with
  | nil => simp at h
  | cons b l ih =>
      cases hb : p b with
      | false =>
          rw [List.filter_cons_of_neg (by simp [hb])] at h
          obtain ⟨before, after, rfl, ha, hj⟩ := ih h
          exact ⟨b :: before, after, rfl, ha, by rw [List.countP_cons_of_neg (by simp [hb]), hj]⟩
      | true =>
          rw [List.filter_cons_of_pos hb] at h
          cases j with
          | zero =>
              obtain rfl := Option.some.inj h
              exact ⟨[], l, rfl, hb, rfl⟩
          | succ j =>
              obtain ⟨before, after, rfl, ha, hj⟩ := ih h
              exact ⟨b :: before, after, rfl, ha, by rw [List.countP_cons_of_pos hb, hj]⟩

theorem getElem?_filter_split {before after : List α} {a : α} (ha : p a = true) :
    ((before ++ a :: after).filter p)[before.countP p]? = some a := by
  rw [List.filter_append, List.filter_cons_of_pos ha, List.countP_eq_length_filter]
  simp

/-- Two places of a list with the property, and as many elements with it before them, are one. -/
theorem split_unique_of_countP {before after before' after' : List α} {a a' : α}
    (h : before ++ a :: after = before' ++ a' :: after') (ha : p a = true) (ha' : p a' = true)
    (hcount : before.countP p = before'.countP p) : before = before' ∧ a = a' := by
  induction before generalizing before' with
  | nil =>
      cases before' with
      | nil => exact ⟨rfl, (List.cons.inj h).1⟩
      | cons c before' =>
          obtain ⟨rfl, -⟩ := List.cons.inj h
          rw [List.countP_nil, List.countP_cons_of_pos ha] at hcount
          omega
  | cons b before ih =>
      cases before' with
      | nil =>
          obtain ⟨rfl, -⟩ := List.cons.inj h
          rw [List.countP_nil, List.countP_cons_of_pos ha'] at hcount
          omega
      | cons c before' =>
          obtain ⟨rfl, htail⟩ := List.cons.inj h
          rw [List.countP_cons, List.countP_cons] at hcount
          obtain ⟨rfl, rfl⟩ := ih htail (Nat.add_right_cancel hcount)
          exact ⟨rfl, rfl⟩

end Lists

/-! ### What is cited -/

/-- The hash that is cited when there is no checkpoint. -/
def createdHash (events : List MissionLedgerEvent) : Str :=
  ((events.find? fun e => e.eventType = .missionCreated).map fun e => e.eventHash).getD genesis

/-- The hash of the last checkpoint among the rows up to some place. -/
def precedingCheckpointHash (events upTo : List MissionLedgerEvent) : Str :=
  (((upTo.filter fun e => e.eventType = .recoveryCheckpoint).getLast?).map fun e =>
    e.eventHash).getD (createdHash events)

/-- The row proves a contribution of the node. -/
def CountsFor (nodeId : Str) (e : MissionLedgerEvent) : Bool := Counts e ∧ e.actorId = nodeId

/-- Every contribution cites the last checkpoint at or before the row that it is made of: that of
its node which has as many counted rows of the node before it as the contribution has contributions
before it. -/
def CitesPreceding (events : List MissionLedgerEvent) (manifest : RewardManifestRecord) : Prop :=
  ∀ line ∈ manifest.nodeRewards, ∀ j contribution, line.contributions[j]? = some contribution →
    ∃ before e after, events = before ++ e :: after ∧ CountsFor line.nodeId e ∧
      before.countP (CountsFor line.nodeId) = j ∧ contribution.eventHash = e.eventHash ∧
        contribution.checkpointHash = precedingCheckpointHash events (before ++ [e])

/-- For every counted row, the times of the checkpoints agree with their places: no checkpoint
behind it has a time up to its own, and the last one up to it has. -/
def Timely (events : List MissionLedgerEvent) : Prop :=
  ∀ before e after, events = before ++ e :: after → Counts e →
    (∀ c ∈ after, c.eventType = .recoveryCheckpoint → ¬ c.timestamp ≤ e.timestamp) ∧
      ∀ c, ((before ++ [e]).filter fun c => c.eventType = .recoveryCheckpoint).getLast? = some c →
        c.timestamp ≤ e.timestamp

/-- Hashes tell rows apart, and none of them is the marker the chain starts from. -/
def HashesTell (events : List MissionLedgerEvent) : Prop :=
  (events.map fun e => e.eventHash).Nodup ∧ genesis ∉ events.map fun e => e.eventHash

/-! ### By time and by place -/

/-- The last of the rows, or the hash that stands in for it. -/
theorem hash_inj_of_tell {events l l' : List MissionLedgerEvent} {d : Str}
    (htell : (events.map fun e => e.eventHash).Nodup) (hl : l ⊆ events) (hl' : l' ⊆ events)
    (hd : ∀ e ∈ l ++ l', e.eventHash ≠ d)
    (h : ((l.getLast?).map fun e => e.eventHash).getD d =
      ((l'.getLast?).map fun e => e.eventHash).getD d) : l.getLast? = l'.getLast? := by
  cases hx : l.getLast? with
  | none =>
      cases hy : l'.getLast? with
      | none => rfl
      | some y =>
          rw [hx, hy] at h
          exact absurd h.symm (hd y (List.mem_append_right l (List.mem_of_getLast? hy)))
  | some x =>
      have hxl := List.mem_of_getLast? hx
      cases hy : l'.getLast? with
      | none =>
          rw [hx, hy] at h
          exact absurd h (hd x (List.mem_append_left l' hxl))
      | some y =>
          rw [hx, hy] at h
          exact congrArg some
            (List.inj_on_of_nodup_map htell (hl hxl) (hl' (List.mem_of_getLast? hy)) h)

theorem checkpointHashBefore_eq (events : List MissionLedgerEvent) (atTs : Decimal) :
    checkpointHashBefore events atTs =
      (((events.filter fun e => e.eventType = .recoveryCheckpoint).filter fun e =>
          e.timestamp ≤ atTs).getLast?.map fun e => e.eventHash).getD (createdHash events) := by
  rw [checkpointHashBefore, List.filter_filter]
  simp only [Bool.decide_and, Bool.and_comm]
  split
  · next e he => simp [he]
  · next he => simp [he, createdHash]

variable {events before after : List MissionLedgerEvent} {e : MissionLedgerEvent}

theorem filter_split {p : MissionLedgerEvent → Bool} (h : events = before ++ e :: after) :
    events.filter p = (before ++ [e]).filter p ++ after.filter p := by
  rw [h, List.append_cons, List.filter_append]

/-- Where the times agree with the places, the lookup by time finds the preceding checkpoint. -/
theorem checkpointHashBefore_of_timely (h : Timely events) (hsplit : events = before ++ e :: after)
    (hcounts : Counts e) :
    checkpointHashBefore events e.timestamp = precedingCheckpointHash events (before ++ [e]) := by
  obtain ⟨hafter, hupTo⟩ := h before e after hsplit hcounts
  rw [checkpointHashBefore_eq, filter_split hsplit, getLast?_filter_append, precedingCheckpointHash]
  · intro c hc
    obtain ⟨hc, htype⟩ := List.mem_filter.1 hc
    exact decide_eq_false (hafter c hc (of_decide_eq_true htype))
  · intro c hc
    exact decide_eq_true (hupTo c hc)

/-- No checkpoint has the hash that stands in where there is none. -/
theorem eventHash_ne_createdHash (h : HashesTell events) {c : MissionLedgerEvent}
    (hc : c ∈ events) (htype : c.eventType = .recoveryCheckpoint) :
    c.eventHash ≠ createdHash events := by
  unfold createdHash
  cases hcreated : events.find? fun e => e.eventType = .missionCreated with
  | none =>
      intro heq
      exact h.2 (List.mem_map.2 ⟨c, hc, heq⟩)
  | some d =>
      intro heq
      have hd := List.mem_of_find?_eq_some hcreated
      obtain rfl := List.inj_on_of_nodup_map h.1 hc hd heq
      have hdtype := List.find?_some hcreated
      rw [htype] at hdtype
      exact absurd hdtype (by decide)

/-- Where hashes tell rows apart, the lookup by time finds the preceding checkpoint only where the
times agree with the places. -/
theorem timely_of_checkpointHashBefore (h : HashesTell events)
    (hsplit : events = before ++ e :: after)
    (heq : checkpointHashBefore events e.timestamp =
      precedingCheckpointHash events (before ++ [e])) :
    (∀ c ∈ after, c.eventType = .recoveryCheckpoint → ¬ c.timestamp ≤ e.timestamp) ∧
      ∀ c, ((before ++ [e]).filter fun c => c.eventType = .recoveryCheckpoint).getLast? = some c →
        c.timestamp ≤ e.timestamp := by
  have hsub : before ++ [e] ⊆ events := by
    intro c hc
    rw [hsplit, List.append_cons before e after]
    exact List.mem_append_left after hc
  rw [checkpointHashBefore_eq, precedingCheckpointHash] at heq
  have hlast := hash_inj_of_tell h.1
    ((List.filter_sublist.trans List.filter_sublist).subset)
    (List.Subset.trans List.filter_sublist.subset hsub) (fun c hc => ?_) heq
  · rw [filter_split hsplit] at hlast
    have hdisjoint : ((before ++ [e]).filter fun c => c.eventType = .recoveryCheckpoint).Disjoint
        (after.filter fun c => c.eventType = .recoveryCheckpoint) := by
      have hnodup : (before ++ [e] ++ after).Nodup :=
        List.append_cons before e after ▸ hsplit ▸ h.1.of_map _
      intro c hc hc'
      exact (List.nodup_append.1 hnodup).2.2 c (List.mem_filter.1 hc).1 c (List.mem_filter.1 hc').1
        rfl
    obtain ⟨hafter, hupTo⟩ := of_getLast?_filter_append hdisjoint hlast
    refine ⟨fun c hc htype => ?_, fun c hc => of_decide_eq_true (hupTo c hc)⟩
    exact of_decide_eq_false (hafter c (List.mem_filter.2 ⟨hc, decide_eq_true htype⟩))
  · rcases List.mem_append.1 hc with hc | hc
    · obtain ⟨hc, htype⟩ := List.mem_filter.1 (List.mem_filter.1 hc).1
      exact eventHash_ne_createdHash h hc (of_decide_eq_true htype)
    · obtain ⟨hc, htype⟩ := List.mem_filter.1 hc
      exact eventHash_ne_createdHash h (hsub hc) (of_decide_eq_true htype)

/-! ### The manifest -/

section Manifest

variable {P : ManifestPlatform} {ledger : MissionLedger} {registry : NodeRegistry} {missionId : Str}
  {nowMs : ℚ} {clock : Decimal} {manifest : RewardManifestRecord}

/-- The lines of a manifest are those of the authors. -/
theorem nodeRewards_of_ok
    (hok : buildRewardManifest P ledger registry missionId nowMs clock = .ok manifest) :
    let events := ledger.eventsForMission missionId
    manifest.nodeRewards = (authors P events).map fun p =>
      { nodeId := p.1
        contributions := p.2.map (proofContribution registry events)
        totalEarned := toFixed 4 (rewardOf registry events p.2).total ++ lit " HBAR"
        reputationAtSettlement := registry.latticeTrust01 p.1 } := by
  unfold buildRewardManifest at hok
  dsimp only at hok
  split at hok
  · exact absurd hok (by simp)
  · obtain rfl := Except.ok.inj hok
    simp only [sortByNodeId_nodeRewards, List.map_map]
    rfl

/-- The contributions of a line are made of the counted rows of its node. -/
theorem contributions_of_ok
    (hok : buildRewardManifest P ledger registry missionId nowMs clock = .ok manifest)
    {line : NodeRewardLine} (hline : line ∈ manifest.nodeRewards) :
    line.contributions = ((ledger.eventsForMission missionId).filter
      (CountsFor line.nodeId)).map
        (proofContribution registry (ledger.eventsForMission missionId)) := by
  rw [nodeRewards_of_ok hok] at hline
  obtain ⟨⟨nodeId, es⟩, hp, rfl⟩ := List.mem_map.1 hline
  rw [mem_authors P _ hp, List.filter_filter]
  refine congrArg (List.map _) (List.filter_congr fun e _ => ?_)
  rw [CountsFor, Bool.decide_and, Bool.and_comm]

/-- Every counted row makes a contribution of its node, at the place of the rows before it. -/
theorem exists_contribution
    (hok : buildRewardManifest P ledger registry missionId nowMs clock = .ok manifest)
    {before after : List MissionLedgerEvent} {e : MissionLedgerEvent}
    (hsplit : ledger.eventsForMission missionId = before ++ e :: after) (hcounts : Counts e) :
    ∃ line ∈ manifest.nodeRewards, CountsFor line.nodeId e = true ∧
      line.contributions[before.countP (CountsFor line.nodeId)]? =
        some (proofContribution registry (ledger.eventsForMission missionId) e) := by
  have hmem : e ∈ ledger.eventsForMission missionId :=
    hsplit ▸ List.mem_append_right _ List.mem_cons_self
  obtain ⟨es, hes, -⟩ := mem_authors_of_counts P _ hmem hcounts
  have hline : ∃ line ∈ manifest.nodeRewards, line.nodeId = e.actorId := by
    rw [nodeRewards_of_ok hok]
    exact ⟨_, List.mem_map.2 ⟨_, hes, rfl⟩, rfl⟩
  obtain ⟨line, hline, hid⟩ := hline
  have hfor : CountsFor line.nodeId e = true := decide_eq_true ⟨hcounts, hid.symm⟩
  refine ⟨line, hline, hfor, ?_⟩
  rw [contributions_of_ok hok hline, List.getElem?_map, hsplit, getElem?_filter_split hfor,
    Option.map_some]

/-- The manifest cites the preceding checkpoints exactly if the lookup by time finds them for every
counted row. -/
theorem cites_preceding_iff_rows
    (hok : buildRewardManifest P ledger registry missionId nowMs clock = .ok manifest) :
    let events := ledger.eventsForMission missionId
    CitesPreceding events manifest ↔
      ∀ before e after, events = before ++ e :: after → Counts e →
        checkpointHashBefore events e.timestamp =
          precedingCheckpointHash events (before ++ [e]) := by
  intro events
  constructor
  · intro h before e after hsplit hcounts
    obtain ⟨line, hline, hfor, hget⟩ := exists_contribution hok hsplit hcounts
    obtain ⟨before', e', after', hsplit', hfor', hcount, -, hcites⟩ := h line hline _ _ hget
    -- two rows with as many counted rows of the node before them are the same
    obtain ⟨rfl, rfl⟩ := split_unique_of_countP (hsplit'.symm.trans hsplit) hfor' hfor hcount
    exact hcites
  · intro h line hline j contribution hget
    rw [contributions_of_ok hok hline, List.getElem?_map] at hget
    obtain ⟨e, he, rfl⟩ := Option.map_eq_some_iff.1 hget
    obtain ⟨before, after, hsplit, hfor, hcount⟩ := exists_split_of_getElem?_filter he
    have hcounts : Counts e := (of_decide_eq_true hfor).1
    exact ⟨before, e, after, hsplit, hfor, hcount, rfl, h before e after hsplit hcounts⟩

/-- **The manifest cites the preceding checkpoints if the times agree with the places**, and, where
hashes tell rows apart, only then. -/
theorem cites_preceding_iff
    (hok : buildRewardManifest P ledger registry missionId nowMs clock = .ok manifest) :
    let events := ledger.eventsForMission missionId
    (Timely events → CitesPreceding events manifest) ∧
      (HashesTell events → CitesPreceding events manifest → Timely events) := by
  have hrows := cites_preceding_iff_rows hok
  constructor
  · intro h
    exact hrows.2 fun before e after hsplit hcounts =>
      checkpointHashBefore_of_timely h hsplit hcounts
  · intro htell h before e after hsplit hcounts
    exact timely_of_checkpointHashBefore htell hsplit (hrows.1 h before e after hsplit hcounts)

end Manifest

/-! ### Times along the ledger -/

/-- Where the clock moves on between the rows, the times agree with the places. -/
theorem timely_of_increasing
    (h : events.Pairwise fun c e => c.timestamp < e.timestamp) : Timely events := by
  intro before e after hsplit _
  rw [hsplit, List.pairwise_append] at h
  obtain ⟨-, hafter, hbefore⟩ := h
  refine ⟨fun c hc _ => not_le.2 ((List.pairwise_cons.1 hafter).1 c hc), fun c hc => ?_⟩
  have hc := (List.mem_filter.1 (List.mem_of_getLast? hc)).1
  rcases List.mem_append.1 hc with hc | hc
  · exact (hbefore c hc e List.mem_cons_self).le
  · rw [List.mem_singleton.1 hc]

/-- A terminal mission has a manifest. -/
theorem exists_manifest (P : ManifestPlatform) (ledger : MissionLedger) (registry : NodeRegistry)
    (missionId : Str) (nowMs : ℚ) (clock : Decimal)
    (h : (replayMissionFromLedger clock ledger missionId).phase ∈ terminalPhases) :
    ∃ manifest, buildRewardManifest P ledger registry missionId nowMs clock = .ok manifest := by
  unfold buildRewardManifest
  exact ⟨_, if_neg (not_not.2 h)⟩

theorem cites_preceding_iff_checkpoint :
    ∃ manifest, buildRewardManifest plainPlatform.toManifestPlatform (checkpointMission "camp")
        (trusting 100) "m" 3 0 = .ok manifest ∧
      CitesPreceding ((checkpointMission "camp").eventsForMission "m") manifest := by
  obtain ⟨manifest, hok⟩ := exists_manifest plainPlatform.toManifestPlatform
    (checkpointMission "camp") (trusting 100) "m" 3 0 (by decide)
  exact ⟨manifest, hok, (cites_preceding_iff hok).1 (timely_of_increasing (by decide))⟩

/-- A target is discovered, and within the same millisecond a checkpoint is written after it. -/
def lateCheckpoint : MissionLedger :=
  let row (eventType : MissionLedgerEventType) (payload : OrderedMap Str Json) (timestamp : Decimal)
      (previousHash eventHash : Str) : MissionLedgerEvent :=
    { missionId := "m", actorId := "n1", eventType, plane := .vertex, payload, timestamp
      previousHash, eventHash }
  [row .missionCreated (.ofList [("phase", .str "init")]) 0 genesis "00",
    row .targetDiscovered ∅ 1 "00" "01",
    row .recoveryCheckpoint (.ofList [("label", .str "camp")]) 1 "01" "02",
    row .phaseTransition (.ofList [("toPhase", .str "aborted")]) 2 "02" "03"]

/-- **The discovery cites the checkpoint that was written after it.** -/
theorem cites_later_checkpoint :
    let events := lateCheckpoint.eventsForMission "m"
    checkpointHashBefore events 1 = lit "02" ∧
      precedingCheckpointHash events (events.take 2) = lit "00" ∧
        ∃ manifest, buildRewardManifest plainPlatform.toManifestPlatform lateCheckpoint
            (trusting 100) "m" 3 0 = .ok manifest ∧ ¬ CitesPreceding events manifest := by
  intro events
  obtain ⟨manifest, hok⟩ := exists_manifest plainPlatform.toManifestPlatform lateCheckpoint
    (trusting 100) "m" 3 0 (by decide)
  refine ⟨by decide, by decide, manifest, hok, fun h => ?_⟩
  obtain ⟨created, discovered, later, hsplit, hcounts, hne⟩ :
      ∃ created discovered later, events = [created] ++ discovered :: later ∧ Counts discovered ∧
        checkpointHashBefore events discovered.timestamp ≠
          precedingCheckpointHash events ([created] ++ [discovered]) :=
    ⟨_, _, _, rfl, by decide, by decide⟩
  exact hne ((cites_preceding_iff_rows hok).1 h _ _ _ hsplit hcounts)

end Settlement
