/-
**When elections finish** (`swarm/bully_election.py`).

The clock first looks whether the leader is silent, and restarts the election if it is.  Only then
it looks whether the election has run long enough.  A restart forgets neither the leader nor when
it was last heard, so an election with a silent leader is restarted by every tick and is never
decided; without one it is decided by the first tick after the election timeout.

Main definitions:

* `Swarm.ElectionOp` — the operations of a node;
* `Swarm.Finishes` — a tick decides the election for the best candidate;
* `Swarm.Watch` — a node, its last tick, and when its stay in the election began;
* `Swarm.LeaderHeard` — a tick in an election finds no silent leader.

Main results:

* `Swarm.finishes_iff` — when an overdue tick decides the election;
* `Swarm.Prompt.step` — with ticks at most an interval apart, a stay is bounded;
* `Swarm.elections_finish` — **elections finish if no tick in an election finds a silent leader**;
* `Swarm.silent_leader_stalls` — an election that is restarted by each tick.
-/
import Endendend.Swarm.ElectionAgreement
import Mathlib.Tactic.Linarith

set_option relaxedAutoImplicit false
set_option autoImplicit false

namespace Swarm

open Js BullyElection

variable {Id : Type*} [LinearOrder Id]

/-! ### The operations of a node -/

/-- The depth or the battery of the node itself has changed. -/
def BullyElection.updateLocalState (n : BullyElection Id) (depth battery : ℚ) : BullyElection Id :=
  let n' := { n with depth, battery }
  match n.candidates.get? n.nodeId with
  | none => n'
  | some c => { n' with candidates := n.candidates.put { c with depth, battery } }

/-- The operations; the clock readings are parameters. -/
inductive ElectionOp (Id : Type*)
  | startElection (clock : ℤ)
  | receiveElectionMessage (sender : Id) (depth battery : ℚ) (clock : ℤ)
  | receiveElectionWin (leaderId : Id) (depth battery : ℚ) (clock : ℤ)
  | declareVictory (clock : ℤ)
  | tick (nowMs clock : ℤ)
  | updateLocalState (depth battery : ℚ)

/-- One operation; all of them are always possible. -/
def ElectionOp.apply (n : BullyElection Id) : ElectionOp Id → Option (BullyElection Id)
  | .startElection clock => some (n.startElection clock)
  | .receiveElectionMessage sender depth battery clock =>
    some (n.receiveElectionMessage sender depth battery clock)
  | .receiveElectionWin leaderId depth battery clock =>
    some (n.receiveElectionWin leaderId depth battery clock)
  | .declareVictory clock => some (n.declareVictory clock)
  | .tick nowMs clock => some (n.tick nowMs clock).1
  | .updateLocalState depth battery => some (n.updateLocalState depth battery)

/-- The election has run for longer than its timeout. -/
def Overdue (n : BullyElection Id) (nowMs : ℤ) : Prop :=
  n.state = .electionInProgress ∧
    ((nowMs - n.electionStartMs : ℤ) : ℚ) > n.electionTimeoutS * 1000

instance (n : BullyElection Id) (nowMs : ℤ) : Decidable (Overdue n nowMs) :=
  inferInstanceAs (Decidable (_ ∧ _))

/-- The best candidate of the table: no other ranks before it. -/
def BestCandidate (n : BullyElection Id) (best : CandidateInfo Id) : Prop :=
  best ∈ n.candidates.values ∧ ∀ c ∈ n.candidates.values, best.rank ≤ c.rank

/-- A tick decides the election for the best candidate. -/
def Finishes (n : BullyElection Id) (nowMs clock : ℤ) : Prop :=
  ∃ best, BestCandidate n best ∧ (n.tick nowMs clock).2 = some best.nodeId ∧
    Decided (n.tick nowMs clock).1

/-- No leader is silent at the tick; or the time of the tick is ahead of the clock by more than the
election timeout, and the node is its own best candidate. -/
def MayFinish (n : BullyElection Id) (nowMs clock : ℤ) : Prop :=
  ¬ n.LeaderTimedOut nowMs ∨
    ((nowMs - clock : ℤ) : ℚ) > n.electionTimeoutS * 1000 ∧
      ∃ best, BestCandidate n best ∧ best.nodeId = n.nodeId

/-! ### Ticks -/

section Ticks

variable {n : BullyElection Id} {nowMs : ℤ}

theorem tick_of_heard (h : ¬ n.LeaderTimedOut nowMs) (clock : ℤ) :
    n.tick nowMs clock = if Overdue n nowMs then n.finalizeElection clock else (n, none) := by
  unfold tick
  simp only [if_neg h]
  rfl

/-- A restarted election is overdue only if the time of the tick is ahead of the clock. -/
theorem tick_of_silent (h : n.LeaderTimedOut nowMs) (clock : ℤ) :
    n.tick nowMs clock =
      if ((nowMs - clock : ℤ) : ℚ) > n.electionTimeoutS * 1000 then
        (n.startElection clock).finalizeElection clock
      else (n.startElection clock, none) := by
  unfold tick
  simp only [if_pos h]
  have hstate : (n.startElection clock).state = .electionInProgress := rfl
  rw [hstate]
  simp only [true_and]
  rfl

theorem bestCandidate_of_winner {w : CandidateInfo Id} (h : n.winner = some w) :
    BestCandidate n w :=
  ⟨mem_of_winner h, fun _ hc => winner_rank_le h hc⟩

theorem exists_winner {c : CandidateInfo Id} (h : c ∈ n.candidates.values) :
    ∃ w, n.winner = some w := by
  have hmem : c ∈ n.candidates.values.insertionSort CandidateInfo.SortsBefore :=
    (List.perm_insertionSort _ _).mem_iff.2 h
  exact ⟨_, List.head?_eq_some_head (List.ne_nil_of_mem hmem)⟩

/-- Two best candidates have one id. -/
theorem BestCandidate.nodeId_eq {a b : CandidateInfo Id} (ha : BestCandidate n a)
    (hb : BestCandidate n b) : a.nodeId = b.nodeId := by
  have hrank := le_antisymm (ha.2 b hb.1) (hb.2 a ha.1)
  exact congrArg (fun r => (ofLex (ofLex r).2).2) hrank

theorem finalizeElection_of_winner {w : CandidateInfo Id} (h : n.winner = some w) (clock : ℤ) :
    (n.finalizeElection clock).2 = some w.nodeId ∧ Decided (n.finalizeElection clock).1 := by
  unfold finalizeElection
  rw [h]
  refine ⟨rfl, ?_⟩
  unfold Decided
  by_cases hself : w.nodeId = n.nodeId
  · exact Or.inl (by simp [hself])
  · exact Or.inr (by simp [hself])

/-- The table of a new election holds the node alone. -/
theorem winner_startElection (n : BullyElection Id) (clock : ℤ) :
    (n.startElection clock).winner = some (n.selfInfo clock) := rfl

/-- **When an overdue tick decides the election**, given that there are candidates. -/
theorem finishes_iff {c : CandidateInfo Id} (hc : c ∈ n.candidates.values)
    (hdue : Overdue n nowMs) (clock : ℤ) : Finishes n nowMs clock ↔ MayFinish n nowMs clock := by
  obtain ⟨w, hw⟩ := exists_winner hc
  have hbest := bestCandidate_of_winner hw
  by_cases hout : n.LeaderTimedOut nowMs
  · rw [Finishes, MayFinish, or_iff_right (not_not.2 hout), tick_of_silent hout clock]
    by_cases hahead : ((nowMs - clock : ℤ) : ℚ) > n.electionTimeoutS * 1000
    · rw [if_pos hahead, and_iff_right hahead]
      obtain ⟨hid, hdecided⟩ :=
        finalizeElection_of_winner (winner_startElection n clock) clock
      constructor
      · rintro ⟨best, hb, hreturn, -⟩
        exact ⟨best, hb, Option.some.inj (hreturn.symm.trans hid)⟩
      · rintro ⟨best, hb, hself⟩
        exact ⟨best, hb, hid.trans (congrArg some hself.symm), hdecided⟩
    · rw [if_neg hahead]
      exact iff_of_false (fun ⟨_, _, hreturn, _⟩ => absurd hreturn (by simp))
        fun h => hahead h.1
  · refine iff_of_true ?_ (Or.inl hout)
    rw [Finishes, tick_of_heard hout, if_pos hdue]
    obtain ⟨hid, hdecided⟩ := finalizeElection_of_winner hw clock
    exact ⟨w, hbest, hid, hdecided⟩

end Ticks

/-! ### Candidates -/

/-- **An election in progress has candidates.** -/
def HasCandidates (n : BullyElection Id) : Prop :=
  n.state = .electionInProgress → ∃ c, c ∈ n.candidates.values

section Candidates

variable {n : BullyElection Id}

theorem hasCandidates_new (nodeId : Id) (depth battery electionTimeoutS heartbeatTimeoutS : ℚ) :
    HasCandidates (.new nodeId depth battery electionTimeoutS heartbeatTimeoutS) :=
  fun h => absurd h ElectionState.noConfusion

theorem mem_values_put_self (m : KeyedMap (CandidateInfo.nodeId : CandidateInfo Id → Id))
    (c : CandidateInfo Id) : c ∈ (m.put c).values :=
  KeyedMap.mem_values_iff.2 (KeyedMap.get?_put_self m c)

theorem hasCandidates_startElection (n : BullyElection Id) (clock : ℤ) :
    HasCandidates (n.startElection clock) :=
  fun _ => ⟨n.selfInfo clock, mem_values_put_self _ _⟩

/-- A tick leaves the election decided, restarted, or as it was. -/
theorem tick_result (h : HasCandidates n) (nowMs clock : ℤ) :
    let n' := (n.tick nowMs clock).1
    Decided n' ∨ n.LeaderTimedOut nowMs ∧ n' = n.startElection clock ∨
      ¬ n.LeaderTimedOut nowMs ∧ ¬ Overdue n nowMs ∧ n' = n := by
  by_cases hout : n.LeaderTimedOut nowMs
  · rw [tick_of_silent hout]
    split
    · exact Or.inl (finalizeElection_of_winner (winner_startElection n clock) clock).2
    · exact Or.inr (Or.inl ⟨hout, rfl⟩)
  · rw [tick_of_heard hout]
    split
    · next hdue =>
        obtain ⟨c, hc⟩ := h hdue.1
        obtain ⟨w, hw⟩ := exists_winner hc
        exact Or.inl (finalizeElection_of_winner hw clock).2
    · next hdue => exact Or.inr (Or.inr ⟨hout, hdue, rfl⟩)

theorem not_inProgress_of_decided (h : Decided n) : n.state ≠ .electionInProgress := by
  rcases h with h | h
  · rw [h]
    exact ElectionState.noConfusion
  · rw [h]
    exact ElectionState.noConfusion

@[simp] theorem state_updateLocalState (n : BullyElection Id) (depth battery : ℚ) :
    (n.updateLocalState depth battery).state = n.state := by
  unfold updateLocalState
  simp only
  split <;> rfl

theorem HasCandidates.step {n' : BullyElection Id} {op : ElectionOp Id} (h : HasCandidates n)
    (hstep : op.apply n = some n') : HasCandidates n' := by
  cases op with
  | startElection clock =>
      obtain rfl := Option.some.inj hstep
      exact hasCandidates_startElection n clock
  | receiveElectionMessage sender depth battery clock =>
      obtain rfl := Option.some.inj hstep
      exact fun _ => ⟨⟨sender, depth, battery, clock, true⟩, mem_values_put_self _ _⟩
  | receiveElectionWin leaderId depth battery clock =>
      obtain rfl := Option.some.inj hstep
      exact fun hin => absurd hin ElectionState.noConfusion
  | declareVictory clock =>
      obtain rfl := Option.some.inj hstep
      exact fun hin => absurd hin ElectionState.noConfusion
  | tick nowMs clock =>
      obtain rfl := Option.some.inj hstep
      rcases tick_result h nowMs clock with hdecided | ⟨-, hrestart⟩ | ⟨-, -, hstay⟩
      · exact fun hin => absurd hin (not_inProgress_of_decided hdecided)
      · rw [hrestart]
        exact hasCandidates_startElection n clock
      · rw [hstay]
        exact h
  | updateLocalState depth battery =>
      obtain rfl := Option.some.inj hstep
      intro hin
      obtain ⟨c, hc⟩ := h (state_updateLocalState n depth battery ▸ hin)
      unfold updateLocalState
      simp only
      split
      · exact ⟨c, hc⟩
      · next c' _ => exact ⟨{ c' with depth, battery }, mem_values_put_self _ _⟩

end Candidates

/-! ### Stays in an election -/

/-- A node, the latest reading of the clock, the last tick, and the start of the present stay in an
election: a call of `start_election`, or a tick that started one when none was in progress. -/
structure Watch (Id : Type*) [LinearOrder Id] where
  node : BullyElection Id
  nowMs : ℤ
  lastTickMs : ℤ
  startedMs : ℤ

/-- The operation is made at a clock that does not go back, and the ticks are at most `interval`
apart. -/
def InTime (interval : ℤ) (s : Watch Id) : ElectionOp Id → Prop
  | .tick nowMs clock =>
    (s.nowMs ≤ nowMs ∧ nowMs ≤ s.lastTickMs + interval) ∧
      nowMs ≤ clock ∧ clock ≤ nowMs + interval
  | .startElection clock | .receiveElectionMessage _ _ _ clock | .receiveElectionWin _ _ _ clock
  | .declareVictory clock => s.nowMs ≤ clock ∧ clock ≤ s.lastTickMs + interval
  | .updateLocalState .. => True

instance (interval : ℤ) (s : Watch Id) (op : ElectionOp Id) : Decidable (InTime interval s op) := by
  cases op <;> unfold InTime <;> infer_instance

/-- The times after an operation. -/
def Watch.note (s : Watch Id) (node : BullyElection Id) : ElectionOp Id → Watch Id
  | .startElection clock => { s with node, nowMs := clock, startedMs := clock }
  | .tick nowMs clock =>
    { node
      nowMs := clock
      lastTickMs := nowMs
      startedMs := if s.node.state = .electionInProgress then s.startedMs else clock }
  | .receiveElectionMessage _ _ _ clock | .receiveElectionWin _ _ _ clock
  | .declareVictory clock => { s with node, nowMs := clock }
  | .updateLocalState .. => { s with node }

def Watch.step (interval : ℤ) (s : Watch Id) (op : ElectionOp Id) : Option (Watch Id) :=
  if InTime interval s op then (op.apply s.node).map fun node => s.note node op else none

/-- A tick in an election finds no silent leader. -/
def LeaderHeard (s : Watch Id) : ElectionOp Id → Prop
  | .tick nowMs _ => s.node.state = .electionInProgress → ¬ s.node.LeaderTimedOut nowMs
  | _ => True

instance (s : Watch Id) (op : ElectionOp Id) : Decidable (LeaderHeard s op) := by
  cases op <;> unfold LeaderHeard <;> infer_instance

/-- **The stay in an election**: it began where the election counts from, and it was not overdue at
the last tick. -/
structure Prompt (electionTimeoutS : ℚ) (interval : ℤ) (s : Watch Id) : Prop where
  candidates : HasCandidates s.node
  timeout : s.node.electionTimeoutS = electionTimeoutS
  ticked : s.lastTickMs ≤ s.nowMs
  started : s.node.state = .electionInProgress → s.node.electionStartMs = s.startedMs
  recent : s.node.state = .electionInProgress → s.lastTickMs ≤ s.startedMs ∨
    ((s.lastTickMs - s.startedMs : ℤ) : ℚ) ≤ electionTimeoutS * 1000

section Stays

variable {n n' : BullyElection Id} {op : ElectionOp Id}

theorem electionTimeoutS_finalizeElection (n : BullyElection Id) (clock : ℤ) :
    (n.finalizeElection clock).1.electionTimeoutS = n.electionTimeoutS := by
  unfold finalizeElection
  cases n.winner with
  | none => rfl
  | some w =>
      simp only
      split <;> rfl

theorem electionTimeoutS_tick (n : BullyElection Id) (nowMs clock : ℤ) :
    (n.tick nowMs clock).1.electionTimeoutS = n.electionTimeoutS := by
  by_cases hout : n.LeaderTimedOut nowMs
  · rw [tick_of_silent hout]
    split
    · exact electionTimeoutS_finalizeElection _ clock
    · rfl
  · rw [tick_of_heard hout]
    split
    · exact electionTimeoutS_finalizeElection n clock
    · rfl

theorem electionTimeoutS_apply (h : op.apply n = some n') :
    n'.electionTimeoutS = n.electionTimeoutS := by
  cases op with
  | startElection => exact Option.some.inj h ▸ rfl
  | receiveElectionMessage => exact Option.some.inj h ▸ rfl
  | receiveElectionWin => exact Option.some.inj h ▸ rfl
  | declareVictory => exact Option.some.inj h ▸ rfl
  | tick nowMs clock => exact Option.some.inj h ▸ electionTimeoutS_tick n nowMs clock
  | updateLocalState depth battery =>
      obtain rfl := Option.some.inj h
      unfold updateLocalState
      simp only
      split <;> rfl

theorem electionStartMs_updateLocalState (n : BullyElection Id) (depth battery : ℚ) :
    (n.updateLocalState depth battery).electionStartMs = n.electionStartMs := by
  unfold updateLocalState
  simp only
  split <;> rfl

variable {electionTimeoutS : ℚ} {interval : ℤ} {s s' : Watch Id}

theorem watch_step_cases (h : s.step interval op = some s') :
    InTime interval s op ∧ ∃ node, op.apply s.node = some node ∧ s' = s.note node op := by
  unfold Watch.step at h
  split at h
  · next htime =>
      obtain ⟨node, hnode, rfl⟩ := Option.map_eq_some_iff.1 h
      exact ⟨htime, node, hnode, rfl⟩
  · exact nomatch h

/-- **A tick in an election leaves it decided or in time.** -/
theorem Prompt.tick (h : Prompt electionTimeoutS interval s) {nowMs clock : ℤ}
    (hheard : LeaderHeard s (.tick nowMs clock)) (htime : InTime interval s (.tick nowMs clock)) :
    Prompt electionTimeoutS interval
      (s.note (s.node.tick nowMs clock).1 (.tick nowMs clock)) := by
  have hstep : (ElectionOp.tick nowMs clock).apply s.node = some (s.node.tick nowMs clock).1 := rfl
  refine ⟨h.candidates.step hstep, (electionTimeoutS_apply hstep).trans h.timeout, htime.2.1,
    ?_, ?_⟩
  · intro hin
    rcases tick_result h.candidates nowMs clock with hdecided | ⟨hout, hrestart⟩ | ⟨-, -, hstay⟩
    · exact absurd hin (not_inProgress_of_decided hdecided)
    · -- the tick has started an election when none was in progress
      have hidle : s.node.state ≠ .electionInProgress := fun hbefore => hheard hbefore hout
      simp only [Watch.note, hrestart, if_neg hidle]
      rfl
    · simp only [Watch.note, hstay] at hin ⊢
      rw [if_pos hin]
      exact h.started hin
  · intro hin
    rcases tick_result h.candidates nowMs clock with hdecided | ⟨hout, -⟩ | ⟨-, hdue, hstay⟩
    · exact absurd hin (not_inProgress_of_decided hdecided)
    · have hidle : s.node.state ≠ .electionInProgress := fun hbefore => hheard hbefore hout
      left
      simp only [Watch.note, if_neg hidle]
      exact htime.2.1
    · simp only [Watch.note, hstay] at hin ⊢
      rw [if_pos hin]
      right
      have hlate := fun hlate => hdue ⟨hin, hlate⟩
      rw [h.started hin, h.timeout] at hlate
      exact not_lt.1 hlate

theorem Prompt.step (h : Prompt electionTimeoutS interval s) (hheard : LeaderHeard s op)
    (hstep : s.step interval op = some s') : Prompt electionTimeoutS interval s' := by
  obtain ⟨htime, node, hnode, rfl⟩ := watch_step_cases hstep
  have hcandidates := h.candidates.step hnode
  have htimeout := (electionTimeoutS_apply hnode).trans h.timeout
  have hticked := h.ticked
  cases op with
  | startElection clock =>
      obtain rfl := Option.some.inj hnode
      exact ⟨hcandidates, htimeout, hticked.trans htime.1, fun _ => rfl,
        fun _ => Or.inl (hticked.trans htime.1)⟩
  | receiveElectionMessage sender depth battery clock =>
      obtain rfl := Option.some.inj hnode
      exact ⟨hcandidates, htimeout, hticked.trans htime.1, h.started, h.recent⟩
  | receiveElectionWin leaderId depth battery clock =>
      obtain rfl := Option.some.inj hnode
      exact ⟨hcandidates, htimeout, hticked.trans htime.1,
        fun hin => absurd hin ElectionState.noConfusion,
        fun hin => absurd hin ElectionState.noConfusion⟩
  | declareVictory clock =>
      obtain rfl := Option.some.inj hnode
      exact ⟨hcandidates, htimeout, hticked.trans htime.1,
        fun hin => absurd hin ElectionState.noConfusion,
        fun hin => absurd hin ElectionState.noConfusion⟩
  | tick nowMs clock =>
      obtain rfl := Option.some.inj hnode
      exact h.tick hheard htime
  | updateLocalState depth battery =>
      obtain rfl := Option.some.inj hnode
      have hstate := state_updateLocalState s.node depth battery
      refine ⟨hcandidates, htimeout, hticked, fun hin => ?_, fun hin => ?_⟩
      · exact (electionStartMs_updateLocalState s.node depth battery).trans
          (h.started (hstate ▸ hin))
      · exact h.recent (hstate ▸ hin)

/-- A stay is bounded by the timeout and an interval between ticks. -/
theorem Prompt.bounded (h : Prompt electionTimeoutS interval s)
    (hin : s.node.state = .electionInProgress) {t : ℤ} (ht : t ≤ s.lastTickMs + interval) :
    ((t - s.startedMs : ℤ) : ℚ) ≤ max 0 (electionTimeoutS * 1000) + interval := by
  rcases h.recent hin with hlate | hearly
  · have hle : t - s.startedMs ≤ interval := by omega
    calc ((t - s.startedMs : ℤ) : ℚ) ≤ (interval : ℚ) := by exact_mod_cast hle
      _ ≤ max 0 (electionTimeoutS * 1000) + interval := le_add_of_nonneg_left (le_max_left _ _)
  · have hle : t - s.startedMs ≤ s.lastTickMs - s.startedMs + interval := by omega
    calc ((t - s.startedMs : ℤ) : ℚ)
        ≤ ((s.lastTickMs - s.startedMs + interval : ℤ) : ℚ) := by exact_mod_cast hle
      _ = ((s.lastTickMs - s.startedMs : ℤ) : ℚ) + interval := Int.cast_add _ _
      _ ≤ max 0 (electionTimeoutS * 1000) + interval :=
          add_le_add_left (hearly.trans (le_max_right _ _)) _

end Stays

/-! ### Elections finish -/

/-- **Elections finish.**  From every reachable state, an overdue tick decides the election for the
best candidate exactly if no leader is silent (or the time of the tick is ahead of the clock); and
in a run whose ticks are at most an interval apart and in an election never find a silent leader,
no stay in an election lasts for more than the timeout and an interval. -/
theorem elections_finish (nodeId : Id) (depth battery electionTimeoutS heartbeatTimeoutS : ℚ) :
    let n₀ := BullyElection.new nodeId depth battery electionTimeoutS heartbeatTimeoutS
    (∀ ops n, Runs.run ElectionOp.apply n₀ ops = some n → ∀ nowMs clock, Overdue n nowMs →
      (Finishes n nowMs clock ↔ MayFinish n nowMs clock)) ∧
    ∀ interval t₀ ops s, Runs.run (Watch.step interval) ⟨n₀, t₀, t₀, t₀⟩ ops = some s →
      Runs.Along (Watch.step interval) LeaderHeard ⟨n₀, t₀, t₀, t₀⟩ ops →
        s.node.state = .electionInProgress → ∀ t, t ≤ s.lastTickMs + interval →
          ((t - s.startedMs : ℤ) : ℚ) ≤ max 0 (electionTimeoutS * 1000) + interval := by
  intro n₀
  have hcandidates : HasCandidates n₀ :=
    hasCandidates_new nodeId depth battery electionTimeoutS heartbeatTimeoutS
  constructor
  · intro ops n hrun nowMs clock hdue
    have hn : HasCandidates n :=
      Runs.invariant_of_run (fun _ _ _ h hstep => h.step hstep) hcandidates hrun
    obtain ⟨c, hc⟩ := hn hdue.1
    exact finishes_iff hc hdue clock
  · intro interval t₀ ops s hrun halong hin t ht
    have hstart : Prompt electionTimeoutS interval (⟨n₀, t₀, t₀, t₀⟩ : Watch Id) :=
      ⟨hcandidates, rfl, le_rfl, fun h => absurd h ElectionState.noConfusion,
        fun h => absurd h ElectionState.noConfusion⟩
    have hprompt := Runs.invariant_along (fun _ _ _ h hheard hstep => h.step hheard hstep) hstart
      halong hrun
    exact hprompt.bounded hin ht

/-- A node that follows `b` and has not heard of it for eleven seconds. -/
def silentLeader : List (ElectionOp NodeId) :=
  [.receiveElectionWin "b" 2 90 0, .tick 11000 11000]

/-- An election that ticks every second. -/
def tickedElection : List (ElectionOp NodeId) :=
  [.startElection 0, .tick 1000 1000, .tick 2000 2000]

/-- A node before its first election, whose last tick was at time `0`. -/
def idleWatch : Watch NodeId := ⟨.new "a" 1 90 5 10, 0, 0, 0⟩

/-- An overdue election without a leader is decided, and its stay is bounded. -/
theorem elections_finish_noLeader :
    Finishes ((BullyElection.new ("a" : NodeId) 1 90 5 10).startElection 0) 6000 6000 ∧
      ∃ s, Runs.run (Watch.step 1000) idleWatch tickedElection = some s ∧
        ∀ t, t ≤ s.lastTickMs + 1000 →
          ((t - s.startedMs : ℤ) : ℚ) ≤ max 0 ((5 : ℚ) * 1000) + (1000 : ℤ) := by
  have h := elections_finish ("a" : NodeId) 1 90 5 10
  constructor
  · exact (h.1 [.startElection 0] _ rfl 6000 6000 (by decide +kernel)).2
      (Or.inl (by decide +kernel))
  · have hrun : (Runs.run (Watch.step 1000) idleWatch tickedElection).map
        (fun s => decide (s.node.state = .electionInProgress)) = some true := by decide +kernel
    obtain ⟨s, hs, hin⟩ := Option.map_eq_some_iff.1 hrun
    exact ⟨s, hs, h.2 1000 0 tickedElection s hs (by decide +kernel) (of_decide_eq_true hin)⟩

/-- **An election with a silent leader is restarted by every tick**: a node that follows `b` hears
nothing, and the ticks from then on never decide its election. -/
theorem silent_leader_stalls :
    ¬ ∀ ops n, Runs.run ElectionOp.apply (.new ("a" : NodeId) 1 90 5 10) ops = some n →
      ∀ nowMs, Overdue n nowMs → Finishes n nowMs nowMs := by
  intro h
  have hrun : (Runs.run ElectionOp.apply (.new ("a" : NodeId) 1 90 5 10) silentLeader).map
      (fun n => (decide (Overdue n 17000), (n.tick 17000 17000).2)) = some (true, none) := by
    decide +kernel
  obtain ⟨n, hn, hlate⟩ := Option.map_eq_some_iff.1 hrun
  obtain ⟨hdue, hnone⟩ := Prod.mk.inj hlate
  obtain ⟨best, -, hreturn, -⟩ := h silentLeader n hn 17000 (of_decide_eq_true hdue)
  exact absurd (hnone.symm.trans hreturn) (by simp)

end Swarm
