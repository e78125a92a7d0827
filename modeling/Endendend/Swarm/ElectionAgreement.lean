/-
**When the election agrees** (`swarm/bully_election.py`).

Every node starts its election once and sends a message that reaches every other node.  Starting
clears the table of candidates, so a message that arrives before its receiver has started is lost.

Main definitions:

* `Swarm.World`, `Swarm.electionStep` — the nodes, and the starts, deliveries and ticks;
* `Swarm.IsBest` — the best node;
* `Swarm.Heard` — a message reached a node while its election was in progress;
* `Swarm.NodeInv` — what a node knows of the best node.

Main results:

* `Swarm.nodeInv_of_run` — the invariant holds in every run;
* `Swarm.election_agrees_iff` — **once all elections are decided, all nodes follow the best node
  exactly if its message has reached each of them while its election was in progress**;
* `Swarm.early_message_elects_two` — a message that comes early, and two leaders.
-/
import Endendend.Foundation.Runs
import Endendend.Swarm.BullyElection

set_option relaxedAutoImplicit false
set_option autoImplicit false

namespace Swarm

open Js BullyElection

variable {Id : Type*} [LinearOrder Id]

/-! ### The system -/

/-- The nodes, each under its own id. -/
abbrev World (Id : Type*) [LinearOrder Id] :=
  KeyedMap (BullyElection.nodeId : BullyElection Id → Id)

/-- What may happen: a node starts its election, its message reaches another node, or a node looks
at its clock. -/
inductive Move (Id : Type*)
  | start (node : Id) (clock : ℤ)
  | deliver (sender receiver : Id) (clock : ℤ)
  | tick (node : Id) (nowMs clock : ℤ)

/-- One move.  A node starts once, and its message is on the way from then on; no tick starts a
second election. -/
def electionStep (w : World Id) : Move Id → Option (World Id)
  | .start node clock =>
    match w.get? node with
    | some n => if n.state = .idle then some (w.put (n.startElection clock)) else none
    | none => none
  | .deliver sender receiver clock =>
    match w.get? sender, w.get? receiver with
    | some a, some b =>
      if a.state ≠ .idle ∧ sender ≠ receiver then
        some (w.put (b.receiveElectionMessage sender a.depth a.battery clock))
      else none
    | _, _ => none
  | .tick node nowMs clock =>
    match w.get? node with
    | some n => if n.LeaderTimedOut nowMs then none else some (w.put (n.tick nowMs clock).1)
    | none => none

/-- No node has started. -/
def Fresh (w : World Id) : Prop :=
  ∀ n ∈ w.values, n = .new n.nodeId n.depth n.battery n.electionTimeoutS n.heartbeatTimeoutS

/-- The election of a node is decided. -/
def Decided (n : BullyElection Id) : Prop := n.state = .elected ∨ n.state = .follower

/-- The best node: it comes before every other. -/
def IsBest (w : World Id) (best : BullyElection Id) : Prop :=
  best ∈ w.values ∧
    ∀ n ∈ w.values, n.nodeId ≠ best.nodeId → (best.selfInfo 0).Before (n.selfInfo 0)

/-- A move delivers a message to a node whose election is in progress. -/
def Hears (sender receiver : Id) (w : World Id) (l : Move Id) : Prop :=
  (∃ clock, l = .deliver sender receiver clock) ∧
    ∃ n, w.get? receiver = some n ∧ n.state = .electionInProgress

/-- **In a run, a message reached a node while its election was in progress.** -/
def Heard (w₀ : World Id) (ls : List (Move Id)) (sender receiver : Id) : Prop :=
  Runs.Sometime electionStep (Hears sender receiver) w₀ ls

/-- A move replaces one node. -/
theorem electionStep_cases {w w' : World Id} {l : Move Id} (h : electionStep w l = some w') :
    (∃ i clock n, l = .start i clock ∧ w.get? i = some n ∧ n.state = .idle ∧
      w' = w.put (n.startElection clock)) ∨
    (∃ s i clock a n, l = .deliver s i clock ∧ w.get? s = some a ∧ w.get? i = some n ∧ s ≠ i ∧
      w' = w.put (n.receiveElectionMessage s a.depth a.battery clock)) ∨
    ∃ i nowMs clock n, l = .tick i nowMs clock ∧ w.get? i = some n ∧ ¬ n.LeaderTimedOut nowMs ∧
      w' = w.put (n.tick nowMs clock).1 := by
  unfold electionStep at h
  cases l with
  | start i clock =>
      simp only at h
      split at h
      · next n hn =>
          split at h
          · next hidle => exact Or.inl ⟨i, clock, n, rfl, hn, hidle, (Option.some.inj h).symm⟩
          · exact nomatch h
      · exact nomatch h
  | deliver s i clock =>
      simp only at h
      split at h
      · next a n ha hn =>
          split at h
          · next hok =>
              exact Or.inr (Or.inl ⟨s, i, clock, a, n, rfl, ha, hn, hok.2,
                (Option.some.inj h).symm⟩)
          · exact nomatch h
      · exact nomatch h
  | tick i nowMs clock =>
      simp only at h
      split at h
      · next n hn =>
          split at h
          · exact nomatch h
          · next hout =>
              exact Or.inr (Or.inr ⟨i, nowMs, clock, n, rfl, hn, hout, (Option.some.inj h).symm⟩)
      · exact nomatch h

/-! ### What a tick does -/

section Ticks

variable {n : BullyElection Id} {nowMs : ℤ}

/-- **A tick either decides the election for the winner of the table or changes nothing.** -/
theorem tick_cases (hout : ¬ n.LeaderTimedOut nowMs) (clock : ℤ) :
    (∃ w, n.state = .electionInProgress ∧ n.winner = some w ∧
      (n.tick nowMs clock).1.nodeId = n.nodeId ∧ (n.tick nowMs clock).1.depth = n.depth ∧
      (n.tick nowMs clock).1.battery = n.battery ∧ Decided (n.tick nowMs clock).1 ∧
      (n.tick nowMs clock).1.currentLeader = some w.nodeId ∧
      ∀ c ∈ (n.tick nowMs clock).1.candidates.values,
        c = ⟨w.nodeId, w.depth, w.battery, clock, true⟩ ∨ c ∈ n.candidates.values) ∨
    (n.tick nowMs clock).1 = n := by
  unfold tick
  simp only [if_neg hout]
  split
  · next hdue =>
      unfold finalizeElection
      cases hw : n.winner with
      | none => exact Or.inr rfl
      | some w =>
          refine Or.inl ⟨w, hdue.1, rfl, ?_⟩
          by_cases hself : w.nodeId = n.nodeId
          · simp only [if_pos hself, if_neg (not_not.2 hself)]
            exact ⟨rfl, rfl, rfl, Or.inl rfl, trivial, fun c hc => Or.inr hc⟩
          · simp only [if_neg hself, if_pos hself]
            exact ⟨rfl, rfl, rfl, Or.inr rfl, trivial, fun c hc => KeyedMap.mem_values_put hc⟩
  · exact Or.inr rfl

end Ticks

/-! ### What a node knows of the best node -/

/-- A node with these data takes part. -/
def Known (w₀ : World Id) (i : Id) (depth battery : ℚ) : Prop :=
  ∃ m, w₀.get? i = some m ∧ depth = m.depth ∧ battery = m.battery

/-- A node is in the table of candidates. -/
def Listed (n : BullyElection Id) (i : Id) : Prop := ∃ c, n.candidates.get? i = some c

/-- **The invariant of a node**, given whether it heard of the best node during its election. -/
structure NodeInv (w₀ : World Id) (best : BullyElection Id) (heard : Prop)
    (n : BullyElection Id) : Prop where
  known : Known w₀ n.nodeId n.depth n.battery
  candidates : ∀ c ∈ n.candidates.values, Known w₀ c.nodeId c.depth c.battery
  idle : n.state = .idle → n.currentLeader = none ∧ ¬ heard
  inProgress : n.state = .electionInProgress →
    n.currentLeader = none ∧ Listed n n.nodeId ∧
      (Listed n best.nodeId ↔ n.nodeId = best.nodeId ∨ heard)
  decided : Decided n → (n.currentLeader = some best.nodeId ↔ n.nodeId = best.nodeId ∨ heard)

section Knowledge

variable {w₀ : World Id} {best n : BullyElection Id} {heard : Prop}

theorem rank_of_known {i : Id} {depth battery : ℚ} (h : Known w₀ i depth battery) (clock : ℤ)
    (alive : Bool) : ∃ m ∈ w₀.values, m.nodeId = i ∧
      (⟨i, depth, battery, clock, alive⟩ : CandidateInfo Id).rank = (m.selfInfo 0).rank := by
  obtain ⟨m, hm, rfl, rfl⟩ := h
  obtain rfl := KeyedMap.key_of_get? hm
  exact ⟨m, KeyedMap.mem_values_iff.2 hm, rfl, rfl⟩

/-- The winner of a table is the best node exactly if the best node is in it. -/
theorem winner_eq_best_iff (hbest : IsBest w₀ best) (hinv : NodeInv w₀ best heard n)
    {w : CandidateInfo Id} (hw : n.winner = some w) :
    w.nodeId = best.nodeId ↔ Listed n best.nodeId := by
  have hmem := mem_of_winner hw
  constructor
  · intro h
    exact ⟨w, h ▸ KeyedMap.mem_values_iff.1 hmem⟩
  · rintro ⟨c, hc⟩
    -- another winner would rank before the best node, which is in the table
    by_contra hne
    have hkey := KeyedMap.key_of_get? hc
    have hcmem : c ∈ n.candidates.values := KeyedMap.mem_values_iff.2 (hkey ▸ hc)
    obtain ⟨m, hm, hid, hrank⟩ := rank_of_known (hinv.candidates w hmem) w.lastSeenMs w.isAlive
    obtain ⟨b, hb, hbid, hbrank⟩ := rank_of_known (hinv.candidates c hcmem) c.lastSeenMs c.isAlive
    have hbb : b = best := by
      have h₁ := KeyedMap.mem_values_iff.1 hb
      rw [hbid, hkey, KeyedMap.mem_values_iff.1 hbest.1] at h₁
      exact (Option.some.inj h₁).symm
    have hlt := (before_iff _ _).1 (hbest.2 m hm (hid ▸ hne))
    rw [← hrank, ← hbb, ← hbrank] at hlt
    exact absurd (winner_rank_le hw hcmem) (not_le.2 hlt)

theorem NodeInv.start (h : NodeInv w₀ best heard n) (hidle : n.state = .idle) (clock : ℤ) :
    NodeInv w₀ best heard (n.startElection clock) := by
  obtain ⟨hnone, hno⟩ := h.idle hidle
  -- the table is cleared, and then holds the node alone
  have hget : ∀ i, ((n.startElection clock).candidates.get? i) =
      if i = n.nodeId then some (n.selfInfo clock) else none :=
    fun i => KeyedMap.get?_put _ (n.selfInfo clock) i
  refine ⟨h.known, fun c hc => ?_, nofun, fun _ => ⟨hnone, ⟨_, (hget _).trans (if_pos rfl)⟩, ?_⟩,
    fun hd => by rcases hd with hd | hd <;> exact nomatch hd⟩
  · rcases KeyedMap.mem_values_put hc with rfl | hc
    · exact h.known
    · exact absurd hc List.not_mem_nil
  · rw [or_iff_left hno]
    constructor
    · rintro ⟨c, hc⟩
      rw [hget] at hc
      by_contra hne
      rw [if_neg fun h => hne h.symm] at hc
      exact nomatch hc
    · intro heq
      exact ⟨_, (hget _).trans (if_pos heq.symm)⟩

/-- A message adds its sender to the table, and matters while the election is in progress. -/
theorem NodeInv.receive (h : NodeInv w₀ best heard n) {a : BullyElection Id} {sender : Id}
    (ha : Known w₀ sender a.depth a.battery) (clock : ℤ) :
    NodeInv w₀ best (heard ∨ sender = best.nodeId ∧ n.state = .electionInProgress)
      (n.receiveElectionMessage sender a.depth a.battery clock) := by
  have hget : ∀ i, (n.receiveElectionMessage sender a.depth a.battery clock).candidates.get? i =
      if i = sender then some ⟨sender, a.depth, a.battery, clock, true⟩
      else n.candidates.get? i := fun i => KeyedMap.get?_put _ _ i
  refine ⟨h.known, fun c hc => ?_, fun hs => ?_, fun hs => ?_, fun hd => ?_⟩
  · rcases KeyedMap.mem_values_put hc with rfl | hc
    · exact ha
    · exact h.candidates c hc
  · obtain ⟨hnone, hno⟩ := h.idle hs
    refine ⟨hnone, fun hheard => hheard.elim hno fun hin => ?_⟩
    exact nomatch hin.2.symm.trans hs
  · obtain ⟨hnone, ⟨c, hc⟩, hlisted⟩ := h.inProgress hs
    have hstate : n.state = .electionInProgress := hs
    refine ⟨hnone, ?_, ?_⟩
    · by_cases hself : n.nodeId = sender
      · exact ⟨_, (hget _).trans (if_pos hself)⟩
      · exact ⟨c, ((hget _).trans (if_neg hself)).trans hc⟩
    · rw [and_iff_left hstate, ← or_assoc]
      refine Iff.trans ?_ (or_congr_left hlisted)
      by_cases hsender : best.nodeId = sender
      · exact iff_of_true ⟨_, (hget _).trans (if_pos hsender)⟩ (Or.inr hsender.symm)
      · rw [or_iff_left fun h => hsender h.symm, Listed, hget, if_neg hsender]
        rfl
  · -- after the decision the table is not read again
    have hstate : n.state ≠ .electionInProgress := by
      rintro hin
      have hd : n.state = .elected ∨ n.state = .follower := hd
      rw [hin] at hd
      rcases hd with hd | hd <;> exact nomatch hd
    have hsame : (heard ∨ sender = best.nodeId ∧ n.state = .electionInProgress) ↔ heard :=
      or_iff_left fun hin => hstate hin.2
    rw [hsame]
    exact h.decided hd

theorem NodeInv.tick (hbest : IsBest w₀ best) (h : NodeInv w₀ best heard n) {nowMs : ℤ}
    (hout : ¬ n.LeaderTimedOut nowMs) (clock : ℤ) :
    NodeInv w₀ best heard (n.tick nowMs clock).1 := by
  rcases tick_cases hout clock with
    ⟨w, hin, hw, hid, hdepth, hbattery, hdec, hleader, hcand⟩ | hsame
  · have hstate : (n.tick nowMs clock).1.state ≠ .idle ∧
        (n.tick nowMs clock).1.state ≠ .electionInProgress := by
      rcases hdec with hdec | hdec <;> rw [hdec] <;> exact ⟨nofun, nofun⟩
    refine ⟨?_, fun c hc => ?_, fun hs => absurd hs hstate.1, fun hs => absurd hs hstate.2,
      fun _ => ?_⟩
    · rw [hid, hdepth, hbattery]
      exact h.known
    · rcases hcand c hc with rfl | hc
      · exact h.candidates w (mem_of_winner hw)
      · exact h.candidates c hc
    · rw [hleader, hid, Option.some.injEq, winner_eq_best_iff hbest h hw]
      exact (h.inProgress hin).2.2
  · rw [hsame]
    exact h

end Knowledge

/-! ### Every run -/

section Run

variable {w₀ w w' : World Id} {best : BullyElection Id} {l : Move Id}

/-- A new version of a node takes its place. -/
theorem get?_put_node {n n' : BullyElection Id} {i : Id} (hn : w.get? i = some n)
    (hid : n'.nodeId = n.nodeId) (j : Id) :
    (w.put n').get? j = if j = i then some n' else w.get? j := by
  rw [KeyedMap.get?_put, hid, KeyedMap.key_of_get? hn]

/-- The invariant of all nodes. -/
def WorldInv (w₀ : World Id) (best : BullyElection Id) (ls : List (Move Id)) (w : World Id) :
    Prop :=
  (∀ i, (w.get? i).isSome = (w₀.get? i).isSome) ∧
    ∀ i n, w.get? i = some n → NodeInv w₀ best (Heard w₀ ls best.nodeId i) n

theorem worldInv_fresh (hfresh : Fresh w₀) : WorldInv w₀ best [] w₀ := by
  refine ⟨fun _ => rfl, fun i n hn => ?_⟩
  obtain rfl := KeyedMap.key_of_get? hn
  have hnew := hfresh n (KeyedMap.mem_values_iff.2 hn)
  have hstate : n.state = .idle := by rw [hnew]; rfl
  have hleader : n.currentLeader = none := by rw [hnew]; rfl
  have hcand : n.candidates.values = [] := by rw [hnew]; rfl
  refine ⟨⟨n, hn, rfl, rfl⟩, fun c hc => ?_, fun _ => ⟨hleader, id⟩, fun h => ?_, fun h => ?_⟩
  · rw [hcand] at hc
    exact absurd hc List.not_mem_nil
  · exact nomatch hstate.symm.trans h
  · rcases h with h | h <;> exact nomatch hstate.symm.trans h

/-- One move: the node it replaces keeps its invariant, the others are untouched. -/
theorem WorldInv.replace {ls : List (Move Id)} (h : WorldInv w₀ best ls w)
    (hrun : Runs.run electionStep w₀ ls = some w) {n n' : BullyElection Id} {i : Id}
    (hn : w.get? i = some n) (hid : n'.nodeId = n.nodeId)
    (hother : ∀ j, j ≠ i → ¬ Hears best.nodeId j w l)
    (hinv : NodeInv w₀ best (Heard w₀ ls best.nodeId i ∨ Hears best.nodeId i w l) n') :
    WorldInv w₀ best (ls ++ [l]) (w.put n') := by
  refine ⟨fun j => ?_, fun j m hm => ?_⟩
  · rw [get?_put_node hn hid, ← h.1 j]
    split
    · next hj => rw [hj, hn]; rfl
    · rfl
  · rw [get?_put_node hn hid] at hm
    unfold Heard
    rw [Runs.sometime_concat hrun]
    split at hm
    · next hj =>
        subst hj
        exact Option.some.inj hm ▸ hinv
    · next hj =>
        rw [or_iff_left (hother j hj)]
        exact h.2 j m hm

/-- **The invariant holds in every run.** -/
theorem nodeInv_of_run (hfresh : Fresh w₀) (hbest : IsBest w₀ best) {ls : List (Move Id)}
    (hrun : Runs.run electionStep w₀ ls = some w) : WorldInv w₀ best ls w := by
  refine Runs.invariant_of_history (I := WorldInv w₀ best) (worldInv_fresh hfresh)
    (fun ls l w w' hrun h hstep => ?_) hrun
  rcases electionStep_cases hstep with ⟨i, clock, n, rfl, hn, hidle, rfl⟩ |
    ⟨s, i, clock, a, n, rfl, ha, hn, -, rfl⟩ | ⟨i, nowMs, clock, n, rfl, hn, hout, rfl⟩
  · have hno : ∀ j, ¬ Hears best.nodeId j w (.start i clock) := fun j h => nomatch h.1
    refine h.replace hrun hn rfl (fun j _ => hno j) ?_
    rw [or_iff_left (hno i)]
    exact (h.2 i n hn).start hidle clock
  · have hhears : ∀ j, Hears best.nodeId j w (.deliver s i clock) ↔
        j = i ∧ s = best.nodeId ∧ n.state = .electionInProgress := by
      intro j
      constructor
      · rintro ⟨⟨_, hl⟩, m, hm, hin⟩
        cases hl
        exact ⟨rfl, rfl, Option.some.inj (hn.symm.trans hm) ▸ hin⟩
      · rintro ⟨rfl, rfl, hin⟩
        exact ⟨⟨clock, rfl⟩, n, hn, hin⟩
    have hknown : Known w₀ s a.depth a.battery := by
      have hk := (h.2 s a ha).known
      rwa [KeyedMap.key_of_get? ha] at hk
    refine h.replace hrun hn rfl (fun j hj hh => hj ((hhears j).1 hh).1) ?_
    rw [hhears i, and_iff_right rfl]
    exact (h.2 i n hn).receive hknown clock
  · have hno : ∀ j, ¬ Hears best.nodeId j w (.tick i nowMs clock) := fun j h => nomatch h.1
    have hid : (n.tick nowMs clock).1.nodeId = n.nodeId := by
      rcases tick_cases hout clock with ⟨_, _, _, hid, _⟩ | hsame
      · exact hid
      · rw [hsame]
    refine h.replace hrun hn hid (fun j _ => hno j) ?_
    rw [or_iff_left (hno i)]
    exact (h.2 i n hn).tick hbest hout clock

/-- All nodes follow the best node, and exactly one node leads. -/
def Agreement (w : World Id) (best : BullyElection Id) : Prop :=
  (∀ n ∈ w.values, n.currentLeader = some best.nodeId) ∧ ∃! n, n ∈ w.values ∧ n.isLeader = true

/-- **Once all elections are decided, all nodes follow the best node exactly if its message has
reached each of them while its election was in progress.** -/
theorem election_agrees_iff (hfresh : Fresh w₀) (hbest : IsBest w₀ best) {ls : List (Move Id)}
    (hrun : Runs.run electionStep w₀ ls = some w) (hdone : ∀ n ∈ w.values, Decided n) :
    Agreement w best ↔
      ∀ n ∈ w.values, n.nodeId ≠ best.nodeId → Heard w₀ ls best.nodeId n.nodeId := by
  have hinv := nodeInv_of_run hfresh hbest hrun
  have hleader : ∀ n ∈ w.values, (n.currentLeader = some best.nodeId ↔
      n.nodeId = best.nodeId ∨ Heard w₀ ls best.nodeId n.nodeId) := fun n hn =>
    (hinv.2 n.nodeId n (KeyedMap.mem_values_iff.1 hn)).decided (hdone n hn)
  constructor
  · rintro ⟨hall, -⟩ n hn hne
    exact ((hleader n hn).1 (hall n hn)).resolve_left hne
  · intro hheard
    have hall : ∀ n ∈ w.values, n.currentLeader = some best.nodeId := fun n hn =>
      (hleader n hn).2 (or_iff_not_imp_left.2 (hheard n hn))
    refine ⟨hall, ?_⟩
    -- the best node follows itself, so it is the only one that leads
    have hsome : (w.get? best.nodeId).isSome := by
      rw [hinv.1, KeyedMap.mem_values_iff.1 hbest.1]
      rfl
    obtain ⟨b, hb⟩ := Option.isSome_iff_exists.1 hsome
    have hid := KeyedMap.key_of_get? hb
    have hmem : b ∈ w.values := KeyedMap.mem_values_iff.2 (hid ▸ hb)
    refine ⟨b, ⟨hmem, decide_eq_true ((hall b hmem).trans (congrArg some hid.symm))⟩, ?_⟩
    rintro n ⟨hn, hlead⟩
    have hnid : best.nodeId = n.nodeId :=
      Option.some.inj ((hall n hn).symm.trans (of_decide_eq_true hlead))
    have hget := KeyedMap.mem_values_iff.1 hn
    rw [← hnid, hb] at hget
    exact (Option.some.inj hget).symm

end Run

/-! ### A message that comes early -/

/-- In a run, a message reached a node before its election was decided. -/
def DeliveredInTime (w₀ : World Id) (ls : List (Move Id)) (sender receiver : Id) : Prop :=
  Runs.Sometime electionStep (fun w l => (∃ clock, l = .deliver sender receiver clock) ∧
    ∃ n, w.get? receiver = some n ∧ ¬ Decided n) w₀ ls

/-- The deeper one of two nodes. -/
def deepNode : BullyElection NodeId := .new "a" 2 100 5 10

/-- The other one. -/
def shallowNode : BullyElection NodeId := .new "b" 1 100 5 10

def twoNodes : World NodeId := ((∅ : World NodeId).put deepNode).put shallowNode

theorem fresh_twoNodes : Fresh twoNodes := by
  intro n hn
  rcases List.mem_cons.1 hn with rfl | hn
  · rfl
  · rw [List.mem_singleton.1 hn]
    rfl

theorem isBest_deepNode : IsBest twoNodes deepNode := by
  refine ⟨List.mem_cons_self, fun n hn hne => ?_⟩
  rcases List.mem_cons.1 hn with rfl | hn
  · exact absurd rfl hne
  · rw [List.mem_singleton.1 hn]
    decide +kernel

/-- Both nodes start, hear of each other and decide. -/
def bothHear : List (Move NodeId) :=
  [.start "a" 0, .start "b" 1, .deliver "a" "b" 2, .deliver "b" "a" 3, .tick "a" 6000 6000,
    .tick "b" 8000 8000]

/-- The message of the deeper node arrives before the other node has started. -/
def earlyMessage : List (Move NodeId) :=
  [.start "a" 0, .deliver "a" "b" 1, .start "b" 2, .deliver "b" "a" 3, .tick "a" 6000 6000,
    .tick "b" 8000 8000]

instance (n : BullyElection Id) : Decidable (Decided n) := inferInstanceAs (Decidable (_ ∨ _))

theorem exists_run_of_decided (ls : List (Move NodeId))
    (h : ((Runs.run electionStep twoNodes ls).map fun w => w.values.all fun n => Decided n) =
      some true) :
    ∃ w, Runs.run electionStep twoNodes ls = some w ∧ ∀ n ∈ w.values, Decided n := by
  obtain ⟨w, hw, hall⟩ := Option.map_eq_some_iff.1 h
  exact ⟨w, hw, fun n hn => of_decide_eq_true (List.all_eq_true.1 hall n hn)⟩

/-- The run in which both nodes hear of each other. -/
theorem election_agrees_iff_bothHear :
    ∃ w, Runs.run electionStep twoNodes bothHear = some w ∧
      (Agreement w deepNode ↔ ∀ n ∈ w.values, n.nodeId ≠ deepNode.nodeId →
        Heard twoNodes bothHear deepNode.nodeId n.nodeId) := by
  obtain ⟨w, hw, hdone⟩ := exists_run_of_decided bothHear (by decide +kernel)
  exact ⟨w, hw, election_agrees_iff fresh_twoNodes isBest_deepNode hw hdone⟩

theorem isSome_twoNodes {k : NodeId} :
    (twoNodes.get? k).isSome ↔ k = ("a" : NodeId) ∨ k = ("b" : NodeId) := by
  constructor
  · intro hk
    obtain ⟨n, hn⟩ := Option.isSome_iff_exists.1 hk
    have hmem := KeyedMap.mem_values_iff.2 ((KeyedMap.key_of_get? hn).symm ▸ hn)
    rw [← KeyedMap.key_of_get? hn]
    rcases List.mem_cons.1 hmem with rfl | hmem
    · exact Or.inl rfl
    · rw [List.mem_singleton.1 hmem]
      exact Or.inr rfl
  · rintro (rfl | rfl) <;> rfl

theorem deliveredInTime_earlyMessage {i j : NodeId} (hi : (twoNodes.get? i).isSome)
    (hj : (twoNodes.get? j).isSome) (hne : i ≠ j) : DeliveredInTime twoNodes earlyMessage i j := by
  rcases isSome_twoNodes.1 hi with rfl | rfl <;> rcases isSome_twoNodes.1 hj with rfl | rfl
  · exact absurd rfl hne
  · exact Or.inr ⟨_, rfl, Or.inl ⟨⟨_, rfl⟩, _, rfl, by decide⟩⟩
  · exact Or.inr ⟨_, rfl, Or.inr ⟨_, rfl, Or.inr ⟨_, rfl, Or.inl ⟨⟨_, rfl⟩, _, rfl, by decide⟩⟩⟩⟩
  · exact absurd rfl hne

/-- **Two leaders**: the message that comes early is lost, and each node elects itself. -/
theorem early_message_elects_two :
    ¬ ∀ (w₀ w : World NodeId) (best : BullyElection NodeId) (ls : List (Move NodeId)),
      Fresh w₀ → IsBest w₀ best → Runs.run electionStep w₀ ls = some w →
      (∀ n ∈ w.values, Decided n) →
      (∀ i j, (w₀.get? i).isSome → (w₀.get? j).isSome → i ≠ j → DeliveredInTime w₀ ls i j) →
        Agreement w best := by
  intro h
  obtain ⟨w, hw, hdone⟩ := exists_run_of_decided earlyMessage (by decide +kernel)
  obtain ⟨hall, -⟩ := h twoNodes w deepNode earlyMessage fresh_twoNodes isBest_deepNode hw hdone
    fun i j hi hj hne => deliveredInTime_earlyMessage hi hj hne
  have hleaders : ((Runs.run electionStep twoNodes earlyMessage).map fun w =>
      w.values.map fun n => n.currentLeader) = some [some ("a" : NodeId), some ("b" : NodeId)] := by
    decide +kernel
  rw [hw] at hleaders
  have hmap : w.values.map (fun n => n.currentLeader) =
      [some ("a" : NodeId), some ("b" : NodeId)] := Option.some.inj hleaders
  have hmem : some ("b" : NodeId) ∈ w.values.map fun n => n.currentLeader := by
    rw [hmap]
    exact List.mem_cons_of_mem _ List.mem_cons_self
  obtain ⟨n, hn, hlead⟩ := List.mem_map.1 hmem
  rw [hall n hn] at hlead
  exact absurd hlead (by decide)

end Swarm
