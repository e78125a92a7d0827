/-
**Votes without a leader** (`vertex_swarm/core/bft_consensus.py`,
`vertex_swarm/core/vertex_node.py`).

A node that puts a choice to the vote collects the votes that come in until a quorum has the same
choice.  A vote counts for whoever it names as its voter, member or not; and every node echoes each
choice that it hears of as a vote of its own, also when it has voted for another one.

Main definitions:

* `VertexSwarm.LeaderlessVoteCollector` — the votes for a proposal, with `record` and `poll`;
* `VertexSwarm.VertexSwarmNode` — a node, with `leaderlessVote` and `onVertexMessage`;
* `VertexSwarm.Assembly`, `VertexSwarm.voteStep` — the nodes of a roster, all votes that were sent,
  and what was decided;
* `VertexSwarm.Quorate`, `VertexSwarm.Agreed` — decisions have a quorum of members, and do not
  contradict each other;
* `VertexSwarm.InOwnName`, `VertexSwarm.OneChoice` — members vote for themselves, and for one choice
  of a proposal.

Main results:

* `VertexSwarm.LeaderlessVoteCollector.poll_eq_some` — who has voted for what is decided;
* `VertexSwarm.ballots_run` — the votes that are recorded were cast by members;
* `VertexSwarm.votes_sound` — **decisions have a quorum if all vote in their own name, and do not
  contradict each other if, besides, nobody votes for two choices.**
-/
import Mathlib.Data.Finset.Card
import Mathlib.Data.List.Sort
import Endendend.Foundation.OrderedMap
import Endendend.Foundation.PyText
import Endendend.Foundation.Runs

set_option relaxedAutoImplicit false
set_option autoImplicit false

namespace VertexSwarm

open Py (Str)
open Js (OrderedMap)
open Runs

/-! ### Collecting votes -/

/-- A vote, with the fields that it has. -/
structure VoteMessage where
  proposalId : Option Str
  choice : Option Str
  voter : Option Str
  quorum : ℤ
  deriving DecidableEq

namespace VoteMessage

variable (msg : VoteMessage)

/-- The proposal that is voted on; the text of a field that is missing is empty. -/
def pid : Str := msg.proposalId.getD Str.empty

def chosen : Str := msg.choice.getD Str.empty

end VoteMessage

def quorumThreshold (n : ℕ) : ℕ := max 1 (2 * max n 1 / 3 + 1)

structure LeaderlessVoteCollector where
  nodeId : Str
  peerIds : List Str
  votes : OrderedMap Str (OrderedMap Str Str)
  proposalId : Option Str

namespace LeaderlessVoteCollector

def new (nodeId : Str) (peerIds : List Str) : LeaderlessVoteCollector :=
  ⟨nodeId, peerIds.insertionSort (· ≤ ·), ∅, none⟩

variable (c : LeaderlessVoteCollector)

def votesFor (pid : Str) : OrderedMap Str Str := (c.votes.get? pid).getD ∅

/-- Notes a vote for the proposal under the name of its voter, in place of an earlier one. -/
def record (sender : Str) (msg : VoteMessage) : LeaderlessVoteCollector :=
  if some msg.pid ≠ c.proposalId then c
  else
    { c with
      votes := c.votes.set msg.pid
        ((c.votesFor msg.pid).set (msg.voter.getD sender) msg.chosen) }

/-- The own vote, and the message that asks the others for theirs. -/
def propose (choice pid : Str) : VoteMessage × LeaderlessVoteCollector :=
  (⟨some pid, some choice, some c.nodeId, quorumThreshold c.peerIds.length⟩,
    { c with
      proposalId := some pid
      votes := c.votes.set pid (OrderedMap.empty.set c.nodeId choice) })

/-- The voters of each choice, in the order of the choices. -/
def tally (votes : OrderedMap Str Str) : OrderedMap Str (List (Str × Str)) :=
  OrderedMap.group Prod.snd votes.entries

/-- The first choice with a quorum. -/
def poll (pid : Str) : Option Str :=
  ((tally (c.votesFor pid)).entries.find? fun p =>
    quorumThreshold c.peerIds.length ≤ p.2.length).map Prod.fst

end LeaderlessVoteCollector

/-! ### Nodes -/

structure VertexSwarmNode where
  nodeId : Str
  peerIds : List Str
  vote : Option LeaderlessVoteCollector
  echoVoteKeys : List (Str × Str)
  autoEchoVotes : Bool

namespace VertexSwarmNode

variable (node : VertexSwarmNode)

def setPeerRoster (ids : List Str) : VertexSwarmNode :=
  { node with
    peerIds := (node.nodeId :: ids.filter (· ≠ node.nodeId)).dedup.insertionSort (· ≤ ·) }

/-- Starts to collect votes; without a roster a node is alone. -/
def leaderlessVote (choice pid : Str) : VoteMessage × VertexSwarmNode :=
  let peers := if node.peerIds = [] then [node.nodeId] else node.peerIds
  let proposed := (LeaderlessVoteCollector.new node.nodeId peers).propose choice pid
  (proposed.1, { node with vote := some proposed.2 })

/-- The end of a vote, decided or not. -/
def endVote : VertexSwarmNode := { node with vote := none, echoVoteKeys := [] }

/-- A vote of another one that is echoed: its choice was not echoed before. -/
def Echoes (msg : VoteMessage) : Prop :=
  node.autoEchoVotes = true ∧
    (msg.voter.getD Str.empty ≠ Str.empty ∧ msg.voter ≠ some node.nodeId) ∧
    msg.pid ≠ Str.empty ∧ msg.chosen ≠ Str.empty ∧ (msg.pid, msg.chosen) ∉ node.echoVoteKeys

instance (msg : VoteMessage) : Decidable (node.Echoes msg) :=
  inferInstanceAs (Decidable (_ ∧ (_ ∧ _) ∧ _ ∧ _ ∧ _))

/-- The echo, in the own name. -/
def echo (msg : VoteMessage) : VoteMessage :=
  ⟨some msg.pid, some msg.chosen, some node.nodeId, msg.quorum⟩

def onVertexMessage (sender : Str) (msg : VoteMessage) : Option VoteMessage × VertexSwarmNode :=
  let node := { node with
    vote := node.vote.map fun c : LeaderlessVoteCollector => c.record sender msg }
  if node.Echoes msg then
    (some (node.echo msg),
      { node with echoVoteKeys := (msg.pid, msg.chosen) :: node.echoVoteKeys })
  else (none, node)

end VertexSwarmNode

/-! ### The assembly -/

/-- A node has decided. -/
structure Decision where
  node : Str
  pid : Str
  choice : Str
  deriving DecidableEq

/-- The nodes, the votes that were sent, each with its sender, and what was decided. -/
structure Assembly where
  nodes : Str → VertexSwarmNode
  sent : List (Str × VoteMessage)
  decisions : List Decision

/-- A node puts a choice to the vote, receives a vote that was sent, looks whether there is a
quorum, or waits no longer; or somebody sends a vote of any kind. -/
inductive VoteMove
  | leaderlessVote (node choice pid : Str)
  | receive (node sender : Str) (msg : VoteMessage)
  | poll (node : Str)
  | expire (node : Str)
  | send (sender : Str) (msg : VoteMessage)

namespace Assembly

def start (roster : List Str) (autoEchoVotes : Bool) : Assembly :=
  ⟨fun i => VertexSwarmNode.setPeerRoster ⟨i, [], none, [], autoEchoVotes⟩ roster, [], []⟩

variable (s : Assembly)

def setNode (i : Str) (node : VertexSwarmNode) : Assembly :=
  { s with nodes := Function.update s.nodes i node }

/-- A member has voted for a choice: it has sent a vote in its own name. -/
def Voted (v pid choice : Str) : Prop :=
  ∃ p ∈ s.sent, p.1 = v ∧ p.2.voter = some v ∧ p.2.pid = pid ∧ p.2.chosen = choice

instance (v pid choice : Str) : Decidable (s.Voted v pid choice) :=
  inferInstanceAs (Decidable (∃ p ∈ s.sent, _))

/-- A member has voted for no other choice of the proposal. -/
def VotedOnly (v pid choice : Str) : Prop :=
  ∀ p ∈ s.sent, p.1 = v ∧ p.2.voter = some v ∧ p.2.pid = pid → p.2.chosen = choice

instance (v pid choice : Str) : Decidable (s.VotedOnly v pid choice) :=
  inferInstanceAs (Decidable (∀ p ∈ s.sent, _))

end Assembly

section Roster

variable (roster : List Str)

/-- A vote reaches any of the nodes, any number of times, or none. -/
def voteStep (s : Assembly) : VoteMove → Option Assembly
  | .leaderlessVote i choice pid =>
    if i ∈ roster ∧ (s.nodes i).vote.isNone then
      let proposed := (s.nodes i).leaderlessVote choice pid
      some { s.setNode i proposed.2 with sent := s.sent ++ [(i, proposed.1)] }
    else none
  | .receive i sender msg =>
    if i ∈ roster ∧ (sender, msg) ∈ s.sent then
      let handled := (s.nodes i).onVertexMessage sender msg
      some { s.setNode i handled.2 with
        sent := s.sent ++ handled.1.toList.map fun echo => (i, echo) }
    else none
  | .poll i =>
    (s.nodes i).vote.bind fun c =>
      c.proposalId.bind fun pid =>
        (c.poll pid).map fun choice =>
          { s.setNode i (s.nodes i).endVote with decisions := s.decisions ++ [⟨i, pid, choice⟩] }
  | .expire i => (s.nodes i).vote.map fun _ => s.setNode i (s.nodes i).endVote
  | .send sender msg => some { s with sent := s.sent ++ [(sender, msg)] }

/-- Of the members of the roster, a quorum has voted for what was decided. -/
def Quorate (s : Assembly) : Prop :=
  ∀ d ∈ s.decisions, 2 * roster.toFinset.card / 3 + 1 ≤
    (roster.toFinset.filter fun v => s.Voted v d.pid d.choice).card

/-- Nodes that have decided on the same proposal have decided the same. -/
def Agreed (s : Assembly) : Prop :=
  ∀ d ∈ s.decisions, ∀ d' ∈ s.decisions, d.pid = d'.pid → d.choice = d'.choice

/-- A vote that somebody sends comes from the member that it names. -/
def InOwnName : VoteMove → Prop
  | .send sender msg => msg.voter = some sender ∧ sender ∈ roster
  | _ => True

/-- Nobody who votes has voted for another choice of the same proposal. -/
def OneChoice (s : Assembly) : VoteMove → Prop
  | .leaderlessVote i choice pid => s.VotedOnly i pid choice
  | .receive i _ msg => (s.nodes i).Echoes msg → s.VotedOnly i msg.pid msg.chosen
  | .send sender msg => s.VotedOnly sender msg.pid msg.chosen
  | _ => True

instance (mv : VoteMove) : Decidable (InOwnName roster mv) := by
  cases mv <;> unfold InOwnName <;> infer_instance

instance (s : Assembly) (mv : VoteMove) : Decidable (OneChoice s mv) := by
  cases mv <;> unfold OneChoice <;> infer_instance

end Roster

/-! ### What a collector decides -/

namespace LeaderlessVoteCollector

variable {c : LeaderlessVoteCollector} {pid choice : Str}

/-- Who has voted for a choice, by the votes that were recorded. -/
def votersOf (c : LeaderlessVoteCollector) (pid choice : Str) : List Str :=
  ((c.votesFor pid).entries.filter fun e => e.2 = choice).map Prod.fst

theorem nodup_votersOf : (c.votersOf pid choice).Nodup :=
  (c.votesFor pid).nodup.sublist (List.filter_sublist.map Prod.fst)

theorem mem_votersOf {v : Str} :
    v ∈ c.votersOf pid choice ↔ (c.votesFor pid).get? v = some choice := by
  rw [votersOf, List.mem_map, ← OrderedMap.mem_entries_iff]
  constructor
  · rintro ⟨⟨v', choice'⟩, hmem, rfl⟩
    obtain ⟨hentry, heq⟩ := List.mem_filter.1 hmem
    obtain rfl := of_decide_eq_true heq
    exact hentry
  · intro hmem
    exact ⟨(v, choice), List.mem_filter.2 ⟨hmem, decide_eq_true rfl⟩, rfl⟩

/-- **What is decided has a quorum among the votes that were recorded.** -/
theorem poll_eq_some (h : c.poll pid = some choice) :
    quorumThreshold c.peerIds.length ≤ (c.votersOf pid choice).length := by
  obtain ⟨⟨choice', es⟩, hfind, rfl⟩ := Option.map_eq_some_iff.1 h
  have hquorum : quorumThreshold c.peerIds.length ≤ es.length := by
    simpa using List.find?_some hfind
  rw [OrderedMap.mem_group (List.mem_of_find?_eq_some hfind)] at hquorum
  rw [votersOf, List.length_map]
  exact hquorum

theorem votesFor_of_set {c' : LeaderlessVoteCollector} {votes : OrderedMap Str Str}
    (h : c'.votes = c.votes.set pid votes) : c'.votesFor pid = votes := by
  rw [votesFor, h, OrderedMap.get?_set_self, Option.getD_some]

/-- A vote that is recorded was there before, or it is the one that came in. -/
theorem get?_votesFor_record {sender v ch : Str} {msg : VoteMessage}
    (hpid : c.proposalId = some pid)
    (h : ((c.record sender msg).votesFor pid).get? v = some ch) :
    (c.votesFor pid).get? v = some ch ∨
      msg.pid = pid ∧ v = msg.voter.getD sender ∧ ch = msg.chosen := by
  rw [record] at h
  split at h
  · exact Or.inl h
  · next hsame =>
    obtain rfl : msg.pid = pid := Option.some.inj ((not_not.1 hsame).trans hpid)
    rw [votesFor_of_set (c := c) rfl, OrderedMap.get?_set] at h
    split at h
    · next hv => exact Or.inr ⟨rfl, hv, (Option.some.inj h).symm⟩
    · exact Or.inl h

/-- A vote begins with the own choice. -/
theorem get?_votesFor_propose (v : Str) :
    ((c.propose choice pid).2.votesFor pid).get? v =
      if v = c.nodeId then some choice else none := by
  rw [votesFor_of_set (c := c) rfl]
  exact OrderedMap.get?_set _ _ _ _

theorem record_rest (c : LeaderlessVoteCollector) (sender : Str) (msg : VoteMessage) :
    (c.record sender msg).proposalId = c.proposalId ∧
      (c.record sender msg).peerIds = c.peerIds := by
  rw [record]
  split <;> exact ⟨rfl, rfl⟩

end LeaderlessVoteCollector

theorem le_quorumThreshold (n : ℕ) : 2 * n / 3 + 1 ≤ quorumThreshold n := by
  rw [quorumThreshold]
  omega

/-! ### The nodes of an assembly -/

variable {roster : List Str} {s s' : Assembly} {mv : VoteMove}

/-- The nodes know their names and the number of the members. -/
structure Rostered (roster : List Str) (s : Assembly) : Prop where
  name : ∀ i, (s.nodes i).nodeId = i
  size : ∀ i ∈ roster, (s.nodes i).peerIds.length = roster.toFinset.card
  quorum : ∀ i c, (s.nodes i).vote = some c → c.peerIds.length = roster.toFinset.card

theorem length_setPeerRoster {node : VertexSwarmNode} (h : node.nodeId ∈ roster) :
    (node.setPeerRoster roster).peerIds.length = roster.toFinset.card := by
  have hsame : (node.nodeId :: roster.filter (· ≠ node.nodeId)).toFinset = roster.toFinset := by
    ext v
    by_cases hv : v = node.nodeId
    · simp [hv, h]
    · simp [hv]
  rw [VertexSwarmNode.setPeerRoster, List.length_insertionSort, ← hsame, List.card_toFinset]

theorem rostered_start (autoEchoVotes : Bool) :
    Rostered roster (.start roster autoEchoVotes) := by
  constructor
  · intro i
    rfl
  · intro i hi
    exact length_setPeerRoster hi
  · intro i c hc
    cases hc

/-- A node after a message: its name and its peers stay, and its collector records the vote. -/
theorem onVertexMessage_rest (node : VertexSwarmNode) (sender : Str) (msg : VoteMessage) :
    (node.onVertexMessage sender msg).2.nodeId = node.nodeId ∧
      (node.onVertexMessage sender msg).2.peerIds = node.peerIds ∧
      (node.onVertexMessage sender msg).2.vote = node.vote.map fun c => c.record sender msg := by
  rw [VertexSwarmNode.onVertexMessage]
  dsimp only
  split <;> exact ⟨rfl, rfl, rfl⟩

theorem rostered_setNode (h : Rostered roster s) (i : Str) (node : VertexSwarmNode)
    (hname : node.nodeId = i) (hpeers : node.peerIds = (s.nodes i).peerIds)
    (hvote : ∀ c, node.vote = some c → c.peerIds.length = roster.toFinset.card)
    (hnodes : s'.nodes = Function.update s.nodes i node) : Rostered roster s' := by
  have hcases : ∀ j, s'.nodes j = if j = i then node else s.nodes j := fun j => by
    rw [hnodes, Function.update_apply]
  constructor
  · intro j
    rw [hcases]
    split
    · next hj => rw [hname, hj]
    · exact h.name j
  · intro j hj
    rw [hcases]
    split
    · next hji =>
      rw [hpeers, ← hji]
      exact h.size j hj
    · exact h.size j hj
  · intro j c hc
    rw [hcases] at hc
    split at hc
    · exact hvote c hc
    · exact h.quorum j c hc

theorem rostered_step (h : Rostered roster s) (hstep : voteStep roster s mv = some s') :
    Rostered roster s' := by
  cases mv with
  | leaderlessVote i choice pid =>
      obtain ⟨⟨hi, -⟩, hstep⟩ := Option.ite_none_right_eq_some.1 hstep
      obtain rfl := Option.some.inj hstep
      refine rostered_setNode h i ((s.nodes i).leaderlessVote choice pid).2 (h.name i) rfl ?_ rfl
      intro c hc
      obtain rfl := Option.some.inj hc
      have hsize := h.size i hi
      change (List.insertionSort _ (if (s.nodes i).peerIds = [] then _ else _)).length = _
      rw [List.length_insertionSort, if_neg]
      · exact hsize
      · intro hnil
        rw [hnil] at hsize
        have hempty := Finset.card_eq_zero.1 hsize.symm
        exact absurd (List.mem_toFinset.2 hi) (hempty ▸ Finset.notMem_empty i)
  | receive i sender msg =>
      obtain ⟨-, hstep⟩ := Option.ite_none_right_eq_some.1 hstep
      obtain rfl := Option.some.inj hstep
      obtain ⟨hname, hpeers, hvote⟩ := onVertexMessage_rest (s.nodes i) sender msg
      refine rostered_setNode h i _ (hname.trans (h.name i)) hpeers ?_ rfl
      intro c hc
      rw [hvote] at hc
      obtain ⟨c', hc', rfl⟩ := Option.map_eq_some_iff.1 hc
      rw [(c'.record_rest sender msg).2]
      exact h.quorum i c' hc'
  | poll i =>
      obtain ⟨c, -, hstep⟩ := Option.bind_eq_some_iff.1 hstep
      obtain ⟨pid, -, hstep⟩ := Option.bind_eq_some_iff.1 hstep
      obtain ⟨choice, -, rfl⟩ := Option.map_eq_some_iff.1 hstep
      exact rostered_setNode h i (s.nodes i).endVote (h.name i) rfl (fun c hc => by cases hc) rfl
  | expire i =>
      obtain ⟨c, -, rfl⟩ := Option.map_eq_some_iff.1 hstep
      exact rostered_setNode h i (s.nodes i).endVote (h.name i) rfl (fun c hc => by cases hc) rfl
  | send sender msg =>
      obtain rfl := Option.some.inj hstep
      exact ⟨h.name, h.size, h.quorum⟩

/-! ### The votes that are sent -/

/-- A vote that is sent in the own name of a member, who has not voted for another choice. -/
def Sound (roster : List Str) (s : Assembly) (mv : VoteMove) (p : Str × VoteMessage) : Prop :=
  (InOwnName roster mv → p.2.voter = some p.1 ∧ p.1 ∈ roster) ∧
    (OneChoice s mv → s.VotedOnly p.1 p.2.pid p.2.chosen)

/-- **What a move sends**: at most one vote, which is sound if the move is. -/
theorem sent_step (h : Rostered roster s) (hstep : voteStep roster s mv = some s') :
    ∃ vote : Option (Str × VoteMessage), s'.sent = s.sent ++ vote.toList ∧
      ∀ p ∈ vote, Sound roster s mv p := by
  cases mv with
  | leaderlessVote i choice pid =>
      obtain ⟨⟨hi, -⟩, hstep⟩ := Option.ite_none_right_eq_some.1 hstep
      obtain rfl := Option.some.inj hstep
      refine ⟨some (i, ((s.nodes i).leaderlessVote choice pid).1), rfl, ?_⟩
      rintro p hp
      obtain rfl := Option.some.inj hp
      exact ⟨fun _ => ⟨congrArg some (h.name i), hi⟩, fun hone => hone⟩
  | receive i sender msg =>
      obtain ⟨⟨hi, -⟩, hstep⟩ := Option.ite_none_right_eq_some.1 hstep
      obtain rfl := Option.some.inj hstep
      by_cases hechoes : (s.nodes i).Echoes msg
      · have hecho : ((s.nodes i).onVertexMessage sender msg).1 = some ((s.nodes i).echo msg) := by
          rw [VertexSwarmNode.onVertexMessage]
          exact congrArg Prod.fst (if_pos hechoes)
        refine ⟨some (i, (s.nodes i).echo msg), ?_, ?_⟩
        · rw [hecho]
          rfl
        · rintro p hp
          obtain rfl := Option.some.inj hp
          exact ⟨fun _ => ⟨congrArg some (h.name i), hi⟩, fun hone => hone hechoes⟩
      · have hsilent : ((s.nodes i).onVertexMessage sender msg).1 = none := by
          rw [VertexSwarmNode.onVertexMessage]
          exact congrArg Prod.fst (if_neg hechoes)
        refine ⟨none, ?_, fun p hp => by cases hp⟩
        rw [hsilent]
        rfl
  | poll i =>
      obtain ⟨c, -, hstep⟩ := Option.bind_eq_some_iff.1 hstep
      obtain ⟨pid, -, hstep⟩ := Option.bind_eq_some_iff.1 hstep
      obtain ⟨choice, -, rfl⟩ := Option.map_eq_some_iff.1 hstep
      exact ⟨none, (List.append_nil _).symm, fun p hp => by cases hp⟩
  | expire i =>
      obtain ⟨c, -, rfl⟩ := Option.map_eq_some_iff.1 hstep
      exact ⟨none, (List.append_nil _).symm, fun p hp => by cases hp⟩
  | send sender msg =>
      obtain rfl := Option.some.inj hstep
      refine ⟨some (sender, msg), rfl, ?_⟩
      rintro p hp
      obtain rfl := Option.some.inj hp
      exact ⟨id, id⟩

/-- Votes are not taken back. -/
theorem voted_step (h : Rostered roster s) (hstep : voteStep roster s mv = some s')
    {v pid choice : Str} (hvoted : s.Voted v pid choice) : s'.Voted v pid choice := by
  obtain ⟨vote, hsent, -⟩ := sent_step h hstep
  obtain ⟨p, hp, hrest⟩ := hvoted
  exact ⟨p, hsent ▸ List.mem_append_left _ hp, hrest⟩

/-! ### What is recorded -/

/-- **The votes that are recorded were cast by members**, and what was decided has a quorum. -/
structure Ballots (roster : List Str) (s : Assembly) : Prop where
  rostered : Rostered roster s
  own : ∀ p ∈ s.sent, p.2.voter = some p.1 ∧ p.1 ∈ roster
  recorded : ∀ i c pid, (s.nodes i).vote = some c → c.proposalId = some pid →
    ∀ v choice, (c.votesFor pid).get? v = some choice → s.Voted v pid choice
  quorate : Quorate roster s

theorem mem_roster_of_voted (h : Ballots roster s) {v pid choice : Str}
    (hvoted : s.Voted v pid choice) : v ∈ roster := by
  obtain ⟨p, hp, rfl, -⟩ := hvoted
  exact (h.own p hp).2

/-- A node that decides has recorded the votes of a quorum. -/
theorem quorum_of_poll (h : Ballots roster s) {i pid choice : Str} {c : LeaderlessVoteCollector}
    (hc : (s.nodes i).vote = some c) (hpid : c.proposalId = some pid)
    (hpoll : c.poll pid = some choice) : 2 * roster.toFinset.card / 3 + 1 ≤
      (roster.toFinset.filter fun v => s.Voted v pid choice).card := by
  have hvoters : (c.votersOf pid choice).toFinset ⊆
      roster.toFinset.filter fun v => s.Voted v pid choice := by
    intro v hv
    rw [List.mem_toFinset, LeaderlessVoteCollector.mem_votersOf] at hv
    have hvoted := h.recorded i c pid hc hpid v choice hv
    exact Finset.mem_filter.2 ⟨List.mem_toFinset.2 (mem_roster_of_voted h hvoted), hvoted⟩
  calc 2 * roster.toFinset.card / 3 + 1
      ≤ quorumThreshold roster.toFinset.card := le_quorumThreshold _
    _ = quorumThreshold c.peerIds.length := by rw [h.rostered.quorum i c hc]
    _ ≤ (c.votersOf pid choice).length := LeaderlessVoteCollector.poll_eq_some hpoll
    _ = (c.votersOf pid choice).toFinset.card :=
        (List.toFinset_card_of_nodup LeaderlessVoteCollector.nodup_votersOf).symm
    _ ≤ _ := Finset.card_le_card hvoters

theorem quorate_of_voted (h : Ballots roster s)
    (hvoted : ∀ v pid choice, s.Voted v pid choice → s'.Voted v pid choice)
    (hnew : ∀ d ∈ s'.decisions, d ∈ s.decisions ∨ 2 * roster.toFinset.card / 3 + 1 ≤
      (roster.toFinset.filter fun v => s.Voted v d.pid d.choice).card) : Quorate roster s' := by
  intro d hd
  have hmono : (roster.toFinset.filter fun v => s.Voted v d.pid d.choice).card ≤
      (roster.toFinset.filter fun v => s'.Voted v d.pid d.choice).card :=
    Finset.card_le_card (Finset.monotone_filter_right _ fun v _ => hvoted v _ _)
  exact ((hnew d hd).elim (h.quorate d) id).trans hmono

theorem recorded_setNode (h : Ballots roster s) (i : Str) (node : VertexSwarmNode)
    (hvoted : ∀ v pid choice, s.Voted v pid choice → s'.Voted v pid choice)
    (hnodes : s'.nodes = Function.update s.nodes i node)
    (hnode : ∀ c pid, node.vote = some c → c.proposalId = some pid →
      ∀ v choice, (c.votesFor pid).get? v = some choice → s'.Voted v pid choice) :
    ∀ j c pid, (s'.nodes j).vote = some c → c.proposalId = some pid →
      ∀ v choice, (c.votesFor pid).get? v = some choice → s'.Voted v pid choice := by
  intro j c pid hc hpid v choice hget
  rw [hnodes, Function.update_apply] at hc
  split at hc
  · exact hnode c pid hc hpid v choice hget
  · exact hvoted _ _ _ (h.recorded j c pid hc hpid v choice hget)

theorem ballots_step (h : Ballots roster s) (hown : InOwnName roster mv)
    (hstep : voteStep roster s mv = some s') : Ballots roster s' := by
  have hrostered := rostered_step h.rostered hstep
  have hvoted : ∀ v pid choice, s.Voted v pid choice → s'.Voted v pid choice := fun _ _ _ =>
    voted_step h.rostered hstep
  have hsent : ∀ p ∈ s'.sent, p.2.voter = some p.1 ∧ p.1 ∈ roster := by
    obtain ⟨vote, hsent, hsound⟩ := sent_step h.rostered hstep
    intro p hp
    rw [hsent, List.mem_append] at hp
    obtain hp | hp := hp
    · exact h.own p hp
    · exact (hsound p (Option.mem_toList.1 hp)).1 hown
  cases mv with
  | leaderlessVote i choice pid =>
      obtain ⟨-, hstep⟩ := Option.ite_none_right_eq_some.1 hstep
      obtain rfl := Option.some.inj hstep
      refine ⟨hrostered, hsent, ?_, quorate_of_voted h hvoted fun d hd => Or.inl hd⟩
      refine recorded_setNode h i ((s.nodes i).leaderlessVote choice pid).2 hvoted rfl ?_
      intro c pid' hc hpid v choice' hget
      obtain rfl := Option.some.inj hc
      obtain rfl : pid = pid' := Option.some.inj hpid
      rw [LeaderlessVoteCollector.get?_votesFor_propose] at hget
      obtain ⟨hv, heq⟩ := Option.ite_none_right_eq_some.1 hget
      obtain rfl := Option.some.inj heq
      refine ⟨(i, ((s.nodes i).leaderlessVote choice pid).1), ?_, ?_, ?_, rfl, rfl⟩
      · exact List.mem_append_right _ (List.mem_singleton.2 rfl)
      · exact ((h.rostered.name i).symm.trans hv.symm)
      · exact congrArg some hv.symm
  | receive i sender msg =>
      obtain ⟨⟨-, hmsg⟩, hstep⟩ := Option.ite_none_right_eq_some.1 hstep
      obtain rfl := Option.some.inj hstep
      obtain ⟨-, -, hvote⟩ := onVertexMessage_rest (s.nodes i) sender msg
      refine ⟨hrostered, hsent, ?_, quorate_of_voted h hvoted fun d hd => Or.inl hd⟩
      refine recorded_setNode h i ((s.nodes i).onVertexMessage sender msg).2 hvoted rfl ?_
      intro c pid hc hpid v choice hget
      rw [hvote] at hc
      obtain ⟨c', hc', rfl⟩ := Option.map_eq_some_iff.1 hc
      rw [(c'.record_rest sender msg).1] at hpid
      refine hvoted _ _ _ ?_
      obtain hold | ⟨rfl, rfl, rfl⟩ := LeaderlessVoteCollector.get?_votesFor_record hpid hget
      · exact h.recorded i c' pid hc' hpid v choice hold
      · -- the vote names its sender, so it is the sender's
        have hvoter := (h.own (sender, msg) hmsg).1
        refine ⟨(sender, msg), hmsg, ?_, ?_, rfl, rfl⟩
        · rw [hvoter, Option.getD_some]
        · rw [hvoter, Option.getD_some]
  | poll i =>
      obtain ⟨c, hc, hstep⟩ := Option.bind_eq_some_iff.1 hstep
      obtain ⟨pid, hpid, hstep⟩ := Option.bind_eq_some_iff.1 hstep
      obtain ⟨choice, hpoll, rfl⟩ := Option.map_eq_some_iff.1 hstep
      refine ⟨hrostered, hsent, ?_, quorate_of_voted h hvoted ?_⟩
      · exact recorded_setNode h i (s.nodes i).endVote hvoted rfl fun c pid hc => by cases hc
      · intro d hd
        obtain hd | hd := List.mem_append.1 hd
        · exact Or.inl hd
        · obtain rfl := List.mem_singleton.1 hd
          exact Or.inr (quorum_of_poll h hc hpid hpoll)
  | expire i =>
      obtain ⟨c, -, rfl⟩ := Option.map_eq_some_iff.1 hstep
      refine ⟨hrostered, hsent, ?_, quorate_of_voted h hvoted fun d hd => Or.inl hd⟩
      exact recorded_setNode h i (s.nodes i).endVote hvoted rfl fun c pid hc => by cases hc
  | send sender msg =>
      obtain rfl := Option.some.inj hstep
      refine ⟨hrostered, hsent, ?_, quorate_of_voted h hvoted fun d hd => Or.inl hd⟩
      intro i c pid hc hpid v choice hget
      exact hvoted _ _ _ (h.recorded i c pid hc hpid v choice hget)

/-! ### Nobody votes twice -/

/-- Whoever has voted has voted for one choice of a proposal. -/
def Single (s : Assembly) : Prop :=
  ∀ v pid choice choice', s.Voted v pid choice → s.Voted v pid choice' → choice = choice'

theorem eq_of_votedOnly {v pid choice choice' : Str} (honly : s.VotedOnly v pid choice)
    (hvoted : s.Voted v pid choice') : choice' = choice := by
  obtain ⟨p, hp, hsender, hvoter, hpid, rfl⟩ := hvoted
  exact honly p hp ⟨hsender, hvoter, hpid⟩

theorem single_step (h : Rostered roster s) (hsingle : Single s) (hone : OneChoice s mv)
    (hstep : voteStep roster s mv = some s') : Single s' := by
  obtain ⟨vote, hsent, hsound⟩ := sent_step h hstep
  have hcases : ∀ v pid choice, s'.Voted v pid choice → s.Voted v pid choice ∨
      ∃ p ∈ vote, p.1 = v ∧ p.2.pid = pid ∧ p.2.chosen = choice := by
    rintro v pid choice ⟨p, hp, hsender, hvoter, hpid, hchoice⟩
    rw [hsent, List.mem_append, Option.mem_toList] at hp
    obtain hp | hp := hp
    · exact Or.inl ⟨p, hp, hsender, hvoter, hpid, hchoice⟩
    · exact Or.inr ⟨p, hp, hsender, hpid, hchoice⟩
  intro v pid choice choice' hvoted hvoted'
  obtain hold | ⟨p, hp, rfl, rfl, rfl⟩ := hcases v pid choice hvoted
  · obtain hold' | ⟨p, hp, rfl, rfl, rfl⟩ := hcases v pid choice' hvoted'
    · exact hsingle v pid choice choice' hold hold'
    · exact eq_of_votedOnly ((hsound p hp).2 hone) hold
  · obtain hold' | ⟨p', hp', -, -, rfl⟩ := hcases _ _ choice' hvoted'
    · exact (eq_of_votedOnly ((hsound p hp).2 hone) hold').symm
    · obtain rfl := Option.some.inj ((Option.mem_def.1 hp).symm.trans hp')
      rfl

/-- **Two quorums have a member in common**, who has voted for one choice only. -/
theorem agreed_of_single (hquorate : Quorate roster s) (hsingle : Single s) : Agreed s := by
  rintro ⟨i, pid, choice⟩ hd ⟨i', pid', choice'⟩ hd' hpid
  obtain rfl : pid = pid' := hpid
  have hcards : roster.toFinset.card <
      (roster.toFinset.filter fun v => s.Voted v pid choice).card +
        (roster.toFinset.filter fun v => s.Voted v pid choice').card := by
    have hquorum := hquorate _ hd
    have hquorum' := hquorate _ hd'
    dsimp only at hquorum hquorum'
    omega
  obtain ⟨v, hv⟩ := Finset.inter_nonempty_of_card_lt_card_add_card (Finset.filter_subset _ _)
    (Finset.filter_subset _ _) hcards
  obtain ⟨hv, hv'⟩ := Finset.mem_inter.1 hv
  exact hsingle v pid choice choice' (Finset.mem_filter.1 hv).2 (Finset.mem_filter.1 hv').2

/-! ### Runs -/

variable {mvs : List VoteMove} {autoEchoVotes : Bool}

theorem ballots_start : Ballots roster (.start roster autoEchoVotes) := by
  refine ⟨rostered_start autoEchoVotes, ?_, ?_, ?_⟩
  · intro p hp
    cases hp
  · intro i c pid hc
    cases hc
  · intro d hd
    cases hd

/-- **The votes that are recorded were cast by members**, if all vote in their own name. -/
theorem ballots_run (h : run (voteStep roster) (.start roster autoEchoVotes) mvs = some s)
    (hown : Along (voteStep roster) (fun _ => InOwnName roster) (.start roster autoEchoVotes) mvs) :
    Ballots roster s :=
  invariant_along (fun _ _ _ hs hmv hstep => ballots_step hs hmv hstep) ballots_start hown h

/-- **Decisions have a quorum of members**, if all vote in their own name; **and they do not
contradict each other**, if besides nobody votes for two choices of a proposal. -/
theorem votes_sound (h : run (voteStep roster) (.start roster autoEchoVotes) mvs = some s)
    (hown : Along (voteStep roster) (fun _ => InOwnName roster) (.start roster autoEchoVotes) mvs) :
    Quorate roster s ∧
      (Along (voteStep roster) OneChoice (.start roster autoEchoVotes) mvs → Agreed s) := by
  refine ⟨(ballots_run h hown).quorate, fun hone => ?_⟩
  refine agreed_of_single (ballots_run h hown).quorate ?_
  have hkept : Rostered roster s ∧ Single s := by
    refine invariant_along (I := fun s => Rostered roster s ∧ Single s) ?_
      ⟨rostered_start autoEchoVotes, ?_⟩ hone h
    · rintro s mv s' ⟨hrostered, hsingle⟩ hmv hstep
      exact ⟨rostered_step hrostered hstep, single_step hrostered hsingle hmv hstep⟩
    · rintro v pid choice choice' ⟨p, hp, -⟩
      cases hp
  exact hkept.2

/-! ### Three members -/

def threeMembers : List Str := ["a", "b", "c"]

/-- A vote of a member. -/
def ballot (voter choice : Str) : VoteMessage := ⟨some "p1", some choice, some voter, 3⟩

/-- One member puts its choice to the vote, and the other two echo it. -/
def echoedMoves : List VoteMove :=
  [.leaderlessVote "a" "go" "p1", .receive "b" "a" (ballot "a" "go"),
    .receive "c" "a" (ballot "a" "go"), .receive "a" "b" (ballot "b" "go"),
    .receive "a" "c" (ballot "c" "go"), .poll "a"]

theorem votes_sound_echoed : ∃ s, run (voteStep threeMembers) (.start threeMembers true)
    echoedMoves = some s ∧ s.decisions ≠ [] ∧ Quorate threeMembers s ∧ Agreed s := by
  obtain ⟨s, hs⟩ : ∃ s, run (voteStep threeMembers) (.start threeMembers true) echoedMoves =
      some s :=
    Option.isSome_iff_exists.1 (by decide +kernel)
  have hdecided : ∀ s ∈ run (voteStep threeMembers) (.start threeMembers true) echoedMoves,
      s.decisions ≠ [] := by
    decide +kernel
  have hsound := votes_sound hs (by decide +kernel)
  exact ⟨s, hs, hdecided s hs, hsound.1, hsound.2 (by decide +kernel)⟩

/-- Two members put different choices of one proposal to the vote, and all echo both. -/
def crossedMoves : List VoteMove :=
  [.leaderlessVote "a" "go" "p1", .leaderlessVote "b" "no" "p1",
    .receive "b" "a" (ballot "a" "go"), .receive "a" "b" (ballot "b" "no"),
    .receive "c" "a" (ballot "a" "go"), .receive "c" "b" (ballot "b" "no"),
    .receive "a" "b" (ballot "b" "go"), .receive "a" "c" (ballot "c" "go"), .poll "a",
    .receive "b" "a" (ballot "a" "no"), .receive "b" "c" (ballot "c" "no"), .poll "b"]

/-- Two votes come from outside. -/
def outsiderMoves : List VoteMove :=
  [.send "x" (ballot "x" "go"), .send "y" (ballot "y" "go"), .leaderlessVote "a" "go" "p1",
    .receive "a" "x" (ballot "x" "go"), .receive "a" "y" (ballot "y" "go"), .poll "a"]

/-- **Both members decide, on different choices**; and a member decides with its own vote and two
votes from outside. -/
theorem echoes_and_outsiders_decide :
    (∃ s, run (voteStep threeMembers) (.start threeMembers true) crossedMoves = some s ∧
        ¬ Agreed s) ∧
      ∃ s, run (voteStep threeMembers) (.start threeMembers true) outsiderMoves = some s ∧
        ¬ Quorate threeMembers s := by
  constructor
  · obtain ⟨s, hs⟩ : ∃ s, run (voteStep threeMembers) (.start threeMembers true) crossedMoves =
        some s :=
      Option.isSome_iff_exists.1 (by decide +kernel)
    have hdecisions : ∀ s ∈ run (voteStep threeMembers) (.start threeMembers true) crossedMoves,
        s.decisions = [⟨"a", "p1", "go"⟩, ⟨"b", "p1", "no"⟩] := by
      decide +kernel
    refine ⟨s, hs, fun hagreed => ?_⟩
    rw [Agreed, hdecisions s hs] at hagreed
    have hsame := hagreed _ List.mem_cons_self _ (List.mem_cons_of_mem _ List.mem_cons_self) rfl
    revert hsame
    decide +kernel
  · obtain ⟨s, hs⟩ : ∃ s, run (voteStep threeMembers) (.start threeMembers true) outsiderMoves =
        some s :=
      Option.isSome_iff_exists.1 (by decide +kernel)
    have hshort : ∀ s ∈ run (voteStep threeMembers) (.start threeMembers true) outsiderMoves,
        (⟨"a", "p1", "go"⟩ : Decision) ∈ s.decisions ∧
          (threeMembers.toFinset.filter fun v => s.Voted v "p1" "go").card = 1 := by
      decide +kernel
    refine ⟨s, hs, fun hquorate => ?_⟩
    obtain ⟨hdecided, hvoters⟩ := hshort s hs
    have hquorum := hquorate _ hdecided
    dsimp only at hquorum
    rw [hvoters] at hquorum
    revert hquorum
    decide +kernel

end VertexSwarm
