/-
**Task boards** (`swarm/sar_vertex_foxmq_backend.py`).

Each backend keeps a board of tasks.  A task that is announced replaces the one of its name, bids
and all; and the winner of a task that is committed is the best of the bids that the board has at
that moment, whatever winner the commit names.

Main definitions:

* `Sar.MissionTask`, `Sar.TaskBid` — tasks with their bids, with `addBid` and `bestBid`;
* `Sar.TaskBoard` — the board, with `propose`, `addBid` and `assignBest`;
* `Sar.TaskMessage`, `Sar.TaskBoard.deliver` — messages about tasks, and what they do to a board;
* `Sar.TaskRound`, `Sar.Deliveries` — the messages about a task, delivered to each board in some
  order;
* `Sar.TaskRound.Orderly` — an order in which the announcement comes first, and before the commit
  the bids of which the winner's is the best.

Main results:

* `Sar.TaskBoard.deliver_publishTaskCommit` — a backend that commits a task does to its own board
  what the message does to others;
* `Sar.TaskRound.exists_split_of_perm` — where the bids stand around the other two messages;
* `Sar.Deliveries.agrees_iff` — **all boards have the bids and name the winner exactly if on each
  of them the order is such.**
-/
import Mathlib.Algebra.Order.Group.Int
import Mathlib.Data.List.Sort
import Mathlib.Data.List.Perm.Basic
import Mathlib.Data.Prod.Lex
import Endendend.Foundation.PyJson
import Endendend.Foundation.PyText

set_option relaxedAutoImplicit false
set_option autoImplicit false

namespace Sar

open Py (Str Dict)
open Js (OrderedMap KeyedMap)

/-! ### Tasks -/

inductive TaskStatus
  | opened
  | bidding
  | assigned
  | inProgress
  | complete
  | aborted
  deriving DecidableEq

structure TaskBid where
  taskId : Str
  bidderId : Str
  score : ℚ
  etaMs : ℤ
  resources : Dict
  notes : Dict

/-- What bids are sorted by: the score, then the earlier arrival, then the name. -/
def TaskBid.key (b : TaskBid) : ℚ ×ₗ ℤ ×ₗ Str := toLex (b.score, toLex (-b.etaMs, b.bidderId))

structure MissionTask where
  taskId : Str
  missionId : Str
  taskType : Str
  requirements : Dict
  proposerId : Str
  status : TaskStatus
  bids : List TaskBid
  winnerId : Option Str

/-- The bids from the best to the worst; equal ones stay in their order. -/
def sortBids (bids : List TaskBid) : List TaskBid :=
  bids.insertionSort fun a b => b.key ≤ a.key

namespace MissionTask

variable (t : MissionTask)

/-- A task that takes bids. -/
def TakesBids : Prop := t.status ≠ .complete ∧ t.status ≠ .aborted

instance : Decidable t.TakesBids := inferInstanceAs (Decidable (_ ∧ _))

def addBid (bid : TaskBid) : MissionTask :=
  if t.TakesBids then { t with bids := t.bids ++ [bid], status := .bidding } else t

/-- The best bid, for which the bids are sorted. -/
def bestBid : Option TaskBid × MissionTask :=
  if t.bids = [] then (none, t)
  else ((sortBids t.bids).head?, { t with bids := sortBids t.bids })

end MissionTask

/-! ### Boards -/

structure TaskBoard where
  tasks : KeyedMap MissionTask.taskId

namespace TaskBoard

variable (board : TaskBoard)

def get (taskId : Str) : Option MissionTask := board.tasks.get? taskId

def put (task : MissionTask) : TaskBoard := ⟨board.tasks.put task⟩

def propose (taskId missionId taskType : Str) (requirements : Dict) (proposerId : Str) :
    TaskBoard :=
  board.put ⟨taskId, missionId, taskType, requirements, proposerId, .opened, [], none⟩

/-- A bid for a task that is not known makes one up. -/
def addBid (bid : TaskBid) : TaskBoard :=
  let task := (board.get bid.taskId).getD
    ⟨bid.taskId, "", "generic", ∅, bid.bidderId, .opened, [], none⟩
  board.put (task.addBid bid)

/-- Names the best bidder as the winner, if there is one. -/
def assignBest (taskId : Str) : Option (MissionTask × TaskBoard) :=
  match board.get taskId with
  | none => none
  | some task =>
    match task.bestBid with
    | (none, _) => none
    | (some best, task) =>
      let assigned := { task with winnerId := some best.bidderId, status := .assigned }
      some (assigned, board.put assigned)

@[simp] theorem get_put (task : MissionTask) (taskId : Str) :
    (board.put task).get taskId = if taskId = task.taskId then some task else board.get taskId :=
  board.tasks.get?_put task taskId

end TaskBoard

/-! ### Messages -/

/-- Messages about tasks, with the fields that are read. -/
inductive TaskMessage
  | task (taskId missionId taskType : Str) (requirements : Dict) (proposerId : Str)
  | bid (bid : TaskBid)
  | commit (task : MissionTask)

namespace TaskBoard

variable (board : TaskBoard)

def handleTask (taskId missionId taskType : Str) (requirements : Dict) (proposerId : Str) :
    TaskBoard :=
  board.propose taskId missionId taskType requirements proposerId

def handleTaskBid (bid : TaskBid) : TaskBoard := board.addBid bid

/-- The winner is the best of the bids that are here; the one that the message names is not read. -/
def handleTaskCommit (task : MissionTask) : TaskBoard :=
  match board.get task.taskId with
  | none => board
  | some task =>
    let (best, task) := task.bestBid
    board.put
      { task with
        status := .assigned
        winnerId := (best.map TaskBid.bidderId).or task.winnerId }

def deliver (board : TaskBoard) : TaskMessage → TaskBoard
  | .task taskId missionId taskType requirements proposerId =>
    board.handleTask taskId missionId taskType requirements proposerId
  | .bid bid => board.handleTaskBid bid
  | .commit task => board.handleTaskCommit task

/-- What publishing does to the own board, with the message that is sent. -/
def publishTask (nodeId missionId taskId taskType : Str) (requirements : Dict) :
    TaskMessage × TaskBoard :=
  (.task taskId missionId taskType requirements nodeId,
    board.propose taskId missionId taskType requirements nodeId)

def publishBid (bid : TaskBid) : TaskMessage × TaskBoard := (.bid bid, board.addBid bid)

def publishTaskCommit (taskId : Str) : Option (TaskMessage × TaskBoard) :=
  (board.assignBest taskId).map fun (task, board') => (.commit task, board')

variable {board} {board' : TaskBoard} {message : TaskMessage}

theorem bestBid_taskId (t : MissionTask) : t.bestBid.2.taskId = t.taskId := by
  rw [MissionTask.bestBid]
  split <;> rfl

/-- **Who commits a task does to the own board what the message does to others.** -/
theorem deliver_publishTaskCommit {taskId : Str}
    (h : board.publishTaskCommit taskId = some (message, board')) :
    board.deliver message = board' ∧
      ∃ task, message = .commit task ∧ task.taskId = taskId ∧ task.winnerId.isSome := by
  obtain ⟨⟨assigned, board''⟩, hassign, heq⟩ := Option.map_eq_some_iff.1 h
  obtain ⟨rfl, rfl⟩ := Prod.ext_iff.1 heq
  rw [assignBest] at hassign
  cases hget : board.get taskId with
  | none =>
      rw [hget] at hassign
      cases hassign
  | some task =>
      rw [hget] at hassign
      have hid : task.bestBid.2.taskId = taskId :=
        (bestBid_taskId task).trans (KeyedMap.key_of_get? hget)
      cases hbest : task.bestBid with
      | mk best task' =>
          rw [hbest] at hid
          cases best with
          | none =>
              dsimp only at hassign
              rw [hbest] at hassign
              cases hassign
          | some best =>
              dsimp only at hassign
              rw [hbest] at hassign
              obtain ⟨rfl, rfl⟩ := Prod.ext_iff.1 (Option.some.inj hassign)
              obtain rfl := hid
              refine ⟨?_, _, rfl, rfl, rfl⟩
              change board.handleTaskCommit _ = _
              rw [handleTaskCommit, hget]
              dsimp only
              rw [hbest]
              rfl

/-! ### What deliveries do to a task -/

/-- The bidder of the best bid. -/
def bestBidder (bids : List TaskBid) : Option Str := (sortBids bids).head?.map TaskBid.bidderId

theorem sortBids_perm (bids : List TaskBid) : (sortBids bids).Perm bids :=
  List.perm_insertionSort _ bids

/-- A task that takes bids keeps all that arrive. -/
theorem get_deliver_bids {taskId : Str} {t : MissionTask} {bids : List TaskBid}
    (hget : board.get taskId = some t) (htakes : t.TakesBids)
    (hids : ∀ bid ∈ bids, bid.taskId = taskId) :
    ∃ t', ((bids.map .bid).foldl deliver board).get taskId = some t' ∧
      t'.bids = t.bids ++ bids ∧ t'.winnerId = t.winnerId ∧ t'.TakesBids := by
  induction bids generalizing board t with
  | nil => exact ⟨t, hget, (List.append_nil _).symm, rfl, htakes⟩
  | cons bid bids ih =>
      have hid : bid.taskId = taskId := hids bid List.mem_cons_self
      have hbid : t.addBid bid = { t with bids := t.bids ++ [bid], status := .bidding } :=
        if_pos htakes
      have hafter : (board.deliver (.bid bid)).get taskId =
          some { t with bids := t.bids ++ [bid], status := .bidding } := by
        change (board.addBid bid).get taskId = _
        rw [addBid, hid, hget, Option.getD_some, hbid, get_put, if_pos]
        exact (KeyedMap.key_of_get? hget).symm
      obtain ⟨t', hget', hbids, hwinner, htakes'⟩ :=
        ih hafter ⟨by simp, by simp⟩ fun b hb => hids b (List.mem_cons_of_mem _ hb)
      refine ⟨t', hget', ?_, hwinner, htakes'⟩
      rw [hbids, List.append_assoc, List.singleton_append]

theorem get_deliver_task (board : TaskBoard) (taskId missionId taskType : Str)
    (requirements : Dict) (proposerId : Str) :
    (board.deliver (.task taskId missionId taskType requirements proposerId)).get taskId =
      some ⟨taskId, missionId, taskType, requirements, proposerId, .opened, [], none⟩ :=
  (get_put board _ taskId).trans (if_pos rfl)

/-- A commit names the best bidder, if there is one. -/
theorem get_deliver_commit {t committed : MissionTask}
    (hget : board.get committed.taskId = some t) :
    ∃ t', (board.deliver (.commit committed)).get committed.taskId = some t' ∧
      t'.bids = sortBids t.bids ∧ t'.winnerId = (bestBidder t.bids).or t.winnerId ∧
      t'.TakesBids := by
  have hbest : t.bestBid = ((sortBids t.bids).head?, { t with bids := sortBids t.bids }) := by
    rw [MissionTask.bestBid]
    split
    · next hnil =>
      cases t
      cases hnil
      rfl
    · rfl
  refine ⟨{ t with
    bids := sortBids t.bids
    status := .assigned
    winnerId := (bestBidder t.bids).or t.winnerId }, ?_, rfl, rfl, ⟨by simp, by simp⟩⟩
  change (board.handleTaskCommit committed).get _ = _
  rw [handleTaskCommit, hget]
  dsimp only
  rw [hbest, get_put, if_pos]
  · rfl
  · exact (KeyedMap.key_of_get? hget).symm

end TaskBoard

/-! ### The messages about a task -/

/-- A task is announced, there are bids for it, and it is committed to a winner. -/
structure TaskRound where
  taskId : Str
  missionId : Str
  taskType : Str
  requirements : Dict
  proposerId : Str
  bids : List TaskBid
  committed : MissionTask
  winner : Str
  bids_taskId : ∀ bid ∈ bids, bid.taskId = taskId
  committed_taskId : committed.taskId = taskId
  committed_winner : committed.winnerId = some winner

namespace TaskRound

variable (r : TaskRound)

def announcement : TaskMessage :=
  .task r.taskId r.missionId r.taskType r.requirements r.proposerId

def messages : List TaskMessage := r.announcement :: .commit r.committed :: r.bids.map .bid

/-- The announcement comes first, and of the bids before the commit the winner's is the best. -/
def Orderly (order : List TaskMessage) : Prop :=
  ∃ before after : List TaskBid,
    order = r.announcement :: before.map .bid ++ .commit r.committed :: after.map .bid ∧
      TaskBoard.bestBidder before = some r.winner

variable {r}

/-- What is arranged like the images of a list is the images of a list. -/
theorem exists_map_of_perm {α β : Type*} {f : β → α} {L : List α} {l : List β}
    (h : L.Perm (l.map f)) : ∃ l' : List β, L = l'.map f ∧ l'.Perm l := by
  have hall : List.Forall₂ (fun x y => x = f y) (l.map f) l :=
    List.forall₂_map_left_iff.2 (List.forall₂_same.2 fun _ _ => rfl)
  obtain ⟨l', hl', hperm⟩ := List.perm_comp_forall₂ h hall
  refine ⟨l', ?_, hperm⟩
  rw [← List.forall₂_eq_eq_eq, List.forall₂_map_right_iff]
  exact hl'

/-- Where the bids stand around two other messages. -/
theorem exists_split_of_perm {x y : TaskMessage} {bids : List TaskBid} {order : List TaskMessage}
    (h : order.Perm (x :: y :: bids.map .bid)) :
    ∃ b₁ b₂ b₃ : List TaskBid, (b₁ ++ b₂ ++ b₃).Perm bids ∧
      (order = b₁.map .bid ++ x :: (b₂.map .bid ++ y :: b₃.map .bid) ∨
        order = b₁.map .bid ++ y :: (b₂.map .bid ++ x :: b₃.map .bid)) := by
  obtain ⟨l₁, l₂, rfl⟩ := List.mem_iff_append.1 (h.symm.subset List.mem_cons_self)
  have h₁ : (l₁ ++ l₂).Perm (y :: bids.map .bid) :=
    List.perm_cons x |>.1 (List.perm_middle.symm.trans h)
  have hy : y ∈ l₁ ++ l₂ := h₁.symm.subset List.mem_cons_self
  rcases List.mem_append.1 hy with hy | hy
  · obtain ⟨k₁, k₂, rfl⟩ := List.mem_iff_append.1 hy
    have h₂ : (k₁ ++ k₂ ++ l₂).Perm (bids.map .bid) := by
      refine List.perm_cons y |>.1 (List.Perm.trans ?_ h₁)
      rw [List.append_assoc, List.append_assoc, List.cons_append]
      exact List.perm_middle.symm
    obtain ⟨bs, heq, hperm⟩ := exists_map_of_perm h₂
    obtain ⟨bs', b₃, rfl, hpart, rfl⟩ := List.append_eq_map_iff.1 heq
    obtain ⟨b₁, b₂, rfl, rfl, rfl⟩ := List.append_eq_map_iff.1 hpart.symm
    exact ⟨b₁, b₂, b₃, hperm, Or.inr (by simp)⟩
  · obtain ⟨k₁, k₂, rfl⟩ := List.mem_iff_append.1 hy
    have h₂ : (l₁ ++ k₁ ++ k₂).Perm (bids.map .bid) := by
      refine List.perm_cons y |>.1 (List.Perm.trans ?_ h₁)
      rw [← List.append_assoc]
      exact List.perm_middle.symm
    obtain ⟨bs, heq, hperm⟩ := exists_map_of_perm h₂
    obtain ⟨bs', b₃, rfl, hpart, rfl⟩ := List.append_eq_map_iff.1 heq
    obtain ⟨b₁, b₂, rfl, rfl, rfl⟩ := List.append_eq_map_iff.1 hpart.symm
    exact ⟨b₁, b₂, b₃, hperm, Or.inl (by simp)⟩

end TaskRound

/-! ### Deliveries -/

/-- The messages about a task, delivered once to each board, in an order of its own. -/
structure Deliveries (r : TaskRound) (ι : Type*) where
  boards : ι → TaskBoard
  orders : ι → List TaskMessage
  perm : ∀ i, (orders i).Perm r.messages

namespace Deliveries

open TaskBoard (bestBidder)

variable {r : TaskRound} {ι : Type*} (d : Deliveries r ι)

def final (i : ι) : TaskBoard := (d.orders i).foldl TaskBoard.deliver (d.boards i)

/-- Every board names the winner that the commit names, and has all bids. -/
def Agrees : Prop :=
  ∀ i, ∃ task, (d.final i).get r.taskId = some task ∧ task.winnerId = r.committed.winnerId ∧
    task.bids.Perm r.bids

variable {board : TaskBoard} {before between after : List TaskBid}

theorem bids_taskId_of_perm (hperm : (before ++ between ++ after).Perm r.bids) {bid : TaskBid}
    (hbid : bid ∈ before ∨ bid ∈ between ∨ bid ∈ after) : bid.taskId = r.taskId := by
  refine r.bids_taskId bid (hperm.subset ?_)
  simpa [or_assoc] using hbid

/-- The announcement before the commit: what arrived before is gone, and the winner is the best
bidder at the commit. -/
theorem get_of_announced_first (hperm : (before ++ between ++ after).Perm r.bids)
    (pre : List TaskMessage) :
    ∃ task, ((pre ++ r.announcement ::
        (between.map .bid ++ .commit r.committed :: after.map .bid)).foldl
          TaskBoard.deliver board).get r.taskId = some task ∧
      task.winnerId = bestBidder between ∧ task.bids.Perm (between ++ after) := by
  rw [List.foldl_append, List.foldl_cons, List.foldl_append, List.foldl_cons]
  have hannounced := TaskBoard.get_deliver_task (pre.foldl TaskBoard.deliver board)
    r.taskId r.missionId r.taskType r.requirements r.proposerId
  obtain ⟨t₁, h₁, hbids₁, hwinner₁, htakes₁⟩ := TaskBoard.get_deliver_bids hannounced
    ⟨by simp, by simp⟩ fun bid hbid => bids_taskId_of_perm hperm (Or.inr (Or.inl hbid))
  rw [← r.committed_taskId] at h₁
  obtain ⟨t₂, h₂, hbids₂, hwinner₂, htakes₂⟩ := TaskBoard.get_deliver_commit h₁
  rw [r.committed_taskId] at h₂
  obtain ⟨t₃, h₃, hbids₃, hwinner₃, -⟩ := TaskBoard.get_deliver_bids h₂ htakes₂
    fun bid hbid => bids_taskId_of_perm hperm (Or.inr (Or.inr hbid))
  refine ⟨t₃, h₃, ?_, ?_⟩
  · rw [hwinner₃, hwinner₂, hbids₁, hwinner₁]
    simp
  · rw [hbids₃, hbids₂, hbids₁]
    exact (TaskBoard.sortBids_perm _).append_right after

/-- The commit before the announcement: the task has no winner. -/
theorem get_of_committed_first (hperm : (before ++ between ++ after).Perm r.bids)
    (pre : List TaskMessage) :
    ∃ task, ((pre ++ r.announcement :: after.map .bid).foldl
        TaskBoard.deliver board).get r.taskId = some task ∧ task.winnerId = none := by
  rw [List.foldl_append, List.foldl_cons]
  have hannounced := TaskBoard.get_deliver_task (pre.foldl TaskBoard.deliver board)
    r.taskId r.missionId r.taskType r.requirements r.proposerId
  obtain ⟨t, h, -, hwinner, -⟩ := TaskBoard.get_deliver_bids hannounced
    ⟨by simp, by simp⟩ fun bid hbid => bids_taskId_of_perm hperm (Or.inr (Or.inr hbid))
  exact ⟨t, h, hwinner⟩

/-- **When the boards agree**: exactly if on each of them the announcement comes first, and of the
bids before the commit the winner's is the best. -/
theorem agrees_iff : d.Agrees ↔ ∀ i, r.Orderly (d.orders i) := by
  refine forall_congr' fun i => ?_
  constructor
  · rintro ⟨task, hget, hwinner, hbids⟩
    rw [r.committed_winner] at hwinner
    obtain ⟨before, between, after, hperm, horder | horder⟩ :=
      TaskRound.exists_split_of_perm (d.perm i)
    · rw [final, horder] at hget
      obtain ⟨task', hget', hwinner', hbids'⟩ := get_of_announced_first hperm (before.map .bid)
      obtain rfl := Option.some.inj (hget.symm.trans hget')
      have hlength : (between ++ after).length = (before ++ between ++ after).length :=
        (hbids'.symm.trans (hbids.trans hperm.symm)).length_eq
      obtain rfl : before = [] := by simpa using hlength
      exact ⟨between, after, horder, hwinner'.symm.trans hwinner⟩
    · rw [final, horder, ← List.cons_append, ← List.append_assoc] at hget
      obtain ⟨task', hget', hwinner'⟩ := get_of_committed_first hperm
        (before.map .bid ++ .commit r.committed :: between.map .bid)
      obtain rfl := Option.some.inj (hget.symm.trans hget')
      cases hwinner'.symm.trans hwinner
  · rintro ⟨before, after, horder, hbest⟩
    have hperm : ([] ++ before ++ after).Perm r.bids := by
      have hrest := List.perm_cons r.announcement |>.1 (horder ▸ d.perm i)
      have hmap := List.perm_cons _ |>.1 (List.perm_middle.symm.trans hrest)
      rw [← List.map_append] at hmap
      exact (List.map_perm_map_iff fun _ _ => TaskMessage.bid.inj).1 hmap
    obtain ⟨task, hget, hwinner, hbids⟩ := get_of_announced_first hperm []
    refine ⟨task, ?_, ?_, hbids.trans hperm⟩
    · rw [final, horder]
      exact hget
    · rw [hwinner, hbest, r.committed_winner]

/-! ### A late bid -/

def earlyBid : TaskBid := ⟨"task-1", "drone-b", 1, 4000, ∅, ∅⟩

def lateBid : TaskBid := ⟨"task-1", "drone-c", 2, 9000, ∅, ∅⟩

/-- The task is committed when only the first bid is there. -/
def earlyRound : TaskRound where
  taskId := "task-1"
  missionId := "m1"
  taskType := "search"
  requirements := ∅
  proposerId := "drone-a"
  bids := [earlyBid, lateBid]
  committed := ⟨"task-1", "m1", "search", ∅, "drone-a", .assigned, [earlyBid], some "drone-b"⟩
  winner := "drone-b"
  bids_taskId := by decide +kernel
  committed_taskId := rfl
  committed_winner := rfl

/-- The board that commits gets the second bid afterwards, and the other board before. -/
def lateDeliveries : Deliveries earlyRound Bool where
  boards _ := ⟨∅⟩
  orders
    | true => [earlyRound.announcement, .bid earlyBid, .commit earlyRound.committed, .bid lateBid]
    | false => [earlyRound.announcement, .bid earlyBid, .bid lateBid, .commit earlyRound.committed]
  perm
    | true => List.Perm.cons _ (List.Perm.swap _ _ _)
    | false => List.Perm.cons _
        ((List.Perm.cons _ (List.Perm.swap _ _ _)).trans (List.Perm.swap _ _ _))

/-- The other board names the second bidder. -/
theorem other_winner_lateDeliveries : ¬ lateDeliveries.Agrees := by
  intro hagrees
  obtain ⟨task, hget, hwinner, -⟩ := hagrees false
  have hother : ∀ task ∈ (lateDeliveries.final false).get "task-1",
      task.winnerId = some "drone-c" := by
    decide +kernel
  have hnames := (hother task hget).symm.trans hwinner
  revert hnames
  decide +kernel

end Deliveries

end Sar
