/-
**The life of a task** (`TaskBoard` and the handlers of `swarm/sar_vertex_foxmq_backend.py`).

Nine entry points write the status of a task.  A bid and the clock look whether the task is over,
the others do not; a bid does not look whether the task has a winner; a proposal replaces the task;
and the deadline for bids aborts tasks that have been assigned.

Main definitions:

* `Sar.BoardTask`, `Sar.TimedBoard` — tasks with the deadline for bids, and the boards of them;
* `Sar.BoardEvent`, `Sar.TimedBoard.apply` — what is called and what arrives;
* `Sar.BoardEvent.statusAfter` — what an event makes of the status of a task;
* `Sar.TaskStatus.Forward` — a status goes forward;
* `Sar.LifecycleKept` — no status goes backwards between any two moments of a run, and no bid,
  proposal or deadline touches a task with a winner;
* `Sar.BoardEvent.Allowed`, `Sar.Orderly` — the condition on an event and the tasks before it.

Main results:

* `Sar.TimedBoard.get_apply` — **what every event does to every task**;
* `Sar.tracks_deliver` — without the deadlines, these are the boards of `Sar.TaskBoard`;
* `Sar.lifecycle_iff_orderly` — **over every run the lives of the tasks go forward exactly if every
  event is allowed**;
* `Sar.late_bid_reopens` — a late bid.
-/
import Endendend.Foundation.Runs
import Endendend.Sar.TaskBoard

set_option relaxedAutoImplicit false
set_option autoImplicit false

namespace Sar

open Py (Str Dict)
open Js (OrderedMap KeyedMap)

/-! ### Tasks with a deadline -/

/-- A task of a board, with the time when its bidding closes (0 if it has none) and its notes. -/
structure BoardTask where
  task : MissionTask
  closesAtMs : ℤ
  metadata : Dict

namespace BoardTask

variable (t : BoardTask)

def taskId : Str := t.task.taskId

def status : TaskStatus := t.task.status

def withStatus (status : TaskStatus) : BoardTask := { t with task := { t.task with status } }

def addBid (bid : TaskBid) : BoardTask := { t with task := t.task.addBid bid }

/-- The deadline for bids has passed, and the task is not over. -/
def Overdue (now : ℤ) : Prop := t.closesAtMs ≠ 0 ∧ t.closesAtMs ≤ now ∧ t.task.TakesBids

instance (now : ℤ) : Decidable (t.Overdue now) := inferInstanceAs (Decidable (_ ∧ _ ∧ _))

def expire (now : ℤ) : BoardTask := if t.Overdue now then t.withStatus .aborted else t

end BoardTask

/-! ### Boards -/

structure TimedBoard where
  tasks : KeyedMap BoardTask.taskId

namespace TimedBoard

variable (board : TimedBoard)

def get (taskId : Str) : Option BoardTask := board.tasks.get? taskId

def put (t : BoardTask) : TimedBoard := ⟨board.tasks.put t⟩

def propose (taskId missionId taskType : Str) (requirements : Dict) (proposerId : Str)
    (closesInS clock : ℤ) : TimedBoard :=
  board.put
    { task := ⟨taskId, missionId, taskType, requirements, proposerId, .opened, [], none⟩
      closesAtMs := clock + closesInS * 1000
      metadata := ∅ }

/-- A bid for a task that is not known makes one up, without a deadline. -/
def addBid (bid : TaskBid) : TimedBoard :=
  let t := (board.get bid.taskId).getD
    { task := ⟨bid.taskId, "", "generic", ∅, bid.bidderId, .opened, [], none⟩
      closesAtMs := 0
      metadata := ∅ }
  board.put (t.addBid bid)

/-- Names the best bidder as the winner, if there is one. -/
def assignBest (taskId : Str) : Option (BoardTask × TimedBoard) :=
  match board.get taskId with
  | none => none
  | some t =>
    match t.task.bestBid with
    | (none, _) => none
    | (some best, task) =>
      let t := { t with task := { task with winnerId := some best.bidderId, status := .assigned } }
      some (t, board.put t)

def complete (taskId : Str) : Option (BoardTask × TimedBoard) :=
  (board.get taskId).map fun t => (t.withStatus .complete, board.put (t.withStatus .complete))

def abort (taskId : Str) (reason : Js.Str) : Option (BoardTask × TimedBoard) :=
  (board.get taskId).map fun t =>
    let t := { t.withStatus .aborted with
      metadata := t.metadata.set ("abort_reason" : String) (.str reason) }
    (t, board.put t)

theorem taskId_expire (now : ℤ) (t : BoardTask) : (t.expire now).taskId = t.taskId := by
  rw [BoardTask.expire]
  split <;> rfl

/-- Aborts the tasks whose deadline has passed, and names them. -/
def expire (now : ℤ) : List Str × TimedBoard :=
  ((board.tasks.values.filter fun t => t.Overdue now).map BoardTask.taskId,
    ⟨board.tasks.modifyAll (·.expire now) (taskId_expire now)⟩)

def handleTask (taskId missionId taskType : Str) (requirements : Dict) (proposerId : Str)
    (closesInS clock : ℤ) : TimedBoard :=
  board.propose taskId missionId taskType requirements proposerId closesInS clock

def handleTaskBid (bid : TaskBid) : TimedBoard := board.addBid bid

/-- Names the best bidder of a task that is known, and assigns the task even without one. -/
def handleTaskCommit (taskId : Str) : TimedBoard :=
  match board.get taskId with
  | none => board
  | some t =>
    let (best, task) := t.task.bestBid
    board.put
      { t with
        task := { task with
          status := .assigned
          winnerId := (best.map TaskBid.bidderId).or task.winnerId } }

end TimedBoard

/-! ### Events -/

/-- What is called on a board, and the messages that arrive; with the clock where it is read. -/
inductive BoardEvent
  | propose (taskId missionId taskType : Str) (requirements : Dict) (proposerId : Str)
      (closesInS clock : ℤ)
  | addBid (bid : TaskBid)
  | assignBest (taskId : Str)
  | complete (taskId : Str)
  | abort (taskId : Str) (reason : Js.Str)
  | expire (clock : ℤ)
  | task (taskId missionId taskType : Str) (requirements : Dict) (proposerId : Str)
      (closesInS clock : ℤ)
  | taskBid (bid : TaskBid)
  | taskCommit (taskId : Str)

/-- What an event makes of a board. -/
def TimedBoard.apply (board : TimedBoard) : BoardEvent → TimedBoard
  | .propose taskId missionId taskType requirements proposerId closesInS clock =>
    board.propose taskId missionId taskType requirements proposerId closesInS clock
  | .addBid bid => board.addBid bid
  | .assignBest taskId => (board.assignBest taskId).elim board Prod.snd
  | .complete taskId => (board.complete taskId).elim board Prod.snd
  | .abort taskId reason => (board.abort taskId reason).elim board Prod.snd
  | .expire clock => (board.expire clock).2
  | .task taskId missionId taskType requirements proposerId closesInS clock =>
    board.handleTask taskId missionId taskType requirements proposerId closesInS clock
  | .taskBid bid => board.handleTaskBid bid
  | .taskCommit taskId => board.handleTaskCommit taskId

/-- Events one after the other. -/
def boardStep (board : TimedBoard) (e : BoardEvent) : Option TimedBoard := some (board.apply e)

/-! ### What goes forward -/

namespace TaskStatus

/-- The order of the statuses. -/
def rank : TaskStatus → ℕ
  | opened => 0
  | bidding => 1
  | assigned => 2
  | inProgress => 3
  | complete => 4
  | aborted => 5

/-- A task that is complete or aborted. -/
def Final (s : TaskStatus) : Prop := s = complete ∨ s = aborted

instance (s : TaskStatus) : Decidable s.Final := inferInstanceAs (Decidable (_ ∨ _))

/-- **A status goes forward**: along the order, or to `aborted`, but not when it is final. -/
def Forward (s s' : TaskStatus) : Prop := s' = s ∨ ¬ s.Final ∧ s.rank < s'.rank

instance (s s' : TaskStatus) : Decidable (s.Forward s') :=
  inferInstanceAs (Decidable (_ ∨ _ ∧ _))

theorem Forward.refl (s : TaskStatus) : s.Forward s := Or.inl rfl

theorem Forward.trans {s₁ s₂ s₃ : TaskStatus} (h : s₁.Forward s₂) (h' : s₂.Forward s₃) :
    s₁.Forward s₃ := by
  rcases h with rfl | ⟨hfinal, hlt⟩
  · exact h'
  · rcases h' with rfl | ⟨-, hlt'⟩
    · exact Or.inr ⟨hfinal, hlt⟩
    · exact Or.inr ⟨hfinal, hlt.trans hlt'⟩

end TaskStatus

/-- A task that has been assigned to a winner. -/
def BoardTask.Won (t : BoardTask) : Prop := t.status = .assigned ∧ t.task.winnerId.isSome

/-- Bids, proposals and deadlines. -/
def BoardEvent.BeforeAssignment : BoardEvent → Prop
  | .propose .. | .addBid _ | .expire _ | .task .. | .taskBid _ => True
  | _ => False

/-- **No bid, proposal or deadline touches the status of a task with a winner.** -/
def WinnersKept (board : TimedBoard) (e : BoardEvent) : Prop :=
  ∀ id t, board.get id = some t → t.Won → e.BeforeAssignment →
    ∃ t', (board.apply e).get id = some t' ∧ t'.status = .assigned

/-- **The lives of the tasks go forward**: no status goes backwards between any two moments of a
run, and no step of it touches a task with a winner that should not. -/
structure LifecycleKept (board : TimedBoard) (es : List BoardEvent) : Prop where
  forward : ∀ p q b₁ b₂, p ++ q <+: es → Runs.run boardStep board p = some b₁ →
    Runs.run boardStep b₁ q = some b₂ → ∀ id t, b₁.get id = some t →
      ∃ t', b₂.get id = some t' ∧ t.status.Forward t'.status
  winners : Runs.Along boardStep WinnersKept board es

/-! ### The condition -/

/-- **An event is allowed for a task**, by the status that the task has. -/
def BoardEvent.Allowed (t : BoardTask) : BoardEvent → Prop
  | .propose taskId .. => taskId = t.taskId → t.status = .opened
  | .addBid bid => bid.taskId = t.taskId → t.status ≠ .assigned ∧ t.status ≠ .inProgress
  | .assignBest taskId =>
    taskId = t.taskId → t.task.bids ≠ [] → t.status.rank ≤ TaskStatus.assigned.rank
  | .complete taskId => taskId = t.taskId → t.status ≠ .aborted
  | .abort taskId _ => taskId = t.taskId → t.status ≠ .complete
  | .expire clock => t.Overdue clock → ¬ t.Won
  | .task taskId .. => taskId = t.taskId → t.status = .opened
  | .taskBid bid => bid.taskId = t.taskId → t.status ≠ .assigned ∧ t.status ≠ .inProgress
  | .taskCommit taskId => taskId = t.taskId → t.status.rank ≤ TaskStatus.assigned.rank

/-- An event is allowed for all tasks of a board. -/
def Orderly (board : TimedBoard) (e : BoardEvent) : Prop :=
  ∀ id t, board.get id = some t → e.Allowed t

/-! ### What every event does -/

/-- What an event makes of the status of a task. -/
def BoardEvent.statusAfter (t : BoardTask) : BoardEvent → TaskStatus
  | .propose taskId .. => if taskId = t.taskId then .opened else t.status
  | .addBid bid => if bid.taskId = t.taskId ∧ t.task.TakesBids then .bidding else t.status
  | .assignBest taskId => if taskId = t.taskId ∧ t.task.bids ≠ [] then .assigned else t.status
  | .complete taskId => if taskId = t.taskId then .complete else t.status
  | .abort taskId _ => if taskId = t.taskId then .aborted else t.status
  | .expire clock => if t.Overdue clock then .aborted else t.status
  | .task taskId .. => if taskId = t.taskId then .opened else t.status
  | .taskBid bid => if bid.taskId = t.taskId ∧ t.task.TakesBids then .bidding else t.status
  | .taskCommit taskId => if taskId = t.taskId then .assigned else t.status

theorem MissionTask.status_addBid (t : MissionTask) (bid : TaskBid) :
    (t.addBid bid).status = if t.TakesBids then .bidding else t.status := by
  rw [addBid]
  split <;> rfl

theorem MissionTask.taskId_addBid (t : MissionTask) (bid : TaskBid) :
    (t.addBid bid).taskId = t.taskId := by
  rw [addBid]
  split <;> rfl

theorem BoardTask.status_expire (t : BoardTask) (now : ℤ) :
    (t.expire now).status = if t.Overdue now then .aborted else t.status := by
  rw [expire]
  split <;> rfl

/-- A task with bids has a best one. -/
theorem MissionTask.bestBid_of_ne_nil {t : MissionTask} (h : t.bids ≠ []) :
    ∃ best, t.bestBid = (some best, { t with bids := sortBids t.bids }) := by
  have hne : sortBids t.bids ≠ [] := fun hnil =>
    h (List.Perm.nil_eq (hnil ▸ TaskBoard.sortBids_perm t.bids)).symm
  refine ⟨(sortBids t.bids).head hne, ?_⟩
  rw [bestBid, if_neg h, List.head?_eq_some_head hne]

namespace TimedBoard

variable {board : TimedBoard} {id : Str} {t : BoardTask}

@[simp] theorem get_put (board : TimedBoard) (t : BoardTask) (id : Str) :
    (board.put t).get id = if id = t.taskId then some t else board.get id :=
  board.tasks.get?_put t id

theorem taskId_of_get (h : board.get id = some t) : t.taskId = id := KeyedMap.key_of_get? h

theorem ne_of_get_none {taskId : Str} (h : board.get id = some t)
    (hnone : board.get taskId = none) : taskId ≠ t.taskId := by
  rintro rfl
  rw [taskId_of_get h, h] at hnone
  exact Option.some_ne_none t hnone

/-- A task is put on the board: only the one of its name is another one afterwards. -/
theorem status_put (h : board.get id = some t) (u : BoardTask) :
    ∃ t', (board.put u).get id = some t' ∧
      t'.status = if u.taskId = t.taskId then u.status else t.status := by
  rw [get_put, taskId_of_get h]
  by_cases hid : id = u.taskId
  · exact ⟨u, if_pos hid, (if_pos hid.symm).symm⟩
  · exact ⟨t, (if_neg hid).trans h, (if_neg fun heq => hid heq.symm).symm⟩

theorem status_addBid (h : board.get id = some t) (bid : TaskBid) :
    ∃ t', (board.addBid bid).get id = some t' ∧
      t'.status = if bid.taskId = t.taskId ∧ t.task.TakesBids then .bidding else t.status := by
  by_cases hid : bid.taskId = t.taskId
  · have hget : board.get bid.taskId = some t := by rw [hid, taskId_of_get h, h]
    obtain ⟨t', ht', hstatus⟩ := status_put h (t.addBid bid)
    refine ⟨t', by rwa [addBid, hget], ?_⟩
    have hsame : (t.addBid bid).taskId = t.taskId := MissionTask.taskId_addBid t.task bid
    rw [hstatus, if_pos hsame]
    simp only [hid, true_and]
    exact MissionTask.status_addBid t.task bid
  · rw [if_neg fun hboth => hid hboth.1]
    have hother : ∀ u : BoardTask, u.taskId = bid.taskId → (u.addBid bid).taskId ≠ t.taskId :=
      fun u hu heq => hid (hu.symm.trans ((MissionTask.taskId_addBid u.task bid).symm.trans heq))
    cases hget : board.get bid.taskId with
    | none =>
        obtain ⟨t', ht', hstatus⟩ := status_put h
          (BoardTask.addBid ⟨⟨bid.taskId, "", "generic", ∅, bid.bidderId, .opened, [], none⟩, 0, ∅⟩
            bid)
        exact ⟨t', by rwa [addBid, hget], hstatus.trans (if_neg (hother _ rfl))⟩
    | some u =>
        obtain ⟨t', ht', hstatus⟩ := status_put h (u.addBid bid)
        exact ⟨t', by rwa [addBid, hget],
          hstatus.trans (if_neg (hother u (taskId_of_get hget)))⟩

theorem status_assignBest (h : board.get id = some t) (taskId : Str) :
    ∃ t', ((board.assignBest taskId).elim board Prod.snd).get id = some t' ∧
      t'.status = if taskId = t.taskId ∧ t.task.bids ≠ [] then .assigned else t.status := by
  rw [assignBest]
  cases hget : board.get taskId with
  | none =>
      exact ⟨t, h, (if_neg fun hboth => ne_of_get_none h hget hboth.1).symm⟩
  | some u =>
      have hsame : taskId = t.taskId → u = t := fun heq => by
        rw [heq, taskId_of_get h, h] at hget
        exact (Option.some.inj hget).symm
      by_cases hbids : u.task.bids = []
      · have hnone : u.task.bestBid = (none, u.task) := if_pos hbids
        refine ⟨t, by simp only [hnone]; exact h, (if_neg fun hboth => hboth.2 ?_).symm⟩
        rw [← hsame hboth.1, hbids]
      · obtain ⟨best, hbest⟩ := MissionTask.bestBid_of_ne_nil hbids
        simp only [hbest, Option.elim_some]
        obtain ⟨t', ht', hstatus⟩ := status_put h
          { u with task := { u.task with
            bids := sortBids u.task.bids
            winnerId := some best.bidderId
            status := .assigned } }
        have hid : u.taskId = taskId := taskId_of_get hget
        refine ⟨t', ht', hstatus.trans ?_⟩
        show (if u.taskId = t.taskId then TaskStatus.assigned else t.status) = _
        by_cases heq : taskId = t.taskId
        · rw [if_pos (hid.trans heq), if_pos ⟨heq, hsame heq ▸ hbids⟩]
        · rw [if_neg fun heq' => heq (hid.symm.trans heq'), if_neg fun hboth => heq hboth.1]

theorem status_complete (h : board.get id = some t) (taskId : Str) :
    ∃ t', ((board.complete taskId).elim board Prod.snd).get id = some t' ∧
      t'.status = if taskId = t.taskId then .complete else t.status := by
  rw [complete]
  cases hget : board.get taskId with
  | none =>
      exact ⟨t, h, (if_neg (ne_of_get_none h hget)).symm⟩
  | some u =>
      obtain ⟨t', ht', hstatus⟩ := status_put h (u.withStatus .complete)
      exact ⟨t', ht', taskId_of_get hget ▸ hstatus⟩

theorem status_abort (h : board.get id = some t) (taskId : Str) (reason : Js.Str) :
    ∃ t', ((board.abort taskId reason).elim board Prod.snd).get id = some t' ∧
      t'.status = if taskId = t.taskId then .aborted else t.status := by
  rw [abort]
  cases hget : board.get taskId with
  | none =>
      exact ⟨t, h, (if_neg (ne_of_get_none h hget)).symm⟩
  | some u =>
      obtain ⟨t', ht', hstatus⟩ := status_put h { u.withStatus .aborted with
        metadata := u.metadata.set ("abort_reason" : String) (.str reason) }
      exact ⟨t', ht', taskId_of_get hget ▸ hstatus⟩

theorem status_handleTaskCommit (h : board.get id = some t) (taskId : Str) :
    ∃ t', (board.handleTaskCommit taskId).get id = some t' ∧
      t'.status = if taskId = t.taskId then .assigned else t.status := by
  rw [handleTaskCommit]
  cases hget : board.get taskId with
  | none =>
      exact ⟨t, h, (if_neg (ne_of_get_none h hget)).symm⟩
  | some u =>
      obtain ⟨t', ht', hstatus⟩ := status_put h
        { u with task := { u.task.bestBid.2 with
          status := .assigned
          winnerId := (u.task.bestBid.1.map TaskBid.bidderId).or u.task.bestBid.2.winnerId } }
      have hid : u.task.bestBid.2.taskId = taskId :=
        (TaskBoard.bestBid_taskId u.task).trans (taskId_of_get hget)
      refine ⟨t', ht', hstatus.trans ?_⟩
      show (if u.task.bestBid.2.taskId = t.taskId then TaskStatus.assigned else t.status) = _
      rw [hid]

/-- **What every event does to every task.** -/
theorem get_apply (h : board.get id = some t) (e : BoardEvent) :
    ∃ t', (board.apply e).get id = some t' ∧ t'.status = e.statusAfter t := by
  cases e with
  | propose taskId missionId taskType requirements proposerId closesInS clock =>
      exact status_put h ⟨⟨taskId, missionId, taskType, requirements, proposerId, .opened, [],
        none⟩, clock + closesInS * 1000, ∅⟩
  | addBid bid => exact status_addBid h bid
  | assignBest taskId => exact status_assignBest h taskId
  | complete taskId => exact status_complete h taskId
  | abort taskId reason => exact status_abort h taskId reason
  | expire clock =>
      refine ⟨t.expire clock, ?_, t.status_expire clock⟩
      have hget := board.tasks.get?_modifyAll (·.expire clock) (taskId_expire clock) id
      exact hget.trans (congrArg (Option.map _) h)
  | task taskId missionId taskType requirements proposerId closesInS clock =>
      exact status_put h ⟨⟨taskId, missionId, taskType, requirements, proposerId, .opened, [],
        none⟩, clock + closesInS * 1000, ∅⟩
  | taskBid bid => exact status_addBid h bid
  | taskCommit taskId => exact status_handleTaskCommit h taskId

end TimedBoard

/-! ### Boards without deadlines -/

/-- The event that a message is when it arrives. -/
def TaskMessage.event (closesInS clock : ℤ) : TaskMessage → BoardEvent
  | .task taskId missionId taskType requirements proposerId =>
    .task taskId missionId taskType requirements proposerId closesInS clock
  | .bid b => .taskBid b
  | .commit t => .taskCommit t.taskId

/-- A board has the tasks of another one, whose deadlines are not known. -/
def Tracks (timed : TimedBoard) (board : TaskBoard) : Prop :=
  ∀ id, (timed.get id).map BoardTask.task = board.get id

theorem tracks_put {timed : TimedBoard} {board : TaskBoard} (h : Tracks timed board)
    (t : BoardTask) : Tracks (timed.put t) (board.put t.task) := by
  intro id
  rw [TimedBoard.get_put, TaskBoard.get_put]
  by_cases hid : id = t.taskId
  · rw [if_pos hid, Option.map_some]
    exact (if_pos hid).symm
  · rw [if_neg hid, h id]
    exact (if_neg hid).symm

/-- **A message does to the tasks what it does to a board without deadlines.** -/
theorem tracks_deliver {timed : TimedBoard} {board : TaskBoard} (h : Tracks timed board)
    (message : TaskMessage) (closesInS clock : ℤ) :
    Tracks (timed.apply (message.event closesInS clock)) (board.deliver message) := by
  cases message with
  | task taskId missionId taskType requirements proposerId => exact tracks_put h _
  | bid bid =>
      have htask : ∀ t : BoardTask, Tracks (timed.put (t.addBid bid))
          (board.put (t.task.addBid bid)) := fun t => tracks_put h (t.addBid bid)
      show Tracks (timed.addBid bid) (board.addBid bid)
      rw [TimedBoard.addBid, TaskBoard.addBid, ← h bid.taskId]
      cases timed.get bid.taskId with
      | none => exact htask _
      | some t => exact htask t
  | commit task =>
      show Tracks (timed.handleTaskCommit task.taskId) (board.handleTaskCommit task)
      rw [TimedBoard.handleTaskCommit, TaskBoard.handleTaskCommit, ← h task.taskId]
      cases timed.get task.taskId with
      | none => exact h
      | some t => exact tracks_put h _

/-! ### When a step goes forward -/

namespace TaskStatus

variable {s : TaskStatus}

theorem forward_opened_iff : s.Forward opened ↔ s = opened := by cases s <;> decide

theorem forward_bidding_iff (h : ¬ s.Final) :
    s.Forward bidding ↔ s ≠ assigned ∧ s ≠ inProgress := by
  revert h
  cases s <;> decide

theorem forward_assigned_iff : s.Forward assigned ↔ s.rank ≤ assigned.rank := by
  cases s <;> decide

theorem forward_complete_iff : s.Forward complete ↔ s ≠ aborted := by cases s <;> decide

theorem forward_aborted_iff : s.Forward aborted ↔ s ≠ complete := by cases s <;> decide

end TaskStatus

/-- A step goes forward for a task, and does not touch it if it has a winner and should not. -/
def BoardEvent.Keeps (t : BoardTask) (e : BoardEvent) : Prop :=
  t.status.Forward (e.statusAfter t) ∧
    (t.Won → e.BeforeAssignment → e.statusAfter t = .assigned)

/-- A step that leaves the status of a task, or sets it to `s`. -/
theorem BoardEvent.keeps_iff_of_sets {t : BoardTask} {e : BoardEvent} {c : Prop} [Decidable c]
    {s : TaskStatus} (hafter : e.statusAfter t = if c then s else t.status)
    (hs : s ≠ .assigned ∨ ¬ e.BeforeAssignment) :
    e.Keeps t ↔ (c → t.status.Forward s ∧ ¬ (t.Won ∧ e.BeforeAssignment)) := by
  rw [Keeps, hafter]
  by_cases hc : c
  · rw [if_pos hc]
    refine ⟨fun h _ => ⟨h.1, fun hwon => ?_⟩, fun h => ⟨(h hc).1, fun hwon hearly => ?_⟩⟩
    · exact hs.elim (fun hne => hne (h.2 hwon.1 hwon.2)) fun hlate => hlate hwon.2
    · exact absurd ⟨hwon, hearly⟩ (h hc).2
  · rw [if_neg hc]
    exact iff_of_true ⟨.refl _, fun hwon _ => hwon.1⟩ fun h => absurd h hc

/-- A bid or a proposal that goes forward does not meet a task with a winner. -/
theorem BoardTask.not_won {t : BoardTask} {s : TaskStatus} {early : Prop}
    (h : t.status.Forward s) (hs : s.rank < TaskStatus.assigned.rank) : ¬ (t.Won ∧ early) := by
  rintro ⟨⟨hassigned, -⟩, -⟩
  rw [hassigned] at h
  rcases h with rfl | ⟨-, hlt⟩
  · exact lt_irrefl _ hs
  · exact lt_asymm hs hlt

/-- **A step keeps a task exactly if it is allowed for it.** -/
theorem BoardEvent.keeps_iff_allowed (t : BoardTask) (e : BoardEvent) :
    e.Keeps t ↔ e.Allowed t := by
  have hnotFinal : t.task.TakesBids ↔ ¬ t.status.Final := by
    rw [MissionTask.TakesBids, TaskStatus.Final, not_or]
    rfl
  have hpropose : (t.status.Forward .opened ∧ ¬ (t.Won ∧ True)) ↔ t.status = .opened :=
    (and_iff_left_of_imp fun h => BoardTask.not_won h (by decide)).trans
      TaskStatus.forward_opened_iff
  have hbid : ∀ taskId : Str, (taskId = t.taskId ∧ t.task.TakesBids →
      t.status.Forward .bidding ∧ ¬ (t.Won ∧ True)) ↔
        (taskId = t.taskId → t.status ≠ .assigned ∧ t.status ≠ .inProgress) := by
    intro taskId
    rw [and_imp]
    refine forall_congr' fun _ => ?_
    by_cases hfinal : t.status.Final
    · refine iff_of_true (fun htakes => absurd hfinal (hnotFinal.1 htakes)) ?_
      rcases hfinal with h | h
      · simp [h]
      · simp [h]
    · rw [imp_iff_right (hnotFinal.2 hfinal),
        and_iff_left_of_imp fun h => BoardTask.not_won h (by decide),
        TaskStatus.forward_bidding_iff hfinal]
  cases e with
  | propose taskId =>
      refine (keeps_iff_of_sets rfl (Or.inl (by decide))).trans ?_
      exact forall_congr' fun _ => hpropose
  | addBid bid =>
      exact (keeps_iff_of_sets rfl (Or.inl (by decide))).trans (hbid bid.taskId)
  | assignBest taskId =>
      refine (keeps_iff_of_sets rfl (Or.inr id)).trans ?_
      rw [and_imp]
      refine forall_congr' fun _ => forall_congr' fun _ => ?_
      exact (and_iff_left fun h => h.2).trans TaskStatus.forward_assigned_iff
  | complete taskId =>
      refine (keeps_iff_of_sets rfl (Or.inr id)).trans (forall_congr' fun _ => ?_)
      exact (and_iff_left fun h => h.2).trans TaskStatus.forward_complete_iff
  | abort taskId reason =>
      refine (keeps_iff_of_sets rfl (Or.inr id)).trans (forall_congr' fun _ => ?_)
      exact (and_iff_left fun h => h.2).trans TaskStatus.forward_aborted_iff
  | expire clock =>
      refine (keeps_iff_of_sets rfl (Or.inl (by decide))).trans (forall_congr' fun hdue => ?_)
      -- what is overdue is not over, and may be aborted
      have hforward : t.status.Forward .aborted :=
        TaskStatus.forward_aborted_iff.2 hdue.2.2.1
      rw [and_iff_right hforward]
      exact not_congr (and_iff_left trivial)
  | task taskId =>
      refine (keeps_iff_of_sets rfl (Or.inl (by decide))).trans ?_
      exact forall_congr' fun _ => hpropose
  | taskBid bid =>
      exact (keeps_iff_of_sets rfl (Or.inl (by decide))).trans (hbid bid.taskId)
  | taskCommit taskId =>
      refine (keeps_iff_of_sets rfl (Or.inr id)).trans (forall_congr' fun _ => ?_)
      exact (and_iff_left fun h => h.2).trans TaskStatus.forward_assigned_iff

/-! ### Runs -/

section Runs

variable {board b₁ b₂ : TimedBoard} {e : BoardEvent} {es : List BoardEvent}

/-- No status goes backwards from one board to another one. -/
def GoesForward (b₁ b₂ : TimedBoard) : Prop :=
  ∀ id t, b₁.get id = some t → ∃ t', b₂.get id = some t' ∧ t.status.Forward t'.status

/-- **A step goes forward and keeps the winners exactly if it is allowed.** -/
theorem orderly_iff :
    Orderly board e ↔ GoesForward board (board.apply e) ∧ WinnersKept board e := by
  constructor
  · intro h
    refine ⟨fun id t ht => ?_, fun id t ht hwon hearly => ?_⟩
    · obtain ⟨t', ht', hstatus⟩ := TimedBoard.get_apply ht e
      exact ⟨t', ht', hstatus ▸ ((e.keeps_iff_allowed t).2 (h id t ht)).1⟩
    · obtain ⟨t', ht', hstatus⟩ := TimedBoard.get_apply ht e
      exact ⟨t', ht', hstatus.trans (((e.keeps_iff_allowed t).2 (h id t ht)).2 hwon hearly)⟩
  · rintro ⟨hforward, hwinners⟩ id t ht
    obtain ⟨t', ht', hstatus⟩ := TimedBoard.get_apply ht e
    refine (e.keeps_iff_allowed t).1 ⟨?_, fun hwon hearly => ?_⟩
    · obtain ⟨t'', ht'', hgoes⟩ := hforward id t ht
      obtain rfl := Option.some.inj (ht'.symm.trans ht'')
      exact hstatus ▸ hgoes
    · obtain ⟨t'', ht'', hassigned⟩ := hwinners id t ht hwon hearly
      obtain rfl := Option.some.inj (ht'.symm.trans ht'')
      exact hstatus.symm.trans hassigned

/-- Steps that go forward make runs that go forward. -/
theorem goesForward_of_along
    (h : Runs.Along boardStep (fun b e => GoesForward b (b.apply e)) b₁ es)
    (hrun : Runs.run boardStep b₁ es = some b₂) : GoesForward b₁ b₂ := by
  induction es generalizing b₁ with
  | nil =>
      obtain rfl := Option.some.inj hrun
      exact fun _ t ht => ⟨t, ht, .refl _⟩
  | cons e es ih =>
      obtain ⟨b, hb, hrest⟩ := Runs.run_cons.1 hrun
      obtain ⟨hstep, htail⟩ := (Runs.along_cons hb).1 h
      obtain rfl := Option.some.inj hb
      intro id t ht
      obtain ⟨t', ht', hgoes⟩ := hstep id t ht
      obtain ⟨t'', ht'', hgoes'⟩ := ih htail hrest id t' ht'
      exact ⟨t'', ht'', hgoes.trans hgoes'⟩

/-- **The lives of the tasks go forward exactly if every event is allowed**, over every run from any
board. -/
theorem lifecycle_iff_orderly (board : TimedBoard) (es : List BoardEvent) :
    LifecycleKept board es ↔ Runs.Along boardStep Orderly board es := by
  have hsplit : Runs.Along boardStep Orderly board es ↔
      Runs.Along boardStep (fun b e => GoesForward b (b.apply e)) board es ∧
        Runs.Along boardStep WinnersKept board es := by
    rw [← Runs.along_and]
    exact ⟨fun h => h.mono fun _ _ => orderly_iff.1, fun h => h.mono fun _ _ => orderly_iff.2⟩
  rw [hsplit]
  constructor
  · intro h
    refine ⟨Runs.along_iff_forall_split.2 fun pre e post b hes hpre => ?_, h.winners⟩
    have hprefix : pre ++ [e] <+: es := ⟨post, by rw [hes, List.append_cons pre e post]⟩
    exact h.forward pre [e] b (b.apply e) hprefix hpre rfl
  · rintro ⟨hforward, hwinners⟩
    refine ⟨fun p q c₁ c₂ hpq hp hq => ?_, hwinners⟩
    exact goesForward_of_along ((hforward.of_prefix hpq).of_append hp) hq

end Runs

/-! ### A late bid -/

/-- A task is proposed, there is a bid for it, it is assigned, and there is another bid. -/
def lateBidRun : List BoardEvent :=
  [.propose "task-1" "m1" "search" ∅ "drone-a" 30 0, .addBid Deliveries.earlyBid,
    .assignBest "task-1", .taskBid Deliveries.lateBid]

/-- **The task is put back to bidding.** -/
theorem late_bid_reopens : ¬ LifecycleKept ⟨∅⟩ lateBidRun := by
  intro h
  have hback : ∃ b₁ b₂, Runs.run boardStep ⟨∅⟩ (lateBidRun.take 3) = some b₁ ∧
      Runs.run boardStep b₁ (lateBidRun.drop 3) = some b₂ ∧
        (b₁.get "task-1").map BoardTask.status = some .assigned ∧
        (b₂.get "task-1").map BoardTask.status = some .bidding :=
    ⟨_, _, rfl, rfl, by decide +kernel, by decide +kernel⟩
  obtain ⟨b₁, b₂, h₁, h₂, hassigned, hbidding⟩ := hback
  obtain ⟨t, ht, hstatus⟩ := Option.map_eq_some_iff.1 hassigned
  obtain ⟨t', ht', hgoes⟩ := h.forward _ _ b₁ b₂
    (List.take_append_drop 3 lateBidRun ▸ List.prefix_rfl) h₁ h₂ "task-1" t ht
  rw [ht', Option.map_some, Option.some.injEq] at hbidding
  rw [hstatus, hbidding] at hgoes
  revert hgoes
  decide

end Sar
