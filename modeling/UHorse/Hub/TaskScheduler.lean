import Mathlib.Data.List.Sort
import UHorse.Hub.NodeManager

/-!
# The task scheduler of the Hub

A submitted task waits in the queue of its priority, moves to `runningTasks`
when an assignment was sent, and ends in `completedTasks`, from which old
records are evicted. The operations take the locks of the three maps separately.
This module has one function for each section that runs under one lock, and the
operations as the sequence of their sections when nothing runs in between.

The queues are created by `new` for all six priorities and never removed, so
they are a function of the priority.
-/

namespace UHorse.Hub

open UHorse.Lib UHorse.Protocol

structure QueuedTask where
  taskId : TaskId
  command : Command
  context : TaskContext
  priority : Priority
  createdAt : DateTime
  retryCount : Nat
  maxRetries : Nat
  requiredCapabilities : Option NodeCapabilities
  requiredTags : List String
  workspaceHint : Option String

structure RunningTask where
  taskId : TaskId
  command : Command
  context : TaskContext
  priority : Priority
  nodeId : NodeId
  startedAt : DateTime
  timeoutAt : DateTime
  retryCount : Nat

structure CompletedTask where
  taskId : TaskId
  command : Command
  context : TaskContext
  priority : Priority
  nodeId : NodeId
  startedAt : DateTime
  completedAt : DateTime
  status : TaskStatus
  result : CommandResult

structure TaskResult where
  taskId : TaskId
  nodeId : NodeId
  result : CommandResult

structure ScheduledTask where
  taskId : TaskId
  nodeId : NodeId
  scheduledAt : DateTime

structure TaskStatusInfo where
  taskId : TaskId
  status : TaskStatus
  commandType : Option CommandType
  priority : Option Priority
  nodeId : Option NodeId
  startedAt : Option DateTime
  completedAt : Option DateTime
  error : Option String

/-- The senders of the connected nodes, each by the number of its channel. -/
abbrev Senders := HashMap NodeId Nat

structure TaskScheduler where
  pendingTasks : Priority → List QueuedTask
  runningTasks : HashMap TaskId RunningTask
  completedTasks : HashMap TaskId CompletedTask
  taskCounter : Nat
  maxRetries : Nat
  taskTimeoutSecs : Nat

namespace TaskScheduler

/-- The order in which `schedule_next` looks at the queues. -/
def schedulingOrder : List Priority := [.critical, .urgent, .high, .normal, .low, .background]

theorem mem_schedulingOrder (priority : Priority) : priority ∈ schedulingOrder := by
  cases priority <;> decide

def new (maxRetries taskTimeoutSecs : Nat) : TaskScheduler where
  pendingTasks := fun _ => []
  runningTasks := ∅
  completedTasks := ∅
  taskCounter := 0
  maxRetries := maxRetries
  taskTimeoutSecs := taskTimeoutSecs

/-! ## Sections -/

def taskIdOf (counter : Nat) : TaskId := ⟨"task-" ++ Nat.repr counter⟩

/-- `fetch_add` on an `AtomicU64`: the counter wraps around. -/
def generateTaskId (scheduler : TaskScheduler) : TaskId × TaskScheduler :=
  (taskIdOf scheduler.taskCounter,
    { scheduler with taskCounter := (scheduler.taskCounter + 1) % 2 ^ 64 })

def setQueue (scheduler : TaskScheduler) (priority : Priority) (queue : List QueuedTask) :
    TaskScheduler :=
  { scheduler with pendingTasks := Function.update scheduler.pendingTasks priority queue }

def pushPending (scheduler : TaskScheduler) (task : QueuedTask) : TaskScheduler :=
  scheduler.setQueue task.priority (scheduler.pendingTasks task.priority ++ [task])

/-- Take the front of a queue. -/
def popPending (scheduler : TaskScheduler) (priority : Priority) :
    Option (QueuedTask × TaskScheduler) :=
  match scheduler.pendingTasks priority with
  | [] => none
  | task :: rest => some (task, scheduler.setQueue priority rest)

/-- Put a task that found no node back to the front. -/
def requeue (scheduler : TaskScheduler) (priority : Priority) (task : QueuedTask) :
    TaskScheduler :=
  scheduler.setQueue priority (task :: scheduler.pendingTasks priority)

def bumpRetry (senders : Senders) (task : QueuedTask) : QueuedTask :=
  if task.retryCount < task.maxRetries ∧ senders.keys ≠ ∅ then
    { task with retryCount := task.retryCount + 1 }
  else task

/-- The condition of `candidates.retain`. -/
def suits (fs : Unix.FileSystem) (senders : Senders) (task : QueuedTask) (node : NodeInfo) :
    Bool :=
  if node.nodeId ∉ senders then false
  else if node.state ≠ .online then false
  else if task.requiredCapabilities.any (fun required => !node.capabilities.meets required) then
    false
  else if !task.requiredTags.isEmpty && !task.requiredTags.any node.tags.contains then false
  else match task.context.executionWorkspaceId with
    | some workspaceId => node.workspace.workspaceId = some workspaceId
    | none => task.workspaceHint.all (fun hint => workspaceMatchesHint fs node.workspace.path hint)

/-- The nodes to try, best first. `scoreLe` compares load scores, which are
floating-point numbers; the sort is stable. -/
def candidates (fs : Unix.FileSystem) (scoreLe : LoadInfo → LoadInfo → Bool) (senders : Senders)
    (task : QueuedTask) (nodes : List NodeInfo) : List NodeInfo :=
  (nodes.filter (suits fs senders task)).mergeSort (fun a b => scoreLe a.load b.load)

/-- What the node manager is asked before `retain`: the node of the task's
execution workspace, or every online node in the order the registry iterates. -/
def reachableNodes (manager : NodeManager) (order : List (NodeId × NodeInfo)) (task : QueuedTask) :
    List NodeInfo :=
  match task.context.executionWorkspaceId with
  | some workspaceId => (manager.getNodeByWorkspaceId workspaceId).toList
  | none => NodeManager.getOnlineNodes order

def assignment (task : QueuedTask) (messageId : MessageId) (deadline : DateTime) : HubToNode :=
  .taskAssignment messageId task.taskId task.command task.priority (some deadline) task.context
    task.retryCount task.maxRetries

def deadlineAt (scheduler : TaskScheduler) (now : DateTime) : DateTime :=
  now + seconds scheduler.taskTimeoutSecs

def insertRunning (scheduler : TaskScheduler) (task : QueuedTask) (nodeId : NodeId)
    (startedAt timeoutAt : DateTime) : TaskScheduler :=
  let running : RunningTask :=
    { taskId := task.taskId, command := task.command, context := task.context
      priority := task.priority, nodeId, startedAt, timeoutAt, retryCount := task.retryCount }
  { scheduler with runningTasks := scheduler.runningTasks.insert task.taskId running }

def takeRunning (scheduler : TaskScheduler) (taskId : TaskId) :
    Option (RunningTask × TaskScheduler) :=
  match scheduler.runningTasks.lookup taskId with
  | none => none
  | some running =>
    some (running, { scheduler with runningTasks := scheduler.runningTasks.erase taskId })

/-- Search one queue for a task id and take the first match out. -/
def takeFrom (scheduler : TaskScheduler) (taskId : TaskId) (priority : Priority) :
    Option (QueuedTask × TaskScheduler) :=
  match (scheduler.pendingTasks priority).find? (fun task => task.taskId = taskId) with
  | none => none
  | some queued =>
    some (queued, scheduler.setQueue priority
      ((scheduler.pendingTasks priority).eraseP (fun task => task.taskId = taskId)))

/-- Search the queues in the order the map iterates. -/
def takeQueued (scheduler : TaskScheduler) (order : List Priority) (taskId : TaskId) :
    Option (QueuedTask × TaskScheduler) :=
  order.findSome? (scheduler.takeFrom taskId)

/-- The first of the ids that is still running, with the ids after it. -/
def takeNextRunning (scheduler : TaskScheduler) :
    List TaskId → Option (TaskId × RunningTask × List TaskId × TaskScheduler)
  | [] => none
  | taskId :: rest =>
    match scheduler.takeRunning taskId with
    | some (running, scheduler') => some (taskId, running, rest, scheduler')
    | none => takeNextRunning scheduler rest

/-- The ids whose deadline has passed, in the order the map iterates. -/
def timedOut (order : List (TaskId × RunningTask)) (now : DateTime) : List TaskId :=
  (order.filter (fun entry => now > entry.2.timeoutAt)).map Prod.fst

def terminalStatusFromResult (result : CommandResult) : TaskStatus :=
  if result.success then .completed else .failed

/-- The terminal record of a task that was running. -/
def finishRunning (taskId : TaskId) (running : RunningTask) (completedAt : DateTime)
    (status : TaskStatus) (result : CommandResult) : CompletedTask :=
  { taskId, command := running.command, context := running.context, priority := running.priority
    nodeId := running.nodeId, startedAt := running.startedAt, completedAt, status, result }

def pendingCancelled : NodeId := ⟨"pending-cancelled"⟩

def cancelledResult : CommandResult := .failure (.executionFailed "Task cancelled")

def timeoutResult : CommandResult := .failure (.timeout "Task timed out")

/-- The terminal record of a task that was cancelled in its queue. -/
def finishQueued (queued : QueuedTask) (completedAt : DateTime) : CompletedTask :=
  { taskId := queued.taskId, command := queued.command, context := queued.context
    priority := queued.priority, nodeId := pendingCancelled, startedAt := queued.createdAt
    completedAt, status := .cancelled, result := cancelledResult }

/-- Insert a record and, above 500 records, remove the 250 oldest. Returns the
evicted ids. `order` is the iteration order after the insertion. -/
def storeCompletedTask (scheduler : TaskScheduler) (completed : CompletedTask)
    (order : List (TaskId × CompletedTask)) : TaskScheduler × List TaskId :=
  let stored : HashMap TaskId CompletedTask :=
    scheduler.completedTasks.insert completed.taskId completed
  if stored.keys.card > 500 then
    let sorted := order.mergeSort (fun a b => a.2.completedAt ≤ b.2.completedAt)
    let idsToRemove := (sorted.take 250).map Prod.fst
    ({ scheduler with completedTasks := stored.eraseAll idsToRemove }, idsToRemove)
  else ({ scheduler with completedTasks := stored }, [])

def runningStatus (taskId : TaskId) (running : RunningTask) : TaskStatusInfo where
  taskId := taskId
  status := .running
  commandType := some running.command.commandType
  priority := some running.priority
  nodeId := some running.nodeId
  startedAt := some running.startedAt
  completedAt := none
  error := none

def completedStatus (taskId : TaskId) (completed : CompletedTask) : TaskStatusInfo where
  taskId := taskId
  status := completed.status
  commandType := some completed.command.commandType
  priority := some completed.priority
  nodeId := some completed.nodeId
  startedAt := some completed.startedAt
  completedAt := some completed.completedAt
  error := completed.result.error.map (fun error => error.message)

def queuedStatus (taskId : TaskId) (task : QueuedTask) : TaskStatusInfo where
  taskId := taskId
  status := .queued
  commandType := some task.command.commandType
  priority := some task.priority
  nodeId := none
  startedAt := none
  completedAt := none
  error := none

/-- Search the queues for a task id, in the order the map iterates. -/
def findQueued (scheduler : TaskScheduler) (order : List Priority) (taskId : TaskId) :
    Option QueuedTask :=
  order.findSome? fun priority =>
    (scheduler.pendingTasks priority).find? (fun task => task.taskId = taskId)

def taskNotFound (taskId : TaskId) : HubError := .task ("Task not found: " ++ taskId.value)

/-! ## An operation without interruption -/

/-- `complete_task` when nothing runs between its sections: the scheduler after
it and the notification it sends. A result for an unknown id changes nothing. -/
def completeTask (scheduler : TaskScheduler) (taskId : TaskId) (nodeId : NodeId)
    (result : CommandResult) (now : DateTime) (order : List (TaskId × CompletedTask)) :
    TaskScheduler × Option TaskResult :=
  match scheduler.takeRunning taskId with
  | none => (scheduler, none)
  | some (running, scheduler) =>
    let completed :=
      finishRunning taskId running now (terminalStatusFromResult result) result
    ((scheduler.storeCompletedTask completed order).1, some ⟨taskId, nodeId, result⟩)

/-! ## What each section does to the three maps -/

section Sections

variable {scheduler scheduler' : TaskScheduler} {taskId : TaskId} {priority : Priority}

@[simp] theorem pendingTasks_setQueue (queue : List QueuedTask) :
    (scheduler.setQueue priority queue).pendingTasks =
      Function.update scheduler.pendingTasks priority queue := rfl

@[simp] theorem runningTasks_setQueue (queue : List QueuedTask) :
    (scheduler.setQueue priority queue).runningTasks = scheduler.runningTasks := rfl

@[simp] theorem completedTasks_setQueue (queue : List QueuedTask) :
    (scheduler.setQueue priority queue).completedTasks = scheduler.completedTasks := rfl

@[simp] theorem taskCounter_setQueue (queue : List QueuedTask) :
    (scheduler.setQueue priority queue).taskCounter = scheduler.taskCounter := rfl

theorem takeRunning_eq_some {running : RunningTask}
    (taken : scheduler.takeRunning taskId = some (running, scheduler')) :
    scheduler.runningTasks.lookup taskId = some running ∧
      scheduler' = { scheduler with runningTasks := scheduler.runningTasks.erase taskId } := by
  rw [takeRunning] at taken
  split at taken
  · cases taken
  · next found =>
      cases taken
      exact ⟨found, rfl⟩

theorem takeRunning_eq_none :
    scheduler.takeRunning taskId = none ↔ taskId ∉ scheduler.runningTasks := by
  rw [← Finmap.lookup_eq_none]
  rw [takeRunning]
  split
  · next missing => simp [missing]
  · next found => simp [found]

theorem takeQueued_eq_some {order : List Priority} {queued : QueuedTask}
    (taken : scheduler.takeQueued order taskId = some (queued, scheduler')) :
    queued.taskId = taskId ∧ ∃ priority before after,
      scheduler.pendingTasks priority = before ++ queued :: after ∧
        (∀ task ∈ before, task.taskId ≠ taskId) ∧
        scheduler' = scheduler.setQueue priority (before ++ after) := by
  obtain ⟨priority, -, inQueue⟩ := List.exists_of_findSome?_eq_some taken
  rw [takeFrom] at inQueue
  split at inQueue
  · cases inQueue
  · next queue found =>
      cases inQueue
      obtain ⟨hit, before, after, queue, earlier⟩ := List.find?_eq_some_iff_append.mp found
      have here : queued.taskId = taskId := by simpa using hit
      have others : ∀ task ∈ before, task.taskId ≠ taskId := by
        intro task member
        simpa using earlier task member
      refine ⟨here, priority, before, after, queue, others, ?_⟩
      rw [queue, List.eraseP_append_right _ (by simpa using others)]
      simp [here]

theorem takeQueued_eq_none {order : List Priority} (complete : order.Perm schedulingOrder)
    (missed : scheduler.takeQueued order taskId = none) (priority : Priority) :
    ∀ task ∈ scheduler.pendingTasks priority, task.taskId ≠ taskId := by
  have member : priority ∈ order := complete.mem_iff.mpr (mem_schedulingOrder priority)
  have absent := List.findSome?_eq_none_iff.mp missed priority member
  rw [takeFrom] at absent
  split at absent
  · next notFound => simpa using notFound
  · cases absent

theorem findQueued_eq_none {order : List Priority} (complete : order.Perm schedulingOrder)
    (missed : scheduler.findQueued order taskId = none) (priority : Priority) :
    ∀ task ∈ scheduler.pendingTasks priority, task.taskId ≠ taskId := by
  have member : priority ∈ order := complete.mem_iff.mpr (mem_schedulingOrder priority)
  simpa using List.findSome?_eq_none_iff.mp missed priority member

/-- Up to 500 records nothing is evicted. -/
theorem storeCompletedTask_of_le {completed : CompletedTask}
    (order : List (TaskId × CompletedTask))
    (few : (scheduler.completedTasks.insert completed.taskId completed).keys.card ≤ 500) :
    scheduler.storeCompletedTask completed order =
      ({ scheduler with
          completedTasks := scheduler.completedTasks.insert completed.taskId completed }, []) := by
  rw [storeCompletedTask]
  exact if_neg (by omega)

theorem runningTasks_storeCompletedTask (completed : CompletedTask)
    (order : List (TaskId × CompletedTask)) :
    (scheduler.storeCompletedTask completed order).1.runningTasks = scheduler.runningTasks := by
  rw [storeCompletedTask]
  dsimp only
  split <;> rfl

/-- Whoever reports the result, the task is not running afterwards. -/
theorem lookup_runningTasks_completeTask (nodeId : NodeId) (result : CommandResult)
    (now : DateTime) (order : List (TaskId × CompletedTask)) (other : TaskId) :
    (scheduler.completeTask taskId nodeId result now order).1.runningTasks.lookup other =
      if other = taskId then none else scheduler.runningTasks.lookup other := by
  rw [completeTask]
  split
  · next missing =>
      split
      · next same =>
          rw [same]
          exact Finmap.lookup_eq_none.mpr (takeRunning_eq_none.mp missing)
      · rfl
  · next running taken found =>
      obtain ⟨-, rfl⟩ := takeRunning_eq_some found
      rw [runningTasks_storeCompletedTask, HashMap.lookup_erase_ite]

/-- Ids that are not running any more are skipped. -/
theorem takeNextRunning_eq_some {ids rest : List TaskId} {running : RunningTask}
    (taken : scheduler.takeNextRunning ids = some (taskId, running, rest, scheduler')) :
    taskId ∈ ids ∧ scheduler.takeRunning taskId = some (running, scheduler') := by
  induction ids with
  | nil => cases taken
  | cons id ids ih =>
    rw [takeNextRunning] at taken
    split at taken
    · next found =>
        cases taken
        exact ⟨List.mem_cons_self, found⟩
    · obtain ⟨member, found⟩ := ih taken
      exact ⟨List.mem_cons_of_mem _ member, found⟩

end Sections

end TaskScheduler
end UHorse.Hub
