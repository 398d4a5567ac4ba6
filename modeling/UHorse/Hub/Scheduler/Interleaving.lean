import UHorse.Lib.System
import UHorse.Hub.TaskScheduler

/-!
# Concurrent calls of the scheduler

Any number of calls run at the same time. A `Call` is the program counter of one
of them together with its local variables; between two sections a call may hold
a task that it has taken out of one map and not yet put into the next. One step
either begins a call or runs one section of a call (a lock section, an answer of
the node registry or a channel send), with everything the section reads from
outside in its `Env`.

The log is a ghost: it records what happened and no section reads it.
-/

namespace UHorse.Hub.Scheduler

open UHorse.Lib UHorse.Protocol TaskScheduler

/-- What a finished call returned. -/
inductive Outcome
  | submitted (taskId : TaskId)
  | scheduled (task : Option ScheduledTask)
  | processed
  | cancelled (taskId : TaskId) (answer : Except HubError Unit)
  | timedOut (ids : List TaskId)
  | status (taskId : TaskId) (info : Option TaskStatusInfo)

/-- Where a call continues after it has sent a notification. -/
inductive Resume
  | finish (outcome : Outcome)
  | timeouts (now : DateTime) (found remaining : List TaskId)

inductive Call
  /-- `submit_task` with its id drawn, before the queue lock. -/
  | pushing (task : QueuedTask)
  /-- `schedule_next` before it looks at the next queue. -/
  | scheduling (senders : Senders) (queues : List Priority)
  /-- A task was taken from `queue`; the node registry is asked next. -/
  | selecting (senders : Senders) (queue : Priority) (queues : List Priority) (task : QueuedTask)
  /-- The nodes left to try; when none is left the task goes back to `queue`. -/
  | placing (senders : Senders) (queue : Priority) (queues : List Priority) (task : QueuedTask)
      (nodes : List NodeInfo)
  /-- The assignment is in the node's channel, `running_tasks` not yet locked. -/
  | registering (task : QueuedTask) (nodeId : NodeId)
  | completing (taskId : TaskId) (nodeId : NodeId) (result : CommandResult)
  /-- `complete_task` did not find the id running and looks for a record. -/
  | ignoring (taskId : TaskId)
  | cancelling (taskId : TaskId)
  | cancellingRunning (taskId : TaskId)
  | checking
  | timingOut (now : DateTime) (found remaining : List TaskId)
  /-- A terminal record that is not in `completed_tasks` yet. -/
  | storing (completed : CompletedTask) (notice : TaskResult) (resume : Resume)
  | notifying (notice : TaskResult) (resume : Resume)
  | statusRunning (taskId : TaskId)
  | statusCompleted (taskId : TaskId)
  | statusPending (taskId : TaskId)
  | done (outcome : Outcome)

/-- Why a task left the queues and `running_tasks` for good. -/
inductive Cause
  | result
  | cancellation
  | timeout
deriving DecidableEq, Repr

inductive Event
  | drawn (taskId : TaskId)
  | assigned (taskId : TaskId) (nodeId : NodeId) (message : HubToNode)
  /-- `complete_task` has looked for the id in `running_tasks`. -/
  | processed (taskId : TaskId) (nodeId : NodeId)
  | settled (taskId : TaskId) (cause : Cause)
  | stored (completed : CompletedTask)
  | evicted (taskId : TaskId)
  | notified (notice : TaskResult) (delivered : Bool)

/-- What one section reads from outside the scheduler: two readings of the
clock, fresh message ids, the answer of the node registry, the file system and
the comparison of load scores behind the choice of nodes, whether the other end
of a channel is still there, and the iteration orders of the maps. -/
structure Env where
  now : DateTime
  later : DateTime
  messageId : MessageId
  nodes : List NodeInfo
  fs : Unix.FileSystem
  scoreLe : LoadInfo → LoadInfo → Bool
  delivered : Bool
  queueOrder : List Priority
  runningOrder : List (TaskId × RunningTask)
  completedOrder : List (TaskId × CompletedTask)

namespace Call

/-- The id of the task a call has in hand. -/
def hand : Call → Option TaskId
  | .pushing task => some task.taskId
  | .selecting _ _ _ task => some task.taskId
  | .placing _ _ _ task _ => some task.taskId
  | .registering task _ => some task.taskId
  | .storing completed _ _ => some completed.taskId
  | _ => none

def finished : Call → Bool
  | .done _ => true
  | _ => false

def ofResume : Resume → Call
  | .finish outcome => .done outcome
  | .timeouts now found remaining => .timingOut now found remaining

/-- The loop of `check_timeouts` under one lock: the next id that is still
running leaves `running_tasks`, or the call returns. -/
def nextTimeout (scheduler : TaskScheduler) (now : DateTime) (found remaining : List TaskId) :
    TaskScheduler × Call × List Event :=
  match scheduler.takeNextRunning remaining with
  | none => (scheduler, .done (.timedOut found), [])
  | some (taskId, running, rest, scheduler') =>
    (scheduler',
      .storing (finishRunning taskId running now .timeout timeoutResult)
        ⟨taskId, running.nodeId, timeoutResult⟩ (.timeouts now found rest),
      [.settled taskId .timeout])

/-- Run the next section of a call. -/
def advance (env : Env) (scheduler : TaskScheduler) : Call → TaskScheduler × Call × List Event
  | .pushing task => (scheduler.pushPending task, .done (.submitted task.taskId), [])
  | .scheduling _ [] => (scheduler, .done (.scheduled none), [])
  | .scheduling senders (queue :: queues) =>
    match scheduler.popPending queue with
    | none => (scheduler, .scheduling senders queues, [])
    | some (task, scheduler') => (scheduler', .selecting senders queue queues task, [])
  | .selecting senders queue queues task =>
    (scheduler,
      .placing senders queue queues task
        (candidates env.fs env.scoreLe senders task env.nodes), [])
  | .placing senders queue queues task [] =>
    (scheduler.requeue queue (bumpRetry senders task), .scheduling senders queues, [])
  | .placing senders queue queues task (node :: nodes) =>
    if env.delivered then
      (scheduler, .registering task node.nodeId,
        [.assigned task.taskId node.nodeId
          (assignment task env.messageId (scheduler.deadlineAt env.now))])
    else (scheduler, .placing senders queue queues task nodes, [])
  | .registering task nodeId =>
    (scheduler.insertRunning task nodeId env.now (scheduler.deadlineAt env.later),
      .done (.scheduled (some ⟨task.taskId, nodeId, env.later⟩)), [])
  | .completing taskId nodeId result =>
    match scheduler.takeRunning taskId with
    | some (running, scheduler') =>
      (scheduler',
        .storing
          (finishRunning taskId running env.now (terminalStatusFromResult result) result)
          ⟨taskId, nodeId, result⟩ (.finish .processed),
        [.processed taskId nodeId, .settled taskId .result])
    | none => (scheduler, .ignoring taskId, [.processed taskId nodeId])
  | .ignoring _ => (scheduler, .done .processed, [])
  | .cancelling taskId =>
    match scheduler.takeQueued env.queueOrder taskId with
    | some (queued, scheduler') =>
      (scheduler',
        .storing (finishQueued queued env.now) ⟨taskId, pendingCancelled, cancelledResult⟩
          (.finish (.cancelled taskId (.ok ()))),
        [.settled taskId .cancellation])
    | none => (scheduler, .cancellingRunning taskId, [])
  | .cancellingRunning taskId =>
    match scheduler.takeRunning taskId with
    | some (running, scheduler') =>
      (scheduler',
        .storing (finishRunning taskId running env.now .cancelled cancelledResult)
          ⟨taskId, running.nodeId, cancelledResult⟩ (.finish (.cancelled taskId (.ok ()))),
        [.settled taskId .cancellation])
    | none => (scheduler, .done (.cancelled taskId (.error (taskNotFound taskId))), [])
  | .checking =>
    let found := timedOut env.runningOrder env.now
    nextTimeout scheduler env.now found found
  | .timingOut now found remaining => nextTimeout scheduler now found remaining
  | .storing completed notice resume =>
    let (scheduler', evicted) := scheduler.storeCompletedTask completed env.completedOrder
    (scheduler', .notifying notice resume, .stored completed :: evicted.map .evicted)
  | .notifying notice resume => (scheduler, ofResume resume, [.notified notice env.delivered])
  | .statusRunning taskId =>
    match scheduler.runningTasks.lookup taskId with
    | some running =>
      (scheduler, .done (.status taskId (some (runningStatus taskId running))), [])
    | none => (scheduler, .statusCompleted taskId, [])
  | .statusCompleted taskId =>
    match scheduler.completedTasks.lookup taskId with
    | some completed =>
      (scheduler, .done (.status taskId (some (completedStatus taskId completed))), [])
    | none => (scheduler, .statusPending taskId, [])
  | .statusPending taskId =>
    (scheduler,
      .done (.status taskId
        ((scheduler.findQueued env.queueOrder taskId).map (queuedStatus taskId))), [])
  | .done outcome => (scheduler, .done outcome, [])

end Call

/-- The iteration order in `env` is an order of the map the section iterates. -/
def Env.Fits (env : Env) (scheduler : TaskScheduler) : Call → Prop
  | .cancelling _ => env.queueOrder.Perm schedulingOrder
  | .statusPending _ => env.queueOrder.Perm schedulingOrder
  | .checking => scheduler.runningTasks.Lists env.runningOrder
  | .storing completed _ _ =>
    HashMap.Lists (scheduler.completedTasks.insert completed.taskId completed)
      env.completedOrder
  | _ => True

/-- The arguments of `submit_task`. -/
structure Submission where
  command : Command
  context : TaskContext
  priority : Priority
  requiredCapabilities : Option NodeCapabilities
  requiredTags : List String
  workspaceHint : Option String

def Submission.queued (submission : Submission) (taskId : TaskId) (maxRetries : Nat)
    (now : DateTime) : QueuedTask where
  taskId := taskId
  command := submission.command
  context := submission.context
  priority := submission.priority
  createdAt := now
  retryCount := 0
  maxRetries := maxRetries
  requiredCapabilities := submission.requiredCapabilities
  requiredTags := submission.requiredTags
  workspaceHint := submission.workspaceHint

/-- The scheduler, its calls in the order they began, and the log. -/
structure State where
  scheduler : TaskScheduler
  calls : List Call
  log : List Event

def State.initial (maxRetries taskTimeoutSecs : Nat) : State :=
  ⟨.new maxRetries taskTimeoutSecs, [], []⟩

inductive Label
  /-- `submit_task` draws its id, which needs no lock. -/
  | submit (submission : Submission) (now : DateTime)
  | schedule (senders : Senders)
  | complete (taskId : TaskId) (nodeId : NodeId) (result : CommandResult)
  | cancel (taskId : TaskId)
  | checkTimeouts
  | getStatus (taskId : TaskId)
  /-- The call with this number runs its next section. -/
  | advance (index : Nat) (env : Env)

namespace State

def begin (s : State) (call : Call) : State := { s with calls := s.calls ++ [call] }

def submit (s : State) (submission : Submission) (now : DateTime) : State :=
  let drawn := s.scheduler.generateTaskId
  { scheduler := drawn.2
    calls := s.calls ++ [.pushing (submission.queued drawn.1 s.scheduler.maxRetries now)]
    log := s.log ++ [.drawn drawn.1] }

/-- One call runs a section. -/
def run (s : State) (index : Nat) (call : Call) (env : Env) : State :=
  let (scheduler, call', events) := call.advance env s.scheduler
  { scheduler, calls := s.calls.set index call', log := s.log ++ events }

end State

inductive Step : State → Label → State → Prop
  | submit (s : State) (submission : Submission) (now : DateTime) :
      Step s (.submit submission now) (s.submit submission now)
  | schedule (s : State) (senders : Senders) :
      Step s (.schedule senders) (s.begin (.scheduling senders schedulingOrder))
  | complete (s : State) (taskId : TaskId) (nodeId : NodeId) (result : CommandResult) :
      Step s (.complete taskId nodeId result) (s.begin (.completing taskId nodeId result))
  | cancel (s : State) (taskId : TaskId) :
      Step s (.cancel taskId) (s.begin (.cancelling taskId))
  | checkTimeouts (s : State) : Step s .checkTimeouts (s.begin .checking)
  | getStatus (s : State) (taskId : TaskId) :
      Step s (.getStatus taskId) (s.begin (.statusRunning taskId))
  | advance (s : State) (index : Nat) (call : Call) (env : Env) :
      s.calls[index]? = some call → call.finished = false → env.Fits s.scheduler call →
      Step s (.advance index env) (s.run index call env)

/-- All interleavings of calls on a fresh scheduler. -/
def system (maxRetries taskTimeoutSecs : Nat) : System State Label where
  Init s := s = .initial maxRetries taskTimeoutSecs
  Step := Step

/-! ## What a section can do -/

/-- Every outcome of one section, with what it found and what it changed. -/
inductive Section (env : Env) (scheduler : TaskScheduler) :
    Call → TaskScheduler → Call → List Event → Prop
  | push (task : QueuedTask) :
      Section env scheduler (.pushing task) (scheduler.pushPending task)
        (.done (.submitted task.taskId)) []
  | exhausted (senders : Senders) :
      Section env scheduler (.scheduling senders []) scheduler (.done (.scheduled none)) []
  | skip {senders : Senders} {queue : Priority} {queues : List Priority} :
      scheduler.pendingTasks queue = [] →
      Section env scheduler (.scheduling senders (queue :: queues)) scheduler
        (.scheduling senders queues) []
  | pop {senders : Senders} {queue : Priority} {queues : List Priority} {task : QueuedTask}
      {rest : List QueuedTask} :
      scheduler.pendingTasks queue = task :: rest →
      Section env scheduler (.scheduling senders (queue :: queues))
        (scheduler.setQueue queue rest) (.selecting senders queue queues task) []
  | select (senders : Senders) (queue : Priority) (queues : List Priority) (task : QueuedTask) :
      Section env scheduler (.selecting senders queue queues task) scheduler
        (.placing senders queue queues task
          (candidates env.fs env.scoreLe senders task env.nodes)) []
  | giveUp (senders : Senders) (queue : Priority) (queues : List Priority) (task : QueuedTask) :
      Section env scheduler (.placing senders queue queues task [])
        (scheduler.requeue queue (bumpRetry senders task)) (.scheduling senders queues) []
  | refused (senders : Senders) (queue : Priority) (queues : List Priority) (task : QueuedTask)
      (node : NodeInfo) (nodes : List NodeInfo) :
      env.delivered = false →
      Section env scheduler (.placing senders queue queues task (node :: nodes)) scheduler
        (.placing senders queue queues task nodes) []
  | send (senders : Senders) (queue : Priority) (queues : List Priority) (task : QueuedTask)
      (node : NodeInfo) (nodes : List NodeInfo) :
      env.delivered = true →
      Section env scheduler (.placing senders queue queues task (node :: nodes)) scheduler
        (.registering task node.nodeId)
        [.assigned task.taskId node.nodeId
          (assignment task env.messageId (scheduler.deadlineAt env.now))]
  | register (task : QueuedTask) (nodeId : NodeId) :
      Section env scheduler (.registering task nodeId)
        (scheduler.insertRunning task nodeId env.now (scheduler.deadlineAt env.later))
        (.done (.scheduled (some ⟨task.taskId, nodeId, env.later⟩))) []
  | result {taskId : TaskId} {running : RunningTask} (nodeId : NodeId) (result : CommandResult) :
      scheduler.runningTasks.lookup taskId = some running →
      Section env scheduler (.completing taskId nodeId result)
        { scheduler with runningTasks := scheduler.runningTasks.erase taskId }
        (.storing (finishRunning taskId running env.now (terminalStatusFromResult result) result)
          ⟨taskId, nodeId, result⟩ (.finish .processed))
        [.processed taskId nodeId, .settled taskId .result]
  | late {taskId : TaskId} (nodeId : NodeId) (result : CommandResult) :
      taskId ∉ scheduler.runningTasks →
      Section env scheduler (.completing taskId nodeId result) scheduler (.ignoring taskId)
        [.processed taskId nodeId]
  | ignore (taskId : TaskId) :
      Section env scheduler (.ignoring taskId) scheduler (.done .processed) []
  | cancelQueued {taskId : TaskId} {queued : QueuedTask} {queue : Priority}
      {before after : List QueuedTask} :
      queued.taskId = taskId → scheduler.pendingTasks queue = before ++ queued :: after →
      Section env scheduler (.cancelling taskId) (scheduler.setQueue queue (before ++ after))
        (.storing (finishQueued queued env.now) ⟨taskId, pendingCancelled, cancelledResult⟩
          (.finish (.cancelled taskId (.ok ()))))
        [.settled taskId .cancellation]
  | notQueued {taskId : TaskId} :
      (∀ queue, ∀ task ∈ scheduler.pendingTasks queue, task.taskId ≠ taskId) →
      Section env scheduler (.cancelling taskId) scheduler (.cancellingRunning taskId) []
  | cancelRunning {taskId : TaskId} {running : RunningTask} :
      scheduler.runningTasks.lookup taskId = some running →
      Section env scheduler (.cancellingRunning taskId)
        { scheduler with runningTasks := scheduler.runningTasks.erase taskId }
        (.storing (finishRunning taskId running env.now .cancelled cancelledResult)
          ⟨taskId, running.nodeId, cancelledResult⟩ (.finish (.cancelled taskId (.ok ()))))
        [.settled taskId .cancellation]
  | notFound {taskId : TaskId} :
      taskId ∉ scheduler.runningTasks →
      Section env scheduler (.cancellingRunning taskId) scheduler
        (.done (.cancelled taskId (.error (taskNotFound taskId)))) []
  | firstTimeout {taskId : TaskId} {running : RunningTask} {now : DateTime}
      {found rest : List TaskId} :
      scheduler.runningTasks.lookup taskId = some running →
      Section env scheduler .checking
        { scheduler with runningTasks := scheduler.runningTasks.erase taskId }
        (.storing (finishRunning taskId running now .timeout timeoutResult)
          ⟨taskId, running.nodeId, timeoutResult⟩ (.timeouts now found rest))
        [.settled taskId .timeout]
  | nextTimeout {taskId : TaskId} {running : RunningTask} {now : DateTime}
      {found remaining rest : List TaskId} :
      scheduler.runningTasks.lookup taskId = some running →
      Section env scheduler (.timingOut now found remaining)
        { scheduler with runningTasks := scheduler.runningTasks.erase taskId }
        (.storing (finishRunning taskId running now .timeout timeoutResult)
          ⟨taskId, running.nodeId, timeoutResult⟩ (.timeouts now found rest))
        [.settled taskId .timeout]
  | noTimeout (found : List TaskId) :
      Section env scheduler .checking scheduler (.done (.timedOut found)) []
  | lastTimeout (now : DateTime) (found remaining : List TaskId) :
      Section env scheduler (.timingOut now found remaining) scheduler (.done (.timedOut found)) []
  | store (completed : CompletedTask) (notice : TaskResult) (resume : Resume) :
      Section env scheduler (.storing completed notice resume)
        (scheduler.storeCompletedTask completed env.completedOrder).1 (.notifying notice resume)
        (.stored completed ::
          (scheduler.storeCompletedTask completed env.completedOrder).2.map .evicted)
  | notify (notice : TaskResult) (resume : Resume) :
      Section env scheduler (.notifying notice resume) scheduler (Call.ofResume resume)
        [.notified notice env.delivered]
  | seenRunning {taskId : TaskId} {running : RunningTask} :
      scheduler.runningTasks.lookup taskId = some running →
      Section env scheduler (.statusRunning taskId) scheduler
        (.done (.status taskId (some (runningStatus taskId running)))) []
  | notRunning {taskId : TaskId} :
      taskId ∉ scheduler.runningTasks →
      Section env scheduler (.statusRunning taskId) scheduler (.statusCompleted taskId) []
  | seenCompleted {taskId : TaskId} {completed : CompletedTask} :
      scheduler.completedTasks.lookup taskId = some completed →
      Section env scheduler (.statusCompleted taskId) scheduler
        (.done (.status taskId (some (completedStatus taskId completed)))) []
  | notCompleted {taskId : TaskId} :
      taskId ∉ scheduler.completedTasks →
      Section env scheduler (.statusCompleted taskId) scheduler (.statusPending taskId) []
  | lookedUp {taskId : TaskId} :
      env.queueOrder.Perm schedulingOrder →
      Section env scheduler (.statusPending taskId) scheduler
        (.done (.status taskId
          ((scheduler.findQueued env.queueOrder taskId).map (queuedStatus taskId)))) []

variable {env : Env} {scheduler : TaskScheduler} {call : Call} {s : State} {label : Label}
  {ids : List TaskId}

theorem nextTimeout_section {now : DateTime} {found remaining : List TaskId}
    (scan : call = .checking ∨ call = .timingOut now found remaining) :
    Section env scheduler call (Call.nextTimeout scheduler now found remaining).1
      (Call.nextTimeout scheduler now found remaining).2.1
      (Call.nextTimeout scheduler now found remaining).2.2 := by
  rw [Call.nextTimeout]
  cases taken : scheduler.takeNextRunning remaining with
  | none =>
    obtain rfl | rfl := scan
    · exact .noTimeout found
    · exact .lastTimeout now found remaining
  | some entry =>
    obtain ⟨taskId, running, rest, scheduler'⟩ := entry
    obtain ⟨-, removed⟩ := takeNextRunning_eq_some taken
    obtain ⟨lookup, rfl⟩ := takeRunning_eq_some removed
    obtain rfl | rfl := scan
    · exact .firstTimeout lookup
    · exact .nextTimeout lookup

theorem advance_section (unfinished : call.finished = false) (fits : env.Fits scheduler call) :
    Section env scheduler call (call.advance env scheduler).1 (call.advance env scheduler).2.1
      (call.advance env scheduler).2.2 := by
  cases call with
  | pushing task => exact .push task
  | scheduling senders queues =>
    cases queues with
    | nil => exact .exhausted senders
    | cons queue queues =>
      cases contents : scheduler.pendingTasks queue with
      | nil =>
        simp only [Call.advance, popPending, contents]
        exact .skip contents
      | cons task rest =>
        simp only [Call.advance, popPending, contents]
        exact .pop contents
  | selecting senders queue queues task => exact .select senders queue queues task
  | placing senders queue queues task nodes =>
    cases nodes with
    | nil => exact .giveUp senders queue queues task
    | cons node nodes =>
      cases sent : env.delivered with
      | true =>
        simp only [Call.advance, sent, if_true]
        exact .send senders queue queues task node nodes sent
      | false =>
        simp only [Call.advance, sent]
        exact .refused senders queue queues task node nodes sent
  | registering task nodeId => exact .register task nodeId
  | completing taskId nodeId result =>
    simp only [Call.advance]
    cases taken : scheduler.takeRunning taskId with
    | none => exact .late nodeId result (takeRunning_eq_none.mp taken)
    | some entry =>
      obtain ⟨lookup, same⟩ := takeRunning_eq_some (taken.trans rfl)
      simp only [same]
      exact .result nodeId result lookup
  | ignoring taskId => exact .ignore taskId
  | cancelling taskId =>
    simp only [Call.advance]
    cases taken : scheduler.takeQueued env.queueOrder taskId with
    | none => exact .notQueued (takeQueued_eq_none fits taken)
    | some entry =>
      obtain ⟨same, queue, before, after, contents, -, updated⟩ :=
        takeQueued_eq_some (taken.trans rfl)
      simp only [updated]
      exact .cancelQueued same contents
  | cancellingRunning taskId =>
    simp only [Call.advance]
    cases taken : scheduler.takeRunning taskId with
    | none => exact .notFound (takeRunning_eq_none.mp taken)
    | some entry =>
      obtain ⟨lookup, same⟩ := takeRunning_eq_some (taken.trans rfl)
      simp only [same]
      exact .cancelRunning lookup
  | checking => exact nextTimeout_section (.inl rfl)
  | timingOut now found remaining => exact nextTimeout_section (.inr rfl)
  | storing completed notice resume => exact .store completed notice resume
  | notifying notice resume => exact .notify notice resume
  | statusRunning taskId =>
    simp only [Call.advance]
    cases found : scheduler.runningTasks.lookup taskId with
    | none => exact .notRunning (Finmap.lookup_eq_none.mp found)
    | some running => exact .seenRunning found
  | statusCompleted taskId =>
    simp only [Call.advance]
    cases found : scheduler.completedTasks.lookup taskId with
    | none => exact .notCompleted (Finmap.lookup_eq_none.mp found)
    | some completed => exact .seenCompleted found
  | statusPending taskId => exact .lookedUp fits
  | done outcome => cases unfinished

/-- The calls as they begin, other than `submit_task`. -/
inductive Call.Opening : Call → Prop
  | scheduling (senders : Senders) : Opening (.scheduling senders schedulingOrder)
  | completing (taskId : TaskId) (nodeId : NodeId) (result : CommandResult) :
      Opening (.completing taskId nodeId result)
  | cancelling (taskId : TaskId) : Opening (.cancelling taskId)
  | checking : Opening .checking
  | statusRunning (taskId : TaskId) : Opening (.statusRunning taskId)

/-- A step draws an id, begins another call, or runs one section of a call. -/
theorem Step.cases {s' : State} (step : Step s label s') :
    (∃ submission now, label = .submit submission now ∧ s' = s.submit submission now) ∨
    (∃ call, call.Opening ∧ s' = s.begin call) ∨
    ∃ index call env scheduler call' events,
      label = .advance index env ∧ s.calls[index]? = some call ∧ env.Fits s.scheduler call ∧
        Section env s.scheduler call scheduler call' events ∧
        s' = ⟨scheduler, s.calls.set index call', s.log ++ events⟩ := by
  cases step with
  | submit submission now => exact .inl ⟨submission, now, rfl, rfl⟩
  | schedule senders => exact .inr (.inl ⟨_, .scheduling senders, rfl⟩)
  | complete taskId nodeId result => exact .inr (.inl ⟨_, .completing taskId nodeId result, rfl⟩)
  | cancel taskId => exact .inr (.inl ⟨_, .cancelling taskId, rfl⟩)
  | checkTimeouts => exact .inr (.inl ⟨_, .checking, rfl⟩)
  | getStatus taskId => exact .inr (.inl ⟨_, .statusRunning taskId, rfl⟩)
  | advance index call env here unfinished fits =>
    refine .inr (.inr ⟨index, call, env, _, _, _, rfl, here, fits, ?_, rfl⟩)
    exact advance_section unfinished fits

/-! ## Computed steps -/

/-- The environment of a section that iterates the maps in the order of `ids`. -/
def Env.listing (env : Env) (ids : List TaskId) (scheduler : TaskScheduler) : Call → Env
  | .checking => { env with runningOrder := scheduler.runningTasks.listing ids }
  | .storing completed _ _ =>
    let stored := scheduler.completedTasks.insert completed.taskId completed
    { env with completedOrder := HashMap.listing stored ids }
  | _ => env

/-- The orders of `Env.listing` are orders of the maps. -/
def Env.lists (env : Env) (ids : List TaskId) (scheduler : TaskScheduler) : Call → Bool
  | .cancelling _ | .statusPending _ => decide (env.queueOrder.Perm schedulingOrder)
  | .checking => decide (ids.Nodup ∧ ∀ t ∈ scheduler.runningTasks.keys, t ∈ ids)
  | .storing completed _ _ =>
    let stored := scheduler.completedTasks.insert completed.taskId completed
    decide (ids.Nodup ∧ ∀ t ∈ Finmap.keys stored, t ∈ ids)
  | _ => true

theorem Env.fits_listing (lists : env.lists ids scheduler call = true) :
    (env.listing ids scheduler call).Fits scheduler call := by
  cases call with
  | cancelling | statusPending =>
    exact of_decide_eq_true (p := env.queueOrder.Perm schedulingOrder) lists
  | checking | storing =>
    obtain ⟨distinct, covers⟩ := of_decide_eq_true lists
    exact HashMap.lists_listing distinct covers
  | _ => trivial

/-- The step with this label, with the maps iterated in the order of `ids`. -/
def State.move (ids : List TaskId) (s : State) : Label → Option (Label × State)
  | .advance index env => do
      let call ← s.calls[index]?
      let seen := env.listing ids s.scheduler call
      if !call.finished && env.lists ids s.scheduler call then
        some (.advance index seen, s.run index call seen)
      else none
  | .submit submission now => some (.submit submission now, s.submit submission now)
  | .schedule senders => some (.schedule senders, s.begin (.scheduling senders schedulingOrder))
  | .complete taskId nodeId result =>
    some (.complete taskId nodeId result, s.begin (.completing taskId nodeId result))
  | .cancel taskId => some (.cancel taskId, s.begin (.cancelling taskId))
  | .checkTimeouts => some (.checkTimeouts, s.begin .checking)
  | .getStatus taskId => some (.getStatus taskId, s.begin (.statusRunning taskId))

theorem State.move_advance {t : State} {index : Nat}
    (moved : s.move ids (.advance index env) = some (label, t)) :
    ∃ call, s.calls[index]? = some call ∧ call.finished = false ∧
      env.lists ids s.scheduler call = true ∧
      label = .advance index (env.listing ids s.scheduler call) ∧
      t = s.run index call (env.listing ids s.scheduler call) := by
  obtain ⟨call, here, ran⟩ := Option.bind_eq_some_iff.mp moved
  split at ran
  · next met =>
      obtain ⟨unfinished, lists⟩ := Bool.and_eq_true_iff.mp met
      cases ran
      exact ⟨call, here, (Bool.not_eq_true' _).mp unfinished, lists, rfl, rfl⟩
  · cases ran

theorem State.step_of_move {ids : List TaskId} {s t : State} {label taken : Label}
    (moved : s.move ids label = some (taken, t)) : Step s taken t := by
  cases label with
  | advance index env =>
    obtain ⟨call, here, unfinished, lists, rfl, rfl⟩ := State.move_advance moved
    exact .advance _ _ _ _ here unfinished (Env.fits_listing lists)
  | _ =>
    cases moved
    constructor

def player (maxRetries taskTimeoutSecs : Nat) (ids : List TaskId) :
    (system maxRetries taskTimeoutSecs).Player Label where
  move := State.move ids
  sound _ _ _ _ moved := State.step_of_move moved

end UHorse.Hub.Scheduler
