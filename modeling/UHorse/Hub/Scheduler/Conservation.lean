import UHorse.Lib.Occurrences
import UHorse.Hub.Scheduler.Interleaving

/-!
# Conservation of tasks

The places a task id can occur in are the queues, the hands of running calls,
`running_tasks` and the records ever stored; a stored record is in
`completed_tasks` or has been evicted. Each section moves an id from one place
to the next, so the number of occurrences of an id stays the number of times it
was drawn. As long as the 64-bit counter has not wrapped around, no id is drawn
twice, and every id occurs at one place only.
-/

namespace UHorse.Hub.Scheduler

open UHorse.Lib UHorse.Protocol TaskScheduler

/-! ## The places of a task id -/

/-- The occurrences of an id in the six queues. -/
def queued (scheduler : TaskScheduler) (t : TaskId) : Nat :=
  (schedulingOrder.flatMap fun priority =>
    (scheduler.pendingTasks priority).map QueuedTask.taskId).count t

def Event.drawnId : Event → Option TaskId
  | .drawn taskId => some taskId
  | _ => none

def Event.storedId : Event → Option TaskId
  | .stored completed => some completed.taskId
  | _ => none

def Event.evictedId : Event → Option TaskId
  | .evicted taskId => some taskId
  | _ => none

def Event.notifiedId : Event → Option TaskId
  | .notified notice _ => some notice.taskId
  | _ => none

/-- The task of a notification that is about to be sent. -/
def Call.noticeId : Call → Option TaskId
  | .notifying notice _ => some notice.taskId
  | _ => none

namespace State

def held (s : State) (t : TaskId) : Nat := (s.calls.filterMap Call.hand).count t

def drawn (s : State) (t : TaskId) : Nat := (s.log.filterMap Event.drawnId).count t

def stored (s : State) (t : TaskId) : Nat := (s.log.filterMap Event.storedId).count t

def evicted (s : State) (t : TaskId) : Nat := (s.log.filterMap Event.evictedId).count t

def notified (s : State) (t : TaskId) : Nat := (s.log.filterMap Event.notifiedId).count t

def noticing (s : State) (t : TaskId) : Nat := (s.calls.filterMap Call.noticeId).count t

/-- How often an id occurs among the queues, the hands of calls, the two maps
and the evicted records. -/
def occurrences (s : State) (t : TaskId) : Nat :=
  queued s.scheduler t + s.held t + s.scheduler.runningTasks.present t +
    s.scheduler.completedTasks.present t + s.evicted t

/-- `submit_task` has returned this id. -/
def Returned (s : State) (t : TaskId) : Prop := .done (.submitted t) ∈ s.calls

/-- How many ids have been drawn. -/
def draws (s : State) : Nat := (s.log.filterMap Event.drawnId).length

end State

/-! ## What a section moves -/

/-- Replacing one queue moves the count by what the queue gained or lost. -/
theorem queued_setQueue (scheduler : TaskScheduler) (priority : Priority)
    (queue : List QueuedTask) (t : TaskId) :
    queued (scheduler.setQueue priority queue) t +
        ((scheduler.pendingTasks priority).map QueuedTask.taskId).count t =
      queued scheduler t + (queue.map QueuedTask.taskId).count t := by
  cases priority <;>
    simp [queued, schedulingOrder, Function.update, List.count_append] <;> omega

theorem queued_runningTasks (scheduler : TaskScheduler) (running : HashMap TaskId RunningTask)
    (t : TaskId) : queued { scheduler with runningTasks := running } t = queued scheduler t := rfl

theorem queued_eq_zero {scheduler : TaskScheduler} {t : TaskId} :
    queued scheduler t = 0 ↔
      ∀ priority, ∀ task ∈ scheduler.pendingTasks priority, task.taskId ≠ t := by
  rw [queued, List.count_eq_zero]
  simp only [List.mem_flatMap, List.mem_map, not_exists, not_and]
  constructor
  · intro absent priority task member
    exact absent priority (mem_schedulingOrder priority) task member
  · intro absent priority _ task member
    exact absent priority task member

theorem bumpRetry_taskId (senders : Senders) (task : QueuedTask) :
    (bumpRetry senders task).taskId = task.taskId := by
  unfold bumpRetry
  split <;> rfl

theorem bumpRetry_priority (senders : Senders) (task : QueuedTask) :
    (bumpRetry senders task).priority = task.priority := by
  unfold bumpRetry
  split <;> rfl

/-- The calls that store a record: a processed result, a confirmed cancellation
and the loop over timeouts. -/
def Resume.Proper : Resume → Prop
  | .finish .processed => True
  | .finish (.cancelled _ (.ok _)) => True
  | .timeouts _ _ _ => True
  | _ => False

/-- What the local variables of a call promise: a task goes back to the queue
it came from, and a notice is about the record stored with it. -/
def Call.Coherent : Call → Prop
  | .selecting _ queue _ task => task.priority = queue
  | .placing _ queue _ task _ => task.priority = queue
  | .storing completed notice resume =>
    notice.taskId = completed.taskId ∧ resume.Proper
  | .notifying _ resume => resume.Proper
  | _ => True

/-- Each queue holds the tasks of its own priority. -/
def Sorted (scheduler : TaskScheduler) : Prop :=
  ∀ priority, ∀ task ∈ scheduler.pendingTasks priority, task.priority = priority

theorem Sorted.setQueue {scheduler : TaskScheduler} {priority : Priority}
    {queue : List QueuedTask} (sorted : Sorted scheduler)
    (inside : ∀ task ∈ queue, task.priority = priority) :
    Sorted (scheduler.setQueue priority queue) := by
  intro other task member
  rw [pendingTasks_setQueue] at member
  by_cases same : other = priority
  · subst same
    rw [Function.update_self] at member
    exact inside task member
  · rw [Function.update_of_ne same] at member
    exact sorted other task member

section Sections

variable {env : Env} {scheduler scheduler' : TaskScheduler} {call call' : Call}
  {events : List Event}

theorem queued_push (scheduler : TaskScheduler) (task : QueuedTask) (t : TaskId) :
    queued (scheduler.pushPending task) t = queued scheduler t + tick task.taskId t := by
  have moved := queued_setQueue scheduler task.priority
    (scheduler.pendingTasks task.priority ++ [task]) t
  rw [List.map_append, List.map_singleton, count_append_singleton] at moved
  unfold pushPending
  omega

theorem queued_pop {priority : Priority} {task : QueuedTask} {rest : List QueuedTask}
    (front : scheduler.pendingTasks priority = task :: rest) (t : TaskId) :
    queued (scheduler.setQueue priority rest) t + tick task.taskId t = queued scheduler t := by
  have moved := queued_setQueue scheduler priority rest t
  rw [front, List.map_cons, count_cons_tick] at moved
  omega

theorem queued_requeue (scheduler : TaskScheduler) (priority : Priority) (senders : Senders)
    (task : QueuedTask) (t : TaskId) :
    queued (scheduler.requeue priority (bumpRetry senders task)) t =
      queued scheduler t + tick task.taskId t := by
  have moved := queued_setQueue scheduler priority
    (bumpRetry senders task :: scheduler.pendingTasks priority) t
  rw [List.map_cons, count_cons_tick, bumpRetry_taskId] at moved
  unfold requeue
  omega

theorem queued_remove {priority : Priority} {task : QueuedTask} {before after : List QueuedTask}
    (contents : scheduler.pendingTasks priority = before ++ task :: after) (t : TaskId) :
    queued (scheduler.setQueue priority (before ++ after)) t + tick task.taskId t =
      queued scheduler t := by
  have moved := queued_setQueue scheduler priority (before ++ after) t
  rw [contents] at moved
  simp only [List.map_append, List.map_cons, List.count_append, count_cons_tick] at moved
  omega

theorem storeCompletedTask_queues (scheduler : TaskScheduler) (completed : CompletedTask)
    (order : List (TaskId × CompletedTask)) :
    (scheduler.storeCompletedTask completed order).1.pendingTasks = scheduler.pendingTasks ∧
      (scheduler.storeCompletedTask completed order).1.runningTasks = scheduler.runningTasks ∧
      (scheduler.storeCompletedTask completed order).1.taskCounter = scheduler.taskCounter := by
  unfold storeCompletedTask
  dsimp only
  split <;> exact ⟨rfl, rfl, rfl⟩

/-- Storing a new record adds it to the records that are kept or evicted. -/
theorem storeCompletedTask_present {completed : CompletedTask}
    {order : List (TaskId × CompletedTask)}
    (absent : completed.taskId ∉ scheduler.completedTasks)
    (listed : HashMap.Lists (scheduler.completedTasks.insert completed.taskId completed) order)
    (t : TaskId) :
    (scheduler.storeCompletedTask completed order).1.completedTasks.present t +
        (scheduler.storeCompletedTask completed order).2.count t =
      scheduler.completedTasks.present t + tick completed.taskId t := by
  have inserted := HashMap.present_insert absent completed t
  unfold storeCompletedTask
  dsimp only
  split
  · have sorted : (order.mergeSort fun a b => a.2.completedAt ≤ b.2.completedAt).Perm order :=
      List.mergeSort_perm _ _
    have prefixes := (List.take_sublist 250
      (order.mergeSort fun a b => a.2.completedAt ≤ b.2.completedAt)).map Prod.fst
    have keys := sorted.map Prod.fst
    have nodup := (keys.nodup_iff.mpr listed.1).sublist prefixes
    have members : ∀ k ∈ ((order.mergeSort fun a b =>
        a.2.completedAt ≤ b.2.completedAt).take 250).map Prod.fst,
        k ∈ scheduler.completedTasks.insert completed.taskId completed := by
      intro k member
      exact (listed.mem_keys k).mp (keys.subset (prefixes.subset member))
    rw [HashMap.present_eraseAll nodup members]
    exact inserted
  · simpa using inserted

/-- The occurrences of an id in the scheduler and in the hand of the call stay
the same, a stored record included. -/
theorem Section.balance (ran : Section env scheduler call scheduler' call' events)
    (fresh : ∀ t, call.hand = some t → t ∉ scheduler.runningTasks) (t : TaskId) :
    queued scheduler' t + tick? call'.hand t + scheduler'.runningTasks.present t +
        (events.filterMap Event.storedId).count t =
      queued scheduler t + tick? call.hand t + scheduler.runningTasks.present t := by
  -- A task that leaves the running ones is in the hand of the call that stores its record.
  have left {taskId : TaskId} {running : RunningTask}
      (lookup : scheduler.runningTasks.lookup taskId = some running) :
      queued scheduler t + tick taskId t + HashMap.present (scheduler.runningTasks.erase taskId) t +
        0 = queued scheduler t + 0 + scheduler.runningTasks.present t := by
    have moved := HashMap.present_erase (HashMap.mem_of_lookup lookup) t
    omega
  cases ran with
  | push task =>
    have moved := queued_push scheduler task t
    simp only [Call.hand, tick?_some, tick?_none, List.filterMap_nil, List.count_nil]
    simp only [pushPending, runningTasks_setQueue] at moved ⊢
    omega
  | exhausted => rfl
  | skip => rfl
  | pop front =>
    have moved := queued_pop front t
    simp only [Call.hand, tick?_some, tick?_none, List.filterMap_nil, List.count_nil,
      runningTasks_setQueue]
    omega
  | select => rfl
  | giveUp senders queue queues task =>
    have moved := queued_requeue scheduler queue senders task t
    simp only [Call.hand, tick?_some, tick?_none, List.filterMap_nil, List.count_nil]
    simp only [requeue, runningTasks_setQueue] at moved ⊢
    omega
  | refused => rfl
  | send => rfl
  | register task nodeId =>
    have absent := fresh task.taskId rfl
    have moved := HashMap.present_insert absent
      (⟨task.taskId, task.command, task.context, task.priority, nodeId, env.now,
        scheduler.deadlineAt env.later, task.retryCount⟩ : RunningTask) t
    simp only [Call.hand, tick?_some, tick?_none, List.filterMap_nil, List.count_nil,
      insertRunning, queued_runningTasks]
    omega
  | result nodeId result lookup => exact left lookup
  | late => rfl
  | ignore => rfl
  | cancelQueued here contents =>
    have moved := queued_remove contents t
    simp only [Call.hand, tick?_some, tick?_none, finishQueued, Event.storedId,
      List.filterMap_cons, List.filterMap_nil, List.count_nil, runningTasks_setQueue]
    omega
  | notQueued => rfl
  | cancelRunning lookup => exact left lookup
  | notFound => rfl
  | firstTimeout lookup => exact left lookup
  | nextTimeout lookup => exact left lookup
  | noTimeout => rfl
  | lastTimeout => rfl
  | store completed notice resume =>
    obtain ⟨queues, running, -⟩ :=
      storeCompletedTask_queues scheduler completed env.completedOrder
    have none_stored : ∀ ids : List TaskId,
        (ids.map Event.evicted).filterMap Event.storedId = [] := by
      intro ids
      simp [List.filterMap_eq_nil_iff, Event.storedId]
    rw [count_filterMap_cons, none_stored]
    simp only [queued, queues, running, Call.hand, Event.storedId, tick?_some, tick?_none,
      List.count_nil]
    omega
  | notify notice resume => cases resume <;> rfl
  | seenRunning => rfl
  | notRunning => rfl
  | seenCompleted => rfl
  | notCompleted => rfl
  | lookedUp => rfl

theorem Section.records (ran : Section env scheduler call scheduler' call' events)
    (fits : env.Fits scheduler call)
    (fresh : ∀ t, call.hand = some t → t ∉ scheduler.completedTasks) (t : TaskId) :
    scheduler'.completedTasks.present t + (events.filterMap Event.evictedId).count t =
      scheduler.completedTasks.present t + (events.filterMap Event.storedId).count t := by
  cases ran with
  | store completed notice resume =>
    have kept := storeCompletedTask_present (fresh completed.taskId rfl) fits t
    have evictedIds : ∀ ids : List TaskId,
        (ids.map Event.evicted).filterMap Event.evictedId = ids := by
      intro ids
      simp [List.filterMap_map, Function.comp_def, Event.evictedId]
    have storedIds : ∀ ids : List TaskId,
        (ids.map Event.evicted).filterMap Event.storedId = [] := by
      intro ids
      simp [List.filterMap_eq_nil_iff, Event.storedId]
    rw [count_filterMap_cons, count_filterMap_cons, evictedIds, storedIds]
    simp only [Event.evictedId, Event.storedId, tick?_some, tick?_none, List.count_nil]
    omega
  | _ => rfl

theorem Section.notices (ran : Section env scheduler call scheduler' call' events)
    (coherent : call.Coherent) (t : TaskId) :
    tick? call'.noticeId t + (events.filterMap Event.notifiedId).count t =
      tick? call.noticeId t + (events.filterMap Event.storedId).count t := by
  cases ran with
  | store completed notice resume =>
    have silent : ∀ ids : List TaskId,
        (ids.map Event.evicted).filterMap Event.notifiedId = [] ∧
          (ids.map Event.evicted).filterMap Event.storedId = [] := by
      intro ids
      simp [List.filterMap_eq_nil_iff, Event.storedId, Event.notifiedId]
    have about : notice.taskId = completed.taskId := coherent.1
    rw [count_filterMap_cons, count_filterMap_cons, (silent _).1, (silent _).2]
    simp [Call.noticeId, Event.storedId, Event.notifiedId, about]
  | notify notice resume =>
    rw [count_filterMap_cons, count_filterMap_cons]
    cases resume <;> simp [Call.noticeId, Call.ofResume, Event.storedId, Event.notifiedId]
  | _ => rfl

theorem Section.coherent (ran : Section env scheduler call scheduler' call' events)
    (coherent : call.Coherent) (sorted : Sorted scheduler) : call'.Coherent := by
  cases ran with
  | pop front => exact sorted _ _ (by simp [front])
  | select => exact coherent
  | refused => exact coherent
  | result => exact ⟨rfl, trivial⟩
  | cancelQueued here => exact ⟨here.symm, trivial⟩
  | cancelRunning => exact ⟨rfl, trivial⟩
  | firstTimeout => exact ⟨rfl, trivial⟩
  | nextTimeout => exact ⟨rfl, trivial⟩
  | store => exact coherent.2
  | notify notice resume => cases resume <;> trivial
  | _ => trivial

theorem Section.sorted (ran : Section env scheduler call scheduler' call' events)
    (coherent : call.Coherent) (sorted : Sorted scheduler) : Sorted scheduler' := by
  cases ran with
  | push task =>
    apply sorted.setQueue
    intro other member
    obtain earlier | last := List.mem_append.mp member
    · exact sorted _ _ earlier
    · rw [List.mem_singleton.mp last]
  | pop front =>
    apply sorted.setQueue
    intro other member
    exact sorted _ _ (by simp [front, member])
  | giveUp senders queue queues task =>
    apply sorted.setQueue
    intro other member
    obtain rfl | later := List.mem_cons.mp member
    · rw [bumpRetry_priority]
      exact coherent
    · exact sorted _ _ later
  | cancelQueued here contents =>
    apply sorted.setQueue
    intro other member
    have inQueue := List.mem_append.mp member
    exact sorted _ _ (by rw [contents]; simp only [List.mem_append, List.mem_cons]; tauto)
  | store completed notice resume =>
    obtain ⟨queues, -, -⟩ :=
      storeCompletedTask_queues scheduler completed env.completedOrder
    intro priority task member
    exact sorted priority task (queues ▸ member)
  | _ => exact sorted

theorem Section.counter (ran : Section env scheduler call scheduler' call' events) :
    scheduler'.taskCounter = scheduler.taskCounter := by
  cases ran with
  | store completed notice resume => exact (storeCompletedTask_queues _ completed _).2.2
  | _ => rfl

theorem Section.drawnIds (ran : Section env scheduler call scheduler' call' events) :
    events.filterMap Event.drawnId = [] := by
  cases ran with
  | store =>
    rw [List.filterMap_cons]
    simp [List.filterMap_eq_nil_iff, Event.drawnId]
  | _ => rfl

/-- Only a submission that was in hand returns its id. -/
theorem Section.submitted {t : TaskId}
    (ran : Section env scheduler call scheduler' (.done (.submitted t)) events)
    (coherent : call.Coherent) : call.hand = some t := by
  generalize returned : Call.done (.submitted t) = result at ran
  cases ran with
  | push task =>
    cases returned
    rfl
  | notify notice resume =>
    cases resume with
    | finish outcome =>
      cases returned
      exact coherent.elim
    | timeouts => cases returned
  | _ => cases returned

end Sections
/-! ## The invariant of all interleavings -/

theorem taskIdOf_injective : Function.Injective taskIdOf := by
  intro m n same
  have texts : "task-" ++ Nat.repr m = "task-" ++ Nat.repr n := congrArg TaskId.value same
  have lists := congrArg String.toList texts
  simp only [String.toList_append, List.append_cancel_left_eq, Nat.toList_repr] at lists
  have numbers := congrArg (fun digits => Nat.ofDigitChars 10 digits 0) lists
  simpa using numbers

/-- What holds between the steps of every interleaving. -/
structure Conserved (s : State) : Prop where
  counter : s.scheduler.taskCounter = s.draws % 2 ^ 64
  drawnIds : s.log.filterMap Event.drawnId = (List.range s.draws).map taskIdOf
  bounded : s.draws ≤ 2 ^ 64
  balance : ∀ t, queued s.scheduler t + s.held t + s.scheduler.runningTasks.present t +
    s.stored t = s.drawn t
  records : ∀ t, s.scheduler.completedTasks.present t + s.evicted t = s.stored t
  notices : ∀ t, s.noticing t + s.notified t = s.stored t
  sorted : Sorted s.scheduler
  coherent : ∀ call ∈ s.calls, call.Coherent
  returned : ∀ t, s.Returned t → 0 < s.drawn t

/-- Submissions stop before the counter has wrapped around. -/
def CounterUnwrapped (s : State) : Label → Prop
  | .submit _ _ => s.draws < 2 ^ 64
  | _ => True

namespace Conserved

variable {s s' : State} {label : Label}

theorem initial (maxRetries taskTimeoutSecs : Nat) :
    Conserved (.initial maxRetries taskTimeoutSecs) where
  counter := rfl
  drawnIds := rfl
  bounded := Nat.zero_le _
  balance _ := rfl
  records _ := rfl
  notices _ := rfl
  sorted := by
    intro priority task member
    cases member
  coherent := by
    intro call member
    cases member
  returned := by
    intro t member
    cases member

/-- No id is drawn twice. -/
theorem drawn_le_one (conserved : Conserved s) (t : TaskId) : s.drawn t ≤ 1 := by
  have nodup : (s.log.filterMap Event.drawnId).Nodup := by
    rw [conserved.drawnIds]
    exact List.nodup_range.map taskIdOf_injective
  exact List.nodup_iff_count_le_one.mp nodup t

/-- A task in the hand of a call is in neither map. -/
theorem hand_fresh (conserved : Conserved s) {call : Call} (member : call ∈ s.calls) {t : TaskId}
    (inHand : call.hand = some t) :
    t ∉ s.scheduler.runningTasks ∧ t ∉ s.scheduler.completedTasks := by
  have held : 1 ≤ s.held t := one_le_count Call.hand member inHand
  have balance := conserved.balance t
  have records := conserved.records t
  have once := conserved.drawn_le_one t
  constructor
  · apply HashMap.present_eq_zero.mp
    omega
  · apply HashMap.present_eq_zero.mp
    omega

theorem submit (conserved : Conserved s) (submission : Submission) (now : DateTime)
    (room : s.draws < 2 ^ 64) : Conserved (s.submit submission now) := by
  have drawnIds : (s.submit submission now).log.filterMap Event.drawnId =
      s.log.filterMap Event.drawnId ++ [taskIdOf s.scheduler.taskCounter] := by
    simp [State.submit, generateTaskId, Event.drawnId]
  have draws : (s.submit submission now).draws = s.draws + 1 := by
    unfold State.draws
    rw [drawnIds]
    simp
  have number : s.scheduler.taskCounter = s.draws := by
    rw [conserved.counter, Nat.mod_eq_of_lt room]
  have unlogged : ∀ f : Event → Option TaskId, (∀ id, f (.drawn id) = none) →
      (s.submit submission now).log.filterMap f = s.log.filterMap f := by
    intro f ignores
    simp [State.submit, ignores]
  have held : ∀ t, (s.submit submission now).held t =
      s.held t + tick (taskIdOf s.scheduler.taskCounter) t := by
    intro t
    exact count_filterMap_concat Call.hand s.calls _ t
  have drawn : ∀ t, (s.submit submission now).drawn t =
      s.drawn t + tick (taskIdOf s.scheduler.taskCounter) t := by
    intro t
    unfold State.drawn
    rw [drawnIds, count_append_singleton]
  have stored : ∀ t, (s.submit submission now).stored t = s.stored t := by
    intro t
    unfold State.stored
    rw [unlogged _ (fun _ => rfl)]
  constructor
  · rw [draws]
    simp only [State.submit, generateTaskId, number]
  · rw [draws, drawnIds, conserved.drawnIds, List.range_succ, List.map_append, number]
    rfl
  · omega
  · intro t
    have before := conserved.balance t
    rw [held, drawn, stored]
    change queued s.scheduler t + _ + s.scheduler.runningTasks.present t + _ = _
    omega
  · intro t
    have before := conserved.records t
    rw [stored]
    unfold State.evicted
    rw [unlogged _ (fun _ => rfl)]
    exact before
  · intro t
    have before := conserved.notices t
    have noticing : (s.submit submission now).noticing t = s.noticing t :=
      count_filterMap_concat Call.noticeId s.calls _ t
    rw [stored, noticing]
    unfold State.notified
    rw [unlogged _ (fun _ => rfl)]
    exact before
  · exact conserved.sorted
  · intro call member
    obtain earlier | last := List.mem_append.mp member
    · exact conserved.coherent call earlier
    · rw [List.mem_singleton.mp last]
      trivial
  · intro t member
    obtain earlier | last := List.mem_append.mp member
    · have before := conserved.returned t earlier
      rw [drawn]
      omega
    · cases List.mem_singleton.mp last

theorem begin (conserved : Conserved s) {call : Call} (opening : call.Opening) :
    Conserved (s.begin call) := by
  have noHand : call.hand = none := by cases opening <;> rfl
  have noNotice : call.noticeId = none := by cases opening <;> rfl
  have held : ∀ t, (s.begin call).held t = s.held t := by
    intro t
    have added := count_filterMap_concat Call.hand s.calls call t
    rwa [noHand, tick?_none, Nat.add_zero] at added
  have noticing : ∀ t, (s.begin call).noticing t = s.noticing t := by
    intro t
    have added := count_filterMap_concat Call.noticeId s.calls call t
    rwa [noNotice, tick?_none, Nat.add_zero] at added
  refine ⟨conserved.counter, conserved.drawnIds, conserved.bounded, ?_, conserved.records, ?_,
    conserved.sorted, ?_, ?_⟩
  · intro t
    rw [held]
    exact conserved.balance t
  · intro t
    rw [noticing]
    exact conserved.notices t
  · intro other member
    obtain earlier | last := List.mem_append.mp member
    · exact conserved.coherent other earlier
    · rw [List.mem_singleton.mp last]
      cases opening <;> trivial
  · intro t member
    obtain earlier | last := List.mem_append.mp member
    · exact conserved.returned t earlier
    · rw [← List.mem_singleton.mp last] at opening
      cases opening

theorem advance (conserved : Conserved s) {index : Nat} {call call' : Call} {env : Env}
    {scheduler : TaskScheduler} {events : List Event} (here : s.calls[index]? = some call)
    (fits : env.Fits s.scheduler call)
    (ran : Section env s.scheduler call scheduler call' events) :
    Conserved ⟨scheduler, s.calls.set index call', s.log ++ events⟩ := by
  have member : call ∈ s.calls := List.mem_of_getElem? here
  have coherent := conserved.coherent call member
  have logged : ∀ f : Event → Option TaskId, ∀ t,
      ((s.log ++ events).filterMap f).count t =
        (s.log.filterMap f).count t + (events.filterMap f).count t := by
    intro f t
    rw [List.filterMap_append, List.count_append]
  have drawnIds : (s.log ++ events).filterMap Event.drawnId = s.log.filterMap Event.drawnId := by
    rw [List.filterMap_append, ran.drawnIds, List.append_nil]
  constructor
  · simp only [State.draws, drawnIds, ran.counter]
    exact conserved.counter
  · simp only [State.draws, drawnIds]
    exact conserved.drawnIds
  · simp only [State.draws, drawnIds]
    exact conserved.bounded
  · intro t
    have moved := ran.balance (fun _ inHand => (conserved.hand_fresh member inHand).1) t
    have replaced := count_filterMap_set Call.hand here call' t
    have before := conserved.balance t
    simp only [State.held, State.stored, State.drawn, drawnIds, logged] at before ⊢
    omega
  · intro t
    have moved := ran.records fits (fun _ inHand => (conserved.hand_fresh member inHand).2) t
    have before := conserved.records t
    simp only [State.evicted, State.stored, logged] at before ⊢
    omega
  · intro t
    have moved := ran.notices coherent t
    have replaced := count_filterMap_set Call.noticeId here call' t
    have before := conserved.notices t
    simp only [State.noticing, State.notified, State.stored, logged] at before ⊢
    omega
  · exact ran.sorted coherent conserved.sorted
  · intro other otherMember
    obtain earlier | rfl := List.mem_or_eq_of_mem_set otherMember
    · exact conserved.coherent other earlier
    · exact ran.coherent coherent conserved.sorted
  · intro t returned
    simp only [State.drawn, drawnIds]
    obtain earlier | now := List.mem_or_eq_of_mem_set returned
    · exact conserved.returned t earlier
    · subst now
      have counted := one_le_count Call.hand member (ran.submitted coherent)
      have before := conserved.balance t
      simp only [State.held, State.drawn] at before
      omega

theorem step (conserved : Conserved s) (allowed : CounterUnwrapped s label)
    (taken : Step s label s') : Conserved s' := by
  obtain ⟨submission, now, rfl, rfl⟩ | ⟨call, opening, rfl⟩ |
    ⟨index, call, env, scheduler, call', events, rfl, here, fits, ran, rfl⟩ := taken.cases
  · exact conserved.submit submission now allowed
  · exact conserved.begin opening
  · exact conserved.advance here fits ran

theorem of_reachable {maxRetries taskTimeoutSecs : Nat}
    (reached : ((system maxRetries taskTimeoutSecs).restrict CounterUnwrapped).Reachable s) :
    Conserved s := by
  refine reached.invariant ?_ ?_
  · rintro start rfl
    exact initial maxRetries taskTimeoutSecs
  · intro before label after conserved taken
    exact conserved.step taken.1 taken.2

end Conserved

/-- Every id a submission has returned occurs at exactly one place, every queue
holds the tasks of its own priority, and at most one notification is sent for a
task, in every interleaving that draws at most `2 ^ 64` ids. -/
theorem returned_task_occurs_once {maxRetries taskTimeoutSecs : Nat} {s : State}
    (reached : ((system maxRetries taskTimeoutSecs).restrict CounterUnwrapped).Reachable s) :
    (∀ t, s.Returned t → s.occurrences t = 1) ∧ Sorted s.scheduler ∧ ∀ t, s.notified t ≤ 1 := by
  have conserved := Conserved.of_reachable reached
  refine ⟨?_, conserved.sorted, ?_⟩
  · intro t returned
    have balance := conserved.balance t
    have records := conserved.records t
    have once := conserved.drawn_le_one t
    have drawn := conserved.returned t returned
    unfold State.occurrences
    omega
  · intro t
    have balance := conserved.balance t
    have notices := conserved.notices t
    have once := conserved.drawn_le_one t
    omega

/-! ## A run that wraps the counter around -/

def sampleSubmission : Submission where
  command := .file (.exists "README.md")
  context := .new ⟨"user-1"⟩ ⟨"session-1"⟩ "dingtalk" 0
  priority := .normal
  requiredCapabilities := none
  requiredTags := []
  workspaceHint := none

def sampleFileSystem : Unix.FileSystem where
  tree := .dir []
  cwd := []
  maxLinks := 40
  cwd_solid := .nil

/-- An environment for a scheduler without running tasks. -/
def quietEnv (completedOrder : List (TaskId × CompletedTask)) : Env where
  now := 0
  later := 0
  messageId := ⟨"message"⟩
  nodes := []
  fs := sampleFileSystem
  scoreLe := fun _ _ => true
  delivered := true
  queueOrder := schedulingOrder
  runningOrder := []
  completedOrder := completedOrder

/-- The task of `sampleSubmission` with the id of a counter value. -/
def sampleTask (counter : Nat) : QueuedTask := sampleSubmission.queued (taskIdOf counter) 3 0

/-- One task was submitted and waits in its queue. -/
def oneWaiting : State :=
  ((State.initial 3 300).submit sampleSubmission 0).run 0 (.pushing (sampleTask 0)) (quietEnv [])

theorem oneWaiting_reachable :
    ((system 3 300).restrict CounterUnwrapped).Reachable oneWaiting := by
  have drawn : ((system 3 300).restrict CounterUnwrapped).Step (.initial 3 300)
      (.submit sampleSubmission 0) ((State.initial 3 300).submit sampleSubmission 0) :=
    ⟨by simp [CounterUnwrapped, State.draws, State.initial], .submit _ _ _⟩
  have pushed : ((system 3 300).restrict CounterUnwrapped).Step
      ((State.initial 3 300).submit sampleSubmission 0) (.advance 0 (quietEnv [])) oneWaiting :=
    ⟨trivial, .advance _ _ _ _ rfl rfl trivial⟩
  exact ((System.Reachable.init rfl).step drawn).step pushed

theorem returned_task_occurs_once_oneWaiting :
    oneWaiting.Returned (taskIdOf 0) ∧ oneWaiting.occurrences (taskIdOf 0) = 1 := by
  have returned : oneWaiting.Returned (taskIdOf 0) := List.mem_singleton.mpr rfl
  exact ⟨returned, (returned_task_occurs_once oneWaiting_reachable).1 _ returned⟩

/-- The queues hold the first task and, in front of nothing else, `more`. -/
def firstAnd (more : List QueuedTask) (priority : Priority) : List QueuedTask :=
  if priority = .normal then sampleTask 0 :: more else []

/-- A state in which the first task still waits after `n` draws. -/
structure FirstWaits (n : Nat) (s : State) : Prop where
  reached : (system 3 300).Reachable s
  counter : s.scheduler.taskCounter = n % 2 ^ 64
  retries : s.scheduler.maxRetries = 3
  queues : s.scheduler.pendingTasks = firstAnd []
  running : s.scheduler.runningTasks = ∅
  returned : s.Returned (taskIdOf 0)

theorem firstWaits_one : FirstWaits 1 oneWaiting where
  reached := oneWaiting_reachable.of_restrict
  counter := rfl
  retries := rfl
  queues := by
    funext priority
    cases priority <;> rfl
  running := rfl
  returned := List.mem_singleton.mpr rfl

/-- Submit the sample and push it behind the waiting task. -/
theorem FirstWaits.submit {n : Nat} {s : State} (waits : FirstWaits n s) :
    ∃ s', (system 3 300).Reachable s' ∧
      s'.scheduler.pendingTasks = firstAnd [sampleTask (n % 2 ^ 64)] ∧
      s'.Returned (taskIdOf 0) := by
  let task := sampleSubmission.queued (taskIdOf s.scheduler.taskCounter) s.scheduler.maxRetries 0
  have drawn := waits.reached.step (Step.submit s sampleSubmission 0)
  have last : (s.submit sampleSubmission 0).calls[s.calls.length]? = some (.pushing task) := by
    simp [State.submit, task, generateTaskId]
  refine ⟨_, drawn.step (Step.advance _ _ _ (quietEnv []) last rfl trivial), ?_, ?_⟩
  · have same : task = sampleTask (n % 2 ^ 64) := by
      simp only [task, sampleTask, waits.counter, waits.retries]
    change Function.update s.scheduler.pendingTasks .normal
      (s.scheduler.pendingTasks .normal ++ [task]) = _
    rw [waits.queues, same]
    funext priority
    cases priority <;> rfl
  · change _ ∈ (s.calls ++ [_]).set s.calls.length _
    rw [List.set_append_right _ _ (Nat.le_refl _)]
    exact List.mem_append_left _ waits.returned

/-- An id is drawn for the sample, and the call goes no further. -/
theorem FirstWaits.draw {n : Nat} {s : State} (waits : FirstWaits n s) :
    FirstWaits (n + 1) (s.submit sampleSubmission 0) where
  reached := waits.reached.step (.submit s sampleSubmission 0)
  counter := by
    change (s.scheduler.taskCounter + 1) % 2 ^ 64 = (n + 1) % 2 ^ 64
    rw [waits.counter]
    omega
  retries := waits.retries
  queues := waits.queues
  running := waits.running
  returned := List.mem_append_left _ waits.returned

theorem exists_firstWaits (n : Nat) :
    ∃ s, FirstWaits (n + 1) s ∧ s.scheduler.completedTasks = ∅ := by
  induction n with
  | zero => exact ⟨oneWaiting, firstWaits_one, rfl⟩
  | succ n ih =>
    obtain ⟨s, waits, completed⟩ := ih
    exact ⟨_, waits.draw, completed⟩

/-- The `2 ^ 64 + 1`-th submission draws the first id again. While the first
task waits in its queue, the second one with its id joins it there. -/
theorem returned_task_occurs_twice :
    ∃ s, (system 3 300).Reachable s ∧ s.Returned (taskIdOf 0) ∧
      ¬ s.occurrences (taskIdOf 0) = 1 := by
  obtain ⟨s, waits, -⟩ := exists_firstWaits (2 ^ 64 - 1)
  obtain ⟨s', reached, queues, returned⟩ := waits.submit
  refine ⟨s', reached, returned, ?_⟩
  have wrapped : (2 ^ 64 - 1 + 1) % 2 ^ 64 = 0 := by omega
  rw [wrapped] at queues
  have twice : queued s'.scheduler (taskIdOf 0) = 2 := by
    simp [queued, schedulingOrder, queues, firstAnd, sampleTask, Submission.queued]
  unfold State.occurrences
  omega

end UHorse.Hub.Scheduler
