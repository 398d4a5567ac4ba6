import Mathlib.Algebra.Order.BigOperators.Group.List
import Mathlib.Algebra.Order.Group.Nat
import UHorse.Hub.Scheduler.Drain

/-!
# Placing one task when sends may fail

`schedule_next` takes the front of each queue in turn and tries to send it to its
candidates, best first. The first send that succeeds ends the call; a front that could be
sent to no candidate goes back to its queue with its retry counter raised.

A call that places a task leaves one task fewer in the queues, which bounds the rounds of
`dispatch_pending_tasks`, whatever the registry, the senders and the sends are in each.
-/

namespace UHorse.Hub.Scheduler

open UHorse.Lib UHorse.Protocol TaskScheduler

/-- What one call of `schedule_next` meets: what the choice of nodes reads, which sends of
the front of a queue succeed, and two readings of the clock. -/
structure Round where
  view : View
  delivers : Priority → NodeInfo → Bool
  now : DateTime
  later : DateTime

namespace Round

/-- The node that a task from a queue can be sent to first. -/
def target (round : Round) (queue : Priority) (task : QueuedTask) : Option NodeInfo :=
  (round.view.nodesFor task).find? (round.delivers queue)

def scheduleFrom (round : Round) :
    List Priority → TaskScheduler → TaskScheduler × Option ScheduledTask
  | [], scheduler => (scheduler, none)
  | queue :: queues, scheduler =>
    match scheduler.popPending queue with
    | none => scheduleFrom round queues scheduler
    | some (task, popped) =>
      match round.target queue task with
      | some node =>
        (popped.insertRunning task node.nodeId round.now (popped.deadlineAt round.later),
          some ⟨task.taskId, node.nodeId, round.later⟩)
      | none =>
        scheduleFrom round queues
          (popped.requeue queue (bumpRetry round.view.senders task))

def scheduleNext (round : Round) (scheduler : TaskScheduler) :
    TaskScheduler × Option ScheduledTask :=
  round.scheduleFrom schedulingOrder scheduler

end Round

/-- The loop of `dispatch_pending_tasks`, for at most `fuel` rounds. -/
def dispatchWithin (rounds : Nat → Round) : Nat → Nat → TaskScheduler → Option TaskScheduler
  | 0, _, _ => none
  | fuel + 1, round, scheduler =>
    if (rounds round).view.senders.keys = ∅ then some scheduler
    else
      match (rounds round).scheduleNext scheduler with
      | (scheduler', some _) => dispatchWithin rounds fuel (round + 1) scheduler'
      | (scheduler', none) => some scheduler'

/-! ## What a placement means -/

/-- The node fits the task and can be reached. -/
structure Eligible (view : View) (task : QueuedTask) (node : NodeInfo) : Prop where
  online : node.state = .online
  connected : node.nodeId ∈ view.senders
  capable : ∀ required, task.requiredCapabilities = some required →
    node.capabilities.meets required = true
  tagged : task.requiredTags ≠ [] → ∃ tag ∈ task.requiredTags, tag ∈ node.tags
  workspace : ∀ workspaceId, task.context.executionWorkspaceId = some workspaceId →
    node.workspace.workspaceId = some workspaceId
  hinted : task.context.executionWorkspaceId = none → ∀ hint, task.workspaceHint = some hint →
    workspaceMatchesHint view.fs node.workspace.path hint = true

/-- The task as before, or tried once more within its limit. -/
structure Retried (task left : QueuedTask) : Prop where
  same : left = { task with retryCount := left.retryCount }
  counted : left.retryCount = task.retryCount ∨
    left.retryCount = task.retryCount + 1 ∧ left.retryCount ≤ task.maxRetries

/-- The front of the queue could be sent to none of its candidates. -/
def Refuses (round : Round) (scheduler : TaskScheduler) (queue : Priority) : Prop :=
  ∀ first ∈ (scheduler.pendingTasks queue).head?, ∀ node ∈ round.view.nodesFor first,
    round.delivers queue node = false

/-- The front of `queue` was sent to `node`, and no front of a queue before could be sent. -/
structure Places (round : Round) (queues : List Priority) (scheduler after : TaskScheduler)
    (placed : ScheduledTask) (queue : Priority) (task : QueuedTask) (rest : List QueuedTask)
    (node : NodeInfo) : Prop where
  front : scheduler.pendingTasks queue = task :: rest
  higher : ∃ higher lower, queues = higher ++ queue :: lower ∧
    ∀ other ∈ higher, Refuses round scheduler other
  candidate : node ∈ round.view.nodesFor task
  delivered : round.delivers queue node = true
  reported : placed = ⟨task.taskId, node.nodeId, round.later⟩
  left : ∀ other, List.Forall₂ Retried
    (if other = queue then rest else scheduler.pendingTasks other) (after.pendingTasks other)

/-- Nothing was sent. -/
structure Stays (round : Round) (queues : List Priority) (scheduler after : TaskScheduler) :
    Prop where
  refused : ∀ queue ∈ queues, Refuses round scheduler queue
  left : ∀ queue, List.Forall₂ Retried (scheduler.pendingTasks queue) (after.pendingTasks queue)

section ScheduleNext

variable {round : Round} {scheduler : TaskScheduler} {task : QueuedTask} {node : NodeInfo}

theorem Retried.refl (task : QueuedTask) : Retried task task := ⟨rfl, .inl rfl⟩

theorem retried_bumpRetry (senders : Senders) (task : QueuedTask) :
    Retried task (bumpRetry senders task) := by
  rw [bumpRetry]
  split
  · next fewer => exact ⟨rfl, .inr ⟨rfl, fewer.1⟩⟩
  · exact .refl task

theorem forall₂_retried (tasks : List QueuedTask) : List.Forall₂ Retried tasks tasks :=
  List.forall₂_same.mpr fun task _ => .refl task

theorem eligible_of_suits {view : View} (suited : suits view.fs view.senders task node = true) :
    Eligible view task node := by
  rw [suits] at suited
  simp only [Bool.if_false_left, Bool.and_eq_true, Bool.not_eq_true', decide_eq_false_iff_not,
    not_not] at suited
  obtain ⟨connected, online, capable, tagged, suited⟩ := suited
  refine ⟨online, connected, ?_, ?_, ?_, ?_⟩
  · intro required asked
    simpa [asked] using capable
  · intro asked
    have shared : task.requiredTags.any node.tags.contains = true := by
      by_contra none
      exact tagged ⟨by simpa using asked, by simpa using none⟩
    obtain ⟨tag, member, has⟩ := List.any_eq_true.mp shared
    exact ⟨tag, member, by simpa using has⟩
  · intro workspaceId bound
    simpa [bound] using suited
  · intro unbound hint given
    simpa [unbound, given] using suited

/-- The front of the queue is put back to it, once more tried. -/
def putBack (round : Round) (scheduler : TaskScheduler) (queue : Priority) (task : QueuedTask)
    (rest : List QueuedTask) : TaskScheduler :=
  (scheduler.setQueue queue rest).requeue queue (bumpRetry round.view.senders task)

theorem pendingTasks_putBack (queue other : Priority) (rest : List QueuedTask) :
    (putBack round scheduler queue task rest).pendingTasks other =
      if other = queue then bumpRetry round.view.senders task :: rest
      else scheduler.pendingTasks other := by
  simp only [putBack, requeue, pendingTasks_setQueue, Function.update_self, Function.update_apply]
  split <;> rfl

variable {queue other : Priority} {queues : List Priority} {rest : List QueuedTask}

theorem scheduleFrom_empty (front : scheduler.pendingTasks queue = []) :
    round.scheduleFrom (queue :: queues) scheduler = round.scheduleFrom queues scheduler := by
  rw [Round.scheduleFrom, popPending, front]

theorem scheduleFrom_refused (front : scheduler.pendingTasks queue = task :: rest)
    (refused : round.target queue task = none) :
    round.scheduleFrom (queue :: queues) scheduler =
      round.scheduleFrom queues (putBack round scheduler queue task rest) := by
  rw [Round.scheduleFrom, popPending, front]
  dsimp only
  rw [refused]
  rfl

theorem scheduleFrom_placed (front : scheduler.pendingTasks queue = task :: rest)
    (chosen : round.target queue task = some node) :
    round.scheduleFrom (queue :: queues) scheduler =
      ((scheduler.setQueue queue rest).insertRunning task node.nodeId round.now
          ((scheduler.setQueue queue rest).deadlineAt round.later),
        some ⟨task.taskId, node.nodeId, round.later⟩) := by
  rw [Round.scheduleFrom, popPending, front]
  dsimp only
  rw [chosen]

/-- Queues that are not looked at stay as they are. -/
theorem pendingTasks_scheduleFrom (outside : other ∉ queues) :
    (round.scheduleFrom queues scheduler).1.pendingTasks other = scheduler.pendingTasks other := by
  induction queues generalizing scheduler with
  | nil => rfl
  | cons queue queues ih =>
    obtain ⟨distinct, outside⟩ := not_or.mp (List.mem_cons.not.mp outside)
    cases front : scheduler.pendingTasks queue with
    | nil =>
      rw [scheduleFrom_empty front]
      exact ih outside
    | cons task rest =>
      cases chosen : round.target queue task with
      | none =>
        rw [scheduleFrom_refused front chosen, ih outside, pendingTasks_putBack,
          if_neg distinct]
      | some node =>
        rw [scheduleFrom_placed front chosen]
        exact Function.update_of_ne distinct _ _

theorem refuses_putBack_iff (distinct : other ≠ queue) :
    Refuses round (putBack round scheduler queue task rest) other ↔
      Refuses round scheduler other := by
  rw [Refuses, Refuses, pendingTasks_putBack, if_neg distinct]

theorem refuses_of_target (front : scheduler.pendingTasks queue = task :: rest)
    (refused : round.target queue task = none) : Refuses round scheduler queue := by
  intro first here node candidate
  rw [front] at here
  cases here
  simpa using List.find?_eq_none.mp refused node candidate

/-- What is left of the queues when the call went on after a queue it put back. -/
theorem left_putBack (outside : queue ∉ queues)
    (front : scheduler.pendingTasks queue = task :: rest) {before : List QueuedTask}
    (unchanged : other ≠ queue → List.Forall₂ Retried before
      ((round.scheduleFrom queues (putBack round scheduler queue task rest)).1.pendingTasks other))
    (whole : other = queue → before = task :: rest) :
    List.Forall₂ Retried before
      ((round.scheduleFrom queues (putBack round scheduler queue task rest)).1.pendingTasks
        other) := by
  by_cases same : other = queue
  · subst same
    rw [pendingTasks_scheduleFrom outside, pendingTasks_putBack, if_pos rfl, whole rfl]
    exact .cons (retried_bumpRetry _ _) (forall₂_retried rest)
  · exact unchanged same

variable (round) in
theorem scheduleFrom_outcome (distinct : queues.Nodup) (scheduler : TaskScheduler) :
    ((round.scheduleFrom queues scheduler).2 = none ∧
      Stays round queues scheduler (round.scheduleFrom queues scheduler).1) ∨
    ∃ placed queue task rest node, (round.scheduleFrom queues scheduler).2 = some placed ∧
      Places round queues scheduler (round.scheduleFrom queues scheduler).1 placed queue task rest
        node := by
  induction queues generalizing scheduler with
  | nil => exact .inl ⟨rfl, by simp, fun queue => forall₂_retried _⟩
  | cons queue queues ih =>
    obtain ⟨outside, distinct⟩ := List.nodup_cons.mp distinct
    cases front : scheduler.pendingTasks queue with
    | nil =>
      rw [scheduleFrom_empty front]
      have refused : Refuses round scheduler queue := by
        intro first here
        rw [front] at here
        cases here
      obtain ⟨nothing, stays⟩ | ⟨placed, chosen, task, rest, node, reported, places⟩ :=
        ih distinct scheduler
      · exact .inl ⟨nothing, List.forall_mem_cons.mpr ⟨refused, stays.refused⟩, stays.left⟩
      · obtain ⟨higher, lower, split, refusals⟩ := places.higher
        refine .inr ⟨placed, chosen, task, rest, node, reported, ?_⟩
        exact { places with
          higher := ⟨queue :: higher, lower, by rw [split, List.cons_append],
            List.forall_mem_cons.mpr ⟨refused, refusals⟩⟩ }
    | cons task rest =>
      cases target : round.target queue task with
      | some node =>
        rw [scheduleFrom_placed front target]
        refine .inr ⟨_, queue, task, rest, node, rfl, front, ⟨[], queues, rfl, by simp⟩,
          List.mem_of_find?_eq_some target, List.find?_some target, rfl, ?_⟩
        intro other
        have after : (scheduler.setQueue queue rest).pendingTasks other =
            if other = queue then rest else scheduler.pendingTasks other := by
          rw [pendingTasks_setQueue, Function.update_apply]
        exact after ▸ forall₂_retried _
      | none =>
        have refused := refuses_of_target front target
        have inside : ∀ other ∈ queues, other ≠ queue := by
          rintro other member rfl
          exact outside member
        rw [scheduleFrom_refused front target]
        obtain ⟨nothing, stays⟩ | ⟨placed, chosen, other, more, node, reported, places⟩ :=
          ih distinct (putBack round scheduler queue task rest)
        · refine .inl ⟨nothing, List.forall_mem_cons.mpr ⟨refused, ?_⟩, ?_⟩
          · intro next member
            exact (refuses_putBack_iff (inside next member)).mp (stays.refused next member)
          · intro next
            refine left_putBack outside front ?_ (fun same => same ▸ front)
            intro apart
            have left := stays.left next
            rw [pendingTasks_putBack, if_neg apart] at left
            exact left
        · obtain ⟨higher, lower, split, refusals⟩ := places.higher
          have apart : chosen ≠ queue := inside chosen (by simp [split])
          refine .inr ⟨placed, chosen, other, more, node, reported, ?_, ?_,
            places.candidate, places.delivered, places.reported, ?_⟩
          · have taken := places.front
            rw [pendingTasks_putBack, if_neg apart] at taken
            exact taken
          · refine ⟨queue :: higher, lower, by rw [split, List.cons_append],
              List.forall_mem_cons.mpr ⟨refused, ?_⟩⟩
            intro next member
            exact (refuses_putBack_iff (inside next (by simp [split, member]))).mp
              (refusals next member)
          · intro next
            refine left_putBack outside front ?_ ?_
            · intro apart
              have left := places.left next
              rw [pendingTasks_putBack, if_neg apart] at left
              exact left
            · rintro rfl
              rw [if_neg apart.symm, front]

theorem eligible_of_candidate {view : View} (candidate : node ∈ view.nodesFor task) :
    Eligible view task node :=
  eligible_of_suits (List.mem_filter.mp (List.mem_mergeSort.mp candidate)).2

end ScheduleNext

/-! ## Draining the queues -/

section Dispatch

variable {rounds : Nat → Round} {round : Round} {scheduler : TaskScheduler}

theorem schedulingOrder_nodup : schedulingOrder.Nodup := by decide

theorem length_waiting (queue : Priority) :
    (waiting scheduler queue).length = (scheduler.pendingTasks queue).length :=
  List.length_map _

/-- A call that places a task leaves one fewer. -/
theorem Places.pendingCount_lt {after : TaskScheduler} {placed : ScheduledTask} {queue : Priority}
    {task : QueuedTask} {rest : List QueuedTask} {node : NodeInfo}
    (places : Places round schedulingOrder scheduler after placed queue task rest node) :
    pendingCount after < pendingCount scheduler := by
  have shorter : (after.pendingTasks queue).length < (scheduler.pendingTasks queue).length := by
    have left := (places.left queue).length_eq
    rw [if_pos rfl] at left
    rw [← left, places.front]
    exact Nat.lt_succ_self _
  have kept : ∀ other, (after.pendingTasks other).length ≤
      (scheduler.pendingTasks other).length := by
    intro other
    by_cases same : other = queue
    · exact same ▸ shorter.le
    · have left := (places.left other).length_eq
      rw [if_neg same] at left
      exact left.ge
  simp only [pendingCount, length_waiting]
  refine List.sum_lt_sum _ _ (fun other _ => kept other) ?_
  exact ⟨queue, mem_schedulingOrder queue, shorter⟩

theorem dispatchWithin_isSome (rounds : Nat → Round) (fuel round : Nat)
    (scheduler : TaskScheduler) (enough : pendingCount scheduler < fuel) :
    (dispatchWithin rounds fuel round scheduler).isSome = true := by
  induction fuel generalizing round scheduler with
  | zero => exact absurd enough (Nat.not_lt_zero _)
  | succ fuel ih =>
    rw [dispatchWithin]
    split
    · rfl
    · split
      · next scheduler' placed ran =>
          obtain ⟨nothing, -⟩ | ⟨_, queue, task, rest, node, reported, places⟩ :=
            scheduleFrom_outcome (rounds round) schedulingOrder_nodup scheduler
          · rw [Round.scheduleNext] at ran
            rw [ran] at nothing
            cases nothing
          · rw [Round.scheduleNext] at ran
            have fewer := places.pendingCount_lt
            rw [ran] at fewer
            exact ih (round + 1) scheduler' (by simp only at fewer; omega)
      · rfl

/-- More fuel gives the same result. -/
theorem dispatchWithin_mono {fuel more round : Nat} {after : TaskScheduler}
    (returned : dispatchWithin rounds fuel round scheduler = some after) (le : fuel ≤ more) :
    dispatchWithin rounds more round scheduler = some after := by
  induction fuel generalizing more round scheduler with
  | zero => cases returned
  | succ fuel ih =>
    cases more with
    | zero => exact absurd le (Nat.not_succ_le_zero _)
    | succ more =>
      unfold dispatchWithin at returned ⊢
      split
      · next silent => rwa [if_pos silent] at returned
      · next reachable =>
          rw [if_neg reachable] at returned
          split at returned
          · exact ih returned (Nat.le_of_succ_le_succ le)
          · exact returned

/-- `dispatch_pending_tasks` returns. -/
theorem dispatchWithin_returns (rounds : Nat → Round) (round : Nat) (scheduler : TaskScheduler) :
    ∃ after, ∀ more,
      dispatchWithin rounds (pendingCount scheduler + 1 + more) round scheduler = some after := by
  obtain ⟨after, returned⟩ := Option.isSome_iff_exists.mp
    (dispatchWithin_isSome rounds (pendingCount scheduler + 1) round scheduler
      (Nat.lt_succ_self _))
  exact ⟨after, fun more => dispatchWithin_mono returned (Nat.le_add_right _ _)⟩

end Dispatch

/-! ## Retry counters -/

/-- No waiting task was tried more often than it may be. -/
def RetriesBounded (scheduler : TaskScheduler) : Prop :=
  ∀ queue, ∀ task ∈ scheduler.pendingTasks queue, task.retryCount ≤ task.maxRetries

section Retries

variable {env : Env} {scheduler scheduler' : TaskScheduler} {call call' : Call}
  {events : List Event}

theorem Retried.bounded {task left : QueuedTask} (retried : Retried task left)
    (bounded : task.retryCount ≤ task.maxRetries) : left.retryCount ≤ left.maxRetries := by
  have limit : left.maxRetries = task.maxRetries := by rw [retried.same]
  obtain same | ⟨-, within⟩ := retried.counted
  · rw [limit, same]
    exact bounded
  · rw [limit]
    exact within

theorem bounded_of_forall₂ {before after : List QueuedTask}
    (left : List.Forall₂ Retried before after)
    (bounded : ∀ task ∈ before, task.retryCount ≤ task.maxRetries) :
    ∀ task ∈ after, task.retryCount ≤ task.maxRetries := by
  induction left with
  | nil => exact bounded
  | cons retried _ ih =>
    obtain ⟨first, rest⟩ := List.forall_mem_cons.mp bounded
    exact List.forall_mem_cons.mpr ⟨retried.bounded first, ih rest⟩

/-- The task a call has taken or is about to push. -/
def Call.task : Call → Option QueuedTask
  | .pushing task => some task
  | .selecting _ _ _ task => some task
  | .placing _ _ _ task _ => some task
  | .registering task _ => some task
  | _ => none

/-- No task that waits or is held by a call was tried more often than it may be. -/
structure RetriesKept (scheduler : TaskScheduler) (calls : List Call) : Prop where
  waiting : RetriesBounded scheduler
  held : ∀ call ∈ calls, ∀ task, call.task = some task → task.retryCount ≤ task.maxRetries

theorem retriesBounded_setQueue {queue : Priority} {tasks : List QueuedTask}
    (bounded : RetriesBounded scheduler)
    (fresh : ∀ task ∈ tasks, task.retryCount ≤ task.maxRetries) :
    RetriesBounded (scheduler.setQueue queue tasks) := by
  intro other
  rw [pendingTasks_setQueue, Function.update_apply]
  split
  · exact fresh
  · exact bounded other

/-- A section puts into the queues what was in them or in its hands, and has in its hands
afterwards what was in either. -/
theorem Section.retries (ran : Section env scheduler call scheduler' call' events)
    (bounded : RetriesBounded scheduler)
    (held : ∀ task, call.task = some task → task.retryCount ≤ task.maxRetries) :
    RetriesBounded scheduler' ∧
      ∀ task, call'.task = some task → task.retryCount ≤ task.maxRetries := by
  cases ran with
  | push task =>
    refine ⟨retriesBounded_setQueue bounded ?_, by rintro _ ⟨⟩⟩
    exact List.forall_mem_append.mpr
      ⟨bounded task.priority, List.forall_mem_singleton.mpr (held task rfl)⟩
  | @pop senders queue queues task rest front =>
    have inQueue := bounded queue
    rw [front] at inQueue
    obtain ⟨first, others⟩ := List.forall_mem_cons.mp inQueue
    refine ⟨retriesBounded_setQueue bounded others, ?_⟩
    rintro _ ⟨⟩
    exact first
  | giveUp senders queue queues task =>
    refine ⟨retriesBounded_setQueue bounded ?_, by rintro _ ⟨⟩⟩
    exact List.forall_mem_cons.mpr
      ⟨(retried_bumpRetry senders task).bounded (held task rfl), bounded queue⟩
  | @cancelQueued taskId queued queue before after same split =>
    refine ⟨retriesBounded_setQueue bounded ?_, by rintro _ ⟨⟩⟩
    intro task member
    refine bounded queue task ?_
    rw [split]
    obtain early | late := List.mem_append.mp member
    · exact List.mem_append_left _ early
    · exact List.mem_append_right _ (List.mem_cons_of_mem _ late)
  | select => exact ⟨bounded, held⟩
  | refused => exact ⟨bounded, held⟩
  | send => exact ⟨bounded, held⟩
  | store completed =>
    refine ⟨?_, by rintro _ ⟨⟩⟩
    rw [RetriesBounded, (storeCompletedTask_queues scheduler completed env.completedOrder).1]
    exact bounded
  | notify notice resume =>
    refine ⟨bounded, ?_⟩
    cases resume <;> rintro _ ⟨⟩
  | _ => exact ⟨bounded, by rintro _ ⟨⟩⟩

theorem RetriesKept.begin {calls : List Call} (kept : RetriesKept scheduler calls)
    (fresh : ∀ task, call.task = some task → task.retryCount ≤ task.maxRetries) :
    RetriesKept scheduler (calls ++ [call]) :=
  ⟨kept.waiting, List.forall_mem_append.mpr ⟨kept.held, List.forall_mem_singleton.mpr fresh⟩⟩

theorem RetriesKept.of_reachable {maxRetries taskTimeoutSecs : Nat} {s : State}
    (reached : (system maxRetries taskTimeoutSecs).Reachable s) :
    RetriesKept s.scheduler s.calls := by
  refine reached.invariant (P := fun s => RetriesKept s.scheduler s.calls) ?_ ?_
  · rintro s rfl
    exact ⟨by rintro queue task ⟨⟩, by rintro call ⟨⟩⟩
  · intro s label t kept step
    cases step with
    | submit submission now =>
      have generated : RetriesKept s.scheduler.generateTaskId.2 s.calls :=
        ⟨kept.waiting, kept.held⟩
      refine generated.begin ?_
      rintro _ ⟨⟩
      exact Nat.zero_le _
    | schedule => exact kept.begin (by rintro _ ⟨⟩)
    | complete => exact kept.begin (by rintro _ ⟨⟩)
    | cancel => exact kept.begin (by rintro _ ⟨⟩)
    | checkTimeouts => exact kept.begin (by rintro _ ⟨⟩)
    | getStatus => exact kept.begin (by rintro _ ⟨⟩)
    | advance index call env here unfinished fits =>
      obtain ⟨bounded, held⟩ := (advance_section unfinished fits).retries kept.waiting
        (kept.held call (List.mem_of_getElem? here))
      refine ⟨bounded, ?_⟩
      intro other present
      obtain old | rfl := List.mem_or_eq_of_mem_set present
      · exact kept.held other old
      · exact held

end Retries

/-! ## Placement -/

/-- What a call of `schedule_next` does. -/
structure SchedulesWell (round : Round) (scheduler : TaskScheduler) : Prop where
  placed : ∀ placed, (round.scheduleNext scheduler).2 = some placed →
    ∃ queue task rest node, Eligible round.view task node ∧
      Places round schedulingOrder scheduler (round.scheduleNext scheduler).1 placed queue task
        rest node
  stays : (round.scheduleNext scheduler).2 = none →
    Stays round schedulingOrder scheduler (round.scheduleNext scheduler).1
  retries : RetriesBounded scheduler → RetriesBounded (round.scheduleNext scheduler).1

theorem schedulesWell (round : Round) (scheduler : TaskScheduler) :
    SchedulesWell round scheduler := by
  obtain ⟨nothing, stays⟩ | ⟨placed, queue, task, rest, node, reported, places⟩ :=
    scheduleFrom_outcome round schedulingOrder_nodup scheduler
  · refine ⟨?_, fun _ => stays, ?_⟩
    · intro placed reported
      cases nothing.symm.trans reported
    · intro bounded queue
      exact bounded_of_forall₂ (stays.left queue) (bounded queue)
  · refine ⟨?_, ?_, ?_⟩
    · intro placed' reported'
      cases reported.symm.trans reported'
      exact ⟨queue, task, rest, node, eligible_of_candidate places.candidate, places⟩
    · intro nothing
      cases reported.symm.trans nothing
    · intro bounded other
      refine bounded_of_forall₂ (places.left other) ?_
      split
      · next same =>
          have inQueue := bounded queue
          rw [places.front] at inQueue
          exact (List.forall_mem_cons.mp inQueue).2
      · exact bounded other

/-- No interleaving of calls exceeds a limit of retries. -/
def RetriesNeverExceeded (maxRetries taskTimeoutSecs : Nat) : Prop :=
  ∀ s, (system maxRetries taskTimeoutSecs).Reachable s → RetriesBounded s.scheduler

/-- A call places the front of the first queue whose front can be sent, to an eligible node,
and leaves the others; and the calls of `dispatch_pending_tasks` come to an end. -/
theorem scheduleNext_places (rounds : Nat → Round) (round : Nat) (scheduler : TaskScheduler)
    (maxRetries taskTimeoutSecs : Nat) :
    SchedulesWell (rounds round) scheduler ∧
      RetriesNeverExceeded maxRetries taskTimeoutSecs ∧
      ∃ after, ∀ more, dispatchWithin rounds (pendingCount scheduler + 1 + more) round scheduler =
        some after :=
  ⟨schedulesWell _ scheduler, fun _ reached => (RetriesKept.of_reachable reached).waiting,
    dispatchWithin_returns rounds round scheduler⟩

end UHorse.Hub.Scheduler
