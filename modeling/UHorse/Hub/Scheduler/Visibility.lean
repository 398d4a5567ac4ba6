import UHorse.Hub.Scheduler.Delivery

/-!
# Visibility and cancellation of submitted tasks

`get_task_status` looks at the three maps one after the other, `cancel_task` at
the queues and then at `running_tasks`. Between a removal and the next insertion
a task is in the hand of a call and in none of the maps, and a task can be
inserted into a map that a search has already passed. Either way the search
misses it.

As long as no task is inserted behind a search for it, and no search ends while
its task is in the hand of another call, every returned id is found until its
record is evicted. A cancellation that was confirmed is final without any such
condition.
-/

namespace UHorse.Hub.Scheduler

open UHorse.Lib UHorse.Protocol TaskScheduler

/-- The call has looked for `t` in `running_tasks` and goes on searching. -/
def Call.PassedRunning (t : TaskId) (call : Call) : Prop :=
  call = .statusCompleted t ∨ call = .statusPending t

def Call.PassedCompleted (t : TaskId) (call : Call) : Prop := call = .statusPending t

def Call.PassedQueues (t : TaskId) (call : Call) : Prop := call = .cancellingRunning t

/-- The next section of the call inserts no task behind a search for it, and a
search that ends there does not end while its task is in another call's hand. -/
def KeepsInSight (s : State) : Call → Prop
  | .pushing task => ∀ call ∈ s.calls, ¬ call.PassedQueues task.taskId
  | .placing _ _ _ task [] => ∀ call ∈ s.calls, ¬ call.PassedQueues task.taskId
  | .registering task _ => ∀ call ∈ s.calls, ¬ call.PassedRunning task.taskId
  | .storing completed _ _ => ∀ call ∈ s.calls, ¬ call.PassedCompleted completed.taskId
  | .statusPending t => ∀ call ∈ s.calls, call.hand ≠ some t
  | .cancellingRunning t => ∀ call ∈ s.calls, call.hand ≠ some t
  | _ => True

def Undisturbed (s : State) (label : Label) : Prop :=
  CounterUnwrapped s label ∧
    match label with
    | .advance index _ => ∀ call, s.calls[index]? = some call → KeepsInSight s call
    | _ => True

/-! ## What a search has passed -/

/-- A search in progress for `t` has left no map behind that holds `t`. -/
structure Searched (s : State) : Prop where
  running : ∀ t, (∃ call ∈ s.calls, call.PassedRunning t) → t ∉ s.scheduler.runningTasks
  completed : ∀ t, (∃ call ∈ s.calls, call.PassedCompleted t) → t ∉ s.scheduler.completedTasks
  queues : ∀ t, (∃ call ∈ s.calls, call.PassedQueues t) → queued s.scheduler t = 0

section Sections

variable {env : Env} {scheduler scheduler' : TaskScheduler} {call call' : Call}
  {events : List Event} {t : TaskId}

theorem Section.enters_running (ran : Section env scheduler call scheduler' call' events)
    (running : t ∈ scheduler'.runningTasks) :
    t ∈ scheduler.runningTasks ∨ ∃ task nodeId, call = .registering task nodeId ∧
      task.taskId = t := by
  cases ran with
  | register task nodeId =>
    obtain same | before := Finmap.mem_insert.mp running
    · exact .inr ⟨task, nodeId, rfl, same.symm⟩
    · exact .inl before
  | result => exact .inl (Finmap.mem_erase.mp running).2
  | cancelRunning => exact .inl (Finmap.mem_erase.mp running).2
  | firstTimeout => exact .inl (Finmap.mem_erase.mp running).2
  | nextTimeout => exact .inl (Finmap.mem_erase.mp running).2
  | store completed notice resume =>
    rw [(storeCompletedTask_queues scheduler completed env.completedOrder).2.1] at running
    exact .inl running
  | _ => exact .inl running

theorem storeCompletedTask_lookup {completed record : CompletedTask}
    {order : List (TaskId × CompletedTask)}
    (found : (scheduler.storeCompletedTask completed order).1.completedTasks.lookup t =
      some record) :
    (t = completed.taskId ∧ record = completed) ∨
      scheduler.completedTasks.lookup t = some record := by
  have before : (scheduler.completedTasks.insert completed.taskId completed).lookup t =
      some record := by
    rw [storeCompletedTask] at found
    dsimp only at found
    split at found
    · rw [HashMap.lookup_eraseAll] at found
      split at found
      · cases found
      · exact found
    · exact found
  rw [HashMap.lookup_insert_ite] at before
  split at before
  · next same => exact .inl ⟨same, (Option.some.inj before).symm⟩
  · exact .inr before

theorem Section.enters_completed (ran : Section env scheduler call scheduler' call' events)
    (completed : t ∈ scheduler'.completedTasks) :
    t ∈ scheduler.completedTasks ∨ ∃ record notice resume,
      call = .storing record notice resume ∧ record.taskId = t := by
  cases ran with
  | store record notice resume =>
    obtain ⟨value, found⟩ := Finmap.mem_iff.mp completed
    obtain ⟨same, -⟩ | before := storeCompletedTask_lookup found
    · exact .inr ⟨record, notice, resume, rfl, same.symm⟩
    · exact .inl (HashMap.mem_of_lookup before)
  | _ => exact .inl completed

theorem Section.enters_queues (ran : Section env scheduler call scheduler' call' events)
    (absent : queued scheduler t = 0) :
    queued scheduler' t = 0 ∨ (∃ task, call = .pushing task ∧ task.taskId = t) ∨
      ∃ senders queue queues task, call = .placing senders queue queues task [] ∧
        task.taskId = t := by
  cases ran with
  | push task =>
    have moved := queued_push scheduler task t
    by_cases same : task.taskId = t
    · exact .inr (.inl ⟨task, rfl, same⟩)
    · rw [tick_of_ne same] at moved
      exact .inl (by omega)
  | pop front =>
    have moved := queued_pop front t
    exact .inl (by omega)
  | giveUp senders queue queues task =>
    have moved := queued_requeue scheduler queue senders task t
    by_cases same : task.taskId = t
    · exact .inr (.inr ⟨senders, queue, queues, task, rfl, same⟩)
    · rw [tick_of_ne same] at moved
      exact .inl (by omega)
  | cancelQueued here contents =>
    have moved := queued_remove contents t
    exact .inl (by omega)
  | store completed notice resume =>
    have queues := (storeCompletedTask_queues scheduler completed env.completedOrder).1
    refine .inl ?_
    simp only [queued, queues]
    exact absent
  | _ => exact .inl absent

/-- Passing a map means not having found the task there. -/
theorem Section.passes (ran : Section env scheduler call scheduler' call' events) :
    (call' = .statusCompleted t → t ∉ scheduler'.runningTasks) ∧
    (call' = .statusPending t → call = .statusCompleted t ∧ t ∉ scheduler'.completedTasks) ∧
    (call' = .cancellingRunning t → queued scheduler' t = 0) := by
  cases ran with
  | notQueued absent =>
    refine ⟨by simp, by simp, ?_⟩
    intro same
    cases same
    exact queued_eq_zero.mpr absent
  | notRunning absent =>
    refine ⟨?_, by simp, by simp⟩
    intro same
    cases same
    exact absent
  | notCompleted absent =>
    refine ⟨by simp, ?_, by simp⟩
    intro same
    cases same
    exact ⟨rfl, absent⟩
  | notify notice resume => cases resume <;> simp [Call.ofResume]
  | _ => simp

/-- A status query that returns nothing has searched the queues in vain. -/
theorem Section.returns_nothing (ran : Section env scheduler call scheduler' call' events)
    (coherent : call.Coherent) (nothing : call' = .done (.status t none)) :
    call = .statusPending t ∧ queued scheduler t = 0 := by
  cases ran with
  | lookedUp orders =>
    simp only [Call.done.injEq, Outcome.status.injEq, Option.map_eq_none_iff] at nothing
    obtain ⟨rfl, missed⟩ := nothing
    exact ⟨rfl, queued_eq_zero.mpr (findQueued_eq_none orders missed)⟩
  | notify notice resume =>
    cases resume with
    | finish outcome =>
      cases nothing
      exact coherent.elim
    | timeouts => cases nothing
  | _ => simp at nothing

/-- A cancellation that fails has searched `running_tasks` in vain. -/
theorem Section.returns_error (ran : Section env scheduler call scheduler' call' events)
    (coherent : call.Coherent) {error : HubError}
    (failed : call' = .done (.cancelled t (.error error))) :
    call = .cancellingRunning t ∧ t ∉ scheduler.runningTasks := by
  cases ran with
  | notFound absent =>
    simp only [Call.done.injEq, Outcome.cancelled.injEq] at failed
    obtain ⟨rfl, -⟩ := failed
    exact ⟨rfl, absent⟩
  | notify notice resume =>
    cases resume with
    | finish outcome =>
      cases failed
      exact coherent.elim
    | timeouts => cases failed
  | _ => simp at failed

end Sections

namespace Searched

variable {s s' : State} {label : Label}

theorem advance (searched : Searched s) {index : Nat} {call call' : Call} {env : Env}
    {scheduler : TaskScheduler} {events : List Event} (here : s.calls[index]? = some call)
    (sight : KeepsInSight s call)
    (ran : Section env s.scheduler call scheduler call' events) :
    Searched ⟨scheduler, s.calls.set index call', s.log ++ events⟩ := by
  have member : call ∈ s.calls := List.mem_of_getElem? here
  constructor
  · rintro t ⟨other, otherMember, passed⟩ running
    -- A task enters `running_tasks` only through a registration.
    have before : t ∉ s.scheduler.runningTasks → False := by
      intro absent
      obtain inside | ⟨task, nodeId, rfl, rfl⟩ := ran.enters_running running
      · exact absent inside
      · obtain earlier | now := List.mem_or_eq_of_mem_set otherMember
        · exact sight other earlier passed
        · subst now
          cases ran
          obtain impossible | impossible := passed <;> cases impossible
    obtain earlier | now := List.mem_or_eq_of_mem_set otherMember
    · exact before (searched.running t ⟨other, earlier, passed⟩)
    · subst now
      obtain first | second := passed
      · exact ran.passes.1 first running
      · obtain ⟨rfl, -⟩ := ran.passes.2.1 second
        exact before (searched.running t ⟨_, member, .inl rfl⟩)
  · rintro t ⟨other, otherMember, passed⟩ completed
    obtain earlier | now := List.mem_or_eq_of_mem_set otherMember
    · have absent := searched.completed t ⟨other, earlier, passed⟩
      obtain inside | ⟨record, notice, resume, rfl, rfl⟩ := ran.enters_completed completed
      · exact absent inside
      · exact sight other earlier passed
    · subst now
      exact (ran.passes.2.1 passed).2 completed
  · rintro t ⟨other, otherMember, passed⟩
    obtain earlier | now := List.mem_or_eq_of_mem_set otherMember
    · have absent := searched.queues t ⟨other, earlier, passed⟩
      obtain still | ⟨task, rfl, rfl⟩ |
        ⟨senders, queue, queues, task, rfl, rfl⟩ := ran.enters_queues absent
      · exact still
      · exact absurd passed (sight other earlier)
      · exact absurd passed (sight other earlier)
    · subst now
      exact ran.passes.2.2 passed

theorem concat (searched : Searched s) {scheduler : TaskScheduler} {call : Call}
    {log : List Event} (queues : scheduler.pendingTasks = s.scheduler.pendingTasks)
    (running : scheduler.runningTasks = s.scheduler.runningTasks)
    (completed : scheduler.completedTasks = s.scheduler.completedTasks)
    (fresh : ∀ t, ¬ call.PassedRunning t ∧ ¬ call.PassedCompleted t ∧ ¬ call.PassedQueues t) :
    Searched ⟨scheduler, s.calls ++ [call], log⟩ := by
  constructor
  · rintro t ⟨other, otherMember, passed⟩
    obtain earlier | last := List.mem_append.mp otherMember
    · rw [running]
      exact searched.running t ⟨other, earlier, passed⟩
    · rw [List.mem_singleton.mp last] at passed
      exact absurd passed (fresh t).1
  · rintro t ⟨other, otherMember, passed⟩
    obtain earlier | last := List.mem_append.mp otherMember
    · rw [completed]
      exact searched.completed t ⟨other, earlier, passed⟩
    · rw [List.mem_singleton.mp last] at passed
      exact absurd passed (fresh t).2.1
  · rintro t ⟨other, otherMember, passed⟩
    obtain earlier | last := List.mem_append.mp otherMember
    · simp only [queued, queues]
      exact searched.queues t ⟨other, earlier, passed⟩
    · rw [List.mem_singleton.mp last] at passed
      exact absurd passed (fresh t).2.2

theorem step (searched : Searched s) (calm : Undisturbed s label) (taken : Step s label s') :
    Searched s' := by
  obtain ⟨submission, now, rfl, rfl⟩ | ⟨call, opening, rfl⟩ |
    ⟨index, call, env, scheduler, call', events, rfl, here, fits, ran, rfl⟩ := taken.cases
  · exact searched.concat rfl rfl rfl
      (by simp [Call.PassedRunning, Call.PassedCompleted, Call.PassedQueues])
  · refine searched.concat rfl rfl rfl ?_
    cases opening <;> simp [Call.PassedRunning, Call.PassedCompleted, Call.PassedQueues]
  · exact searched.advance here (calm.2 call here) ran

end Searched
/-! ## Confirmed cancellations -/

def Event.assignedId : Event → Option TaskId
  | .assigned taskId _ _ => some taskId
  | _ => none

/-- How many assignments of a task have been sent. -/
def State.assigned (s : State) (t : TaskId) : Nat := (s.log.filterMap Event.assignedId).count t

def RecordedCancelled (log : List Event) (t : TaskId) : Prop :=
  ∃ record, .stored record ∈ log ∧ record.taskId = t ∧ record.status = .cancelled

/-- A call that will confirm, or has confirmed, a cancellation has a cancelled
record behind it. -/
def Call.Promise (log : List Event) : Call → Prop
  | .storing completed _ (.finish (.cancelled t (.ok ()))) =>
    completed.taskId = t ∧ completed.status = .cancelled
  | .notifying _ (.finish (.cancelled t (.ok ()))) => RecordedCancelled log t
  | .done (.cancelled t (.ok ())) => RecordedCancelled log t
  | _ => True

theorem RecordedCancelled.mono {log more : List Event} {t : TaskId}
    (recorded : RecordedCancelled log t) : RecordedCancelled (log ++ more) t := by
  obtain ⟨record, stored, about, status⟩ := recorded
  exact ⟨record, List.mem_append_left _ stored, about, status⟩

theorem Call.Promise.mono {log more : List Event} {call : Call} (promise : call.Promise log) :
    call.Promise (log ++ more) := by
  unfold Call.Promise at promise ⊢
  split
  · exact promise
  · exact RecordedCancelled.mono promise
  · exact RecordedCancelled.mono promise
  · trivial

theorem Section.promise {env : Env} {scheduler scheduler' : TaskScheduler} {call call' : Call}
    {events log : List Event} (ran : Section env scheduler call scheduler' call' events)
    (promise : call.Promise log) : call'.Promise (log ++ events) := by
  cases ran with
  | cancelQueued here => exact ⟨here, rfl⟩
  | cancelRunning => exact ⟨rfl, rfl⟩
  | store completed notice resume =>
    cases resume with
    | timeouts => trivial
    | finish outcome =>
      cases outcome with
      | cancelled t answer =>
        cases answer with
        | error => trivial
        | ok value =>
          obtain ⟨about, status⟩ := promise
          exact ⟨completed, List.mem_append_right _ List.mem_cons_self, about, status⟩
      | _ => trivial
  | notify notice resume =>
    cases resume with
    | timeouts => trivial
    | finish outcome =>
      cases outcome with
      | cancelled t answer =>
        cases answer with
        | error => trivial
        | ok value => exact RecordedCancelled.mono promise
      | _ => trivial
  | _ => trivial

/-- Records are stored under their own id, and promises are kept. -/
structure Kept (s : State) : Prop where
  recorded : ∀ t record, s.scheduler.completedTasks.lookup t = some record →
    record.taskId = t ∧ .stored record ∈ s.log
  promised : ∀ call ∈ s.calls, call.Promise s.log

namespace Kept

variable {s s' : State} {label : Label}

theorem advance (kept : Kept s) {index : Nat} {call call' : Call} {env : Env}
    {scheduler : TaskScheduler} {events : List Event} (here : s.calls[index]? = some call)
    (ran : Section env s.scheduler call scheduler call' events) :
    Kept ⟨scheduler, s.calls.set index call', s.log ++ events⟩ := by
  constructor
  · intro t record found
    have old : s.scheduler.completedTasks.lookup t = some record →
        record.taskId = t ∧ .stored record ∈ s.log ++ events := by
      intro before
      obtain ⟨about, stored⟩ := kept.recorded t record before
      exact ⟨about, List.mem_append_left _ stored⟩
    cases ran with
    | store completed notice resume =>
      obtain ⟨rfl, rfl⟩ | before := storeCompletedTask_lookup found
      · exact ⟨rfl, List.mem_append_right _ List.mem_cons_self⟩
      · exact old before
    | _ => exact old found
  · intro other member
    obtain earlier | rfl := List.mem_or_eq_of_mem_set member
    · exact (kept.promised other earlier).mono
    · exact ran.promise (kept.promised call (List.mem_of_getElem? here))

theorem step (kept : Kept s) (taken : Step s label s') : Kept s' := by
  obtain ⟨submission, now, rfl, rfl⟩ | ⟨call, opening, rfl⟩ |
    ⟨index, call, env, scheduler, call', events, rfl, here, fits, ran, rfl⟩ := taken.cases
  · constructor
    · intro t record found
      obtain ⟨about, stored⟩ := kept.recorded t record found
      exact ⟨about, List.mem_append_left _ stored⟩
    · intro other member
      obtain earlier | last := List.mem_append.mp member
      · exact (kept.promised other earlier).mono
      · rw [List.mem_singleton.mp last]
        trivial
  · refine ⟨kept.recorded, ?_⟩
    intro other member
    obtain earlier | last := List.mem_append.mp member
    · exact kept.promised other earlier
    · rw [List.mem_singleton.mp last]
      cases opening <;> trivial
  · exact kept.advance here ran

end Kept

section Calm

variable {maxRetries taskTimeoutSecs : Nat} {s : State}

theorem Conserved.of_undisturbed
    (reached : ((system maxRetries taskTimeoutSecs).restrict Undisturbed).Reachable s) :
    Conserved s := by
  have unwrapped : ((system maxRetries taskTimeoutSecs).restrict CounterUnwrapped).Reachable s := by
    refine reached.mono ?_ ?_
    · intro start init
      exact init
    · rintro before label after ⟨guard, step⟩
      exact ⟨guard.1, step⟩
  exact Conserved.of_reachable unwrapped

theorem Searched.of_reachable
    (reached : ((system maxRetries taskTimeoutSecs).restrict Undisturbed).Reachable s) :
    Searched s := by
  refine reached.invariant ?_ ?_
  · rintro start rfl
    exact ⟨by simp [State.initial], by simp [State.initial], by simp [State.initial]⟩
  · intro before label after searched taken
    exact searched.step taken.1 taken.2

theorem Kept.of_reachable (reached : (system maxRetries taskTimeoutSecs).Reachable s) : Kept s := by
  refine reached.invariant ?_ ?_
  · rintro start rfl
    exact ⟨by simp [State.initial, TaskScheduler.new], by simp [State.initial]⟩
  · intro before label after kept taken
    exact kept.step taken

/-- Where a returned task is when it is in no queue, hand or `running_tasks`. -/
theorem Conserved.completed_or_evicted (conserved : Conserved s) {t : TaskId}
    (returned : s.Returned t) (notQueued : queued s.scheduler t = 0)
    (notHeld : ∀ call ∈ s.calls, call.hand ≠ some t)
    (notRunning : t ∉ s.scheduler.runningTasks) :
    t ∈ s.scheduler.completedTasks ∨ 0 < s.evicted t := by
  have balance := conserved.balance t
  have records := conserved.records t
  have drawn := conserved.returned t returned
  have held : s.held t = 0 := by
    apply List.count_eq_zero.mpr
    intro member
    obtain ⟨call, inCalls, inHand⟩ := List.mem_filterMap.mp member
    exact notHeld call inCalls inHand
  have idle := HashMap.present_eq_zero.mpr notRunning
  by_cases present : t ∈ s.scheduler.completedTasks
  · exact .inl present
  · have absent := HashMap.present_eq_zero.mpr present
    exact .inr (by omega)

/-- What a confirmed cancellation means in a later state. -/
def CancelledForEver (before u : State) (t : TaskId) : Prop :=
  (∀ record, .stored record ∈ u.log → record.taskId = t → record.status = .cancelled) ∧
  (∀ record, u.scheduler.completedTasks.lookup t = some record → record.status = .cancelled) ∧
  (t ∈ u.scheduler.completedTasks ∨ 0 < u.evicted t) ∧
  u.assigned t = before.assigned t

/-- While a record of `t` is stored, no assignment of `t` is sent. -/
theorem assigned_of_stored {s' : State} {label : Label} {t : TaskId} (conserved : Conserved s)
    (recorded : RecordedCancelled s.log t) (taken : Step s label s') :
    s'.assigned t = s.assigned t := by
  obtain ⟨submission, now, rfl, rfl⟩ | ⟨call, opening, rfl⟩ |
    ⟨index, call, env, scheduler, call', events, rfl, here, fits, ran, rfl⟩ := taken.cases
  · exact count_filterMap_concat Event.assignedId s.log _ t
  · rfl
  · obtain ⟨record, stored, about, -⟩ := recorded
    have once : 1 ≤ s.stored t := one_le_count Event.storedId stored (congrArg some about)
    have balance := conserved.balance t
    have single := conserved.drawn_le_one t
    have silent : (events.filterMap Event.assignedId).count t = 0 := by
      apply List.count_eq_zero.mpr
      intro member
      obtain ⟨event, inEvents, about⟩ := List.mem_filterMap.mp member
      cases event with
      | assigned id nodeId message =>
        cases about
        cases ran with
        | send senders queue queues task node nodes =>
          cases List.mem_singleton.mp inEvents
          have held : 1 ≤ s.held task.taskId :=
            one_le_count Call.hand (List.mem_of_getElem? here) rfl
          omega
        | store => simp at inEvents
        | _ => simp at inEvents
      | _ => cases about
    simp only [State.assigned, List.filterMap_append, List.count_append]
    omega

theorem cancelled_for_ever {u : State} {labels : List Label} {index : Nat} {t : TaskId}
    (reached : ((system maxRetries taskTimeoutSecs).restrict Undisturbed).Reachable s)
    (confirmed : s.calls[index]? = some (.done (.cancelled t (.ok ()))))
    (run : ((system maxRetries taskTimeoutSecs).restrict Undisturbed).Exec s labels u) :
    CancelledForEver s u t := by
  have promised : RecordedCancelled s.log t :=
    (Kept.of_reachable reached.of_restrict).promised _ (List.mem_of_getElem? confirmed)
  have later : ((system maxRetries taskTimeoutSecs).restrict Undisturbed).Reachable u ∧
      RecordedCancelled u.log t ∧ u.assigned t = s.assigned t := by
    refine run.invariant (P := fun w =>
      ((system maxRetries taskTimeoutSecs).restrict Undisturbed).Reachable w ∧
        RecordedCancelled w.log t ∧ w.assigned t = s.assigned t) ?_ ⟨reached, promised, rfl⟩
    rintro before label after ⟨reachedBefore, recorded, same⟩ taken
    have silent := assigned_of_stored (Conserved.of_undisturbed reachedBefore) recorded taken.2
    refine ⟨reachedBefore.step taken, ?_, silent.trans same⟩
    obtain ⟨submission, now, rfl, rfl⟩ | ⟨call, opening, rfl⟩ |
      ⟨index, call, env, scheduler, call', events, rfl, here, fits, ran, rfl⟩ := taken.2.cases
    · exact recorded.mono
    · exact recorded
    · exact recorded.mono
  obtain ⟨reachedLater, ⟨record, stored, about, status⟩, same⟩ := later
  have conserved := Conserved.of_undisturbed reachedLater
  have kept := Kept.of_reachable reachedLater.of_restrict
  have balance := conserved.balance t
  have records := conserved.records t
  have single := conserved.drawn_le_one t
  have counted : 1 ≤ u.stored t := one_le_count Event.storedId stored (congrArg some about)
  have storedOnce : (u.log.filterMap Event.storedId).count t ≤ 1 := by
    change u.stored t ≤ 1
    omega
  have unique : ∀ other, .stored other ∈ u.log → other.taskId = t → other.status = .cancelled := by
    intro other otherStored otherAbout
    have equal := eq_of_count_le_one Event.storedId storedOnce otherStored stored
      (congrArg some otherAbout) (congrArg some about)
    rw [Event.stored.inj equal]
    exact status
  refine ⟨unique, ?_, ?_, same⟩
  · intro other found
    obtain ⟨otherAbout, otherStored⟩ := kept.recorded t other found
    exact unique other otherStored otherAbout
  · by_cases present : t ∈ u.scheduler.completedTasks
    · exact .inl present
    · have absent := HashMap.present_eq_zero.mpr present
      exact .inr (by omega)

/-- Whenever a call returns: a status query for a returned task that was not
evicted has found it, a cancellation that fails has a record in front of it, and
one that succeeds is final. -/
theorem task_visible_and_cancellable {s' : State} {index : Nat} {env : Env} {t : TaskId}
    (reached : ((system maxRetries taskTimeoutSecs).restrict Undisturbed).Reachable s)
    (taken : ((system maxRetries taskTimeoutSecs).restrict Undisturbed).Step s
      (.advance index env) s')
    (returned : s.Returned t) (present : s.evicted t = 0) :
    s'.calls[index]? ≠ some (.done (.status t none)) ∧
    (∀ error, s'.calls[index]? = some (.done (.cancelled t (.error error))) →
      t ∈ s.scheduler.completedTasks) ∧
    (s'.calls[index]? = some (.done (.cancelled t (.ok ()))) →
      ∀ labels u, ((system maxRetries taskTimeoutSecs).restrict Undisturbed).Exec s' labels u →
        CancelledForEver s' u t) := by
  have conserved := Conserved.of_undisturbed reached
  have searched := Searched.of_reachable reached
  have final : s'.calls[index]? = some (.done (.cancelled t (.ok ()))) →
      ∀ labels u, ((system maxRetries taskTimeoutSecs).restrict Undisturbed).Exec s' labels u →
        CancelledForEver s' u t := by
    intro confirmed labels u run
    exact cancelled_for_ever (reached.step taken) confirmed run
  obtain ⟨calm, step⟩ := taken
  cases step with
  | advance _ call _ here unfinished fits =>
    have ran := advance_section unfinished fits
    have member : call ∈ s.calls := List.mem_of_getElem? here
    have coherent := conserved.coherent call member
    have inside : index < s.calls.length := (List.getElem?_eq_some_iff.mp here).1
    have now : (s.run index call env).calls[index]? =
        some (call.advance env s.scheduler).2.1 := by
      simp [State.run, inside]
    refine ⟨?_, ?_, final⟩
    · intro nothing
      rw [now] at nothing
      obtain ⟨rfl, notQueued⟩ := ran.returns_nothing coherent (Option.some.inj nothing)
      have notRunning := searched.running t ⟨_, member, .inr rfl⟩
      have notCompleted := searched.completed t ⟨_, member, rfl⟩
      rcases conserved.completed_or_evicted returned notQueued (calm.2 _ here) notRunning with
        completed | evicted
      · exact notCompleted completed
      · omega
    · intro error failed
      rw [now] at failed
      obtain ⟨rfl, notRunning⟩ := ran.returns_error coherent (Option.some.inj failed)
      have notQueued := searched.queues t ⟨_, member, rfl⟩
      rcases conserved.completed_or_evicted returned notQueued (calm.2 _ here) notRunning with
        completed | evicted
      · exact completed
      · omega

end Calm

/-! ## Searches around the waiting and the sent task -/

/-- Status queries that no task in hand eludes, and pushes in front of which no search has passed
the queues. -/
def admitsUndisturbed (s : State) : Label → Bool
  | .submit _ _ => s.draws < 2 ^ 64
  | .advance index _ =>
    match s.calls[index]? with
    | some (.pushing _) => s.calls.all fun
        | .cancellingRunning _ => false
        | _ => true
    | some (.statusRunning _) | some (.statusCompleted _) => true
    | some (.statusPending t) => s.calls.all fun call => call.hand ≠ some t
    | _ => false
  | _ => true

theorem undisturbed_of_admits {s : State} {label : Label}
    (admitted : admitsUndisturbed s label = true) : Undisturbed s label := by
  cases label with
  | submit submission now => exact ⟨of_decide_eq_true (p := s.draws < 2 ^ 64) admitted, trivial⟩
  | advance index env =>
    refine ⟨trivial, fun call here => ?_⟩
    simp only [admitsUndisturbed, here] at admitted
    cases call with
    | pushing task =>
      rintro _ member rfl
      cases List.all_eq_true.mp admitted _ member
    | statusRunning t | statusCompleted t => trivial
    | statusPending t =>
      exact fun call member => of_decide_eq_true (List.all_eq_true.mp admitted call member)
    | _ => cases admitted
  | _ => exact ⟨trivial, trivial⟩

def undisturbedPlayer : ((system 3 300).restrict Undisturbed).Player Label :=
  (player 3 300 []).restrict admitsUndisturbed fun _ _ => undisturbed_of_admits

/-- A status query for the waiting task has passed two maps. -/
def lastLook : State := searching (.statusPending (taskIdOf 0))

theorem task_visible_and_cancellable_lastLook :
    lastLook.Returned (taskIdOf 0) ∧
      (lastLook.run 1 (.statusPending (taskIdOf 0)) (quietEnv [])).calls[1]? ≠
        some (.done (.status (taskIdOf 0) none)) := by
  have played : undisturbedPlayer.play (.initial 3 300)
      [.submit sampleSubmission 0, .advance 0 (quietEnv []), .getStatus (taskIdOf 0),
        .advance 1 (quietEnv []), .advance 1 (quietEnv [])] = some lastLook := by
    with_unfolding_all rfl
  obtain ⟨labels, run⟩ := undisturbedPlayer.exec_play played
  have step : ((system 3 300).restrict Undisturbed).Step lastLook (.advance 1 (quietEnv []))
      (lastLook.run 1 (.statusPending (taskIdOf 0)) (quietEnv [])) := by
    refine undisturbedPlayer.sound _ (.advance 1 (quietEnv [])) _ _ ?_
    with_unfolding_all rfl
  have returned : lastLook.Returned (taskIdOf 0) := List.mem_append_left _ List.mem_cons_self
  exact ⟨returned, (task_visible_and_cancellable ⟨_, labels, rfl, run⟩ step returned rfl).1⟩

/-- While the assignment is sent and the task not registered, a status query
finds nothing and a cancellation fails, although the task is neither completed
nor evicted. -/
theorem sent_task_invisible :
    (∃ s s', (system 3 300).Reachable s ∧ Step s (.advance 2 (quietEnv [])) s' ∧
      s.Returned (taskIdOf 0) ∧ s.evicted (taskIdOf 0) = 0 ∧
      s'.calls[2]? = some (.done (.status (taskIdOf 0) none))) ∧
    ∃ s s', (system 3 300).Reachable s ∧ Step s (.advance 2 (quietEnv [])) s' ∧
      s.Returned (taskIdOf 0) ∧ s.evicted (taskIdOf 0) = 0 ∧
      s'.calls[2]? =
        some (.done (.cancelled (taskIdOf 0) (.error (taskNotFound (taskIdOf 0))))) ∧
      taskIdOf 0 ∉ s.scheduler.completedTasks := by
  have reached : (system 3 300).Reachable sent := sent_reachable.of_restrict.of_restrict
  let play := (player 3 300 []).play sent
  constructor
  · let s := (play [.getStatus (taskIdOf 0), .advance 2 (quietEnv []),
      .advance 2 (quietEnv [])]).get (by with_unfolding_all rfl)
    obtain ⟨labels, run⟩ := (player 3 300 []).exec_play (t := s) (Option.some_get _).symm
    exact ⟨s, _, reached.exec run, .advance _ 2 (.statusPending (taskIdOf 0)) _ rfl rfl (.refl _),
      List.mem_cons_self, rfl, rfl⟩
  · let s := (play [.cancel (taskIdOf 0), .advance 2 (quietEnv [])]).get (by with_unfolding_all rfl)
    obtain ⟨labels, run⟩ := (player 3 300 []).exec_play (t := s) (Option.some_get _).symm
    exact ⟨s, _, reached.exec run, .advance _ 2 (.cancellingRunning (taskIdOf 0)) _ rfl rfl trivial,
      List.mem_cons_self, rfl, rfl, Finmap.notMem_empty⟩

end UHorse.Hub.Scheduler
