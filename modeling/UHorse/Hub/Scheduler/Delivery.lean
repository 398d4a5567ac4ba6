import UHorse.Hub.Scheduler.Conservation

/-!
# What becomes of the result of an assigned task

`schedule_next` puts the assignment into the node's channel before it locks
`running_tasks`, and `complete_task` answers `Ok` to an id it does not find
there. Between the two a node can already answer, and its result is dropped.

In every interleaving in which no result is processed inside that window, the
first result for a task that was neither cancelled nor timed out is the one that
is recorded, and the task's only notification carries it.
-/

namespace UHorse.Hub.Scheduler

open UHorse.Lib UHorse.Protocol TaskScheduler

/-- Nodes answer assignments that were put into their channel. -/
def AnswersAssignment (s : State) : Label → Prop
  | .complete taskId nodeId _ => ∃ message, .assigned taskId nodeId message ∈ s.log
  | _ => True

/-- The scheduler together with its nodes. -/
def delivery (maxRetries taskTimeoutSecs : Nat) : System State Label :=
  (system maxRetries taskTimeoutSecs).restrict AnswersAssignment

/-- `schedule_next` has sent the assignment of `t` and not registered it. -/
def Unregistered (s : State) (t : TaskId) : Prop :=
  ∃ task nodeId, .registering task nodeId ∈ s.calls ∧ task.taskId = t

/-- No result is looked up while its task is sent but not registered, and the
task counter does not wrap around. -/
def RegisteredFirst (s : State) (label : Label) : Prop :=
  CounterUnwrapped s label ∧
    match label with
    | .advance index _ => ∀ t nodeId result,
        s.calls[index]? = some (.completing t nodeId result) → ¬ Unregistered s t
    | _ => True

/-- No result for `t` was processed yet and `t` was not cancelled or timed out. -/
def FirstResult (s : State) (t : TaskId) : Prop :=
  (∀ nodeId, .processed t nodeId ∉ s.log) ∧ .settled t .cancellation ∉ s.log ∧
    .settled t .timeout ∉ s.log

/-! ## Where an assigned task can be -/

/-- An assigned task is being registered, runs, or was settled; a task settled
by a result has had a result processed; and results come from assigned nodes. -/
structure Tracked (s : State) : Prop where
  assigned : ∀ t nodeId message, .assigned t nodeId message ∈ s.log →
    Unregistered s t ∨ t ∈ s.scheduler.runningTasks ∨ ∃ cause, .settled t cause ∈ s.log
  settled : ∀ t, .settled t .result ∈ s.log → ∃ nodeId, .processed t nodeId ∈ s.log
  answered : ∀ t nodeId result, .completing t nodeId result ∈ s.calls →
    ∃ message, .assigned t nodeId message ∈ s.log

section Sections

variable {env : Env} {scheduler scheduler' : TaskScheduler} {call call' : Call}
  {events : List Event}

theorem Section.assigned (ran : Section env scheduler call scheduler' call' events) {t : TaskId}
    {nodeId : NodeId} {message : HubToNode} (sent : .assigned t nodeId message ∈ events) :
    ∃ task, call' = .registering task nodeId ∧ task.taskId = t := by
  cases ran with
  | send senders queue queues task node nodes =>
    cases List.mem_singleton.mp sent
    exact ⟨task, rfl, rfl⟩
  | store =>
    obtain impossible | evicted := List.mem_cons.mp sent
    · cases impossible
    · simp at evicted
  | _ => simp at sent

/-- A task leaves `running_tasks` only when it is settled. -/
theorem Section.leaves_running (ran : Section env scheduler call scheduler' call' events)
    {t : TaskId} (running : t ∈ scheduler.runningTasks) :
    t ∈ scheduler'.runningTasks ∨ ∃ cause, .settled t cause ∈ events := by
  have erased {taskId : TaskId} (other : t ≠ taskId) :
      t ∈ scheduler.runningTasks.erase taskId := Finmap.mem_erase.mpr ⟨other, running⟩
  cases ran with
  | register task nodeId => exact .inl (Finmap.mem_insert.mpr (.inr running))
  | @result taskId =>
    by_cases same : t = taskId
    · exact .inr ⟨.result, by simp [same]⟩
    · exact .inl (erased same)
  | @cancelRunning taskId =>
    by_cases same : t = taskId
    · exact .inr ⟨.cancellation, by simp [same]⟩
    · exact .inl (erased same)
  | @firstTimeout taskId =>
    by_cases same : t = taskId
    · exact .inr ⟨.timeout, by simp [same]⟩
    · exact .inl (erased same)
  | @nextTimeout taskId =>
    by_cases same : t = taskId
    · exact .inr ⟨.timeout, by simp [same]⟩
    · exact .inl (erased same)
  | store completed notice resume =>
    rw [(storeCompletedTask_queues scheduler completed env.completedOrder).2.1]
    exact .inl running
  | _ => exact .inl running

theorem Section.settled_result (ran : Section env scheduler call scheduler' call' events)
    {t : TaskId} (settled : .settled t .result ∈ events) :
    ∃ nodeId, .processed t nodeId ∈ events := by
  cases ran with
  | @result taskId _ nodeId =>
    have same : t = taskId := by simpa using settled
    exact ⟨nodeId, by simp [same]⟩
  | store =>
    obtain impossible | evicted := List.mem_cons.mp settled
    · cases impossible
    · simp at evicted
  | _ => simp at settled

theorem Section.not_completing (ran : Section env scheduler call scheduler' call' events)
    (t : TaskId) (nodeId : NodeId) (result : CommandResult) :
    call' ≠ .completing t nodeId result := by
  cases ran with
  | notify notice resume => cases resume <;> simp [Call.ofResume]
  | _ => simp

end Sections

namespace Tracked

variable {s s' : State} {label : Label}

theorem advance (tracked : Tracked s) {index : Nat} {call call' : Call} {env : Env}
    {scheduler : TaskScheduler} {events : List Event} (here : s.calls[index]? = some call)
    (ran : Section env s.scheduler call scheduler call' events) :
    Tracked ⟨scheduler, s.calls.set index call', s.log ++ events⟩ := by
  have inside : index < s.calls.length := (List.getElem?_eq_some_iff.mp here).1
  have replaced : call' ∈ s.calls.set index call' := List.mem_set inside call'
  constructor
  · intro t nodeId message sent
    obtain earlier | now := List.mem_append.mp sent
    · rcases tracked.assigned t nodeId message earlier with
        ⟨task, node, member, rfl⟩ | running | ⟨cause, settled⟩
      · -- The registering call either runs now or stays where it is.
        by_cases this : call = .registering task node
        · subst this
          cases ran with
          | register =>
            refine .inr (.inl ?_)
            exact Finmap.mem_insert.mpr (.inl rfl)
        · obtain ⟨position, found⟩ := List.getElem?_of_mem member
          have other : index ≠ position := by
            rintro rfl
            rw [here] at found
            exact this (Option.some.inj found)
          refine .inl ⟨task, node, List.mem_of_getElem? (i := position) ?_, rfl⟩
          simpa [List.getElem?_set_ne other] using found
      · obtain still | ⟨cause, settled⟩ := ran.leaves_running running
        · exact .inr (.inl still)
        · exact .inr (.inr ⟨cause, List.mem_append_right _ settled⟩)
      · exact .inr (.inr ⟨cause, List.mem_append_left _ settled⟩)
    · obtain ⟨task, rfl, same⟩ := ran.assigned now
      exact .inl ⟨task, nodeId, replaced, same⟩
  · intro t settled
    obtain earlier | now := List.mem_append.mp settled
    · obtain ⟨nodeId, processed⟩ := tracked.settled t earlier
      exact ⟨nodeId, List.mem_append_left _ processed⟩
    · obtain ⟨nodeId, processed⟩ := ran.settled_result now
      exact ⟨nodeId, List.mem_append_right _ processed⟩
  · intro t nodeId result member
    obtain earlier | now := List.mem_or_eq_of_mem_set member
    · obtain ⟨message, sent⟩ := tracked.answered t nodeId result earlier
      exact ⟨message, List.mem_append_left _ sent⟩
    · exact absurd now.symm (ran.not_completing t nodeId result)

/-- Beginning a call changes nothing but the list of calls. -/
theorem begin (tracked : Tracked s) {call : Call}
    (answers : ∀ t nodeId result, call = .completing t nodeId result →
      ∃ message, .assigned t nodeId message ∈ s.log) : Tracked (s.begin call) := by
  constructor
  · intro t nodeId message sent
    obtain ⟨task, node, member, same⟩ | elsewhere := tracked.assigned t nodeId message sent
    · exact .inl ⟨task, node, List.mem_append_left _ member, same⟩
    · exact .inr elsewhere
  · exact tracked.settled
  · intro t nodeId result member
    obtain earlier | last := List.mem_append.mp member
    · exact tracked.answered t nodeId result earlier
    · exact answers t nodeId result (List.mem_singleton.mp last).symm

theorem submit (tracked : Tracked s) (submission : Submission) (now : DateTime) :
    Tracked (s.submit submission now) := by
  have old : ∀ event, (∀ id, event ≠ .drawn id) →
      event ∈ (s.submit submission now).log → event ∈ s.log := by
    intro event notDrawn member
    obtain earlier | last := List.mem_append.mp member
    · exact earlier
    · exact absurd (List.mem_singleton.mp last) (notDrawn _)
  constructor
  · intro t nodeId message sent
    rcases tracked.assigned t nodeId message (old _ (by simp) sent) with
      ⟨task, node, member, same⟩ | running | ⟨cause, settled⟩
    · exact .inl ⟨task, node, List.mem_append_left _ member, same⟩
    · exact .inr (.inl running)
    · exact .inr (.inr ⟨cause, List.mem_append_left _ settled⟩)
  · intro t settled
    obtain ⟨nodeId, processed⟩ := tracked.settled t (old _ (by simp) settled)
    exact ⟨nodeId, List.mem_append_left _ processed⟩
  · intro t nodeId result member
    obtain earlier | last := List.mem_append.mp member
    · obtain ⟨message, sent⟩ := tracked.answered t nodeId result earlier
      exact ⟨message, List.mem_append_left _ sent⟩
    · cases List.mem_singleton.mp last

theorem step (tracked : Tracked s) (answers : AnswersAssignment s label)
    (taken : Step s label s') : Tracked s' := by
  cases taken with
  | submit submission now => exact tracked.submit submission now
  | schedule => exact tracked.begin (by simp)
  | complete taskId nodeId result =>
    refine tracked.begin ?_
    intro t node result' same
    cases same
    exact answers
  | cancel => exact tracked.begin (by simp)
  | checkTimeouts => exact tracked.begin (by simp)
  | getStatus => exact tracked.begin (by simp)
  | advance index call env here unfinished fits =>
    exact tracked.advance here (advance_section unfinished fits)

theorem of_reachable {maxRetries taskTimeoutSecs : Nat}
    (reached : (delivery maxRetries taskTimeoutSecs).Reachable s) : Tracked s := by
  refine reached.invariant ?_ ?_
  · rintro start rfl
    exact ⟨by simp [State.initial], by simp [State.initial], by simp [State.initial]⟩
  · intro before label after tracked taken
    exact tracked.step taken.1 taken.2

end Tracked
/-! ## The first result is recorded -/

/-- How far `complete_task` is with a result: the record waits to be stored, is
stored and the notice waits, or both are done and the call has returned. -/
inductive Phase (index : Nat) (record : CompletedTask) (notice : TaskResult) (u : State) : Prop
  | storing : u.calls[index]? = some (.storing record notice (.finish .processed)) →
      Phase index record notice u
  | notifying : u.calls[index]? = some (.notifying notice (.finish .processed)) →
      .stored record ∈ u.log → Phase index record notice u
  | returned (delivered : Bool) : u.calls[index]? = some (.done .processed) →
      .stored record ∈ u.log → .notified notice delivered ∈ u.log → Phase index record notice u

namespace Phase

variable {index : Nat} {record : CompletedTask} {notice : TaskResult} {s s' : State}
  {label : Label}

theorem mono (phase : Phase index record notice s)
    (sameCall : s'.calls[index]? = s.calls[index]?) (logged : ∀ event ∈ s.log, event ∈ s'.log) :
    Phase index record notice s' := by
  cases phase with
  | storing here => exact .storing (sameCall.trans here)
  | notifying here stored => exact .notifying (sameCall.trans here) (logged _ stored)
  | returned delivered here stored notified =>
    exact .returned delivered (sameCall.trans here) (logged _ stored) (logged _ notified)

theorem inside (phase : Phase index record notice s) : index < s.calls.length := by
  cases phase with
  | storing here => exact (List.getElem?_eq_some_iff.mp here).1
  | notifying here => exact (List.getElem?_eq_some_iff.mp here).1
  | returned _ here => exact (List.getElem?_eq_some_iff.mp here).1

theorem step (phase : Phase index record notice s) (taken : Step s label s') :
    Phase index record notice s' := by
  have older := phase.inside
  obtain ⟨submission, now, -, rfl⟩ | ⟨call, -, rfl⟩ |
    ⟨position, call, env, scheduler, call', events, -, here, -, ran, rfl⟩ := taken.cases
  · exact phase.mono (List.getElem?_append_left older) (fun _ => List.mem_append_left _)
  · exact phase.mono (List.getElem?_append_left older) (fun _ member => member)
  · by_cases same : position = index
    · subst same
      have now : (s.calls.set position call')[position]? = some call' := by simp [older]
      cases phase with
      | storing current =>
        rw [current] at here
        cases here
        cases ran with
        | store => exact .notifying now (List.mem_append_right _ List.mem_cons_self)
      | notifying current stored =>
        rw [current] at here
        cases here
        cases ran with
        | notify =>
          exact .returned env.delivered now (List.mem_append_left _ stored)
            (List.mem_append_right _ List.mem_cons_self)
      | returned delivered current =>
        rw [current] at here
        cases here
        cases ran
    · exact phase.mono (List.getElem?_set_ne same) (fun _ => List.mem_append_left _)

end Phase

/-- Advancing any other call than one that looks up a result is unrestricted. -/
theorem registeredFirst_of_call {s : State} {index : Nat} {call : Call} {env : Env}
    (here : s.calls[index]? = some call)
    (other : ∀ t nodeId result, call ≠ .completing t nodeId result) :
    RegisteredFirst s (.advance index env) := by
  refine ⟨trivial, ?_⟩
  intro t nodeId result found
  rw [here] at found
  exact absurd (Option.some.inj found) (other t nodeId result)

section Orderly

variable {maxRetries taskTimeoutSecs : Nat}

theorem Conserved.of_delivery {s : State}
    (reached : ((delivery maxRetries taskTimeoutSecs).restrict RegisteredFirst).Reachable s) :
    Conserved s := by
  have unwrapped : ((system maxRetries taskTimeoutSecs).restrict CounterUnwrapped).Reachable s := by
    refine reached.mono ?_ ?_
    · intro start init
      exact init
    · rintro before label after ⟨guard, -, step⟩
      exact ⟨guard.1, step⟩
  exact Conserved.of_reachable unwrapped

/-- From every phase the call returns after at most two more sections. -/
theorem Phase.finishes {index : Nat} {record : CompletedTask} {notice : TaskResult} {u : State}
    (phase : Phase index record notice u) :
    ∃ labels v, ((delivery maxRetries taskTimeoutSecs).restrict RegisteredFirst).Exec u labels v ∧
      v.calls[index]? = some (.done .processed) := by
  have older := phase.inside
  have fromNotice : ∀ w : State, index < w.calls.length →
      w.calls[index]? = some (.notifying notice (.finish .processed)) →
      ∃ labels v,
        ((delivery maxRetries taskTimeoutSecs).restrict RegisteredFirst).Exec w labels v ∧
          v.calls[index]? = some (.done .processed) := by
    intro w inside here
    have step := Step.advance w index _ (quietEnv []) here rfl trivial
    refine ⟨_, _, .single ⟨registeredFirst_of_call here (by simp), trivial, step⟩, ?_⟩
    simp [State.run, Call.advance, Call.ofResume, inside]
  cases phase with
  | storing here =>
    obtain ⟨order, listed⟩ := HashMap.exists_lists
      (u.scheduler.completedTasks.insert record.taskId record)
    have step := Step.advance u index _ (quietEnv order) here rfl listed
    obtain ⟨labels, v, run, returned⟩ := fromNotice
      (u.run index (.storing record notice (.finish .processed)) (quietEnv order))
      (by simpa [State.run, Call.advance] using older)
      (by simp [State.run, Call.advance, older])
    refine ⟨_, v, .append (.single ⟨registeredFirst_of_call here (by simp), trivial, step⟩) run,
      returned⟩
  | notifying here => exact fromNotice u older here
  | returned delivered here => exact ⟨[], u, .refl u, here⟩

/-- When the first result for a task that was neither cancelled nor timed out is
processed, `complete_task` records exactly that result, now and for ever after,
and the task's only notification carries it. -/
theorem first_result_is_recorded {s s' u : State} {index : Nat} {env : Env} {labels : List Label}
    {t : TaskId} {nodeId : NodeId} {result : CommandResult}
    (reached : ((delivery maxRetries taskTimeoutSecs).restrict RegisteredFirst).Reachable s)
    (here : s.calls[index]? = some (.completing t nodeId result)) (first : FirstResult s t)
    (processed : ((delivery maxRetries taskTimeoutSecs).restrict RegisteredFirst).Step s
      (.advance index env) s')
    (run : ((delivery maxRetries taskTimeoutSecs).restrict RegisteredFirst).Exec s' labels u) :
    ∃ record, record.taskId = t ∧ record.status = terminalStatusFromResult result ∧
      record.result = result ∧ Phase index record ⟨t, nodeId, result⟩ u ∧
      (∀ other, .stored other ∈ u.log → other.taskId = t → other = record) ∧
      (∀ notice delivered, .notified notice delivered ∈ u.log → notice.taskId = t →
        notice = ⟨t, nodeId, result⟩) ∧
      u.notified t ≤ 1 ∧
      ∃ rest v, ((delivery maxRetries taskTimeoutSecs).restrict RegisteredFirst).Exec u rest v ∧
        v.calls[index]? = some (.done .processed) := by
  have tracked := Tracked.of_reachable reached.of_restrict
  have conserved := Conserved.of_delivery ((reached.step processed).exec run)
  obtain ⟨registered, -, taken⟩ := processed
  -- The task was assigned, is registered by now and has not been settled, so it runs.
  have running : t ∈ s.scheduler.runningTasks := by
    obtain ⟨message, assigned⟩ := tracked.answered t nodeId result (List.mem_of_getElem? here)
    obtain unregistered | running | settled := tracked.assigned t nodeId message assigned
    · exact absurd unregistered (registered.2 t nodeId result here)
    · exact running
    · obtain ⟨cause, event⟩ := settled
      cases cause with
      | result =>
        obtain ⟨node, processedBefore⟩ := tracked.settled t event
        exact absurd processedBefore (first.1 node)
      | cancellation => exact absurd event first.2.1
      | timeout => exact absurd event first.2.2
  obtain ⟨record, about, status, recorded, phase⟩ : ∃ record : CompletedTask,
      record.taskId = t ∧ record.status = terminalStatusFromResult result ∧
        record.result = result ∧ Phase index record ⟨t, nodeId, result⟩ s' := by
    cases taken with
    | advance _ call _ found unfinished fits =>
      rw [here] at found
      cases found
      have inside := (List.getElem?_eq_some_iff.mp here).1
      obtain ⟨task, lookup⟩ := Finmap.mem_iff.mp running
      refine ⟨finishRunning t task env.now (terminalStatusFromResult result) result, rfl, rfl,
        rfl, .storing ?_⟩
      simp [State.run, Call.advance, takeRunning, lookup, inside]
  have later : Phase index record ⟨t, nodeId, result⟩ u := by
    refine run.invariant ?_ phase
    rintro before label after held ⟨-, -, step⟩
    exact held.step step
  have balance := conserved.balance t
  have notices := conserved.notices t
  have once := conserved.drawn_le_one t
  refine ⟨record, about, status, recorded, later, ?_, ?_, by omega, later.finishes⟩
  · intro other stored same
    have counted : 1 ≤ u.stored t := one_le_count Event.storedId stored (congrArg some same)
    have storedOnce : (u.log.filterMap Event.storedId).count t ≤ 1 := by
      change u.stored t ≤ 1
      omega
    cases later with
    | storing call =>
      have held : 1 ≤ u.held t :=
        one_le_count Call.hand (List.mem_of_getElem? call) (congrArg some about)
      omega
    | notifying _ recordStored =>
      have equal := eq_of_count_le_one Event.storedId storedOnce stored recordStored
        (congrArg some same) (congrArg some about)
      exact Event.stored.inj equal
    | returned _ _ recordStored =>
      have equal := eq_of_count_le_one Event.storedId storedOnce stored recordStored
        (congrArg some same) (congrArg some about)
      exact Event.stored.inj equal
  · intro notice delivered notified same
    have counted : 1 ≤ u.notified t :=
      one_le_count Event.notifiedId notified (congrArg some same)
    have notifiedOnce : (u.log.filterMap Event.notifiedId).count t ≤ 1 := by
      change u.notified t ≤ 1
      omega
    cases later with
    | storing call =>
      have held : 1 ≤ u.held t :=
        one_le_count Call.hand (List.mem_of_getElem? call) (congrArg some about)
      omega
    | notifying call =>
      have waiting : 1 ≤ u.noticing t :=
        one_le_count Call.noticeId (List.mem_of_getElem? call) rfl
      omega
    | returned delivered' _ _ noticed =>
      have equal := eq_of_count_le_one Event.notifiedId notifiedOnce notified noticed
        (congrArg some same) rfl
      exact (Event.notified.inj equal).1

end Orderly

/-! ## A node that answers at once -/

def sampleNode : NodeInfo where
  nodeId := ⟨"node-1"⟩
  name := "node"
  state := .online
  capabilities := .default
  workspace := ⟨none, "workspace", "/workspace", false, [], []⟩
  tags := []
  lastHeartbeat := 0
  load := .default
  registeredAt := 0
  currentTasks := 0
  completedTasks := 0
  failedTasks := 0

def sampleSenders : Senders := Finmap.insert sampleNode.nodeId 0 ∅

def sendingEnv : Env := { quietEnv [] with nodes := [sampleNode] }

/-- `schedule_next` in front of the waiting task. -/
def searching (call : Call) : State :=
  ⟨oneWaiting.scheduler, oneWaiting.calls ++ [call], oneWaiting.log⟩

/-- `schedule_next` has taken the task out of its queue. -/
def holding (call : Call) (log : List Event) : State :=
  ⟨oneWaiting.scheduler.setQueue .normal [], oneWaiting.calls ++ [call], oneWaiting.log ++ log⟩

def sampleMessage : HubToNode :=
  assignment (sampleTask 0) ⟨"message"⟩ (oneWaiting.scheduler.deadlineAt 0)

def sampleAssignment : Event := .assigned (taskIdOf 0) sampleNode.nodeId sampleMessage

/-- The assignment is in the node's channel and the task in no map. -/
def sent : State := holding (.registering (sampleTask 0) sampleNode.nodeId) [sampleAssignment]

/-- Results for tasks that are sent and registered, and fewer draws than the counter has
values. -/
def admitsRegistered (s : State) : Label → Bool
  | .submit _ _ => s.draws < 2 ^ 64
  | .complete taskId nodeId _ => s.log.any fun
      | .assigned t node _ => t = taskId ∧ node = nodeId
      | _ => false
  | .advance index _ =>
    match s.calls[index]? with
    | some (.completing t _ _) => s.calls.all fun
        | .registering task _ => task.taskId ≠ t
        | _ => true
    | _ => true
  | _ => true

theorem answersAssignment_of_admits {s : State} {label : Label}
    (admitted : admitsRegistered s label = true) : AnswersAssignment s label := by
  cases label with
  | complete taskId nodeId result =>
    obtain ⟨event, member, about⟩ := List.any_eq_true.mp admitted
    cases event with
    | assigned t node message =>
      obtain ⟨rfl, rfl⟩ := of_decide_eq_true about
      exact ⟨message, member⟩
    | _ => cases about
  | _ => trivial

theorem registeredFirst_of_admits {s : State} {label : Label}
    (admitted : admitsRegistered s label = true) : RegisteredFirst s label := by
  cases label with
  | submit submission now => exact ⟨of_decide_eq_true (p := s.draws < 2 ^ 64) admitted, trivial⟩
  | advance index env =>
    refine ⟨trivial, ?_⟩
    rintro t nodeId result here ⟨task, node, member, same⟩
    simp only [admitsRegistered, here, List.all_eq_true] at admitted
    exact of_decide_eq_true (admitted _ member) same
  | _ => exact ⟨trivial, trivial⟩

/-- The steps of the scheduler and its nodes. -/
def deliveryPlayer : (delivery 3 300).Player Label :=
  (player 3 300 [taskIdOf 0]).restrict admitsRegistered fun _ _ => answersAssignment_of_admits

def registeredPlayer : ((delivery 3 300).restrict RegisteredFirst).Player Label :=
  deliveryPlayer.restrict admitsRegistered fun _ _ => registeredFirst_of_admits

theorem sent_reachable : ((delivery 3 300).restrict RegisteredFirst).Reachable sent := by
  have played : registeredPlayer.play (.initial 3 300)
      ([.submit sampleSubmission 0, .advance 0 (quietEnv []), .schedule sampleSenders] ++
        List.replicate 6 (.advance 1 sendingEnv)) = some sent := by
    with_unfolding_all rfl
  obtain ⟨labels, run⟩ := registeredPlayer.exec_play played
  exact ⟨_, labels, rfl, run⟩

def sampleResult : CommandResult := .succeeded .none

/-- The node's answer is about to be processed. -/
def answering (s : State) : State :=
  s.begin (.completing (taskIdOf 0) sampleNode.nodeId sampleResult)

/-- The task is registered before the answer is processed. -/
def registered : State :=
  sent.run 1 (.registering (sampleTask 0) sampleNode.nodeId) sendingEnv

theorem first_result_is_recorded_registered :
    FirstResult (answering registered) (taskIdOf 0) ∧
      ∃ record, record.status = .completed ∧ record.result = sampleResult ∧
        Phase 2 record ⟨taskIdOf 0, sampleNode.nodeId, sampleResult⟩
          ((answering registered).run 2
            (.completing (taskIdOf 0) sampleNode.nodeId sampleResult) (quietEnv [])) := by
  have first : FirstResult (answering registered) (taskIdOf 0) := by
    refine ⟨?_, ?_, ?_⟩ <;>
      simp [answering, registered, sent, holding, State.begin, State.run, Call.advance,
        oneWaiting, State.submit, State.initial, sampleAssignment]
  have played : registeredPlayer.play sent [.advance 1 sendingEnv,
      .complete (taskIdOf 0) sampleNode.nodeId sampleResult] = some (answering registered) := by
    with_unfolding_all rfl
  obtain ⟨labels, run⟩ := registeredPlayer.exec_play played
  have processed : ((delivery 3 300).restrict RegisteredFirst).Step (answering registered)
      (.advance 2 (quietEnv []))
      ((answering registered).run 2 (.completing (taskIdOf 0) sampleNode.nodeId sampleResult)
        (quietEnv [])) := by
    refine registeredPlayer.sound _ (.advance 2 (quietEnv [])) _ _ ?_
    with_unfolding_all rfl
  obtain ⟨record, -, status, same, phase, -⟩ :=
    first_result_is_recorded (sent_reachable.exec run) rfl first processed (.refl _)
  exact ⟨first, record, status, same, phase⟩

/-- The running task of the sample, started at time 0. -/
def sampleRunning : RunningTask :=
  ⟨taskIdOf 0, (sampleTask 0).command, (sampleTask 0).context, .normal, sampleNode.nodeId, 0,
    sent.scheduler.deadlineAt 0, 0⟩

/-- The record a later `check_timeouts` writes. -/
def sampleTimeout : CompletedTask :=
  finishRunning (taskIdOf 0) sampleRunning (seconds 301) .timeout timeoutResult

theorem lists_singleton {K V : Type*} [DecidableEq K] (k : K) (v : V) :
    HashMap.Lists (Finmap.insert k v (∅ : HashMap K V)) [(k, v)] :=
  HashMap.lists_empty.insert Finmap.notMem_empty v

def expiredEnv : Env := { quietEnv [] with now := seconds 301 }

/-- The node answers before the task is registered: the result is dropped, and
the only record the task ever gets is a timeout. -/
theorem first_result_is_lost :
    ∃ s s' u labels, (delivery 3 300).Reachable s ∧
      s.calls[2]? = some (.completing (taskIdOf 0) sampleNode.nodeId sampleResult) ∧
      FirstResult s (taskIdOf 0) ∧
      (delivery 3 300).Step s (.advance 2 (quietEnv [])) s' ∧
      (delivery 3 300).Exec s' labels u ∧
      u.calls[2]? = some (.done .processed) ∧
      u.scheduler.completedTasks.lookup (taskIdOf 0) = some sampleTimeout ∧
      sampleTimeout.status = .timeout ∧ sampleResult.success = true ∧
      ∀ record, .stored record ∈ u.log → record = sampleTimeout := by
  have answers : deliveryPlayer.play sent
      [.complete (taskIdOf 0) sampleNode.nodeId sampleResult] = some (answering sent) := by
    with_unfolding_all rfl
  have first : FirstResult (answering sent) (taskIdOf 0) := by
    refine ⟨?_, ?_, ?_⟩ <;>
      simp [answering, sent, holding, State.begin, State.run, Call.advance,
        oneWaiting, State.submit, State.initial, sampleAssignment]
  have dropped : (delivery 3 300).Step (answering sent) (.advance 2 (quietEnv []))
      ((answering sent).run 2 (.completing (taskIdOf 0) sampleNode.nodeId sampleResult)
        (quietEnv [])) :=
    ⟨trivial, .advance _ _ _ _ rfl rfl trivial⟩
  -- The call of the result returns, the task is registered, and a check finds it expired.
  let u := (deliveryPlayer.play ((answering sent).run 2
    (.completing (taskIdOf 0) sampleNode.nodeId sampleResult) (quietEnv []))
    [.advance 2 (quietEnv []), .advance 1 (quietEnv []), .checkTimeouts, .advance 3 expiredEnv,
      .advance 3 expiredEnv]).get (by with_unfolding_all rfl)
  obtain ⟨before, reached⟩ := deliveryPlayer.exec_play answers
  obtain ⟨labels, run⟩ := deliveryPlayer.exec_play (t := u) (Option.some_get _).symm
  have log : u.log = sent.log ++ [.processed (taskIdOf 0) sampleNode.nodeId,
      .settled (taskIdOf 0) .timeout, .stored sampleTimeout] := by
    with_unfolding_all rfl
  refine ⟨answering sent, _, u, labels, sent_reachable.of_restrict.exec reached, rfl, first,
    dropped, run, by with_unfolding_all rfl, by with_unfolding_all rfl, rfl, rfl, ?_⟩
  intro record member
  simpa [log, sent, holding, oneWaiting, State.run, Call.advance, State.submit, State.initial,
    sampleAssignment] using member

end UHorse.Hub.Scheduler
