import UHorse.Hub.Scheduler.Delivery

/-!
# The order of dispatch

A queue is a list: submissions join at the end, `schedule_next` takes the front and
puts a task it cannot place back to the front. The task is in no queue in between,
so calls that hold tasks of one queue at the same time can overtake each other.

`Dispatch` observes the submissions and assignments of each kind of task and which
calls hold tasks of that kind. If calls that hold tasks of one kind assign them in
the order in which they took them, and put them back in the reverse order, the
assignments of a kind are a subsequence of its submissions.
-/

namespace UHorse.Hub.Scheduler

open UHorse.Lib UHorse.Protocol TaskScheduler

/-- What the choice of a node depends on, with the queue the task waits in. -/
structure Kind where
  queue : Priority
  requiredCapabilities : Option NodeCapabilities
  requiredTags : List String
  workspaceHint : Option String
  executionWorkspaceId : Option String
deriving DecidableEq

def kindOf (queue : Priority) (task : QueuedTask) : Kind where
  queue := queue
  requiredCapabilities := task.requiredCapabilities
  requiredTags := task.requiredTags
  workspaceHint := task.workspaceHint
  executionWorkspaceId := task.context.executionWorkspaceId

/-- For each kind the ids pushed and assigned, in order, and the calls that hold a task
of it, the earliest first. -/
structure Dispatch where
  submitted : Kind → List TaskId
  assigned : Kind → List TaskId
  taken : Kind → List (Nat × TaskId)

namespace Dispatch

def none : Dispatch := ⟨fun _ => [], fun _ => [], fun _ => []⟩

def submit (d : Dispatch) (kind : Kind) (t : TaskId) : Dispatch :=
  { d with submitted := Function.update d.submitted kind (d.submitted kind ++ [t]) }

def take (d : Dispatch) (kind : Kind) (index : Nat) (t : TaskId) : Dispatch :=
  { d with taken := Function.update d.taken kind (d.taken kind ++ [(index, t)]) }

def release (d : Dispatch) (kind : Kind) (index : Nat) : Dispatch :=
  let others := (d.taken kind).filter fun entry => entry.1 ≠ index
  { d with taken := Function.update d.taken kind others }

def assign (d : Dispatch) (kind : Kind) (index : Nat) (t : TaskId) : Dispatch :=
  { d.release kind index with
    assigned := Function.update d.assigned kind (d.assigned kind ++ [t]) }

end Dispatch

/-- What a section of a call shows. -/
def Call.watch (d : Dispatch) (scheduler : TaskScheduler) (index : Nat) (env : Env) :
    Call → Dispatch
  | .pushing task => d.submit (kindOf task.priority task) task.taskId
  | .scheduling _ (queue :: _) =>
    match scheduler.pendingTasks queue with
    | task :: _ => d.take (kindOf queue task) index task.taskId
    | [] => d
  | .placing _ queue _ task [] => d.release (kindOf queue task) index
  | .placing _ queue _ task (_ :: _) =>
    if env.delivered then d.assign (kindOf queue task) index task.taskId else d
  | _ => d

def watch (d : Dispatch) (s : State) : Label → Dispatch
  | .advance index env =>
    match s.calls[index]? with
    | some call => call.watch d s.scheduler index env
    | none => d
  | _ => d

def watched (maxRetries taskTimeoutSecs : Nat) : System (State × Dispatch) Label :=
  (system maxRetries taskTimeoutSecs).observe .none watch

/-- A task is assigned by the call that took the earliest task of its kind, and put back
by the one that took the latest. -/
def Call.InTurn (d : Dispatch) (index : Nat) (env : Env) : Call → Prop
  | .placing _ queue _ task [] =>
    (d.taken (kindOf queue task)).getLast? = some (index, task.taskId)
  | .placing _ queue _ task (_ :: _) =>
    env.delivered = true → (d.taken (kindOf queue task)).head? = some (index, task.taskId)
  | _ => True

def InTurn (s : State × Dispatch) : Label → Prop
  | .advance index env => ∀ call, s.1.calls[index]? = some call → call.InTurn s.2 index env
  | _ => True

/-- The kind and the id of the task a call has taken and not yet assigned. -/
def Call.taken : Call → Option (Kind × TaskId)
  | .selecting _ queue _ task => some (kindOf queue task, task.taskId)
  | .placing _ queue _ task _ => some (kindOf queue task, task.taskId)
  | _ => Option.none

/-- The id of a task, if it is of the kind. -/
def idOf (kind : Kind) (queue : Priority) (task : QueuedTask) : List TaskId :=
  if kindOf queue task = kind then [task.taskId] else []

def waitingIds (scheduler : TaskScheduler) (kind : Kind) : List TaskId :=
  (scheduler.pendingTasks kind.queue).flatMap (idOf kind kind.queue)

/-- Assigned, held and waiting tasks of a kind, in this order, are a subsequence of the
submissions, and the observation knows which calls hold tasks. -/
structure InOrder (scheduler : TaskScheduler) (calls : List Call) (d : Dispatch) : Prop where
  order : ∀ kind, List.Sublist
    (d.assigned kind ++ (d.taken kind).map Prod.snd ++ waitingIds scheduler kind)
    (d.submitted kind)
  holders : ∀ kind index t, (index, t) ∈ d.taken kind ↔
    calls[index]?.bind Call.taken = some (kind, t)
  distinct : ∀ kind, ((d.taken kind).map Prod.fst).Nodup

section WaitingIds

variable {scheduler : TaskScheduler} {kind : Kind} {queue : Priority} {task : QueuedTask}

theorem idOf_of_ne (other : kind.queue ≠ queue) : idOf kind queue task = [] := by
  rw [idOf, if_neg]
  rintro rfl
  exact other rfl

theorem waitingIds_setQueue_of_ne (other : kind.queue ≠ queue) (tasks : List QueuedTask) :
    waitingIds (scheduler.setQueue queue tasks) kind = waitingIds scheduler kind := by
  rw [waitingIds, pendingTasks_setQueue, Function.update_of_ne other, waitingIds]

theorem waitingIds_pushPending :
    waitingIds (scheduler.pushPending task) kind =
      waitingIds scheduler kind ++ idOf kind task.priority task := by
  by_cases same : kind.queue = task.priority
  · simp [waitingIds, pushPending, same]
  · rw [pushPending, waitingIds_setQueue_of_ne same, idOf_of_ne same, List.append_nil]

theorem waitingIds_requeue :
    waitingIds (scheduler.requeue queue task) kind =
      idOf kind queue task ++ waitingIds scheduler kind := by
  by_cases same : kind.queue = queue
  · simp [waitingIds, requeue, same]
  · rw [requeue, waitingIds_setQueue_of_ne same, idOf_of_ne same, List.nil_append]

theorem waitingIds_of_front {rest : List QueuedTask}
    (front : scheduler.pendingTasks queue = task :: rest) :
    waitingIds scheduler kind =
      idOf kind queue task ++ waitingIds (scheduler.setQueue queue rest) kind := by
  have back : (scheduler.setQueue queue rest).requeue queue task = scheduler := by
    simp [requeue, setQueue, ← front]
  rw [← waitingIds_requeue, back]

theorem kindOf_bumpRetry (senders : Senders) :
    kindOf queue (bumpRetry senders task) = kindOf queue task := by
  rw [bumpRetry]
  split <;> rfl

end WaitingIds

section Entries

variable {α : Type} {index : Nat} {t : α}

/-- Removing the only entry with a number. -/
theorem filter_ne_of_split {before after : List (Nat × α)}
    (distinct : ((before ++ (index, t) :: after).map Prod.fst).Nodup) :
    (before ++ (index, t) :: after).filter (fun entry => entry.1 ≠ index) = before ++ after := by
  rw [List.map_append, List.map_cons, List.nodup_middle, List.nodup_cons] at distinct
  have others : ∀ entry ∈ before ++ after, entry.1 ≠ index := by
    intro entry member same
    apply distinct.1
    rw [← List.map_append]
    exact List.mem_map.mpr ⟨entry, member, same⟩
  rw [List.filter_append, List.filter_cons_of_neg (by simp), ← List.filter_append,
    List.filter_eq_self]
  intro entry member
  exact decide_eq_true (others entry member)

end Entries

namespace InOrder

variable {scheduler scheduler' : TaskScheduler} {calls : List Call} {d : Dispatch} {index : Nat}
  {call call' : Call}

theorem initial (maxRetries taskTimeoutSecs : Nat) :
    InOrder (.new maxRetries taskTimeoutSecs) [] .none where
  order _ := List.Sublist.refl _
  holders kind index t := by simp [Dispatch.none]
  distinct _ := List.nodup_nil

/-- A call joins that holds nothing. -/
theorem begin (inOrder : InOrder scheduler calls d)
    (queues : scheduler'.pendingTasks = scheduler.pendingTasks) (empty : call.taken = .none) :
    InOrder scheduler' (calls ++ [call]) d := by
  refine ⟨?_, ?_, inOrder.distinct⟩
  · intro kind
    rw [waitingIds, queues]
    exact inOrder.order kind
  · intro kind other t
    rw [inOrder.holders, List.getElem?_append]
    split
    · rfl
    · next beyond =>
        rw [List.getElem?_eq_none (by omega)]
        cases other - calls.length with
        | zero => simp [empty]
        | succ n => simp

theorem bind_taken_set (here : calls[index]? = some call) (other : Nat) :
    (calls.set index call')[other]?.bind Call.taken =
      if other = index then call'.taken else calls[other]?.bind Call.taken := by
  have inside : index < calls.length := (List.getElem?_eq_some_iff.mp here).1
  rw [List.getElem?_set]
  by_cases same : index = other
  · subst same
    simp [inside]
  · rw [if_neg same, if_neg (Ne.symm same)]

/-- The queues shrink, and the call keeps what it holds. -/
theorem quiet (inOrder : InOrder scheduler calls d) (here : calls[index]? = some call)
    (queues : ∀ queue, (scheduler'.pendingTasks queue).Sublist (scheduler.pendingTasks queue))
    (same : call'.taken = call.taken) : InOrder scheduler' (calls.set index call') d := by
  refine ⟨?_, ?_, inOrder.distinct⟩
  · intro kind
    have fewer : (waitingIds scheduler' kind).Sublist (waitingIds scheduler kind) :=
      (queues kind.queue).flatMap _
    exact ((List.Sublist.refl _).append fewer).trans (inOrder.order kind)
  · intro kind other t
    rw [inOrder.holders, bind_taken_set here]
    split
    · next equal => rw [equal, here, Option.bind_some, same]
    · rfl

/-- Submissions of a kind grow by the id of a task if it is of that kind. -/
theorem submitted_submit (kind other : Kind) (t : TaskId) :
    (d.submit kind t).submitted other =
      d.submitted other ++ if kind = other then [t] else [] := by
  by_cases same : other = kind
  · subst same
    simp [Dispatch.submit]
  · simp [Dispatch.submit, Function.update_of_ne same, Ne.symm same]

theorem taken_take (kind other : Kind) (t : TaskId) :
    (d.take kind index t).taken other =
      d.taken other ++ if kind = other then [(index, t)] else [] := by
  by_cases same : other = kind
  · subst same
    simp [Dispatch.take]
  · simp [Dispatch.take, Function.update_of_ne same, Ne.symm same]

variable {task : QueuedTask} {senders : Senders} {queue : Priority} {queues : List Priority}

theorem push (inOrder : InOrder scheduler calls d) {outcome : Outcome}
    (here : calls[index]? = some (.pushing task)) :
    InOrder (scheduler.pushPending task) (calls.set index (.done outcome))
      (d.submit (kindOf task.priority task) task.taskId) := by
  refine ⟨?_, ?_, inOrder.distinct⟩
  · intro kind
    rw [waitingIds_pushPending, submitted_submit, ← List.append_assoc]
    exact (inOrder.order kind).append (List.Sublist.refl _)
  · intro kind other t
    refine (inOrder.holders kind other t).trans ?_
    rw [bind_taken_set here]
    split
    · next equal => simp [equal, here, Call.taken]
    · rfl

theorem take (inOrder : InOrder scheduler calls d) {rest : List QueuedTask}
    (here : calls[index]? = some (.scheduling senders (queue :: queues)))
    (front : scheduler.pendingTasks queue = task :: rest) :
    InOrder (scheduler.setQueue queue rest)
      (calls.set index (.selecting senders queue queues task))
      (d.take (kindOf queue task) index task.taskId) := by
  have free : ∀ kind t, (index, t) ∉ d.taken kind := by
    intro kind t held
    have holds := (inOrder.holders kind index t).mp held
    rw [here] at holds
    cases holds
  refine ⟨?_, ?_, ?_⟩
  · intro kind
    have before := inOrder.order kind
    rw [waitingIds_of_front front] at before
    rw [taken_take]
    by_cases same : kindOf queue task = kind
    · simpa [idOf, same, Dispatch.take] using before
    · simpa [idOf, same, Dispatch.take] using before
  · intro kind number t
    rw [bind_taken_set here, taken_take, List.mem_append, inOrder.holders]
    by_cases equal : number = index
    · subst equal
      by_cases same : kindOf queue task = kind
      · simp [here, Call.taken, same, eq_comm]
      · simp [here, Call.taken, same]
    · by_cases same : kindOf queue task = kind
      · simp [same, equal]
      · simp [same, equal]
  · intro kind
    rw [taken_take]
    split
    · rw [List.map_append, List.map_singleton, List.nodup_append]
      refine ⟨inOrder.distinct kind, List.nodup_singleton _, ?_⟩
      intro number held last member equal
      obtain ⟨⟨number, t⟩, inside, rfl⟩ := List.mem_map.mp held
      cases equal.trans (List.mem_singleton.mp member)
      exact free kind t inside
    · simpa using inOrder.distinct kind

/-- The call at `index` no longer holds its task. -/
theorem holders_release (inOrder : InOrder scheduler calls d) {kind : Kind} {t : TaskId}
    (here : calls[index]? = some call) (held : call.taken = some (kind, t))
    (empty : call'.taken = .none) (other : Kind) (number : Nat) (u : TaskId) :
    (number, u) ∈ (d.release kind index).taken other ↔
      (calls.set index call')[number]?.bind Call.taken = some (other, u) := by
  rw [bind_taken_set here]
  by_cases same : other = kind
  · subst same
    simp only [Dispatch.release, Function.update_self, List.mem_filter, decide_eq_true_eq]
    split
    · next equal => simp [equal, empty]
    · next distinct => simp [distinct, inOrder.holders]
  · simp only [Dispatch.release, Function.update_of_ne same, inOrder.holders]
    split
    · next equal =>
        subst equal
        simp [here, held, empty, Ne.symm same]
    · rfl

theorem distinct_release (inOrder : InOrder scheduler calls d) (kind other : Kind) :
    (((d.release kind index).taken other).map Prod.fst).Nodup := by
  by_cases same : other = kind
  · subst same
    simp only [Dispatch.release, Function.update_self]
    exact (inOrder.distinct other).sublist (List.filter_sublist.map _)
  · simpa only [Dispatch.release, Function.update_of_ne same] using inOrder.distinct other

/-- Only the entry of the call itself is removed. -/
theorem taken_release (inOrder : InOrder scheduler calls d) {kind : Kind} {t : TaskId}
    {before after : List (Nat × TaskId)} (entries : d.taken kind = before ++ (index, t) :: after) :
    (d.release kind index).taken kind = before ++ after := by
  have distinct := inOrder.distinct kind
  rw [entries] at distinct
  simp only [Dispatch.release, Function.update_self, entries]
  exact filter_ne_of_split distinct

theorem putBack (inOrder : InOrder scheduler calls d)
    (here : calls[index]? = some (.placing senders queue queues task []))
    (last : (d.taken (kindOf queue task)).getLast? = some (index, task.taskId)) :
    InOrder (scheduler.requeue queue (bumpRetry senders task))
      (calls.set index (.scheduling senders queues)) (d.release (kindOf queue task) index) := by
  obtain ⟨entries, split⟩ := List.getLast?_eq_some_iff.mp last
  refine ⟨?_, inOrder.holders_release here rfl rfl, inOrder.distinct_release _⟩
  intro kind
  have before := inOrder.order kind
  rw [waitingIds_requeue, idOf, kindOf_bumpRetry, bumpRetry_taskId]
  by_cases same : kind = kindOf queue task
  · subst same
    rw [inOrder.taken_release split, if_pos rfl]
    rw [split] at before
    simpa [Dispatch.release] using before
  · simpa [Dispatch.release, Function.update_of_ne same, Ne.symm same] using before

theorem assign (inOrder : InOrder scheduler calls d) {node : NodeInfo} {nodes : List NodeInfo}
    (here : calls[index]? = some (.placing senders queue queues task (node :: nodes)))
    (first : (d.taken (kindOf queue task)).head? = some (index, task.taskId)) :
    InOrder scheduler (calls.set index (.registering task node.nodeId))
      (d.assign (kindOf queue task) index task.taskId) := by
  obtain ⟨entries, split⟩ := List.head?_eq_some_iff.mp first
  refine ⟨?_, inOrder.holders_release here rfl rfl, inOrder.distinct_release _⟩
  intro kind
  have before := inOrder.order kind
  by_cases same : kind = kindOf queue task
  · subst same
    have rest : (d.release (kindOf queue task) index).taken (kindOf queue task) = [] ++ entries :=
      inOrder.taken_release split
    rw [List.nil_append] at rest
    have same : (d.release (kindOf queue task) index).submitted = d.submitted := rfl
    rw [split] at before
    simpa [Dispatch.assign, rest, same] using before
  · simpa [Dispatch.assign, Dispatch.release, Function.update_of_ne same] using before

/-- A section of a call in its turn. -/
theorem advance (inOrder : InOrder scheduler calls d) {env : Env} {events : List Event}
    (here : calls[index]? = some call) (turn : call.InTurn d index env)
    (ran : Section env scheduler call scheduler' call' events) :
    InOrder scheduler' (calls.set index call') (call.watch d scheduler index env) := by
  have same : ∀ queue, (scheduler.pendingTasks queue).Sublist (scheduler.pendingTasks queue) :=
    fun _ => List.Sublist.refl _
  cases ran with
  | push task => exact inOrder.push here
  | skip empty =>
    simp only [Call.watch, empty]
    exact inOrder.quiet here same rfl
  | pop front =>
    simp only [Call.watch, front]
    exact inOrder.take here front
  | giveUp senders queue queues task => exact inOrder.putBack here turn
  | refused senders queue queues task node nodes failed =>
    simp only [Call.watch, failed]
    exact inOrder.quiet here same rfl
  | send senders queue queues task node nodes sent =>
    simp only [Call.watch, sent]
    exact inOrder.assign here (turn sent)
  | @cancelQueued taskId queued queue before after found contents =>
    refine inOrder.quiet here ?_ rfl
    intro other
    rw [pendingTasks_setQueue]
    by_cases equal : other = queue
    · subst equal
      rw [Function.update_self, contents]
      exact (List.Sublist.refl _).append (List.sublist_cons_self _ _)
    · rw [Function.update_of_ne equal]
  | store completed notice resume =>
    refine inOrder.quiet here ?_ rfl
    intro queue
    rw [(storeCompletedTask_queues scheduler completed env.completedOrder).1]
  | notify notice resume =>
    refine inOrder.quiet here same ?_
    cases resume <;> rfl
  | _ => exact inOrder.quiet here same rfl

theorem step {s s' : State × Dispatch} {label : Label} {maxRetries taskTimeoutSecs : Nat}
    (inOrder : InOrder s.1.scheduler s.1.calls s.2)
    (taken : ((watched maxRetries taskTimeoutSecs).restrict InTurn).Step s label s') :
    InOrder s'.1.scheduler s'.1.calls s'.2 := by
  obtain ⟨turn, step, seen⟩ := taken
  obtain ⟨s, d⟩ := s
  obtain ⟨s', d'⟩ := s'
  obtain rfl : d' = watch d s label := seen
  cases step with
  | advance index call env here unfinished fits =>
    have moved := inOrder.advance here (turn call here) (advance_section unfinished fits)
    have shown : watch d s (.advance index env) = call.watch d s.scheduler index env := by
      simp only [watch, here]
    rw [shown]
    exact moved
  | _ => exact inOrder.begin rfl rfl

theorem of_reachable {s : State × Dispatch} {maxRetries taskTimeoutSecs : Nat}
    (reached : ((watched maxRetries taskTimeoutSecs).restrict InTurn).Reachable s) :
    InOrder s.1.scheduler s.1.calls s.2 := by
  refine reached.invariant (P := fun s => InOrder s.1.scheduler s.1.calls s.2) ?_ ?_
  · rintro ⟨s, d⟩ ⟨start, seen⟩
    obtain rfl : s = .initial maxRetries taskTimeoutSecs := start
    obtain rfl : d = .none := seen
    exact .initial maxRetries taskTimeoutSecs
  · intro s label s' inOrder taken
    exact inOrder.step taken

end InOrder

/-- Tasks of one kind are assigned in the order in which they were submitted, and no task
is assigned while one of its kind that was submitted earlier is still waiting. -/
theorem assigned_in_submission_order {s : State × Dispatch} {maxRetries taskTimeoutSecs : Nat}
    (reached : ((watched maxRetries taskTimeoutSecs).restrict InTurn).Reachable s) (kind : Kind) :
    (s.2.assigned kind ++ waitingIds s.1.scheduler kind).Sublist (s.2.submitted kind) := by
  have order := (InOrder.of_reachable reached).order kind
  rw [List.append_assoc] at order
  have dropped := (List.Sublist.refl (s.2.assigned kind)).append
    (List.sublist_append_right ((s.2.taken kind).map Prod.snd) (waitingIds s.1.scheduler kind))
  exact dropped.trans order

/-! ## Two calls that hold one task each -/

instance (d : Dispatch) (index : Nat) (env : Env) (call : Call) :
    Decidable (call.InTurn d index env) :=
  match call with
  | .placing _ _ _ _ [] => inferInstanceAs (Decidable (_ = _))
  | .placing _ _ _ _ (_ :: _) => inferInstanceAs (Decidable (_ → _))
  | .pushing _ | .scheduling _ _ | .selecting _ _ _ _ | .registering _ _ | .completing _ _ _
  | .ignoring _ | .cancelling _ | .cancellingRunning _ | .checking | .timingOut _ _ _
  | .storing _ _ _ | .notifying _ _ | .statusRunning _ | .statusCompleted _ | .statusPending _
  | .done _ => inferInstanceAs (Decidable True)

instance (s : State × Dispatch) (label : Label) : Decidable (InTurn s label) :=
  match label with
  | .advance index env =>
    inferInstanceAs (Decidable (∀ call ∈ s.1.calls[index]?, call.InTurn s.2 index env))
  | .submit _ _ | .schedule _ | .complete _ _ _ | .cancel _ | .checkTimeouts | .getStatus _ =>
    inferInstanceAs (Decidable True)

def watchedPlayer : (watched 3 300).Player Label :=
  (player 3 300 []).observe Dispatch.none watch

/-- Two equal submissions are pushed and taken by two calls, each with the one node to try. -/
def twoHeld : List Label :=
  [.submit sampleSubmission 0, .advance 0 sendingEnv,
    .submit sampleSubmission 0, .advance 1 sendingEnv,
    .schedule sampleSenders, .schedule sampleSenders] ++
    List.replicate 5 (.advance 2 sendingEnv) ++ List.replicate 5 (.advance 3 sendingEnv)

def sampleKind : Kind := kindOf .normal (sampleTask 0)

def beginning : State × Dispatch := (.initial 3 300, .none)

theorem assigned_in_submission_order_sample :
    ∃ s, ((watched 3 300).restrict InTurn).Reachable s ∧
      s.2.submitted sampleKind = [taskIdOf 0, taskIdOf 1] ∧
      s.2.assigned sampleKind = [taskIdOf 0, taskIdOf 1] ∧
      (s.2.assigned sampleKind ++ waitingIds s.1.scheduler sampleKind).Sublist
        (s.2.submitted sampleKind) := by
  obtain ⟨s, reached, submitted, assigned⟩ := (watchedPlayer.restrict (decide <| InTurn · ·)
    fun _ _ => of_decide_eq_true).exists_reachable (s := beginning) (.init ⟨rfl, rfl⟩)
    (twoHeld ++ [.advance 2 sendingEnv, .advance 3 sendingEnv])
    (fun s => s.2.submitted sampleKind = [taskIdOf 0, taskIdOf 1] ∧
      s.2.assigned sampleKind = [taskIdOf 0, taskIdOf 1]) (by decide +kernel)
  exact ⟨s, reached, submitted, assigned, assigned_in_submission_order reached sampleKind⟩

/-- The call that took the second task sends it first. -/
theorem assigned_out_of_order :
    ∃ s, (watched 3 300).Reachable s ∧
      s.2.submitted sampleKind = [taskIdOf 0, taskIdOf 1] ∧
      s.2.assigned sampleKind = [taskIdOf 1, taskIdOf 0] := by
  exact watchedPlayer.exists_reachable (s := beginning) (.init ⟨rfl, rfl⟩)
    (twoHeld ++ [.advance 3 sendingEnv, .advance 2 sendingEnv])
    (fun s => s.2.submitted sampleKind = [taskIdOf 0, taskIdOf 1] ∧
      s.2.assigned sampleKind = [taskIdOf 1, taskIdOf 0]) (by decide +kernel)

end UHorse.Hub.Scheduler
