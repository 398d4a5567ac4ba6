import Mathlib.Algebra.Ring.Nat
import UHorse.Hub.Scheduler.Delivery

/-!
# Draining the queues

`dispatch_pending_tasks` calls `schedule_next` until a call places nothing. Here it
runs alone: the registry and the senders stay as they are and every send succeeds.

`schedule_next` looks at the front of each queue only. What is left of a queue is
therefore the queue from its first task that cannot be placed on, whatever stands
behind that task.
-/

namespace UHorse.Hub.Scheduler

open UHorse.Lib UHorse.Protocol TaskScheduler

/-- What the choice of nodes reads: the registry with the order its map iterates in, the
file system, the comparison of load scores and the senders. -/
structure View where
  manager : NodeManager
  order : List (NodeId × NodeInfo)
  listed : manager.nodes.Lists order
  fs : Unix.FileSystem
  scoreLe : LoadInfo → LoadInfo → Bool
  senders : Senders

namespace View

/-- The nodes `schedule_next` tries for a task, best first. -/
def nodesFor (view : View) (task : QueuedTask) : List NodeInfo :=
  candidates view.fs view.scoreLe view.senders task (reachableNodes view.manager view.order task)

def placeable (view : View) (task : QueuedTask) : Bool := !(view.nodesFor task).isEmpty

/-- Some registered node suits the task. -/
def Suitable (view : View) (task : QueuedTask) : Prop :=
  ∃ nodeId info, view.manager.nodes.lookup nodeId = some info ∧
    suits view.fs view.senders task info = true

end View

/-- The loop of `schedule_next` over the queues. Two readings of the clock enter the
record of the task that is placed. -/
def scheduleFrom (view : View) (now later : DateTime) :
    List Priority → TaskScheduler → TaskScheduler × Option ScheduledTask
  | [], scheduler => (scheduler, none)
  | queue :: queues, scheduler =>
    match scheduler.popPending queue with
    | none => scheduleFrom view now later queues scheduler
    | some (task, popped) =>
      match view.nodesFor task with
      | node :: _ =>
        (popped.insertRunning task node.nodeId now (popped.deadlineAt later),
          some ⟨task.taskId, node.nodeId, later⟩)
      | [] =>
        scheduleFrom view now later queues
          (popped.requeue queue (bumpRetry view.senders task))

def scheduleNext (view : View) (now later : DateTime) (scheduler : TaskScheduler) :
    TaskScheduler × Option ScheduledTask :=
  scheduleFrom view now later schedulingOrder scheduler

/-- A task without its retry counter, which no choice depends on. -/
def unretried (task : QueuedTask) : QueuedTask := { task with retryCount := 0 }

def waiting (scheduler : TaskScheduler) (queue : Priority) : List QueuedTask :=
  (scheduler.pendingTasks queue).map unretried

def pendingCount (scheduler : TaskScheduler) : Nat :=
  (schedulingOrder.map fun queue => (waiting scheduler queue).length).sum

section ScheduleNext

variable (view : View) {scheduler : TaskScheduler} {queue : Priority} {task : QueuedTask}

theorem unretried_bumpRetry (senders : Senders) :
    unretried (bumpRetry senders task) = unretried task := by
  rw [bumpRetry]
  split <;> rfl

theorem placeable_unretried : view.placeable (unretried task) = view.placeable task := rfl

theorem waiting_setQueue (tasks : List QueuedTask) :
    waiting (scheduler.setQueue queue tasks) =
      Function.update (waiting scheduler) queue (tasks.map unretried) := by
  funext other
  by_cases same : other = queue
  · subst same
    simp [waiting]
  · simp [waiting, Function.update_of_ne same]

/-- The task at the front was looked at and put back. -/
theorem waiting_putBack {rest : List QueuedTask}
    (front : scheduler.pendingTasks queue = task :: rest) (senders : Senders) :
    waiting ((scheduler.setQueue queue rest).requeue queue (bumpRetry senders task)) =
      waiting scheduler := by
  have same : waiting scheduler queue = unretried task :: rest.map unretried := by
    rw [waiting, front, List.map_cons]
  rw [requeue, waiting_setQueue, waiting_setQueue, Function.update_idem, List.map_cons,
    pendingTasks_setQueue, Function.update_self, unretried_bumpRetry, ← same,
    Function.update_eq_self]

/-- Nothing was placed and no front can be, or one front was placed. -/
theorem scheduleFrom_spec (now later : DateTime) (queues : List Priority)
    (scheduler : TaskScheduler) :
    ((scheduleFrom view now later queues scheduler).2 = none ∧
      waiting (scheduleFrom view now later queues scheduler).1 = waiting scheduler ∧
      ∀ queue ∈ queues, ∀ task ∈ (waiting scheduler queue).head?, view.placeable task = false) ∨
    ∃ placed queue task rest,
      (scheduleFrom view now later queues scheduler).2 = some placed ∧
      waiting scheduler queue = task :: rest ∧ view.placeable task = true ∧
      waiting (scheduleFrom view now later queues scheduler).1 =
        Function.update (waiting scheduler) queue rest := by
  induction queues generalizing scheduler with
  | nil => exact .inl ⟨rfl, rfl, by simp⟩
  | cons queue queues ih =>
    cases front : scheduler.pendingTasks queue with
    | nil =>
      have empty : waiting scheduler queue = [] := by simp [waiting, front]
      simp only [scheduleFrom, popPending, front]
      refine (ih scheduler).imp_left ?_
      rintro ⟨nothing, same, blocked⟩
      exact ⟨nothing, same, List.forall_mem_cons.mpr ⟨by simp [empty], blocked⟩⟩
    | cons task rest =>
      have first : waiting scheduler queue = unretried task :: rest.map unretried := by
        simp [waiting, front]
      simp only [scheduleFrom, popPending, front]
      cases nodes : view.nodesFor task with
      | nil =>
        have unplaceable : view.placeable (unretried task) = false := by
          rw [placeable_unretried, View.placeable, nodes]
          rfl
        have back := waiting_putBack front view.senders
        simp only [← back]
        refine (ih _).imp_left ?_
        rintro ⟨nothing, same, blocked⟩
        refine ⟨nothing, same, List.forall_mem_cons.mpr ⟨?_, blocked⟩⟩
        simp [back, first, unplaceable]
      | cons node others =>
        have placeable : view.placeable (unretried task) = true := by
          rw [placeable_unretried, View.placeable, nodes]
          rfl
        exact .inr ⟨_, queue, _, _, rfl, first, placeable, waiting_setQueue rest⟩

/-- A call that places a task leaves one fewer. -/
theorem pendingCount_scheduleNext {now later : DateTime} {scheduler' : TaskScheduler}
    {placed : ScheduledTask}
    (ran : scheduleNext view now later scheduler = (scheduler', some placed)) :
    pendingCount scheduler' < pendingCount scheduler := by
  obtain ⟨nothing, -, -⟩ | ⟨placed, queue, task, rest, -, front, -, after⟩ :=
    scheduleFrom_spec view now later schedulingOrder scheduler
  · rw [scheduleNext] at ran
    rw [ran] at nothing
    cases nothing
  · rw [scheduleNext] at ran
    rw [ran] at after
    simp only [pendingCount, after, schedulingOrder, List.map_cons, List.map_nil, List.sum_cons,
      List.sum_nil]
    cases queue <;> simp [Function.update_of_ne, front]

end ScheduleNext

/-- Every round reads the clock anew. -/
def dispatchPendingTasks (view : View) (clock : Nat → DateTime × DateTime) (round : Nat)
    (scheduler : TaskScheduler) : TaskScheduler :=
  if view.senders.keys = ∅ then scheduler
  else
    match ran : scheduleNext view (clock round).1 (clock round).2 scheduler with
    | (scheduler', some _) => dispatchPendingTasks view clock (round + 1) scheduler'
    | (scheduler', none) => scheduler'
termination_by pendingCount scheduler
decreasing_by exact pendingCount_scheduleNext view ran

section Dispatch

variable (view : View) (clock : Nat → DateTime × DateTime) {scheduler : TaskScheduler}

theorem placeable_iff {task : QueuedTask} :
    view.placeable task = true ↔ ∃ node ∈ reachableNodes view.manager view.order task,
      suits view.fs view.senders task node = true := by
  have empty : (view.nodesFor task).isEmpty = true ↔
      ∀ node ∈ reachableNodes view.manager view.order task,
        ¬ suits view.fs view.senders task node = true := by
    rw [List.isEmpty_iff, View.nodesFor, candidates, List.eq_nil_iff_forall_not_mem]
    simp only [List.mem_mergeSort, List.mem_filter, not_and]
  rw [View.placeable, Bool.not_eq_true', ← Bool.not_eq_true, empty]
  push Not
  rfl

/-- A node without sender is never tried. -/
theorem placeable_eq_false (silent : view.senders.keys = ∅) (task : QueuedTask) :
    view.placeable task = false := by
  rw [← Bool.not_eq_true, placeable_iff]
  rintro ⟨node, -, suited⟩
  have absent : node.nodeId ∉ view.senders := by
    rw [← Finmap.mem_keys, silent]
    exact Finset.notMem_empty _
  simp [suits, absent] at suited

/-- What is left of a queue begins with its first task that cannot be placed. -/
theorem waiting_dispatchPendingTasks (round : Nat) (scheduler : TaskScheduler)
    (queue : Priority) :
    waiting (dispatchPendingTasks view clock round scheduler) queue =
      (waiting scheduler queue).dropWhile view.placeable := by
  fun_induction dispatchPendingTasks view clock round scheduler with
  | case1 round scheduler silent =>
    have stuck : view.placeable = fun _ => false := funext (placeable_eq_false view silent)
    rw [stuck]
    cases waiting scheduler queue <;> rfl
  | case2 round scheduler reachable scheduler' placed ran ih =>
    rw [scheduleNext] at ran
    obtain ⟨nothing, -, -⟩ | ⟨-, other, task, rest, -, front, placeable, after⟩ :=
      scheduleFrom_spec view (clock round).1 (clock round).2 schedulingOrder scheduler
    · rw [ran] at nothing
      cases nothing
    · rw [ran] at after
      rw [ih, after]
      by_cases same : queue = other
      · subst same
        rw [Function.update_self, front, List.dropWhile_cons_of_pos placeable]
      · rw [Function.update_of_ne same]
  | case3 round scheduler reachable scheduler' ran =>
    rw [scheduleNext] at ran
    obtain ⟨-, same, blocked⟩ | ⟨placed, -, -, -, something, -⟩ :=
      scheduleFrom_spec view (clock round).1 (clock round).2 schedulingOrder scheduler
    · rw [ran] at same
      rw [same]
      have stuck := blocked queue (mem_schedulingOrder queue)
      cases front : waiting scheduler queue with
      | nil => rfl
      | cons task rest =>
        have unplaceable : view.placeable task = false := stuck task (by simp [front])
        rw [List.dropWhile_cons_of_neg (by simp [unplaceable])]
    · rw [ran] at something
      cases something

/-- Every task that some node suits is one the code finds a node for, and so is every
task in front of it. -/
def Unobstructed (scheduler : TaskScheduler) : Prop :=
  ∀ queue before task after, scheduler.pendingTasks queue = before ++ task :: after →
    view.Suitable task → ∀ ahead ∈ before ++ [task], view.placeable ahead = true

theorem mem_dropWhile_iff {α : Type} {p : α → Bool} {xs : List α} {x : α} :
    x ∈ xs.dropWhile p ↔ ∃ before after, xs = before ++ x :: after ∧
      ∃ y ∈ before ++ [x], p y = false := by
  induction xs with
  | nil => simp
  | cons y ys ih =>
    cases holds : p y with
    | true =>
      rw [List.dropWhile_cons_of_pos holds, ih]
      constructor
      · rintro ⟨before, after, rfl, z, member, fails⟩
        exact ⟨y :: before, after, rfl, z, List.mem_cons_of_mem _ member, fails⟩
      · rintro ⟨before, after, split, z, member, fails⟩
        cases before with
        | nil =>
          cases split
          rw [List.mem_singleton.mp member, holds] at fails
          cases fails
        | cons first before =>
          cases split
          obtain rfl | later := List.mem_cons.mp member
          · rw [holds] at fails
            cases fails
          · exact ⟨before, after, rfl, z, later, fails⟩
    | false =>
      rw [List.dropWhile_cons_of_neg (by simp [holds])]
      constructor
      · intro member
        obtain ⟨before, after, split⟩ := List.append_of_mem member
        refine ⟨before, after, split, y, ?_, holds⟩
        cases before with
        | nil =>
          cases split
          exact List.mem_singleton_self _
        | cons first before =>
          cases split
          exact List.mem_cons_self
      · rintro ⟨before, after, split, -⟩
        rw [split]
        exact List.mem_append_right _ List.mem_cons_self

/-- The tasks that are left, with the retry counters they had before. -/
theorem suitable_left_iff (round : Nat) (queue : Priority) :
    (∀ task ∈ (dispatchPendingTasks view clock round scheduler).pendingTasks queue,
      ¬ view.Suitable task) ↔
    ∀ task ∈ (scheduler.pendingTasks queue).dropWhile view.placeable, ¬ view.Suitable task := by
  have forget : ∀ tasks : List QueuedTask, (∀ task ∈ tasks.map unretried, ¬ view.Suitable task) ↔
      ∀ task ∈ tasks, ¬ view.Suitable task := by
    intro tasks
    rw [List.forall_mem_map]
    rfl
  have left := waiting_dispatchPendingTasks view clock round scheduler queue
  rw [waiting, waiting, List.dropWhile_map] at left
  rw [← forget, left, forget]
  rfl

/-- When `dispatch_pending_tasks` returns, no task is left that some registered online
node with a sender suits, exactly if no such task was hidden. -/
theorem dispatchPendingTasks_conserves_work_iff (round : Nat) :
    (∀ queue, ∀ task ∈ (dispatchPendingTasks view clock round scheduler).pendingTasks queue,
      ¬ view.Suitable task) ↔ Unobstructed view scheduler := by
  simp only [suitable_left_iff, mem_dropWhile_iff]
  constructor
  · intro none queue before task after split suitable ahead member
    by_contra unplaceable
    refine none queue task ⟨before, after, split, ahead, member, ?_⟩ suitable
    exact Bool.eq_false_of_not_eq_true unplaceable
  · rintro unobstructed queue task ⟨before, after, split, ahead, member, unplaceable⟩ suitable
    have placeable := unobstructed queue before task after split suitable ahead member
    rw [unplaceable] at placeable
    cases placeable

end Dispatch

/-- One online node without tags, with a sender. -/
def oneNode : View where
  manager := { NodeManager.new 10 30 with nodes := Finmap.insert sampleNode.nodeId sampleNode ∅ }
  order := [(sampleNode.nodeId, sampleNode)]
  listed := lists_singleton sampleNode.nodeId sampleNode
  fs := sampleFileSystem
  scoreLe := fun _ _ => true
  senders := sampleSenders

/-- A task that no node can take, and behind it one that the node could take. -/
def hiddenTask : TaskScheduler :=
  (TaskScheduler.new 3 300).setQueue .normal
    [{ sampleTask 0 with requiredTags := ["gpu"] }, sampleTask 1]

theorem dispatchPendingTasks_leaves_suitable :
    ∃ task ∈ (dispatchPendingTasks oneNode (fun _ => (0, 0)) 0 hiddenTask).pendingTasks .normal,
      oneNode.Suitable task := by
  have stuck : oneNode.placeable { sampleTask 0 with requiredTags := ["gpu"] } = false := by
    decide +kernel
  have suitable : oneNode.Suitable (sampleTask 1) := by
    refine ⟨sampleNode.nodeId, sampleNode, Finmap.lookup_insert _, ?_⟩
    decide
  have hidden : sampleTask 1 ∈ (hiddenTask.pendingTasks .normal).dropWhile oneNode.placeable := by
    simp [hiddenTask, stuck]
  by_contra none
  have absent := (suitable_left_iff oneNode (fun _ => (0, 0)) 0 .normal).mp
    (fun task member suits => none ⟨task, member, suits⟩)
  exact absent (sampleTask 1) hidden suitable

end UHorse.Hub.Scheduler
