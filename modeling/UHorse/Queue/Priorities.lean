import UHorse.Lib.StableOrder
import UHorse.Queue.Conservation

/-!
# The order of the tasks

Tasks are handed to their handlers in the order of the queue, whatever their priorities. The lock
of the queue is held while a handler runs, so that a handler that enqueues a task on the queue waits
for the call that waits for the handler.
-/

namespace UHorse.Queue

open UHorse.Lib UHorse.Protocol TaskQueue LockProgram

variable {T : Type}

/-- The task is due and has a handler. -/
def TaskQueue.hands (queue : TaskQueue T) (now : UInt64) (task : Task T) : Bool :=
  isDue now task && (queue.handlers.lookup task.taskType).isSome

/-- The positions of the tasks that are to be handed, in the order of the queue. -/
def TaskQueue.due (queue : TaskQueue T) (now : UInt64) : List Nat :=
  Positions.marked 0 (queue.pending.map (queue.hands now))

def TaskQueue.rankAt (queue : TaskQueue T) (position : Nat) : Nat :=
  queue.pending[position]?.elim 0 (·.priority.rank)

/-- The positions of the tasks that were handed, one after the other. -/
def handed (seen : List QueueEvent) : List Nat :=
  seen.filterMap fun
    | .handed position => some position
    | _ => none

/-- A queue that no call is at work on. -/
def idle (queue : TaskQueue T) : LockedQueue T := ⟨queue, fun _ => .free⟩

/-- The due tasks are handed by priority, equal ones as they were enqueued, and no handler waits. -/
structure HandsByPriority (queue : TaskQueue T) (now : UInt64) : Prop where
  ordered : ∀ trace count t, (processAt now).Runs (idle queue) trace count t →
    StablySorted queue.rankAt (queue.due now) (handed (events trace))
  prompt : ¬ (processAt now).CanBlock (idle queue)

/-- The handler enqueues tasks when it is given the task. -/
def TaskHandler.reenters (handler : TaskHandler T) (task : Task T) : Prop :=
  ∃ started, handler.enqueues (task.start started) ≠ []

/-! ## Handing -/

theorem Fate.spares_iff {queue : TaskQueue T} {now : UInt64} {task : Task T} {pass : Pass T}
    (fate : Fate queue.handlers now task pass) : (!pass.spares) = queue.hands now task := by
  cases fate with
  | early notDue => simp [Pass.spares, TaskQueue.hands, notDue]
  | unhandled due missing => simp [Pass.spares, TaskQueue.hands, missing]
  | attempted due found attempted =>
    cases attempted <;> simp [Pass.spares, TaskQueue.hands, due, found]

theorem handed_eventsFrom (first : Nat) (passes : List (Pass T)) :
    handed (Pass.eventsFrom first passes) =
      Positions.marked first (passes.map fun pass => !pass.spares) := by
  induction passes generalizing first with
  | nil => rfl
  | cons pass passes ih =>
    rw [Pass.eventsFrom, handed, List.filterMap_append, ← handed, ← handed, ih, List.map_cons]
    cases outcome : pass.outcome with
    | none => simp [Pass.events, Pass.spares, outcome, handed, Positions.marked]
    | some result => simp [Pass.events, Pass.spares, outcome, handed, Positions.marked]

/-- A call that returns has handed the tasks in the order of the queue. -/
theorem handed_of_runs {queue : TaskQueue T} {now : UInt64} {trace : QueueTrace T} {count : Nat}
    {t : LockedQueue T} (runs : (processAt now).Runs (idle queue) trace count t) :
    handed (events trace) = queue.due now := by
  obtain ⟨passes, swept⟩ := runs_processAt runs
  have marks : ∀ {tasks : List (Task T)} {passes : List (Pass T)},
      List.Forall₂ (Fate queue.handlers now) tasks passes →
        passes.map (fun pass => !pass.spares) = tasks.map (queue.hands now) := by
    intro tasks passes fates
    induction fates with
    | nil => rfl
    | cons fate _ ih => rw [List.map_cons, List.map_cons, ih, fate.spares_iff]
  rw [swept.events, handed, List.filterMap_append, ← handed, handed_eventsFrom, marks swept.fates]
  exact List.append_nil _

/-! ## Waiting -/

namespace TaskQueue

section Waiting

variable {s : LockedQueue T} {now : UInt64} {position : Nat} {task : Task T}
  {handler : TaskHandler T}

theorem canBlock_enqueueAll {tasks : List (Task T)} (held : (s.locks .pending).writer = true) :
    (enqueueAll tasks).CanBlock s ↔ tasks ≠ [] := by
  cases tasks with
  | nil => simp [enqueueAll, Program.CanBlock, pure]
  | cons task tasks =>
    refine iff_of_true ?_ (List.cons_ne_nil _ _)
    refine Program.canBlock_bind.mpr (.inl (Program.canBlock_bind.mpr (.inr ?_)))
    -- A task that is published is to be pushed, under the lock that is held.
    refine ⟨_, .ok (), s, runs_look.mpr ⟨⟨0, .ok ()⟩, rfl, rfl, rfl⟩, ?_⟩
    refine Program.canBlock_bind.mpr (.inl (Program.canBlock_bind.mpr (.inl ?_)))
    exact Program.canBlock_await.mpr (admits_of_writer held)

theorem canBlock_handle (held : (s.locks .pending).writer = true) :
    (handle handler position task).CanBlock s ↔ handler.enqueues task ≠ [] := by
  rw [← canBlock_enqueueAll held, handle, canBlock_look]
  constructor
  · rintro ⟨_, blocks⟩
    obtain inside | ⟨_, _, _, _, later⟩ := Program.canBlock_bind.mp blocks
    · exact inside
    · exact absurd later (Program.not_canBlock_update _ _ _)
  · intro inside
    exact ⟨default, Program.canBlock_bind.mpr (.inl inside)⟩

theorem canBlock_replace {α : Type} {note : QueueNote T} {change : QueueInput → Task T}
    {rest : Task T → Process T α} :
    (replace note position change >>= rest).CanBlock s ↔
      ∃ input, (rest (change input)).CanBlock (withTask s position (change input)) :=
  Program.canBlock_update_bind

theorem canBlock_attempt (held : (s.locks .pending).writer = true) :
    (attempt handler position task).CanBlock s ↔ handler.reenters task := by
  have held : ∀ task, ((withTask s position task).locks .pending).writer = true := fun _ => held
  rw [attempt, canBlock_replace]
  constructor
  · rintro ⟨input, blocks⟩
    refine ⟨input.now, ?_⟩
    obtain inside | ⟨_, outcome, u, -, later⟩ := Program.canBlock_bind.mp blocks
    · exact (canBlock_handle (held _)).mp inside
    · cases outcome with
      | ok done =>
        obtain ⟨_, never⟩ := canBlock_replace.mp later
        exact never.elim
      | error error =>
        obtain ⟨_, decides⟩ := canBlock_replace.mp later
        split at decides
        · obtain ⟨_, never⟩ := canBlock_replace.mp decides
          exact never.elim
        · exact decides.elim
  · rintro ⟨started, busy⟩
    refine ⟨⟨started, .ok ()⟩, Program.canBlock_bind.mpr (.inl ?_)⟩
    exact (canBlock_handle (held _)).mpr busy

/-- The task is due, and its handler enqueues tasks. -/
def waits (queue : TaskQueue T) (now : UInt64) (task : Task T) : Prop :=
  isDue now task = true ∧ ∃ handler,
    queue.handlers.lookup task.taskType = some handler ∧ handler.reenters task

theorem canBlock_examine (held : (s.locks .pending).writer = true)
    (free : (s.locks .handlers).admits .read = true)
    (here : s.data.pending[position]? = some task) :
    (examine now position).CanBlock s ↔ s.data.waits now task := by
  rw [examine, canBlock_look, here, waits]
  simp only [exists_const]
  split
  · next due =>
      rw [canBlock_within free, dispatch, canBlock_look, exists_const, eq_true due, true_and]
      have held' : ((s.taken QueueLock.handlers .read).locks .pending).writer = true := held
      have found : (s.taken QueueLock.handlers .read).data.handlers.lookup task.taskType =
          s.data.handlers.lookup task.taskType := rfl
      rw [found]
      cases s.data.handlers.lookup task.taskType with
      | none => simp [Program.CanBlock, pure]
      | some handler => simpa using canBlock_attempt held'
  · next early => simp [early, Program.CanBlock, pure]

theorem canBlock_visit (front : List (Task T)) {rest : List (Task T)} {toRemove : List Nat}
    {processed : Nat} (held : (s.locks .pending).writer = true)
    (free : (s.locks .handlers).admits .read = true)
    (here : s.data.pending = front ++ rest) :
    (visit now rest.length front.length toRemove processed).CanBlock s ↔
      ∃ task ∈ rest, s.data.waits now task := by
  induction rest generalizing front s toRemove processed with
  | nil => simp [visit, Program.CanBlock, pure]
  | cons task rest ih =>
    have first : s.data.pending[front.length]? = some task := by simp [here]
    rw [List.length_cons, visit, Program.canBlock_bind, canBlock_examine held free first,
      List.exists_mem_cons_iff]
    refine or_congr_right' ?_
    intro passes
    have later : ∀ (pass : Pass T) toRemove processed,
        (visit now rest.length (front.length + 1) toRemove processed).CanBlock
          (withTask s front.length pass.task) ↔ ∃ task ∈ rest, s.data.waits now task := by
      intro pass toRemove processed
      have replaced : (withTask s front.length pass.task).data.pending =
          (front ++ [pass.task]) ++ rest := by
        simp [withTask, here]
      have length : (front ++ [pass.task]).length = front.length + 1 := List.length_append
      rw [← length]
      exact ih _ held free replaced
    constructor
    · rintro ⟨_, _, _, runs, blocks⟩
      obtain ⟨pass, -, -, -, rfl⟩ := runs_examine runs held first
      exact (later pass _ _).mp blocks
    · intro waits
      have free := mt (canBlock_examine held free first).mp passes
      obtain ⟨trace, verdict, t, runs⟩ := Program.exists_runs free
      obtain ⟨pass, -, rfl, -, rfl⟩ := runs_examine runs held first
      exact ⟨trace, _, _, runs, (later pass _ _).mpr waits⟩

theorem canBlock_processAt {queue : TaskQueue T} :
    (processAt now).CanBlock (idle queue) ↔ ∃ task ∈ queue.pending, queue.waits now task := by
  rw [processAt, canBlock_within rfl, sweep, canBlock_look, exists_const, Program.canBlock_bind]
  have visits : (visit now queue.pending.length 0 [] 0).CanBlock
      ((idle queue).taken .pending .write) ↔ ∃ task ∈ queue.pending, queue.waits now task :=
    canBlock_visit [] rfl rfl rfl
  refine (or_iff_left ?_).trans visits
  rintro ⟨_, _, _, -, blocks⟩
  obtain ⟨_, never⟩ := Program.canBlock_update_bind.mp blocks
  exact never

end Waiting

end TaskQueue

/-- The due tasks are handed by priority, and no handler waits, exactly if they stand in the queue
in that order and none of their handlers enqueues a task. -/
theorem handsByPriority_iff (queue : TaskQueue T) (now : UInt64) :
    HandsByPriority queue now ↔
      (queue.due now).Pairwise (fun first second => queue.rankAt second ≤ queue.rankAt first) ∧
        ∀ task ∈ queue.pending, ¬ queue.waits now task := by
  have prompt : ¬ (processAt now).CanBlock (idle queue) ↔
      ∀ task ∈ queue.pending, ¬ queue.waits now task := by
    simpa using not_congr canBlock_processAt
  constructor
  · rintro ⟨ordered, free⟩
    obtain ⟨trace, count, t, runs⟩ := Program.exists_runs free
    have sorted := (ordered trace count t runs).descending
    rw [handed_of_runs runs] at sorted
    exact ⟨sorted, prompt.mp free⟩
  · rintro ⟨sorted, quiet⟩
    refine ⟨fun trace count t runs => ?_, prompt.mpr quiet⟩
    rw [handed_of_runs runs]
    exact ⟨List.Perm.refl _, sorted, fun _ => rfl⟩

/-- A critical task is handed after a task of low priority that was enqueued before it. -/
theorem critical_task_waits : ¬ ∀ (queue : TaskQueue Unit) (now : UInt64),
    HandsByPriority queue now := by
  intro always
  let mail (id : String) (priority : TaskPriority) : Task Unit :=
    (Task.new id "mail" () 1000).withPriority priority
  let queue : TaskQueue Unit :=
    ⟨[mail "task-1" .low, mail "task-2" .critical], Finmap.singleton "mail" ⟨fun _ => []⟩⟩
  have ran := (always queue 2000).ordered _ _ _ (Program.runs_of_runAlone
    (rfl : (processAt 2000).runAlone (List.replicate 20 ⟨2000, .ok ()⟩) (idle queue) = some _))
  have sorted := ran.descending
  exact absurd sorted (by decide)

end UHorse.Queue
