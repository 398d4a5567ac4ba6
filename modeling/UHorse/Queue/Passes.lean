import UHorse.Queue.TaskQueue

/-!
# What becomes of the tasks

A call to process the pending tasks makes one pass over each of them. What a pass makes of a task
depends on the task, the handlers and the clock, and on what its handler returns; the events of the
call are those of its passes, and the tasks whose pass says so leave the queue together.
-/

namespace UHorse.Queue

open UHorse.Lib UHorse.Protocol

variable {T : Type}

/-! ## Events -/

/-- What can be seen of a call from outside. -/
inductive QueueEvent
  | clock (now : UInt64)
  | handed (position : Nat)
  | outcome (position : Nat) (result : Except String Unit)
  | removed (positions : List Nat)
  | pushed (limit : UInt32)

def QueueNote.event : QueueNote T → QueueInput → Option QueueEvent
  | .clock, input => some (.clock input.now)
  | .hand position _, _ => some (.handed position)
  | .outcome position, input => some (.outcome position input.outcome)
  | .remove positions, _ => some (.removed positions)
  | .push task, _ => some (.pushed task.maxRetries)
  | _, _ => none

abbrev QueueTrace (T : Type) := List (LockNote QueueLock (QueueNote T) × QueueInput)

def eventOf : LockNote QueueLock (QueueNote T) × QueueInput → Option QueueEvent
  | (.work note, input) => note.event input
  | (.acquire _ _, _) | (.release _ _, _) => none

def events (trace : QueueTrace T) : List QueueEvent := trace.filterMap eventOf

@[simp] theorem events_nil : events ([] : QueueTrace T) = [] := rfl

@[simp] theorem events_append (first second : QueueTrace T) :
    events (first ++ second) = events first ++ events second := List.filterMap_append

theorem events_cons (entry : LockNote QueueLock (QueueNote T) × QueueInput) (trace : QueueTrace T) :
    events (entry :: trace) = (eventOf entry).toList ++ events trace := by
  rw [events, List.filterMap_cons]
  cases eventOf entry with
  | none => rfl
  | some event => rfl

variable {input : QueueInput} {trace : QueueTrace T}

@[simp] theorem events_acquire {wanted : QueueLock} {mode : Mode} :
    events ((.acquire wanted mode, input) :: trace) = events trace := events_cons _ _

@[simp] theorem events_release {held : QueueLock} {mode : Mode} :
    events ((.release held mode, input) :: trace) = events trace := events_cons _ _

@[simp] theorem events_work {note : QueueNote T} :
    events ((.work note, input) :: trace) = (note.event input).toList ++ events trace :=
  events_cons _ _

/-! ## Passes -/

/-- What a pass makes of a task, with the outcome of the handler if it was called. -/
structure Pass (T : Type) where
  task : Task T
  outcome : Option (Except String Unit)
  verdict : Verdict

namespace Pass

def events (position : Nat) (pass : Pass T) : List QueueEvent :=
  match pass.outcome with
  | none => []
  | some result => [.handed position, .outcome position result]

/-- The events of passes over neighbours, from a first position on. -/
def eventsFrom : Nat → List (Pass T) → List QueueEvent
  | _, [] => []
  | position, pass :: passes => pass.events position ++ eventsFrom (position + 1) passes

@[simp] def leaves (pass : Pass T) : Bool := pass.verdict.leaves

@[simp] def completes (pass : Pass T) : Bool := pass.verdict.completes

end Pass

/-- Passes in which the handler is called. -/
inductive Attempted (task : Task T) : Pass T → Prop
  | completed (started done : UInt64) :
      Attempted task ⟨(task.start started).complete done, some (.ok ()), .complete⟩
  | retried (again : task.canRetry = true) (started ended counted : UInt64) (error : String) :
      Attempted task ⟨((task.start started).fail error ended).incrementRetry counted,
        some (.error error), .stay⟩
  | failed (last : task.canRetry = false) (started ended : UInt64) (error : String) :
      Attempted task ⟨(task.start started).fail error ended, some (.error error), .leave⟩

/-- What a pass may make of a task. -/
inductive Fate (handlers : HashMap String (TaskHandler T)) (now : UInt64) (task : Task T) :
    Pass T → Prop
  | early (notDue : TaskQueue.isDue now task = false) : Fate handlers now task ⟨task, none, .stay⟩
  | unhandled (due : TaskQueue.isDue now task = true)
      (missing : handlers.lookup task.taskType = none) : Fate handlers now task ⟨task, none, .leave⟩
  | attempted {handler : TaskHandler T} {pass : Pass T} (due : TaskQueue.isDue now task = true)
      (found : handlers.lookup task.taskType = some handler) (attempted : Attempted task pass) :
      Fate handlers now task pass

namespace TaskQueue

open LockProgram

variable {s t : Locked (TaskQueue T) QueueLock} {trace : QueueTrace T} {position : Nat}
  {task : Task T} {now : UInt64}

/-- The state with another task at a position. -/
def withTask (s : Locked (TaskQueue T) QueueLock) (position : Nat) (task : Task T) :
    Locked (TaskQueue T) QueueLock :=
  { s with data := { s.data with pending := s.data.pending.set position task } }

theorem withTask_withTask (task other : Task T) :
    withTask (withTask s position task) position other = withTask s position other := by
  rw [withTask, withTask, withTask, List.set_set]

theorem withTask_self (here : s.data.pending[position]? = some task) :
    withTask s position task = s := by
  obtain ⟨inside, rfl⟩ := List.getElem?_eq_some_iff.mp here
  rw [withTask, List.set_getElem_self]

theorem runs_replace {note : QueueNote T} {change : QueueInput → Task T} {changed : Task T}
    (runs : (replace note position change).Runs s trace changed t) :
    ∃ input, events trace = (note.event input).toList ∧ changed = change input ∧
      t = withTask s position changed := by
  obtain ⟨input, rfl, rfl, rfl⟩ := Program.runs_update.mp runs
  exact ⟨input, by simp, rfl, rfl⟩

/-- While the queue is locked, a handler's task is not queued. -/
theorem runs_enqueue {published : Except String Unit}
    (runs : (enqueue task).Runs s trace published t) (held : (s.locks .pending).writer = true) :
    t = s ∧ events trace = [] := by
  obtain ⟨_, _, _, _, rfl, publishes, queues⟩ := Program.runs_bind.mp runs
  obtain ⟨input, rfl, rfl, rfl⟩ := runs_look.mp publishes
  cases outcome : input.outcome with
  | error error =>
    rw [outcome] at queues
    obtain ⟨rfl, -, rfl⟩ := Program.runs_pure.mp queues
    exact ⟨rfl, rfl⟩
  | ok done =>
    rw [outcome] at queues
    obtain ⟨_, _, _, _, rfl, section_, -⟩ := Program.runs_bind.mp queues
    obtain ⟨_, _, _, _, rfl, acquired, -⟩ := Program.runs_bind.mp section_
    have admitted := (Program.runs_await.mp acquired).1
    rw [admits_of_writer held] at admitted
    cases admitted

theorem runs_enqueueAll {tasks : List (Task T)} (runs : (enqueueAll tasks).Runs s trace () t)
    (held : (s.locks .pending).writer = true) : t = s ∧ events trace = [] := by
  induction tasks generalizing trace with
  | nil =>
    obtain ⟨rfl, -, rfl⟩ := Program.runs_pure.mp runs
    exact ⟨rfl, rfl⟩
  | cons task tasks ih =>
    obtain ⟨_, _, _, _, rfl, queued, others⟩ := Program.runs_bind.mp runs
    obtain ⟨rfl, silent⟩ := runs_enqueue queued held
    obtain ⟨rfl, silent'⟩ := ih others
    exact ⟨rfl, by rw [events_append, silent, silent', List.append_nil]⟩

theorem runs_handle {handler : TaskHandler T} {outcome : Except String Unit}
    (runs : (handle handler position task).Runs s trace outcome t)
    (held : (s.locks .pending).writer = true) :
    t = s ∧ events trace = [.handed position, .outcome position outcome] := by
  obtain ⟨_, _, _, _, rfl, hands, works⟩ := Program.runs_bind.mp runs
  obtain ⟨_, rfl, -, rfl⟩ := runs_look.mp hands
  obtain ⟨_, _, _, _, rfl, enqueues, returns⟩ := Program.runs_bind.mp works
  obtain ⟨rfl, silent⟩ := runs_enqueueAll enqueues held
  obtain ⟨_, rfl, rfl, rfl⟩ := runs_look.mp returns
  exact ⟨rfl, by simp [silent, QueueNote.event]⟩

theorem runs_attempt {handler : TaskHandler T} {verdict : Verdict}
    (runs : (attempt handler position task).Runs s trace verdict t)
    (held : (s.locks .pending).writer = true) :
    ∃ pass, Attempted task pass ∧ verdict = pass.verdict ∧ events trace = pass.events position ∧
      t = withTask s position pass.task := by
  obtain ⟨_, _, _, _, rfl, starts, works⟩ := Program.runs_bind.mp runs
  obtain ⟨begun, silent, rfl, rfl⟩ := runs_replace starts
  obtain ⟨_, _, outcome, _, rfl, handles, settles⟩ := Program.runs_bind.mp works
  obtain ⟨rfl, told⟩ := runs_handle handles held
  cases outcome with
  | ok done =>
    obtain ⟨_, _, _, _, rfl, completes, ends⟩ := Program.runs_bind.mp settles
    obtain ⟨done, silent', rfl, rfl⟩ := runs_replace completes
    obtain ⟨rfl, rfl, rfl⟩ := Program.runs_pure.mp ends
    refine ⟨_, .completed begun.now done.now, rfl, ?_, withTask_withTask _ _⟩
    simp [silent, silent', told, QueueNote.event, Pass.events]
  | error error =>
    obtain ⟨_, _, _, _, rfl, fails, decides⟩ := Program.runs_bind.mp settles
    obtain ⟨ended, silent', rfl, rfl⟩ := runs_replace fails
    split at decides
    · next again =>
        have again : task.canRetry = true := again
        obtain ⟨_, _, _, _, rfl, counts, ends⟩ := Program.runs_bind.mp decides
        obtain ⟨counted, silent'', rfl, rfl⟩ := runs_replace counts
        obtain ⟨rfl, rfl, rfl⟩ := Program.runs_pure.mp ends
        refine ⟨_, Attempted.retried again begun.now ended.now counted.now error,
          rfl, ?_, ?_⟩
        · simp [silent, silent', silent'', told, QueueNote.event, Pass.events]
        · rw [withTask_withTask, withTask_withTask]
    · next last =>
        have last : ¬ task.canRetry = true := last
        obtain ⟨rfl, rfl, rfl⟩ := Program.runs_pure.mp decides
        refine ⟨_, .failed (by simpa using last) begun.now ended.now error, rfl, ?_,
          withTask_withTask _ _⟩
        simp [silent, silent', told, QueueNote.event, Pass.events]

theorem runs_dispatch {verdict : Verdict}
    (runs : (dispatch position task).Runs s trace verdict t)
    (held : (s.locks .pending).writer = true) (due : isDue now task = true)
    (here : s.data.pending[position]? = some task) :
    ∃ pass, Fate s.data.handlers now task pass ∧ verdict = pass.verdict ∧
      events trace = pass.events position ∧ t = withTask s position pass.task := by
  obtain ⟨_, _, _, _, rfl, looks, attempts⟩ := Program.runs_bind.mp runs
  obtain ⟨_, rfl, rfl, rfl⟩ := runs_look.mp looks
  split at attempts
  · next missing =>
      obtain ⟨rfl, rfl, rfl⟩ := Program.runs_pure.mp attempts
      exact ⟨_, .unhandled due missing, rfl, rfl, (withTask_self here).symm⟩
  · next handler found =>
      obtain ⟨pass, attempted, rfl, told, rfl⟩ := runs_attempt attempts held
      exact ⟨pass, .attempted due found attempted, rfl, by simpa [QueueNote.event] using told, rfl⟩

theorem runs_examine {verdict : Verdict} (runs : (examine now position).Runs s trace verdict t)
    (held : (s.locks .pending).writer = true) (here : s.data.pending[position]? = some task) :
    ∃ pass, Fate s.data.handlers now task pass ∧ verdict = pass.verdict ∧
      events trace = pass.events position ∧ t = withTask s position pass.task := by
  obtain ⟨_, _, found, _, rfl, looks, works⟩ := Program.runs_bind.mp runs
  obtain ⟨_, rfl, rfl, rfl⟩ := runs_look.mp looks
  rw [here] at works
  simp only at works
  split at works
  · next due =>
      obtain ⟨-, same, _, body, _, u, rfl, inside, data⟩ := runs_within works <| by
        intro body u inside
        obtain ⟨_, _, _, _, rfl⟩ := runs_dispatch inside held due here
        rfl
      obtain ⟨pass, fate, rfl, told, rfl⟩ := runs_dispatch inside held due here
      refine ⟨pass, fate, rfl, by simpa [QueueNote.event] using told, Locked.ext data same⟩
  · next early =>
      obtain ⟨rfl, rfl, rfl⟩ := Program.runs_pure.mp works
      exact ⟨_, .early (by simpa using early), rfl, rfl, (withTask_self here).symm⟩

/-- The loop, with the tasks behind it and the tasks before it. -/
theorem runs_visit (front : List (Task T)) {rest : List (Task T)} {toRemove : List Nat}
    {processed : Nat} {result : List Nat × Nat}
    (runs : (visit now rest.length front.length toRemove processed).Runs s trace result t)
    (held : (s.locks .pending).writer = true) (here : s.data.pending = front ++ rest) :
    ∃ passes, List.Forall₂ (Fate s.data.handlers now) rest passes ∧
      events trace = Pass.eventsFrom front.length passes ∧
      t = { s with data := { s.data with pending := front ++ passes.map Pass.task } } ∧
      result = (toRemove ++ Positions.marked front.length (passes.map Pass.leaves),
        processed + passes.countP Pass.completes) := by
  induction rest generalizing front s trace toRemove processed with
  | nil =>
    obtain ⟨rfl, rfl, rfl⟩ := Program.runs_pure.mp runs
    refine ⟨[], .nil, rfl, ?_, by simp [Positions.marked]⟩
    rw [List.map_nil, ← here]
  | cons task rest ih =>
    obtain ⟨_, _, verdict, _, rfl, examines, visits⟩ := Program.runs_bind.mp runs
    have first : s.data.pending[front.length]? = some task := by simp [here]
    obtain ⟨pass, fate, rfl, told, rfl⟩ := runs_examine examines held first
    have replaced : (withTask s front.length pass.task).data.pending =
        (front ++ [pass.task]) ++ rest := by
      simp [withTask, here]
    have length : (front ++ [pass.task]).length = front.length + 1 := List.length_append
    rw [← length] at visits
    obtain ⟨passes, fates, told', rfl, rfl⟩ := ih _ visits held replaced
    refine ⟨pass :: passes, .cons fate fates, ?_, ?_, ?_⟩
    · rw [events_append, told, told', length]
      rfl
    · simp [withTask]
    · rw [length]
      cases verdict : pass.verdict with
      | stay => simp [verdict, Positions.marked]
      | leave => simp [verdict, Positions.marked]
      | complete =>
        simp only [List.map_cons, List.countP_cons, Pass.leaves, Pass.completes, verdict,
          Verdict.leaves, Verdict.completes, Positions.marked, if_true, List.append_assoc]
        exact Prod.ext rfl (by simp only; omega)

/-- One pass is made over each task, and the tasks whose pass says so leave together. -/
structure Swept (now : UInt64) (s : Locked (TaskQueue T) QueueLock) (passes : List (Pass T))
    (trace : QueueTrace T) (count : Nat) (t : Locked (TaskQueue T) QueueLock) : Prop where
  fates : List.Forall₂ (Fate s.data.handlers now) s.data.pending passes
  events : events trace = Pass.eventsFrom 0 passes ++
    [.removed (Positions.marked 0 (passes.map Pass.leaves))]
  count : count = passes.countP Pass.completes
  state : t = { s with data := { s.data with
    pending := Positions.unmarked (passes.map Pass.task) (passes.map Pass.leaves) } }

theorem runs_sweep {count : Nat} (runs : (sweep now).Runs s trace count t)
    (held : (s.locks .pending).writer = true) : ∃ passes, Swept now s passes trace count t := by
  obtain ⟨_, _, _, _, rfl, looks, works⟩ := Program.runs_bind.mp runs
  obtain ⟨_, rfl, rfl, rfl⟩ := runs_look.mp looks
  obtain ⟨_, _, _, _, rfl, visits, ends⟩ := Program.runs_bind.mp works
  obtain ⟨passes, fates, told, rfl, rfl⟩ := runs_visit [] visits held rfl
  obtain ⟨_, _, _, _, rfl, removes, returns⟩ := Program.runs_bind.mp ends
  obtain ⟨_, rfl, rfl⟩ := runs_modify.mp removes
  obtain ⟨rfl, rfl, rfl⟩ := Program.runs_pure.mp returns
  have same : (passes.map Pass.task).length = (passes.map Pass.leaves).length := by
    rw [List.length_map, List.length_map]
  refine ⟨passes, fates, ?_, Nat.zero_add _, ?_⟩
  · simp [told, QueueNote.event]
  · simp [Positions.eraseAt_marked same]

theorem runs_processAt {count : Nat} (runs : (processAt now).Runs s trace count t) :
    ∃ passes, Swept now s passes trace count t := by
  have held : ((s.taken QueueLock.pending .write).locks .pending).writer = true := rfl
  obtain ⟨-, same, _, body, _, u, rfl, inside, data⟩ := runs_within runs <| by
    intro body u inside
    obtain ⟨passes, swept⟩ := runs_sweep inside held
    rw [swept.state]
  obtain ⟨passes, fates, told, rfl, rfl⟩ := runs_sweep inside held
  exact ⟨passes, fates, by simpa using told, rfl, Locked.ext data same⟩

end TaskQueue

end UHorse.Queue
