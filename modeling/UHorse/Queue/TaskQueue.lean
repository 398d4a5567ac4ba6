import UHorse.Lib.HashMap
import UHorse.Lib.LockedProgram
import UHorse.Lib.Positions
import UHorse.Protocol.Types

/-!
# The task queue in memory

Processing the pending tasks goes through the queue in its order and hands each task that is due
to the handler of its type. The lock of the queue is held as a writer from the first task to the
removal of the tasks that are done with, so also while a handler runs.

A handler is code of the caller. It is modelled by the tasks that it enqueues on the queue before it
returns; what it returns is an input, as are the clock and the outcome of publishing.
-/

namespace UHorse.Queue

open UHorse.Lib UHorse.Protocol

inductive TaskStatus
  | pending
  | running
  | completed
  | failed
  | retrying
deriving DecidableEq

inductive TaskPriority
  | low
  | normal
  | high
  | critical
deriving DecidableEq

/-- The number of the variant, by which priorities are ordered. -/
def TaskPriority.rank : TaskPriority → Nat
  | low => 0
  | normal => 1
  | high => 2
  | critical => 3

structure Task (T : Type) where
  id : String
  taskType : String
  payload : T
  priority : TaskPriority
  status : TaskStatus
  retryCount : UInt32
  maxRetries : UInt32
  createdAt : UInt64
  updatedAt : UInt64
  scheduledAt : Option UInt64
  error : Option String
  metadata : Json

namespace Task

variable {T : Type}

def new (id taskType : String) (payload : T) (now : UInt64) : Task T where
  id := id
  taskType := taskType
  payload := payload
  priority := .normal
  status := .pending
  retryCount := 0
  maxRetries := 3
  createdAt := now
  updatedAt := now
  scheduledAt := none
  error := none
  metadata := .object []

variable (task : Task T)

def withPriority (priority : TaskPriority) : Task T := { task with priority := priority }

def canRetry : Bool := task.retryCount < task.maxRetries

def start (now : UInt64) : Task T := { task with status := .running, updatedAt := now }

def complete (now : UInt64) : Task T := { task with status := .completed, updatedAt := now }

def fail (error : String) (now : UInt64) : Task T :=
  { task with
    status := if task.canRetry then .retrying else .failed
    error := some error
    updatedAt := now }

def incrementRetry (now : UInt64) : Task T :=
  { task with retryCount := task.retryCount + 1, status := .pending, updatedAt := now }

end Task

structure TaskHandler (T : Type) where
  enqueues : Task T → List (Task T)

structure TaskQueue (T : Type) where
  pending : List (Task T)
  handlers : HashMap String (TaskHandler T)

inductive QueueLock
  | handlers
  | pending
deriving DecidableEq

/-- What an action gets from outside. -/
structure QueueInput where
  now : UInt64
  outcome : Except String Unit
deriving Inhabited

/-- Notes name what an action is about, tasks by their positions in the queue. -/
inductive QueueNote (T : Type)
  | clock
  | length
  | examine (position : Nat)
  | lookup (taskType : String)
  | start (position : Nat)
  | hand (position : Nat) (task : Task T)
  | outcome (position : Nat)
  | settle (position : Nat)
  | retry (position : Nat)
  | remove (positions : List Nat)
  | publish (task : Task T)
  | push (task : Task T)
  | register (taskType : String)

/-- What becomes of a task that was looked at. -/
inductive Verdict
  | stay
  | leave
  | complete
deriving DecidableEq

@[simp] def Verdict.leaves : Verdict → Bool
  | stay => false
  | leave | complete => true

@[simp] def Verdict.completes : Verdict → Bool
  | complete => true
  | stay | leave => false

namespace TaskQueue

variable {T : Type}

abbrev Process (T α : Type) := LockProgram (TaskQueue T) QueueLock QueueInput (QueueNote T) α

open LockProgram

def registerHandler (taskType : String) (handler : TaskHandler T) : Process T Unit :=
  within .handlers .write (modify (.register taskType) fun _ queue =>
    { queue with handlers := queue.handlers.insert taskType handler })

/-- A task that cannot be serialized or published is not queued. -/
def enqueue (task : Task T) : Process T (Except String Unit) := do
  let published ← look (.publish task) fun input _ => input.outcome
  match published with
  | .error error => pure (.error error)
  | .ok () =>
    within .pending .write (modify (.push task) fun _ queue =>
      { queue with pending := queue.pending ++ [task] })
    pure (.ok ())

/-- The handler enqueues its tasks, whatever comes of it. -/
def enqueueAll : List (Task T) → Process T Unit
  | [] => pure ()
  | task :: tasks => do
      let _ ← enqueue task
      enqueueAll tasks

def handle (handler : TaskHandler T) (position : Nat) (task : Task T) :
    Process T (Except String Unit) := do
  look (.hand position task) fun _ _ => ()
  enqueueAll (handler.enqueues task)
  look (.outcome position) fun input _ => input.outcome

/-- A task in the queue is replaced and handed on. -/
def replace (note : QueueNote T) (position : Nat) (change : QueueInput → Task T) :
    Process T (Task T) :=
  Program.update (.work note)
    (fun input s => { s with data :=
      { s.data with pending := s.data.pending.set position (change input) } })
    fun input _ => change input

/-- The task at a position with a handler of its type. -/
def attempt (handler : TaskHandler T) (position : Nat) (task : Task T) : Process T Verdict := do
  let started ← replace (.start position) position fun input => task.start input.now
  let outcome ← handle handler position started
  match outcome with
  | .ok () =>
    let _ ← replace (.settle position) position fun input => started.complete input.now
    pure .complete
  | .error error =>
    let failed ← replace (.settle position) position fun input => started.fail error input.now
    if failed.canRetry then
      let _ ← replace (.retry position) position fun input => failed.incrementRetry input.now
      pure .stay
    else pure .leave

def isDue (now : UInt64) (task : Task T) : Bool :=
  task.status = .pending && !task.scheduledAt.any (now < ·)

/-- The task is handed to the handler of its type. -/
def dispatch (position : Nat) (task : Task T) : Process T Verdict := do
  let handler ← look (.lookup task.taskType) fun _ queue => queue.handlers.lookup task.taskType
  match handler with
  | none => pure .leave
  | some handler => attempt handler position task

/-- A pass of the loop over the queue. -/
def examine (now : UInt64) (position : Nat) : Process T Verdict := do
  let found ← look (.examine position) fun _ queue => queue.pending[position]?
  match found with
  | none => pure .stay
  | some task =>
    if isDue now task then within .handlers .read (dispatch position task)
    else pure .stay

/-- The loop, with the positions to remove and the number of completed tasks. -/
def visit (now : UInt64) : Nat → Nat → List Nat → Nat → Process T (List Nat × Nat)
  | 0, _, toRemove, processed => pure (toRemove, processed)
  | remaining + 1, position, toRemove, processed => do
      let verdict ← examine now position
      visit now remaining (position + 1)
        (if verdict.leaves then toRemove ++ [position] else toRemove)
        (if verdict.completes then processed + 1 else processed)

/-- The section under the lock of the queue. -/
def sweep (now : UInt64) : Process T Nat := do
  let length ← look .length fun _ queue => queue.pending.length
  let (toRemove, processed) ← visit now length 0 [] 0
  modify (.remove toRemove) fun _ queue =>
    { queue with pending := Positions.eraseAt toRemove queue.pending }
  pure processed

/-- The call, from the reading of the clock on. -/
def processAt (now : UInt64) : Process T Nat := within .pending .write (sweep now)

def processPending : Process T Nat := do
  let now ← look .clock fun input _ => input.now
  processAt now

end TaskQueue

end UHorse.Queue
