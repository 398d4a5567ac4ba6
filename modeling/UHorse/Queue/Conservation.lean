import UHorse.Lib.System
import UHorse.Queue.Passes

/-!
# No task is lost

Calls on a queue follow each other. A ledger gives every task a ticket when it is queued, and takes
down whose task is handed to a handler; the tickets of the pending tasks stand in the order of the
queue. A task leaves the queue only in a call that finds it due and has no handler for it, or whose
handler succeeds or fails for the last time.
-/

namespace UHorse.Queue

open UHorse.Lib UHorse.Protocol TaskQueue LockProgram

variable {T : Type}

/-! ## Calls -/

inductive QueueCall (T : Type)
  | registerHandler (taskType : String) (handler : TaskHandler T)
  | enqueue (task : Task T)
  | processPending

inductive QueueReply
  | registered
  | enqueued (result : Except String Unit)
  | processed (count : Nat)

def QueueCall.program : QueueCall T → Process T QueueReply
  | registerHandler taskType handler => do
      TaskQueue.registerHandler taskType handler
      pure .registered
  | enqueue task => do
      let result ← TaskQueue.enqueue task
      pure (.enqueued result)
  | processPending => do
      let count ← TaskQueue.processPending
      pure (.processed count)

/-- A call that has returned. -/
structure Served (T : Type) where
  call : QueueCall T
  trace : QueueTrace T
  reply : QueueReply

abbrev LockedQueue (T : Type) := Locked (TaskQueue T) QueueLock

def calls : System (LockedQueue T) (Served T) where
  Init s := s = ⟨⟨[], ∅⟩, fun _ => .free⟩
  Step s served t := served.call.program.Runs s served.trace served.reply t

/-! ## The ledger -/

structure TicketLedger where
  /-- The tickets of the pending tasks, in the order of the queue. -/
  tickets : List Nat
  /-- For each ticket how often its task may be tried again. -/
  limits : List UInt32
  /-- The tickets of the tasks that were handed to a handler. -/
  handed : List Nat

namespace TicketLedger

def opening : TicketLedger := ⟨[], [], []⟩

def note (ledger : TicketLedger) : QueueEvent → TicketLedger
  | .pushed limit =>
    { ledger with
      tickets := ledger.tickets ++ [ledger.limits.length]
      limits := ledger.limits ++ [limit] }
  | .handed position =>
    { ledger with handed := ledger.handed ++ ledger.tickets[position]?.toList }
  | .removed positions => { ledger with tickets := Positions.eraseAt positions ledger.tickets }
  | .clock _ | .outcome _ _ => ledger

def follow (ledger : TicketLedger) (events : List QueueEvent) : TicketLedger :=
  events.foldl note ledger

theorem follow_append (ledger : TicketLedger) (first second : List QueueEvent) :
    ledger.follow (first ++ second) = (ledger.follow first).follow second := List.foldl_append

end TicketLedger

/-- The calls with the ledger that is kept of them. -/
def ticketed : System (LockedQueue T × TicketLedger) (Served T) :=
  calls.observe .opening fun ledger _ served => ledger.follow (events served.trace)

/-- A task may leave the queue in a call with these events. -/
def Leaves (queue : TaskQueue T) (seen : List QueueEvent) (position : Nat) (task : Task T) : Prop :=
  ∃ now, .clock now ∈ seen ∧ isDue now task = true ∧
    (queue.handlers.lookup task.taskType = none ∨ .outcome position (.ok ()) ∈ seen ∨
      task.canRetry = false ∧ ∃ error, .outcome position (.error error) ∈ seen)

/-- The tasks differ at most in what processing writes. -/
def Task.Same (task other : Task T) : Prop :=
  ∃ status retryCount updatedAt error,
    other = { task with status, retryCount, updatedAt, error }

def QueueEvent.completes : QueueEvent → Bool
  | .outcome _ (.ok ()) => true
  | _ => false

/-- What a call keeps of the tasks that were pending before it. -/
structure Conserved (before : LockedQueue T × TicketLedger) (served : Served T)
    (after : LockedQueue T × TicketLedger) : Prop where
  ticketed : after.2.tickets.Nodup ∧ after.2.tickets.length = after.1.data.pending.length
  leaves : ∀ (position : Nat) (task : Task T) (ticket : Nat),
    before.1.data.pending[position]? = some task → before.2.tickets[position]? = some ticket →
      (ticket ∉ after.2.tickets ↔ Leaves before.1.data (events served.trace) position task)
  stays : ∀ (position : Nat) (task : Task T) (ticket : Nat),
    before.1.data.pending[position]? = some task → before.2.tickets[position]? = some ticket →
      ∀ (later : Nat) (other : Task T), after.1.data.pending[later]? = some other →
        after.2.tickets[later]? = some ticket → Task.Same task other
  ordered : ∃ staying added, after.2.tickets = staying ++ added ∧
    staying.Sublist before.2.tickets ∧ ∀ ticket ∈ added, ticket ∉ before.2.tickets
  handedOnce : ∀ ticket, after.2.handed.count ticket ≤ before.2.handed.count ticket + 1
  handedOften : ∀ ticket limit, after.2.limits[ticket]? = some limit →
    after.2.handed.count ticket ≤ 1 + limit.toNat
  counted : ∀ count, served.reply = .processed count →
    count = (events served.trace).countP QueueEvent.completes

/-! ## What the calls do -/

section Served

variable {s t : LockedQueue T} {trace : QueueTrace T} {reply : QueueReply} {task : Task T}

theorem runs_registerHandler {taskType : String} {handler : TaskHandler T}
    (runs : (QueueCall.registerHandler taskType handler).program.Runs s trace reply t) :
    events trace = [] ∧ (∀ count, reply ≠ .processed count) ∧
      t.data.pending = s.data.pending := by
  obtain ⟨_, _, _, _, rfl, registers, returns⟩ := Program.runs_bind.mp runs
  obtain ⟨-, -, _, body, _, u, rfl, inside, data⟩ := runs_within registers <| by
    intro body u inside
    obtain ⟨_, rfl, rfl⟩ := runs_modify.mp inside
    rfl
  obtain ⟨_, rfl, rfl⟩ := runs_modify.mp inside
  obtain ⟨rfl, rfl, rfl⟩ := Program.runs_pure.mp returns
  exact ⟨rfl, nofun, by rw [data]; rfl⟩

/-- A task is queued if it is published. -/
theorem runs_enqueue_call (runs : (QueueCall.enqueue task).program.Runs s trace reply t) :
    (∀ count, reply ≠ .processed count) ∧
      (events trace = [] ∧ t.data.pending = s.data.pending ∨
        events trace = [.pushed task.maxRetries] ∧ t.data.pending = s.data.pending ++ [task]) := by
  obtain ⟨_, _, _, _, rfl, enqueues, returns⟩ := Program.runs_bind.mp runs
  obtain ⟨_, _, _, _, rfl, publishes, queues⟩ := Program.runs_bind.mp enqueues
  obtain ⟨input, rfl, rfl, rfl⟩ := runs_look.mp publishes
  obtain ⟨rfl, rfl, rfl⟩ := Program.runs_pure.mp returns
  refine ⟨nofun, ?_⟩
  cases outcome : input.outcome with
  | error error =>
    rw [outcome] at queues
    obtain ⟨rfl, -, rfl⟩ := Program.runs_pure.mp queues
    exact .inl ⟨rfl, rfl⟩
  | ok done =>
    rw [outcome] at queues
    obtain ⟨_, _, _, _, rfl, pushes, ends⟩ := Program.runs_bind.mp queues
    obtain ⟨-, -, _, body, _, u, rfl, inside, data⟩ := runs_within pushes <| by
      intro body u inside
      obtain ⟨_, rfl, rfl⟩ := runs_modify.mp inside
      rfl
    obtain ⟨_, rfl, rfl⟩ := runs_modify.mp inside
    obtain ⟨rfl, -, rfl⟩ := Program.runs_pure.mp ends
    exact .inr ⟨rfl, by rw [data]; rfl⟩

theorem runs_process_call (runs : QueueCall.processPending.program.Runs s trace reply t) :
    ∃ now passes body count, events trace = .clock now :: events body ∧
      reply = .processed count ∧ Swept now s passes body count t := by
  obtain ⟨_, _, count, _, rfl, processes, returns⟩ := Program.runs_bind.mp runs
  obtain ⟨_, body, _, _, rfl, reads, works⟩ := Program.runs_bind.mp processes
  obtain ⟨input, rfl, rfl, rfl⟩ := runs_look.mp reads
  obtain ⟨rfl, rfl, rfl⟩ := Program.runs_pure.mp returns
  obtain ⟨passes, swept⟩ := runs_processAt works
  exact ⟨input.now, passes, body, count, by simp [QueueNote.event], rfl, swept⟩

end Served

/-! ## The passes in the ledger -/

section Passes

variable {handlers : HashMap String (TaskHandler T)} {now : UInt64} {task : Task T} {pass : Pass T}
  {passes : List (Pass T)} {position : Nat}

/-- The handler was not called. -/
def Pass.spares (pass : Pass T) : Bool := pass.outcome.isNone

theorem Fate.leaves_iff (fate : Fate handlers now task pass) :
    pass.leaves = true ↔ isDue now task = true ∧
      (handlers.lookup task.taskType = none ∨ pass.outcome = some (.ok ()) ∨
        task.canRetry = false ∧ ∃ error, pass.outcome = some (.error error)) := by
  cases fate with
  | early notDue => simp [notDue]
  | unhandled due missing => simp [due, missing]
  | attempted due found attempted =>
    cases attempted with
    | completed started done => simp [due]
    | retried again started ended counted error => simp [found, again]
    | failed last started ended error => simp [due, last]

theorem Fate.countP_events (fate : Fate handlers now task pass) :
    (pass.events position).countP QueueEvent.completes = if pass.completes then 1 else 0 := by
  cases fate with
  | early notDue => rfl
  | unhandled due missing => rfl
  | attempted due found attempted => cases attempted <;> rfl

theorem Fate.same (fate : Fate handlers now task pass) : task.Same pass.task := by
  cases fate with
  | early notDue => exact ⟨_, _, _, _, rfl⟩
  | unhandled due missing => exact ⟨_, _, _, _, rfl⟩
  | attempted due found attempted => cases attempted <;> exact ⟨_, _, _, _, rfl⟩

/-- A task that stays although its handler was called has been counted once more. -/
theorem Fate.retryCount (fate : Fate handlers now task pass) (stays : pass.leaves = false) :
    pass.task.retryCount.toNat =
        task.retryCount.toNat + (if pass.spares then 0 else 1) ∧
      (pass.spares = false → pass.task.retryCount.toNat ≤ task.maxRetries.toNat) := by
  cases fate with
  | early notDue => exact ⟨rfl, nofun⟩
  | unhandled due missing => cases stays
  | attempted due found attempted =>
    cases attempted with
    | completed started done => cases stays
    | failed last started ended error => cases stays
    | retried again started ended counted error =>
      have below : task.retryCount.toNat < task.maxRetries.toNat :=
        UInt32.lt_iff_toNat_lt.mp (of_decide_eq_true again)
      have fits : task.maxRetries.toNat < 2 ^ 32 := task.maxRetries.toNat_lt
      have next : (task.retryCount + 1).toNat = task.retryCount.toNat + 1 := by
        rw [UInt32.toNat_add, UInt32.toNat_one, Nat.mod_eq_of_lt (by omega)]
      exact ⟨next, fun _ => next.trans_le below⟩

theorem mem_eventsFrom {first : Nat} {result : Except String Unit} :
    .outcome position result ∈ Pass.eventsFrom first passes ↔
      first ≤ position ∧ ∃ pass, passes[position - first]? = some pass ∧
        pass.outcome = some result := by
  induction passes generalizing first with
  | nil => simp [Pass.eventsFrom]
  | cons pass passes ih =>
    have here : .outcome position result ∈ pass.events first ↔
        position = first ∧ pass.outcome = some result := by
      rw [Pass.events]
      cases pass.outcome with
      | none => simp
      | some outcome => simp [eq_comm]
    rw [Pass.eventsFrom, List.mem_append, here, ih]
    obtain below | rfl | above := Nat.lt_trichotomy position first
    · simp [Nat.not_le.mpr below, Nat.ne_of_lt below, Nat.not_le.mpr (Nat.lt_succ_of_lt below)]
    · simp
    · obtain ⟨gap, rfl⟩ := Nat.exists_eq_add_of_lt above
      rw [show first + gap + 1 - (first + 1) = gap by omega,
        show first + gap + 1 - first = gap + 1 by omega, List.getElem?_cons_succ]
      simp [Nat.add_assoc]

theorem clock_notMem_eventsFrom {first : Nat} {other : UInt64} :
    .clock other ∉ Pass.eventsFrom first passes := by
  induction passes generalizing first with
  | nil => simp [Pass.eventsFrom]
  | cons pass passes ih =>
    rw [Pass.eventsFrom, List.mem_append, not_or]
    refine ⟨?_, ih⟩
    rw [Pass.events]
    cases pass.outcome <;> simp

theorem countP_eventsFrom {tasks : List (Task T)} (first : Nat)
    (fates : List.Forall₂ (Fate handlers now) tasks passes) :
    (Pass.eventsFrom first passes).countP QueueEvent.completes = passes.countP Pass.completes := by
  induction fates generalizing first with
  | nil => rfl
  | cons fate fates ih =>
    rw [Pass.eventsFrom, List.countP_append, ih, fate.countP_events, List.countP_cons,
      Nat.add_comm]

/-- The tickets of the tasks whose handler was called are taken down in the order of the queue. -/
theorem follow_eventsFrom (ledger : TicketLedger) (front : List Nat) {rest : List Nat}
    (here : ledger.tickets = front ++ rest) (same : rest.length = passes.length) :
    ledger.follow (Pass.eventsFrom front.length passes) =
      { ledger with
        handed := ledger.handed ++ Positions.unmarked rest (passes.map Pass.spares) } := by
  induction passes generalizing ledger front rest with
  | nil =>
    obtain rfl := List.length_eq_zero_iff.mp same
    simp [Pass.eventsFrom, TicketLedger.follow, Positions.unmarked]
  | cons pass passes ih =>
    obtain ⟨ticket, rest, rfl⟩ := List.exists_cons_of_length_eq_add_one same
    have first : ledger.tickets[front.length]? = some ticket := by simp [here]
    have length : (front ++ [ticket]).length = front.length + 1 := List.length_append
    rw [Pass.eventsFrom, TicketLedger.follow_append, ← length]
    cases outcome : pass.outcome with
    | none =>
      have silent : ledger.follow (pass.events front.length) = ledger := by
        rw [Pass.events, outcome]
        rfl
      rw [silent, ih _ (front ++ [ticket]) (by simpa using here) (Nat.succ.inj same)]
      simp [Pass.spares, outcome, Positions.unmarked]
    | some result =>
      have told : ledger.follow (pass.events front.length) =
          { ledger with handed := ledger.handed ++ [ticket] } := by
        simp [Pass.events, outcome, TicketLedger.follow, TicketLedger.note, first]
      rw [told, ih _ (front ++ [ticket]) (by simpa using here) (Nat.succ.inj same)]
      simp [Pass.spares, outcome, Positions.unmarked]

end Passes

/-! ## The books -/

/-- What the ledger says of the queue. -/
structure Books (s : LockedQueue T) (ledger : TicketLedger) : Prop where
  length : ledger.tickets.length = s.data.pending.length
  distinct : ledger.tickets.Nodup
  known : ∀ ticket ∈ ledger.tickets, ticket < ledger.limits.length
  handedKnown : ∀ ticket ∈ ledger.handed, ticket < ledger.limits.length
  accounts : ∀ (position : Nat) (task : Task T) (ticket : Nat),
    s.data.pending[position]? = some task → ledger.tickets[position]? = some ticket →
      ledger.limits[ticket]? = some task.maxRetries ∧
        ledger.handed.count ticket ≤ task.retryCount.toNat ∧
          ledger.handed.count ticket ≤ task.maxRetries.toNat
  bounded : ∀ ticket limit, ledger.limits[ticket]? = some limit →
    ledger.handed.count ticket ≤ 1 + limit.toNat

namespace Books

variable {s t : LockedQueue T} {ledger : TicketLedger}

theorem opening : Books (⟨⟨[], ∅⟩, fun _ => .free⟩ : LockedQueue T) .opening := by
  refine ⟨rfl, List.nodup_nil, nofun, nofun, ?_, ?_⟩
  · intro position task ticket here
    cases here
  · intro ticket limit here
    cases here

/-- The books depend on the pending tasks only. -/
theorem of_pending (books : Books s ledger) (same : t.data.pending = s.data.pending) :
    Books t ledger := by
  obtain ⟨length, distinct, known, handedKnown, accounts, bounded⟩ := books
  exact ⟨by rwa [same], distinct, known, handedKnown, by rwa [same], bounded⟩

/-- A task that is queued has a new ticket. -/
theorem push (books : Books s ledger) {task : Task T}
    (pushed : t.data.pending = s.data.pending ++ [task]) :
    Books t (ledger.note (.pushed task.maxRetries)) := by
  have fresh : ledger.limits.length ∉ ledger.tickets :=
    fun member => Nat.lt_irrefl _ (books.known _ member)
  have unhanded : ledger.handed.count ledger.limits.length = 0 :=
    List.count_eq_zero_of_not_mem fun member => Nat.lt_irrefl _ (books.handedKnown _ member)
  have longer : (ledger.note (.pushed task.maxRetries)).limits.length =
      ledger.limits.length + 1 := List.length_append
  refine ⟨?_, ?_, ?_, ?_, ?_, ?_⟩
  · simp [TicketLedger.note, pushed, books.length]
  · refine List.nodup_append.mpr ⟨books.distinct, List.nodup_singleton _, ?_⟩
    intro ticket member other new
    exact ne_of_mem_of_not_mem member (List.mem_singleton.mp new ▸ fresh)
  · intro ticket member
    rw [longer]
    obtain old | new := List.mem_append.mp member
    · exact Nat.lt_succ_of_lt (books.known ticket old)
    · exact Nat.lt_succ_of_le (Nat.le_of_eq (List.mem_singleton.mp new))
  · intro ticket member
    rw [longer]
    exact Nat.lt_succ_of_lt (books.handedKnown ticket member)
  · intro position other ticket here there
    rw [pushed] at here
    have placed : (ledger.tickets ++ [ledger.limits.length])[position]? = some ticket := there
    obtain inside | outside := Nat.lt_or_ge position s.data.pending.length
    · rw [List.getElem?_append_left inside] at here
      rw [List.getElem?_append_left (books.length ▸ inside)] at placed
      have known := books.known ticket (List.mem_of_getElem? placed)
      obtain ⟨limit, counts⟩ := books.accounts position other ticket here placed
      exact ⟨(List.getElem?_append_left known).trans limit, counts⟩
    · rw [List.getElem?_append_right outside] at here
      rw [List.getElem?_append_right (books.length ▸ outside)] at placed
      obtain rfl := List.mem_singleton.mp (List.mem_of_getElem? here)
      obtain rfl := List.mem_singleton.mp (List.mem_of_getElem? placed)
      have unhanded : (ledger.note (.pushed other.maxRetries)).handed.count
          ledger.limits.length = 0 := unhanded
      rw [unhanded]
      exact ⟨List.getElem?_concat_length, Nat.zero_le _, Nat.zero_le _⟩
  · intro ticket limit here
    have here : (ledger.limits ++ [task.maxRetries])[ticket]? = some limit := here
    obtain inside | outside := Nat.lt_or_ge ticket ledger.limits.length
    · rw [List.getElem?_append_left inside] at here
      exact books.bounded ticket limit here
    · have absent : ticket ∉ ledger.handed :=
        fun member => Nat.not_lt.mpr outside (books.handedKnown ticket member)
      exact (List.count_eq_zero_of_not_mem absent).trans_le (Nat.zero_le _)

end Books

/-! ## A sweep in the books -/

/-- The ledger after the passes of a sweep. -/
def TicketLedger.swept (ledger : TicketLedger) (passes : List (Pass T)) : TicketLedger :=
  { ledger with
    tickets := Positions.unmarked ledger.tickets (passes.map Pass.leaves)
    handed := ledger.handed ++ Positions.unmarked ledger.tickets (passes.map Pass.spares) }

section Sweep

variable {s t : LockedQueue T} {ledger : TicketLedger} {now : UInt64} {passes : List (Pass T)}
  {body : QueueTrace T} {count : Nat}

theorem Books.lengths (books : Books s ledger) (swept : Swept now s passes body count t) :
    ledger.tickets.length = passes.length := books.length.trans swept.fates.length_eq

theorem Books.follow_swept (books : Books s ledger) (swept : Swept now s passes body count t) :
    ledger.follow (.clock now :: events body) = ledger.swept passes := by
  have lengths := books.lengths swept
  have handed : ledger.follow (Pass.eventsFrom 0 passes) = _ :=
    follow_eventsFrom ledger [] rfl lengths
  have marks : ledger.tickets.length = (passes.map Pass.leaves).length := by
    rw [lengths, List.length_map]
  calc ledger.follow (.clock now :: events body)
    _ = ledger.follow (Pass.eventsFrom 0 passes ++
          [.removed (Positions.marked 0 (passes.map Pass.leaves))]) := by
        rw [swept.events]
        rfl
    _ = ledger.swept passes := by
        rw [TicketLedger.follow_append, handed]
        simp [TicketLedger.follow, TicketLedger.note, TicketLedger.swept,
          Positions.eraseAt_marked marks]

/-- A task that is still pending has been there before. -/
theorem Books.before (books : Books s ledger) (swept : Swept now s passes body count t)
    {later : Nat} {other : Task T} {ticket : Nat} (here : t.data.pending[later]? = some other)
    (there : (ledger.swept passes).tickets[later]? = some ticket) :
    ∃ (position : Nat) (task : Task T) (pass : Pass T), s.data.pending[position]? = some task ∧
      ledger.tickets[position]? = some ticket ∧ passes[position]? = some pass ∧
        Fate s.data.handlers now task pass ∧ pass.leaves = false ∧ other = pass.task := by
  have lengths := books.lengths swept
  rw [swept.state] at here
  have here : (Positions.unmarked (passes.map Pass.task) (passes.map Pass.leaves))[later]? =
      some other := here
  have there : (Positions.unmarked ledger.tickets (passes.map Pass.leaves))[later]? =
      some ticket := there
  rw [Positions.getElem?_unmarked (by simp)] at here
  rw [Positions.getElem?_unmarked (by simp [lengths])] at there
  have unmarked := Positions.not_marked_before (passes.map Pass.leaves) later
  rw [List.getElem?_map] at here unmarked
  obtain ⟨pass, found, rfl⟩ := Option.map_eq_some_iff.mp here
  obtain ⟨task, first, fate⟩ := Positions.forall₂_at swept.fates.flip found
  refine ⟨_, task, pass, first, there, found, fate, ?_, rfl⟩
  rw [found] at unmarked
  simpa using unmarked

/-- How often the tasks have been handed after the sweep. -/
theorem Books.count_swept (books : Books s ledger) (swept : Swept now s passes body count t)
    {position ticket : Nat} {pass : Pass T} (there : ledger.tickets[position]? = some ticket)
    (found : passes[position]? = some pass) :
    (ledger.swept passes).handed.count ticket =
      ledger.handed.count ticket + if pass.spares then 0 else 1 := by
  have lengths := books.lengths swept
  have marks : ledger.tickets.length = (passes.map Pass.spares).length := by simp [lengths]
  have once := Positions.count_unmarked books.distinct marks there
  rw [TicketLedger.swept, List.count_append, once, List.getElem?_map, found]
  cases spares : pass.spares <;> simp [spares]

theorem Books.sweep (books : Books s ledger) (swept : Swept now s passes body count t) :
    Books t (ledger.swept passes) := by
  have lengths := books.lengths swept
  refine ⟨?_, ?_, ?_, ?_, ?_, ?_⟩
  · rw [swept.state]
    exact Positions.length_unmarked (by simp [lengths]) (by simp)
  · exact books.distinct.sublist (Positions.unmarked_sublist _ _)
  · intro ticket member
    exact books.known ticket ((Positions.unmarked_sublist _ _).subset member)
  · intro ticket member
    obtain old | new := List.mem_append.mp member
    · exact books.handedKnown ticket old
    · exact books.known ticket ((Positions.unmarked_sublist _ _).subset new)
  · intro later other ticket here there
    obtain ⟨position, task, pass, first, placed, found, fate, stays, rfl⟩ :=
      books.before swept here there
    obtain ⟨limit, tried, allowed⟩ := books.accounts position task ticket first placed
    obtain ⟨_, _, _, _, same⟩ := fate.same
    have limits : pass.task.maxRetries = task.maxRetries := by rw [same]
    obtain ⟨retried, below⟩ := fate.retryCount stays
    rw [books.count_swept swept placed found, limits]
    refine ⟨limit, by omega, ?_⟩
    cases spares : pass.spares with
    | true => simpa using allowed
    | false =>
      have below := below spares
      rw [spares] at retried
      simp only [Bool.false_eq_true, if_false] at retried ⊢
      omega
  · intro ticket limit here
    by_cases member : ticket ∈ ledger.tickets
    · obtain ⟨position, placed⟩ := List.mem_iff_getElem?.mp member
      have inside : position < s.data.pending.length :=
        books.length ▸ (List.getElem?_eq_some_iff.mp placed).1
      obtain ⟨limit', tried, allowed⟩ :=
        books.accounts position _ ticket (List.getElem?_eq_getElem inside) placed
      obtain rfl := Option.some_inj.mp (limit'.symm.trans here)
      have most := Positions.count_unmarked_le books.distinct (passes.map Pass.spares) ticket
      rw [TicketLedger.swept, List.count_append]
      omega
    · have absent : ticket ∉ Positions.unmarked ledger.tickets (passes.map Pass.spares) :=
        fun inside => member ((Positions.unmarked_sublist _ _).subset inside)
      rw [TicketLedger.swept, List.count_append, List.count_eq_zero_of_not_mem absent]
      exact books.bounded ticket limit here

end Sweep

/-! ## Every call -/

section Calls

variable {s t : LockedQueue T} {ledger : TicketLedger} {served : Served T}

theorem Books.step (books : Books s ledger) (step : calls.Step s served t) :
    Books t (ledger.follow (events served.trace)) := by
  obtain ⟨call, trace, reply⟩ := served
  cases call with
  | registerHandler taskType handler =>
    obtain ⟨silent, -, same⟩ := runs_registerHandler step
    rw [silent]
    exact books.of_pending same
  | enqueue task =>
    obtain ⟨-, ⟨silent, same⟩ | ⟨pushed, same⟩⟩ := runs_enqueue_call step
    · rw [silent]
      exact books.of_pending same
    · rw [pushed]
      exact books.push same
  | processPending =>
    obtain ⟨now, passes, body, count, told, -, swept⟩ := runs_process_call step
    rw [told, books.follow_swept swept]
    exact books.sweep swept

theorem books_of_reachable {state : LockedQueue T × TicketLedger}
    (reached : ticketed.Reachable state) : Books state.1 state.2 := by
  refine reached.invariant (P := fun state => Books state.1 state.2) ?_ ?_
  · rintro ⟨s, ledger⟩ ⟨rfl, rfl⟩
    exact .opening
  · rintro ⟨s, ledger⟩ served ⟨t, after⟩ books ⟨step, rfl⟩
    exact books.step step

/-- Calls that look at no task add to the end of the queue at most. -/
theorem Books.conserved_of_quiet {after : TicketLedger} (books : Books s ledger)
    (later : Books t after) {tasks : List (Task T)} {added : List Nat}
    (quiet : ∀ now, .clock now ∉ events served.trace)
    (uncounted : ∀ count, served.reply ≠ .processed count)
    (pending : t.data.pending = s.data.pending ++ tasks)
    (tickets : after.tickets = ledger.tickets ++ added) (handed : after.handed = ledger.handed) :
    Conserved (s, ledger) served (t, after) := by
  have distinct : (ledger.tickets ++ added).Nodup := tickets ▸ later.distinct
  refine ⟨⟨later.distinct, later.length⟩, ?_, ?_, ?_, ?_, later.bounded, ?_⟩
  · intro position task ticket here there
    have stays : ticket ∈ after.tickets := by
      rw [tickets]
      exact List.mem_append_left added (List.mem_of_getElem? there)
    refine iff_of_false (not_not_intro stays) ?_
    rintro ⟨now, read, -⟩
    exact quiet now read
  · intro position task ticket here there place other here' there'
    have inside : position < ledger.tickets.length := (List.getElem?_eq_some_iff.mp there).1
    have placed : after.tickets[position]? = some ticket := by
      rw [tickets, List.getElem?_append_left inside]
      exact there
    have within : position < after.tickets.length := (List.getElem?_eq_some_iff.mp placed).1
    obtain rfl := (List.getElem?_inj within later.distinct).mp (placed.trans there'.symm)
    rw [pending, List.getElem?_append_left (books.length ▸ inside)] at here'
    obtain rfl := Option.some_inj.mp (here.symm.trans here')
    exact ⟨_, _, _, _, rfl⟩
  · refine ⟨ledger.tickets, added, tickets, List.Sublist.refl _, fun ticket new old => ?_⟩
    exact (List.nodup_append.mp distinct).2.2 ticket old ticket new rfl
  · intro ticket
    rw [handed]
    exact Nat.le_succ _
  · intro count processed
    exact absurd processed (uncounted count)

theorem Books.conserved_of_silent (books : Books s ledger) (silent : events served.trace = [])
    (uncounted : ∀ count, served.reply ≠ .processed count)
    (same : t.data.pending = s.data.pending) :
    Conserved (s, ledger) served (t, ledger.follow (events served.trace)) := by
  rw [silent]
  refine books.conserved_of_quiet (books.of_pending same) ?_ uncounted
    (same.trans (List.append_nil _).symm) (List.append_nil _).symm rfl
  simp [silent]

theorem Books.conserved_of_swept {now : UInt64} {passes : List (Pass T)} {body : QueueTrace T}
    {count : Nat} (books : Books s ledger) (swept : Swept now s passes body count t)
    (told : events served.trace = .clock now :: events body)
    (counted : served.reply = .processed count) :
    Conserved (s, ledger) served (t, ledger.swept passes) := by
  have lengths := books.lengths swept
  have later := books.sweep swept
  have outcomes : ∀ (position : Nat) (pass : Pass T) (result : Except String Unit),
      passes[position]? = some pass →
        (.outcome position result ∈ events served.trace ↔ pass.outcome = some result) := by
    intro position pass result found
    rw [told, swept.events]
    simp [mem_eventsFrom, found]
  refine ⟨⟨later.distinct, later.length⟩, ?_, ?_, ?_, ?_, later.bounded, ?_⟩
  · intro position task ticket here there
    obtain ⟨pass, found, fate⟩ := Positions.forall₂_at swept.fates here
    have marks : ledger.tickets.length = (passes.map Pass.leaves).length := by simp [lengths]
    have stays := Positions.mem_unmarked books.distinct marks there
    rw [List.getElem?_map, found] at stays
    have leaves : ticket ∉ (ledger.swept passes).tickets ↔ pass.leaves = true := by
      refine (not_congr stays).trans ?_
      simp
    rw [leaves, fate.leaves_iff, Leaves]
    simp only [outcomes position pass _ found]
    constructor
    · intro holds
      exact ⟨now, by simp [told], holds⟩
    · rintro ⟨now', read, holds⟩
      have same : now' = now := by
        rw [told, swept.events] at read
        simpa [clock_notMem_eventsFrom] using read
      rwa [same] at holds
  · intro position task ticket here there place other here' there'
    obtain ⟨position', task', pass, first, placed, found, fate, -, rfl⟩ :=
      books.before swept here' there'
    have within : position < ledger.tickets.length := (List.getElem?_eq_some_iff.mp there).1
    obtain rfl := (List.getElem?_inj within books.distinct).mp (there.trans placed.symm)
    obtain rfl := Option.some_inj.mp (here.symm.trans first)
    exact fate.same
  · exact ⟨_, [], (List.append_nil _).symm, Positions.unmarked_sublist _ _,
      List.forall_mem_nil _⟩
  · intro ticket
    rw [TicketLedger.swept, List.count_append]
    exact Nat.add_le_add_left (Positions.count_unmarked_le books.distinct _ ticket) _
  · intro count' processed
    obtain rfl := QueueReply.processed.inj (counted.symm.trans processed)
    rw [told, swept.events, swept.count, ← countP_eventsFrom 0 swept.fates]
    simp [QueueEvent.completes]

/-- Whatever calls went before, no call loses a task. -/
theorem tasks_conserved {before after : LockedQueue T × TicketLedger}
    (reached : ticketed.Reachable before) (step : ticketed.Step before served after) :
    Conserved before served after := by
  obtain ⟨s, ledger⟩ := before
  obtain ⟨t, ledger'⟩ := after
  obtain ⟨step, rfl⟩ : calls.Step s served t ∧ ledger' = ledger.follow (events served.trace) := step
  have books : Books s ledger := books_of_reachable reached
  have later := books.step step
  obtain ⟨call, trace, reply⟩ := served
  cases call with
  | registerHandler taskType handler =>
    obtain ⟨silent, uncounted, same⟩ := runs_registerHandler step
    exact books.conserved_of_silent silent uncounted same
  | enqueue task =>
    obtain ⟨uncounted, ⟨silent, same⟩ | ⟨pushed, same⟩⟩ := runs_enqueue_call step
    · exact books.conserved_of_silent silent uncounted same
    · simp only [pushed] at later ⊢
      refine books.conserved_of_quiet later ?_ uncounted same rfl rfl
      simp [pushed]
  | processPending =>
    obtain ⟨now, passes, body, count, told, counted, swept⟩ := runs_process_call step
    rw [told, books.follow_swept swept]
    exact books.conserved_of_swept swept told counted

end Calls

/-- Serve a call that is alone, with inputs for its actions. -/
def serve (inputs : List QueueInput) (call : QueueCall T) (state : LockedQueue T × TicketLedger) :
    Option (Served T × LockedQueue T × TicketLedger) :=
  (call.program.runAlone inputs state.1).map fun (trace, reply, t) =>
    (⟨call, trace, reply⟩, t, state.2.follow (events trace))

theorem step_of_serve {inputs : List QueueInput} {call : QueueCall T}
    {state after : LockedQueue T × TicketLedger} {served : Served T}
    (ran : serve inputs call state = some (served, after)) : ticketed.Step state served after := by
  obtain ⟨⟨trace, reply, t⟩, alone, same⟩ := Option.map_eq_some_iff.mp ran
  cases same
  exact ⟨Program.runs_of_runAlone alone, rfl⟩

theorem tasks_conserved_mail : ∃ before served after, Conserved (T := Unit) before served after ∧
    before.2.tickets = [0] ∧ served.reply = .processed 1 ∧ after.2.tickets = [] := by
  have opened : ticketed.Reachable ((⟨⟨[], ∅⟩, fun _ => .free⟩ : LockedQueue Unit), .opening) :=
    .init ⟨rfl, rfl⟩
  let input : QueueInput := ⟨2000, .ok ()⟩
  have registered := opened.step (step_of_serve
    (rfl : serve (List.replicate 3 input) (.registerHandler "mail" ⟨fun _ => []⟩) _ = some (_, _)))
  have queued := registered.step (step_of_serve
    (rfl : serve (List.replicate 4 input) (.enqueue (.new "task-1" "mail" () 1000)) _ =
      some (_, _)))
  have conserved := tasks_conserved queued (step_of_serve
    (rfl : serve (List.replicate 13 input) .processPending _ = some (_, _)))
  exact ⟨_, _, _, conserved, rfl, rfl, rfl⟩

end UHorse.Queue
