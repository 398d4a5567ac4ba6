import UHorse.Hub.Scheduler.Capacity

/-!
# What a check for timeouts reports

`check_timeouts` lists the expired tasks once and takes them out of `running_tasks` one after the
other; between two of them the map is unlocked while a record is stored. A task that another call
takes meanwhile stays on the list. As long as no call takes a task that a check has listed and not
come to, every task on the list has a record of a timeout.
-/

namespace UHorse.Hub.Scheduler

open UHorse.Lib UHorse.Protocol TaskScheduler

/-! ## Checks and what they await -/

/-- What is remembered of a check: the clock and the running tasks when it looked for the expired
ones, and the records it has stored. -/
structure CheckBook where
  looked : Option (DateTime × HashMap TaskId RunningTask)
  stored : List CompletedTask

def CheckBook.opening : CheckBook := ⟨none, []⟩

/-- A section of the call is about to run. -/
def CheckBook.see (book : CheckBook) (env : Env) (scheduler : TaskScheduler) : Call → CheckBook
  | .checking => { book with looked := some (env.now, scheduler.runningTasks) }
  | .storing completed _ _ => { book with stored := book.stored ++ [completed] }
  | _ => book

/-- The books of the calls, by their numbers. -/
abbrev CheckBooks := Nat → CheckBook

def keepBooks (books : CheckBooks) (s : State) : Label → CheckBooks
  | .checkTimeouts => Function.update books s.calls.length .opening
  | .advance index env =>
    match s.calls[index]? with
    | some call => Function.update books index ((books index).see env s.scheduler call)
    | none => books
  | _ => books

def withBooks (maxRetries taskTimeoutSecs : Nat) : System (State × CheckBooks) Label :=
  (system maxRetries taskTimeoutSecs).observe (fun _ => .opening) keepBooks

/-- Every task that had expired when the check looked is on the list. -/
def Listed (book : CheckBook) (found : List TaskId) : Prop :=
  ∃ now running, book.looked = some (now, running) ∧
    ∀ t task, running.lookup t = some task → task.timeoutAt < now → t ∈ found

/-- A list that a check has returned. -/
structure Accurate (book : CheckBook) (found : List TaskId) : Prop where
  recorded : ∀ t ∈ found, ∃ record ∈ book.stored, record.taskId = t ∧ record.status = .timeout
  listed : Listed book found

namespace Resume

def found : Resume → Option (List TaskId)
  | .timeouts _ found _ => some found
  | .finish (.timedOut found) => some found
  | .finish _ => none

def awaits : Resume → List TaskId
  | .timeouts _ _ remaining => remaining
  | .finish _ => []

end Resume

namespace Call

/-- The list of a check. -/
def found : Call → Option (List TaskId)
  | .timingOut _ found _ => some found
  | .storing _ _ resume | .notifying _ resume => resume.found
  | .done (.timedOut found) => some found
  | _ => none

/-- The tasks a check has listed and not come to. -/
def awaits : Call → List TaskId
  | .timingOut _ _ remaining => remaining
  | .storing _ _ resume | .notifying _ resume => resume.awaits
  | _ => []

def inHand : Call → List CompletedTask
  | .storing completed _ _ => [completed]
  | _ => []

/-- The tasks the next section of a call is to take out of `running_tasks`, now or later. -/
def wants (env : Env) : Call → List TaskId
  | .completing t _ _ | .cancellingRunning t => [t]
  | .checking => timedOut env.runningOrder env.now
  | .timingOut _ _ remaining => remaining
  | _ => []

end Call

/-- No call is to take a task that a check has listed and not come to. -/
def Unraced (s : State) : Label → Prop
  | .advance index env => ∀ call other call', s.calls[index]? = some call → other ≠ index →
      s.calls[other]? = some call' → ∀ t ∈ call.wants env, t ∉ call'.awaits
  | _ => True

/-! ## One call -/

/-- What a call has done for its list so far. -/
structure Reports (call : Call) (book : CheckBook) (running : HashMap TaskId RunningTask) :
    Prop where
  listed : ∀ found, call.found = some found → Listed book found
  recorded : ∀ found, call.found = some found → ∀ t ∈ found, t ∈ call.awaits ∨
    ∃ record ∈ book.stored ++ call.inHand, record.taskId = t ∧ record.status = .timeout
  distinct : call.awaits.Nodup
  running : ∀ t ∈ call.awaits, t ∈ running

theorem Reports.idle {call : Call} {book : CheckBook} {running : HashMap TaskId RunningTask}
    (unlisted : call.found = none) (free : call.awaits = []) : Reports call book running := by
  refine ⟨?_, ?_, by rw [free]; exact List.nodup_nil, by rw [free]; exact nofun⟩
  · intro found same
    cases unlisted.symm.trans same
  · intro found same
    cases unlisted.symm.trans same

section Sections

variable {env : Env} {scheduler scheduler' : TaskScheduler} {call call' : Call}
  {events : List Event} {book : CheckBook}

/-- The calls that may have a list now or after their next section. -/
def Call.lists : Call → Bool
  | .checking | .timingOut _ _ _ | .storing _ _ _ | .notifying _ _ | .done _ => true
  | _ => false

theorem Section.unlisted (ran : Section env scheduler call scheduler' call' events)
    (other : call.lists = false) : call'.found = none ∧ call'.awaits = [] := by
  cases ran <;> first | exact ⟨rfl, rfl⟩ | cases other

theorem Section.keeps_running (ran : Section env scheduler call scheduler' call' events)
    (other : call.lists = false) {t : TaskId} (running : t ∈ scheduler.runningTasks)
    (unwanted : t ∉ call.wants env) : t ∈ scheduler'.runningTasks := by
  cases ran with
  | register task nodeId => exact Finmap.mem_insert.mpr (.inr running)
  | result nodeId result here =>
    exact Finmap.mem_erase.mpr ⟨by simpa [Call.wants] using unwanted, running⟩
  | cancelRunning here =>
    exact Finmap.mem_erase.mpr ⟨by simpa [Call.wants] using unwanted, running⟩
  | firstTimeout | nextTimeout | store => cases other
  | _ => exact running

/-- The loop of a check comes to its next task, which is still running. -/
theorem Reports.nextTimeout {now : DateTime} {found remaining : List TaskId}
    (listed : Listed book found)
    (recorded : ∀ t ∈ found, t ∈ remaining ∨
      ∃ record ∈ book.stored, record.taskId = t ∧ record.status = .timeout)
    (distinct : remaining.Nodup) (running : ∀ t ∈ remaining, t ∈ scheduler.runningTasks) :
    Reports (Call.nextTimeout scheduler now found remaining).2.1 book
      (Call.nextTimeout scheduler now found remaining).1.runningTasks := by
  cases remaining with
  | nil =>
    refine ⟨?_, ?_, List.nodup_nil, nofun⟩
    · rintro _ ⟨⟩
      exact listed
    · rintro _ ⟨⟩ t member
      obtain never | ⟨record, stored, about⟩ := recorded t member
      · cases never
      · exact .inr ⟨record, List.mem_append_left _ stored, about⟩
  | cons first rest =>
    obtain ⟨absent, distinct⟩ := List.nodup_cons.mp distinct
    obtain ⟨task, here⟩ := Finmap.mem_iff.mp (running first List.mem_cons_self)
    have taken : Call.nextTimeout scheduler now found (first :: rest) =
        ({ scheduler with runningTasks := scheduler.runningTasks.erase first },
          .storing (finishRunning first task now .timeout timeoutResult)
            ⟨first, task.nodeId, timeoutResult⟩ (.timeouts now found rest),
          [.settled first .timeout]) := by
      simp only [Call.nextTimeout, takeNextRunning, takeRunning, here]
    rw [taken]
    refine ⟨?_, ?_, distinct, ?_⟩
    · rintro _ ⟨⟩
      exact listed
    · rintro _ ⟨⟩ t member
      obtain awaited | ⟨record, stored, about⟩ := recorded t member
      · obtain rfl | later := List.mem_cons.mp awaited
        · exact .inr ⟨_, List.mem_append_right _ (List.mem_singleton_self _), rfl, rfl⟩
        · exact .inl later
      · exact .inr ⟨record, List.mem_append_left _ stored, about⟩
    · intro t later
      refine Finmap.mem_erase.mpr ⟨ne_of_mem_of_not_mem later absent, ?_⟩
      exact running t (List.mem_cons_of_mem _ later)

theorem mem_timedOut {order : List (TaskId × RunningTask)} (now : DateTime)
    (listed : scheduler.runningTasks.Lists order) {t : TaskId} :
    t ∈ timedOut order now ↔
      ∃ task, scheduler.runningTasks.lookup t = some task ∧ task.timeoutAt < now := by
  rw [timedOut, List.mem_map]
  constructor
  · rintro ⟨⟨t, task⟩, member, rfl⟩
    obtain ⟨member, expired⟩ := List.mem_filter.mp member
    exact ⟨task, (listed.2 t task).mp member, by simpa using expired⟩
  · rintro ⟨task, found, expired⟩
    refine ⟨(t, task), List.mem_filter.mpr ⟨(listed.2 t task).mpr found, ?_⟩, rfl⟩
    exact decide_eq_true expired

/-- A call runs its next section. -/
theorem Reports.advance (reports : Reports call book scheduler.runningTasks)
    (unfinished : call.finished = false) (fits : env.Fits scheduler call) :
    Reports (call.advance env scheduler).2.1 (book.see env scheduler call)
      (call.advance env scheduler).1.runningTasks := by
  have ran := advance_section unfinished fits
  cases call with
  | checking =>
    have listed : scheduler.runningTasks.Lists env.runningOrder := fits
    refine Reports.nextTimeout ⟨_, _, rfl, ?_⟩ (fun t member => .inl member) ?_ ?_
    · intro t task here expired
      exact (mem_timedOut _ listed).mpr ⟨task, here, expired⟩
    · exact listed.1.sublist (List.filter_sublist.map Prod.fst)
    · intro t member
      obtain ⟨task, here, -⟩ := (mem_timedOut _ listed).mp member
      exact HashMap.mem_of_lookup here
  | timingOut now found remaining =>
    refine Reports.nextTimeout (reports.listed found rfl) ?_ reports.distinct reports.running
    intro t member
    obtain awaited | ⟨record, stored, about⟩ := reports.recorded found rfl t member
    · exact .inl awaited
    · exact .inr ⟨record, (List.mem_append.mp stored).resolve_right nofun, about⟩
  | storing completed notice resume =>
    obtain ⟨listed, recorded, distinct, running⟩ := reports
    refine ⟨listed, ?_, distinct, ?_⟩
    · intro found same t member
      obtain awaited | ⟨record, stored, about⟩ := recorded found same t member
      · exact .inl awaited
      · exact .inr ⟨record, List.mem_append_left _ stored, about⟩
    · intro t member
      change t ∈ (scheduler.storeCompletedTask completed env.completedOrder).1.runningTasks
      rw [runningTasks_storeCompletedTask]
      exact running t member
  | notifying notice resume =>
    obtain ⟨listed, recorded, distinct, running⟩ := reports
    cases resume with
    | timeouts now found remaining => exact ⟨listed, recorded, distinct, running⟩
    | finish outcome =>
      cases outcome with
      | timedOut found => exact ⟨listed, recorded, distinct, running⟩
      | _ => exact .idle rfl rfl
  | done outcome => cases unfinished
  | _ =>
    obtain ⟨unlisted, free⟩ := ran.unlisted rfl
    exact .idle unlisted free

/-- A task that a section does not want goes on running. -/
theorem keeps_running (unfinished : call.finished = false) (fits : env.Fits scheduler call)
    {t : TaskId} (running : t ∈ scheduler.runningTasks) (unwanted : t ∉ call.wants env) :
    t ∈ (call.advance env scheduler).1.runningTasks := by
  have checks : ∀ now found remaining, t ∉ remaining →
      t ∈ (Call.nextTimeout scheduler now found remaining).1.runningTasks := by
    intro now found remaining absent
    rw [Call.nextTimeout]
    cases taken : scheduler.takeNextRunning remaining with
    | none => exact running
    | some entry =>
      obtain ⟨first, task, rest, scheduler'⟩ := entry
      obtain ⟨listed, removed⟩ := takeNextRunning_eq_some taken
      obtain ⟨-, rfl⟩ := takeRunning_eq_some removed
      exact Finmap.mem_erase.mpr ⟨(ne_of_mem_of_not_mem listed absent).symm, running⟩
  have ran := advance_section unfinished fits
  cases call with
  | checking => exact checks _ _ _ unwanted
  | timingOut now found remaining => exact checks _ _ _ unwanted
  | storing completed notice resume =>
    change t ∈ (scheduler.storeCompletedTask completed env.completedOrder).1.runningTasks
    rwa [runningTasks_storeCompletedTask]
  | notifying notice resume => exact running
  | done outcome => cases unfinished
  | _ => exact ran.keeps_running rfl running unwanted

end Sections

/-! ## All calls -/

def Checked (s : State) (books : CheckBooks) : Prop :=
  ∀ index call, s.calls[index]? = some call →
    Reports call (books index) s.scheduler.runningTasks

section Runs

variable {maxRetries taskTimeoutSecs : Nat} {s s' : State} {books books' : CheckBooks}

/-- A call begins. -/
theorem Checked.begin (checked : Checked s books) {call : Call}
    (calls : s'.calls = s.calls ++ [call])
    (same : s'.scheduler.runningTasks = s.scheduler.runningTasks)
    (kept : ∀ index, index < s.calls.length → books' index = books index)
    (unlisted : call.found = none) (free : call.awaits = []) : Checked s' books' := by
  intro index call' here
  rw [calls] at here
  obtain inside | outside := Nat.lt_or_ge index s.calls.length
  · rw [List.getElem?_append_left inside] at here
    rw [kept index inside, same]
    exact checked index call' here
  · rw [List.getElem?_append_right outside] at here
    obtain rfl := List.mem_singleton.mp (List.mem_of_getElem? here)
    exact .idle unlisted free

/-- A call runs a section that takes no task another one awaits. -/
theorem Checked.advance (checked : Checked s books) {index : Nat} {call : Call} {env : Env}
    (here : s.calls[index]? = some call) (unfinished : call.finished = false)
    (fits : env.Fits s.scheduler call) (undisturbed : Unraced s (.advance index env)) :
    Checked (s.run index call env) (keepBooks books s (.advance index env)) := by
  have inside : index < s.calls.length := (List.getElem?_eq_some_iff.mp here).1
  intro other call' there
  have there : (s.calls.set index (call.advance env s.scheduler).2.1)[other]? = some call' := there
  simp only [keepBooks, here]
  by_cases this : other = index
  · subst this
    rw [List.getElem?_set_self inside] at there
    obtain rfl := Option.some_inj.mp there
    rw [Function.update_self]
    exact (checked other call here).advance unfinished fits
  · rw [List.getElem?_set_ne (Ne.symm this)] at there
    rw [Function.update_of_ne this]
    obtain ⟨listed, recorded, distinct, running⟩ := checked other call' there
    refine ⟨listed, recorded, distinct, fun t awaited => ?_⟩
    refine keeps_running unfinished fits (running t awaited) fun wanted => ?_
    exact undisturbed call other call' here this there t wanted awaited

theorem Checked.step (checked : Checked s books) {label : Label} (undisturbed : Unraced s label)
    (step : Step s label s') : Checked s' (keepBooks books s label) := by
  cases step with
  | submit submission now => exact checked.begin rfl rfl (fun _ _ => rfl) rfl rfl
  | schedule senders => exact checked.begin rfl rfl (fun _ _ => rfl) rfl rfl
  | complete taskId nodeId result => exact checked.begin rfl rfl (fun _ _ => rfl) rfl rfl
  | cancel taskId => exact checked.begin rfl rfl (fun _ _ => rfl) rfl rfl
  | checkTimeouts =>
    refine checked.begin rfl rfl (fun index inside => ?_) rfl rfl
    exact Function.update_of_ne (Nat.ne_of_lt inside) _ _
  | getStatus taskId => exact checked.begin rfl rfl (fun _ _ => rfl) rfl rfl
  | advance index call env here unfinished fits =>
    exact checked.advance here unfinished fits undisturbed

/-- If no call takes a task that a check has listed and not come to, the lists that the checks
return are accurate. -/
theorem timeouts_accurate
    (reached : ((withBooks maxRetries taskTimeoutSecs).restrict
      fun s label => Unraced s.1 label).Reachable (s, books))
    {index : Nat} {found : List TaskId}
    (returned : s.calls[index]? = some (.done (.timedOut found))) :
    Accurate (books index) found := by
  have checked : Checked s books := by
    refine reached.invariant (P := fun state => Checked state.1 state.2) ?_ ?_
    · rintro ⟨s, books⟩ ⟨rfl, -⟩ index call here
      cases here
    · rintro ⟨s, books⟩ label ⟨s', _⟩ checked ⟨undisturbed, step, rfl⟩
      exact Checked.step checked undisturbed step
  have reports := checked index _ returned
  refine ⟨fun t member => ?_, reports.listed found rfl⟩
  obtain never | ⟨record, stored, about⟩ := reports.recorded found rfl t member
  · cases never
  · exact ⟨record, (List.mem_append.mp stored).resolve_right nofun, about⟩

end Runs

/-! ## A result between two timeouts -/

def admitsUnraced (s : State) : Label → Bool
  | .advance index env => s.calls[index]?.all fun call => s.calls.zipIdx.all fun entry =>
    entry.2 = index || (call.wants env).all fun t => t ∉ entry.1.awaits
  | _ => true

theorem unraced_of_admits {s : State} {label : Label} (admitted : admitsUnraced s label = true) :
    Unraced s label := by
  cases label with
  | advance index env =>
    intro call other call' here distinct there t wanted
    simp only [admitsUnraced, here, Option.all_some, List.all_eq_true] at admitted
    have entry := admitted (call', other) (List.mem_zipIdx_iff_getElem?.mpr there)
    have unawaited := (Bool.or_eq_true_iff.mp entry).resolve_left (by simpa using distinct)
    exact of_decide_eq_true (List.all_eq_true.mp unawaited t wanted)
  | _ => trivial

abbrev calm : System (State × CheckBooks) Label :=
  (withBooks 3 300).restrict fun s label => Unraced s.1 label

/-- The list that a check has returned. -/
def Call.returned : Call → Option (List TaskId)
  | .done (.timedOut found) => some found
  | _ => none

theorem returned_iff {calls : List Call} {index : Nat} {found : List TaskId} :
    calls[index]?.bind Call.returned = some found ↔
      calls[index]? = some (.done (.timedOut found)) := by
  constructor
  · intro returned
    obtain ⟨call, here, same⟩ := Option.bind_eq_some_iff.mp returned
    cases call with
    | done outcome =>
      cases outcome <;> cases same
      exact here
    | _ => cases same
  · intro here
    rw [here]
    rfl

def checkPlayer (ids : List TaskId) : (withBooks 3 300).Player Label :=
  (player 3 300 ids).observe (fun _ => CheckBook.opening) keepBooks

def calmPlayer (ids : List TaskId) : calm.Player Label :=
  (checkPlayer ids).restrict (fun s label => admitsUnraced s.1 label) fun _ _ => unraced_of_admits

theorem timeouts_accurate_one : ∃ (s : State) (books : CheckBooks) (index : Nat),
    calm.Reachable (s, books) ∧ s.calls[index]? = some (.done (.timedOut [taskIdOf 0])) ∧
      Accurate (books index) [taskIdOf 0] := by
  obtain ⟨⟨s, books⟩, reached, returned⟩ := (calmPlayer [taskIdOf 0]).exists_reachable
    (s := (.initial 3 300, fun _ => .opening)) (.init ⟨rfl, rfl⟩)
    (Fleet.dispatching 0 1 ++ .checkTimeouts :: List.replicate 4 (.advance 2 expiredEnv))
    (fun s => s.1.calls[2]?.bind Call.returned = some [taskIdOf 0]) (by decide +kernel)
  have returned := returned_iff.mp returned
  exact ⟨s, books, 2, reached, returned, timeouts_accurate reached returned⟩

/-- Two tasks have expired. While the timeout of one is recorded, the result of the other one is
processed; the check lists it all the same. -/
theorem completed_task_listed : ¬ ∀ (s : State) (books : CheckBooks) (index : Nat)
    (found : List TaskId), (withBooks 3 300).Reachable (s, books) →
      s.calls[index]? = some (.done (.timedOut found)) → Accurate (books index) found := by
  intro always
  obtain ⟨⟨s, books⟩, reached, returned, others⟩ :=
    (checkPlayer [taskIdOf 1, taskIdOf 0]).exists_reachable
    (s := (.initial 3 300, fun _ => .opening)) (.init ⟨rfl, rfl⟩)
    (Fleet.dispatching 0 1 ++ Fleet.dispatching 2 3 ++ [.checkTimeouts, .advance 4 expiredEnv,
      .complete (taskIdOf 0) sampleNode.nodeId sampleResult, .advance 5 expiredEnv] ++
        List.replicate 3 (.advance 4 expiredEnv))
    (fun s => s.1.calls[4]?.bind Call.returned = some [taskIdOf 1, taskIdOf 0] ∧
      ∀ record ∈ (s.2 4).stored, record.taskId ≠ taskIdOf 0) (by decide +kernel)
  have accurate := always s books 4 _ reached (returned_iff.mp returned)
  obtain ⟨record, member, about, -⟩ := accurate.recorded (taskIdOf 0) (by simp)
  exact others record member about

end UHorse.Hub.Scheduler
