import UHorse.Hub.Scheduler.Conservation

/-!
# Terminal records

Once a task has a record in `completed_tasks`, nothing that happens to the
scheduler touches the record before it is evicted: a later result or cancellation
finds the task neither running nor queued, and no call holds it any more. All of
this rests on the conservation of task ids, so it holds as long as the counter
behind the ids has not wrapped around. The last section continues the run that
wraps it.
-/

namespace UHorse.Hub.Scheduler

open UHorse.Lib UHorse.Protocol TaskScheduler

theorem lookup_storeCompletedTask (scheduler : TaskScheduler) (completed : CompletedTask)
    (order : List (TaskId × CompletedTask)) (t : TaskId) :
    (scheduler.storeCompletedTask completed order).1.completedTasks.lookup t =
      if t ∈ (scheduler.storeCompletedTask completed order).2 then none
      else if t = completed.taskId then some completed
      else scheduler.completedTasks.lookup t := by
  rw [storeCompletedTask]
  dsimp only
  split
  · dsimp only
    rw [HashMap.lookup_eraseAll, HashMap.lookup_insert_ite]
  · dsimp only
    rw [HashMap.lookup_insert_ite, if_neg List.not_mem_nil]

/-- A section leaves the record of a task it does not hold alone, or evicts it. -/
theorem Section.keeps_record {env : Env} {scheduler scheduler' : TaskScheduler}
    {call call' : Call} {events : List Event} {t : TaskId} {record : CompletedTask}
    (ran : Section env scheduler call scheduler' call' events) (apart : call.hand ≠ some t)
    (recorded : scheduler.completedTasks.lookup t = some record) :
    scheduler'.completedTasks.lookup t = some record ∨
      0 < (events.filterMap Event.evictedId).count t := by
  cases ran with
  | store completed notice resume =>
    rw [lookup_storeCompletedTask]
    split
    · next evicted =>
        right
        rw [List.count_pos_iff, List.mem_filterMap]
        exact ⟨.evicted t, List.mem_cons_of_mem _ (List.mem_map_of_mem evicted), rfl⟩
    · left
      rw [if_neg]
      · exact recorded
      · rintro rfl
        exact apart rfl
  | _ => exact .inl recorded

section Runs

variable {maxRetries taskTimeoutSecs : Nat} {s s' : State} {t : TaskId} {record : CompletedTask}

theorem Conserved.keeps_record {label : Label} (conserved : Conserved s)
    (recorded : s.scheduler.completedTasks.lookup t = some record) (step : Step s label s') :
    s'.scheduler.completedTasks.lookup t = some record ∨ s.evicted t < s'.evicted t := by
  obtain ⟨submission, now, rfl, rfl⟩ | ⟨call, opening, rfl⟩ |
    ⟨index, call, env, scheduler, call', events, rfl, here, fits, ran, rfl⟩ := step.cases
  · exact .inl recorded
  · exact .inl recorded
  · have apart : call.hand ≠ some t := by
      intro inHand
      have fresh := (conserved.hand_fresh (List.mem_of_getElem? here) inHand).2
      exact fresh (HashMap.mem_of_lookup recorded)
    obtain kept | evicted := ran.keeps_record apart recorded
    · exact .inl kept
    · right
      simp only [State.evicted, List.filterMap_append, List.count_append]
      omega

/-- A record that has existed is in `completed_tasks` or among the evicted ones. -/
def Recorded (t : TaskId) (record : CompletedTask) (before : Nat) (s : State) : Prop :=
  s.scheduler.completedTasks.lookup t = some record ∨ before < s.evicted t

theorem evicted_le_step {label : Label} (step : Step s label s') : s.evicted t ≤ s'.evicted t := by
  obtain ⟨submission, now, rfl, rfl⟩ | ⟨call, opening, rfl⟩ |
    ⟨index, call, env, scheduler, call', events, rfl, here, fits, ran, rfl⟩ := step.cases
  · simp [State.evicted, State.submit, List.filterMap_append, List.count_append]
  · exact Nat.le_refl _
  · simp only [State.evicted, List.filterMap_append, List.count_append]
    omega

theorem Recorded.step {label : Label} {before : Nat} (conserved : Conserved s)
    (unevicted : before ≤ s.evicted t) (recorded : Recorded t record before s)
    (step : Step s label s') : Recorded t record before s' := by
  obtain present | evicted := recorded
  · obtain kept | more := conserved.keeps_record present step
    · exact .inl kept
    · exact .inr (Nat.lt_of_le_of_lt unevicted more)
  · exact .inr (Nat.lt_of_lt_of_le evicted (evicted_le_step step))

/-- While the counter has not wrapped around, a terminal record stays as it is until it
is evicted, its task is never queued, held or running again, and at most one
notification is sent for the task in the whole run. -/
theorem terminal_record_absorbing {labels : List Label}
    (reached : ((system maxRetries taskTimeoutSecs).restrict CounterUnwrapped).Reachable s)
    (run : ((system maxRetries taskTimeoutSecs).restrict CounterUnwrapped).Exec s labels s')
    (recorded : s.scheduler.completedTasks.lookup t = some record) :
    (s'.evicted t = s.evicted t → s'.scheduler.completedTasks.lookup t = some record) ∧
      queued s'.scheduler t = 0 ∧ s'.held t = 0 ∧ t ∉ s'.scheduler.runningTasks ∧
      s'.notified t ≤ 1 := by
  have start := Conserved.of_reachable reached
  have final := Conserved.of_reachable (reached.exec run)
  have kept : Conserved s' ∧ s.evicted t ≤ s'.evicted t ∧ Recorded t record (s.evicted t) s' := by
    refine run.invariant (P := fun later => Conserved later ∧ s.evicted t ≤ later.evicted t ∧
      Recorded t record (s.evicted t) later) ?_ ⟨start, Nat.le_refl _, .inl recorded⟩
    rintro before label after ⟨conserved, unevicted, known⟩ ⟨allowed, step⟩
    exact ⟨conserved.step allowed step, unevicted.trans (evicted_le_step step),
      known.step conserved unevicted step⟩
  obtain ⟨-, -, known⟩ := kept
  have stored : 1 ≤ s'.stored t := by
    obtain present | evicted := known
    · have counted := HashMap.present_of_mem (HashMap.mem_of_lookup present)
      have records := final.records t
      omega
    · have records := final.records t
      omega
  have balance := final.balance t
  have notices := final.notices t
  have once := final.drawn_le_one t
  refine ⟨?_, by omega, by omega, ?_, by omega⟩
  · intro unevicted
    obtain present | evicted := known
    · exact present
    · omega
  · apply HashMap.present_eq_zero.mp
    omega

end Runs

/-! ## The first task again -/

/-- Cancel the first task while it waits, before any other task has a record. -/
theorem cancelFirst {s : State} (queues : s.scheduler.pendingTasks = firstAnd [])
    (completed : s.scheduler.completedTasks = ∅) :
    ∃ s' labels record, ((system 3 300).restrict CounterUnwrapped).Exec s labels s' ∧
      s'.scheduler.completedTasks.lookup (taskIdOf 0) = some record ∧
      s'.scheduler.taskCounter = s.scheduler.taskCounter := by
  let id := taskIdOf 0
  let record := finishQueued (sampleTask 0) 0
  let storing := Call.storing record ⟨id, pendingCancelled, cancelledResult⟩
    (.finish (.cancelled id (.ok ())))
  let scheduler := s.scheduler.setQueue .normal []
  have begun : ((system 3 300).restrict CounterUnwrapped).Exec s [.cancel id]
      (s.begin (.cancelling id)) := .single ⟨trivial, .cancel s id⟩
  have taken : s.scheduler.takeQueued schedulingOrder id = some (sampleTask 0, scheduler) := by
    have first : (sampleTask 0).taskId = id := rfl
    simp [takeQueued, schedulingOrder, takeFrom, queues, firstAnd, first, scheduler]
  have takes : (Call.cancelling id).advance (quietEnv []) s.scheduler =
      (scheduler, storing, [.settled id .cancellation]) := by
    simp only [Call.advance, quietEnv, taken, storing, record, id]
  have cancelled := begun.snoc (a := Label.advance s.calls.length (quietEnv []))
    ⟨trivial, .advance _ _ _ _ List.getElem?_concat_length rfl (List.Perm.refl _)⟩
  simp only [State.run, State.begin, takes] at cancelled
  have listed : HashMap.Lists (scheduler.completedTasks.insert record.taskId record)
      [(id, record)] := by
    change HashMap.Lists (s.scheduler.completedTasks.insert id record) _
    rw [completed]
    exact HashMap.lists_empty.insert Finmap.notMem_empty record
  have last : ((s.calls ++ [Call.cancelling id]).set s.calls.length storing)[s.calls.length]? =
      some storing := by
    simp
  have stored := cancelled.snoc (a := Label.advance s.calls.length (quietEnv [(id, record)]))
    ⟨trivial, .advance _ _ _ _ last rfl listed⟩
  obtain ⟨-, -, counter⟩ := storeCompletedTask_queues scheduler record [(id, record)]
  refine ⟨_, _, record, stored, ?_, counter⟩
  have few : (scheduler.completedTasks.insert record.taskId record).keys.card ≤ 500 := by
    change (s.scheduler.completedTasks.insert id record).keys.card ≤ 500
    rw [completed]
    decide
  change (scheduler.storeCompletedTask record [(id, record)]).1.completedTasks.lookup id = _
  rw [storeCompletedTask_of_le _ few]
  exact Finmap.lookup_insert _

theorem terminal_record_absorbing_cancelled :
    ∃ s record, ((system 3 300).restrict CounterUnwrapped).Reachable s ∧
      s.scheduler.completedTasks.lookup (taskIdOf 0) = some record ∧
      ∃ s' labels, labels ≠ [] ∧
        ((system 3 300).restrict CounterUnwrapped).Exec s labels s' ∧
        queued s'.scheduler (taskIdOf 0) = 0 := by
  obtain ⟨s, labels, record, run, recorded, -⟩ := cancelFirst firstWaits_one.queues rfl
  have reached := oneWaiting_reachable.exec run
  have again : ((system 3 300).restrict CounterUnwrapped).Exec s [.cancel (taskIdOf 0)]
      (s.begin (.cancelling (taskIdOf 0))) := .single ⟨trivial, Step.cancel s _⟩
  exact ⟨s, record, reached, recorded, _, _, by simp, again,
    (terminal_record_absorbing reached again recorded).2.1⟩

/-- The first task is cancelled after `2 ^ 64` draws, and the next submission puts its
id back into a queue while its record is there. -/
theorem terminal_record_requeued :
    ∃ s record s' labels, (system 3 300).Reachable s ∧
      s.scheduler.completedTasks.lookup (taskIdOf 0) = some record ∧
      (system 3 300).Exec s labels s' ∧ s'.evicted (taskIdOf 0) = s.evicted (taskIdOf 0) ∧
      queued s'.scheduler (taskIdOf 0) ≠ 0 := by
  obtain ⟨s₀, waits, completed⟩ := exists_firstWaits (2 ^ 64 - 1)
  obtain ⟨s, labels, record, run, recorded, counter⟩ := cancelFirst waits.queues completed
  have reached := waits.reached.exec run.of_restrict
  have wrapped : s.scheduler.taskCounter = 0 := by
    rw [counter, waits.counter]
    omega
  have drawn : (system 3 300).Exec s [.submit sampleSubmission 0] (s.submit sampleSubmission 0) :=
    .single (Step.submit s sampleSubmission 0)
  have last : (s.submit sampleSubmission 0).calls[s.calls.length]? =
      some (.pushing (sampleSubmission.queued (taskIdOf 0) s.scheduler.maxRetries 0)) := by
    simp [State.submit, generateTaskId, wrapped]
  have pushed := drawn.snoc (Step.advance _ _ _ (quietEnv []) last rfl trivial)
  refine ⟨s, record, _, _, reached, recorded, pushed, ?_, ?_⟩
  · have unevicted : ∀ drawn, [Event.drawn drawn].filterMap Event.evictedId = [] := fun _ => rfl
    simp [State.run, Call.advance, State.submit, State.evicted, unevicted]
  · have moved := queued_push (s.submit sampleSubmission 0).scheduler
      (sampleSubmission.queued (taskIdOf 0) s.scheduler.maxRetries 0) (taskIdOf 0)
    have counted : tick (sampleSubmission.queued (taskIdOf 0) s.scheduler.maxRetries 0).taskId
        (taskIdOf 0) = 1 := tick_self _
    simp only [State.run, Call.advance]
    omega

end UHorse.Hub.Scheduler
