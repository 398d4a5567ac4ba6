import UHorse.Hub.Scheduler.Terminal

/-!
# The history of completed tasks

`completed_tasks` is cut when an insertion makes it hold more than 500 records: the 250 that were
completed first leave it. The times of the records need not follow the order of the insertions, so
a record can leave in the call that stores it.
-/

namespace UHorse.Hub.Scheduler

open UHorse.Lib UHorse.Protocol TaskScheduler

/-- Calls that store these records one after the other, each with the iteration order of the map
that its insertion leaves. -/
inductive Stores (start : TaskScheduler) : List CompletedTask → TaskScheduler → Prop
  | none : Stores start [] start
  | store {stored : List CompletedTask} {scheduler : TaskScheduler} (completed : CompletedTask)
      (order : List (TaskId × CompletedTask)) : Stores start stored scheduler →
      HashMap.Lists (scheduler.completedTasks.insert completed.taskId completed) order →
      Stores start (stored ++ [completed]) (scheduler.storeCompletedTask completed order).1

/-- What the call that stores `completed` makes of the records: `removed` leave them. -/
structure KeepsLatest (before : HashMap TaskId CompletedTask) (completed : CompletedTask)
    (after : HashMap TaskId CompletedTask) (removed : List TaskId) : Prop where
  bounded : after.keys.card ≤ 500
  half : removed = [] ∨ removed.Nodup ∧ removed.length = 250
  present : ∀ t ∈ removed, t ∈ before.insert completed.taskId completed
  rest : ∀ t, after.lookup t =
    if t ∈ removed then none else (before.insert completed.taskId completed).lookup t
  /-- No removed record is younger than one that is kept. -/
  oldest : ∀ t ∈ removed, ∀ gone ∈ (before.insert completed.taskId completed).lookup t,
    ∀ t', ∀ kept ∈ after.lookup t', gone.completedAt ≤ kept.completedAt
  /-- The new record is removed only if 250 or more of the others are not older. -/
  own : completed.taskId ∈ removed →
    250 ≤ (HashMap.keysWith (before.erase completed.taskId)
      fun other => completed.completedAt ≤ other.completedAt).card

section Call

variable {scheduler : TaskScheduler} {completed : CompletedTask}
  {stored : HashMap TaskId CompletedTask} {sorted : List (TaskId × CompletedTask)}

/-- Who leaves with the first part of a sorted history was completed before whoever stays. -/
theorem completedAt_le_of_eraseAll (listed : HashMap.Lists stored sorted)
    (ordered : sorted.Pairwise fun a b => a.2.completedAt ≤ b.2.completedAt) {count : Nat}
    {t t' : TaskId} {gone kept : CompletedTask} (member : t ∈ (sorted.take count).map Prod.fst)
    (found : stored.lookup t = some gone)
    (stays : (HashMap.eraseAll stored ((sorted.take count).map Prod.fst)).lookup t' = some kept) :
    gone.completedAt ≤ kept.completedAt := by
  rw [HashMap.lookup_eraseAll] at stays
  split at stays
  · cases stays
  · next absent =>
      have later : (t', kept) ∈ sorted.drop count := by
        have somewhere := (listed.2 t' kept).mpr stays
        rw [← List.take_append_drop count sorted] at somewhere
        refine (List.mem_append.mp somewhere).resolve_left fun early => absent ?_
        exact List.mem_map_of_mem (f := Prod.fst) early
      obtain ⟨⟨_, record⟩, early, rfl⟩ := List.mem_map.mp member
      have same := (listed.2 _ record).mp (List.mem_of_mem_take early)
      obtain rfl : record = gone := Option.some.inj (same.symm.trans found)
      rw [← List.take_append_drop count sorted] at ordered
      exact (List.pairwise_append.mp ordered).2.2 _ early _ later

/-- The call keeps the latest records, if there were no more than 500. -/
theorem keepsLatest_storeCompletedTask {order : List (TaskId × CompletedTask)}
    (few : scheduler.completedTasks.keys.card ≤ 500)
    (listed : HashMap.Lists (scheduler.completedTasks.insert completed.taskId completed) order) :
    KeepsLatest scheduler.completedTasks completed
      (scheduler.storeCompletedTask completed order).1.completedTasks
      (scheduler.storeCompletedTask completed order).2 := by
  by_cases full : (scheduler.completedTasks.insert completed.taskId completed).keys.card ≤ 500
  · rw [storeCompletedTask_of_le order full]
    exact ⟨full, .inl rfl, List.forall_mem_nil _, fun t => (if_neg List.not_mem_nil).symm,
      List.forall_mem_nil _, fun member => absurd member List.not_mem_nil⟩
  rw [storeCompletedTask, if_pos (not_le.mp full)]
  dsimp only
  have grown := HashMap.card_keys_insert_le scheduler.completedTasks completed.taskId completed
  have sorting : (order.mergeSort fun a b => a.2.completedAt ≤ b.2.completedAt).Pairwise
      fun a b => a.2.completedAt ≤ b.2.completedAt := by
    refine (List.pairwise_mergeSort (fun a b c first second => ?_) (fun a b => ?_) order).imp
      of_decide_eq_true
    · exact decide_eq_true ((of_decide_eq_true first).trans (of_decide_eq_true second))
    · simpa using le_total a.2.completedAt b.2.completedAt
  have listed := listed.perm (List.mergeSort_perm order
    fun a b => a.2.completedAt ≤ b.2.completedAt)
  generalize (order.mergeSort fun a b => a.2.completedAt ≤ b.2.completedAt) = sorted
    at sorting listed
  have oldest := fun t (member : t ∈ (sorted.take 250).map Prod.fst) gone found t' kept =>
    @completedAt_le_of_eraseAll _ _ listed sorting 250 t t' gone kept member found
  have inside : ∀ t ∈ (sorted.take 250).map Prod.fst,
      t ∈ scheduler.completedTasks.insert completed.taskId completed := by
    intro t member
    rw [List.map_take] at member
    exact (listed.mem_keys t).mp (List.mem_of_mem_take member)
  have distinct : ((sorted.take 250).map Prod.fst).Nodup := by
    rw [List.map_take]
    exact listed.1.sublist (List.take_sublist _ _)
  have half : ((sorted.take 250).map Prod.fst).length = 250 := by
    have size := listed.card_keys
    rw [List.length_map, List.length_take]
    omega
  have remaining := HashMap.card_keys_eraseAll distinct inside
  rw [half] at remaining
  refine ⟨by omega, .inr ⟨distinct, half⟩, inside, HashMap.lookup_eraseAll _ _, oldest,
    fun own => ?_⟩
  -- Whatever is kept is another record that is not older.
  refine le_trans ?_ (Finset.card_le_card (s := (HashMap.eraseAll
    (scheduler.completedTasks.insert completed.taskId completed)
      ((sorted.take 250).map Prod.fst)).keys) fun t member => ?_)
  · omega
  obtain ⟨kept, found⟩ := Finmap.mem_iff.mp (Finmap.mem_keys.mp member)
  have younger := oldest _ own completed (Finmap.lookup_insert _) t kept found
  have other : t ≠ completed.taskId := by
    rintro rfl
    rw [HashMap.lookup_eraseAll, if_pos own] at found
    cases found
  rw [HashMap.lookup_eraseAll] at found
  split at found
  · cases found
  · rw [HashMap.lookup_insert_ite, if_neg other] at found
    exact HashMap.mem_keysWith.mpr ⟨kept,
      (HashMap.lookup_erase_ite _ _ _).trans ((if_neg other).trans found), decide_eq_true younger⟩

end Call

/-- Whatever records were stored, and whatever the order of their times, the map holds no more than
500 of them, and the next call keeps the latest. -/
theorem history_bounded {start scheduler : TaskScheduler} {stored : List CompletedTask}
    (empty : start.completedTasks = ∅) (stores : Stores start stored scheduler) :
    scheduler.completedTasks.keys.card ≤ 500 ∧
      ∀ completed order,
        HashMap.Lists (scheduler.completedTasks.insert completed.taskId completed) order →
        KeepsLatest scheduler.completedTasks completed
          (scheduler.storeCompletedTask completed order).1.completedTasks
          (scheduler.storeCompletedTask completed order).2 := by
  have few : scheduler.completedTasks.keys.card ≤ 500 := by
    induction stores with
    | none => simp [empty]
    | store completed order _ listed ih => exact (keepsLatest_storeCompletedTask ih listed).bounded
  exact ⟨few, fun completed order listed => keepsLatest_storeCompletedTask few listed⟩

/-- The scheduler that has stored one record. -/
def oneStored : TaskScheduler :=
  ((TaskScheduler.new 3 300).storeCompletedTask (finishQueued (sampleTask 0) 2)
    [(taskIdOf 0, finishQueued (sampleTask 0) 2)]).1

/-- The record of a second task, which was cancelled before the first. -/
theorem history_bounded_sample : ∃ order,
    KeepsLatest oneStored.completedTasks (finishQueued (sampleTask 1) 1)
      (oneStored.storeCompletedTask (finishQueued (sampleTask 1) 1) order).1.completedTasks
      (oneStored.storeCompletedTask (finishQueued (sampleTask 1) 1) order).2 := by
  have listed : HashMap.Lists ((∅ : HashMap TaskId CompletedTask).insert (taskIdOf 0)
      (finishQueued (sampleTask 0) 2)) [(taskIdOf 0, finishQueued (sampleTask 0) 2)] :=
    HashMap.lists_empty.insert Finmap.notMem_empty _
  obtain ⟨order, lists⟩ := HashMap.exists_lists
    (oneStored.completedTasks.insert (taskIdOf 1) (finishQueued (sampleTask 1) 1))
  have stores : Stores (TaskScheduler.new 3 300) [finishQueued (sampleTask 0) 2] oneStored :=
    .store _ _ .none listed
  exact ⟨order, (history_bounded rfl stores).2 (finishQueued (sampleTask 1) 1) order lists⟩

end UHorse.Hub.Scheduler
