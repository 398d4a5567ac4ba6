import UHorse.Hub.Orchestrator
import UHorse.Lib.Readiness

/-!
# What the execution of a plan amounts to

The rounds of `execute_plan` are the rounds in which the subtasks run as far as their ids
and dependencies go: what becomes of a subtask does not matter to the rounds, except that a
wait that takes too long ends them. From this it follows when a plan is executed as its
dependencies ask for, and when its success is what it says.
-/

namespace UHorse.Hub

open UHorse.Lib UHorse.Protocol

namespace PlanEvent

def submitted? : PlanEvent → Option Nat
  | .submitted place _ => some place
  | .finished _ _ => none

def finished? : PlanEvent → Option Bool
  | .submitted _ _ => none
  | .finished _ success => some success

end PlanEvent

/-- Each subtask is submitted once at most and after the subtasks it depends on have
succeeded, and success means that all subtasks were submitted and succeeded. -/
structure RespectsPlan (plan : OrchestrationPlan) (run : PlanRun) : Prop where
  once : (run.log.filterMap PlanEvent.submitted?).Nodup
  ordered : ∀ before place submission after subtask,
    run.log = before ++ .submitted place submission :: after →
    plan.subtasks[place]? = some subtask → ∀ other required,
    plan.subtasks[other]? = some required → required.id ∈ subtask.dependencies →
    .finished other true ∈ before
  truthful : ∀ result, run.outcome = .ok result → result.success = true →
    ∀ place, place < plan.subtasks.length →
      (∃ submission, .submitted place submission ∈ run.log) ∧ .finished place true ∈ run.log

/-- The subtask at a place runs in a round, as far as ids and dependencies go. -/
abbrev RunsInRound (plan : OrchestrationPlan) (round place : Nat) (subtask : SubTask) : Prop :=
  RunsIn SubTask.id SubTask.dependencies plan.subtasks round place subtask

/-- No wait before a round takes too long. -/
def Undisturbed (env : PlanEnv) (plan : OrchestrationPlan) (round : Nat) : Prop :=
  ∀ earlier < round, ∀ place subtask, RunsInRound plan earlier place subtask →
    Orchestrator.answer env place ≠ none

/-- A subtask that runs depends on subtasks that ran before it and succeeded; and if all that
run succeed, all subtasks run. -/
structure Executable (env : PlanEnv) (plan : OrchestrationPlan) : Prop where
  dependencies : ∀ round place subtask, RunsInRound plan round place subtask →
    Undisturbed env plan round → ∀ other required, plan.subtasks[other]? = some required →
    required.id ∈ subtask.dependencies →
    (∃ earlier < round, RunsInRound plan earlier other required) ∧
      Orchestrator.answer env other = some true
  complete : (∀ round place subtask, RunsInRound plan round place subtask →
      Orchestrator.answer env place = some true) →
    ∀ place subtask, plan.subtasks[place]? = some subtask →
      ∃ round, RunsInRound plan round place subtask

namespace Orchestrator

variable {env : PlanEnv} {plan : OrchestrationPlan}

/-! ## The log of some rounds -/

/-- What the log tells about the rounds before `bound`. -/
structure Traced (env : PlanEnv) (plan : OrchestrationPlan) (bound : Nat) (log : List PlanEvent) :
    Prop where
  once : (log.filterMap PlanEvent.submitted?).Nodup
  submitted : ∀ place, (∃ submission, .submitted place submission ∈ log) ↔
    ∃ round < bound, ∃ subtask, RunsInRound plan round place subtask
  finished : ∀ place success, .finished place success ∈ log →
    (∃ round < bound, ∃ subtask, RunsInRound plan round place subtask) ∧
      answer env place = some success
  /-- What had finished when a subtask was submitted. -/
  prior : ∀ before place submission after, log = before ++ .submitted place submission :: after →
    ∃ round < bound, (∃ subtask, RunsInRound plan round place subtask) ∧
      Undisturbed env plan round ∧ ∀ other success, .finished other success ∈ before ↔
        (∃ earlier < round, ∃ required, RunsInRound plan earlier other required) ∧
          answer env other = some success

/-- The variables of the loop at the beginning of a round. -/
structure AtRound (env : PlanEnv) (plan : OrchestrationPlan) (round : Nat) (progress : Progress) :
    Prop where
  settled : ∀ k, k ∈ progress.completedIds ↔
    Settled SubTask.id SubTask.dependencies plan.subtasks round k
  remaining : ∀ place subtask, (subtask, place) ∈ progress.remaining ↔
    plan.subtasks[place]? = some subtask ∧
      ¬ Settled SubTask.id SubTask.dependencies plan.subtasks round subtask.id
  distinct : (progress.remaining.map Prod.snd).Nodup
  traced : Traced env plan round progress.log
  collected : ∀ earlier < round, ∀ place subtask, RunsInRound plan earlier place subtask →
    ∃ success, answer env place = some success ∧ .finished place success ∈ progress.log
  results : progress.subtaskResults.map SubTaskResult.success =
    progress.log.filterMap PlanEvent.finished?

/-- What is logged of a subtask that was waited for. -/
def finishedEvent (env : PlanEnv) (entry : SubTask × Nat) : PlanEvent :=
  .finished entry.2 ((answer env entry.2).getD false)

/-- Waiting goes through the subtasks up to the first that takes too long. -/
structure Collects (env : PlanEnv) (items : List (SubTask × Nat)) (progress after : Progress)
    (error : Option HubError) (done rest : List (SubTask × Nat)) : Prop where
  split : items = done ++ rest
  log : after.log = progress.log ++ done.map (finishedEvent env)
  answered : ∀ entry ∈ done, answer env entry.2 ≠ none
  results : after.subtaskResults.map SubTaskResult.success =
    progress.subtaskResults.map SubTaskResult.success ++
      done.map fun entry => (answer env entry.2).getD false
  ended : error = none ∧ rest = [] ∨
    (∃ reason, error = some reason) ∧ ∃ entry ∈ rest, answer env entry.2 = none

theorem exists_collects (env : PlanEnv) (items : List (SubTask × Nat)) (progress : Progress) :
    ∃ done rest, Collects env items progress (collect env items progress).1
      (collect env items progress).2 done rest := by
  induction items generalizing progress with
  | nil => exact ⟨[], [], rfl, by simp [collect], by simp, by simp [collect], .inl ⟨rfl, rfl⟩⟩
  | cons item items ih =>
    obtain ⟨subtask, place⟩ := item
    rw [collect]
    cases waited : waitForTask (env.taskId place) (env.poll place) with
    | error error =>
      have late : answer env place = none := by rw [answer, waited]
      refine ⟨[], (subtask, place) :: items, rfl, by simp, by simp, by simp, ?_⟩
      exact .inr ⟨⟨error, rfl⟩, (subtask, place), List.mem_cons_self, late⟩
    | ok completed =>
      have known : answer env place = some completed.success := by rw [answer, waited]
      obtain ⟨done, rest, collects⟩ := ih (progress.complete subtask place completed)
      refine ⟨(subtask, place) :: done, rest, ?_, ?_, ?_, ?_, collects.ended⟩
      · rw [collects.split, List.cons_append]
      · rw [collects.log]
        simp [Progress.complete, finishedEvent, known]
      · exact List.forall_mem_cons.mpr ⟨by simp [known], collects.answered⟩
      · rw [collects.results]
        simp [Progress.complete, known]

theorem append_eq_append_cons {α : Type} {first second before after : List α} {x : α}
    (whole : first ++ second = before ++ x :: after) :
    (∃ rest, first = before ++ x :: rest) ∨
      ∃ rest, before = first ++ rest ∧ second = rest ++ x :: after := by
  obtain ⟨rest, rfl, tail⟩ | ⟨rest, rfl, tail⟩ := List.append_eq_append_iff.mp whole
  · exact .inr ⟨rest, rfl, tail⟩
  · cases rest with
    | nil => exact .inr ⟨[], by simp, tail.symm⟩
    | cons y rest =>
      cases tail
      exact .inl ⟨rest, rfl⟩

theorem mem_ready_iff {round : Nat} {progress : Progress} (here : AtRound env plan round progress)
    (place : Nat) (subtask : SubTask) :
    (subtask, place) ∈ progress.ready ↔ RunsInRound plan round place subtask := by
  rw [Progress.ready, List.mem_filter, here.remaining]
  simp only [List.all_eq_true, List.contains_iff_mem, here.settled]
  constructor
  · rintro ⟨⟨found, fresh⟩, ready⟩
    exact ⟨found, ready, fresh⟩
  · rintro ⟨found, ready, fresh⟩
    exact ⟨⟨found, fresh⟩, ready⟩

namespace AtRound

variable {round : Nat} {progress : Progress}

theorem undisturbed (here : AtRound env plan round progress) : Undisturbed env plan round := by
  intro earlier less place subtask runs late
  obtain ⟨success, known, -⟩ := here.collected earlier less place subtask runs
  cases late.symm.trans known

theorem nodup_ready (here : AtRound env plan round progress) :
    (progress.ready.map Prod.snd).Nodup :=
  here.distinct.sublist (List.filter_sublist.map Prod.snd)

theorem finished_iff (here : AtRound env plan round progress) (place : Nat) (success : Bool) :
    .finished place success ∈ progress.log ↔
      (∃ earlier < round, ∃ subtask, RunsInRound plan earlier place subtask) ∧
        answer env place = some success := by
  constructor
  · exact here.traced.finished place success
  · rintro ⟨⟨earlier, less, subtask, runs⟩, known⟩
    obtain ⟨other, same, logged⟩ := here.collected earlier less place subtask runs
    obtain rfl := Option.some.inj (known.symm.trans same)
    exact logged

end AtRound

/-- The events of a round: its submissions, and the answers that came. -/
def roundEvents (env : PlanEnv) (ready done : List (SubTask × Nat)) : List PlanEvent :=
  (ready.map fun entry => .submitted entry.2 (submission env.context entry.1)) ++
    done.map (finishedEvent env)

theorem filterMap_submitted_roundEvents (ready done : List (SubTask × Nat)) :
    (roundEvents env ready done).filterMap PlanEvent.submitted? = ready.map Prod.snd := by
  rw [roundEvents, List.filterMap_append, List.filterMap_map, List.filterMap_map]
  have nothing : done.filterMap (PlanEvent.submitted? ∘ finishedEvent env) = [] :=
    List.filterMap_eq_nil_iff.mpr fun entry _ => rfl
  rw [nothing, List.append_nil]
  exact congrFun List.filterMap_eq_map ready

theorem filterMap_finished_roundEvents (ready done : List (SubTask × Nat)) :
    (roundEvents env ready done).filterMap PlanEvent.finished? =
      done.map fun entry => (answer env entry.2).getD false := by
  rw [roundEvents, List.filterMap_append, List.filterMap_map, List.filterMap_map]
  have nothing : ready.filterMap (PlanEvent.finished? ∘ fun entry =>
      .submitted entry.2 (submission env.context entry.1)) = [] :=
    List.filterMap_eq_nil_iff.mpr fun entry _ => rfl
  rw [nothing, List.nil_append]
  exact congrFun List.filterMap_eq_map done

theorem submitted_mem_roundEvents {ready done : List (SubTask × Nat)} {place : Nat} :
    (∃ submission, .submitted place submission ∈ roundEvents env ready done) ↔
      ∃ subtask, (subtask, place) ∈ ready := by
  simp only [roundEvents, List.mem_append, List.mem_map, finishedEvent, PlanEvent.submitted.injEq,
    Prod.exists, reduceCtorEq, and_false, exists_false, or_false]
  constructor
  · rintro ⟨_, subtask, _, inside, rfl, rfl⟩
    exact ⟨subtask, inside⟩
  · rintro ⟨subtask, inside⟩
    exact ⟨_, subtask, place, inside, rfl, rfl⟩

theorem finished_mem_roundEvents {ready done : List (SubTask × Nat)} {place : Nat}
    {success : Bool} :
    .finished place success ∈ roundEvents env ready done ↔
      ∃ subtask, (subtask, place) ∈ done ∧ (answer env place).getD false = success := by
  simp only [roundEvents, List.mem_append, List.mem_map, finishedEvent, PlanEvent.finished.injEq,
    Prod.exists, reduceCtorEq, and_false, exists_false, false_or]
  constructor
  · rintro ⟨subtask, _, inside, rfl, rfl⟩
    exact ⟨subtask, inside, rfl⟩
  · rintro ⟨subtask, inside, rfl⟩
    exact ⟨subtask, place, inside, rfl, rfl⟩

/-- Before the last submission of a round only submissions of that round were logged. -/
theorem not_finished_of_roundEvents {ready done : List (SubTask × Nat)}
    {before after : List PlanEvent} {place : Nat} {submission : Scheduler.Submission}
    (whole : roundEvents env ready done = before ++ .submitted place submission :: after)
    (other : Nat) (success : Bool) : .finished other success ∉ before := by
  intro inside
  obtain ⟨rest, submissions⟩ | ⟨rest, -, answers⟩ := append_eq_append_cons whole
  · have mem : .finished other success ∈ before ++ .submitted place submission :: rest :=
      List.mem_append_left _ inside
    rw [← submissions] at mem
    obtain ⟨entry, -, same⟩ := List.mem_map.mp mem
    cases same
  · have mem : .submitted place submission ∈ done.map (finishedEvent env) := by
      rw [answers]
      exact List.mem_append_right _ List.mem_cons_self
    obtain ⟨entry, -, same⟩ := List.mem_map.mp mem
    cases same

/-- What a round adds to the log. -/
theorem Traced.round {round : Nat} {progress : Progress}
    (here : AtRound env plan round progress) {done rest : List (SubTask × Nat)}
    (split : progress.ready = done ++ rest)
    (answered : ∀ entry ∈ done, answer env entry.2 ≠ none) :
    Traced env plan (round + 1) (progress.log ++ roundEvents env progress.ready done) where
  once := by
    rw [List.filterMap_append, filterMap_submitted_roundEvents]
    refine List.Nodup.append here.traced.once here.nodup_ready ?_
    intro place old new
    obtain ⟨⟨subtask, _⟩, ready, rfl⟩ := List.mem_map.mp new
    obtain ⟨event, logged, submits⟩ := List.mem_filterMap.mp old
    cases event with
    | finished => cases submits
    | submitted earlier submission =>
      cases submits
      obtain ⟨earlier, less, other, ran⟩ := (here.traced.submitted _).mp ⟨submission, logged⟩
      have again := (mem_ready_iff here _ _).mp ready
      exact absurd (ran.unique again).1 less.ne
  submitted place := by
    simp only [List.mem_append, exists_or, here.traced.submitted, submitted_mem_roundEvents,
      mem_ready_iff here]
    constructor
    · rintro (⟨earlier, less, ran⟩ | runs)
      · exact ⟨earlier, less.trans (Nat.lt_succ_self _), ran⟩
      · exact ⟨round, Nat.lt_succ_self _, runs⟩
    · rintro ⟨earlier, less, ran⟩
      obtain less | rfl := Nat.lt_succ_iff_lt_or_eq.mp less
      · exact .inl ⟨earlier, less, ran⟩
      · exact .inr ran
  finished place success logged := by
    obtain old | new := List.mem_append.mp logged
    · obtain ⟨⟨earlier, less, ran⟩, known⟩ := here.traced.finished place success old
      exact ⟨⟨earlier, less.trans (Nat.lt_succ_self _), ran⟩, known⟩
    · obtain ⟨subtask, inside, known⟩ := finished_mem_roundEvents.mp new
      have ready : (subtask, place) ∈ progress.ready := by
        rw [split]
        exact List.mem_append_left _ inside
      refine ⟨⟨round, Nat.lt_succ_self _, subtask, (mem_ready_iff here _ _).mp ready⟩, ?_⟩
      obtain ⟨value, came⟩ := Option.ne_none_iff_exists'.mp (answered _ inside)
      simp only at came
      rw [came] at known ⊢
      exact congrArg some known
  prior before place submission after whole := by
    obtain ⟨tail, old⟩ | ⟨front, rfl, new⟩ := append_eq_append_cons whole
    · obtain ⟨earlier, less, prior⟩ := here.traced.prior before place submission tail old
      exact ⟨earlier, less.trans (Nat.lt_succ_self _), prior⟩
    · have logged : .submitted place submission ∈ roundEvents env progress.ready done := by
        rw [new]
        exact List.mem_append_right _ List.mem_cons_self
      obtain ⟨subtask, ready⟩ := submitted_mem_roundEvents.mp ⟨_, logged⟩
      refine ⟨round, Nat.lt_succ_self _, ⟨subtask, (mem_ready_iff here _ _).mp ready⟩,
        here.undisturbed, fun other success => ?_⟩
      rw [List.mem_append, here.finished_iff]
      exact or_iff_left (not_finished_of_roundEvents new other success)

/-! ## A whole run -/

theorem traced_nil (env : PlanEnv) (plan : OrchestrationPlan) : Traced env plan 0 [] where
  once := List.nodup_nil
  submitted place := by simp
  finished place success logged := absurd logged List.not_mem_nil
  prior before place submission after whole := by simp at whole

theorem atRound_start (env : PlanEnv) (plan : OrchestrationPlan) :
    AtRound env plan 0 (.start plan) where
  settled k := by simp [Progress.start, Settled]
  remaining place subtask := by simp [Progress.start, Settled, List.mem_zipIdx_iff_getElem?]
  distinct := by
    simp only [Progress.start, List.zipIdx_map_snd]
    exact List.nodup_range'
  traced := traced_nil env plan
  collected earlier less := absurd less (Nat.not_lt_zero _)
  results := rfl

section

variable {round : Nat} {progress after : Progress}

theorem AtRound.settled_next (here : AtRound env plan round progress)
    (ids : ∀ k, k ∈ after.completedIds ↔
      k ∈ progress.completedIds ∨ ∃ entry ∈ progress.ready, entry.1.id = k) (k : String) :
    k ∈ after.completedIds ↔
      Settled SubTask.id SubTask.dependencies plan.subtasks (round + 1) k := by
  rw [ids, settled_succ_iff, here.settled]
  refine or_congr_right ⟨?_, ?_⟩
  · rintro ⟨⟨subtask, place⟩, ready, rfl⟩
    exact ⟨place, subtask, (mem_ready_iff here _ _).mp ready, rfl⟩
  · rintro ⟨place, subtask, runs, rfl⟩
    exact ⟨(subtask, place), (mem_ready_iff here _ _).mpr runs, rfl⟩

/-- A round whose waits all end is followed by the next. -/
theorem AtRound.next (here : AtRound env plan round progress)
    (ids : ∀ k, k ∈ after.completedIds ↔
      k ∈ progress.completedIds ∨ ∃ entry ∈ progress.ready, entry.1.id = k)
    (left : after.remaining = progress.remaining)
    (collects : Collects env progress.ready (progress.submit env.context progress.ready) after none
      progress.ready []) :
    AtRound env plan (round + 1) after.retain where
  settled := here.settled_next ids
  remaining place subtask := by
    rw [Progress.retain, List.mem_filter, left, here.remaining]
    simp only [Bool.not_eq_true', ← Bool.not_eq_true, List.contains_iff_mem,
      here.settled_next ids]
    constructor
    · rintro ⟨⟨found, -⟩, fresh⟩
      exact ⟨found, fresh⟩
    · rintro ⟨found, fresh⟩
      exact ⟨⟨found, fun settled => fresh (settled.mono (Nat.le_succ _))⟩, fresh⟩
  distinct := by
    rw [Progress.retain, left]
    exact here.distinct.sublist (List.filter_sublist.map Prod.snd)
  traced := by
    have log := collects.log
    rw [Progress.submit, List.append_assoc] at log
    rw [Progress.retain, log]
    exact Traced.round here (List.append_nil _).symm collects.answered
  collected earlier less place subtask runs := by
    have log := collects.log
    rw [Progress.submit, List.append_assoc] at log
    rw [Progress.retain, log]
    obtain less | rfl := Nat.lt_succ_iff_lt_or_eq.mp less
    · obtain ⟨success, known, logged⟩ := here.collected earlier less place subtask runs
      exact ⟨success, known, List.mem_append_left _ logged⟩
    · have ready := (mem_ready_iff here _ _).mpr runs
      obtain ⟨success, known⟩ := Option.ne_none_iff_exists'.mp (collects.answered _ ready)
      refine ⟨success, known, List.mem_append_right _ ?_⟩
      exact finished_mem_roundEvents.mpr ⟨subtask, ready, congrArg (Option.getD · false) known⟩
  results := by
    have log := collects.log
    rw [Progress.submit, List.append_assoc] at log
    rw [Progress.retain, log, collects.results, List.filterMap_append]
    exact congrArg₂ _ here.results (filterMap_finished_roundEvents _ _).symm

end

/-- How the rounds end: with a round in which nothing runs, or with a wait that took too long. -/
inductive Ending (env : PlanEnv) (plan : OrchestrationPlan) (progress : Progress) :
    Option HubError → Prop
  | stuck (round : Nat) : AtRound env plan round progress →
      (∀ place subtask, ¬ RunsInRound plan round place subtask) → Ending env plan progress none
  | cut (round : Nat) (reason : HubError) : Traced env plan (round + 1) progress.log →
      (∃ place subtask, RunsInRound plan round place subtask ∧ answer env place = none) →
      Ending env plan progress (some reason)

theorem ending_of_rounds {fuel round : Nat} {progress final : Progress} {error : Option HubError}
    (here : AtRound env plan round progress)
    (ended : rounds env fuel progress = some (final, error)) : Ending env plan final error := by
  induction fuel generalizing round progress with
  | zero => cases ended
  | succ fuel ih =>
    rw [rounds] at ended
    split at ended
    · next empty =>
        cases ended
        refine .stuck round here fun place subtask runs => ?_
        have ready := (mem_ready_iff here _ _).mpr runs
        rw [Progress.ready, List.isEmpty_iff.mp empty] at ready
        cases ready
    · split at ended
      · next stuck =>
          cases ended
          refine .stuck round here fun place subtask runs => ?_
          have ready := (mem_ready_iff here _ _).mpr runs
          rw [List.isEmpty_iff.mp stuck] at ready
          cases ready
      · obtain ⟨done, rest, collects⟩ :=
          exists_collects env progress.ready (progress.submit env.context progress.ready)
        have ids := @completedIds_collect env progress.ready
          (progress.submit env.context progress.ready)
        have left := collect_remaining env progress.ready
          (progress.submit env.context progress.ready)
        have split := collects.split
        split at ended
        · next after error same =>
            rw [same] at collects
            cases ended
            obtain ⟨none, -⟩ | ⟨-, ⟨subtask, place⟩, inside, late⟩ := collects.ended
            · cases none
            · have log := collects.log
              rw [Progress.submit, List.append_assoc] at log
              refine .cut round error ?_ ⟨place, subtask, ?_, late⟩
              · rw [log]
                exact Traced.round here split collects.answered
              · refine (mem_ready_iff here _ _).mp ?_
                rw [split]
                exact List.mem_append_right _ inside
        · next after same =>
            rw [same] at collects ids left
            obtain ⟨-, rfl⟩ | ⟨⟨reason, failed⟩, -⟩ := collects.ended
            · rw [List.append_nil] at split
              subst split
              exact ih (here.next (ids rfl) left collects) ended
            · cases failed

namespace Ending

variable {final : Progress} {error : Option HubError}

/-- The log accounts for every round up to the first wait that took too long. -/
theorem exists_traced (ending : Ending env plan final error) :
    ∃ bound, Traced env plan bound final.log ∧ ∀ round place subtask,
      RunsInRound plan round place subtask → Undisturbed env plan round → round < bound := by
  cases ending with
  | stuck bound here stuck =>
    refine ⟨bound, here.traced, fun round place subtask runs _ => ?_⟩
    by_contra beyond
    exact not_runsIn_of_stuck stuck (Nat.le_of_not_lt beyond) runs
  | cut last reason traced late =>
    obtain ⟨slow, victim, ran, late⟩ := late
    refine ⟨last + 1, traced, fun round place subtask runs undisturbed => ?_⟩
    by_contra beyond
    exact undisturbed last (Nat.le_of_not_lt beyond) slow victim ran late

/-- Without an error the verdict is about the subtasks that ran. -/
theorem success_iff (ending : Ending env plan final none) :
    (conclude env plan final).success = true ↔ ∀ round place subtask,
      RunsInRound plan round place subtask → answer env place = some true := by
  obtain @⟨bound, here, stuck⟩ := ending
  have verdict : (conclude env plan final).success = true ↔
      ∀ success ∈ final.subtaskResults.map SubTaskResult.success, success = true := by
    simp [conclude]
  rw [verdict, here.results]
  constructor
  · intro successes round place subtask runs
    have less : round < bound := by
      by_contra beyond
      exact not_runsIn_of_stuck stuck (Nat.le_of_not_lt beyond) runs
    obtain ⟨success, known, logged⟩ := here.collected round less place subtask runs
    rw [known, successes success (List.mem_filterMap.mpr ⟨_, logged, rfl⟩)]
  · rintro successes success inside
    obtain ⟨event, logged, finishes⟩ := List.mem_filterMap.mp inside
    cases event with
    | submitted => cases finishes
    | finished place =>
      cases finishes
      obtain ⟨⟨round, -, subtask, runs⟩, known⟩ := here.traced.finished place success logged
      exact Option.some.inj (known.symm.trans (successes round place subtask runs))

theorem finished_of_success (ending : Ending env plan final none) {round place : Nat}
    {subtask : SubTask} (runs : RunsInRound plan round place subtask)
    (succeeded : answer env place = some true) :
    (∃ submission, .submitted place submission ∈ final.log) ∧
      .finished place true ∈ final.log := by
  obtain @⟨bound, here, stuck⟩ := ending
  have less : round < bound := by
    by_contra beyond
    exact not_runsIn_of_stuck stuck (Nat.le_of_not_lt beyond) runs
  exact ⟨(here.traced.submitted place).mpr ⟨round, less, subtask, runs⟩,
    (here.finished_iff place true).mpr ⟨⟨round, less, subtask, runs⟩, succeeded⟩⟩

/-- With an error some subtask that ran did not end in time. -/
theorem late (ending : Ending env plan final error) (failed : error ≠ none) :
    ∃ round place subtask, RunsInRound plan round place subtask ∧ answer env place = none := by
  cases ending with
  | stuck => exact absurd rfl failed
  | cut round reason traced late =>
    obtain ⟨place, subtask, late⟩ := late
    exact ⟨round, place, subtask, late⟩

end Ending

theorem exists_ending {fuel : Nat} {run : PlanRun} (ran : executePlan env plan fuel = some run) :
    ∃ final error, Ending env plan final error ∧ run.log = final.log ∧
      (error = none → run.outcome = .ok (conclude env plan final)) ∧
      ∀ result, run.outcome = .ok result → error = none ∧ result = conclude env plan final := by
  rw [executePlan] at ran
  rcases ended : rounds env fuel (.start plan) with _ | ⟨final, _ | error⟩
  · rw [ended] at ran
    cases ran
  · rw [ended] at ran
    cases ran
    refine ⟨final, none, ending_of_rounds (atRound_start env plan) ended, rfl, fun _ => rfl, ?_⟩
    rintro _ ⟨⟩
    exact ⟨rfl, rfl⟩
  · rw [ended] at ran
    cases ran
    refine ⟨final, some error, ending_of_rounds (atRound_start env plan) ended, rfl, ?_, ?_⟩
    · intro finished
      cases finished
    · intro result returned
      cases returned

theorem executable_of_respectsPlan {fuel : Nat} {run : PlanRun}
    (ran : executePlan env plan fuel = some run) (respects : RespectsPlan plan run) :
    Executable env plan := by
  obtain ⟨final, error, ending, log, outcome, -⟩ := exists_ending ran
  obtain ⟨bound, traced, reached⟩ := ending.exists_traced
  rw [← log] at traced
  constructor
  · intro round place subtask runs undisturbed other required there depends
    have less := reached round place subtask runs undisturbed
    obtain ⟨submission, logged⟩ := (traced.submitted place).mpr ⟨round, less, subtask, runs⟩
    obtain ⟨before, after, whole⟩ := List.append_of_mem logged
    have finished := respects.ordered before place submission after subtask whole runs.here
      other required there depends
    obtain ⟨same, -, ⟨_, again⟩, -, prior⟩ := traced.prior before place submission after whole
    obtain ⟨⟨earlier, sooner, which, ran⟩, succeeded⟩ := (prior other true).mp finished
    obtain rfl := (again.unique runs).1
    obtain rfl := Option.some.inj (ran.here.symm.trans there)
    exact ⟨⟨earlier, sooner, ran⟩, succeeded⟩
  · intro successes place subtask there
    have fine : error = none := by
      by_contra failed
      obtain ⟨round, slow, victim, runs, late⟩ := ending.late failed
      cases late.symm.trans (successes round slow victim runs)
    subst fine
    have verdict := ending.success_iff.mpr successes
    have inside := (List.getElem?_eq_some_iff.mp there).1
    obtain ⟨submitted, -⟩ := respects.truthful _ (outcome rfl) verdict place inside
    obtain ⟨round, -, which, runs⟩ := (traced.submitted place).mp submitted
    obtain rfl := Option.some.inj (runs.here.symm.trans there)
    exact ⟨round, runs⟩

theorem respectsPlan_of_executable {fuel : Nat} {run : PlanRun}
    (ran : executePlan env plan fuel = some run) (executable : Executable env plan) :
    RespectsPlan plan run := by
  obtain ⟨final, error, ending, log, -, outcome⟩ := exists_ending ran
  obtain ⟨bound, traced, -⟩ := ending.exists_traced
  rw [← log] at traced
  refine ⟨traced.once, ?_, ?_⟩
  · intro before place submission after subtask whole here other required there depends
    obtain ⟨round, -, ⟨which, runs⟩, undisturbed, prior⟩ :=
      traced.prior before place submission after whole
    obtain rfl := Option.some.inj (runs.here.symm.trans here)
    obtain ⟨⟨earlier, sooner, ran⟩, succeeded⟩ :=
      executable.dependencies round place which runs undisturbed other required there depends
    exact (prior other true).mpr ⟨⟨earlier, sooner, required, ran⟩, succeeded⟩
  · intro result returned verdict place inside
    obtain ⟨rfl, rfl⟩ := outcome result returned
    have successes := ending.success_iff.mp verdict
    obtain ⟨round, runs⟩ := executable.complete successes place plan.subtasks[place]
      (List.getElem?_eq_getElem inside)
    rw [log]
    exact ending.finished_of_success runs (successes round place _ runs)

/-- `execute_plan` returns, and keeps to the plan just when what runs depends on what ran and
succeeded, and everything runs that can. -/
theorem executePlan_respectsPlan (env : PlanEnv) (plan : OrchestrationPlan) :
    ∃ run, (∀ more, executePlan env plan (plan.subtasks.length + 1 + more) = some run) ∧
      (RespectsPlan plan run ↔ Executable env plan) := by
  obtain ⟨run, ran⟩ := executePlan_returns env plan
  exact ⟨run, ran, executable_of_respectsPlan (ran 0), respectsPlan_of_executable (ran 0)⟩

/-! ## Two plans that are not kept to -/

def sampleSubTask (id : String) (dependencies : List String) : SubTask where
  id := id
  command := .file (.exists "README.md")
  dependencies := dependencies
  priority := .normal
  requiredCapabilities := none
  requiredTags := []

/-- Every task is found failed by the first poll. -/
def failingEnv : PlanEnv where
  context := .new ⟨"user-1"⟩ ⟨"session-1"⟩ "dingtalk" 0
  taskId := fun place => ⟨"task-" ++ Nat.repr place⟩
  poll := fun place _ => some
    { taskId := ⟨"task-" ++ Nat.repr place⟩
      status := .failed
      commandType := some .file
      priority := some .normal
      nodeId := some ⟨"node-1"⟩
      startedAt := some 0
      completedAt := some 0
      error := some "exit code 1" }
  now := 0

/-- `deploy` depends on `build`. -/
def deployPlan : OrchestrationPlan :=
  ⟨"plan-1", [sampleSubTask "build" [], sampleSubTask "deploy" ["build"]]⟩

/-- `build` depends on itself. -/
def circularPlan : OrchestrationPlan := ⟨"plan-2", [sampleSubTask "build" ["build"]]⟩

/-- After `build` failed `deploy` is submitted; and nothing at all counts as success. -/
theorem executePlan_disrespects :
    (∃ run, executePlan failingEnv deployPlan 3 = some run ∧ ¬ RespectsPlan deployPlan run) ∧
      ∃ run, executePlan failingEnv circularPlan 2 = some run ∧
        ¬ RespectsPlan circularPlan run := by
  constructor
  · refine ⟨_, rfl, fun respects => ?_⟩
    have finished := respects.ordered
      [.submitted 0 (submission failingEnv.context (sampleSubTask "build" [])), .finished 0 false] 1
      (submission failingEnv.context (sampleSubTask "deploy" ["build"])) [.finished 1 false]
      (sampleSubTask "deploy" ["build"]) rfl rfl 0 (sampleSubTask "build" []) rfl
      List.mem_cons_self
    simp at finished
  · refine ⟨_, rfl, fun respects => ?_⟩
    obtain ⟨⟨submission, submitted⟩, -⟩ := respects.truthful _ rfl rfl 0 Nat.zero_lt_one
    cases submitted

end Orchestrator

end UHorse.Hub
