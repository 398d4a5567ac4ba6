import UHorse.Hub.Scheduler.Interleaving

/-!
# Executing an orchestration plan

`execute_plan` goes through a plan in rounds. A round submits every remaining subtask whose
dependencies are all in `completed_ids`, waits for each of them in turn, enters its id into
`completed_ids`, whatever became of it, and drops the subtasks whose id is there.

The scheduler is outside: it gives each submission a task id and answers the polls of
`wait_for_task`. Subtasks are told apart by their place in the plan, as ids may repeat.
-/

namespace UHorse.Hub

open UHorse.Lib UHorse.Protocol

structure SubTask where
  id : String
  command : Command
  dependencies : List String
  priority : Priority
  requiredCapabilities : Option NodeCapabilities
  requiredTags : List String

structure OrchestrationPlan where
  planId : String
  subtasks : List SubTask

structure SubTaskResult where
  id : String
  taskId : TaskId
  nodeId : NodeId
  success : Bool
  output : String
  error : Option String

structure OrchestrationResult where
  planId : String
  success : Bool
  subtaskResults : List SubTaskResult
  summary : String
  completedAt : DateTime

structure TaskCompletion where
  taskId : TaskId
  nodeId : NodeId
  success : Bool
  output : Option String
  error : Option String

/-- The scheduler as a plan meets it: the task id for the subtask at a place, and what the
polls for it are answered. -/
structure PlanEnv where
  context : TaskContext
  taskId : Nat → TaskId
  poll : Nat → Nat → Option TaskStatusInfo
  now : DateTime

inductive PlanEvent
  | submitted (place : Nat) (submission : Scheduler.Submission)
  | finished (place : Nat) (success : Bool)

/-- What a call of `execute_plan` did and what it returned. -/
structure PlanRun where
  log : List PlanEvent
  outcome : Except HubError OrchestrationResult

namespace Orchestrator

def completion (taskId : TaskId) (status : TaskStatusInfo) : Option TaskCompletion :=
  let nodeId := status.nodeId.getD ⟨"unknown"⟩
  match status.status with
  | .completed => some ⟨taskId, nodeId, true, none, status.error⟩
  | .failed => some ⟨taskId, nodeId, false, none, status.error⟩
  | .cancelled => some ⟨taskId, nodeId, false, none, status.error⟩
  | .timeout => some ⟨taskId, nodeId, false, none, status.error⟩
  | _ => none

/-- A hundred polls; the first terminal status decides. -/
def waitForTask (taskId : TaskId) (poll : Nat → Option TaskStatusInfo) :
    Except HubError TaskCompletion :=
  match (List.range 100).findSome? fun attempt => (poll attempt).bind (completion taskId) with
  | some completed => .ok completed
  | none => .error (.timeout ("Task " ++ taskId.value ++ " did not complete in time"))

def submission (context : TaskContext) (subtask : SubTask) : Scheduler.Submission where
  command := subtask.command
  context := context
  priority := subtask.priority
  requiredCapabilities := subtask.requiredCapabilities
  requiredTags := subtask.requiredTags
  workspaceHint := none

def summarizeResults (results : List SubTaskResult) : String :=
  let total := results.length
  let successful := results.countP fun result => result.success
  if successful = total then "All " ++ Nat.repr total ++ " tasks completed successfully"
  else Nat.repr successful ++ "/" ++ Nat.repr total ++ " tasks completed successfully"

/-- The variables of the loop, with the log of what was done. -/
structure Progress where
  completedIds : List String
  subtaskResults : List SubTaskResult
  remaining : List (SubTask × Nat)
  log : List PlanEvent

namespace Progress

def start (plan : OrchestrationPlan) : Progress := ⟨[], [], plan.subtasks.zipIdx, []⟩

def ready (progress : Progress) : List (SubTask × Nat) :=
  progress.remaining.filter fun entry =>
    entry.1.dependencies.all fun dependency => progress.completedIds.contains dependency

def submit (progress : Progress) (context : TaskContext) (ready : List (SubTask × Nat)) :
    Progress :=
  { progress with
    log := progress.log ++
      ready.map fun entry => .submitted entry.2 (submission context entry.1) }

def complete (progress : Progress) (subtask : SubTask) (place : Nat)
    (completed : TaskCompletion) : Progress :=
  { progress with
    completedIds := subtask.id :: progress.completedIds
    subtaskResults := progress.subtaskResults ++
      [⟨subtask.id, completed.taskId, completed.nodeId, completed.success,
        completed.output.getD "", completed.error⟩]
    log := progress.log ++ [.finished place completed.success] }

def retain (progress : Progress) : Progress :=
  { progress with
    remaining := progress.remaining.filter fun entry =>
      !progress.completedIds.contains entry.1.id }

end Progress

/-- Wait for the submitted subtasks in their order, up to the first that takes too long. -/
def collect (env : PlanEnv) : List (SubTask × Nat) → Progress → Progress × Option HubError
  | [], progress => (progress, none)
  | (subtask, place) :: rest, progress =>
    match waitForTask (env.taskId place) (env.poll place) with
    | .error error => (progress, some error)
    | .ok completed => collect env rest (progress.complete subtask place completed)

/-- The loop, for at most `fuel` rounds. A round with a subtask ready makes progress. -/
def rounds (env : PlanEnv) : Nat → Progress → Option (Progress × Option HubError)
  | 0, _ => none
  | fuel + 1, progress =>
    if progress.remaining.isEmpty then some (progress, none)
    else if progress.ready.isEmpty then some (progress, none)
    else
      match collect env progress.ready (progress.submit env.context progress.ready) with
      | (progress, some error) => some (progress, some error)
      | (progress, none) => rounds env fuel progress.retain

def conclude (env : PlanEnv) (plan : OrchestrationPlan) (progress : Progress) :
    OrchestrationResult where
  planId := plan.planId
  success := progress.subtaskResults.all fun result => result.success
  subtaskResults := progress.subtaskResults
  summary := summarizeResults progress.subtaskResults
  completedAt := env.now

def executePlan (env : PlanEnv) (plan : OrchestrationPlan) (fuel : Nat) : Option PlanRun :=
  match rounds env fuel (.start plan) with
  | none => none
  | some (progress, some error) => some ⟨progress.log, .error error⟩
  | some (progress, none) => some ⟨progress.log, .ok (conclude env plan progress)⟩

/-- What waiting for a subtask comes to: whether it succeeded, or nothing in time. -/
def answer (env : PlanEnv) (place : Nat) : Option Bool :=
  match waitForTask (env.taskId place) (env.poll place) with
  | .ok completed => some completed.success
  | .error _ => none

/-! ## Termination -/

theorem collect_remaining (env : PlanEnv) (items : List (SubTask × Nat)) (progress : Progress) :
    (collect env items progress).1.remaining = progress.remaining := by
  induction items generalizing progress with
  | nil => rfl
  | cons item items ih =>
    obtain ⟨subtask, place⟩ := item
    rw [collect]
    split
    · rfl
    · exact ih _

theorem completedIds_collect (env : PlanEnv) {items : List (SubTask × Nat)} {progress : Progress}
    (unhurt : (collect env items progress).2 = none) (k : String) :
    k ∈ (collect env items progress).1.completedIds ↔
      k ∈ progress.completedIds ∨ ∃ item ∈ items, item.1.id = k := by
  induction items generalizing progress with
  | nil => simp [collect]
  | cons item items ih =>
    obtain ⟨subtask, place⟩ := item
    rw [collect] at unhurt ⊢
    split at unhurt
    · cases unhurt
    · rw [ih unhurt, List.exists_mem_cons_iff]
      simp only [Progress.complete, List.mem_cons, eq_comm (a := k)]
      tauto

/-- A round that is not cut short leaves fewer subtasks. -/
theorem length_retain_lt (env : PlanEnv) {progress : Progress} (some_ : progress.ready ≠ [])
    (unhurt : (collect env progress.ready (progress.submit env.context progress.ready)).2 = none) :
    (collect env progress.ready
        (progress.submit env.context progress.ready)).1.retain.remaining.length <
      progress.remaining.length := by
  obtain ⟨entry, inside⟩ := List.exists_mem_of_ne_nil _ some_
  have done := (completedIds_collect env unhurt entry.1.id).mpr (.inr ⟨entry, inside, rfl⟩)
  rw [Progress.retain, collect_remaining]
  refine List.length_filter_lt_length_iff_exists.mpr ⟨entry, (List.mem_filter.mp inside).1, ?_⟩
  simpa using done

theorem rounds_isSome (env : PlanEnv) (fuel : Nat) (progress : Progress)
    (enough : progress.remaining.length < fuel) : (rounds env fuel progress).isSome = true := by
  induction fuel generalizing progress with
  | zero => exact absurd enough (Nat.not_lt_zero _)
  | succ fuel ih =>
    rw [rounds]
    split
    · rfl
    · split
      · rfl
      · next waiting =>
          have some_ : progress.ready ≠ [] := by simpa using waiting
          split
          · rfl
          · next collected ran =>
              have fewer := length_retain_lt env some_ (by rw [ran])
              rw [ran] at fewer
              exact ih _ (by simp only at fewer; omega)

theorem rounds_mono {env : PlanEnv} {fuel more : Nat} {progress : Progress}
    {final : Progress × Option HubError} (ended : rounds env fuel progress = some final)
    (le : fuel ≤ more) : rounds env more progress = some final := by
  induction fuel generalizing more progress with
  | zero => cases ended
  | succ fuel ih =>
    cases more with
    | zero => exact absurd le (Nat.not_succ_le_zero _)
    | succ more =>
      unfold rounds at ended ⊢
      split
      · next empty => rwa [if_pos empty] at ended
      · next some_ =>
          rw [if_neg some_] at ended
          split
          · next stuck => rwa [if_pos stuck] at ended
          · next waiting =>
              rw [if_neg waiting] at ended
              split at ended
              · exact ended
              · exact ih ended (Nat.le_of_succ_le_succ le)

/-- `execute_plan` returns. -/
theorem executePlan_returns (env : PlanEnv) (plan : OrchestrationPlan) :
    ∃ run, ∀ more, executePlan env plan (plan.subtasks.length + 1 + more) = some run := by
  have enough : (Progress.start plan).remaining.length < plan.subtasks.length + 1 := by
    simp [Progress.start]
  obtain ⟨final, ended⟩ := Option.isSome_iff_exists.mp (rounds_isSome env _ _ enough)
  obtain ⟨progress, error⟩ := final
  cases error with
  | none =>
    refine ⟨⟨progress.log, .ok (conclude env plan progress)⟩, fun more => ?_⟩
    rw [executePlan, rounds_mono ended (Nat.le_add_right _ more)]
  | some error =>
    refine ⟨⟨progress.log, .error error⟩, fun more => ?_⟩
    rw [executePlan, rounds_mono ended (Nat.le_add_right _ more)]

end Orchestrator

end UHorse.Hub
