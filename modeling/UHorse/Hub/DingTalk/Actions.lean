import UHorse.Hub.DingTalk.Handlers

/-!
# Actions on one session

Most actions of the handlers change the turn or the transcript of one session and
nothing else that a contract talks about. `Tame` says so for the operations of the
session runtime, and `Tolerates` that a contract permits them; whatever is built
from such actions is then steady under any contract that tolerates them.
-/

namespace UHorse.Hub.DingTalk

open UHorse.Lib UHorse.Protocol

/-- An operation that changes the turn or the transcript of one session only, keeps
its turn id and makes no binding. -/
structure Tame (key : String) (change : SessionRuntime → SessionRuntime) : Prop where
  ids : ∀ runtime other, ((change runtime).turnState other).map SessionTurnState.turnId =
    (runtime.turnState other).map SessionTurnState.turnId
  bindings : ∀ runtime taskId binding, (change runtime).taskBinding taskId = some binding →
    runtime.taskBinding taskId = some binding
  elsewhere : ∀ runtime other, other ≠ key →
    (change runtime).turns.lookup other = runtime.turns.lookup other ∧
      (change runtime).transcripts.lookup other = runtime.transcripts.lookup other

namespace Tame

variable {key : String}

theorem id : Tame key id where
  ids _ _ := rfl
  bindings _ _ _ found := found
  elsewhere _ _ _ := ⟨rfl, rfl⟩

theorem updateTurn {change : SessionTurnState → SessionTurnState}
    (keeps : ∀ turn, (change turn).turnId = turn.turnId) :
    Tame key (fun runtime => runtime.updateTurn key change) where
  ids runtime other := runtime.turnId_updateTurn key other change keeps
  bindings runtime taskId binding found := by
    unfold SessionRuntime.taskBinding at found ⊢
    rwa [runtime.taskBindings_updateTurn] at found
  elsewhere runtime other distinct :=
    ⟨runtime.turns_updateTurn_of_ne distinct change, by rw [runtime.transcripts_updateTurn]⟩

theorem updateTranscript {change : SessionTranscript → SessionTranscript} :
    Tame key (fun runtime => runtime.updateTranscript key change) where
  ids runtime other := by
    unfold SessionRuntime.turnState
    rw [runtime.turns_updateTranscript]
  bindings runtime taskId binding found := by
    unfold SessionRuntime.taskBinding at found ⊢
    rwa [runtime.taskBindings_updateTranscript] at found
  elsewhere runtime other distinct :=
    ⟨by rw [runtime.turns_updateTranscript],
      runtime.transcripts_updateTranscript_of_ne distinct change⟩

theorem setTranscript {transcript : SessionRuntime → SessionTranscript} :
    Tame key (fun runtime =>
      { runtime with transcripts := runtime.transcripts.insert key (transcript runtime) }) where
  ids _ _ := rfl
  bindings _ _ _ found := found
  elsewhere _ other distinct := by
    refine ⟨rfl, ?_⟩
    rw [HashMap.lookup_insert_ite, if_neg distinct]

theorem removeBinding {taskId : TaskId} :
    Tame key (fun runtime => runtime.removeBinding (some taskId)) where
  ids _ _ := rfl
  bindings runtime other binding found := by
    unfold SessionRuntime.removeBinding SessionRuntime.taskBinding at found
    rw [HashMap.lookup_erase_ite] at found
    split at found
    · cases found
    · exact found
  elsewhere _ _ _ := ⟨rfl, rfl⟩

end Tame

/-- The actions that only look around or change one session. -/
def Note.idle : Note → Bool
  | .plain | .checkCancelled _ | .plan _ | .workspace .. | .clear => true
  | _ => false

/-- Idle actions may change the session `key`, and the reply routes. -/
structure Tolerates {κ : Type} (observer : Observer Web WebEnv Note κ)
    (contract : Contract Web WebEnv Note κ) (seen : κ) (key : String) : Prop where
  unseen : ∀ note env s, note.idle = true → observer.see seen note env s = seen
  tame : ∀ note env s change routes, note.idle = true → Tame key change →
    contract.grants seen note env s { s with runtime := change s.runtime, routes }

section Steady

variable {κ α : Type} {observer : Observer Web WebEnv Note κ}
  {contract : Contract Web WebEnv Note κ} {seen : κ} {key : String}
  (tolerated : Tolerates observer contract seen key)
include tolerated

theorem update_steady (change : WebEnv → SessionRuntime → SessionRuntime)
    (tame : ∀ env, Tame key (change env)) (value : WebEnv → Web → α) :
    (Program.update .plain (fun env s => { s with runtime := change env s.runtime })
      value).Steady observer contract seen := by
  refine Program.Keeps.update ?_ ?_
  · intro env s _ _
    exact tolerated.tame .plain env s (change env) s.routes rfl (tame env)
  · intro env s _ _
    exact tolerated.unseen .plain env s rfl

theorem onRuntime_steady {change : WebEnv → SessionRuntime → SessionRuntime}
    (tame : ∀ env, Tame key (change env)) : (onRuntime change).Steady observer contract seen :=
  update_steady tolerated change tame _

theorem query_steady {note : Note} (idle : note.idle = true) (value : WebEnv → Web → α) :
    (Program.query note value).Steady observer contract seen := by
  refine Program.Keeps.update ?_ ?_
  · intro env s _ _
    exact tolerated.tame note env s id s.routes idle Tame.id
  · intro env s _ _
    exact tolerated.unseen note env s idle

theorem appendTranscriptEvent_steady (kind : TranscriptEventKind) (content : String) :
    (appendTranscriptEvent key kind content).Steady observer contract seen :=
  onRuntime_steady tolerated fun _ => Tame.setTranscript

theorem beginToolCall_steady (toolName : String) :
    (beginToolCall key toolName).Steady observer contract seen :=
  update_steady tolerated (fun env runtime => runtime.beginToolCall key env.uuid toolName)
    (fun _ => Tame.updateTurn fun _ => rfl) _

theorem incrementStepCount_steady : (incrementStepCount key).Steady observer contract seen :=
  update_steady tolerated (fun _ runtime => runtime.incrementStepCount key)
    (fun _ => Tame.updateTurn fun _ => rfl) _

theorem incrementPlannerRetry_steady : (incrementPlannerRetry key).Steady observer contract seen :=
  update_steady tolerated (fun _ runtime => runtime.incrementPlannerRetry key)
    (fun _ => Tame.updateTurn fun _ => rfl) _

theorem removeBinding_steady (taskId : Option TaskId) :
    (removeBinding taskId).Steady observer contract seen := by
  cases taskId with
  | none => exact Program.Steady.pure ()
  | some taskId => exact onRuntime_steady tolerated fun _ => Tame.removeBinding

theorem completeTurn_steady (taskId : Option TaskId) :
    (completeTurn key taskId).Steady observer contract seen := by
  have turn : (onRuntime fun _ runtime => runtime.completeTurn key taskId).Steady observer contract
      seen := onRuntime_steady tolerated fun _ => Tame.updateTurn fun _ => rfl
  exact turn.bind fun _ => removeBinding_steady tolerated taskId

theorem failTurn_steady (taskId : Option TaskId) :
    (failTurn key taskId).Steady observer contract seen := by
  have turn : (onRuntime fun _ runtime => runtime.failTurn key taskId).Steady observer contract
      seen := onRuntime_steady tolerated fun _ => Tame.updateTurn fun _ => rfl
  exact turn.bind fun _ => removeBinding_steady tolerated taskId

theorem pruneCompletedTurnTranscript_steady :
    (pruneCompletedTurnTranscript key).Steady observer contract seen :=
  onRuntime_steady tolerated fun _ => Tame.updateTranscript

theorem insertDingtalkReplyRoute_steady (taskId : TaskId) (route : DingTalkReplyRoute) :
    (insertDingtalkReplyRoute taskId route).Steady observer contract seen := by
  refine Program.Keeps.update ?_ ?_
  · intro env s _ _
    exact tolerated.tame .plain env s id _ rfl Tame.id
  · intro env s _ _
    exact tolerated.unseen .plain env s rfl

theorem takeDingtalkReplyRoute_steady (taskId : TaskId) :
    (takeDingtalkReplyRoute taskId).Steady observer contract seen := by
  refine Program.Keeps.update ?_ ?_
  · intro env s _ _
    exact tolerated.tame .plain env s id _ rfl Tame.id
  · intro env s _ _
    exact tolerated.unseen .plain env s rfl

theorem getCompletedTask_steady (taskId : TaskId) :
    (getCompletedTask taskId).Steady observer contract seen :=
  query_steady tolerated rfl _

theorem summarizeTaskResultOrFallback_steady (config : WebConfig) (completed : CompletedTask) :
    (summarizeTaskResultOrFallback config completed).Steady observer contract seen :=
  query_steady tolerated rfl _

theorem buildTaskResultReplyText_steady (config : WebConfig) (result : TaskResult) :
    (buildTaskResultReplyText config result).Steady observer contract seen := by
  refine (getCompletedTask_steady tolerated _).bind fun completed => ?_
  cases completed with
  | none => exact Program.Steady.pure _
  | some completed =>
    dsimp only
    split
    · exact Program.Steady.pure _
    · exact summarizeTaskResultOrFallback_steady tolerated config completed

theorem resolveWorkspace_steady (command : Command) (workspacePath : Option String) :
    (resolveWorkspace command workspacePath).Steady observer contract seen :=
  query_steady tolerated rfl _

/-- The continuation planner, with what is known of the steps it returns. -/
theorem planContinuationStepWithRetry_keeps (config : WebConfig)
    (binding : TaskContinuationBinding) (completed : CompletedTask) {P : PlannedTurnStep → Prop}
    (planned : (continueTaskResult binding).Keeps observer contract seen
      (fun result after => after = seen ∧ ∀ step, result = .ok step → P step))
    (final : ∀ text, P (.finalize text)) :
    (planContinuationStepWithRetry config key binding completed).Keeps observer contract seen
      (fun step after => after = seen ∧ P step) := by
  have fallback : (planFallback config completed).Keeps observer contract seen
      (fun step after => after = seen ∧ P step) := by
    refine (summarizeTaskResultOrFallback_steady tolerated config completed).bind fun text => ?_
    exact Program.Keeps.pure ⟨rfl, final text⟩
  have accept : ∀ step, P step →
      (do onRuntime fun _ runtime => runtime.resetPlannerRetry key
          return step : Handler PlannedTurnStep).Keeps observer contract seen
        (fun step after => after = seen ∧ P step) := by
    intro step holds
    have reset : (onRuntime fun _ runtime => runtime.resetPlannerRetry key).Steady observer contract
        seen := onRuntime_steady tolerated fun _ => Tame.updateTurn fun _ => rfl
    exact reset.bind fun _ => Program.Keeps.pure ⟨rfl, holds⟩
  apply planned.bind
  rintro result after ⟨rfl, known⟩
  cases result with
  | ok step => exact accept step (known step rfl)
  | error error =>
    refine (appendTranscriptEvent_steady tolerated _ _).bind fun _ =>
      (incrementPlannerRetry_steady tolerated).bind fun turn => ?_
    cases turn with
    | none => exact fallback
    | some turn =>
      dsimp only
      split
      · have compacted : ∀ events, (onRuntime fun _ runtime =>
            runtime.recordCompaction key (compactSummary config completed) events).Steady
            observer contract after :=
          fun _ => onRuntime_steady tolerated fun _ => Tame.updateTurn fun _ => rfl
        refine (query_steady tolerated rfl _).bind fun events =>
          (compacted events).bind fun _ =>
          (appendTranscriptEvent_steady tolerated _ _).bind fun _ => ?_
        apply planned.bind
        rintro result after ⟨rfl, known⟩
        cases result with
        | ok step => exact accept step (known step rfl)
        | error _ => exact fallback
      · exact fallback

end Steady

/-- An error ends a handler, and what follows runs after a success. -/
theorem stopping_keeps {κ : Type} {observer : Observer Web WebEnv Note κ}
    {contract : Contract Web WebEnv Note κ} {seen : κ} {program rest : Handler Outcome}
    {middle post : Outcome → κ → Prop} (first : program.Keeps observer contract seen middle)
    (failed : ∀ error after, middle (.error error) after → post (.error error) after)
    (fine : ∀ after, middle (.ok ()) after → rest.Keeps observer contract after post) :
    (do
      match ← program with
      | .error error => return .error error
      | .ok _ => rest : Handler Outcome).Keeps observer contract seen post := by
  apply first.bind
  intro outcome after holds
  cases outcome with
  | error error => exact Program.Keeps.pure (failed error after holds)
  | ok _ => exact fine after holds

/-- As `stopping_keeps`, for programs that leave the observation as it was. -/
theorem Program.Steady.stopping {κ : Type} {observer : Observer Web WebEnv Note κ}
    {contract : Contract Web WebEnv Note κ} {seen : κ} {program rest : Handler Outcome}
    (first : program.Steady observer contract seen) (second : rest.Steady observer contract seen) :
    (do
      match ← program with
      | .error error => return .error error
      | .ok _ => rest : Handler Outcome).Steady observer contract seen := by
  refine stopping_keeps first (fun _ _ same => same) ?_
  rintro after rfl
  exact second

end UHorse.Hub.DingTalk
