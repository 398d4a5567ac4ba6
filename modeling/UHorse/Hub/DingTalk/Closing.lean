import UHorse.Hub.DingTalk.TurnStatus
import UHorse.Lib.Runs

/-!
# Turns that fail

An error leaves a handler by the next `?`, and nothing fails the turn on the way. What
the turn looks like afterwards therefore depends on the action that failed: replies come
after the turn is completed or the task is bound, but the planner, the choice of a
workspace, the validation of a command and a local skill come before. For the result of
a task even a reply comes before the turn is completed.

Handlers run alone here, with the trace of what they did and what they were given.
-/

namespace UHorse.Hub

/-- The turn waits for the result of its task, which may be waiting for an approval. -/
def TurnStatus.waits : TurnStatus → Bool
  | .waitingForTool | .waitingForApproval => true
  | _ => false

namespace DingTalk

open UHorse.Lib UHorse.Protocol

abbrev Trace := List (Note × WebEnv)

/-! ## Closed turns -/

/-- The status of the current turn and the task of its tool call. -/
def Web.outlook (s : Web) (key : String) : Option (TurnStatus × Option TaskId) :=
  (s.runtime.turnState key).map fun turn => (turn.status, turn.toolCall.bind ToolCallState.taskId)

/-- The current turn has ended or waits for a task that was submitted and is bound to the
session. -/
def Web.Closed (s : Web) (key : String) : Prop :=
  ∀ status task, s.outlook key = some (status, task) →
    status.ended = true ∨
    status.waits = true ∧ ∃ taskId binding, task = some taskId ∧
      s.runtime.taskBinding taskId = some binding ∧ binding.sessionKey = key ∧ taskId ∈ s.drawn

/-- What decides whether the turn of a session is closed is left alone. -/
structure Aside (key : String) (s t : Web) : Prop where
  outlook : t.outlook key = s.outlook key
  bindings : t.runtime.taskBindings = s.runtime.taskBindings
  drawn : t.drawn = s.drawn

section Closed

variable {s t u : Web} {key : String}

theorem closed_of_missing (missing : s.outlook key = none) : s.Closed key := by
  intro status task found
  rw [missing] at found
  cases found

theorem closed_of_ended {status : TurnStatus} {task : Option TaskId}
    (found : s.outlook key = some (status, task)) (ended : status.ended = true) :
    s.Closed key := by
  intro other _ here
  rw [found] at here
  cases here
  exact .inl ended

/-- A turn that has neither ended nor waits for anything is open. -/
theorem not_closed {status : TurnStatus} {task : Option TaskId}
    (found : s.outlook key = some (status, task)) (active : status.ended = false)
    (busy : status.waits = false) : ¬ s.Closed key := by
  intro closed
  obtain ended | ⟨waits, -⟩ := closed status task found
  · rw [active] at ended
    cases ended
  · rw [busy] at waits
    cases waits

namespace Aside

theorem refl (s : Web) : Aside key s s := ⟨rfl, rfl, rfl⟩

theorem trans (first : Aside key s t) (second : Aside key t u) : Aside key s u :=
  ⟨second.outlook.trans first.outlook, second.bindings.trans first.bindings,
    second.drawn.trans first.drawn⟩

theorem closed_iff (aside : Aside key s t) : t.Closed key ↔ s.Closed key := by
  unfold Web.Closed SessionRuntime.taskBinding
  rw [aside.outlook, aside.bindings, aside.drawn]

theorem of_turns (turns : t.runtime.turns = s.runtime.turns)
    (bindings : t.runtime.taskBindings = s.runtime.taskBindings) (drawn : t.drawn = s.drawn) :
    Aside key s t := by
  refine ⟨?_, bindings, drawn⟩
  rw [Web.outlook, SessionRuntime.turnState, turns, Web.outlook, SessionRuntime.turnState]

theorem updateTurn {other : String} {change : SessionTurnState → SessionTurnState}
    (keeps : key = other → ∀ turn, (change turn).status = turn.status ∧
      (change turn).toolCall = turn.toolCall) :
    Aside key s { s with runtime := s.runtime.updateTurn other change } := by
  refine ⟨?_, SessionRuntime.taskBindings_updateTurn .., rfl⟩
  rw [Web.outlook, SessionRuntime.turnState_updateTurn]
  split
  · next same =>
      subst same
      rw [Option.map_map]
      refine congrArg (Option.map · _) (funext fun turn => ?_)
      obtain ⟨status, toolCall⟩ := keeps rfl turn
      rw [Function.comp_apply, status, toolCall]
  · rfl

end Aside

/-- A turn that is changed looks as the change leaves it. -/
theorem outlook_updateTurn (change : SessionTurnState → SessionTurnState) :
    Web.outlook { s with runtime := s.runtime.updateTurn key change } key =
      (s.runtime.turnState key).map fun turn =>
        ((change turn).status, (change turn).toolCall.bind ToolCallState.taskId) := by
  rw [Web.outlook, SessionRuntime.turnState_updateTurn, if_pos rfl, Option.map_map]
  rfl

end Closed

/-! ## Handlers that leave the turn alone -/

/-- Actions other than those whose answers decide how the turn goes on. -/
def Note.aside : Note → Bool
  | .workspace .. | .localStep => false
  | _ => true

def Beside {α : Type} (key : String) (handler : Handler α) : Prop :=
  handler.Each fun note s t => note.aside = true ∧ Aside key s t

section Beside

variable {key : String}

theorem Beside.runs {α : Type} {handler : Handler α} {s t : Web} {trace : Trace} {value : α}
    (beside : Beside key handler) (runs : handler.Runs s trace value t) :
    (∀ entry ∈ trace, entry.1.aside = true) ∧ Aside key s t :=
  Program.Each.runs beside Aside.refl (fun _ _ _ => Aside.trans) runs

theorem Beside.query {α : Type} {note : Note} {value : WebEnv → Web → α}
    (aside : note.aside = true) : Beside key (.query note value) :=
  Program.Each.query fun s => ⟨aside, .refl s⟩

theorem Beside.onRuntime {change : WebEnv → SessionRuntime → SessionRuntime}
    (turns : ∀ env runtime, (change env runtime).turns = runtime.turns)
    (bindings : ∀ env runtime, (change env runtime).taskBindings = runtime.taskBindings) :
    Beside key (onRuntime change) :=
  Program.Each.update fun _ _ => ⟨rfl, .of_turns (turns _ _) (bindings _ _) rfl⟩

theorem Beside.onTurn {other : String} {change : SessionTurnState → SessionTurnState}
    (keeps : key = other → ∀ turn, (change turn).status = turn.status ∧
      (change turn).toolCall = turn.toolCall) :
    Beside key (DingTalk.onRuntime fun _ runtime => runtime.updateTurn other change) :=
  Program.Each.update fun _ _ => ⟨rfl, .updateTurn keeps⟩

theorem beside_appendTranscriptEvent (key other : String) (kind : TranscriptEventKind)
    (content : String) : Beside key (appendTranscriptEvent other kind content) :=
  .onRuntime (fun _ _ => rfl) (fun _ _ => rfl)

/-- Replies change what users and cards see. -/
theorem Beside.outside {α : Type} {note : Note} {change : WebEnv → Web → Web}
    {value : WebEnv → Web → α} (aside : note.aside = true)
    (same : ∀ env s, (change env s).runtime = s.runtime ∧ (change env s).drawn = s.drawn) :
    Beside key (.update note change value) := by
  refine .update fun env s => ⟨aside, ?_⟩
  obtain ⟨runtime, drawn⟩ := same env s
  exact .of_turns (congrArg SessionRuntime.turns runtime)
    (congrArg SessionRuntime.taskBindings runtime) drawn

theorem beside_send (capabilities : ChannelCapabilities) (route : DingTalkReplyRoute)
    (text : String) : Beside key (send capabilities route text) := by
  refine .outside rfl fun env s => ?_
  split <;> exact ⟨rfl, rfl⟩

theorem beside_sendUnlessAck (capabilities : ChannelCapabilities) (route : DingTalkReplyRoute)
    (text : String) : Beside key (sendUnlessAck capabilities route text) := by
  refine .outside rfl fun env s => ?_
  split <;> exact ⟨rfl, rfl⟩

theorem beside_finalizeAiCard (route : DingTalkReplyRoute) (text : String) :
    Beside key (finalizeAiCard route text) := by
  refine .outside rfl fun env s => ?_
  split <;> exact ⟨rfl, rfl⟩

theorem beside_sendOrFinalize (capabilities : ChannelCapabilities) (route : DingTalkReplyRoute)
    (text : String) (handle : Option DingTalkReplyHandle) :
    Beside key (sendOrFinalize capabilities route text handle) := by
  rcases handle with _ | (_ | _ | _ | _)
  · exact beside_send ..
  · refine .bind (beside_finalizeAiCard ..) fun finalized => ?_
    cases finalized with
    | false => exact beside_send ..
    | true => exact .pure _
  · exact beside_send ..
  · refine .bind (Beside.query rfl) fun cleared => ?_
    cases cleared with
    | error error => exact .pure _
    | ok _ => exact beside_send ..
  · exact beside_sendUnlessAck ..

theorem beside_takeDingtalkReplyHandle (taskId : TaskId) :
    Beside key (takeDingtalkReplyHandle taskId) :=
  .outside rfl fun _ _ => ⟨rfl, rfl⟩

theorem beside_cleanupProcessingHandle (route : DingTalkReplyRoute)
    (handle : Option DingTalkReplyHandle) :
    Beside key (cleanupProcessingHandle route handle) := by
  rcases handle with _ | (_ | _ | _ | _)
  · exact .pure _
  · exact .bind (beside_finalizeAiCard ..) fun _ => .pure _
  · exact .pure _
  · exact .query rfl
  · exact .pure _

theorem beside_finalizeTaskResultReply (config : WebConfig) (taskId : TaskId)
    (route : DingTalkReplyRoute) (text : String) :
    Beside key (finalizeTaskResultReply config taskId route text) := by
  rw [finalizeTaskResultReply]
  cases config.channel with
  | none => exact .pure _
  | some capabilities =>
    exact .bind (beside_takeDingtalkReplyHandle taskId) fun _ => beside_sendOrFinalize ..

theorem beside_replyDingtalkError (key : String) (config : WebConfig) (inbound : DingTalkInbound)
    (error : String) : Beside key (replyDingtalkError config inbound error) := by
  rw [replyDingtalkError]
  cases config.channel with
  | none => exact .pure _
  | some capabilities =>
    refine .bind (Beside.query rfl) fun created => ?_
    cases created with
    | error error => exact .pure _
    | ok handle =>
      exact .bind (beside_appendTranscriptEvent ..) fun _ => beside_sendOrFinalize ..

theorem beside_insertDingtalkReplyRoute (taskId : TaskId) (route : DingTalkReplyRoute) :
    Beside key (insertDingtalkReplyRoute taskId route) :=
  .outside rfl fun _ _ => ⟨rfl, rfl⟩

theorem beside_storeReplyHandle (config : WebConfig) (taskId : TaskId)
    (handle : Option DingTalkReplyHandle) : Beside key (storeReplyHandle config taskId handle) := by
  have insertion (handle : DingTalkReplyHandle) :
      Beside key (insertDingtalkReplyHandle taskId handle) := .outside rfl fun _ _ => ⟨rfl, rfl⟩
  unfold storeReplyHandle
  cases handle with
  | some handle => exact .bind (insertion handle) fun _ => .pure _
  | none =>
    cases config.channel with
    | none => exact .pure _
    | some capabilities =>
      refine .bind (Beside.query rfl) fun created => ?_
      cases created with
      | error error => exact .pure _
      | ok handle => exact .bind (insertion handle) fun _ => .pure _

theorem beside_buildTaskResultReplyText (config : WebConfig) (result : TaskResult) :
    Beside key (buildTaskResultReplyText config result) := by
  refine .bind (Beside.query rfl) fun completed => ?_
  cases completed with
  | none => exact .pure _
  | some completed =>
    dsimp only
    cases resultSummaryOverride config completed.result with
    | some text => exact .pure _
    | none => exact Beside.query rfl

end Beside

/-! ## What ends or binds a turn -/

section Changes

variable {s t : Web} {trace : Trace} {key : String}

/-- A change that ends any turn closes the current one. -/
theorem closed_updateTurn {change : SessionTurnState → SessionTurnState}
    (ends : ∀ turn, (change turn).status.ended = true) :
    Web.Closed { s with runtime := s.runtime.updateTurn key change } key := by
  cases found : s.runtime.turnState key with
  | none =>
    refine closed_of_missing ?_
    rw [outlook_updateTurn, found, Option.map_none]
  | some turn =>
    have changed := @outlook_updateTurn s key change
    rw [found] at changed
    exact closed_of_ended changed (ends turn)

theorem completeTurn_runs (runs : (completeTurn key none).Runs s trace () t) :
    (∀ entry ∈ trace, entry.1.aside = true) ∧
      t = { s with runtime := s.runtime.completeTurn key none } := by
  obtain ⟨_, _, _, _, rfl, first, returned⟩ := Program.runs_bind.mp runs
  obtain ⟨rfl, -, rfl⟩ := Program.runs_pure.mp returned
  obtain ⟨env, rfl, -, rfl⟩ := Program.runs_update.mp first
  refine ⟨?_, rfl⟩
  intro entry member
  obtain rfl := List.mem_singleton.mp member
  rfl

variable {value : Outcome} {route : DingTalkReplyRoute}

/-- An answer completes the turn of its session, and only then goes out. -/
theorem answer_runs {rest : Handler Outcome} {text : String} (beside : ∀ key, Beside key rest)
    (runs : (do
      appendTranscriptEvent key .assistantFinal text
      completeTurn key none
      rest : Handler Outcome).Runs s trace value t) :
    (∀ entry ∈ trace, entry.1.aside = true) ∧ t.Closed key ∧
      ∀ other, other ≠ key → Aside other s t := by
  obtain ⟨_, _, _, u, rfl, appended, runs⟩ := Program.runs_bind.mp runs
  obtain ⟨_, _, _, v, rfl, completed, replied⟩ := Program.runs_bind.mp runs
  have early (other : String) := (beside_appendTranscriptEvent other ..).runs appended
  obtain ⟨second, rfl⟩ := completeTurn_runs completed
  have late (other : String) := (beside other).runs replied
  refine ⟨?_, ?_, ?_⟩
  · simp only [List.mem_append]
    rintro entry (member | member | member)
    · exact (early key).1 entry member
    · exact second entry member
    · exact (late key).1 entry member
  · exact (late key).2.closed_iff.mpr (closed_updateTurn fun _ => rfl)
  · intro other distinct
    have changed : Aside other u { u with runtime := u.runtime.completeTurn key none } :=
      .updateTurn fun same => absurd same distinct
    exact ((early other).2.trans changed).trans (late other).2

theorem replyDirectly_runs {config : WebConfig} {text : String}
    {handle : Option DingTalkReplyHandle}
    (runs : (replyDirectly config key route text handle).Runs s trace value t) :
    (∀ entry ∈ trace, entry.1.aside = true) ∧ t.Closed key := by
  obtain ⟨aside, closed, -⟩ := answer_runs (fun _ => by
    cases config.channel with
    | none => exact .pure _
    | some capabilities => exact beside_sendOrFinalize ..) runs
  exact ⟨aside, closed⟩

/-- A local skill that fails leaves everything as it is. -/
theorem executeLocalTurnStep_runs {config : WebConfig} {handle : Option DingTalkReplyHandle}
    (runs : (executeLocalTurnStep config route key handle).Runs s trace value t) :
    ∃ env later, trace = (.localStep, env) :: later ∧
      (∀ entry ∈ later, entry.1.aside = true) ∧ (∀ other, other ≠ key → Aside other s t) ∧
      ((∃ error, env.localReply = .error error ∧ t = s) ∨
        ∃ text, env.localReply = .ok text ∧ t.Closed key) := by
  obtain ⟨_, later, _, _, rfl, asked, followed⟩ := Program.runs_bind.mp runs
  obtain ⟨env, rfl, rfl, rfl⟩ := Program.runs_query.mp asked
  refine ⟨env, later, rfl, ?_⟩
  cases answer : env.localReply with
  | error error =>
    rw [answer] at followed
    obtain ⟨rfl, -, rfl⟩ := Program.runs_pure.mp followed
    exact ⟨List.forall_mem_nil _, fun _ _ => .refl _, .inl ⟨error, rfl, rfl⟩⟩
  | ok text =>
    rw [answer] at followed
    obtain ⟨aside, closed, others⟩ := answer_runs (fun _ => by
      cases config.channel with
      | none => exact .pure _
      | some capabilities => exact beside_sendOrFinalize ..) followed
    exact ⟨aside, others, .inr ⟨text, rfl, closed⟩⟩

/-- A bound task closes the turn whose tool call was planned for it. -/
theorem closed_bindTurn {taskId : TaskId} {binding : TaskContinuationBinding}
    (planned : ∀ turn, s.runtime.turnState binding.sessionKey = some turn →
      ∃ call, turn.toolCall = some call ∧ call.toolCallId = binding.toolCallId)
    (bound : s.runtime.taskBinding taskId = some binding) (submitted : taskId ∈ s.drawn) :
    Web.Closed { s with runtime := s.runtime.bindTurn taskId binding } binding.sessionKey := by
  intro status task found
  have found := (outlook_updateTurn _).symm.trans found
  obtain ⟨turn, present, same⟩ := Option.map_eq_some_iff.mp found
  obtain ⟨call, here, own⟩ := planned turn present
  cases same
  refine .inr ⟨rfl, taskId, binding, ?_, ?_, rfl, submitted⟩
  · rw [SessionRuntime.markBound, here, Option.map_some, if_pos own, Option.bind_some]
  · rw [SessionRuntime.taskBinding, SessionRuntime.bindTurn,
      SessionRuntime.taskBindings_updateTurn]
    exact bound

/-- A task that is dispatched is bound to the turn, if there is one. -/
theorem dispatchTask_runs {turnId agentId missing : String} {value : Except String TaskId}
    (runs : (dispatchTask key turnId agentId route missing).Runs s trace value t) :
    (∀ entry ∈ trace, entry.1.aside = true) ∧ t.Closed key ∧
      (s.runtime.turnState key ≠ none → ∃ taskId, value = .ok taskId) := by
  obtain ⟨_, _, _, _, rfl, begun, rest⟩ := Program.runs_bind.mp runs
  obtain ⟨env, rfl, rfl, rfl⟩ := Program.runs_update.mp begun
  cases present : s.runtime.turnState key with
  | none =>
    rw [present] at rest
    obtain ⟨rfl, -, rfl⟩ := Program.runs_pure.mp rest
    refine ⟨by simp [Note.aside], closed_of_missing ?_, fun present => absurd rfl present⟩
    refine (outlook_updateTurn _).trans ?_
    rw [present, Option.map_none]
  | some turn =>
    rw [present] at rest
    obtain ⟨_, _, _, u, rfl, appended, rest⟩ := Program.runs_bind.mp rest
    obtain ⟨_, _, _, _, rfl, submitted, rest⟩ := Program.runs_bind.mp rest
    obtain ⟨_, _, _, _, rfl, bound, returned⟩ := Program.runs_bind.mp rest
    obtain ⟨rfl, bound', rfl⟩ := Program.runs_pure.mp returned
    obtain ⟨drawing, rfl, rfl, rfl⟩ := Program.runs_update.mp submitted
    obtain ⟨_, _, _, _, rfl, inserted, bound⟩ := Program.runs_bind.mp bound
    obtain ⟨_, _, _, _, rfl, marked, noted⟩ := Program.runs_bind.mp bound
    obtain ⟨_, rfl, -, rfl⟩ := Program.runs_update.mp appended
    obtain ⟨_, rfl, -, rfl⟩ := Program.runs_update.mp inserted
    obtain ⟨_, rfl, -, rfl⟩ := Program.runs_update.mp marked
    obtain ⟨_, rfl, -, rfl⟩ := Program.runs_update.mp noted
    refine ⟨by simp [Note.aside], (Aside.of_turns rfl rfl rfl).closed_iff.mp ?_,
      fun _ => ⟨_, bound'⟩⟩
    let binding : TaskContinuationBinding := ⟨key, turnId, env.uuid, agentId, route⟩
    refine @closed_bindTurn _ _ binding ?_ ?_ ?_
    · intro turn found
      have found := (SessionRuntime.turnState_updateTurn s.runtime key key _).symm.trans found
      rw [if_pos rfl] at found
      obtain ⟨old, -, rfl⟩ := Option.map_eq_some_iff.mp found
      exact ⟨_, rfl, rfl⟩
    · exact Finmap.lookup_insert _
    · simp

end Changes

/-! ## Messages -/

/-- What the outside answered lets the turn go on: the workspace of a planned command is
found and the command is valid in it, and a local skill has something to say. -/
def usable (config : WebConfig) : Note × WebEnv → Bool
  | (.workspace command workspacePath, env) =>
    (workspacePath.orElse fun _ => env.defaultWorkspaceRoot).any fun hint =>
      (config.validatePlannedCommand command hint).isOk
  | (.localStep, env) => env.localReply.isOk
  | _ => true

/-- The planner, whom a message asks with its fourth action, has planned a step, and
everything that the step needs is there. -/
structure MessageAnswered (config : WebConfig) (history : Trace) : Prop where
  planned : (history[3]?).any (fun entry => entry.2.plan.isOk) = true
  usable : ∀ entry ∈ history, usable config entry = true

/-- The turn is in the middle of something. -/
def Web.Busy (s : Web) (key : String) : Prop :=
  ∃ status task, s.outlook key = some (status, task) ∧ status.ended = false ∧
    status.waits = false

section Messages

variable {config : WebConfig} {s t : Web} {trace : Trace} {key : String}

theorem usable_of_aside {entry : Note × WebEnv} (aside : entry.1.aside = true) :
    usable config entry = true := by
  obtain ⟨note, env⟩ := entry
  cases note <;> first | rfl | cases aside

theorem forall_usable_append {first second : Trace}
    (aside : ∀ entry ∈ first, entry.1.aside = true) :
    (∀ entry ∈ first ++ second, usable config entry = true) ↔
      ∀ entry ∈ second, usable config entry = true := by
  rw [List.forall_mem_append]
  exact and_iff_right fun entry member => usable_of_aside (aside entry member)

theorem messageAnswered_iff {first later : Trace} {env : WebEnv} (length : first.length = 3)
    (aside : ∀ entry ∈ first, entry.1.aside = true) :
    MessageAnswered config (first ++ (.plain, env) :: later) ↔
      env.plan.isOk = true ∧ ∀ entry ∈ later, usable config entry = true := by
  have fourth : (first ++ (Note.plain, env) :: later)[3]? = some (.plain, env) := by
    rw [List.getElem?_append_right (by omega), length]
    rfl
  constructor
  · rintro ⟨planned, usable⟩
    rw [fourth] at planned
    exact ⟨planned, (List.forall_mem_cons.mp ((forall_usable_append aside).mp usable)).2⟩
  · rintro ⟨plan, usable⟩
    refine ⟨by rwa [fourth], ?_⟩
    exact (forall_usable_append aside).mpr (List.forall_mem_cons.mpr ⟨rfl, usable⟩)

theorem Web.Busy.not_closed (busy : s.Busy key) : ¬ s.Closed key := by
  obtain ⟨_, _, found, active, awake⟩ := busy
  exact DingTalk.not_closed found active awake

theorem busy_updateTurn {change : SessionTurnState → SessionTurnState} (turn : SessionTurnState)
    (present : s.runtime.turnState key = some turn) (active : (change turn).status.ended = false)
    (awake : (change turn).status.waits = false) :
    Web.Busy { s with runtime := s.runtime.updateTurn key change } key := by
  refine ⟨_, (change turn).toolCall.bind ToolCallState.taskId, ?_, active, awake⟩
  rw [outlook_updateTurn, present, Option.map_some]

theorem Web.Busy.turnState (busy : s.Busy key) : s.runtime.turnState key ≠ none := by
  obtain ⟨_, _, found, -⟩ := busy
  intro missing
  rw [Web.outlook, missing] at found
  cases found

theorem Web.Busy.aside (busy : s.Busy key) (aside : Aside key s t) : t.Busy key := by
  rw [Web.Busy, aside.outlook]
  exact busy

variable {route : DingTalkReplyRoute} {value : Outcome}

theorem replyDirectly_closed_iff {text : String} {handle : Option DingTalkReplyHandle}
    (runs : (replyDirectly config key route text handle).Runs s trace value t) :
    t.Closed key ↔ ∀ entry ∈ trace, usable config entry = true := by
  obtain ⟨aside, closed⟩ := replyDirectly_runs runs
  exact iff_of_true closed fun entry member => usable_of_aside (aside entry member)

theorem executeLocalTurnStep_closed_iff {handle : Option DingTalkReplyHandle} (busy : s.Busy key)
    (runs : (executeLocalTurnStep config route key handle).Runs s trace value t) :
    t.Closed key ↔ ∀ entry ∈ trace, usable config entry = true := by
  obtain ⟨env, later, rfl, aside, -, ⟨error, failed, rfl⟩ | ⟨text, answered, closed⟩⟩ :=
    executeLocalTurnStep_runs runs
  · refine iff_of_false busy.not_closed fun usable => ?_
    have answered : env.localReply.isOk = true := usable _ List.mem_cons_self
    rw [failed] at answered
    cases answered
  · refine iff_of_true closed (List.forall_mem_cons.mpr ⟨?_, ?_⟩)
    · rw [usable, answered]
      rfl
    · exact fun entry member => usable_of_aside (aside entry member)

theorem resolveWorkspace_runs {α : Type} {command : Command} {workspacePath : Option String}
    {rest : Except String String → Handler α} {value : α}
    (runs : (resolveWorkspace command workspacePath >>= rest).Runs s trace value t) :
    ∃ env later, trace = (.workspace command workspacePath, env) :: later ∧
      (((workspacePath.orElse fun _ => env.defaultWorkspaceRoot) = none ∧
          (rest (.error env.missingWorkspace)).Runs s later value t) ∨
        ∃ hint, (workspacePath.orElse fun _ => env.defaultWorkspaceRoot) = some hint ∧
          (rest (.ok hint)).Runs s later value t) := by
  obtain ⟨_, later, _, _, rfl, resolved, followed⟩ := Program.runs_bind.mp runs
  obtain ⟨env, rfl, rfl, rfl⟩ := Program.runs_query.mp resolved
  refine ⟨env, later, rfl, ?_⟩
  cases found : workspacePath.orElse fun _ => env.defaultWorkspaceRoot with
  | none =>
    rw [found] at followed
    exact .inl ⟨rfl, followed⟩
  | some hint =>
    rw [found] at followed
    exact .inr ⟨hint, rfl, followed⟩

theorem submitPlannedTask_closed_iff {turnId agentId : String} {command : Command}
    {workspacePath : Option String} {early : Option DingTalkReplyHandle} (busy : s.Busy key)
    (runs : (submitPlannedTask config key turnId agentId route command workspacePath
      early).Runs s trace value t) :
    t.Closed key ↔ ∀ entry ∈ trace, usable config entry = true := by
  obtain ⟨env, later, rfl, ⟨missing, failed⟩ | ⟨hint, found, rest⟩⟩ := resolveWorkspace_runs runs
  · obtain ⟨rfl, -, rfl⟩ := Program.runs_pure.mp failed
    refine iff_of_false busy.not_closed fun all => ?_
    have found := all _ List.mem_cons_self
    rw [usable, missing] at found
    cases found
  · dsimp only at rest
    cases valid : config.validatePlannedCommand command hint with
    | error error =>
      rw [valid] at rest
      obtain ⟨rfl, -, rfl⟩ := Program.runs_pure.mp rest
      refine iff_of_false busy.not_closed fun all => ?_
      have fine := all _ List.mem_cons_self
      rw [usable, found, Option.any_some, valid] at fine
      cases fine
    | ok _ =>
      rw [valid] at rest
      obtain ⟨_, after, dispatched, u, rfl, dispatching, rest⟩ := Program.runs_bind.mp rest
      obtain ⟨early, closed, -⟩ := dispatchTask_runs dispatching
      obtain ⟨late, aside⟩ : (∀ entry ∈ after, entry.1.aside = true) ∧ Aside key u t := by
        cases dispatched with
        | error error =>
          exact Beside.runs (.pure _) rest
        | ok taskId =>
          exact Beside.runs (.bind (beside_insertDingtalkReplyRoute ..) fun _ =>
            beside_storeReplyHandle ..) rest
      refine iff_of_true (aside.closed_iff.mpr closed) ?_
      rw [List.forall_mem_cons, List.forall_mem_append]
      refine ⟨?_, fun entry member => usable_of_aside (early entry member),
        fun entry member => usable_of_aside (late entry member)⟩
      rw [usable, found, Option.any_some, valid]
      rfl

/-- A new turn has everything before it. -/
theorem startTurn_runs {text turnId : String}
    (runs : (startTurn key text).Runs s trace turnId t) :
    trace.length = 2 ∧ (∀ entry ∈ trace, entry.1.aside = true) ∧ t.Busy key := by
  obtain ⟨_, _, _, _, rfl, replaced, rest⟩ := Program.runs_bind.mp runs
  obtain ⟨_, rfl, rfl, rfl⟩ := Program.runs_update.mp replaced
  obtain ⟨_, _, _, _, rfl, transcribed, returned⟩ := Program.runs_bind.mp rest
  obtain ⟨_, rfl, -, rfl⟩ := Program.runs_update.mp transcribed
  obtain ⟨rfl, -, rfl⟩ := Program.runs_pure.mp returned
  refine ⟨rfl, by simp [Note.aside], .planning, none, ?_, rfl, rfl⟩
  show (Finmap.lookup key (s.runtime.turns.insert key _)).map _ = _
  rw [Finmap.lookup_insert]
  rfl

theorem beside_incrementStepCount (other : String) : Beside key (incrementStepCount other) :=
  Program.Each.update fun _ _ => ⟨rfl, .updateTurn fun _ _ => ⟨rfl, rfl⟩⟩

theorem incrementStepCount_runs {counted : Option SessionTurnState}
    (runs : (incrementStepCount key).Runs s trace counted t) :
    t.runtime.turnState key = counted := by
  obtain ⟨_, -, rfl, rfl⟩ := Program.runs_update.mp runs
  rfl

/-- After a message the turn is closed if and only if everybody answered. -/
theorem processDingtalkTaskSerialized_closed_iff {inbound : DingTalkInbound}
    {early : Option DingTalkReplyHandle}
    (runs : (processDingtalkTaskSerialized config inbound early).Runs s trace value t) :
    t.Closed inbound.sessionKey ↔ MessageAnswered config trace := by
  obtain ⟨_, _, agentId, _, rfl, received, rest⟩ := Program.runs_bind.mp runs
  obtain ⟨first, rfl, -, rfl⟩ := Program.runs_query.mp received
  obtain ⟨starting, _, turnId, u, rfl, started, rest⟩ := Program.runs_bind.mp rest
  obtain ⟨length, aside, busy⟩ := startTurn_runs started
  obtain ⟨_, later, plan, _, rfl, planned, followed⟩ := Program.runs_bind.mp rest
  obtain ⟨env, rfl, rfl, rfl⟩ := Program.runs_query.mp planned
  have before : ∀ entry ∈ (Note.receive inbound, first) :: starting, entry.1.aside = true :=
    List.forall_mem_cons.mpr ⟨rfl, aside⟩
  refine Iff.trans ?_ (messageAnswered_iff (congrArg (· + 1) length) before).symm
  cases plan : env.plan with
  | error error =>
    rw [plan] at followed
    obtain ⟨rfl, -, rfl⟩ := Program.runs_pure.mp followed
    exact iff_of_false busy.not_closed fun answered => Bool.false_ne_true answered.1
  | ok step =>
    rw [plan] at followed
    obtain ⟨_, _, _, _, rfl, appended, followed⟩ := Program.runs_bind.mp followed
    obtain ⟨_, last, counted, v, rfl, counting, followed⟩ := Program.runs_bind.mp followed
    obtain ⟨noted, aside⟩ := (beside_appendTranscriptEvent ..).runs appended
    have busy := busy.aside aside
    obtain ⟨quiet, aside⟩ := (beside_incrementStepCount ..).runs counting
    have busy := busy.aside aside
    refine Iff.trans ?_ (and_iff_right rfl).symm
    refine Iff.trans ?_ (forall_usable_append noted).symm
    refine Iff.trans ?_ (forall_usable_append quiet).symm
    cases counted with
    | none => exact absurd (incrementStepCount_runs counting) busy.turnState
    | some turn =>
      dsimp only at followed
      split at followed
      · exact replyDirectly_closed_iff followed
      · cases step with
        | finalize text => exact replyDirectly_closed_iff followed
        | submitTask command workspacePath =>
          exact submitPlannedTask_closed_iff busy followed
        | executeSkill skillName input => exact executeLocalTurnStep_closed_iff busy followed
        | listInstalledSkills => exact executeLocalTurnStep_closed_iff busy followed
        | querySkill skillName => exact executeLocalTurnStep_closed_iff busy followed
        | installSkill query => exact executeLocalTurnStep_closed_iff busy followed

end Messages

/-! ## Task results -/

section Results

variable {config : WebConfig} {s t : Web} {trace : Trace} {key : String}

theorem beside_planFallback (completed : CompletedTask) :
    Beside key (planFallback config completed) :=
  .bind (Beside.query rfl) fun _ => .pure _

theorem beside_planContinuationStepWithRetry (other : String) (binding : TaskContinuationBinding)
    (completed : CompletedTask) :
    Beside key (planContinuationStepWithRetry config other binding completed) := by
  have reset (step : PlannedTurnStep) : Beside key (do
      onRuntime fun _ runtime => runtime.resetPlannerRetry other
      return step : Handler PlannedTurnStep) :=
    .bind (Beside.onTurn fun _ _ => ⟨rfl, rfl⟩) fun _ => .pure _
  have retry : Beside key (incrementPlannerRetry other) :=
    Program.Each.update fun _ _ => ⟨rfl, .updateTurn fun _ _ => ⟨rfl, rfl⟩⟩
  refine .bind (Beside.query rfl) fun planned => ?_
  cases planned with
  | ok step => exact reset step
  | error error =>
    refine .bind (beside_appendTranscriptEvent ..) fun _ => ?_
    refine .bind retry fun counted => ?_
    cases counted with
    | none => exact beside_planFallback completed
    | some turn =>
      dsimp only
      split
      · refine .bind (Beside.query rfl) fun _ => ?_
        refine .bind (Beside.onTurn fun _ _ => ⟨rfl, rfl⟩) fun _ => ?_
        refine .bind (beside_appendTranscriptEvent ..) fun _ => ?_
        refine .bind (Beside.query rfl) fun planned => ?_
        cases planned with
        | ok step => exact reset step
        | error error => exact beside_planFallback completed
      · exact beside_planFallback completed

variable {error : String} {taskId : TaskId} {route : DingTalkReplyRoute} {first second : Trace}
  {binding : TaskContinuationBinding}

/-- A handler that ends in success has not failed. -/
theorem not_runs_error {α : Type} {first : Handler α} :
    ¬ (do let _ ← first; return .ok () : Handler Outcome).Runs s trace (.error error) t := by
  intro runs
  obtain ⟨_, _, _, _, -, -, returned⟩ := Program.runs_bind.mp runs
  obtain ⟨-, impossible, -⟩ := Program.runs_pure.mp returned
  cases impossible

/-- The reply comes before the turn is completed. -/
theorem completeContinuationWithReply_failed {text : String}
    (runs : (completeContinuationWithReply config key taskId route text).Runs s trace
      (.error error) t) : (∀ entry ∈ trace, entry.1.aside = true) ∧ Aside key s t := by
  obtain ⟨_, _, replied, _, rfl, finalized, rest⟩ := Program.runs_bind.mp runs
  cases replied with
  | error error =>
    obtain ⟨rfl, -, rfl⟩ := Program.runs_pure.mp rest
    rw [List.append_nil]
    exact (beside_finalizeTaskResultReply ..).runs finalized
  | ok _ =>
    obtain ⟨_, _, _, _, -, -, rest⟩ := Program.runs_bind.mp rest
    exact absurd rest not_runs_error

theorem handleContinuationMaxStepsExceeded_failed {completed : CompletedTask}
    (runs : (handleContinuationMaxStepsExceeded config key taskId route completed).Runs s trace
      (.error error) t) : (∀ entry ∈ trace, entry.1.aside = true) ∧ Aside key s t := by
  obtain ⟨_, _, _, _, rfl, summarized, rest⟩ := Program.runs_bind.mp runs
  obtain ⟨_, _, _, _, rfl, appended, replied⟩ := Program.runs_bind.mp rest
  obtain ⟨_, rfl, rfl, rfl⟩ := Program.runs_query.mp summarized
  obtain ⟨first, aside⟩ := (beside_appendTranscriptEvent key ..).runs appended
  obtain ⟨second, aside'⟩ := completeContinuationWithReply_failed replied
  refine ⟨?_, aside.trans aside'⟩
  rw [List.forall_mem_append, List.forall_mem_append]
  exact ⟨by simp [Note.aside], first, second⟩

theorem handleContinuationMissingCompletedTask_failed {text : String}
    (runs : (handleContinuationMissingCompletedTask config key taskId route text).Runs s trace
      (.error error) t) : Aside key s t := by
  rw [handleContinuationMissingCompletedTask] at runs
  split at runs
  · exact absurd runs not_runs_error
  · obtain ⟨_, _, replied, _, rfl, finalized, rest⟩ := Program.runs_bind.mp runs
    cases replied with
    | error error =>
      obtain ⟨rfl, -, rfl⟩ := Program.runs_pure.mp rest
      exact ((beside_finalizeTaskResultReply ..).runs finalized).2
    | ok _ => exact absurd rest not_runs_error

theorem handleContinuationCancelledTurn_failed
    (runs : (handleContinuationCancelledTurn config key taskId route).Runs s trace
      (.error error) t) : Aside key s t := by
  rw [handleContinuationCancelledTurn] at runs
  split at runs
  · exact absurd runs not_runs_error
  · obtain ⟨_, _, handle, _, rfl, taken, runs⟩ := Program.runs_bind.mp runs
    obtain ⟨_, _, cleaned, _, rfl, cleaning, rest⟩ := Program.runs_bind.mp runs
    cases cleaned with
    | error error =>
      obtain ⟨rfl, -, rfl⟩ := Program.runs_pure.mp rest
      obtain ⟨-, first⟩ := (beside_takeDingtalkReplyHandle _).runs taken
      obtain ⟨-, second⟩ := (beside_cleanupProcessingHandle ..).runs cleaning
      exact first.trans second
    | ok _ => exact absurd rest not_runs_error

/-- A local skill had something to say. -/
def Skilled (trace : Trace) : Prop :=
  ∃ env text, (Note.localStep, env) ∈ trace ∧ env.localReply = .ok text

theorem not_skilled_of_aside (aside : ∀ entry ∈ trace, entry.1.aside = true) : ¬ Skilled trace := by
  rintro ⟨env, text, member, -⟩
  cases aside _ member

theorem skilled_append : Skilled (first ++ second) ↔ Skilled first ∨ Skilled second := by
  constructor
  · rintro ⟨env, text, member, answered⟩
    obtain member | member := List.mem_append.mp member
    · exact .inl ⟨env, text, member, answered⟩
    · exact .inr ⟨env, text, member, answered⟩
  · rintro (⟨env, text, member, answered⟩ | ⟨env, text, member, answered⟩)
    · exact ⟨env, text, List.mem_append_left _ member, answered⟩
    · exact ⟨env, text, List.mem_append_right _ member, answered⟩

theorem skilled_append_iff (aside : ∀ entry ∈ first, entry.1.aside = true) :
    Skilled (first ++ second) ↔ Skilled second :=
  skilled_append.trans (or_iff_right (not_skilled_of_aside aside))

/-- A local step of a continuation completes the turn of the session it answers. -/
theorem localStep_failed_iff {other : String} {rest : Outcome → Handler Outcome} (busy : s.Busy key)
    (runs : (executeLocalTurnStep config route other none >>= rest).Runs s trace
      (.error error) t) (passes : ∀ error, rest (.error error) = return .error error)
    (succeeds : ∀ u later, ¬ (rest (.ok ())).Runs u later (.error error) t) :
    t.Closed key ↔ other = key ∧ Skilled trace := by
  obtain ⟨_, _, performed, _, rfl, performing, followed⟩ := Program.runs_bind.mp runs
  cases performed with
  | ok _ => exact absurd followed (succeeds _ _)
  | error error =>
    rw [passes] at followed
    obtain ⟨rfl, -, rfl⟩ := Program.runs_pure.mp followed
    obtain ⟨env, later, rfl, aside, others, ⟨problem, failed, rfl⟩ | ⟨text, answered, closed⟩⟩ :=
      executeLocalTurnStep_runs performing
    · refine iff_of_false busy.not_closed ?_
      rintro ⟨-, env', text, member, answered⟩
      rw [List.append_nil] at member
      obtain same | member := List.mem_cons.mp member
      · cases same
        rw [failed] at answered
        cases answered
      · cases aside _ member
    · by_cases same : other = key
      · subst same
        exact iff_of_true closed ⟨rfl, env, text, List.mem_cons_self, answered⟩
      · refine iff_of_false ?_ fun skilled => same skilled.1
        exact (busy.aside (others key (Ne.symm same))).not_closed

/-- A step that fails leaves the turn open, unless a local skill has completed it. -/
theorem executeContinuationStep_failed_iff {step : PlannedTurnStep}
    (busy : s.Busy binding.sessionKey)
    (runs : (executeContinuationStep config binding.sessionKey taskId binding step).Runs s trace
      (.error error) t) :
    t.Closed binding.sessionKey ↔
      parseDingtalkBindingSessionKey binding = binding.sessionKey ∧ Skilled trace := by
  have failed {u : Web} {history : Trace} (aside : Aside binding.sessionKey s u)
      (unskilled : ¬ Skilled history) : u.Closed binding.sessionKey ↔
        parseDingtalkBindingSessionKey binding = binding.sessionKey ∧ Skilled history :=
    iff_of_false (busy.aside aside).not_closed fun skilled => unskilled skilled.2
  cases step with
  | finalize text =>
    obtain ⟨_, _, _, _, rfl, appended, replied⟩ := Program.runs_bind.mp runs
    obtain ⟨first, aside⟩ := (beside_appendTranscriptEvent ..).runs appended
    obtain ⟨second, aside'⟩ := completeContinuationWithReply_failed replied
    refine failed (aside.trans aside') ?_
    rw [skilled_append_iff first]
    exact not_skilled_of_aside second
  | submitTask command workspacePath =>
    obtain ⟨env, later, rfl, ⟨missing, rest⟩ | ⟨hint, found, rest⟩⟩ := resolveWorkspace_runs runs
    · obtain ⟨rfl, -, rfl⟩ := Program.runs_pure.mp rest
      exact failed (.refl _) (by simp [Skilled])
    · dsimp only at rest
      cases valid : config.validatePlannedCommand command hint with
      | error error =>
        rw [valid] at rest
        obtain ⟨rfl, -, rfl⟩ := Program.runs_pure.mp rest
        exact failed (.refl _) (by simp [Skilled])
      | ok _ =>
        rw [valid] at rest
        obtain ⟨_, _, dispatched, _, rfl, dispatching, rest⟩ := Program.runs_bind.mp rest
        obtain ⟨-, -, dispatches⟩ := dispatchTask_runs dispatching
        obtain ⟨taskId, rfl⟩ := dispatches busy.turnState
        obtain ⟨-, impossible, -⟩ := Program.runs_pure.mp rest
        cases impossible
  | executeSkill skillName input =>
    exact localStep_failed_iff busy runs (fun _ => rfl) (fun _ _ => not_runs_error)
  | listInstalledSkills =>
    exact localStep_failed_iff busy runs (fun _ => rfl) (fun _ _ => not_runs_error)
  | querySkill skillName =>
    exact localStep_failed_iff busy runs (fun _ => rfl) (fun _ _ => not_runs_error)
  | installSkill query =>
    exact localStep_failed_iff busy runs (fun _ => rfl) (fun _ _ => not_runs_error)

/-- The result does not resume the turn: the scheduler has no record of its task, or the turn
was cancelled. -/
def Web.Halts (s : Web) (taskId : TaskId) (key : String) : Prop :=
  s.completed.lookup taskId = none ∨
    (s.runtime.turnState key).any (fun turn => turn.cancelRequested) = true

/-- Without being resumed the turn stays as it was; once resumed, it is closed if there is
no turn at all or if a local skill answered in this very session. -/
structure ResultCloses (taskId : TaskId) (binding : TaskContinuationBinding) (s : Web)
    (trace : Trace) : Prop where
  halted : s.Halts taskId binding.sessionKey → s.Closed binding.sessionKey
  resumed : ¬ s.Halts taskId binding.sessionKey →
    s.runtime.turnState binding.sessionKey = none ∨
      parseDingtalkBindingSessionKey binding = binding.sessionKey ∧ Skilled trace

theorem resultCloses_of_halts (halts : s.Halts taskId binding.sessionKey) :
    ResultCloses taskId binding s trace ↔ s.Closed binding.sessionKey :=
  ⟨fun closes => closes.halted halts, fun closed => ⟨fun _ => closed, fun going =>
    absurd halts going⟩⟩

theorem resultCloses_of_resumes (resumes : ¬ s.Halts taskId binding.sessionKey) :
    ResultCloses taskId binding s trace ↔ s.runtime.turnState binding.sessionKey = none ∨
      parseDingtalkBindingSessionKey binding = binding.sessionKey ∧ Skilled trace :=
  ⟨fun closes => closes.resumed resumes, fun closed => ⟨fun halts => absurd halts resumes,
    fun _ => closed⟩⟩

theorem resultCloses_congr {u : Web} (turns : u.runtime.turns = s.runtime.turns)
    (completed : u.completed = s.completed) (aside : Aside binding.sessionKey s u)
    (skilled : Skilled first ↔ Skilled second) :
    ResultCloses taskId binding u first ↔ ResultCloses taskId binding s second := by
  have halting : u.Halts taskId binding.sessionKey ↔ s.Halts taskId binding.sessionKey := by
    rw [Web.Halts, SessionRuntime.turnState, turns, completed]
    rfl
  by_cases halts : s.Halts taskId binding.sessionKey
  · rw [resultCloses_of_halts halts, resultCloses_of_halts (halting.mpr halts)]
    exact aside.closed_iff
  · rw [resultCloses_of_resumes halts, resultCloses_of_resumes (halting.not.mpr halts),
      SessionRuntime.turnState, turns, skilled]
    rfl

theorem continueTurn_failed_iff {result : TaskResult}
    (runs : (continueTurn config result binding).Runs s trace (.error error) t) :
    t.Closed binding.sessionKey ↔ ResultCloses result.taskId binding s trace := by
  obtain ⟨_, _, _, s, rfl, looked, rest⟩ := Program.runs_bind.mp runs
  obtain ⟨_, rfl, rfl, rfl⟩ := Program.runs_query.mp looked
  cases record : s.completed.lookup result.taskId with
  | none =>
    rw [record] at rest
    obtain ⟨_, _, _, _, rfl, built, handled⟩ := Program.runs_bind.mp rest
    obtain ⟨-, first⟩ := (beside_buildTaskResultReplyText ..).runs built
    have second := handleContinuationMissingCompletedTask_failed handled
    refine (first.trans second).closed_iff.trans (resultCloses_of_halts (.inl record)).symm
  | some completed =>
    rw [record] at rest
    obtain ⟨_, _, _, _, rfl, observed, rest⟩ := Program.runs_bind.mp rest
    obtain ⟨first, aside⟩ :=
      (beside_appendTranscriptEvent binding.sessionKey ..).runs observed
    obtain ⟨_, rfl, -, rfl⟩ := Program.runs_update.mp observed
    obtain ⟨_, _, _, _, rfl, checked, rest⟩ := Program.runs_bind.mp rest
    obtain ⟨_, rfl, rfl, rfl⟩ := Program.runs_query.mp checked
    split at rest
    · next cancelled =>
        have second := handleContinuationCancelledTurn_failed rest
        have halts : s.Halts result.taskId binding.sessionKey := .inr cancelled
        exact (aside.trans second).closed_iff.trans (resultCloses_of_halts halts).symm
    · next going =>
        have resumes : ¬ s.Halts result.taskId binding.sessionKey := by
          rintro (missing | cancelled)
          · rw [record] at missing
            cases missing
          · exact going cancelled
        rw [resultCloses_of_resumes resumes]
        obtain ⟨_, _, _, u, rfl, resumed, rest⟩ := Program.runs_bind.mp rest
        obtain ⟨_, rfl, -, rfl⟩ := Program.runs_update.mp resumed
        obtain ⟨_, _, _, v, rfl, noted, rest⟩ := Program.runs_bind.mp rest
        obtain ⟨_, _, step, w, rfl, planned, rest⟩ := Program.runs_bind.mp rest
        obtain ⟨_, _, _, x, rfl, written, rest⟩ := Program.runs_bind.mp rest
        obtain ⟨_, last, counted, y, rfl, counting, rest⟩ := Program.runs_bind.mp rest
        obtain ⟨noted, aside⟩ :=
          (beside_appendTranscriptEvent binding.sessionKey ..).runs noted
        obtain ⟨planned, aside'⟩ := (beside_planContinuationStepWithRetry ..).runs planned
        have aside := aside.trans aside'
        obtain ⟨written, aside'⟩ := (beside_appendTranscriptEvent ..).runs written
        have aside := aside.trans aside'
        obtain ⟨quiet, aside'⟩ := (beside_incrementStepCount ..).runs counting
        have aside := aside.trans aside'
        have counted' := incrementStepCount_runs counting
        refine Iff.trans ?_ (or_congr_right (and_congr_right' (
          (skilled_append_iff (by simp [Note.aside])).trans <|
          (skilled_append_iff first).trans <|
          (skilled_append_iff (by simp [Note.aside])).trans <|
          (skilled_append_iff (by simp [Note.aside])).trans <|
          (skilled_append_iff noted).trans <|
          (skilled_append_iff planned).trans <|
          (skilled_append_iff written).trans (skilled_append_iff quiet)))).symm
        cases present : s.runtime.turnState binding.sessionKey with
        | none =>
          have missing : y.outlook binding.sessionKey = none := by
            refine aside.outlook.trans ((outlook_updateTurn _).trans ?_)
            exact congrArg (Option.map _) present
          cases counted with
          | none =>
            obtain ⟨rfl, -, rfl⟩ := Program.runs_pure.mp rest
            exact iff_of_true (closed_of_missing missing) (.inl rfl)
          | some turn =>
            rw [Web.outlook, counted'] at missing
            cases missing
        | some turn =>
          have busy : y.Busy binding.sessionKey := by
            refine .aside ?_ aside
            exact busy_updateTurn turn present rfl rfl
          refine Iff.trans ?_ (or_iff_right (by simp)).symm
          cases counted with
          | none => exact absurd counted' busy.turnState
          | some turn =>
            dsimp only at rest
            split at rest
            · obtain ⟨quiet, aside⟩ := handleContinuationMaxStepsExceeded_failed rest
              refine iff_of_false (busy.aside aside).not_closed ?_
              exact fun skilled => not_skilled_of_aside quiet skilled.2
            · exact executeContinuationStep_failed_iff busy rest

/-- The session after the binding of a task is taken. -/
def Web.released (s : Web) (taskId : TaskId) : Web :=
  { s with runtime := s.runtime.removeBinding (some taskId) }

theorem replyTaskResult_failed_iff {result : TaskResult}
    (found : s.runtime.taskBinding result.taskId = some binding)
    (runs : (replyTaskResult config result).Runs s trace (.error error) t) :
    t.Closed binding.sessionKey ↔
      ResultCloses result.taskId binding (s.released result.taskId) trace := by
  obtain ⟨_, _, _, _, rfl, taken, rest⟩ := Program.runs_bind.mp runs
  obtain ⟨_, rfl, rfl, rfl⟩ := Program.runs_update.mp taken
  rw [found] at rest
  obtain ⟨_, _, _, _, rfl, locked, rest⟩ := Program.runs_bind.mp rest
  obtain ⟨-, _, rfl, rfl⟩ := Program.runs_await.mp locked
  obtain ⟨inner, _, value, u, rfl, continued, rest⟩ := Program.runs_bind.mp rest
  obtain ⟨_, _, _, _, rfl, unlocked, returned⟩ := Program.runs_bind.mp rest
  obtain ⟨_, rfl, -, rfl⟩ := Program.runs_update.mp unlocked
  obtain ⟨rfl, rfl, rfl⟩ := Program.runs_pure.mp returned
  have after : Aside binding.sessionKey u { u with lanes := u.lanes.erase binding.sessionKey } :=
    .of_turns rfl rfl rfl
  refine after.closed_iff.trans ((continueTurn_failed_iff continued).trans ?_)
  refine resultCloses_congr rfl rfl (.of_turns rfl rfl rfl) ?_
  refine ((skilled_append_iff (by simp [Note.aside])).trans ?_).symm
  refine (skilled_append_iff (by simp [Note.aside])).trans (skilled_append.trans (or_iff_left ?_))
  exact not_skilled_of_aside (by simp [Note.aside])

end Results

/-! ## Turns after an error -/

/-- After an error the turn of a message is closed if and only if the planner planned a
step, the workspace of a planned command was found, the command was valid and a local
skill answered. The turn of a task result is closed if and only if it was not resumed and
had been closed before, or there was no turn, or a local skill answered in the session. -/
theorem failing_turn_closed_iff (config : WebConfig) :
    (∀ inbound early s trace error t replies outcome u,
      (processDingtalkTaskSerialized config inbound early).Runs s trace (.error error) t →
      (replyDingtalkError config inbound error).Runs t replies outcome u →
      (u.Closed inbound.sessionKey ↔ MessageAnswered config trace)) ∧
    ∀ result binding s trace error t, s.runtime.taskBinding result.taskId = some binding →
      (replyTaskResult config result).Runs s trace (.error error) t →
      (t.Closed binding.sessionKey ↔
        ResultCloses result.taskId binding (s.released result.taskId) trace) := by
  constructor
  · intro inbound early s trace error t replies outcome u processed replied
    obtain ⟨-, aside⟩ :=
      (beside_replyDingtalkError inbound.sessionKey ..).runs replied
    exact aside.closed_iff.trans (processDingtalkTaskSerialized_closed_iff processed)
  · intro result binding s trace error t found runs
    exact replyTaskResult_failed_iff found runs

/-- A message that fails with the given error, and the reply to it. -/
def failedMessage (error : String) (inputs replies : List WebEnv) :
    Option ((Trace × Outcome × Web) × Trace × Outcome × Web) :=
  ((processDingtalkTaskSerialized sampleConfig sampleInbound none).runAlone inputs .empty).bind
    fun processed =>
      ((replyDingtalkError sampleConfig sampleInbound error).runAlone replies processed.2.2).map
        fun replied => (processed, replied)

theorem failedMessage_runs {error : String} {inputs replies : List WebEnv}
    {processed replied : Trace × Outcome × Web}
    (ran : failedMessage error inputs replies = some (processed, replied)) :
    (processDingtalkTaskSerialized sampleConfig sampleInbound none).Runs .empty processed.1
        processed.2.1 processed.2.2 ∧
      (replyDingtalkError sampleConfig sampleInbound error).Runs processed.2.2 replied.1
        replied.2.1 replied.2.2 := by
  obtain ⟨first, before, after⟩ := Option.bind_eq_some_iff.mp ran
  obtain ⟨second, answer, same⟩ := Option.map_eq_some_iff.mp after
  cases same
  exact ⟨Program.runs_of_runAlone before, Program.runs_of_runAlone answer⟩

/-- A task is submitted, but no card can be created for it. -/
def noCard : WebEnv := { submitEnv with created := .error "no card" }

/-- The answer that follows the task does not arrive. -/
def silent : WebEnv := { finalizeEnv with delivered := false }

/-- The binding of the task that follows from the sample message. -/
def routedBinding : TaskContinuationBinding :=
  ⟨sampleInbound.sessionKey, "turn-1", "turn-1", "agent", replyRouteFromInbound sampleInbound⟩

/-- The message without a card, the reply to it, and the result of its task. -/
def failedTurn :
    Option ((Trace × Outcome × Web) × (Trace × Outcome × Web) × Trace × Outcome × Web) :=
  (failedMessage "no card" (List.replicate 15 noCard) (List.replicate 3 submitEnv)).bind
    fun answered =>
      ((replyTaskResult sampleConfig sampleResult).runAlone (List.replicate 15 silent)
        (answered.2.2.2.complete sampleCompleted)).map fun resumed =>
          (answered.1, answered.2, resumed)

theorem failing_turn_closed_sample : ∃ trace t replies u history v,
    (processDingtalkTaskSerialized sampleConfig sampleInbound none).Runs .empty trace
      (.error "no card") t ∧
    (replyDingtalkError sampleConfig sampleInbound "no card").Runs t replies (.ok ()) u ∧
    u.Closed sampleInbound.sessionKey ∧
    (replyTaskResult sampleConfig sampleResult).Runs (u.complete sampleCompleted) history
      (.error "DingTalk channel error") v ∧
    ¬ v.Closed sampleInbound.sessionKey := by
  have evaluated : failedTurn.any (fun turn => decide (
      (turn.1.2.1 = .error "no card" ∧ turn.2.1.2.1 = .ok () ∧
        turn.2.2.2.1 = .error "DingTalk channel error") ∧
      ((turn.1.1[3]?).any (fun entry => entry.2.plan.isOk) = true ∧
        ∀ entry ∈ turn.1.1, usable sampleConfig entry = true) ∧
      turn.2.1.2.2.runtime.taskBinding sampleResult.taskId = some routedBinding ∧
      ((turn.2.1.2.2.runtime.turnState routedBinding.sessionKey).any
        (fun turn => turn.cancelRequested) = false ∧
        turn.2.1.2.2.runtime.turnState routedBinding.sessionKey ≠ none) ∧
      ∀ entry ∈ turn.2.2.1, entry.1.aside = true)) = true := by
    decide
  obtain ⟨⟨⟨trace, _, t⟩, ⟨replies, _, u⟩, history, _, v⟩, ran, checked⟩ :=
    (Option.any_eq_true _ _).mp evaluated
  obtain ⟨⟨rfl, rfl, rfl⟩, ⟨planned, useful⟩, bound, ⟨active, present⟩, quiet⟩ :=
    of_decide_eq_true checked
  obtain ⟨⟨_, _⟩, before, after⟩ := Option.bind_eq_some_iff.mp ran
  obtain ⟨_, result, same⟩ := Option.map_eq_some_iff.mp after
  cases same
  obtain ⟨processed, replied⟩ := failedMessage_runs before
  have resumed := Program.runs_of_runAlone result
  obtain ⟨message, continuation⟩ := failing_turn_closed_iff sampleConfig
  refine ⟨trace, t, replies, u, history, v, processed, replied, ?_, resumed, ?_⟩
  · exact (message _ _ _ _ _ _ _ _ _ processed replied).mpr ⟨planned, useful⟩
  · intro closed
    have closes := (continuation _ routedBinding (u.complete sampleCompleted) _ _ _ bound
      resumed).mp closed
    have recorded : (u.complete sampleCompleted).completed.lookup sampleResult.taskId =
        some sampleCompleted := Finmap.lookup_insert _
    have resumes : ¬ ((u.complete sampleCompleted).released sampleResult.taskId).Halts
        sampleResult.taskId routedBinding.sessionKey := by
      rintro (missing | cancelled)
      · exact Option.some_ne_none _ (recorded.symm.trans missing)
      · exact Bool.false_ne_true (active.symm.trans cancelled)
    obtain missing | ⟨-, skilled⟩ := closes.resumed resumes
    · exact present missing
    · exact not_skilled_of_aside quiet skilled

/-- The planner is not there. -/
def noPlan : WebEnv := { submitEnv with plan := .error "no plan" }

/-- When the planner fails, the user is told so and the turn stays in planning. -/
theorem failed_plan_stays_planning : ∃ trace t replies u,
    (processDingtalkTaskSerialized sampleConfig sampleInbound none).Runs .empty trace
      (.error "no plan") t ∧
    (replyDingtalkError sampleConfig sampleInbound "no plan").Runs t replies (.ok ()) u ∧
    u.status sampleInbound.sessionKey = some .planning ∧ ¬ u.Closed sampleInbound.sessionKey := by
  have evaluated : (failedMessage "no plan" (List.replicate 4 noPlan)
      (List.replicate 3 submitEnv)).any (fun turn => decide (
        turn.1.2.1 = .error "no plan" ∧ turn.2.2.1 = .ok () ∧
        turn.2.2.2.status sampleInbound.sessionKey = some .planning ∧
        turn.2.2.2.outlook sampleInbound.sessionKey = some (.planning, none))) = true := by
    decide
  obtain ⟨⟨⟨trace, _, t⟩, ⟨replies, _, u⟩⟩, ran, checked⟩ := (Option.any_eq_true _ _).mp evaluated
  obtain ⟨rfl, rfl, status, outlook⟩ := of_decide_eq_true checked
  obtain ⟨processed, replied⟩ := failedMessage_runs ran
  exact ⟨trace, t, replies, u, processed, replied, status, not_closed outlook rfl rfl⟩

end DingTalk
end UHorse.Hub
