import UHorse.Hub.DingTalk.Stages

/-!
# Handlers follow their stages

Every handler the Hub starts follows `Move`: a handler of a message from `arriving`,
every other one from `fresh`. Replies, look-ups and transcript events other than
final answers are quiet, so a proof about the handlers that goes by stages never
meets them.
-/

namespace UHorse.Hub.DingTalk

open UHorse.Lib UHorse.Protocol

/-- The program performs quiet actions only. -/
abbrev Still {α : Type} (program : Handler α) (stage : Stage) : Prop :=
  program.Follows Move stage (fun _ after => after = stage)

namespace Still

variable {α β : Type} {stage : Stage}

theorem pure (value : α) : Still (Pure.pure value : Handler α) stage := Program.Follows.pure rfl

theorem bind {program : Handler α} {rest : α → Handler β} {post : β → Stage → Prop}
    (first : Still program stage) (second : ∀ value, (rest value).Follows Move stage post) :
    (program >>= rest).Follows Move stage post := by
  refine Program.Follows.bind first ?_
  rintro value after rfl
  exact second value

variable {note : Note} {value : WebEnv → Web → α}

theorem update {run : WebEnv → Web → Web} (ordinary : note.ordinary = true)
    (same : ∀ env s, Quiet s (run env s)) : Still (Program.update note run value) stage := by
  apply Program.Follows.update
  intro env s
  exact ⟨stage, .quiet ordinary (same env s), rfl⟩

theorem query (ordinary : note.ordinary = true) : Still (Program.query note value) stage :=
  update ordinary fun _ s => .refl s

theorem onRuntime {change : WebEnv → SessionRuntime → SessionRuntime}
    (same : ∀ env (s : Web), Quiet s { s with runtime := change env s.runtime }) :
    Still (DingTalk.onRuntime change) stage :=
  update rfl same

theorem appendTranscriptEvent {key : String} {kind : TranscriptEventKind}
    (unfinal : kind ≠ .assistantFinal) (content : String) :
    Still (DingTalk.appendTranscriptEvent key kind content) stage :=
  onRuntime fun env _ => .appendTranscriptEvent unfinal content env.now

theorem pruneCompletedTurnTranscript (key : String) :
    Still (DingTalk.pruneCompletedTurnTranscript key) stage :=
  onRuntime fun _ _ => .pruneCompletedTurnTranscript 6

theorem removeBinding (taskId : Option TaskId) : Still (DingTalk.removeBinding taskId) stage := by
  cases taskId with
  | none => exact pure ()
  | some taskId =>
    show Still (DingTalk.onRuntime fun _ runtime => runtime.removeBinding (some taskId)) stage
    exact onRuntime fun _ _ => .removeBinding (some taskId)

theorem incrementPlannerRetry (key : String) :
    Still (DingTalk.incrementPlannerRetry key) stage :=
  update rfl fun _ _ => .updateTurn fun _ => rfl

/-! ### Replies -/

/-- A reply may be sent. -/
theorem reply {can : WebEnv → Prop} [DecidablePred can] (ordinary : note.ordinary = true)
    (route : DingTalkReplyRoute) (text : String) :
    Still (Program.update note (fun env s => if can env then s.reply route text else s) value)
      stage := by
  refine update ordinary fun env s => ?_
  split
  · exact .of_same rfl rfl rfl rfl
  · exact .refl s

theorem send (capabilities : ChannelCapabilities) (route : DingTalkReplyRoute) (text : String) :
    Still (DingTalk.send capabilities route text) stage :=
  reply rfl route text

theorem sendUnlessAck (capabilities : ChannelCapabilities) (route : DingTalkReplyRoute)
    (text : String) : Still (DingTalk.sendUnlessAck capabilities route text) stage :=
  reply rfl route text

theorem finalizeAiCard (route : DingTalkReplyRoute) (text : String) :
    Still (DingTalk.finalizeAiCard route text) stage :=
  reply rfl route text

theorem clearProcessingAck : Still DingTalk.clearProcessingAck stage := query rfl

theorem sendOrFinalize (capabilities : ChannelCapabilities) (route : DingTalkReplyRoute)
    (text : String) (handle : Option DingTalkReplyHandle) :
    Still (DingTalk.sendOrFinalize capabilities route text handle) stage := by
  match handle with
  | some (.aiCard _) =>
    refine (finalizeAiCard route text).bind fun finalized => ?_
    cases finalized with
    | true => exact pure _
    | false => exact send capabilities route text
  | some (.reaction _) => exact send capabilities route text
  | some (.legacyTransient _) =>
    refine clearProcessingAck.bind fun cleared => ?_
    cases cleared with
    | error error => exact pure _
    | ok _ => exact send capabilities route text
  | some .noop => exact sendUnlessAck capabilities route text
  | none => exact send capabilities route text

theorem takeDingtalkReplyHandle (taskId : TaskId) :
    Still (DingTalk.takeDingtalkReplyHandle taskId) stage :=
  update rfl fun _ _ => .of_same rfl rfl rfl rfl

theorem cleanupProcessingHandle (route : DingTalkReplyRoute)
    (handle : Option DingTalkReplyHandle) :
    Still (DingTalk.cleanupProcessingHandle route handle) stage := by
  match handle with
  | some (.aiCard _) => exact (finalizeAiCard route _).bind fun _ => pure _
  | some (.legacyTransient _) => exact clearProcessingAck
  | some (.reaction _) => exact pure _
  | some .noop => exact pure _
  | none => exact pure _

theorem finalizeTaskResultReply (config : WebConfig) (taskId : TaskId)
    (route : DingTalkReplyRoute) (text : String) :
    Still (DingTalk.finalizeTaskResultReply config taskId route text) stage := by
  rw [DingTalk.finalizeTaskResultReply]
  split
  · exact pure _
  · exact (takeDingtalkReplyHandle taskId).bind fun handle => sendOrFinalize _ route text handle

theorem insertDingtalkReplyRoute (taskId : TaskId) (route : DingTalkReplyRoute) :
    Still (DingTalk.insertDingtalkReplyRoute taskId route) stage :=
  update rfl fun _ _ => .of_same rfl rfl rfl rfl

theorem takeDingtalkReplyRoute (taskId : TaskId) :
    Still (DingTalk.takeDingtalkReplyRoute taskId) stage :=
  update rfl fun _ _ => .of_same rfl rfl rfl rfl

theorem storeReplyHandle (config : WebConfig) (taskId : TaskId)
    (handle : Option DingTalkReplyHandle) :
    Still (DingTalk.storeReplyHandle config taskId handle) stage := by
  have insert : ∀ handle, Still (DingTalk.insertDingtalkReplyHandle taskId handle) stage :=
    fun _ => update rfl fun _ _ => .of_same rfl rfl rfl rfl
  unfold DingTalk.storeReplyHandle
  split
  · exact (insert _).bind fun _ => pure _
  · refine (query rfl).bind fun created => ?_
    cases created with
    | error error => exact pure _
    | ok handle => exact (insert _).bind fun _ => pure _
  · exact pure _

theorem replyDingtalkError (config : WebConfig) (inbound : DingTalkInbound) (error : String) :
    Still (DingTalk.replyDingtalkError config inbound error) stage := by
  rw [DingTalk.replyDingtalkError]
  split
  · exact pure _
  · refine (query rfl).bind fun created => ?_
    cases created with
    | error error => exact pure _
    | ok handle =>
      exact (appendTranscriptEvent (by decide) _).bind fun _ => sendOrFinalize _ _ _ _

/-! ### Looking things up -/

theorem getCompletedTask (taskId : TaskId) : Still (DingTalk.getCompletedTask taskId) stage :=
  query rfl

theorem summarizeTaskResultOrFallback (config : WebConfig) (completed : CompletedTask) :
    Still (DingTalk.summarizeTaskResultOrFallback config completed) stage :=
  query rfl

theorem buildTaskResultReplyText (config : WebConfig) (result : TaskResult) :
    Still (DingTalk.buildTaskResultReplyText config result) stage := by
  refine (getCompletedTask _).bind fun completed => ?_
  cases completed with
  | none => exact pure _
  | some completed =>
    dsimp only
    split
    · exact pure _
    · exact summarizeTaskResultOrFallback config completed

theorem replyTaskResultWithoutContinuation (config : WebConfig) (result : TaskResult)
    (route : DingTalkReplyRoute) :
    Still (DingTalk.replyTaskResultWithoutContinuation config result route) stage :=
  (getCompletedTask _).bind fun _ => (buildTaskResultReplyText config result).bind fun text =>
    finalizeTaskResultReply config _ route text

theorem resolveWorkspace (command : Command) (workspacePath : Option String) :
    Still (DingTalk.resolveWorkspace command workspacePath) stage :=
  query rfl

theorem planFallback (config : WebConfig) (completed : CompletedTask) :
    Still (DingTalk.planFallback config completed) stage :=
  (summarizeTaskResultOrFallback config completed).bind fun _ => pure _

end Still

/-! ## Answers and submissions -/

/-- The handler holds this lane. -/
def Occupies {α : Type} (key : String) (_ : α) (after : Stage) : Prop := after.lane = some key

theorem Still.occupies {α : Type} {program : Handler α} {stage : Stage} {key : String}
    (still : Still program stage) (held : stage.lane = some key) :
    program.Follows Move stage (Occupies key) := by
  apply Program.Follows.weaken still
  rintro value after rfl
  exact held

section Steps

variable {config : WebConfig} {source : Source} {stage : Stage} {key : String}

/-- The turn of the session is completed, and the lane is still held. -/
theorem completeTurn_follows (taskId : Option TaskId) :
    (completeTurn key taskId).Follows Move (.spoken source key)
      (fun _ after => after = .closing source.key) := by
  have completed : (onRuntime fun _ runtime => runtime.completeTurn key taskId).Follows Move
      (.spoken source key) (fun _ after => after = .closing source.key) :=
    Program.Follows.update fun _ _ => ⟨_, .complete, rfl⟩
  apply Program.Follows.bind completed
  rintro _ after rfl
  exact Still.removeBinding taskId

/-- A stage at which the final answer to the session `key` may be given. -/
def MayAnswer (source : Source) (key : String) (stage : Stage) : Prop :=
  stage = .answering source key ∨ (stage = .counted source ∧ key = source.key)

theorem finalAnswer_follows (may : MayAnswer source key stage) (text : String) :
    (appendTranscriptEvent key .assistantFinal text).Follows Move stage
      (fun _ after => after = .spoken source key) := by
  apply Program.Follows.update
  intro env s
  obtain rfl | ⟨rfl, rfl⟩ := may
  · exact ⟨_, .answer, rfl⟩
  · exact ⟨_, .conclude, rfl⟩

theorem replyDirectly_follows (may : MayAnswer source key stage) (route : DingTalkReplyRoute)
    (text : String) (handle : Option DingTalkReplyHandle) :
    (replyDirectly config key route text handle).Follows Move stage (Occupies source.key) := by
  apply Program.Follows.bind (finalAnswer_follows may text)
  rintro _ after rfl
  apply Program.Follows.bind (completeTurn_follows none)
  rintro _ after rfl
  split
  · exact (Still.pure _).occupies rfl
  · exact (Still.sendOrFinalize _ route text handle).occupies rfl

theorem executeLocalTurnStep_follows (source : Source) (route : DingTalkReplyRoute)
    (handle : Option DingTalkReplyHandle) :
    (executeLocalTurnStep config route source.localKey handle).Follows Move (.counted source)
      (Occupies source.key) := by
  have performed : (Program.query .localStep (fun (env : WebEnv) (_ : Web) =>
      env.localReply)).Follows Move (.counted source)
      (fun _ after => after = .answering source source.localKey) :=
    Program.Follows.update fun _ _ => ⟨_, .perform, rfl⟩
  apply Program.Follows.bind performed
  rintro outcome after rfl
  cases outcome with
  | error error => exact (Still.pure _).occupies rfl
  | ok text => exact replyDirectly_follows (.inl rfl) route text handle

theorem bindTaskToTurn_follows {taskId : TaskId} {binding : TaskContinuationBinding}
    (same : binding.sessionKey = source.key) (turnId : binding.turnId = source.turnId)
    (route : binding.route = source.route) :
    (bindTaskToTurn taskId binding).Follows Move (.submitted source taskId)
      (fun _ after => after = .closing source.key) := by
  have inserted : (Program.update (.bind taskId binding) (fun (_ : WebEnv) (s : Web) =>
      { s with runtime := s.runtime.insertBinding taskId binding }) (fun _ _ => ())).Follows Move
      (.submitted source taskId) (fun _ after => after = .inserted source taskId binding) :=
    Program.Follows.update fun _ _ => ⟨_, .bind same turnId route, rfl⟩
  apply Program.Follows.bind inserted
  rintro _ after rfl
  have bound : (onRuntime fun _ runtime => runtime.bindTurn taskId binding).Follows Move
      (.inserted source taskId binding) (fun _ after => after = .closing source.key) :=
    Program.Follows.update fun _ _ => ⟨_, .bound, rfl⟩
  apply Program.Follows.bind bound
  rintro _ after rfl
  exact Still.appendTranscriptEvent (by decide) _

theorem dispatchTask_follows {turnId agentId : String} {route : DingTalkReplyRoute}
    (same : key = source.key) (turn : turnId = source.turnId) (back : route = source.route)
    (missingTurn : String) :
    (dispatchTask key turnId agentId route missingTurn).Follows Move (.counted source)
      (Occupies source.key) := by
  subst same turn back
  have called : (beginToolCall source.key "hub_task").Follows Move (.counted source)
      (fun _ after => after = .calling source) :=
    Program.Follows.update fun _ _ => ⟨_, .call, rfl⟩
  apply Program.Follows.bind called
  rintro toolCall after rfl
  cases toolCall with
  | none => exact (Still.pure _).occupies rfl
  | some toolCallId =>
    refine (Still.appendTranscriptEvent (by decide) _).bind fun _ => ?_
    have submitted : submitTask.Follows Move (.calling source)
        (fun taskId after => after = .submitted source taskId) :=
      Program.Follows.update fun _ _ => ⟨_, .submit, rfl⟩
    apply Program.Follows.bind submitted
    rintro taskId after rfl
    apply Program.Follows.bind (bindTaskToTurn_follows rfl rfl rfl)
    rintro _ after rfl
    exact (Still.pure _).occupies rfl

theorem submitPlannedTask_follows {turnId agentId : String} {route : DingTalkReplyRoute}
    (same : key = source.key) (turn : turnId = source.turnId) (back : route = source.route)
    (command : Command) (workspacePath : Option String) (early : Option DingTalkReplyHandle) :
    (submitPlannedTask config key turnId agentId route command workspacePath early).Follows Move
      (.counted source) (Occupies source.key) := by
  refine (Still.resolveWorkspace _ _).bind fun workspace => ?_
  cases workspace with
  | error error => exact (Still.pure _).occupies rfl
  | ok hint =>
    dsimp only
    split
    · exact (Still.pure _).occupies rfl
    · apply Program.Follows.bind (dispatchTask_follows same turn back _)
      intro outcome after held
      cases outcome with
      | error error => exact (Still.pure _).occupies held
      | ok taskId =>
        exact (Still.insertDingtalkReplyRoute _ _).bind fun _ =>
          (Still.storeReplyHandle config taskId early).occupies held

/-- The counted step may be executed if it is within the limit of the turn. -/
theorem incrementStepCount_follows (source : Source) (plans : Nat) :
    (incrementStepCount source.key).Follows Move (.planning source plans)
      (fun turn after => (after = .counted source ∧
          ∀ counted, turn = some counted → counted.stepCount ≤ counted.maxSteps) ∨
        (after = .answering source source.key ∧
          ∀ counted, turn = some counted → counted.stepCount > counted.maxSteps)) := by
  apply Program.Follows.update
  intro env s
  dsimp only
  cases counted : (s.runtime.incrementStepCount source.key).turnState source.key with
  | none => exact ⟨_, .exhaust, .inr ⟨rfl, nofun⟩⟩
  | some turn =>
    by_cases within : turn.stepCount ≤ turn.maxSteps
    · refine ⟨_, .count counted within, .inl ⟨rfl, ?_⟩⟩
      rintro _ ⟨⟩
      exact within
    · refine ⟨_, .exhaust, .inr ⟨rfl, ?_⟩⟩
      rintro _ ⟨⟩
      omega

end Steps

/-! ## Messages -/

section Messages

variable (config : WebConfig) (inbound : DingTalkInbound)

theorem startTurn_follows (text : String) :
    (startTurn inbound.sessionKey text).Follows Move (.received inbound)
      (fun turnId after => after = .planning (.message inbound turnId) 0) := by
  have started : (Program.update (.start inbound.sessionKey) (fun (env : WebEnv) (s : Web) =>
      { s with runtime := s.runtime.startTurn inbound.sessionKey env.uuid text })
      (fun env _ => env.uuid)).Follows Move (.received inbound)
      (fun turnId after => after = .opened (.message inbound turnId)) :=
    Program.Follows.update fun _ _ => ⟨_, .start, rfl⟩
  apply Program.Follows.bind started
  rintro turnId after rfl
  have transcribed : (onRuntime fun env runtime =>
      runtime.startTranscript inbound.sessionKey turnId text env.now).Follows Move
      (.opened (.message inbound turnId))
      (fun _ after => after = .planning (.message inbound turnId) 0) :=
    Program.Follows.update fun _ _ => ⟨_, .transcribe, rfl⟩
  apply Program.Follows.bind transcribed
  rintro _ after rfl
  exact Program.Follows.pure rfl

theorem processDingtalkTaskSerialized_follows (early : Option DingTalkReplyHandle) :
    (processDingtalkTaskSerialized config inbound early).Follows Move (.admitted inbound)
      (Occupies inbound.sessionKey) := by
  have received : (Program.query (.receive inbound) (fun (env : WebEnv) (_ : Web) =>
      env.agentId)).Follows Move (.admitted inbound) (fun _ after => after = .received inbound) :=
    Program.Follows.update fun _ _ => ⟨_, .receive, rfl⟩
  apply Program.Follows.bind received
  rintro agentId after rfl
  apply Program.Follows.bind (startTurn_follows inbound _)
  rintro turnId after rfl
  refine (Still.query rfl).bind fun plan => ?_
  cases plan with
  | error error => exact (Still.pure _).occupies rfl
  | ok step =>
    refine (Still.appendTranscriptEvent (by decide) _).bind fun _ => ?_
    apply Program.Follows.bind
      (incrementStepCount_follows (.message inbound turnId) 0)
    intro turn after counted
    cases turn with
    | none =>
      obtain ⟨rfl, -⟩ | ⟨rfl, -⟩ := counted
      · exact (Still.pure _).occupies rfl
      · exact (Still.pure _).occupies rfl
    | some turn =>
      dsimp only
      split
      · next exceeded =>
          obtain ⟨rfl, within⟩ | ⟨rfl, -⟩ := counted
          · exact absurd (within turn rfl) (by omega)
          · exact replyDirectly_follows (.inl rfl) _ _ _
      · next within =>
          obtain ⟨rfl, -⟩ | ⟨rfl, exceeded⟩ := counted
          · cases step with
            | finalize text => exact replyDirectly_follows (.inr ⟨rfl, rfl⟩) _ _ _
            | submitTask command workspacePath =>
              exact submitPlannedTask_follows rfl rfl rfl command workspacePath early
            | _ => exact executeLocalTurnStep_follows (.message inbound turnId) _ _
          · exact absurd (exceeded turn rfl) (by omega)

theorem waitForFollowUp_follows (replyText : String) (early : Option DingTalkReplyHandle) :
    (waitForFollowUp config inbound replyText early).Follows Move (.admitted inbound)
      (Occupies inbound.sessionKey) := by
  have greeted : (startTurn inbound.sessionKey inbound.userText).Follows Move (.admitted inbound)
      (fun turnId after => after = .answering (.message inbound turnId) inbound.sessionKey) := by
    have started : (Program.update (.start inbound.sessionKey) (fun (env : WebEnv) (s : Web) =>
        { s with runtime := s.runtime.startTurn inbound.sessionKey env.uuid inbound.userText })
        (fun env _ => env.uuid)).Follows Move (.admitted inbound)
        (fun turnId after => after = .greeting (.message inbound turnId)) :=
      Program.Follows.update fun _ _ => ⟨_, .greet, rfl⟩
    apply Program.Follows.bind started
    rintro turnId after rfl
    have transcribed : (onRuntime fun env runtime => runtime.startTranscript inbound.sessionKey
        turnId inbound.userText env.now).Follows Move (.greeting (.message inbound turnId))
        (fun _ after => after = .answering (.message inbound turnId) inbound.sessionKey) :=
      Program.Follows.update fun _ _ => ⟨_, .greeted, rfl⟩
    apply Program.Follows.bind transcribed
    rintro _ after rfl
    exact Program.Follows.pure rfl
  apply Program.Follows.bind greeted
  rintro turnId after rfl
  exact replyDirectly_follows (.inl rfl) _ _ _

/-- The lane is left at the end, whatever has happened meanwhile. -/
theorem leave_follows {α β : Type} {key : String} {stage : Stage} {body : Handler α}
    {rest : α → Handler β} {post : β → Stage → Prop}
    (follows : body.Follows Move stage (Occupies key))
    (next : ∀ value, (rest value).Follows Move .finished post) :
    (do
      let value ← body
      Program.update (.unlock key) (fun _ s => { s with lanes := s.lanes.erase key })
        (fun _ _ => ())
      rest value : Handler β).Follows Move stage post := by
  apply Program.Follows.bind follows
  intro value after held
  have left : (Program.update (.unlock key) (fun (_ : WebEnv) (s : Web) =>
      { s with lanes := s.lanes.erase key }) (fun _ _ => ())).Follows Move after
      (fun _ after => after = .finished) :=
    Program.Follows.update fun _ _ => ⟨_, .leave held, rfl⟩
  apply Program.Follows.bind left
  rintro _ after rfl
  exact next value

theorem handleDingtalkInbound_follows (normalized : NormalizedInbound)
    (early : Option DingTalkReplyHandle) :
    (handleDingtalkInbound config inbound normalized early).Follows Move (.arriving inbound)
      (fun _ after => after = .finished) := by
  have submitted : (submitDingtalkTask config inbound normalized early).Follows Move
      (.arriving inbound) (fun _ after => after = .finished) := by
    have admitted : (Program.await (.lock inbound.sessionKey)
        (fun s : Web => inbound.sessionKey ∉ s.lanes)
        (fun (_ : WebEnv) s => { s with lanes := insert inbound.sessionKey s.lanes })).Follows Move
        (.arriving inbound) (fun _ after => after = .admitted inbound) := by
      apply Program.Follows.await
      intro env s free
      exact ⟨_, .enter (by simpa using free), rfl⟩
    apply Program.Follows.bind admitted
    rintro _ after rfl
    refine leave_follows ?_ fun _ => Program.Follows.pure rfl
    cases normalized with
    | continueAsText => exact processDingtalkTaskSerialized_follows config inbound early
    | waitForFollowUp replyText => exact waitForFollowUp_follows config inbound replyText early
  apply Program.Follows.bind submitted
  rintro outcome after rfl
  cases outcome with
  | error error => exact Still.replyDingtalkError config inbound error
  | ok _ => exact Still.pure _

end Messages

/-! ## Task results -/

section Results

variable {config : WebConfig} {taskId : TaskId} {binding : TaskContinuationBinding}

/-- An error ends a handler, and what follows runs after a success. -/
theorem Still.stopping {program rest : Handler Outcome} {stage : Stage}
    {post : Outcome → Stage → Prop} (first : Still program stage)
    (failed : ∀ error, post (.error error) stage) (fine : rest.Follows Move stage post) :
    (do
      match ← program with
      | .error error => return .error error
      | .ok _ => rest : Handler Outcome).Follows Move stage post := by
  refine first.bind fun outcome => ?_
  cases outcome with
  | error error => exact Program.Follows.pure (failed error)
  | ok _ => exact fine

theorem Still.pruned {stage : Stage} (key : String) :
    Still (do
      DingTalk.pruneCompletedTurnTranscript key
      return .ok () : Handler Outcome) stage :=
  (Still.pruneCompletedTurnTranscript key).bind fun _ => Still.pure _

theorem completeContinuationWithReply_follows (route : DingTalkReplyRoute) (text : String) :
    (completeContinuationWithReply config binding.sessionKey taskId route text).Follows Move
      (.spoken (.result taskId binding) binding.sessionKey) (Occupies binding.sessionKey) := by
  refine Still.stopping (Still.finalizeTaskResultReply config taskId route text)
    (fun _ => rfl) ?_
  apply Program.Follows.bind (completeTurn_follows _)
  rintro _ after rfl
  exact (Still.pruned binding.sessionKey).occupies rfl

theorem handleContinuationMissingCompletedTask_follows (route : DingTalkReplyRoute)
    (text : String) :
    (handleContinuationMissingCompletedTask config binding.sessionKey taskId route text).Follows
      Move (.orphaned taskId binding) (Occupies binding.sessionKey) := by
  have failed : (failTurn binding.sessionKey (some taskId)).Follows Move (.orphaned taskId binding)
      (fun _ after => after = .closing binding.sessionKey) := by
    have turn : (onRuntime fun _ runtime => runtime.failTurn binding.sessionKey
        (some taskId)).Follows Move (.orphaned taskId binding)
        (fun _ after => after = .closing binding.sessionKey) :=
      Program.Follows.update fun _ _ => ⟨_, .failOrphan, rfl⟩
    apply Program.Follows.bind turn
    rintro _ after rfl
    exact Still.removeBinding _
  have completed : (completeTurn binding.sessionKey (some taskId)).Follows Move
      (.orphaned taskId binding) (fun _ after => after = .closing binding.sessionKey) := by
    have turn : (onRuntime fun _ runtime => runtime.completeTurn binding.sessionKey
        (some taskId)).Follows Move (.orphaned taskId binding)
        (fun _ after => after = .closing binding.sessionKey) :=
      Program.Follows.update fun _ _ => ⟨_, .completeOrphan, rfl⟩
    apply Program.Follows.bind turn
    rintro _ after rfl
    exact Still.removeBinding _
  rw [handleContinuationMissingCompletedTask]
  split
  · apply Program.Follows.bind failed
    rintro _ after rfl
    exact Program.Follows.pure rfl
  · refine Still.stopping (Still.finalizeTaskResultReply config taskId route text)
      (fun _ => rfl) ?_
    apply Program.Follows.bind completed
    rintro _ after rfl
    exact Program.Follows.pure rfl

theorem handleContinuationCancelledTurn_follows (route : DingTalkReplyRoute) {key : String} :
    Still (handleContinuationCancelledTurn config key taskId route) (.closing key) := by
  rw [handleContinuationCancelledTurn]
  split
  · exact Still.pruned key
  · refine (Still.takeDingtalkReplyHandle taskId).bind fun handle => ?_
    exact Still.stopping (Still.cleanupProcessingHandle route handle) (fun _ => rfl)
      (Still.pruned key)

/-- The planner is asked at most twice. -/
theorem planContinuationStepWithRetry_follows (completed : CompletedTask) :
    (planContinuationStepWithRetry config binding.sessionKey binding completed).Follows Move
      (.planning (.result taskId binding) 0)
      (fun _ after => ∃ plans, after = .planning (.result taskId binding) plans) := by
  have planned : ∀ plans, plans < 2 → (continueTaskResult binding).Follows Move
      (.planning (.result taskId binding) plans)
      (fun _ after => after = .planning (.result taskId binding) (plans + 1)) :=
    fun plans few => Program.Follows.update fun _ _ => ⟨_, .plan few, rfl⟩
  have ends : ∀ {program : Handler PlannedTurnStep} {plans : Nat},
      Still program (.planning (.result taskId binding) plans) →
      program.Follows Move (.planning (.result taskId binding) plans)
        (fun _ after => ∃ plans, after = .planning (.result taskId binding) plans) := by
    intro program plans still
    apply Program.Follows.weaken still
    rintro _ after rfl
    exact ⟨plans, rfl⟩
  have accept : ∀ (step : PlannedTurnStep) plans,
      (do
        let _ ← onRuntime fun _ runtime => runtime.resetPlannerRetry binding.sessionKey
        return step : Handler PlannedTurnStep).Follows Move
        (.planning (.result taskId binding) plans)
        (fun _ after => ∃ plans, after = .planning (.result taskId binding) plans) := by
    intro step plans
    refine ends (Still.bind (Still.onRuntime fun _ _ => ?_) fun _ => Still.pure _)
    exact .updateTurn fun _ => rfl
  apply Program.Follows.bind (planned 0 (by decide))
  rintro result after rfl
  cases result with
  | ok step => exact accept step 1
  | error error =>
    refine (Still.appendTranscriptEvent (by decide) _).bind fun _ =>
      (Still.incrementPlannerRetry _).bind fun turn => ?_
    cases turn with
    | none => exact ends (Still.planFallback config completed)
    | some turn =>
      dsimp only
      split
      · refine (Still.query rfl).bind fun events => ?_
        have compacted : Still (onRuntime fun _ runtime => runtime.recordCompaction
            binding.sessionKey (compactSummary config completed) events)
            (.planning (.result taskId binding) 1) :=
          Still.onRuntime fun _ _ => .updateTurn fun _ => rfl
        refine compacted.bind fun _ =>
          (Still.appendTranscriptEvent (by decide) _).bind fun _ => ?_
        apply Program.Follows.bind (planned 1 (by decide))
        rintro result after rfl
        cases result with
        | ok step => exact accept step 2
        | error _ => exact ends (Still.planFallback config completed)
      · exact ends (Still.planFallback config completed)

theorem executeContinuationStep_follows (step : PlannedTurnStep) :
    (executeContinuationStep config binding.sessionKey taskId binding step).Follows Move
      (.counted (.result taskId binding)) (Occupies binding.sessionKey) := by
  -- All local steps are executed alike.
  have locally : (executeContinuationStep config binding.sessionKey taskId binding
      .listInstalledSkills).Follows Move (.counted (.result taskId binding))
      (Occupies binding.sessionKey) := by
    apply Program.Follows.bind (executeLocalTurnStep_follows (.result taskId binding) _ _)
    intro outcome after held
    cases outcome with
    | error error => exact Program.Follows.pure held
    | ok _ => exact (Still.pruned _).occupies held
  cases step with
  | finalize text =>
    apply Program.Follows.bind (finalAnswer_follows (.inr ⟨rfl, rfl⟩) text)
    rintro _ after rfl
    exact completeContinuationWithReply_follows _ text
  | submitTask command workspacePath =>
    refine (Still.resolveWorkspace _ _).bind fun workspace => ?_
    cases workspace with
    | error error => exact (Still.pure _).occupies rfl
    | ok hint =>
      dsimp only
      split
      · exact (Still.pure _).occupies rfl
      · apply Program.Follows.bind (dispatchTask_follows rfl rfl rfl _)
        intro outcome after held
        cases outcome with
        | error error => exact Program.Follows.pure held
        | ok _ => exact Program.Follows.pure held
  | executeSkill skillName input => exact locally
  | listInstalledSkills => exact locally
  | querySkill skillName => exact locally
  | installSkill query => exact locally

theorem continueTurn_follows (result : TaskResult) (same : result.taskId = taskId) :
    (continueTurn config result binding).Follows Move (.holding taskId binding)
      (Occupies binding.sessionKey) := by
  subst same
  have looked : (getCompletedTask result.taskId).Follows Move (.holding result.taskId binding)
      (fun found after => after =
        if found.isSome then .recorded result.taskId binding
        else .orphaned result.taskId binding) := by
    apply Program.Follows.update
    intro env s
    cases found : s.completed.lookup result.taskId with
    | none => exact ⟨_, .orphan (Finmap.lookup_eq_none.mp found), by simp⟩
    | some completed => exact ⟨_, .record (HashMap.mem_of_lookup found), by simp⟩
  apply Program.Follows.bind looked
  rintro found after rfl
  cases found with
  | none =>
    exact (Still.buildTaskResultReplyText config result).bind fun text =>
      handleContinuationMissingCompletedTask_follows _ text
  | some completed =>
    refine (Still.appendTranscriptEvent (by decide) _).bind fun _ => ?_
    have checked : (Program.query (.checkCancelled binding.sessionKey)
        (fun (_ : WebEnv) (s : Web) => (s.runtime.turnState binding.sessionKey).any
          (fun turn => turn.cancelRequested))).Follows Move
        (.recorded result.taskId binding) (fun cancelled after => after =
          if cancelled then .closing binding.sessionKey
          else .uncancelled result.taskId binding) := by
      apply Program.Follows.update
      intro env s
      cases flag : (s.runtime.turnState binding.sessionKey).any
          (fun turn => turn.cancelRequested) with
      | true => exact ⟨_, .stop, rfl⟩
      | false => exact ⟨_, .goOn flag, rfl⟩
    apply Program.Follows.bind checked
    rintro cancelled after rfl
    cases cancelled with
    | true => exact (handleContinuationCancelledTurn_follows _).occupies rfl
    | false =>
      have resumed : (onRuntime fun _ runtime => runtime.markTurnResuming binding.sessionKey
          (some result.taskId)).Follows Move (.uncancelled result.taskId binding)
          (fun _ after => after = .planning (.result result.taskId binding) 0) :=
        Program.Follows.update fun _ _ => ⟨_, .resume, rfl⟩
      apply Program.Follows.bind resumed
      rintro _ after rfl
      refine (Still.appendTranscriptEvent (by decide) _).bind fun _ => ?_
      apply Program.Follows.bind (planContinuationStepWithRetry_follows completed)
      rintro step after ⟨plans, rfl⟩
      refine (Still.appendTranscriptEvent (by decide) _).bind fun _ => ?_
      apply Program.Follows.bind
        (incrementStepCount_follows (.result result.taskId binding) plans)
      intro turn after counted
      cases turn with
      | none =>
        obtain ⟨rfl, -⟩ | ⟨rfl, -⟩ := counted
        · exact Program.Follows.pure rfl
        · exact Program.Follows.pure rfl
      | some turn =>
        dsimp only
        split
        · next exceeded =>
            obtain ⟨rfl, within⟩ | ⟨rfl, -⟩ := counted
            · exact absurd (within turn rfl) (by omega)
            · refine (Still.summarizeTaskResultOrFallback config completed).bind
                fun text => ?_
              apply Program.Follows.bind (finalAnswer_follows (.inl rfl) text)
              rintro _ after rfl
              exact completeContinuationWithReply_follows _ text
        · next within =>
            obtain ⟨rfl, -⟩ | ⟨rfl, exceeded⟩ := counted
            · exact executeContinuationStep_follows step
            · exact absurd (exceeded turn rfl) (by omega)

theorem replyTaskResult_follows (config : WebConfig) (result : TaskResult) :
    (replyTaskResult config result).Follows Move .fresh (fun _ _ => True) := by
  have taken : (takeTaskBinding result.taskId).Follows Move .fresh
      (fun found after => after = found.elim .finished (.took result.taskId)) := by
    apply Program.Follows.update
    intro env s
    cases found : s.runtime.taskBinding result.taskId with
    | none => exact ⟨_, .takeNothing found, rfl⟩
    | some binding => exact ⟨_, .take found, rfl⟩
  apply Program.Follows.bind taken
  rintro found after rfl
  cases found with
  | none =>
    refine (Still.takeDingtalkReplyRoute _).bind fun route => ?_
    cases route with
    | none => exact Program.Follows.pure trivial
    | some route =>
      exact Program.Follows.weaken
        (Still.replyTaskResultWithoutContinuation config result route) fun _ _ _ => trivial
  | some binding =>
    have held : (Program.await (.lock binding.sessionKey)
        (fun s : Web => binding.sessionKey ∉ s.lanes)
        (fun (_ : WebEnv) s =>
          { s with lanes := insert binding.sessionKey s.lanes })).Follows Move
        (.took result.taskId binding)
        (fun _ after => after = .holding result.taskId binding) := by
      apply Program.Follows.await
      intro env s free
      exact ⟨_, .hold (by simpa using free), rfl⟩
    apply Program.Follows.bind held
    rintro _ after rfl
    exact leave_follows (continueTurn_follows result rfl) fun _ => Program.Follows.pure trivial

end Results

/-! ## All handlers -/

/-- A handler that finds a binding changes its turn once. -/
theorem findTaskBinding_follows (taskId : TaskId) {after : TaskContinuationBinding → Stage}
    (move : ∀ env (s : Web) binding, s.runtime.taskBinding taskId = some binding →
      Move .fresh (.find taskId) env s (after binding) s)
    {rest : Option TaskContinuationBinding → Handler Outcome}
    (nothing : Still (rest none) .finished)
    (something : ∀ binding, (rest (some binding)).Follows Move (after binding)
      (fun _ _ => True)) :
    (findTaskBinding taskId >>= rest).Follows Move .fresh (fun _ _ => True) := by
  have looked : (findTaskBinding taskId).Follows Move .fresh
      (fun found stage => stage = found.elim .finished after) := by
    apply Program.Follows.update
    intro env s
    cases found : s.runtime.taskBinding taskId with
    | none => exact ⟨_, .findNothing, rfl⟩
    | some binding => exact ⟨_, move env s binding found, rfl⟩
  apply Program.Follows.bind looked
  rintro found stage rfl
  cases found with
  | none => exact Program.Follows.weaken nothing fun _ _ _ => trivial
  | some binding => exact something binding

/-- The stage a handler starts at. -/
def Begins (config : WebConfig) (program : Handler Outcome) (stage : Stage) : Prop :=
  stage = .fresh ∨ ∃ inbound normalized early,
    program = handleDingtalkInbound config inbound normalized early ∧ stage = .arriving inbound

theorem Spawns.follows {config : WebConfig} {program : Handler Outcome}
    (spawned : Spawns config program) :
    ∃ stage, Begins config program stage ∧ program.Follows Move stage (fun _ _ => True) := by
  cases spawned with
  | inbound inbound normalized early =>
    exact ⟨_, .inr ⟨inbound, normalized, early, rfl, rfl⟩, Program.Follows.weaken
      (handleDingtalkInbound_follows config inbound normalized early) fun _ _ _ => trivial⟩
  | result result => exact ⟨.fresh, .inl rfl, replyTaskResult_follows config result⟩
  | approvalRequest taskId requestId reason =>
    refine ⟨.fresh, .inl rfl, findTaskBinding_follows taskId
      (fun _ _ _ found => .findToApprove found) (Still.pure _) fun binding => ?_⟩
    have waiting : (onRuntime fun _ runtime =>
        runtime.markWaitingForApproval binding.sessionKey).Follows Move (.approving binding)
        (fun _ after => after = .finished) :=
      Program.Follows.update fun _ _ => ⟨_, .approve, rfl⟩
    apply Program.Follows.bind waiting
    rintro _ after rfl
    exact (Still.appendTranscriptEvent (by decide) _).bind fun _ => Program.Follows.pure trivial
  | approvalDecision taskId approved requestId responder =>
    refine ⟨.fresh, .inl rfl, findTaskBinding_follows taskId
      (fun _ _ _ _ => .findNothing) (Still.pure _) fun binding => ?_⟩
    refine (Still.appendTranscriptEvent ?_ _).bind fun _ => Program.Follows.pure trivial
    split <;> decide
  | cancellation taskId =>
    refine ⟨.fresh, .inl rfl, findTaskBinding_follows taskId
      (fun _ _ _ found => .findToCancel found) (Still.pure _) fun binding => ?_⟩
    have cancelled : (onRuntime fun _ runtime =>
        runtime.cancelTurn binding.sessionKey).Follows Move (.cancelling binding)
        (fun _ after => after = .finished) :=
      Program.Follows.update fun _ _ => ⟨_, .cancel, rfl⟩
    apply Program.Follows.bind cancelled
    rintro _ after rfl
    exact (Still.appendTranscriptEvent (by decide) _).bind fun _ => Program.Follows.pure trivial

end UHorse.Hub.DingTalk
