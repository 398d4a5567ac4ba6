import UHorse.Hub.SessionRuntime
import UHorse.Lib.Program

/-!
# The handlers that act on a session's turn

A DingTalk message starts a turn and may submit a task; the task's result, an
approval request of its node, an approval decision and a cancellation come later
and find the session again through the task's binding. Each handler is a program
with one action for each lock section and each remote call.

The submission and the dispatch of tasks belong to the scheduler; here a
submission returns an id, and `completed` is what the scheduler has recorded.
Persisting memories and session states touches none of the maps modelled here.
-/

namespace UHorse.Hub.DingTalk

open UHorse.Lib UHorse.Protocol

inductive PlannedTurnStep
  | finalize (text : String)
  | submitTask (command : Command) (workspacePath : Option String)
  | executeSkill (skillName input : String)
  | listInstalledSkills
  | querySkill (skillName : String)
  | installSkill (query : String)

/-- The steps the Hub performs itself. -/
def PlannedTurnStep.isLocal : PlannedTurnStep → Bool
  | .finalize _ => false
  | .submitTask .. => false
  | _ => true

inductive DingTalkReplyHandle
  | aiCard (card : String)
  | reaction (reaction : String)
  | legacyTransient (receipt : Option String)
  | noop
deriving DecidableEq

structure ChannelCapabilities where
  replyContext : Bool
  sendToRecipient : Bool
  inboundWebhook : Bool

structure DingTalkInbound where
  channelUserId : String
  conversationId : String
  messageId : Option String
  conversationType : Option String
  senderUserId : Option String
  senderStaffId : Option String
  senderCorpId : Option String
  sessionWebhook : Option String
  sessionWebhookExpiredTime : Option Int
  robotCode : Option String
  userText : String

/-- What becomes of a message before it reaches its session. -/
inductive NormalizedInbound
  | continueAsText
  | waitForFollowUp (replyText : String)

/-- What does not change while the Hub runs: the DingTalk channel, if there is one,
and the pure functions on commands, steps and results. -/
structure WebConfig where
  channel : Option ChannelCapabilities
  validatePlannedCommand : Command → String → Except String Unit
  debugStep : PlannedTurnStep → String
  resultJson : CommandResult → String
  commandJson : Command → String
  formatTaskResultMessage : CommandResult → String
  formatFileOperationResult : Json → Option String

/-- What one action gets from outside: the clock, fresh ids, and the answers of the
planner, the summarizer, the local skills and the channel. -/
structure WebEnv where
  now : DateTime
  uuid : String
  agentId : String
  taskId : TaskId
  plan : Except String PlannedTurnStep
  summary : Except String String
  localReply : Except String String
  defaultWorkspaceRoot : Option String
  missingWorkspace : String
  created : Except String DingTalkReplyHandle
  cleared : Except String Unit
  cardFinalized : Bool
  delivered : Bool

/-- The shared state of the handlers. `lanes` are the sessions whose lane is held,
`drawn` the task ids handed out so far and `replies` what was sent to users. -/
structure Web where
  runtime : SessionRuntime
  lanes : Finset String
  routes : HashMap TaskId DingTalkReplyRoute
  handles : HashMap TaskId DingTalkReplyHandle
  completed : HashMap TaskId CompletedTask
  drawn : List TaskId
  replies : List (DingTalkReplyRoute × String)

/-- What kind of action an action is, for those that matter to an observer. -/
inductive Note
  | plain
  | receive (inbound : DingTalkInbound)
  | lock (key : String)
  | unlock (key : String)
  | start (key : String)
  | take (taskId : TaskId)
  | find (taskId : TaskId)
  | checkCancelled (key : String)
  | plan (binding : TaskContinuationBinding)
  | submit
  | bind (taskId : TaskId) (binding : TaskContinuationBinding)
  | storeHandle (taskId : TaskId)
  | takeHandle (taskId : TaskId)
  | clear
  | localStep
  | workspace (command : Command) (workspacePath : Option String)
  | finalizeCard (route : DingTalkReplyRoute) (text : String)
  | send (route : DingTalkReplyRoute) (text : String)
  | sendUnlessAck (route : DingTalkReplyRoute) (text : String)

abbrev Handler (α : Type) := Program Web WebEnv Note α

abbrev Outcome := Except String Unit

/-! ## Session keys and reply targets -/

def nonEmpty (value : Option String) : Option String := value.filter (fun text => text ≠ "")

def buildDingtalkSessionKey (fallbackUserId : String)
    (senderUserId senderStaffId senderCorpId : Option String) : String :=
  let channelUserId :=
    ((nonEmpty senderUserId).orElse fun _ => nonEmpty senderStaffId).getD fallbackUserId
  match nonEmpty senderCorpId with
  | some teamId => "dingtalk:" ++ channelUserId ++ ":" ++ teamId
  | none => "dingtalk:" ++ channelUserId

def DingTalkInbound.sessionKey (inbound : DingTalkInbound) : String :=
  buildDingtalkSessionKey inbound.channelUserId inbound.senderUserId inbound.senderStaffId
    inbound.senderCorpId

def replyRouteFromInbound (inbound : DingTalkInbound) : DingTalkReplyRoute where
  conversationId := inbound.conversationId
  sourceMessageId := inbound.messageId
  conversationType := inbound.conversationType
  senderUserId := inbound.senderUserId
  senderStaffId := inbound.senderStaffId
  sessionWebhook := inbound.sessionWebhook
  sessionWebhookExpiredTime := inbound.sessionWebhookExpiredTime
  robotCode := inbound.robotCode

/-- The key a local continuation rebuilds from the route, without a team. -/
def parseDingtalkBindingSessionKey (binding : TaskContinuationBinding) : String :=
  buildDingtalkSessionKey binding.route.conversationId binding.route.senderUserId
    binding.route.senderStaffId none

inductive DingTalkReplyTarget
  | sessionWebhook (webhook : String) (atUserIds : List String)
  | groupConversation (conversationId : String)
  | directUser (userId : String)
deriving DecidableEq

def resolveDingtalkReplyTarget (route : DingTalkReplyRoute) (capabilities : ChannelCapabilities)
    (now : DateTime) : Option DingTalkReplyTarget :=
  let nowMs := now / 1000000
  let webhookAvailable := capabilities.inboundWebhook && route.sessionWebhook.isSome &&
    route.sessionWebhookExpiredTime.all (fun expiresAt => nowMs < expiresAt)
  if webhookAvailable then
    route.sessionWebhook.map fun webhook => .sessionWebhook webhook route.senderStaffId.toList
  else if !capabilities.sendToRecipient then none
  else if route.conversationType = some "2" then some (.groupConversation route.conversationId)
  else route.senderUserId.map .directUser

def processingAckText : String := "[Wait]"

def supportsDingtalkReplyHandle (capabilities : ChannelCapabilities) : Bool :=
  capabilities.replyContext || capabilities.sendToRecipient || capabilities.inboundWebhook

/-- `should_send_dingtalk_immediate_ack`: not for steps that go to a node. -/
def immediateAck (config : WebConfig) : PlannedTurnStep → Bool
  | .submitTask .. => false
  | _ => config.channel.any supportsDingtalkReplyHandle

/-! ## Single operations -/

def onRuntime (change : WebEnv → SessionRuntime → SessionRuntime) : Handler Unit :=
  .update .plain (fun env s => { s with runtime := change env s.runtime }) (fun _ _ => ())

def appendTranscriptEvent (key : String) (kind : TranscriptEventKind) (content : String) :
    Handler Unit :=
  onRuntime fun env runtime => runtime.appendTranscriptEvent key kind content env.now

def startTurn (key userMessage : String) : Handler String := do
  let turnId ← Program.update (.start key)
    (fun env s => { s with runtime := s.runtime.startTurn key env.uuid userMessage })
    (fun env _ => env.uuid)
  onRuntime fun env runtime => runtime.startTranscript key turnId userMessage env.now
  return turnId

def beginToolCall (key toolName : String) : Handler (Option String) :=
  .update .plain
    (fun env s => { s with runtime := s.runtime.beginToolCall key env.uuid toolName })
    (fun env s => (s.runtime.turnState key).map fun _ => env.uuid)

/-- The turn after an operation that returns it. -/
def onTurn (key : String) (change : SessionRuntime → SessionRuntime) :
    Handler (Option SessionTurnState) :=
  .update .plain (fun _ s => { s with runtime := change s.runtime })
    (fun _ s => (change s.runtime).turnState key)

def incrementStepCount (key : String) : Handler (Option SessionTurnState) :=
  onTurn key (fun runtime => runtime.incrementStepCount key)

def incrementPlannerRetry (key : String) : Handler (Option SessionTurnState) :=
  onTurn key (fun runtime => runtime.incrementPlannerRetry key)

def removeBinding (taskId : Option TaskId) : Handler Unit :=
  match taskId with
  | some taskId => onRuntime fun _ runtime => runtime.removeBinding (some taskId)
  | none => return

def completeTurn (key : String) (taskId : Option TaskId) : Handler Unit := do
  onRuntime fun _ runtime => runtime.completeTurn key taskId
  removeBinding taskId

def failTurn (key : String) (taskId : Option TaskId) : Handler Unit := do
  onRuntime fun _ runtime => runtime.failTurn key taskId
  removeBinding taskId

def pruneCompletedTurnTranscript (key : String) : Handler Unit :=
  onRuntime fun _ runtime => runtime.pruneCompletedTurnTranscript key 6

def bindTaskToTurn (taskId : TaskId) (binding : TaskContinuationBinding) : Handler Unit := do
  Program.update (.bind taskId binding)
    (fun _ s => { s with runtime := s.runtime.insertBinding taskId binding }) (fun _ _ => ())
  onRuntime fun _ runtime => runtime.bindTurn taskId binding
  onRuntime fun env runtime => runtime.bindEvent taskId binding env.now

def takeTaskBinding (taskId : TaskId) : Handler (Option TaskContinuationBinding) :=
  .update (.take taskId)
    (fun _ s => { s with runtime := s.runtime.removeBinding (some taskId) })
    (fun _ s => s.runtime.taskBinding taskId)

def findTaskBinding (taskId : TaskId) : Handler (Option TaskContinuationBinding) :=
  .query (.find taskId) (fun _ s => s.runtime.taskBinding taskId)

def submitTask : Handler TaskId :=
  .update .submit (fun env s => { s with drawn := s.drawn ++ [env.taskId] })
    (fun env _ => env.taskId)

def insertDingtalkReplyRoute (taskId : TaskId) (route : DingTalkReplyRoute) : Handler Unit :=
  .update .plain (fun _ s => { s with routes := s.routes.insert taskId route }) (fun _ _ => ())

def takeDingtalkReplyRoute (taskId : TaskId) : Handler (Option DingTalkReplyRoute) :=
  .update .plain (fun _ s => { s with routes := s.routes.erase taskId })
    (fun _ s => s.routes.lookup taskId)

def insertDingtalkReplyHandle (taskId : TaskId) (handle : DingTalkReplyHandle) : Handler Unit :=
  .update (.storeHandle taskId) (fun _ s => { s with handles := s.handles.insert taskId handle })
    (fun _ _ => ())

def takeDingtalkReplyHandle (taskId : TaskId) : Handler (Option DingTalkReplyHandle) :=
  .update (.takeHandle taskId) (fun _ s => { s with handles := s.handles.erase taskId })
    (fun _ s => s.handles.lookup taskId)

def getCompletedTask (taskId : TaskId) : Handler (Option CompletedTask) :=
  .query .plain (fun _ s => s.completed.lookup taskId)

/-- `run_serialized`: hold the lane of a session around a program. -/
def runSerialized {α : Type} (key : String) (body : Handler α) : Handler α := do
  Program.await (.lock key) (fun s => key ∉ s.lanes)
    (fun _ s => { s with lanes := insert key s.lanes })
  let value ← body
  Program.update (.unlock key) (fun _ s => { s with lanes := s.lanes.erase key }) (fun _ _ => ())
  return value

/-! ## Replies -/

/-- Whether a message to the route finds a target and is accepted. -/
def sends (capabilities : ChannelCapabilities) (route : DingTalkReplyRoute) (env : WebEnv) : Bool :=
  (resolveDingtalkReplyTarget route capabilities env.now).isSome && env.delivered

def Web.reply (s : Web) (route : DingTalkReplyRoute) (text : String) : Web :=
  { s with replies := s.replies ++ [(route, text)] }

def sendOutcome (capabilities : ChannelCapabilities) (route : DingTalkReplyRoute) (env : WebEnv) :
    Outcome :=
  if (resolveDingtalkReplyTarget route capabilities env.now).isNone then
    .error "No DingTalk reply target could be resolved"
  else if env.delivered then .ok ()
  else .error "DingTalk channel error"

def send (capabilities : ChannelCapabilities) (route : DingTalkReplyRoute) (text : String) :
    Handler Outcome :=
  .update (.send route text)
    (fun env s => if sends capabilities route env then s.reply route text else s)
    (fun env _ => sendOutcome capabilities route env)

/-- The handle of a webhook reply: a text equal to the acknowledgement is not sent. -/
def sendUnlessAck (capabilities : ChannelCapabilities) (route : DingTalkReplyRoute)
    (text : String) : Handler Outcome :=
  .update (.sendUnlessAck route text)
    (fun env s =>
      if text ≠ processingAckText ∧ sends capabilities route env then s.reply route text else s)
    (fun env _ => if text ≠ processingAckText then sendOutcome capabilities route env else .ok ())

def finalizeAiCard (route : DingTalkReplyRoute) (text : String) : Handler Bool :=
  .update (.finalizeCard route text)
    (fun env s => if env.cardFinalized then s.reply route text else s)
    (fun env _ => env.cardFinalized)

def clearProcessingAck : Handler Outcome := .query .clear (fun env _ => env.cleared)

/-- Recalling a reaction may fail without consequences. -/
def sendOrFinalize (capabilities : ChannelCapabilities) (route : DingTalkReplyRoute)
    (text : String) (handle : Option DingTalkReplyHandle) : Handler Outcome :=
  match handle with
  | some (.aiCard _) => do
      if ← finalizeAiCard route text then return .ok ()
      else send capabilities route text
  | some (.reaction _) => send capabilities route text
  | some (.legacyTransient _) => do
      match ← clearProcessingAck with
      | .error error => return .error error
      | .ok _ => send capabilities route text
  | some .noop => sendUnlessAck capabilities route text
  | none => send capabilities route text

def cancelledText : String := "任务已取消。"

def cleanupProcessingHandle (route : DingTalkReplyRoute) (handle : Option DingTalkReplyHandle) :
    Handler Outcome :=
  match handle with
  | some (.aiCard _) => do
      let _ ← finalizeAiCard route cancelledText
      return .ok ()
  | some (.legacyTransient _) => clearProcessingAck
  | _ => return .ok ()

def finalizeTaskResultReply (config : WebConfig) (taskId : TaskId) (route : DingTalkReplyRoute)
    (text : String) : Handler Outcome :=
  match config.channel with
  | none => return .ok ()
  | some capabilities => do
      let handle ← takeDingtalkReplyHandle taskId
      sendOrFinalize capabilities route text handle

/-! ## Messages -/

def tooManySteps : String := "当前这轮操作步骤过多，我先到这里，并基于已有结果收口。"

/-- A step the Hub performs itself; `localReply` is what came out of it. -/
def executeLocalTurnStep (config : WebConfig) (route : DingTalkReplyRoute) (key : String)
    (handle : Option DingTalkReplyHandle) : Handler Outcome := do
  match ← Program.query .localStep (fun env _ => env.localReply) with
  | .error error => return .error error
  | .ok text => do
      appendTranscriptEvent key .assistantFinal text
      completeTurn key none
      match config.channel with
      | none => return .ok ()
      | some capabilities => sendOrFinalize capabilities route text handle

/-- The workspace of a planned command: the planned one or the only one online. -/
def resolveWorkspace (command : Command) (workspacePath : Option String) :
    Handler (Except String String) :=
  .query (.workspace command workspacePath) fun env _ =>
    match workspacePath.orElse fun _ => env.defaultWorkspaceRoot with
    | some hint => .ok hint
    | none => .error env.missingWorkspace

/-- Plan, submit and bind one task of the turn `turnId`. -/
def dispatchTask (key turnId agentId : String) (route : DingTalkReplyRoute)
    (missingTurn : String) : Handler (Except String TaskId) := do
  match ← beginToolCall key "hub_task" with
  | none => return .error missingTurn
  | some toolCallId => do
      appendTranscriptEvent key .toolCallPlanned (toolCallId ++ ":hub_task")
      let taskId ← submitTask
      bindTaskToTurn taskId ⟨key, turnId, toolCallId, agentId, route⟩
      return .ok taskId

def storeReplyHandle (config : WebConfig) (taskId : TaskId)
    (handle : Option DingTalkReplyHandle) : Handler Outcome :=
  match handle, config.channel with
  | some handle, _ => do
      insertDingtalkReplyHandle taskId handle
      return .ok ()
  | none, some _ => do
      match ← Program.query .plain (fun env _ => env.created) with
      | .error error => return .error error
      | .ok handle => do
          insertDingtalkReplyHandle taskId handle
          return .ok ()
  | none, none => return .ok ()

def submitPlannedTask (config : WebConfig) (key turnId agentId : String)
    (route : DingTalkReplyRoute) (command : Command) (workspacePath : Option String)
    (early : Option DingTalkReplyHandle) : Handler Outcome := do
  match ← resolveWorkspace command workspacePath with
  | .error error => return .error error
  | .ok hint =>
    match config.validatePlannedCommand command hint with
    | .error error => return .error error
    | .ok _ => do
        match ← dispatchTask key turnId agentId route
            "session turn is missing before task submission" with
        | .error error => return .error error
        | .ok taskId => do
            insertDingtalkReplyRoute taskId route
            storeReplyHandle config taskId early

def replyDirectly (config : WebConfig) (key : String) (route : DingTalkReplyRoute) (text : String)
    (handle : Option DingTalkReplyHandle) : Handler Outcome := do
  appendTranscriptEvent key .assistantFinal text
  completeTurn key none
  match config.channel with
  | none => return .ok ()
  | some capabilities => sendOrFinalize capabilities route text handle

def processDingtalkTaskSerialized (config : WebConfig) (inbound : DingTalkInbound)
    (early : Option DingTalkReplyHandle) : Handler Outcome := do
  let key := inbound.sessionKey
  let route := replyRouteFromInbound inbound
  let agentId ← Program.query (.receive inbound) (fun env _ => env.agentId)
  let turnId ← startTurn key inbound.userText
  match ← Program.query .plain (fun env _ => env.plan) with
  | .error error => return .error error
  | .ok step => do
      appendTranscriptEvent key .assistantStep (config.debugStep step)
      match ← incrementStepCount key with
      | none => return .error "session turn is missing before step execution"
      | some turn =>
        if turn.stepCount > turn.maxSteps then replyDirectly config key route tooManySteps none
        else
          let handle := if immediateAck config step then early else none
          match step with
          | .finalize text => replyDirectly config key route text handle
          | .submitTask command workspacePath =>
            submitPlannedTask config key turnId agentId route command workspacePath early
          | _ => executeLocalTurnStep config route key handle

/-- A message without text: the turn starts and ends with a fixed reply. -/
def waitForFollowUp (config : WebConfig) (inbound : DingTalkInbound) (replyText : String)
    (early : Option DingTalkReplyHandle) : Handler Outcome := do
  let _ ← startTurn inbound.sessionKey inbound.userText
  replyDirectly config inbound.sessionKey (replyRouteFromInbound inbound) replyText early

def submitDingtalkTask (config : WebConfig) (inbound : DingTalkInbound)
    (normalized : NormalizedInbound) (early : Option DingTalkReplyHandle) : Handler Outcome :=
  runSerialized inbound.sessionKey <|
    match normalized with
    | .continueAsText => processDingtalkTaskSerialized config inbound early
    | .waitForFollowUp replyText => waitForFollowUp config inbound replyText early

def replyDingtalkError (config : WebConfig) (inbound : DingTalkInbound) (error : String) :
    Handler Outcome :=
  match config.channel with
  | none => return .ok ()
  | some capabilities => do
      match ← Program.query .plain (fun env _ => env.created) with
      | .error error => return .error error
      | .ok handle => do
          appendTranscriptEvent inbound.sessionKey .turnFailed error
          sendOrFinalize capabilities (replyRouteFromInbound inbound) ("执行失败：" ++ error)
            (some handle)

/-- One message, from the moment it is normalized. -/
def handleDingtalkInbound (config : WebConfig) (inbound : DingTalkInbound)
    (normalized : NormalizedInbound) (early : Option DingTalkReplyHandle) : Handler Outcome := do
  match ← submitDingtalkTask config inbound normalized early with
  | .error error => replyDingtalkError config inbound error
  | .ok _ => return .ok ()

/-! ## Task results -/

def resultSummaryOverride (config : WebConfig) (result : CommandResult) : Option String :=
  if !result.success then none
  else
    match result.output with
    | .json content => config.formatFileOperationResult content
    | _ => none

def summarizeTaskResultOrFallback (config : WebConfig) (completed : CompletedTask) :
    Handler String :=
  .query .plain fun env _ =>
    match env.summary with
    | .ok summary => summary
    | .error _ => config.formatTaskResultMessage completed.result

def buildTaskResultReplyText (config : WebConfig) (result : TaskResult) : Handler String := do
  match ← getCompletedTask result.taskId with
  | none => return config.formatTaskResultMessage result.result
  | some completed =>
    match resultSummaryOverride config completed.result with
    | some text => return text
    | none => summarizeTaskResultOrFallback config completed

def replyTaskResultWithoutContinuation (config : WebConfig) (result : TaskResult)
    (route : DingTalkReplyRoute) : Handler Outcome := do
  let _ ← getCompletedTask result.taskId
  let text ← buildTaskResultReplyText config result
  finalizeTaskResultReply config result.taskId route text

/-- Reply, then complete the turn; an error leaves the turn as it is. -/
def completeContinuationWithReply (config : WebConfig) (key : String) (taskId : TaskId)
    (route : DingTalkReplyRoute) (text : String) : Handler Outcome := do
  match ← finalizeTaskResultReply config taskId route text with
  | .error error => return .error error
  | .ok _ => do
      completeTurn key (some taskId)
      pruneCompletedTurnTranscript key
      return .ok ()

def handleContinuationMissingCompletedTask (config : WebConfig) (key : String) (taskId : TaskId)
    (route : DingTalkReplyRoute) (text : String) : Handler Outcome :=
  match config.channel with
  | none => do
      failTurn key (some taskId)
      return .ok ()
  | some _ => do
      match ← finalizeTaskResultReply config taskId route text with
      | .error error => return .error error
      | .ok _ => do
          completeTurn key (some taskId)
          return .ok ()

def handleContinuationCancelledTurn (config : WebConfig) (key : String) (taskId : TaskId)
    (route : DingTalkReplyRoute) : Handler Outcome := do
  let cleaned ← match config.channel with
    | none => pure (.ok ())
    | some _ => do
        let handle ← takeDingtalkReplyHandle taskId
        cleanupProcessingHandle route handle
  match cleaned with
  | .error error => return .error error
  | .ok _ => do
      pruneCompletedTurnTranscript key
      return .ok ()

def handleContinuationMaxStepsExceeded (config : WebConfig) (key : String) (taskId : TaskId)
    (route : DingTalkReplyRoute) (completed : CompletedTask) : Handler Outcome := do
  let text ← summarizeTaskResultOrFallback config completed
  appendTranscriptEvent key .assistantFinal text
  completeContinuationWithReply config key taskId route text

/-- One call of the continuation planner. -/
def continueTaskResult (binding : TaskContinuationBinding) :
    Handler (Except String PlannedTurnStep) :=
  .query (.plan binding) (fun env _ => env.plan)

def compactSummary (config : WebConfig) (completed : CompletedTask) : String :=
  "user_request: " ++ completed.context.intent.getD "" ++ "; last_command: " ++
    config.commandJson completed.command ++ "; last_result: " ++ config.resultJson completed.result

def planFallback (config : WebConfig) (completed : CompletedTask) : Handler PlannedTurnStep := do
  let text ← summarizeTaskResultOrFallback config completed
  return .finalize text

def planContinuationStepWithRetry (config : WebConfig) (key : String)
    (binding : TaskContinuationBinding) (completed : CompletedTask) :
    Handler PlannedTurnStep := do
  match ← continueTaskResult binding with
  | .ok step => do
      onRuntime fun _ runtime => runtime.resetPlannerRetry key
      return step
  | .error error => do
      appendTranscriptEvent key .plannerRetry error
      match ← incrementPlannerRetry key with
      | none => planFallback config completed
      | some turn =>
        if turn.plannerRetryCount ≤ turn.maxPlannerRetries then do
          let events ← Program.query .plain
            (fun _ s => ((s.runtime.transcripts.lookup key).map (·.events.length)).getD 0)
          onRuntime fun _ runtime =>
            runtime.recordCompaction key (compactSummary config completed) events
          appendTranscriptEvent key .turnCompacted (compactSummary config completed)
          match ← continueTaskResult binding with
          | .ok step => do
              onRuntime fun _ runtime => runtime.resetPlannerRetry key
              return step
          | .error _ => planFallback config completed
        else planFallback config completed

def executeContinuationStep (config : WebConfig) (key : String) (taskId : TaskId)
    (binding : TaskContinuationBinding) (step : PlannedTurnStep) : Handler Outcome :=
  match step with
  | .finalize text => do
      appendTranscriptEvent key .assistantFinal text
      completeContinuationWithReply config key taskId binding.route text
  | .submitTask command workspacePath => do
      match ← resolveWorkspace command workspacePath with
      | .error _ => return .error "workspace_path is required for continuation task"
      | .ok hint =>
        match config.validatePlannedCommand command hint with
        | .error error => return .error error
        | .ok _ => do
            match ← dispatchTask binding.sessionKey binding.turnId binding.agentId binding.route
                "session turn is missing before continuation task submission" with
            | .error error => return .error error
            | .ok _ => return .ok ()
  | _ => do
      match ← executeLocalTurnStep config binding.route (parseDingtalkBindingSessionKey binding)
          none with
      | .error error => return .error error
      | .ok _ => do
          pruneCompletedTurnTranscript key
          return .ok ()

/-- The serialized part of `reply_task_result`. -/
def continueTurn (config : WebConfig) (result : TaskResult) (binding : TaskContinuationBinding) :
    Handler Outcome := do
  let key := binding.sessionKey
  match ← getCompletedTask result.taskId with
  | none => do
      let text ← buildTaskResultReplyText config result
      handleContinuationMissingCompletedTask config key result.taskId binding.route text
  | some completed => do
      appendTranscriptEvent key .toolResultObserved (config.resultJson completed.result)
      let cancelled ← Program.query (.checkCancelled key)
        (fun _ s => (s.runtime.turnState key).any (fun turn => turn.cancelRequested))
      if cancelled then
        handleContinuationCancelledTurn config key result.taskId binding.route
      else
        onRuntime fun _ runtime => runtime.markTurnResuming key (some result.taskId)
        appendTranscriptEvent key .turnResumed ("task_result:" ++ result.taskId.value)
        let step ← planContinuationStepWithRetry config key binding completed
        appendTranscriptEvent key .assistantStep (config.debugStep step)
        match ← incrementStepCount key with
        | none => return .error "session turn is missing before continuation step"
        | some turn =>
          if turn.stepCount > turn.maxSteps then
            handleContinuationMaxStepsExceeded config key result.taskId binding.route completed
          else executeContinuationStep config key result.taskId binding step

def replyTaskResult (config : WebConfig) (result : TaskResult) : Handler Outcome := do
  match ← takeTaskBinding result.taskId with
  | none =>
    match ← takeDingtalkReplyRoute result.taskId with
    | none => return .ok ()
    | some route => replyTaskResultWithoutContinuation config result route
  | some binding => runSerialized binding.sessionKey (continueTurn config result binding)

/-! ## Approvals and cancellations -/

/-- What the router does to the session of a task that asks for approval. -/
def noteApprovalRequest (taskId : TaskId) (requestId reason : String) : Handler Outcome := do
  match ← findTaskBinding taskId with
  | none => return .ok ()
  | some binding => do
      onRuntime fun _ runtime => runtime.markWaitingForApproval binding.sessionKey
      appendTranscriptEvent binding.sessionKey .approvalRequested
        ("request_id=" ++ requestId ++ "; reason=" ++ reason)
      return .ok ()

def noteApprovalDecision (taskId : TaskId) (approved : Bool) (requestId responder : String) :
    Handler Outcome := do
  match ← findTaskBinding taskId with
  | none => return .ok ()
  | some binding => do
      appendTranscriptEvent binding.sessionKey
        (if approved then .approvalApproved else .approvalRejected)
        ("request_id=" ++ requestId ++ "; responder=" ++ responder)
      return .ok ()

/-- The session part of the web request that cancels a task. -/
def cancelTask (taskId : TaskId) : Handler Outcome := do
  match ← findTaskBinding taskId with
  | none => return .ok ()
  | some binding => do
      onRuntime fun _ runtime => runtime.cancelTurn binding.sessionKey
      appendTranscriptEvent binding.sessionKey .turnCancelled "cancelled"
      return .ok ()

/-! ## The running Hub -/

/-- The handlers the Hub starts. Results are handled one after the other by one
loop; no statement here relies on that. -/
inductive Spawns (config : WebConfig) : Handler Outcome → Prop
  | inbound (inbound : DingTalkInbound) (normalized : NormalizedInbound)
      (early : Option DingTalkReplyHandle) :
      Spawns config (handleDingtalkInbound config inbound normalized early)
  | result (result : TaskResult) : Spawns config (replyTaskResult config result)
  | approvalRequest (taskId : TaskId) (requestId reason : String) :
      Spawns config (noteApprovalRequest taskId requestId reason)
  | approvalDecision (taskId : TaskId) (approved : Bool) (requestId responder : String) :
      Spawns config (noteApprovalDecision taskId approved requestId responder)
  | cancellation (taskId : TaskId) : Spawns config (cancelTask taskId)

/-- The scheduler records and evicts completed tasks on its own. -/
def Completes (s t : Web) : Prop := ∃ completed, t = { s with completed }

def Web.empty : Web where
  runtime := .new
  lanes := ∅
  routes := ∅
  handles := ∅
  completed := ∅
  drawn := []
  replies := []

def system {κ : Type} (config : WebConfig) (observer : Observer Web WebEnv Note κ) :
    System (Pool Web WebEnv Note Outcome κ) (PoolLabel Web WebEnv Note Outcome) :=
  Pool.system observer (Spawns config) Completes (fun s => s = .empty)

/-! ## A sample conversation -/

/-- A channel that can write to users. -/
def sampleConfig : WebConfig where
  channel := some ⟨false, true, false⟩
  validatePlannedCommand _ _ := .ok ()
  debugStep _ := "step"
  resultJson _ := "result"
  commandJson _ := "command"
  formatTaskResultMessage _ := "done"
  formatFileOperationResult _ := none

def sampleEnv (uuid : String) (step : PlannedTurnStep) : WebEnv where
  now := 0
  uuid := uuid
  agentId := "agent"
  taskId := ⟨"task-1"⟩
  plan := .ok step
  summary := .ok "summary"
  localReply := .ok "skill"
  defaultWorkspaceRoot := some "/workspace"
  missingWorkspace := "no workspace"
  created := .ok .noop
  cleared := .ok ()
  cardFinalized := false
  delivered := true

/-- The planner decides to look for a file. -/
def submitEnv : WebEnv := sampleEnv "turn-1" (.submitTask (.file (.exists "README.md")) none)

def finalizeEnv : WebEnv := sampleEnv "turn-2" (.finalize "found")

def sampleInbound : DingTalkInbound where
  channelUserId := "user"
  conversationId := "conversation"
  messageId := some "message"
  conversationType := some "1"
  senderUserId := some "user"
  senderStaffId := none
  senderCorpId := none
  sessionWebhook := none
  sessionWebhookExpiredTime := none
  robotCode := none
  userText := "look for README.md"

def sampleResult : TaskResult := ⟨⟨"task-1"⟩, ⟨"node"⟩, .succeeded .none⟩

/-- The scheduler's record of the sample task. -/
def sampleCompleted : CompletedTask where
  taskId := ⟨"task-1"⟩
  command := .file (.exists "README.md")
  context := .new ⟨"user"⟩ ⟨"session"⟩ "dingtalk" 0
  priority := .normal
  nodeId := ⟨"node"⟩
  startedAt := 0
  completedAt := 1
  status := .completed
  result := .succeeded .none

def Web.complete (s : Web) (completed : CompletedTask) : Web :=
  { s with completed := s.completed.insert completed.taskId completed }

abbrev SampleMove : Type := Pool.Move (Spawns sampleConfig) Completes

def samplePlayer {κ : Type} (observer : Observer Web WebEnv Note κ) :
    (system sampleConfig observer).Player SampleMove :=
  Pool.player observer (Spawns sampleConfig) Completes fun s => s = .empty

/-- The sample message is handled. -/
def messageArrives : SampleMove := .spawn _ (.inbound sampleInbound .continueAsText none)

/-- The result of the sample task is handled. -/
def resultComes : SampleMove := .spawn _ (.result sampleResult)

/-- Two messages of one user and the result of the task. -/
def sampleHandlers : List SampleMove := [messageArrives, messageArrives, resultComes]

/-- The scheduler records the result of the task. -/
def recordResult : SampleMove := .background (·.complete sampleCompleted) fun _ => ⟨_, rfl⟩

def emptyPool {κ : Type} : Pool Web WebEnv Note Outcome κ := ⟨.empty, []⟩

theorem emptyPool_reachable {κ : Type} {observer : Observer Web WebEnv Note κ}
    {guard : Pool Web WebEnv Note Outcome κ → PoolLabel Web WebEnv Note Outcome → Prop} :
    ((system sampleConfig observer).restrict guard).Reachable emptyPool := .init ⟨rfl, rfl⟩

end UHorse.Hub.DingTalk
