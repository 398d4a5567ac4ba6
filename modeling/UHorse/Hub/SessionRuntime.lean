import UHorse.Hub.TaskScheduler

/-!
# Turns, transcripts and task bindings of the Hub's sessions

A session has one current turn, which a new user message replaces, a transcript
that starts over with each turn, and bindings from the tasks of a turn back to
the session. The three maps have locks of their own, so an operation that
touches two of them is the composition of two functions here.

`updateTurn` and `updateTranscript` are the only ways to change an existing turn
or transcript; what an operation does not change follows from the lemmas about
these two.
-/

namespace UHorse.Hub

open UHorse.Lib UHorse.Protocol

inductive TranscriptEventKind
  | userMessage
  | assistantStep
  | toolCallPlanned
  | toolCallDispatched
  | approvalRequested
  | toolResultObserved
  | approvalApproved
  | approvalRejected
  | turnResumed
  | plannerRetry
  | assistantFinal
  | turnFailed
  | turnCancelled
  | turnCompacted
deriving DecidableEq, Repr

structure TranscriptEvent where
  seq : Nat
  createdAt : DateTime
  kind : TranscriptEventKind
  content : String
deriving DecidableEq

structure SessionTranscript where
  turnId : String
  events : List TranscriptEvent
deriving DecidableEq

inductive TurnStatus
  | planning
  | dispatching
  | waitingForTool
  | waitingForApproval
  | waitingForUser
  | resuming
  | completed
  | cancelled
  | failed
deriving DecidableEq, Repr

inductive ToolCallStatus
  | running
  | completed
  | failed
deriving DecidableEq, Repr

structure ToolCallState where
  toolCallId : String
  toolName : String
  taskId : Option TaskId
  status : ToolCallStatus
deriving DecidableEq

structure SessionTurnState where
  turnId : String
  userMessage : String
  status : TurnStatus
  stepCount : Nat
  maxSteps : Nat
  cancelRequested : Bool
  plannerRetryCount : Nat
  maxPlannerRetries : Nat
  compactedSummary : Option String
  prunedEventCount : Nat
  toolCall : Option ToolCallState
deriving DecidableEq

/-- Where the answer to a DingTalk message goes. -/
structure DingTalkReplyRoute where
  conversationId : String
  sourceMessageId : Option String
  conversationType : Option String
  senderUserId : Option String
  senderStaffId : Option String
  sessionWebhook : Option String
  sessionWebhookExpiredTime : Option Int
  robotCode : Option String
deriving DecidableEq

structure TaskContinuationBinding where
  sessionKey : String
  turnId : String
  toolCallId : String
  agentId : String
  route : DingTalkReplyRoute
deriving DecidableEq

/-- `SessionRuntimeManager` without its lanes, which are locks only. -/
structure SessionRuntime where
  turns : HashMap String SessionTurnState
  transcripts : HashMap String SessionTranscript
  taskBindings : HashMap TaskId TaskContinuationBinding

namespace SessionRuntime

def new : SessionRuntime := ⟨∅, ∅, ∅⟩

def turnState (runtime : SessionRuntime) (key : String) : Option SessionTurnState :=
  runtime.turns.lookup key

/-- Change the current turn of a session, if it has one. -/
def updateTurn (runtime : SessionRuntime) (key : String)
    (change : SessionTurnState → SessionTurnState) : SessionRuntime :=
  match runtime.turns.lookup key with
  | some turn => { runtime with turns := runtime.turns.insert key (change turn) }
  | none => runtime

def updateTranscript (runtime : SessionRuntime) (key : String)
    (change : SessionTranscript → SessionTranscript) : SessionRuntime :=
  match runtime.transcripts.lookup key with
  | some transcript =>
    { runtime with transcripts := runtime.transcripts.insert key (change transcript) }
  | none => runtime

def newTurn (turnId userMessage : String) : SessionTurnState where
  turnId := turnId
  userMessage := userMessage
  status := .planning
  stepCount := 0
  maxSteps := 4
  cancelRequested := false
  plannerRetryCount := 0
  maxPlannerRetries := 1
  compactedSummary := none
  prunedEventCount := 0
  toolCall := none

/-- `start_turn` replaces the turn, then the transcript. -/
def startTurn (runtime : SessionRuntime) (key turnId userMessage : String) : SessionRuntime :=
  { runtime with turns := runtime.turns.insert key (newTurn turnId userMessage) }

def startTranscript (runtime : SessionRuntime) (key turnId userMessage : String)
    (now : DateTime) : SessionRuntime :=
  { runtime with
    transcripts := runtime.transcripts.insert key ⟨turnId, [⟨1, now, .userMessage, userMessage⟩]⟩ }

/-- `begin_tool_call`; without a turn nothing happens and there is no id. -/
def beginToolCall (runtime : SessionRuntime) (key toolCallId toolName : String) :
    SessionRuntime :=
  runtime.updateTurn key fun turn =>
    { turn with
      status := .dispatching
      toolCall := some ⟨toolCallId, toolName, none, .running⟩ }

def appendEvent (now : DateTime) (kind : TranscriptEventKind) (content : String)
    (transcript : SessionTranscript) : SessionTranscript :=
  { transcript with
    events := transcript.events ++ [⟨transcript.events.length + 1, now, kind, content⟩] }

/-- A missing transcript is created first, without a turn id. -/
def appendTranscriptEvent (runtime : SessionRuntime) (key : String) (kind : TranscriptEventKind)
    (content : String) (now : DateTime) : SessionRuntime :=
  let transcript := (runtime.transcripts.lookup key).getD ⟨"", []⟩
  { runtime with
    transcripts := runtime.transcripts.insert key (appendEvent now kind content transcript) }

/-- The three sections of `bind_task_to_turn`; the last one appends an event. -/
def insertBinding (runtime : SessionRuntime) (taskId : TaskId)
    (binding : TaskContinuationBinding) : SessionRuntime :=
  { runtime with taskBindings := runtime.taskBindings.insert taskId binding }

def markBound (taskId : TaskId) (toolCallId : String) (turn : SessionTurnState) :
    SessionTurnState :=
  { turn with
    status := .waitingForTool
    toolCall := turn.toolCall.map fun call =>
      if call.toolCallId = toolCallId then { call with taskId := some taskId } else call }

def bindTurn (runtime : SessionRuntime) (taskId : TaskId) (binding : TaskContinuationBinding) :
    SessionRuntime :=
  runtime.updateTurn binding.sessionKey (markBound taskId binding.toolCallId)

def bindEvent (runtime : SessionRuntime) (taskId : TaskId) (binding : TaskContinuationBinding)
    (now : DateTime) : SessionRuntime :=
  runtime.appendTranscriptEvent binding.sessionKey .toolCallDispatched
    (binding.toolCallId ++ ":" ++ taskId.value) now

def taskBinding (runtime : SessionRuntime) (taskId : TaskId) : Option TaskContinuationBinding :=
  runtime.taskBindings.lookup taskId

def removeBinding (runtime : SessionRuntime) (taskId : Option TaskId) : SessionRuntime :=
  match taskId with
  | some taskId => { runtime with taskBindings := runtime.taskBindings.erase taskId }
  | none => runtime

/-- Set the status of the tool call if it belongs to the task, or to any task
when none is given. -/
def settleToolCall (status : ToolCallStatus) (taskId : Option TaskId)
    (call : ToolCallState) : ToolCallState :=
  if taskId = none ∨ call.taskId = taskId then { call with status := status } else call

/-- The turn section of `complete_turn`; `removeBinding` follows. -/
def completeTurn (runtime : SessionRuntime) (key : String) (taskId : Option TaskId) :
    SessionRuntime :=
  runtime.updateTurn key fun turn =>
    { turn with
      status := .completed
      toolCall := turn.toolCall.map (settleToolCall .completed taskId) }

/-- The turn section of `fail_turn`; `removeBinding` follows. -/
def failTurn (runtime : SessionRuntime) (key : String) (taskId : Option TaskId) :
    SessionRuntime :=
  runtime.updateTurn key fun turn =>
    { turn with
      status := .failed
      toolCall := turn.toolCall.map (settleToolCall .failed taskId) }

/-- The turn section of `cancel_turn`; a transcript event follows. -/
def cancelTurn (runtime : SessionRuntime) (key : String) : SessionRuntime :=
  runtime.updateTurn key fun turn =>
    { turn with
      cancelRequested := true
      status := .cancelled
      toolCall := turn.toolCall.map fun call => { call with status := .failed } }

def incrementStepCount (runtime : SessionRuntime) (key : String) : SessionRuntime :=
  runtime.updateTurn key fun turn => { turn with stepCount := turn.stepCount + 1 }

def markTurnResuming (runtime : SessionRuntime) (key : String) (taskId : Option TaskId) :
    SessionRuntime :=
  runtime.updateTurn key fun turn =>
    { turn with
      status := .resuming
      toolCall := turn.toolCall.map (settleToolCall .completed taskId) }

def markWaitingForApproval (runtime : SessionRuntime) (key : String) : SessionRuntime :=
  runtime.updateTurn key fun turn => { turn with status := .waitingForApproval }

def incrementPlannerRetry (runtime : SessionRuntime) (key : String) : SessionRuntime :=
  runtime.updateTurn key fun turn =>
    { turn with plannerRetryCount := turn.plannerRetryCount + 1 }

def resetPlannerRetry (runtime : SessionRuntime) (key : String) : SessionRuntime :=
  runtime.updateTurn key fun turn => { turn with plannerRetryCount := 0 }

def recordCompaction (runtime : SessionRuntime) (key summary : String)
    (prunedEventCount : Nat) : SessionRuntime :=
  runtime.updateTurn key fun turn =>
    { turn with compactedSummary := some summary, prunedEventCount := prunedEventCount }

def keptKind : TranscriptEventKind → Bool
  | .userMessage => true
  | .assistantFinal => true
  | .turnCompacted => true
  | .turnCancelled => true
  | .turnFailed => true
  | _ => false

/-- Keep the key events and the last `tailLen`, numbered anew. -/
def pruneEvents (tailLen : Nat) (events : List TranscriptEvent) : List TranscriptEvent :=
  if events.length ≤ tailLen then events
  else
    let retained := events.zipIdx.filter fun entry =>
      keptKind entry.1.kind || entry.2 ≥ events.length - tailLen
    retained.zipIdx.map fun entry => { entry.1.1 with seq := entry.2 + 1 }

def pruneCompletedTurnTranscript (runtime : SessionRuntime) (key : String) (tailLen : Nat) :
    SessionRuntime :=
  runtime.updateTranscript key fun transcript =>
    { transcript with events := pruneEvents tailLen transcript.events }

/-! ## What an operation leaves alone -/

section Lookups

variable (runtime : SessionRuntime)

theorem turns_updateTurn_of_ne {key other : String} (distinct : other ≠ key)
    (change : SessionTurnState → SessionTurnState) :
    (runtime.updateTurn key change).turns.lookup other = runtime.turns.lookup other := by
  rw [updateTurn]
  split
  · rw [HashMap.lookup_insert_ite, if_neg distinct]
  · rfl

theorem turnState_updateTurn (key other : String)
    (change : SessionTurnState → SessionTurnState) :
    (runtime.updateTurn key change).turnState other =
      if other = key then (runtime.turnState key).map change else runtime.turnState other := by
  unfold turnState updateTurn
  cases found : runtime.turns.lookup key with
  | none =>
    dsimp only
    split
    · next same => rw [same, found, Option.map_none]
    · rfl
  | some turn =>
    dsimp only
    rw [HashMap.lookup_insert_ite]
    rfl

theorem transcripts_updateTurn (key : String) (change : SessionTurnState → SessionTurnState) :
    (runtime.updateTurn key change).transcripts = runtime.transcripts := by
  rw [updateTurn]
  split <;> rfl

theorem taskBindings_updateTurn (key : String) (change : SessionTurnState → SessionTurnState) :
    (runtime.updateTurn key change).taskBindings = runtime.taskBindings := by
  rw [updateTurn]
  split <;> rfl

theorem turnId_updateTurn (key other : String) (change : SessionTurnState → SessionTurnState)
    (keeps : ∀ turn, (change turn).turnId = turn.turnId) :
    ((runtime.updateTurn key change).turns.lookup other).map SessionTurnState.turnId =
      (runtime.turns.lookup other).map SessionTurnState.turnId := by
  rw [updateTurn]
  split
  · next turn found =>
      rw [HashMap.lookup_insert_ite]
      split
      · next same =>
          subst same
          simp [found, keeps]
      · rfl
  · rfl

theorem turns_updateTranscript (key : String)
    (change : SessionTranscript → SessionTranscript) :
    (runtime.updateTranscript key change).turns = runtime.turns := by
  rw [updateTranscript]
  split <;> rfl

theorem taskBindings_updateTranscript (key : String)
    (change : SessionTranscript → SessionTranscript) :
    (runtime.updateTranscript key change).taskBindings = runtime.taskBindings := by
  rw [updateTranscript]
  split <;> rfl

theorem transcripts_updateTranscript_of_ne {key other : String} (distinct : other ≠ key)
    (change : SessionTranscript → SessionTranscript) :
    (runtime.updateTranscript key change).transcripts.lookup other =
      runtime.transcripts.lookup other := by
  rw [updateTranscript]
  split
  · rw [HashMap.lookup_insert_ite, if_neg distinct]
  · rfl

end Lookups

end SessionRuntime
end UHorse.Hub
