import UHorse.Hub.DingTalk.Handlers
import UHorse.Lib.Automaton

/-!
# The stages of a handler

A handler of a message or of a task result holds the lane of its session, counts a
step, and then either answers or submits one task; handlers of approvals and
cancellations find a binding and change its turn once. `Stage` names these points
and `Move` the actions between them, each with its exact effect. Whatever else a
handler does is quiet: turns keep their status and their counters, no binding is
made, no task is submitted and no final answer is written.
-/

namespace UHorse.Hub.DingTalk

open UHorse.Lib UHorse.Protocol

/-! ## What quiet actions leave alone -/

/-- The part of a turn that decides how it goes on. -/
structure TurnCore where
  turnId : String
  status : TurnStatus
  stepCount : Nat
  maxSteps : Nat
  cancelRequested : Bool
deriving DecidableEq

def turnCore (turn : SessionTurnState) : TurnCore :=
  ⟨turn.turnId, turn.status, turn.stepCount, turn.maxSteps, turn.cancelRequested⟩

def Web.core (s : Web) (key : String) : Option TurnCore := (s.runtime.turnState key).map turnCore

def finalEvent (event : TranscriptEvent) : Bool := decide (event.kind = .assistantFinal)

/-- How many final answers the transcript of a session holds. -/
def Web.finals (s : Web) (key : String) : Nat :=
  ((s.runtime.transcripts.lookup key).map fun transcript =>
    transcript.events.countP finalEvent).getD 0

structure Quiet (s t : Web) : Prop where
  turns : ∀ key, t.core key = s.core key
  bindings : ∀ taskId binding, t.runtime.taskBinding taskId = some binding →
    s.runtime.taskBinding taskId = some binding
  finals : ∀ key, t.finals key = s.finals key
  lanes : t.lanes = s.lanes
  completed : t.completed = s.completed
  drawn : t.drawn = s.drawn

namespace Quiet

theorem refl (s : Web) : Quiet s s :=
  ⟨fun _ => rfl, fun _ _ found => found, fun _ => rfl, rfl, rfl, rfl⟩

/-- An action that touches neither the runtime nor what else is compared. -/
theorem of_same {s t : Web} (runtime : t.runtime = s.runtime) (lanes : t.lanes = s.lanes)
    (completed : t.completed = s.completed) (drawn : t.drawn = s.drawn) : Quiet s t where
  turns key := by
    unfold Web.core
    rw [runtime]
  bindings taskId binding found := by rwa [runtime] at found
  finals key := by
    unfold Web.finals
    rw [runtime]
  lanes := lanes
  completed := completed
  drawn := drawn

variable {s : Web} {key : String}

theorem updateTurn {change : SessionTurnState → SessionTurnState}
    (keeps : ∀ turn, turnCore (change turn) = turnCore turn) :
    Quiet s { s with runtime := s.runtime.updateTurn key change } where
  turns other := by
    show ((s.runtime.updateTurn key change).turns.lookup other).map turnCore = _
    unfold SessionRuntime.updateTurn
    split
    · next turn found =>
        rw [HashMap.lookup_insert_ite]
        split
        · next same =>
            subst same
            simp [Web.core, SessionRuntime.turnState, found, keeps]
        · rfl
    · rfl
  bindings taskId binding found := by
    unfold SessionRuntime.taskBinding at found ⊢
    rwa [SessionRuntime.taskBindings_updateTurn] at found
  finals other := by
    unfold Web.finals
    rw [SessionRuntime.transcripts_updateTurn]
  lanes := rfl
  completed := rfl
  drawn := rfl

/-- Only the transcript of one session changes, and its final answers stay. -/
theorem of_transcripts {t : Web} (turns : t.runtime.turns = s.runtime.turns)
    (bindings : t.runtime.taskBindings = s.runtime.taskBindings)
    (finals : ∀ other, t.finals other = s.finals other) (lanes : t.lanes = s.lanes)
    (completed : t.completed = s.completed) (drawn : t.drawn = s.drawn) : Quiet s t where
  turns other := by
    unfold Web.core SessionRuntime.turnState
    rw [turns]
  bindings taskId binding found := by
    unfold SessionRuntime.taskBinding at found ⊢
    rwa [bindings] at found
  finals := finals
  lanes := lanes
  completed := completed
  drawn := drawn

theorem appendTranscriptEvent {kind : TranscriptEventKind} (unfinal : kind ≠ .assistantFinal)
    (content : String) (now : DateTime) :
    Quiet s { s with runtime := s.runtime.appendTranscriptEvent key kind content now } := by
  refine of_transcripts rfl rfl ?_ rfl rfl rfl
  intro other
  show ((Finmap.lookup other (s.runtime.transcripts.insert key _)).map _).getD 0 = _
  rw [HashMap.lookup_insert_ite]
  split
  · next same =>
      subst same
      cases found : s.runtime.transcripts.lookup other <;>
        simp [Web.finals, SessionRuntime.appendEvent, found, finalEvent, unfinal]
  · rfl

theorem countP_zipIdx {α : Type} (p : α → Bool) (items : List α) :
    items.zipIdx.countP (p ∘ Prod.fst) = items.countP p := by
  rw [← List.countP_map, List.zipIdx_map_fst]

/-- Numbering anew does not change the kinds of the events, and final answers are kept. -/
theorem countP_pruneEvents (tailLen : Nat) (events : List TranscriptEvent) :
    (SessionRuntime.pruneEvents tailLen events).countP finalEvent = events.countP finalEvent := by
  unfold SessionRuntime.pruneEvents
  split
  · rfl
  · rw [List.countP_map]
    have renumbered := countP_zipIdx (finalEvent ∘ Prod.fst) (events.zipIdx.filter fun entry =>
      SessionRuntime.keptKind entry.1.kind || decide (entry.2 ≥ events.length - tailLen))
    refine renumbered.trans ?_
    rw [List.countP_filter, ← countP_zipIdx finalEvent events]
    apply List.countP_congr
    intro entry _
    by_cases final : entry.1.kind = .assistantFinal <;>
      simp [finalEvent, final, SessionRuntime.keptKind]

theorem pruneCompletedTurnTranscript (tailLen : Nat) :
    Quiet s { s with runtime := s.runtime.pruneCompletedTurnTranscript key tailLen } := by
  refine of_transcripts (SessionRuntime.turns_updateTranscript ..)
    (SessionRuntime.taskBindings_updateTranscript ..) ?_ rfl rfl rfl
  intro other
  show ((Finmap.lookup other (s.runtime.updateTranscript key _).transcripts).map _).getD 0 = _
  unfold SessionRuntime.updateTranscript
  split
  · next transcript found =>
      rw [HashMap.lookup_insert_ite]
      split
      · next same =>
          subst same
          simp [Web.finals, found, countP_pruneEvents]
      · rfl
  · rfl

theorem removeBinding (taskId : Option TaskId) :
    Quiet s { s with runtime := s.runtime.removeBinding taskId } := by
  cases taskId with
  | none => exact .refl s
  | some taskId =>
    refine ⟨fun _ => rfl, ?_, fun _ => rfl, rfl, rfl, rfl⟩
    intro other binding found
    unfold SessionRuntime.removeBinding SessionRuntime.taskBinding at found
    rw [HashMap.lookup_erase_ite] at found
    split at found
    · cases found
    · exact found

end Quiet

/-! ## Stages -/

/-- What a handler works on: a message whose turn it has started, or the result of a task
whose binding it has taken. -/
inductive Source
  | message (inbound : DingTalkInbound) (turnId : String)
  | result (taskId : TaskId) (binding : TaskContinuationBinding)

namespace Source

def key : Source → String
  | message inbound _ => inbound.sessionKey
  | result _ binding => binding.sessionKey

def turnId : Source → String
  | message _ turnId => turnId
  | result _ binding => binding.turnId

def route : Source → DingTalkReplyRoute
  | message inbound _ => replyRouteFromInbound inbound
  | result _ binding => binding.route

/-- The session a local step answers. -/
def localKey : Source → String
  | message inbound _ => inbound.sessionKey
  | result _ binding => parseDingtalkBindingSessionKey binding

end Source

inductive Stage
  | fresh
  | arriving (inbound : DingTalkInbound)
  | admitted (inbound : DingTalkInbound)
  | received (inbound : DingTalkInbound)
  | opened (source : Source)
  | greeting (source : Source)
  | took (taskId : TaskId) (binding : TaskContinuationBinding)
  | holding (taskId : TaskId) (binding : TaskContinuationBinding)
  | recorded (taskId : TaskId) (binding : TaskContinuationBinding)
  | orphaned (taskId : TaskId) (binding : TaskContinuationBinding)
  | uncancelled (taskId : TaskId) (binding : TaskContinuationBinding)
  | planning (source : Source) (plans : Nat)
  | counted (source : Source)
  | calling (source : Source)
  | submitted (source : Source) (taskId : TaskId)
  | inserted (source : Source) (taskId : TaskId) (binding : TaskContinuationBinding)
  | answering (source : Source) (key : String)
  | spoken (source : Source) (key : String)
  | closing (key : String)
  | approving (binding : TaskContinuationBinding)
  | cancelling (binding : TaskContinuationBinding)
  | finished

/-- The lane a handler holds. -/
def Stage.lane : Stage → Option String
  | admitted inbound | received inbound => some inbound.sessionKey
  | holding _ binding | recorded _ binding | orphaned _ binding | uncancelled _ binding =>
    some binding.sessionKey
  | opened source | greeting source | planning source _ | counted source | calling source
  | submitted source _ | inserted source _ _ | answering source _ | spoken source _ =>
    some source.key
  | closing key => some key
  | _ => none

/-- The notes of actions that may be quiet. -/
def Note.ordinary : Note → Bool
  | .plain | .checkCancelled _ | .workspace .. | .storeHandle _ | .takeHandle _ | .clear
  | .finalizeCard .. | .send .. | .sendUnlessAck .. => true
  | _ => false

/-- The actions of the handlers, with their effects. -/
inductive Move : Stage → Note → WebEnv → Web → Stage → Web → Prop
  | quiet {stage : Stage} {note : Note} {env : WebEnv} {s t : Web}
      (ordinary : note.ordinary = true) (same : Quiet s t) : Move stage note env s stage t
  | enter {inbound : DingTalkInbound} {env : WebEnv} {s : Web}
      (free : inbound.sessionKey ∉ s.lanes) :
      Move (.arriving inbound) (.lock inbound.sessionKey) env s (.admitted inbound)
        { s with lanes := insert inbound.sessionKey s.lanes }
  | receive {inbound : DingTalkInbound} {env : WebEnv} {s : Web} :
      Move (.admitted inbound) (.receive inbound) env s (.received inbound) s
  | start {inbound : DingTalkInbound} {env : WebEnv} {s : Web} {text : String} :
      Move (.received inbound) (.start inbound.sessionKey) env s
        (.opened (.message inbound env.uuid))
        { s with runtime := s.runtime.startTurn inbound.sessionKey env.uuid text }
  | greet {inbound : DingTalkInbound} {env : WebEnv} {s : Web} {text : String} :
      Move (.admitted inbound) (.start inbound.sessionKey) env s
        (.greeting (.message inbound env.uuid))
        { s with runtime := s.runtime.startTurn inbound.sessionKey env.uuid text }
  | transcribe {source : Source} {env : WebEnv} {s : Web} {text : String} :
      Move (.opened source) .plain env s (.planning source 0)
        { s with runtime := s.runtime.startTranscript source.key source.turnId text env.now }
  | greeted {source : Source} {env : WebEnv} {s : Web} {text : String} :
      Move (.greeting source) .plain env s (.answering source source.key)
        { s with runtime := s.runtime.startTranscript source.key source.turnId text env.now }
  | take {taskId : TaskId} {binding : TaskContinuationBinding} {env : WebEnv} {s : Web}
      (found : s.runtime.taskBinding taskId = some binding) :
      Move .fresh (.take taskId) env s (.took taskId binding)
        { s with runtime := s.runtime.removeBinding (some taskId) }
  | takeNothing {taskId : TaskId} {env : WebEnv} {s : Web}
      (missing : s.runtime.taskBinding taskId = none) :
      Move .fresh (.take taskId) env s .finished
        { s with runtime := s.runtime.removeBinding (some taskId) }
  | findNothing {taskId : TaskId} {env : WebEnv} {s : Web} :
      Move .fresh (.find taskId) env s .finished s
  | findToApprove {taskId : TaskId} {binding : TaskContinuationBinding} {env : WebEnv} {s : Web}
      (found : s.runtime.taskBinding taskId = some binding) :
      Move .fresh (.find taskId) env s (.approving binding) s
  | findToCancel {taskId : TaskId} {binding : TaskContinuationBinding} {env : WebEnv} {s : Web}
      (found : s.runtime.taskBinding taskId = some binding) :
      Move .fresh (.find taskId) env s (.cancelling binding) s
  | hold {taskId : TaskId} {binding : TaskContinuationBinding} {env : WebEnv} {s : Web}
      (free : binding.sessionKey ∉ s.lanes) :
      Move (.took taskId binding) (.lock binding.sessionKey) env s (.holding taskId binding)
        { s with lanes := insert binding.sessionKey s.lanes }
  | record {taskId : TaskId} {binding : TaskContinuationBinding} {env : WebEnv} {s : Web}
      (found : taskId ∈ s.completed) :
      Move (.holding taskId binding) .plain env s (.recorded taskId binding) s
  | orphan {taskId : TaskId} {binding : TaskContinuationBinding} {env : WebEnv} {s : Web}
      (missing : taskId ∉ s.completed) :
      Move (.holding taskId binding) .plain env s (.orphaned taskId binding) s
  | stop {taskId : TaskId} {binding : TaskContinuationBinding} {env : WebEnv} {s : Web} :
      Move (.recorded taskId binding) (.checkCancelled binding.sessionKey) env s
        (.closing binding.sessionKey) s
  | goOn {taskId : TaskId} {binding : TaskContinuationBinding} {env : WebEnv} {s : Web}
      (active : (s.runtime.turnState binding.sessionKey).any
        (fun turn => turn.cancelRequested) = false) :
      Move (.recorded taskId binding) (.checkCancelled binding.sessionKey) env s
        (.uncancelled taskId binding) s
  | resume {taskId : TaskId} {binding : TaskContinuationBinding} {env : WebEnv} {s : Web} :
      Move (.uncancelled taskId binding) .plain env s (.planning (.result taskId binding) 0)
        { s with runtime := s.runtime.markTurnResuming binding.sessionKey (some taskId) }
  | plan {taskId : TaskId} {binding : TaskContinuationBinding} {plans : Nat} {env : WebEnv}
      {s : Web} (few : plans < 2) :
      Move (.planning (.result taskId binding) plans) (.plan binding) env s
        (.planning (.result taskId binding) (plans + 1)) s
  | count {source : Source} {plans : Nat} {env : WebEnv} {s : Web} {turn : SessionTurnState}
      (present : (s.runtime.incrementStepCount source.key).turnState source.key = some turn)
      (within : turn.stepCount ≤ turn.maxSteps) :
      Move (.planning source plans) .plain env s (.counted source)
        { s with runtime := s.runtime.incrementStepCount source.key }
  | exhaust {source : Source} {plans : Nat} {env : WebEnv} {s : Web} :
      Move (.planning source plans) .plain env s (.answering source source.key)
        { s with runtime := s.runtime.incrementStepCount source.key }
  | call {source : Source} {env : WebEnv} {s : Web} {toolName : String} :
      Move (.counted source) .plain env s (.calling source)
        { s with runtime := s.runtime.beginToolCall source.key env.uuid toolName }
  | submit {source : Source} {env : WebEnv} {s : Web} :
      Move (.calling source) .submit env s (.submitted source env.taskId)
        { s with drawn := s.drawn ++ [env.taskId] }
  | bind {source : Source} {taskId : TaskId} {binding : TaskContinuationBinding} {env : WebEnv}
      {s : Web} (key : binding.sessionKey = source.key) (turnId : binding.turnId = source.turnId)
      (route : binding.route = source.route) :
      Move (.submitted source taskId) (.bind taskId binding) env s
        (.inserted source taskId binding)
        { s with runtime := s.runtime.insertBinding taskId binding }
  | bound {source : Source} {taskId : TaskId} {binding : TaskContinuationBinding} {env : WebEnv}
      {s : Web} :
      Move (.inserted source taskId binding) .plain env s (.closing source.key)
        { s with runtime := s.runtime.bindTurn taskId binding }
  | perform {source : Source} {env : WebEnv} {s : Web} :
      Move (.counted source) .localStep env s (.answering source source.localKey) s
  | conclude {source : Source} {env : WebEnv} {s : Web} {text : String} :
      Move (.counted source) .plain env s (.spoken source source.key)
        { s with
          runtime := s.runtime.appendTranscriptEvent source.key .assistantFinal text env.now }
  | answer {source : Source} {key : String} {env : WebEnv} {s : Web} {text : String} :
      Move (.answering source key) .plain env s (.spoken source key)
        { s with runtime := s.runtime.appendTranscriptEvent key .assistantFinal text env.now }
  | complete {source : Source} {key : String} {taskId : Option TaskId} {env : WebEnv} {s : Web} :
      Move (.spoken source key) .plain env s (.closing source.key)
        { s with runtime := s.runtime.completeTurn key taskId }
  | completeOrphan {taskId : TaskId} {binding : TaskContinuationBinding} {env : WebEnv} {s : Web} :
      Move (.orphaned taskId binding) .plain env s (.closing binding.sessionKey)
        { s with runtime := s.runtime.completeTurn binding.sessionKey (some taskId) }
  | failOrphan {taskId : TaskId} {binding : TaskContinuationBinding} {env : WebEnv} {s : Web} :
      Move (.orphaned taskId binding) .plain env s (.closing binding.sessionKey)
        { s with runtime := s.runtime.failTurn binding.sessionKey (some taskId) }
  | approve {binding : TaskContinuationBinding} {env : WebEnv} {s : Web} :
      Move (.approving binding) .plain env s .finished
        { s with runtime := s.runtime.markWaitingForApproval binding.sessionKey }
  | cancel {binding : TaskContinuationBinding} {env : WebEnv} {s : Web} :
      Move (.cancelling binding) .plain env s .finished
        { s with runtime := s.runtime.cancelTurn binding.sessionKey }
  | leave {stage : Stage} {key : String} {env : WebEnv} {s : Web} (held : stage.lane = some key) :
      Move stage (.unlock key) env s .finished { s with lanes := s.lanes.erase key }

end UHorse.Hub.DingTalk
