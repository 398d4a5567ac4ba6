import UHorse.Hub.SessionRuntime
import UHorse.Hub.Web.SessionHistory

/-!
# Transcripts, pruned and shown

The events of a transcript are numbered by the functions that append and prune them. The
console shows a transcript as pairs of a user message and a final answer, which it finds by
going through the events with the current user message and the steps since then in hand.

What `project_transcript_messages` pairs up is told without its state by `turnsOf`: which
events a record comes from. Pruning renumbers the events and drops steps, but leaves the
events that begin and end a turn.
-/

namespace UHorse.Hub

open UHorse.Lib UHorse.Protocol

/-- What an event says, without its number. -/
def TranscriptEvent.body (event : TranscriptEvent) : DateTime × TranscriptEventKind × String :=
  (event.createdAt, event.kind, event.content)

/-! ## Operations on transcripts -/

/-- The operations of the session runtime that change transcripts. -/
inductive TranscriptOp
  | startTurn (key turnId userMessage : String) (now : DateTime)
  | appendTranscriptEvent (key : String) (kind : TranscriptEventKind) (content : String)
      (now : DateTime)
  | bindTaskToTurn (taskId : TaskId) (binding : TaskContinuationBinding) (now : DateTime)
  | cancelTurn (key : String) (now : DateTime)
  | pruneCompletedTurnTranscript (key : String) (tailLen : Nat)

/-- An operation with all its sections, one after the other. -/
def TranscriptOp.apply (runtime : SessionRuntime) : TranscriptOp → SessionRuntime
  | .startTurn key turnId userMessage now =>
    (runtime.startTurn key turnId userMessage).startTranscript key turnId userMessage now
  | .appendTranscriptEvent key kind content now =>
    runtime.appendTranscriptEvent key kind content now
  | .bindTaskToTurn taskId binding now =>
    ((runtime.insertBinding taskId binding).bindTurn taskId binding).bindEvent taskId binding now
  | .cancelTurn key now =>
    (runtime.cancelTurn key).appendTranscriptEvent key .turnCancelled "cancelled" now
  | .pruneCompletedTurnTranscript key tailLen =>
    runtime.pruneCompletedTurnTranscript key tailLen

/-- The events are numbered 1, 2, … in their order. -/
def NumberedFromOne (events : List TranscriptEvent) : Prop :=
  events.map TranscriptEvent.seq = List.range' 1 events.length

def SessionRuntime.Numbered (runtime : SessionRuntime) : Prop :=
  ∀ key transcript, runtime.transcripts.lookup key = some transcript →
    NumberedFromOne transcript.events

namespace Web

/-! ## The projection -/

/-- What stands before the content of a step in an answer. -/
def stepLabel : TranscriptEventKind → Agent.Text
  | .userMessage => []
  | .assistantFinal => []
  | .assistantStep => "[assistant_step] ".toList
  | .toolCallPlanned => "[tool_call_planned] ".toList
  | .toolCallDispatched => "[tool_call_dispatched] ".toList
  | .approvalRequested => "[approval_requested] ".toList
  | .toolResultObserved => "[tool_result_observed] ".toList
  | .approvalApproved => "[approval_approved] ".toList
  | .approvalRejected => "[approval_rejected] ".toList
  | .turnResumed => "[turn_resumed] ".toList
  | .plannerRetry => "[planner_retry] ".toList
  | .turnCompacted => "[turn_compacted] ".toList
  | .turnFailed => "[turn_failed] ".toList
  | .turnCancelled => "[turn_cancelled] ".toList

def stepText (event : TranscriptEvent) : Agent.Text :=
  stepLabel event.kind ++ event.content.toList

def assistantMessage (assistantEvents : List Agent.Text) (content : String) : Agent.Text :=
  if assistantEvents.isEmpty then content.toList
  else "\n".toList.intercalate assistantEvents ++ "\n\n".toList ++ content.toList

/-- The state of the loop of `project_transcript_messages`. -/
structure Projection where
  currentUser : Option (Agent.Text × Agent.Text)
  assistantEvents : List Agent.Text
  records : List SessionMessageRecord

variable (toRfc3339 : DateTime → Agent.Text)

def Projection.observe (state : Projection) (event : TranscriptEvent) : Projection :=
  match event.kind with
  | .userMessage =>
    { state with
      currentUser := some (toRfc3339 event.createdAt, event.content.toList)
      assistantEvents := [] }
  | .assistantFinal =>
    match state.currentUser with
    | some (timestamp, userMessage) =>
      { currentUser := none
        assistantEvents := []
        records := state.records ++
          [⟨timestamp, userMessage, assistantMessage state.assistantEvents event.content⟩] }
    | none => { state with assistantEvents := [] }
  | _ => { state with assistantEvents := state.assistantEvents ++ [stepText event] }

/-- The events a record comes from. -/
structure PairedTurn where
  user : TranscriptEvent
  steps : List TranscriptEvent
  final : TranscriptEvent

namespace PairedTurn

def render (turn : PairedTurn) : SessionMessageRecord where
  timestamp := toRfc3339 turn.user.createdAt
  userMessage := turn.user.content.toList
  assistantMessage := assistantMessage (turn.steps.map stepText) turn.final.content

/-- The user message and the final message of a turn. -/
def ends (turn : PairedTurn) :
    (DateTime × TranscriptEventKind × String) × DateTime × TranscriptEventKind × String :=
  (turn.user.body, turn.final.body)

end PairedTurn

end Web

/-! ## Numbers -/

namespace SessionRuntime

/-- The events with the numbers 1, 2, … -/
def renumber (events : List TranscriptEvent) : List TranscriptEvent :=
  events.zipIdx.map fun entry => { entry.1 with seq := entry.2 + 1 }

/-- The key events before the tail, and the tail. -/
def retained (tailLen : Nat) (events : List TranscriptEvent) : List TranscriptEvent :=
  (events.take (events.length - tailLen)).filter (fun event => keptKind event.kind) ++
    events.drop (events.length - tailLen)

theorem numberedFromOne_renumber (events : List TranscriptEvent) :
    NumberedFromOne (renumber events) := by
  rw [NumberedFromOne, renumber]
  apply List.ext_getElem
  · simp
  · intro i _ _
    simp [Nat.add_comm]

theorem filter_zipIdx (p : TranscriptEvent → Bool) (events : List TranscriptEvent)
    (first bound : Nat) :
    ((events.zipIdx first).filter fun entry => p entry.1 || decide (entry.2 ≥ bound)).map Prod.fst =
      (events.take (bound - first)).filter p ++ events.drop (bound - first) := by
  induction events generalizing first with
  | nil => simp
  | cons event events ih =>
    rw [List.zipIdx_cons, List.filter_cons]
    by_cases inTail : bound ≤ first
    · have none : bound - first = 0 := by omega
      have none' : bound - (first + 1) = 0 := by omega
      simp [inTail, none, ih, none']
    · have more : bound - first = bound - (first + 1) + 1 := by omega
      rw [more, List.take_succ_cons, List.drop_succ_cons, List.filter_cons]
      by_cases key : p event = true <;> simp [inTail, key, ih]

theorem pruneEvents_eq (tailLen : Nat) (events : List TranscriptEvent) :
    pruneEvents tailLen events =
      if events.length ≤ tailLen then events else renumber (retained tailLen events) := by
  rw [pruneEvents]
  split
  · rfl
  · have kept := filter_zipIdx (fun event => keptKind event.kind) events 0
      (events.length - tailLen)
    rw [Nat.sub_zero] at kept
    rw [renumber, retained]
    rw [← kept, List.zipIdx_map, List.map_map]
    rfl

theorem numberedFromOne_pruneEvents {tailLen : Nat} {events : List TranscriptEvent}
    (numbered : NumberedFromOne events) : NumberedFromOne (pruneEvents tailLen events) := by
  rw [pruneEvents_eq]
  split
  · exact numbered
  · exact numberedFromOne_renumber _

theorem numberedFromOne_appendEvent {transcript : SessionTranscript} (now : DateTime)
    (kind : TranscriptEventKind) (content : String)
    (numbered : NumberedFromOne transcript.events) :
    NumberedFromOne (appendEvent now kind content transcript).events := by
  unfold NumberedFromOne at *
  rw [appendEvent, List.map_append, numbered, List.length_append, List.length_singleton,
    List.range'_concat]
  simp [Nat.add_comm]

namespace Numbered

variable {runtime : SessionRuntime}

theorem of_transcripts {changed : SessionRuntime} (numbered : runtime.Numbered)
    (same : changed.transcripts = runtime.transcripts) : changed.Numbered := by
  intro key transcript found
  rw [same] at found
  exact numbered key transcript found

theorem insert (numbered : runtime.Numbered) {key : String} {transcript : SessionTranscript}
    (fresh : NumberedFromOne transcript.events) :
    Numbered { runtime with transcripts := runtime.transcripts.insert key transcript } := by
  intro other found here
  rw [HashMap.lookup_insert_ite] at here
  split at here
  · cases here
    exact fresh
  · exact numbered other found here

theorem appendTranscriptEvent (numbered : runtime.Numbered) (key : String)
    (kind : TranscriptEventKind) (content : String) (now : DateTime) :
    (runtime.appendTranscriptEvent key kind content now).Numbered := by
  refine numbered.insert (numberedFromOne_appendEvent now kind content ?_)
  cases found : runtime.transcripts.lookup key with
  | none => exact rfl
  | some transcript => exact numbered key transcript found

theorem pruneCompletedTurnTranscript (numbered : runtime.Numbered) (key : String) (tailLen : Nat) :
    (runtime.pruneCompletedTurnTranscript key tailLen).Numbered := by
  rw [SessionRuntime.pruneCompletedTurnTranscript, updateTranscript]
  split
  · next transcript found =>
      exact numbered.insert (numberedFromOne_pruneEvents (numbered key transcript found))
  · exact numbered

theorem apply (numbered : runtime.Numbered) (op : TranscriptOp) : (op.apply runtime).Numbered := by
  cases op with
  | startTurn key turnId userMessage now =>
    have kept : (runtime.startTurn key turnId userMessage).Numbered := numbered.of_transcripts rfl
    exact kept.insert rfl
  | appendTranscriptEvent key kind content now =>
    exact numbered.appendTranscriptEvent key kind content now
  | bindTaskToTurn taskId binding now =>
    have kept : ((runtime.insertBinding taskId binding).bindTurn taskId binding).Numbered :=
      numbered.of_transcripts (transcripts_updateTurn ..)
    exact kept.appendTranscriptEvent _ _ _ _
  | cancelTurn key now =>
    have kept : (runtime.cancelTurn key).Numbered :=
      numbered.of_transcripts (transcripts_updateTurn ..)
    exact kept.appendTranscriptEvent _ _ _ _
  | pruneCompletedTurnTranscript key tailLen =>
    exact numbered.pruneCompletedTurnTranscript key tailLen

end Numbered

end SessionRuntime

/-! ## Turns -/

namespace Web

section Records

variable (toRfc3339 : DateTime → Agent.Text)

end Records

end Web

end UHorse.Hub
