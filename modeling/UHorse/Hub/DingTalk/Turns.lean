import UHorse.Hub.DingTalk.Actions

/-!
# Late results and the current turn

A handler that found a task's binding acts on the session of the binding. No
operation of the session compares the turn id in the binding with the turn it
changes, so a result that arrives after the next message has started a turn is
written into that turn.

`Acting` observes for which turn a handler works and on behalf of which binding.
As long as no turn starts while a binding of its session is outstanding or
another handler still works for the session, and local continuations rebuild the
session key they came from, whatever is done on behalf of a binding is done to
the turn of that binding.
-/

namespace UHorse.Hub.DingTalk

open UHorse.Lib UHorse.Protocol

def Web.currentTurn (s : Web) (key : String) : Option String :=
  (s.runtime.turnState key).map SessionTurnState.turnId

/-- The turn a handler works for, and the binding on whose behalf it does. -/
structure Acting where
  focus : Option (String × String)
  behalf : Option TaskContinuationBinding
deriving DecidableEq

/-- A handler works for the turn it starts, or for the one of the binding it finds,
and on behalf of that binding or of the first one it makes. -/
def acting : Observer Web WebEnv Note Acting where
  start := ⟨none, none⟩
  see seen note env s :=
    match note with
    | .start key => { seen with focus := some (key, env.uuid) }
    | .take taskId | .find taskId =>
      match s.runtime.taskBinding taskId with
      | some binding => ⟨some (binding.sessionKey, binding.turnId), some binding⟩
      | none => seen
    | .bind _ binding => { seen with behalf := seen.behalf.or (some binding) }
    | _ => seen

/-- The actions that change what `acting` has seen. -/
def Note.marks : Note → Bool
  | .start _ | .take _ | .find _ | .bind .. => true
  | _ => false

variable {seen : Acting} {note : Note}

theorem acting_see_of_unmarked (unmarked : note.marks = false) (env : WebEnv) (s : Web) :
    acting.see seen note env s = seen := by
  cases note <;> first | rfl | cases unmarked

/-- A local continuation rebuilds the session key of its binding. -/
def ExpectedPlan (note : Note) (env : WebEnv) : Prop :=
  match note with
  | .plan binding => ∀ step, env.plan = .ok step → step.isLocal = true →
      parseDingtalkBindingSessionKey binding = binding.sessionKey
  | _ => True

structure Relies (seen : Acting) (s : Web) : Prop where
  current : ∀ key turnId, seen.focus = some (key, turnId) → s.currentTurn key = some turnId
  behalf : ∀ binding, seen.behalf = some binding →
    seen.focus = some (binding.sessionKey, binding.turnId)

structure Grants (seen : Acting) (note : Note) (env : WebEnv) (s t : Web) : Prop where
  ids : ∀ key, note ≠ .start key → t.currentTurn key = s.currentTurn key
  started : ∀ key, note = .start key →
    seen.behalf = none ∧ t.currentTurn key = some env.uuid
  bindings : ∀ taskId binding, t.runtime.taskBinding taskId = some binding →
    s.runtime.taskBinding taskId = some binding ∨ note = .bind taskId binding
  bound : ∀ taskId binding, note = .bind taskId binding →
    seen.focus = some (binding.sessionKey, binding.turnId)
  untouched : ∀ binding, seen.behalf = some binding → ∀ key, key ≠ binding.sessionKey →
    t.runtime.turns.lookup key = s.runtime.turns.lookup key ∧
      t.runtime.transcripts.lookup key = s.runtime.transcripts.lookup key

/-- Starting a turn and binding a task need grants of their own. -/
def Note.steers : Note → Bool
  | .start _ | .bind .. => true
  | _ => false

theorem Grants.of_unsteered {env : WebEnv} {s t : Web} (unsteered : note.steers = false)
    (ids : ∀ key, t.currentTurn key = s.currentTurn key)
    (bindings : ∀ taskId binding, t.runtime.taskBinding taskId = some binding →
      s.runtime.taskBinding taskId = some binding)
    (untouched : ∀ binding, seen.behalf = some binding → ∀ key, key ≠ binding.sessionKey →
      t.runtime.turns.lookup key = s.runtime.turns.lookup key ∧
        t.runtime.transcripts.lookup key = s.runtime.transcripts.lookup key) :
    Grants seen note env s t := by
  refine ⟨fun key _ => ids key, ?_, ?_, ?_, untouched⟩
  · rintro key rfl
    cases unsteered
  · intro taskId binding found
    exact .inl (bindings taskId binding found)
  · rintro taskId binding rfl
    cases unsteered

/-- An action that leaves the session runtime alone. -/
theorem Grants.of_same {env : WebEnv} {s t : Web} (unsteered : note.steers = false)
    (same : t.runtime = s.runtime) : Grants seen note env s t := by
  refine .of_unsteered unsteered ?_ ?_ ?_
  · intro key
    unfold Web.currentTurn
    rw [same]
  · intro taskId binding found
    rwa [same] at found
  · intro _ _ key _
    rw [same]
    exact ⟨rfl, rfl⟩

def turnContract : Contract Web WebEnv Note Acting where
  relies := Relies
  expects _ note env _ := ExpectedPlan note env
  waits _ _ _ := True
  grants := Grants

/-! ## Handlers keep the contract -/

/-- If the handler acts on behalf of a binding, then of one of this session. -/
def Own (seen : Acting) (key : String) : Prop :=
  ∀ binding, seen.behalf = some binding → binding.sessionKey = key

theorem own_of_unbound (unbound : seen.behalf = none) (key : String) : Own seen key := by
  intro binding behalf
  rw [unbound] at behalf
  cases behalf

/-- The program keeps the contract and leaves what was seen of the handler. -/
abbrev Calm {α : Type} (program : Handler α) (seen : Acting) : Prop :=
  program.Steady acting turnContract seen

theorem Own.tolerates {key : String} (own : Own seen key) :
    Tolerates acting turnContract seen key where
  unseen note env s idle := by
    cases note <;> first | rfl | cases idle
  tame note env s change routes idle tame := by
    have unsteered : note.steers = false := by
      cases note <;> first | rfl | cases idle
    refine Grants.of_unsteered unsteered (tame.ids s.runtime) (tame.bindings s.runtime) ?_
    intro binding behalf other distinct
    apply tame.elsewhere s.runtime other
    rwa [own binding behalf] at distinct

namespace Calm

variable {α : Type} {seen : Acting} {key : String}

/-- An action that does not touch the session runtime. -/
theorem quiet {note : Note} {run : WebEnv → Web → Web} {value : WebEnv → Web → α}
    (unmarked : note.marks = false) (same : ∀ env s, (run env s).runtime = s.runtime) :
    Calm (Program.update note run value) seen := by
  have unsteered : note.steers = false := by
    cases note <;> first | rfl | cases unmarked
  refine Program.Keeps.update ?_ (fun env s _ _ => acting_see_of_unmarked unmarked env s)
  intro env s _ _
  exact Grants.of_same unsteered (same env s)

theorem query {note : Note} {value : WebEnv → Web → α} (unmarked : note.marks = false) :
    Calm (Program.query note value) seen :=
  quiet unmarked (fun _ _ => rfl)

theorem send (capabilities : ChannelCapabilities) (route : DingTalkReplyRoute) (text : String) :
    Calm (DingTalk.send capabilities route text) seen := by
  apply quiet rfl
  intro env s
  split <;> rfl

theorem sendUnlessAck (capabilities : ChannelCapabilities) (route : DingTalkReplyRoute)
    (text : String) : Calm (DingTalk.sendUnlessAck capabilities route text) seen := by
  apply quiet rfl
  intro env s
  split <;> rfl

theorem finalizeAiCard (route : DingTalkReplyRoute) (text : String) :
    Calm (DingTalk.finalizeAiCard route text) seen := by
  apply quiet rfl
  intro env s
  split <;> rfl

theorem clearProcessingAck : Calm DingTalk.clearProcessingAck seen := query rfl

theorem sendOrFinalize (capabilities : ChannelCapabilities) (route : DingTalkReplyRoute)
    (text : String) (handle : Option DingTalkReplyHandle) :
    Calm (DingTalk.sendOrFinalize capabilities route text handle) seen := by
  match handle with
  | some (.aiCard _) =>
    refine (finalizeAiCard route text).bind fun finalized => ?_
    cases finalized with
    | true => exact Program.Steady.pure _
    | false => exact send capabilities route text
  | some (.reaction _) => exact send capabilities route text
  | some (.legacyTransient _) =>
    refine clearProcessingAck.bind fun cleared => ?_
    cases cleared with
    | error error => exact Program.Steady.pure _
    | ok _ => exact send capabilities route text
  | some .noop => exact sendUnlessAck capabilities route text
  | none => exact send capabilities route text

theorem takeDingtalkReplyHandle (taskId : TaskId) :
    Calm (DingTalk.takeDingtalkReplyHandle taskId) seen :=
  quiet rfl (fun _ _ => rfl)

theorem cleanupProcessingHandle (route : DingTalkReplyRoute)
    (handle : Option DingTalkReplyHandle) :
    Calm (DingTalk.cleanupProcessingHandle route handle) seen := by
  match handle with
  | some (.aiCard _) => exact (finalizeAiCard route _).bind fun _ => Program.Steady.pure _
  | some (.legacyTransient _) => exact clearProcessingAck
  | some (.reaction _) => exact Program.Steady.pure _
  | some .noop => exact Program.Steady.pure _
  | none => exact Program.Steady.pure _

theorem finalizeTaskResultReply (config : WebConfig) (taskId : TaskId)
    (route : DingTalkReplyRoute) (text : String) :
    Calm (DingTalk.finalizeTaskResultReply config taskId route text) seen := by
  unfold DingTalk.finalizeTaskResultReply
  split
  · exact Program.Steady.pure _
  · exact (takeDingtalkReplyHandle taskId).bind fun handle => sendOrFinalize _ route text handle

theorem submitTask : Calm DingTalk.submitTask seen :=
  quiet rfl (fun _ _ => rfl)

theorem storeReplyHandle (config : WebConfig) (taskId : TaskId)
    (handle : Option DingTalkReplyHandle) :
    Calm (DingTalk.storeReplyHandle config taskId handle) seen := by
  have insert : ∀ handle, Calm (DingTalk.insertDingtalkReplyHandle taskId handle) seen :=
    fun _ => quiet rfl (fun _ _ => rfl)
  unfold DingTalk.storeReplyHandle
  split
  · exact (insert _).bind fun _ => Program.Steady.pure _
  · refine (query rfl).bind fun created => ?_
    cases created with
    | error error => exact Program.Steady.pure _
    | ok handle => exact (insert _).bind fun _ => Program.Steady.pure _
  · exact Program.Steady.pure _

theorem replyDirectly (config : WebConfig) (own : Own seen key) (route : DingTalkReplyRoute)
    (text : String) (handle : Option DingTalkReplyHandle) :
    Calm (DingTalk.replyDirectly config key route text handle) seen := by
  refine (appendTranscriptEvent_steady own.tolerates _ _).bind fun _ =>
    (completeTurn_steady own.tolerates none).bind fun _ => ?_
  split
  · exact Program.Steady.pure _
  · exact sendOrFinalize _ route text handle

theorem executeLocalTurnStep (config : WebConfig) (route : DingTalkReplyRoute)
    (own : Own seen key) (handle : Option DingTalkReplyHandle) :
    Calm (DingTalk.executeLocalTurnStep config route key handle) seen := by
  refine (query rfl).bind fun outcome => ?_
  cases outcome with
  | error error => exact Program.Steady.pure _
  | ok text => exact replyDirectly config own route text handle

end Calm

/-- The program keeps the contract, the turn it works for and the session it may act
on; a first binding it makes is one of that turn. -/
def Stays {α : Type} (program : Handler α) (seen : Acting) (key : String) : Prop :=
  program.Keeps acting turnContract seen (fun _ after => after.focus = seen.focus ∧ Own after key)

theorem Calm.stays {α : Type} {program : Handler α} {key : String} (steady : Calm program seen)
    (own : Own seen key) : Stays program seen key := by
  apply Program.Keeps.weaken steady
  rintro value after rfl
  exact ⟨rfl, own⟩

namespace Stays

variable {α β : Type} {seen : Acting} {key turnId : String}

theorem bind {program : Handler α} {rest : α → Handler β} (first : Stays program seen key)
    (second : ∀ value after, after.focus = seen.focus → Own after key →
      Stays (rest value) after key) : Stays (program >>= rest) seen key := by
  apply Program.Keeps.bind first
  rintro value after ⟨focus, own⟩
  have later := second value after focus own
  unfold Stays at later
  rwa [focus] at later

theorem bindTaskToTurn (binding : TaskContinuationBinding)
    (focused : seen.focus = some (binding.sessionKey, binding.turnId))
    (own : Own seen binding.sessionKey) (taskId : TaskId) :
    Stays (DingTalk.bindTaskToTurn taskId binding) seen binding.sessionKey := by
  refine bind (Program.Keeps.update ?_ ?_) fun _ after _ own => ?_
  · intro env s _ _
    refine ⟨fun _ _ => rfl, ?_, ?_, ?_, fun _ _ _ _ => ⟨rfl, rfl⟩⟩
    · intro key starts
      cases starts
    · intro other bound found
      have lookup : (s.runtime.taskBindings.insert taskId binding).lookup other = some bound :=
        found
      rw [HashMap.lookup_insert_ite] at lookup
      split at lookup
      · next same =>
          cases lookup
          exact .inr (by rw [same])
      · exact .inl lookup
    · rintro other bound made
      cases made
      exact focused
  · intro env s _ _
    refine ⟨rfl, ?_⟩
    intro bound behalf
    obtain before | ⟨-, made⟩ := Option.or_eq_some_iff.mp behalf
    · exact own bound before
    · cases made
      rfl
  · have turn : Calm (onRuntime fun _ runtime => runtime.bindTurn taskId binding) after :=
      onRuntime_steady own.tolerates fun _ => Tame.updateTurn fun _ => rfl
    have event : Calm (onRuntime fun env runtime => runtime.bindEvent taskId binding env.now)
        after := onRuntime_steady own.tolerates fun _ => Tame.setTranscript
    exact turn.bind fun _ => event.stays own

theorem dispatchTask (own : Own seen key) (focused : seen.focus = some (key, turnId))
    (agentId : String) (route : DingTalkReplyRoute) (missingTurn : String) :
    Stays (DingTalk.dispatchTask key turnId agentId route missingTurn) seen key := by
  refine (beginToolCall_steady own.tolerates _).bind fun toolCall => ?_
  cases toolCall with
  | none => exact Calm.stays (Program.Steady.pure _) own
  | some toolCallId =>
    refine (appendTranscriptEvent_steady own.tolerates _ _).bind fun _ =>
      Calm.submitTask.bind fun taskId => ?_
    exact bind (bindTaskToTurn ⟨key, turnId, toolCallId, agentId, route⟩ focused own taskId)
      fun _ _ _ own => Calm.stays (Program.Steady.pure _) own

theorem submitPlannedTask (config : WebConfig) (own : Own seen key)
    (focused : seen.focus = some (key, turnId)) (agentId : String) (route : DingTalkReplyRoute)
    (command : Command) (workspacePath : Option String) (early : Option DingTalkReplyHandle) :
    Stays (DingTalk.submitPlannedTask config key turnId agentId route command workspacePath early)
      seen key := by
  refine (resolveWorkspace_steady own.tolerates _ _).bind fun workspace => ?_
  cases workspace with
  | error error => exact Calm.stays (Program.Steady.pure _) own
  | ok hint =>
    dsimp only
    split
    · exact Calm.stays (Program.Steady.pure _) own
    · refine bind (dispatchTask own focused agentId route _) fun outcome after _ own => ?_
      cases outcome with
      | error error => exact Calm.stays (Program.Steady.pure _) own
      | ok taskId =>
        have route : Calm (insertDingtalkReplyRoute taskId route) after :=
          .quiet rfl (fun _ _ => rfl)
        exact route.bind fun _ => (Calm.storeReplyHandle config taskId early).stays own

end Stays

/-! ### Messages -/

section Messages

variable {seen : Acting} {key : String}

/-- From here on the handler works for the turn it has started. -/
theorem startTurn_keeps (unbound : seen.behalf = none) (userMessage : String) :
    (startTurn key userMessage).Keeps acting turnContract seen
      (fun turnId after => after = ⟨some (key, turnId), none⟩) := by
  have begun : (Program.update (.start key)
      (fun (env : WebEnv) (s : Web) =>
        { s with runtime := s.runtime.startTurn key env.uuid userMessage })
      (fun env _ => env.uuid)).Keeps acting turnContract seen
      (fun turnId after => after = ⟨some (key, turnId), none⟩) := by
    refine Program.Keeps.update ?_ ?_
    · intro env s _ _
      have lookup : ∀ other,
          (({ s with runtime := s.runtime.startTurn key env.uuid userMessage } : Web)).currentTurn
            other = if other = key then some env.uuid else s.currentTurn other := by
        intro other
        show (Finmap.lookup other (s.runtime.turns.insert key _)).map _ = _
        rw [HashMap.lookup_insert_ite]
        split <;> rfl
      refine ⟨?_, ?_, fun _ _ found => .inl found, ?_, ?_⟩
      · intro other unstarted
        rw [lookup, if_neg]
        rintro rfl
        exact unstarted rfl
      · rintro other starts
        cases starts
        exact ⟨unbound, by rw [lookup, if_pos rfl]⟩
      · intro taskId binding binds
        cases binds
      · intro binding behalf
        rw [unbound] at behalf
        cases behalf
    · intro env s _ _
      show (⟨some (key, env.uuid), seen.behalf⟩ : Acting) = _
      rw [unbound]
  apply Program.Keeps.bind begun
  rintro turnId after rfl
  have transcript : Calm (onRuntime fun env runtime =>
      runtime.startTranscript key turnId userMessage env.now) ⟨some (key, turnId), none⟩ :=
    onRuntime_steady (own_of_unbound rfl key).tolerates fun _ => Tame.setTranscript
  exact transcript.bind fun _ => Program.Keeps.pure rfl

/-- What a message's handler leaves behind: it may act on its own session only. -/
def Owns {α : Type} (program : Handler α) (seen : Acting) (key : String) : Prop :=
  program.Keeps acting turnContract seen (fun _ after => Own after key)

theorem Stays.owns {α : Type} {program : Handler α} (stays : Stays program seen key) :
    Owns program seen key :=
  Program.Keeps.weaken stays fun _ _ kept => kept.2

theorem processDingtalkTaskSerialized_owns (config : WebConfig) (inbound : DingTalkInbound)
    (early : Option DingTalkReplyHandle) (unbound : seen.behalf = none) :
    Owns (processDingtalkTaskSerialized config inbound early) seen inbound.sessionKey := by
  refine (Calm.query rfl).bind fun agentId => ?_
  apply Program.Keeps.bind (startTurn_keeps unbound _)
  rintro turnId after rfl
  have own : Own ⟨some (inbound.sessionKey, turnId), none⟩ inbound.sessionKey :=
    own_of_unbound rfl _
  refine (Calm.query rfl).bind fun plan => ?_
  cases plan with
  | error error => exact (Calm.stays (Program.Steady.pure _) own).owns
  | ok step =>
    refine (appendTranscriptEvent_steady own.tolerates _ _).bind fun _ =>
      (incrementStepCount_steady own.tolerates).bind fun turn => ?_
    cases turn with
    | none => exact (Calm.stays (Program.Steady.pure _) own).owns
    | some turn =>
      dsimp only
      split
      · exact ((Calm.replyDirectly config own _ _ _).stays own).owns
      · split
        · exact ((Calm.replyDirectly config own _ _ _).stays own).owns
        · exact (Stays.submitPlannedTask config own rfl _ _ _ _ _).owns
        · exact ((Calm.executeLocalTurnStep config _ own _).stays own).owns

theorem waitForFollowUp_owns (config : WebConfig) (inbound : DingTalkInbound)
    (replyText : String) (early : Option DingTalkReplyHandle) (unbound : seen.behalf = none) :
    Owns (waitForFollowUp config inbound replyText early) seen inbound.sessionKey := by
  apply Program.Keeps.bind (startTurn_keeps unbound _)
  rintro turnId after rfl
  have own : Own ⟨some (inbound.sessionKey, turnId), none⟩ inbound.sessionKey :=
    own_of_unbound rfl _
  exact ((Calm.replyDirectly config own _ _ _).stays own).owns

/-- Taking and releasing a lane concerns no turn. -/
theorem runSerialized_keeps {α : Type} {body : Handler α} {post : α → Acting → Prop}
    (keeps : body.Keeps acting turnContract seen post) :
    (runSerialized key body).Keeps acting turnContract seen post := by
  have acquired : Calm (Program.await (.lock key) (fun s : Web => key ∉ s.lanes)
      (fun _ s => { s with lanes := insert key s.lanes })) seen := by
    refine Program.Keeps.await (fun _ _ => trivial) ?_ (fun _ _ _ _ => rfl)
    intro env s _ _
    exact Grants.of_same rfl rfl
  refine acquired.bind fun _ => Program.Keeps.bind keeps ?_
  intro value after holds
  refine Program.Steady.bind (Calm.quiet rfl (fun _ _ => rfl)) fun _ => ?_
  exact Program.Keeps.pure holds

theorem replyDingtalkError_steady (config : WebConfig) (inbound : DingTalkInbound)
    (error : String) (own : Own seen inbound.sessionKey) :
    Calm (replyDingtalkError config inbound error) seen := by
  unfold replyDingtalkError
  split
  · exact Program.Steady.pure _
  · refine (Calm.query rfl).bind fun created => ?_
    cases created with
    | error error => exact Program.Steady.pure _
    | ok handle =>
      exact (appendTranscriptEvent_steady own.tolerates _ _).bind fun _ =>
        Calm.sendOrFinalize _ _ _ _

theorem handleDingtalkInbound_owns (config : WebConfig) (inbound : DingTalkInbound)
    (normalized : NormalizedInbound) (early : Option DingTalkReplyHandle)
    (unbound : seen.behalf = none) :
    Owns (handleDingtalkInbound config inbound normalized early) seen inbound.sessionKey := by
  have submitted : Owns (submitDingtalkTask config inbound normalized early) seen
      inbound.sessionKey := by
    apply runSerialized_keeps
    cases normalized with
    | continueAsText => exact processDingtalkTaskSerialized_owns config inbound early unbound
    | waitForFollowUp replyText =>
      exact waitForFollowUp_owns config inbound replyText early unbound
  apply Program.Keeps.bind submitted
  intro outcome after own
  cases outcome with
  | error error => exact ((replyDingtalkError_steady config inbound error own).stays own).owns
  | ok _ => exact Program.Keeps.pure own

end Messages

/-! ### Handlers that find a binding -/

section Bound

variable {seen : Acting} {binding : TaskContinuationBinding}

/-- What has been seen of a handler that found its binding. -/
def Acting.found (binding : TaskContinuationBinding) : Acting :=
  ⟨some (binding.sessionKey, binding.turnId), some binding⟩

theorem own_found : Own (.found binding) binding.sessionKey := by
  rintro other behalf
  cases behalf
  rfl

/-- What the search for a binding leaves behind. -/
def Searched (seen : Acting) (result : Option TaskContinuationBinding) (after : Acting) : Prop :=
  match result with
  | some binding => after = .found binding
  | none => after = seen

theorem takeTaskBinding_keeps (taskId : TaskId) :
    (takeTaskBinding taskId).Keeps acting turnContract seen (Searched seen) := by
  refine Program.Keeps.update ?_ ?_
  · intro env s _ _
    have tame : Tame "" (fun runtime => runtime.removeBinding (some taskId)) := Tame.removeBinding
    exact Grants.of_unsteered rfl (fun _ => rfl) (tame.bindings s.runtime)
      (fun _ _ _ _ => ⟨rfl, rfl⟩)
  · intro env s _ _
    show Searched seen (s.runtime.taskBinding taskId) (acting.see seen (.take taskId) env s)
    cases lookup : s.runtime.taskBinding taskId <;> simp [Searched, acting, lookup, Acting.found]

theorem findTaskBinding_keeps (taskId : TaskId) :
    (findTaskBinding taskId).Keeps acting turnContract seen (Searched seen) := by
  refine Program.Keeps.update ?_ ?_
  · intro env s _ _
    exact Grants.of_same rfl rfl
  · intro env s _ _
    show Searched seen (s.runtime.taskBinding taskId) (acting.see seen (.find taskId) env s)
    cases lookup : s.runtime.taskBinding taskId <;> simp [Searched, acting, lookup, Acting.found]

variable {key : String} {program : Handler Outcome}

theorem completeContinuationWithReply_steady (config : WebConfig) (own : Own seen key)
    (taskId : TaskId) (route : DingTalkReplyRoute) (text : String) :
    Calm (completeContinuationWithReply config key taskId route text) seen := by
  apply Program.Steady.stopping (Calm.finalizeTaskResultReply config taskId route text)
  exact (completeTurn_steady own.tolerates _).bind fun _ =>
    (pruneCompletedTurnTranscript_steady own.tolerates).bind fun _ => Program.Steady.pure _

theorem handleContinuationMissingCompletedTask_steady (config : WebConfig) (own : Own seen key)
    (taskId : TaskId) (route : DingTalkReplyRoute) (text : String) :
    Calm (handleContinuationMissingCompletedTask config key taskId route text) seen := by
  unfold handleContinuationMissingCompletedTask
  split
  · exact (failTurn_steady own.tolerates _).bind fun _ => Program.Steady.pure _
  · apply Program.Steady.stopping (Calm.finalizeTaskResultReply config taskId route text)
    exact (completeTurn_steady own.tolerates _).bind fun _ => Program.Steady.pure _

theorem handleContinuationCancelledTurn_steady (config : WebConfig) (own : Own seen key)
    (taskId : TaskId) (route : DingTalkReplyRoute) :
    Calm (handleContinuationCancelledTurn config key taskId route) seen := by
  have pruned : Calm (do
      pruneCompletedTurnTranscript key
      return .ok () : Handler Outcome) seen :=
    (pruneCompletedTurnTranscript_steady own.tolerates).bind fun _ => Program.Steady.pure _
  unfold handleContinuationCancelledTurn
  split
  · exact pruned
  · refine (Calm.takeDingtalkReplyHandle taskId).bind fun handle => ?_
    exact Program.Steady.stopping (Calm.cleanupProcessingHandle route handle) pruned

theorem handleContinuationMaxStepsExceeded_steady (config : WebConfig) (own : Own seen key)
    (taskId : TaskId) (route : DingTalkReplyRoute) (completed : CompletedTask) :
    Calm (handleContinuationMaxStepsExceeded config key taskId route completed) seen :=
  (summarizeTaskResultOrFallback_steady own.tolerates config completed).bind fun _ =>
    (appendTranscriptEvent_steady own.tolerates _ _).bind fun _ =>
      completeContinuationWithReply_steady config own taskId route _

/-- The planner's steps can be executed for the session of the binding. -/
def Executable (binding : TaskContinuationBinding) (step : PlannedTurnStep) : Prop :=
  step.isLocal = true → parseDingtalkBindingSessionKey binding = binding.sessionKey

theorem continueTaskResult_keeps :
    (continueTaskResult binding).Keeps acting turnContract seen
      (fun planned after => after = seen ∧ ∀ step, planned = .ok step → Executable binding step) :=
    by
  refine Program.Keeps.update ?_ ?_
  · intro env s _ _
    exact Grants.of_same rfl rfl
  · intro env s _ expected
    exact ⟨rfl, expected⟩

theorem executeContinuationStep_stays (config : WebConfig) (taskId : TaskId)
    {step : PlannedTurnStep} (executable : Executable binding step) :
    Stays (executeContinuationStep config binding.sessionKey taskId binding step)
      (.found binding) binding.sessionKey := by
  have own : Own (.found binding) binding.sessionKey := own_found
  -- All local steps are executed alike.
  have locally : step.isLocal = true → Stays (executeContinuationStep config binding.sessionKey
      taskId binding .listInstalledSkills) (.found binding) binding.sessionKey := by
    intro isLocal
    simp only [executeContinuationStep, executable isLocal]
    refine Calm.stays (Program.Steady.stopping (Calm.executeLocalTurnStep config _ own _) ?_) own
    exact (pruneCompletedTurnTranscript_steady own.tolerates).bind fun _ => Program.Steady.pure _
  cases step with
  | finalize text =>
    refine (appendTranscriptEvent_steady own.tolerates _ _).bind fun _ => ?_
    exact (completeContinuationWithReply_steady config own taskId _ text).stays own
  | submitTask command workspacePath =>
    refine (resolveWorkspace_steady own.tolerates _ _).bind fun workspace => ?_
    cases workspace with
    | error error => exact Calm.stays (Program.Steady.pure _) own
    | ok hint =>
      dsimp only
      split
      · exact Calm.stays (Program.Steady.pure _) own
      · refine Stays.bind (Stays.dispatchTask own rfl _ _ _) fun outcome after _ own => ?_
        cases outcome with
        | error error => exact Calm.stays (Program.Steady.pure _) own
        | ok _ => exact Calm.stays (Program.Steady.pure _) own
  | executeSkill skillName input => exact locally rfl
  | listInstalledSkills => exact locally rfl
  | querySkill skillName => exact locally rfl
  | installSkill query => exact locally rfl

theorem continueTurn_owns (config : WebConfig) (result : TaskResult) :
    Owns (continueTurn config result binding) (.found binding) binding.sessionKey := by
  have own : Own (.found binding) binding.sessionKey := own_found
  refine (getCompletedTask_steady own.tolerates _).bind fun completed => ?_
  cases completed with
  | none =>
    refine (buildTaskResultReplyText_steady own.tolerates config result).bind fun text => ?_
    exact ((handleContinuationMissingCompletedTask_steady config own _ _ text).stays own).owns
  | some completed =>
    refine (appendTranscriptEvent_steady own.tolerates _ _).bind fun _ =>
      (Calm.query rfl).bind fun cancelled => ?_
    cases cancelled with
    | true => exact ((handleContinuationCancelledTurn_steady config own _ _).stays own).owns
    | false =>
      have resumed : Calm (onRuntime fun _ runtime => runtime.markTurnResuming
          binding.sessionKey (some result.taskId)) (.found binding) :=
        onRuntime_steady own.tolerates fun _ => Tame.updateTurn fun _ => rfl
      refine resumed.bind fun _ =>
        (appendTranscriptEvent_steady own.tolerates _ _).bind fun _ => ?_
      refine Program.Keeps.bind (planContinuationStepWithRetry_keeps own.tolerates config
        binding completed continueTaskResult_keeps (fun _ => nofun)) ?_
      rintro step after ⟨rfl, executable⟩
      refine (appendTranscriptEvent_steady own.tolerates _ _).bind fun _ =>
        (incrementStepCount_steady own.tolerates).bind fun turn => ?_
      cases turn with
      | none => exact (Calm.stays (Program.Steady.pure _) own).owns
      | some turn =>
        dsimp only
        split
        · exact ((handleContinuationMaxStepsExceeded_steady config own _ _ _).stays own).owns
        · exact (executeContinuationStep_stays config _ executable).owns

/-- The program keeps the contract, whatever it leaves behind. -/
def Lawful (program : Handler Outcome) (seen : Acting) : Prop :=
  program.Keeps acting turnContract seen (fun _ _ => True)

theorem Owns.lawful (owns : Owns program seen key) : Lawful program seen :=
  Program.Keeps.weaken owns fun _ _ _ => trivial

theorem Calm.lawful (steady : Calm program seen) : Lawful program seen :=
  Program.Keeps.weaken steady fun _ _ _ => trivial

theorem replyTaskResult_lawful (config : WebConfig) (result : TaskResult)
    (unbound : seen.behalf = none) : Lawful (replyTaskResult config result) seen := by
  apply Program.Keeps.bind (takeTaskBinding_keeps _)
  intro found after searched
  cases found with
  | none =>
    refine Program.Steady.bind (Calm.quiet rfl (fun _ _ => rfl)) fun route => ?_
    cases route with
    | none => exact Calm.lawful (Program.Steady.pure _)
    | some route =>
      cases searched
      have own : Own seen "" := own_of_unbound unbound _
      refine (getCompletedTask_steady own.tolerates _).bind fun _ =>
        (buildTaskResultReplyText_steady own.tolerates config result).bind fun text => ?_
      exact (Calm.finalizeTaskResultReply config _ route text).lawful
  | some binding =>
    cases searched
    exact runSerialized_keeps (continueTurn_owns config result).lawful

/-- A handler that looks a binding up and then acts on its session. -/
theorem findTaskBinding_bind_lawful (taskId : TaskId)
    {rest : Option TaskContinuationBinding → Handler Outcome} (missing : Calm (rest none) seen)
    (found : ∀ binding, Calm (rest (some binding)) (.found binding)) :
    Lawful (findTaskBinding taskId >>= rest) seen := by
  apply Program.Keeps.bind (findTaskBinding_keeps taskId)
  intro result after searched
  cases result with
  | none =>
    cases searched
    exact missing.lawful
  | some binding =>
    cases searched
    exact (found binding).lawful

theorem noteApprovalRequest_lawful (taskId : TaskId) (requestId reason : String) :
    Lawful (noteApprovalRequest taskId requestId reason) seen := by
  refine findTaskBinding_bind_lawful taskId (Program.Steady.pure _) fun binding => ?_
  refine Program.Steady.bind (onRuntime_steady own_found.tolerates
    fun _ => Tame.updateTurn fun _ => rfl) fun _ => ?_
  exact (appendTranscriptEvent_steady own_found.tolerates _ _).bind fun _ => Program.Steady.pure _

theorem noteApprovalDecision_lawful (taskId : TaskId) (approved : Bool)
    (requestId responder : String) :
    Lawful (noteApprovalDecision taskId approved requestId responder) seen := by
  refine findTaskBinding_bind_lawful taskId (Program.Steady.pure _) fun binding => ?_
  exact (appendTranscriptEvent_steady own_found.tolerates _ _).bind fun _ => Program.Steady.pure _

theorem cancelTask_lawful (taskId : TaskId) : Lawful (cancelTask taskId) seen := by
  refine findTaskBinding_bind_lawful taskId (Program.Steady.pure _) fun binding => ?_
  refine Program.Steady.bind (onRuntime_steady own_found.tolerates
    fun _ => Tame.updateTurn fun _ => rfl) fun _ => ?_
  exact (appendTranscriptEvent_steady own_found.tolerates _ _).bind fun _ => Program.Steady.pure _

theorem Spawns.lawful {config : WebConfig} (spawned : Spawns config program) :
    Lawful program acting.start := by
  cases spawned with
  | inbound inbound normalized early =>
    exact (handleDingtalkInbound_owns config inbound normalized early rfl).lawful
  | result result => exact replyTaskResult_lawful config result rfl
  | approvalRequest taskId requestId reason =>
    exact noteApprovalRequest_lawful taskId requestId reason
  | approvalDecision taskId approved requestId responder =>
    exact noteApprovalDecision_lawful taskId approved requestId responder
  | cancellation taskId => exact cancelTask_lawful taskId

end Bound

/-! ## Runs -/

abbrev TurnPool := Pool Web WebEnv Note Outcome Acting

/-- No binding of the session is outstanding and no handler but the one at `index`
still works for it. -/
structure Idle (s : TurnPool) (index : Nat) (key : String) : Prop where
  unbound : ∀ taskId binding, s.shared.runtime.taskBinding taskId = some binding →
    binding.sessionKey ≠ key
  unattended : ∀ other thread, other ≠ index → s.threads[other]? = some thread →
    thread.program.isDone = false → ∀ turnId, thread.seen.focus ≠ some (key, turnId)

/-- A turn starts only in an idle session, and a local continuation is planned only
for a binding whose session key it can rebuild. -/
def Undisturbed (s : TurnPool) : PoolLabel Web WebEnv Note Outcome → Prop
  | .run index env => ∀ note ready act next seen,
      s.threads[index]? = some ⟨.act note ready act next, seen⟩ →
      ExpectedPlan note env ∧ ∀ key, note = .start key → Idle s index key
  | _ => True

/-- Every binding and every unfinished handler belongs to the current turn of its session. -/
structure Orderly (s : TurnPool) : Prop where
  bindings : ∀ taskId binding, s.shared.runtime.taskBinding taskId = some binding →
    s.shared.currentTurn binding.sessionKey = some binding.turnId
  lawful : ∀ thread ∈ s.threads, Lawful thread.program thread.seen
  relies : ∀ (index : Nat) (thread : Thread Web WebEnv Note Outcome Acting),
    s.threads[index]? = some thread → thread.program.isDone = false →
    Relies thread.seen s.shared

section Step

variable {s t : Web} {seen : Acting} {note : Note} {env : WebEnv}

/-- An action leaves its own handler with what it relies on. -/
theorem Grants.relies_after (granted : Grants seen note env s t) (relied : Relies seen s)
    (bindings : ∀ taskId binding, s.runtime.taskBinding taskId = some binding →
      s.currentTurn binding.sessionKey = some binding.turnId) :
    Relies (acting.see seen note env s) t := by
  have kept : (∀ key, note ≠ .start key) → Relies seen t := by
    intro unstarted
    refine ⟨?_, relied.behalf⟩
    intro key turnId focus
    rw [granted.ids key (unstarted key)]
    exact relied.current key turnId focus
  have searched : ∀ taskId, (∀ key, note ≠ .start key) →
      Relies (match s.runtime.taskBinding taskId with
        | some binding => ⟨some (binding.sessionKey, binding.turnId), some binding⟩
        | none => seen) t := by
    intro taskId unstarted
    split
    · next binding found =>
        refine ⟨?_, ?_⟩
        · rintro key turnId focus
          cases focus
          rw [granted.ids _ (unstarted _)]
          exact bindings taskId binding found
        · rintro other behalf
          cases behalf
          rfl
    · exact kept unstarted
  by_cases marked : note.marks = true
  · cases note with
    | start key =>
      obtain ⟨unbound, current⟩ := granted.started key rfl
      refine ⟨?_, ?_⟩
      · rintro other turnId focus
        cases focus
        exact current
      · intro binding behalf
        have none : seen.behalf = some binding := behalf
        rw [unbound] at none
        cases none
    | take taskId => exact searched taskId nofun
    | find taskId => exact searched taskId nofun
    | bind taskId binding =>
      obtain ⟨current, behalf⟩ := kept nofun
      refine ⟨current, ?_⟩
      intro other first
      obtain before | ⟨-, made⟩ := Option.or_eq_some_iff.mp first
      · exact behalf other before
      · cases made
        exact granted.bound taskId binding rfl
    | _ => cases marked
  · rw [acting_see_of_unmarked (by simpa using marked)]
    apply kept
    rintro key rfl
    exact marked rfl

/-- An action leaves every session alone that no turn starts in. -/
theorem Grants.relies_other {other : Acting} (granted : Grants seen note env s t)
    (relied : Relies other s)
    (apart : ∀ key turnId, other.focus = some (key, turnId) → note ≠ .start key) :
    Relies other t := by
  refine ⟨?_, relied.behalf⟩
  intro key turnId focus
  rw [granted.ids key (apart key turnId focus)]
  exact relied.current key turnId focus

theorem Grants.bindings_after (granted : Grants seen note env s t) (relied : Relies seen s)
    (bindings : ∀ taskId binding, s.runtime.taskBinding taskId = some binding →
      s.currentTurn binding.sessionKey = some binding.turnId)
    (apart : ∀ taskId binding, s.runtime.taskBinding taskId = some binding →
      note ≠ .start binding.sessionKey)
    {taskId : TaskId} {binding : TaskContinuationBinding}
    (found : t.runtime.taskBinding taskId = some binding) :
    t.currentTurn binding.sessionKey = some binding.turnId := by
  obtain before | rfl := granted.bindings taskId binding found
  · rw [granted.ids _ (apart taskId binding before)]
    exact bindings taskId binding before
  · rw [granted.ids _ nofun]
    exact relied.current _ _ (granted.bound taskId binding rfl)

end Step

section Reachable

variable {config : WebConfig} {s t : TurnPool}

theorem Orderly.init (start : ((system config acting).restrict Undisturbed).Init s) :
    Orderly s := by
  obtain ⟨nobody, empty⟩ := start
  refine ⟨?_, ?_, ?_⟩
  · intro taskId binding found
    rw [empty] at found
    cases found
  · intro thread member
    rw [nobody] at member
    cases member
  · intro index thread here
    rw [nobody] at here
    cases here

theorem relies_start (s : Web) : Relies acting.start s := by
  refine ⟨?_, ?_⟩
  · intro key turnId focus
    cases focus
  · intro binding behalf
    cases behalf

theorem Orderly.spawn (orderly : Orderly s) {program : Handler Outcome}
    (spawned : Spawns config program) :
    Orderly { s with threads := s.threads ++ [⟨program, acting.start⟩] } := by
  refine ⟨orderly.bindings, ?_, ?_⟩
  · intro thread member
    obtain old | new := List.mem_append.mp member
    · exact orderly.lawful thread old
    · cases List.mem_singleton.mp new
      exact spawned.lawful
  · intro index thread here unfinished
    rw [List.getElem?_append] at here
    split at here
    · exact orderly.relies index thread here unfinished
    · cases List.mem_singleton.mp (List.mem_of_getElem? here)
      exact relies_start s.shared

theorem Orderly.background (orderly : Orderly s) {shared : Web}
    (recorded : Completes s.shared shared) : Orderly { s with shared } := by
  obtain ⟨completed, rfl⟩ := recorded
  refine ⟨orderly.bindings, orderly.lawful, ?_⟩
  intro index thread here unfinished
  obtain ⟨current, behalf⟩ := orderly.relies index thread here unfinished
  exact ⟨current, behalf⟩

section Run

variable {index : Nat} {env : WebEnv} {note : Note} {ready : Web → Bool} {act : WebEnv → Web → Web}
  {next : WebEnv → Web → Handler Outcome} {seen : Acting}

/-- What a handler's next action does, in an orderly pool. -/
theorem Orderly.granted (orderly : Orderly s)
    (here : s.threads[index]? = some ⟨.act note ready act next, seen⟩)
    (enabled : ready s.shared = true) (expected : ExpectedPlan note env) :
    Grants seen note env s.shared (act env s.shared) ∧
      Lawful (next env s.shared) (acting.see seen note env s.shared) :=
  (orderly.lawful _ (List.mem_of_getElem? here)).2 env s.shared enabled
    (orderly.relies index _ here rfl) expected

theorem Orderly.run (orderly : Orderly s)
    (here : s.threads[index]? = some ⟨.act note ready act next, seen⟩)
    (enabled : ready s.shared = true) (undisturbed : Undisturbed s (.run index env)) :
    Orderly { shared := act env s.shared
              threads := s.threads.set index
                ⟨next env s.shared, acting.see seen note env s.shared⟩ } := by
  obtain ⟨expected, idle⟩ := undisturbed note ready act next seen here
  obtain ⟨granted, lawful⟩ := orderly.granted here enabled expected
  have relied : Relies seen s.shared := orderly.relies index _ here rfl
  refine ⟨?_, ?_, ?_⟩
  · intro taskId binding found
    refine granted.bindings_after relied orderly.bindings ?_ found
    intro other outstanding before starts
    exact (idle _ starts).unbound other outstanding before rfl
  · intro thread member
    obtain old | rfl := List.mem_or_eq_of_mem_set member
    · exact orderly.lawful thread old
    · exact lawful
  · intro other thread there unfinished
    rw [List.getElem?_set] at there
    split at there
    · split at there
      · cases there
        exact granted.relies_after relied orderly.bindings
      · cases there
    · next distinct =>
        apply granted.relies_other (orderly.relies other thread there unfinished)
        intro key turnId focus starts
        exact (idle key starts).unattended other thread (Ne.symm distinct) there unfinished turnId
          focus

end Run

theorem Orderly.step {label : PoolLabel Web WebEnv Note Outcome} (orderly : Orderly s)
    (step : ((system config acting).restrict Undisturbed).Step s label t) : Orderly t := by
  obtain ⟨undisturbed, step⟩ := step
  cases step with
  | spawn program spawned => exact orderly.spawn spawned
  | run index env note ready act next seen here enabled =>
    exact orderly.run here enabled undisturbed
  | background shared recorded => exact orderly.background recorded

theorem orderly_of_reachable (reached : ((system config acting).restrict Undisturbed).Reachable s) :
    Orderly s := by
  refine reached.invariant ?_ ?_
  · intro initial start
    exact Orderly.init start
  · intro before label after orderly step
    exact orderly.step step

/-- While turns start in idle sessions only, an action on behalf of a binding changes
the turn or the transcript of a session only if its current turn is the binding's. -/
theorem late_result_keeps_turn (config : WebConfig) (s t : TurnPool) (index : Nat) (env : WebEnv)
    (thread : Thread Web WebEnv Note Outcome Acting) (binding : TaskContinuationBinding)
    (key : String) (reached : ((system config acting).restrict Undisturbed).Reachable s)
    (step : ((system config acting).restrict Undisturbed).Step s (.run index env) t)
    (here : s.threads[index]? = some thread) (behalf : thread.seen.behalf = some binding)
    (changed : t.shared.runtime.turns.lookup key ≠ s.shared.runtime.turns.lookup key ∨
      t.shared.runtime.transcripts.lookup key ≠ s.shared.runtime.transcripts.lookup key) :
    s.shared.currentTurn key = some binding.turnId := by
  have orderly := orderly_of_reachable reached
  obtain ⟨undisturbed, step⟩ := step
  cases step with
  | run _ _ note ready act next seen there enabled =>
    rw [there] at here
    cases here
    obtain ⟨expected, -⟩ := undisturbed note ready act next seen there
    obtain ⟨granted, -⟩ := orderly.granted there enabled expected
    have relied : Relies seen s.shared := orderly.relies index _ there rfl
    have same : key = binding.sessionKey := by
      by_contra distinct
      obtain ⟨turns, transcripts⟩ := granted.untouched binding behalf key distinct
      obtain turn | transcript := changed
      · exact turn turns
      · exact transcript transcripts
    rw [same]
    exact relied.current _ _ (relied.behalf binding behalf)

end Reachable

/-! ## The sample conversation -/

/-- The first message submits a task, the scheduler records its result, the steps
`between` follow, and the handler of the result comes to the first change it makes. -/
def resultArrives (between : List (Nat × WebEnv)) : List SampleMove :=
  sampleHandlers ++ Pool.running (List.replicate 18 (0, submitEnv)) ++
    recordResult :: Pool.running (between ++ List.replicate 3 (2, finalizeEnv))

def sampleKey : String := sampleInbound.sessionKey

def sampleBinding : TaskContinuationBinding :=
  ⟨sampleKey, "turn-1", "turn-1", "agent", replyRouteFromInbound sampleInbound⟩

/-- The next step of the result's handler changes the transcript, on behalf of the
task of the first turn and while the turn `turnId` is current. -/
def touches (turnId : String) (s : TurnPool) : Bool :=
  match s.threads[(2 : Nat)]? with
  | some ⟨.act _ ready act _, seen⟩ =>
    ready s.shared && decide (seen.behalf = some sampleBinding ∧
      (act finalizeEnv s.shared).runtime.transcripts.lookup sampleKey ≠
        s.shared.runtime.transcripts.lookup sampleKey ∧
      s.shared.currentTurn sampleKey = some turnId)
  | _ => false

theorem step_of_touches {s : TurnPool} {turnId : String} (touched : touches turnId s = true) :
    ∃ t thread, (system sampleConfig acting).Step s (.run 2 finalizeEnv) t ∧
      s.threads[2]? = some thread ∧ thread.seen.behalf = some sampleBinding ∧
      t.shared.runtime.transcripts.lookup sampleKey ≠
        s.shared.runtime.transcripts.lookup sampleKey ∧
      s.shared.currentTurn sampleKey = some turnId := by
  unfold touches at touched
  split at touched
  · next note ready act next seen here =>
      obtain ⟨enabled, effects⟩ := Bool.and_eq_true_iff.mp touched
      obtain ⟨behalf, changed, current⟩ := of_decide_eq_true effects
      exact ⟨_, _, .run s 2 finalizeEnv note ready act next seen here enabled, here, behalf,
        changed, current⟩
  · cases touched

/-- Nothing starts while a binding exists or a handler works for any session, and
nothing is planned. -/
def admitsFirst (s : TurnPool) (note : Note) (_ : WebEnv) : Bool :=
  match note with
  | .start _ => decide (s.shared.runtime.taskBindings.keys = ∅) &&
      s.threads.all (fun thread => decide (thread.seen.focus = none))
  | .plan _ => false
  | _ => true

theorem undisturbed_of_admits (s : TurnPool) (index : Nat) (env : WebEnv)
    (passed : Pool.noteCheck id admitsFirst s index env = true) :
    Undisturbed s (.run index env) := by
  intro note ready act next seen here
  have admitted := Pool.admits_of_noteCheck passed here
  refine ⟨?_, ?_⟩
  · cases note with
    | plan binding => cases admitted
    | _ => trivial
  · rintro key rfl
    obtain ⟨unbound, unattended⟩ := Bool.and_eq_true_iff.mp admitted
    refine ⟨?_, ?_⟩
    · intro taskId binding found
      have member : taskId ∈ s.shared.runtime.taskBindings.keys :=
        Finmap.mem_keys.mpr (HashMap.mem_of_lookup found)
      rw [of_decide_eq_true unbound] at member
      cases member
    · intro other thread _ present _ turnId
      have unfocused := List.all_eq_true.mp unattended thread (List.mem_of_getElem? present)
      rw [of_decide_eq_true unfocused]
      nofun

/-- The result arrives while the turn of its task is current. -/
theorem late_result_keeps_turn_sample :
    ∃ s t thread, ((system sampleConfig acting).restrict Undisturbed).Reachable s ∧
      ((system sampleConfig acting).restrict Undisturbed).Step s (.run 2 finalizeEnv) t ∧
      s.threads[2]? = some thread ∧ thread.seen.behalf = some sampleBinding ∧
      t.shared.runtime.transcripts.lookup sampleKey ≠
        s.shared.runtime.transcripts.lookup sampleKey ∧
      s.shared.currentTurn sampleKey = some sampleBinding.turnId := by
  obtain ⟨s, reached, undisturbed, touched⟩ := (Pool.checked (samplePlayer acting) _
    undisturbed_of_admits (fun _ _ => trivial) fun _ _ => trivial).exists_reachable
    emptyPool_reachable (resultArrives [])
    (fun s => Pool.noteCheck id admitsFirst s 2 finalizeEnv = true ∧ touches "turn-1" s = true)
    (by decide)
  obtain ⟨t, thread, step, here, behalf, changed, -⟩ := step_of_touches touched
  have step : ((system sampleConfig acting).restrict Undisturbed).Step s (.run 2 finalizeEnv) t :=
    ⟨undisturbed_of_admits s 2 finalizeEnv undisturbed, step⟩
  exact ⟨s, t, thread, reached, step, here, behalf, changed,
    late_result_keeps_turn _ s t 2 _ thread _ _ reached step here behalf (.inr changed)⟩

/-- The second message starts a turn before the result of the first one's task arrives. -/
theorem late_result_touches_next_turn :
    ∃ s t thread, (system sampleConfig acting).Reachable s ∧
      (system sampleConfig acting).Step s (.run 2 finalizeEnv) t ∧
      s.threads[2]? = some thread ∧ thread.seen.behalf = some sampleBinding ∧
      t.shared.runtime.transcripts.lookup sampleKey ≠
        s.shared.runtime.transcripts.lookup sampleKey ∧
      s.shared.currentTurn sampleKey ≠ some sampleBinding.turnId := by
  obtain ⟨s, reached, touched⟩ := (samplePlayer acting).any.exists_reachable emptyPool_reachable
    (resultArrives (List.replicate 11 (1, finalizeEnv))) (fun s => touches "turn-2" s = true)
    (by decide)
  obtain ⟨t, thread, step, here, behalf, changed, current⟩ := step_of_touches touched
  refine ⟨s, t, thread, reached.of_restrict, step, here, behalf, changed, ?_⟩
  rw [current]
  decide

end UHorse.Hub.DingTalk
