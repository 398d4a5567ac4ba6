import UHorse.Hub.DingTalk.Actions

/-!
# What a handler does with a task and its result

`handling` observes which message a handler works for, which binding it took, the
tasks it submitted and has bound, the reply handles it stored and took, and the
replies it sent. The contract says that these observations are all that happens
to bindings, handles and replies: an action binds the task it has just submitted
and no other, and sends what is recorded.

A `watched` handler is one whose calls succeed. Such a handler of a result ends
with one reply to the route of the binding it took, or with one task bound to the
same turn and the same route.
-/

namespace UHorse.Hub.DingTalk

open UHorse.Lib UHorse.Protocol

/-- A binding that was taken, and whether its task had a reply handle then. -/
structure Taken where
  taskId : TaskId
  binding : TaskContinuationBinding
  hadHandle : Bool
deriving DecidableEq

/-- A binding that was made, for a message or to continue the task of a binding that
was taken. -/
structure Made where
  taskId : TaskId
  binding : TaskContinuationBinding
  message : Option DingTalkInbound
  parent : Option Taken

/-- What has been seen of a handler. `unbound` and `unstored` is the task it has
submitted, until it is bound and until its handle is stored. -/
structure Handling where
  message : Option DingTalkInbound
  took : Option Taken
  session : Option String
  lane : Option String
  unbound : Option TaskId
  unstored : Option TaskId
  bound : List Made
  stored : List TaskId
  cleared : List TaskId
  locally : Bool
  sent : List (DingTalkReplyRoute × String)

/-- The task ids an action hands out. -/
def Note.draws (env : WebEnv) : Note → List TaskId
  | .submit => [env.taskId]
  | _ => []

/-- The lanes that are held after an action. -/
def Note.lanes (lanes : Finset String) : Note → Finset String
  | .lock key => insert key lanes
  | .unlock key => lanes.erase key
  | _ => lanes

section Observer

variable (capabilities : ChannelCapabilities)

/-- The replies an action sends. -/
def Note.replies (env : WebEnv) : Note → List (DingTalkReplyRoute × String)
  | .finalizeCard route text => if env.cardFinalized then [(route, text)] else []
  | .send route text => if sends capabilities route env then [(route, text)] else []
  | .sendUnlessAck route text =>
    if text ≠ processingAckText ∧ sends capabilities route env then [(route, text)] else []
  | _ => []

def handling : Observer Web WebEnv Note Handling where
  start := ⟨none, none, none, none, none, none, [], [], [], false, []⟩
  see seen note env s :=
    match note with
    | .receive inbound => { seen with message := some inbound }
    | .lock key => { seen with lane := some key }
    | .unlock _ => { seen with lane := none }
    | .start key => { seen with session := some key }
    | .take taskId =>
      let found := s.runtime.taskBinding taskId
      { seen with
        took := (found.map fun binding => ⟨taskId, binding, decide (taskId ∈ s.handles)⟩).or
          seen.took
        session := (found.map TaskContinuationBinding.sessionKey).or seen.session
        cleared := if found.isSome then [] else seen.cleared }
    | .submit => { seen with unbound := some env.taskId, unstored := some env.taskId }
    | .bind taskId binding =>
      { seen with
        unbound := none
        bound := seen.bound ++ [⟨taskId, binding, seen.message, seen.took⟩] }
    | .storeHandle taskId => { seen with unstored := none, stored := seen.stored ++ [taskId] }
    | .takeHandle taskId => { seen with cleared := seen.cleared ++ [taskId] }
    | .localStep => { seen with locally := true }
    | .finalizeCard .. | .send .. | .sendUnlessAck .. =>
      { seen with sent := seen.sent ++ note.replies capabilities env }
    | _ => seen

end Observer

/-! ## The contract -/

/-- A handler relies on the turn of its session. -/
def Attends (seen : Handling) (s : Web) : Prop :=
  ∀ key, seen.session = some key → (s.runtime.turnState key).isSome

/-- The binding leads back to the message of the handler, or to the turn of the binding
it took. -/
structure Continues (made : Made) : Prop where
  origin : made.message.isSome ∨ made.parent.isSome
  message : ∀ inbound, made.message = some inbound →
    made.binding.route = replyRouteFromInbound inbound
  parent : ∀ taken, made.parent = some taken →
    made.binding.sessionKey = taken.binding.sessionKey ∧
      made.binding.turnId = taken.binding.turnId ∧ made.binding.route = taken.binding.route

/-- What an action of its kind promises. -/
def Pledge (seen : Handling) (t : Web) : Note → Prop
  | .start key => (t.runtime.turnState key).isSome
  | .take taskId => t.runtime.taskBinding taskId = none
  | .bind taskId binding => seen.unbound = some taskId ∧
      seen.session = some binding.sessionKey ∧
        Continues ⟨taskId, binding, seen.message, seen.took⟩
  | .storeHandle taskId => seen.unstored = some taskId
  | .takeHandle taskId => taskId ∉ t.handles
  | .lock _ => seen.lane = none
  | .unlock key => seen.lane = some key
  | _ => True

structure Performs (capabilities : ChannelCapabilities) (seen : Handling) (note : Note)
    (env : WebEnv) (s t : Web) : Prop where
  pledge : Pledge seen t note
  turns : ∀ key, (s.runtime.turnState key).isSome → (t.runtime.turnState key).isSome
  bindings : ∀ taskId binding, t.runtime.taskBinding taskId = some binding →
    s.runtime.taskBinding taskId = some binding ∨ note = .bind taskId binding
  handles : ∀ taskId ∈ t.handles, taskId ∈ s.handles ∨ note = .storeHandle taskId
  drawn : t.drawn = s.drawn ++ note.draws env
  lanes : t.lanes = note.lanes s.lanes
  replies : t.replies = s.replies ++ note.replies capabilities env

/-- The channel and the local skills answer, a planned command can be carried out, and
the turn is not cancelled. -/
def Succeeds (config : WebConfig) (capabilities : ChannelCapabilities) (note : Note)
    (env : WebEnv) (s : Web) : Prop :=
  match note with
  | .send route _ => sends capabilities route env = true
  | .sendUnlessAck route text => text ≠ processingAckText ∧ sends capabilities route env = true
  | .clear => env.cleared = .ok ()
  | .localStep => ∃ text, env.localReply = .ok text
  | .workspace command workspacePath => ∃ hint,
      (workspacePath.orElse fun _ => env.defaultWorkspaceRoot) = some hint ∧
        config.validatePlannedCommand command hint = .ok ()
  | .checkCancelled key =>
    (s.runtime.turnState key).any (fun turn => turn.cancelRequested) = false
  | _ => True

/-- A handler waits for the lane of a session only, and while it holds none itself. -/
def Waits (seen : Handling) (note : Note) (s : Web) : Prop :=
  ∃ key, note = .lock key ∧ key ∈ s.lanes ∧ seen.lane = none

def replyContract (config : WebConfig) (capabilities : ChannelCapabilities) (watched : Prop) :
    Contract Web WebEnv Note Handling where
  relies := Attends
  expects _ note env s := watched → Succeeds config capabilities note env s
  waits := Waits
  grants := Performs capabilities

/-- The actions that promise something of their own. -/
def Note.pledges : Note → Bool
  | .lock _ | .unlock _ | .start _ | .take _ | .bind .. | .storeHandle _ | .takeHandle _ => true
  | _ => false

section Actions

variable {config : WebConfig} {capabilities : ChannelCapabilities} {watched : Prop}
  {seen : Handling} {note : Note} {env : WebEnv} {s t : Web} {key : String}

theorem Performs.of_unpledged (unpledged : note.pledges = false)
    (turns : ∀ key, (s.runtime.turnState key).isSome → (t.runtime.turnState key).isSome)
    (bindings : ∀ taskId binding, t.runtime.taskBinding taskId = some binding →
      s.runtime.taskBinding taskId = some binding)
    (handles : t.handles = s.handles) (drawn : t.drawn = s.drawn ++ note.draws env)
    (lanes : t.lanes = s.lanes) (replies : t.replies = s.replies ++ note.replies capabilities env) :
    Performs capabilities seen note env s t where
  pledge := by
    cases note <;> trivial
  turns := turns
  bindings taskId binding found := .inl (bindings taskId binding found)
  handles taskId member := .inl (handles ▸ member)
  drawn := drawn
  lanes := by
    rw [lanes]
    cases note <;> first | rfl | cases unpledged
  replies := replies

/-- A promise kept without touching bindings, handles or replies. -/
theorem Performs.of_pledge (pledge : Pledge seen t note) (runtime : t.runtime = s.runtime)
    (handles : t.handles = s.handles) (drawn : t.drawn = s.drawn ++ note.draws env)
    (lanes : t.lanes = note.lanes s.lanes)
    (replies : t.replies = s.replies ++ note.replies capabilities env) :
    Performs capabilities seen note env s t where
  pledge := pledge
  turns key alive := by rwa [runtime]
  bindings taskId binding found := .inl (by rwa [runtime] at found)
  handles taskId member := .inl (handles ▸ member)
  drawn := drawn
  lanes := lanes
  replies := replies

/-- Actions that only look around or change one session perform nothing else. -/
theorem tolerates (config : WebConfig) (capabilities : ChannelCapabilities) (watched : Prop)
    (seen : Handling) (key : String) :
    Tolerates (handling capabilities) (replyContract config capabilities watched) seen key where
  unseen note env s idle := by
    cases note <;> first | rfl | cases idle
  tame note env s change routes idle tame := by
    refine .of_unpledged ?_ ?_ (tame.bindings s.runtime) rfl ?_ rfl ?_
    · cases note <;> first | rfl | cases idle
    · intro other alive
      have same := congrArg Option.isSome (tame.ids s.runtime other)
      simpa only [Option.isSome_map, alive] using same
    · cases note <;> first | exact (List.append_nil _).symm | cases idle
    · cases note <;> first | exact (List.append_nil _).symm | cases idle

/-- An action that leaves bindings and handles alone. -/
theorem update_keeps {α : Type} {run : WebEnv → Web → Web} {value : WebEnv → Web → α}
    {post : α → Handling → Prop} (unpledged : note.pledges = false)
    (runtime : ∀ env s, (run env s).runtime = s.runtime)
    (handles : ∀ env s, (run env s).handles = s.handles)
    (drawn : ∀ env s, (run env s).drawn = s.drawn ++ note.draws env)
    (lanes : ∀ env s, (run env s).lanes = s.lanes)
    (replies : ∀ env s, (run env s).replies = s.replies ++ note.replies capabilities env)
    (after : ∀ env s, Attends seen s → (watched → Succeeds config capabilities note env s) →
      post (value env s) ((handling capabilities).see seen note env s)) :
    (Program.update note run value).Keeps (handling capabilities)
      (replyContract config capabilities watched) seen post := by
  refine .update ?_ after
  intro env s _ _
  refine .of_unpledged unpledged ?_ ?_ (handles env s) (drawn env s) (lanes env s)
    (replies env s)
  · intro key alive
    rwa [runtime]
  · intro taskId binding found
    rwa [runtime] at found

theorem query_keeps {α : Type} {value : WebEnv → Web → α} {post : α → Handling → Prop}
    (unpledged : note.pledges = false) (drawn : ∀ env, note.draws env = [])
    (replies : ∀ env, note.replies capabilities env = [])
    (after : ∀ env s, Attends seen s → (watched → Succeeds config capabilities note env s) →
      post (value env s) ((handling capabilities).see seen note env s)) :
    (Program.query note value).Keeps (handling capabilities)
      (replyContract config capabilities watched) seen post := by
  refine update_keeps unpledged (fun _ _ => rfl) (fun _ _ => rfl) ?_ (fun _ _ => rfl) ?_ after
  · intro env s
    rw [drawn, List.append_nil]
  · intro env s
    rw [replies, List.append_nil]

end Actions

/-! ## Replies -/

def Handling.reply (seen : Handling) (more : List (DingTalkReplyRoute × String)) : Handling :=
  { seen with sent := seen.sent ++ more }

/-- Something may have been sent, and if all calls succeed it is this reply. -/
def Replied (watched : Prop) (seen : Handling) (route : DingTalkReplyRoute) (text : String)
    (outcome : Outcome) (after : Handling) : Prop :=
  ∃ more, after = seen.reply more ∧ (watched → outcome = .ok () ∧ more = [(route, text)])

theorem sendOutcome_of_sends {capabilities : ChannelCapabilities} {route : DingTalkReplyRoute}
    {env : WebEnv} (sent : sends capabilities route env = true) :
    sendOutcome capabilities route env = .ok () := by
  obtain ⟨resolved, delivered⟩ := Bool.and_eq_true_iff.mp sent
  rw [sendOutcome]
  rw [if_neg, if_pos delivered]
  rw [Option.isNone_iff_eq_none]
  intro missing
  rw [missing] at resolved
  cases resolved

section Replies

variable (config : WebConfig) (capabilities : ChannelCapabilities) (watched : Prop)

/-- The program keeps the contract and ends with `post`. -/
abbrev Fulfils {α : Type} (program : Handler α) (seen : Handling) (post : α → Handling → Prop) :
    Prop :=
  program.Keeps (handling capabilities) (replyContract config capabilities watched) seen post

variable {config capabilities watched} {seen : Handling} (route : DingTalkReplyRoute)
  (text : String)

/-- An action that sends the reply if it can. -/
theorem reply_keeps {α : Type} {note : Note} {can : WebEnv → Prop} [DecidablePred can]
    {value : WebEnv → Web → α} {post : α → Handling → Prop} (unpledged : note.pledges = false)
    (drawn : ∀ env, note.draws env = [])
    (replies : ∀ env, note.replies capabilities env = if can env then [(route, text)] else [])
    (after : ∀ env s, (watched → Succeeds config capabilities note env s) →
      post (value env s) ((handling capabilities).see seen note env s)) :
    Fulfils config capabilities watched
      (Program.update note (fun env s => if can env then s.reply route text else s) value) seen
      post := by
  refine update_keeps unpledged ?_ ?_ ?_ ?_ ?_ (fun env s _ => after env s)
  · intro env s
    split <;> rfl
  · intro env s
    split <;> rfl
  · intro env s
    rw [drawn, List.append_nil]
    split <;> rfl
  · intro env s
    split <;> rfl
  · intro env s
    rw [replies]
    split
    · rfl
    · exact (List.append_nil _).symm

theorem send_keeps : Fulfils config capabilities watched (send capabilities route text) seen
    (Replied watched seen route text) := by
  refine reply_keeps route text rfl (fun _ => rfl) (fun _ => rfl) ?_
  intro env s expected
  refine ⟨_, rfl, ?_⟩
  intro all
  have sent : sends capabilities route env = true := expected all
  exact ⟨sendOutcome_of_sends sent, if_pos sent⟩

theorem sendUnlessAck_keeps : Fulfils config capabilities watched
    (sendUnlessAck capabilities route text) seen (Replied watched seen route text) := by
  refine reply_keeps route text rfl (fun _ => rfl) (fun _ => rfl) ?_
  intro env s expected
  refine ⟨_, rfl, ?_⟩
  intro all
  have sent := expected all
  refine ⟨?_, if_pos sent⟩
  rw [if_pos sent.1]
  exact sendOutcome_of_sends sent.2

/-- A card that cannot be finalized sends nothing. -/
theorem finalizeAiCard_keeps : Fulfils config capabilities watched (finalizeAiCard route text) seen
    fun finalized after => after = seen.reply (if finalized then [(route, text)] else []) :=
  reply_keeps route text rfl (fun _ => rfl) (fun _ => rfl) fun _ _ _ => rfl

theorem clearProcessingAck_keeps : Fulfils config capabilities watched clearProcessingAck seen
    fun cleared after => after = seen ∧ (watched → cleared = .ok ()) := by
  refine query_keeps rfl (fun _ => rfl) (fun _ => rfl) ?_
  intro env s _ expected
  exact ⟨rfl, expected⟩

theorem sendOrFinalize_keeps (handle : Option DingTalkReplyHandle) :
    Fulfils config capabilities watched (sendOrFinalize capabilities route text handle) seen
      (Replied watched seen route text) := by
  match handle with
  | some (.aiCard _) =>
    apply Program.Keeps.bind (finalizeAiCard_keeps route text)
    rintro finalized after rfl
    cases finalized with
    | true => exact .pure ⟨_, rfl, fun _ => ⟨rfl, rfl⟩⟩
    | false =>
      have same : seen.reply [] = seen := by simp [Handling.reply]
      simp only [Bool.false_eq_true, if_false, same]
      exact send_keeps route text
  | some (.reaction _) => exact send_keeps route text
  | some (.legacyTransient _) =>
    apply Program.Keeps.bind clearProcessingAck_keeps
    rintro cleared after ⟨rfl, succeeds⟩
    cases cleared with
    | error error =>
      refine .pure ⟨[], by simp [Handling.reply], ?_⟩
      intro all
      cases succeeds all
    | ok _ => exact send_keeps route text
  | some .noop => exact sendUnlessAck_keeps route text
  | none => exact send_keeps route text

end Replies

/-! ## Bindings, handles and lanes -/

namespace Handling

def submit (seen : Handling) (taskId : TaskId) : Handling :=
  { seen with unbound := some taskId, unstored := some taskId }

def bind (seen : Handling) (taskId : TaskId) (binding : TaskContinuationBinding) : Handling :=
  { seen with
    unbound := none
    bound := seen.bound ++ [⟨taskId, binding, seen.message, seen.took⟩] }

def take (seen : Handling) (taken : Taken) : Handling :=
  { seen with
    took := some taken
    session := some taken.binding.sessionKey
    cleared := [] }

def clear (seen : Handling) (taskId : TaskId) : Handling :=
  { seen with cleared := seen.cleared ++ [taskId] }

end Handling

section Tasks

variable {config : WebConfig} {capabilities : ChannelCapabilities} {watched : Prop}
  {seen : Handling} {key turnId : String}

theorem takeDingtalkReplyHandle_keeps (taskId : TaskId) :
    Fulfils config capabilities watched (takeDingtalkReplyHandle taskId) seen
      fun _ after => after = seen.clear taskId := by
  refine .update ?_ (fun _ _ _ _ => rfl)
  intro env s _ _
  refine ⟨Finmap.notMem_erase_self, fun _ alive => alive, fun _ _ found => .inl found, ?_,
    (List.append_nil _).symm, rfl, (List.append_nil _).symm⟩
  intro other member
  exact .inl (Finmap.mem_erase.mp member).2

theorem insertDingtalkReplyHandle_keeps {taskId : TaskId} (handle : DingTalkReplyHandle)
    (owed : seen.unstored = some taskId) :
    Fulfils config capabilities watched (insertDingtalkReplyHandle taskId handle) seen
      fun _ after => after.lane = seen.lane ∧ after.took = seen.took := by
  refine .update ?_ (fun _ _ _ _ => ⟨rfl, rfl⟩)
  intro env s _ _
  refine ⟨owed, fun _ alive => alive, fun _ _ found => .inl found, ?_, (List.append_nil _).symm,
    rfl, (List.append_nil _).symm⟩
  intro other member
  obtain rfl | before := Finmap.mem_insert.mp member
  · exact .inr rfl
  · exact .inl before

theorem submitTask_keeps : Fulfils config capabilities watched submitTask seen
    fun taskId after => after = seen.submit taskId :=
  update_keeps rfl (fun _ _ => rfl) (fun _ _ => rfl) (fun _ _ => rfl) (fun _ _ => rfl)
    (fun _ _ => (List.append_nil _).symm) fun _ _ _ _ => rfl

theorem bindTaskToTurn_keeps {taskId : TaskId} {binding : TaskContinuationBinding}
    (owed : seen.unbound = some taskId) (own : seen.session = some binding.sessionKey)
    (continues : Continues ⟨taskId, binding, seen.message, seen.took⟩) :
    Fulfils config capabilities watched (bindTaskToTurn taskId binding) seen
      fun _ after => after = seen.bind taskId binding := by
  have inserted : Fulfils config capabilities watched (Program.update (.bind taskId binding)
      (fun _ s => { s with runtime := s.runtime.insertBinding taskId binding }) (fun _ _ => ()))
      seen fun _ after => after = seen.bind taskId binding := by
    refine .update ?_ (fun _ _ _ _ => rfl)
    intro env s _ _
    refine ⟨⟨owed, own, continues⟩, fun _ alive => alive, ?_, fun _ member => .inl member,
      (List.append_nil _).symm, rfl, (List.append_nil _).symm⟩
    intro other found lookup
    have lookup : (s.runtime.taskBindings.insert taskId binding).lookup other = some found :=
      lookup
    rw [HashMap.lookup_insert_ite] at lookup
    split at lookup
    · next same =>
        cases lookup
        exact .inr (by rw [same])
    · exact .inl lookup
  apply Program.Keeps.bind inserted
  rintro _ after rfl
  have turn : (onRuntime fun _ runtime => runtime.bindTurn taskId binding).Steady
      (handling capabilities) (replyContract config capabilities watched)
      (seen.bind taskId binding) :=
    onRuntime_steady (tolerates config capabilities watched _ binding.sessionKey)
      fun _ => Tame.updateTurn fun _ => rfl
  exact turn.bind fun _ => onRuntime_steady
    (tolerates config capabilities watched _ binding.sessionKey) fun _ => Tame.setTranscript

/-- The turn of the handler's session is there, so a tool call begins. -/
theorem beginToolCall_keeps (own : seen.session = some key) (toolName : String) :
    Fulfils config capabilities watched (beginToolCall key toolName) seen
      fun toolCall after => after = seen ∧ toolCall.isSome := by
  refine .update ?_ ?_
  · intro env s _ _
    exact (tolerates config capabilities watched seen key).tame .plain env s
      (fun runtime => runtime.beginToolCall key env.uuid toolName) s.routes rfl
      (Tame.updateTurn fun _ => rfl)
  · intro env s attends _
    refine ⟨rfl, ?_⟩
    rw [Option.isSome_map]
    exact attends key own

theorem incrementStepCount_keeps (own : seen.session = some key) :
    Fulfils config capabilities watched (incrementStepCount key) seen
      fun turn after => after = seen ∧ turn.isSome := by
  have tame : Tame key (fun runtime => runtime.incrementStepCount key) :=
    Tame.updateTurn fun _ => rfl
  refine .update ?_ ?_
  · intro env s _ _
    exact (tolerates config capabilities watched seen key).tame .plain env s
      (fun runtime => runtime.incrementStepCount key) s.routes rfl tame
  · intro env s attends _
    refine ⟨rfl, ?_⟩
    have same := congrArg Option.isSome (tame.ids s.runtime key)
    simpa only [Option.isSome_map, attends key own] using same

/-- A task is submitted and bound. -/
theorem dispatchTask_keeps {agentId : String} {route : DingTalkReplyRoute}
    (own : seen.session = some key)
    (continues : ∀ taskId toolCallId,
      Continues ⟨taskId, ⟨key, turnId, toolCallId, agentId, route⟩, seen.message, seen.took⟩)
    (missingTurn : String) :
    Fulfils config capabilities watched (dispatchTask key turnId agentId route missingTurn) seen
      fun outcome after => ∃ taskId toolCallId, outcome = .ok taskId ∧
        after = (seen.submit taskId).bind taskId ⟨key, turnId, toolCallId, agentId, route⟩ := by
  apply Program.Keeps.bind (beginToolCall_keeps own "hub_task")
  rintro toolCall after ⟨rfl, begun⟩
  obtain ⟨toolCallId, rfl⟩ := Option.isSome_iff_exists.mp begun
  refine (appendTranscriptEvent_steady (tolerates config capabilities watched after key) _ _).bind
    fun _ => Program.Keeps.bind submitTask_keeps ?_
  rintro taskId submitted rfl
  refine .bind (bindTaskToTurn_keeps rfl own (continues taskId toolCallId)) ?_
  rintro _ bound rfl
  exact .pure ⟨taskId, toolCallId, rfl, rfl⟩

theorem takeTaskBinding_fulfils (taskId : TaskId) :
    Fulfils config capabilities watched (takeTaskBinding taskId) seen fun found after =>
      match found with
      | some binding => ∃ hadHandle, after = seen.take ⟨taskId, binding, hadHandle⟩
      | none => after = seen := by
  refine .update ?_ ?_
  · intro env s _ _
    have tame : Tame "" (fun runtime => runtime.removeBinding (some taskId)) := Tame.removeBinding
    exact ⟨Finmap.lookup_erase _ _, fun _ alive => alive,
      fun _ _ found => .inl (tame.bindings _ _ _ found), fun _ member => .inl member,
      (List.append_nil _).symm, rfl, (List.append_nil _).symm⟩
  · intro env s _ _
    cases lookup : s.runtime.taskBinding taskId with
    | none => simp [handling, lookup]
    | some binding => exact ⟨decide (taskId ∈ s.handles), by simp [handling, lookup, Handling.take]⟩

theorem startTurn_fulfils (userMessage : String) :
    Fulfils config capabilities watched (startTurn key userMessage) seen
      fun _ after => after = { seen with session := some key } := by
  have begun : Fulfils config capabilities watched (Program.update (.start key)
      (fun env s => { s with runtime := s.runtime.startTurn key env.uuid userMessage })
      (fun env _ => env.uuid)) seen fun _ after => after = { seen with session := some key } := by
    refine .update ?_ (fun _ _ _ _ => rfl)
    intro env s _ _
    have lookup : ∀ other, (s.runtime.startTurn key env.uuid userMessage).turnState other =
        if other = key then some (SessionRuntime.newTurn env.uuid userMessage)
        else s.runtime.turnState other :=
      fun other => HashMap.lookup_insert_ite _ _ _ _
    refine ⟨?_, ?_, fun _ _ found => .inl found, fun _ member => .inl member,
      (List.append_nil _).symm, rfl, (List.append_nil _).symm⟩
    · show ((s.runtime.startTurn key env.uuid userMessage).turnState key).isSome
      rw [lookup, if_pos rfl]
      rfl
    · intro other alive
      rw [lookup]
      split
      · rfl
      · exact alive
  apply Program.Keeps.bind begun
  rintro turnId after rfl
  have transcript : (onRuntime fun env runtime =>
      runtime.startTranscript key turnId userMessage env.now).Steady (handling capabilities)
      (replyContract config capabilities watched) { seen with session := some key } :=
    onRuntime_steady (tolerates config capabilities watched _ key) fun _ => Tame.setTranscript
  exact transcript.bind fun _ => Program.Keeps.pure rfl

/-- The lane is held while the body runs. -/
theorem runSerialized_fulfils {α : Type} {body : Handler α} {post : α → Handling → Prop}
    (free : seen.lane = none)
    (keeps : Fulfils config capabilities watched body { seen with lane := some key }
      fun value after => after.lane = some key ∧ post value { after with lane := none }) :
    Fulfils config capabilities watched (runSerialized key body) seen post := by
  have acquired : Fulfils config capabilities watched (Program.await (.lock key)
      (fun s : Web => key ∉ s.lanes) (fun _ s => { s with lanes := insert key s.lanes })) seen
      fun _ after => after = { seen with lane := some key } := by
    refine .await ?_ ?_ (fun _ _ _ _ => rfl)
    · intro s taken
      exact ⟨key, rfl, by simpa using taken, free⟩
    · intro env s _ _
      exact .of_pledge free rfl rfl (List.append_nil _).symm rfl (List.append_nil _).symm
  apply Program.Keeps.bind acquired
  rintro _ after rfl
  apply Program.Keeps.bind keeps
  rintro value after ⟨held, holds⟩
  have released : Fulfils config capabilities watched (Program.update (.unlock key)
      (fun _ s => { s with lanes := s.lanes.erase key }) (fun _ _ => ())) after
      fun _ released => released = { after with lane := none } := by
    refine .update ?_ (fun _ _ _ _ => rfl)
    intro env s _ _
    exact .of_pledge held rfl rfl (List.append_nil _).symm rfl (List.append_nil _).symm
  apply Program.Keeps.bind released
  rintro _ released rfl
  exact .pure holds

end Tasks

/-! ## Messages -/

/-- Whatever has happened, the handler holds this lane and took this binding. -/
def Holds {α : Type} (lane : Option String) (took : Option Taken) (_ : α) (after : Handling) :
    Prop :=
  after.lane = lane ∧ after.took = took

section Messages

variable {config : WebConfig} {capabilities : ChannelCapabilities} {watched : Prop}
  {seen : Handling} {key turnId : String}

theorem Replied.holds {route : DingTalkReplyRoute} {text : String} {outcome : Outcome}
    {after : Handling} (replied : Replied watched seen route text outcome after) :
    Holds seen.lane seen.took outcome after := by
  obtain ⟨more, rfl, -⟩ := replied
  exact ⟨rfl, rfl⟩

theorem storeReplyHandle_keeps {taskId : TaskId} (handle : Option DingTalkReplyHandle)
    (owed : seen.unstored = some taskId) :
    Fulfils config capabilities watched (storeReplyHandle config taskId handle) seen
      (Holds seen.lane seen.took) := by
  have inserted : ∀ handle, Fulfils config capabilities watched (do
      insertDingtalkReplyHandle taskId handle
      return .ok () : Handler Outcome) seen (Holds seen.lane seen.took) := by
    intro handle
    apply Program.Keeps.bind (insertDingtalkReplyHandle_keeps handle owed)
    intro _ after same
    exact .pure same
  unfold storeReplyHandle
  split
  · exact inserted _
  · refine (query_steady (tolerates config capabilities watched seen "") rfl _).bind
      fun created => ?_
    cases created with
    | error error => exact .pure ⟨rfl, rfl⟩
    | ok handle => exact inserted handle
  · exact .pure ⟨rfl, rfl⟩

theorem submitPlannedTask_keeps {agentId : String} {route : DingTalkReplyRoute}
    (own : seen.session = some key)
    (continues : ∀ taskId toolCallId,
      Continues ⟨taskId, ⟨key, turnId, toolCallId, agentId, route⟩, seen.message, seen.took⟩)
    (command : Command) (workspacePath : Option String) (early : Option DingTalkReplyHandle) :
    Fulfils config capabilities watched
      (submitPlannedTask config key turnId agentId route command workspacePath early) seen
      (Holds seen.lane seen.took) := by
  refine (resolveWorkspace_steady (tolerates config capabilities watched seen key) _ _).bind
    fun workspace => ?_
  cases workspace with
  | error error => exact .pure ⟨rfl, rfl⟩
  | ok hint =>
    dsimp only
    split
    · exact .pure ⟨rfl, rfl⟩
    · apply Program.Keeps.bind (dispatchTask_keeps own continues _)
      rintro outcome after ⟨taskId, toolCallId, rfl, rfl⟩
      exact (insertDingtalkReplyRoute_steady
        (tolerates config capabilities watched _ key) taskId route).bind fun _ =>
          storeReplyHandle_keeps early rfl

variable (channel : config.channel = some capabilities)
include channel

theorem replyDirectly_keeps (route : DingTalkReplyRoute) (text : String)
    (handle : Option DingTalkReplyHandle) :
    Fulfils config capabilities watched (replyDirectly config key route text handle) seen
      (Replied watched seen route text) := by
  rw [replyDirectly]
  rw [channel]
  refine (appendTranscriptEvent_steady (tolerates config capabilities watched seen key) _ _).bind
    fun _ => (completeTurn_steady (tolerates config capabilities watched seen key) none).bind
      fun _ => ?_
  exact sendOrFinalize_keeps route text handle

/-- A local step replies with what came out of it. -/
theorem executeLocalTurnStep_keeps (route : DingTalkReplyRoute)
    (handle : Option DingTalkReplyHandle) :
    Fulfils config capabilities watched (executeLocalTurnStep config route key handle) seen
      fun outcome after => ∃ more, after = { seen with locally := true }.reply more ∧
        (watched → outcome = .ok () ∧ ∃ text, more = [(route, text)]) := by
  have performed : Fulfils config capabilities watched
      (Program.query .localStep (fun env _ => env.localReply)) seen fun outcome after =>
        after = { seen with locally := true } ∧ (watched → ∃ text, outcome = .ok text) := by
    refine query_keeps rfl (fun _ => rfl) (fun _ => rfl) ?_
    intro env s _ expected
    exact ⟨rfl, expected⟩
  apply Program.Keeps.bind performed
  rintro outcome after ⟨rfl, succeeds⟩
  cases outcome with
  | error error =>
    refine .pure ⟨[], by simp [Handling.reply], ?_⟩
    intro all
    obtain ⟨text, impossible⟩ := succeeds all
    cases impossible
  | ok text =>
    apply Program.Keeps.weaken (replyDirectly_keeps channel route text handle)
    rintro outcome after ⟨more, rfl, replied⟩
    refine ⟨more, rfl, ?_⟩
    intro all
    obtain ⟨fine, one⟩ := replied all
    exact ⟨fine, text, one⟩

theorem processDingtalkTaskSerialized_keeps (inbound : DingTalkInbound)
    (early : Option DingTalkReplyHandle) (apart : seen.took = none) :
    Fulfils config capabilities watched (processDingtalkTaskSerialized config inbound early) seen
      (Holds seen.lane seen.took) := by
  have received : Fulfils config capabilities watched
      (Program.query (.receive inbound) (fun env _ => env.agentId)) seen
      fun _ after => after = { seen with message := some inbound } :=
    query_keeps rfl (fun _ => rfl) (fun _ => rfl) fun _ _ _ _ => rfl
  apply Program.Keeps.bind received
  rintro agentId after rfl
  apply Program.Keeps.bind (startTurn_fulfils _)
  rintro turnId after rfl
  refine (query_steady (tolerates config capabilities watched _ inbound.sessionKey) rfl _).bind
    fun plan => ?_
  cases plan with
  | error error => exact .pure ⟨rfl, rfl⟩
  | ok step =>
    refine (appendTranscriptEvent_steady
      (tolerates config capabilities watched _ inbound.sessionKey) _ _).bind fun _ =>
        Program.Keeps.bind (incrementStepCount_keeps rfl) ?_
    rintro turn after ⟨rfl, present⟩
    obtain ⟨turn, rfl⟩ := Option.isSome_iff_exists.mp present
    dsimp only
    split
    · exact .weaken (replyDirectly_keeps channel _ _ _) fun _ _ => Replied.holds
    · split
      · exact .weaken (replyDirectly_keeps channel _ _ _) fun _ _ => Replied.holds
      · refine submitPlannedTask_keeps rfl ?_ _ _ _
        intro taskId toolCallId
        refine ⟨.inl rfl, ?_, ?_⟩
        · rintro other same
          cases same
          rfl
        · intro taken took
          cases apart.symm.trans took
      · apply Program.Keeps.weaken (executeLocalTurnStep_keeps channel _ _)
        rintro outcome after ⟨more, rfl, -⟩
        exact ⟨rfl, rfl⟩

theorem submitDingtalkTask_keeps (inbound : DingTalkInbound) (normalized : NormalizedInbound)
    (early : Option DingTalkReplyHandle) (apart : seen.took = none) (free : seen.lane = none) :
    Fulfils config capabilities watched (submitDingtalkTask config inbound normalized early) seen
      (Holds none none) := by
  apply runSerialized_fulfils free
  have held : ∀ body : Handler Outcome, Fulfils config capabilities watched body
      { seen with lane := some inbound.sessionKey } (Holds (some inbound.sessionKey) seen.took) →
      Fulfils config capabilities watched body { seen with lane := some inbound.sessionKey }
        fun outcome after => after.lane = some inbound.sessionKey ∧
          Holds none none outcome { after with lane := none } :=
    fun body keeps => Program.Keeps.weaken keeps fun _ _ held =>
      ⟨held.1, rfl, held.2.trans apart⟩
  cases normalized with
  | continueAsText => exact held _ (processDingtalkTaskSerialized_keeps channel inbound early apart)
  | waitForFollowUp replyText =>
    refine held _ (Program.Keeps.bind (startTurn_fulfils _) ?_)
    rintro turnId after rfl
    exact .weaken (replyDirectly_keeps channel _ _ _) fun _ _ => Replied.holds

theorem handleDingtalkInbound_keeps (inbound : DingTalkInbound) (normalized : NormalizedInbound)
    (early : Option DingTalkReplyHandle) (apart : seen.took = none) (free : seen.lane = none) :
    Fulfils config capabilities watched (handleDingtalkInbound config inbound normalized early) seen
      (Holds none none) := by
  refine .bind (submitDingtalkTask_keeps channel inbound normalized early apart free)
    ?_
  intro outcome after same
  cases outcome with
  | ok _ => exact .pure same
  | error error =>
    dsimp only
    rw [replyDingtalkError]
    rw [channel]
    have steady := tolerates config capabilities watched after inbound.sessionKey
    refine (query_steady steady rfl _).bind fun created => ?_
    cases created with
    | error error => exact .pure same
    | ok handle =>
      refine (appendTranscriptEvent_steady steady _ _).bind fun _ => ?_
      apply Program.Keeps.weaken (sendOrFinalize_keeps _ _ _)
      intro outcome last replied
      exact ⟨replied.holds.1.trans same.1, replied.holds.2.trans same.2⟩

end Messages

/-! ## Results -/

/-- One reply to the route of the binding and no task, or no reply and one task that
continues the turn. -/
def Answered (taken : Taken) (after : Handling) : Prop :=
  (∃ text, after.sent = [(taken.binding.route, text)] ∧ after.bound = [] ∧
      (taken.taskId ∈ after.cleared ∨ after.locally = true)) ∨
    ∃ made, after.bound = [made] ∧ made.parent = some taken ∧ Continues made ∧ after.sent = []

/-- A handler that has just taken a binding. -/
structure Begun (taken : Taken) (seen : Handling) : Prop where
  took : seen.took = some taken
  session : seen.session = some taken.binding.sessionKey
  message : seen.message = none
  bound : seen.bound = []
  sent : seen.sent = []

/-- If all calls succeed, the result is answered. -/
def Concludes (watched : Prop) (taken : Taken) (lane : Option String) (outcome : Outcome)
    (after : Handling) : Prop :=
  after.lane = lane ∧ after.took = some taken ∧
    (watched → outcome = .ok () ∧ Answered taken after)

section Results

variable {config : WebConfig} {capabilities : ChannelCapabilities} {watched : Prop}
  {seen : Handling} {key : String} {taken : Taken}

theorem Begun.concludes (begun : Begun taken seen) {text : String} {outcome : Outcome}
    {after : Handling}
    (replied : Replied watched (seen.clear taken.taskId) taken.binding.route text outcome after) :
    Concludes watched taken seen.lane outcome after := by
  obtain ⟨more, rfl, answered⟩ := replied
  refine ⟨rfl, begun.took, ?_⟩
  intro all
  obtain ⟨fine, rfl⟩ := answered all
  refine ⟨fine, .inl ⟨text, ?_, begun.bound, .inl ?_⟩⟩
  · simp [Handling.reply, Handling.clear, begun.sent]
  · simp [Handling.reply, Handling.clear]

/-- What is planned as a command can be submitted. -/
theorem resolveWorkspace_keeps (command : Command) (workspacePath : Option String) :
    Fulfils config capabilities watched (resolveWorkspace command workspacePath) seen
      fun workspace after => after = seen ∧ (watched → ∃ hint, workspace = .ok hint ∧
        config.validatePlannedCommand command hint = .ok ()) := by
  refine query_keeps rfl (fun _ => rfl) (fun _ => rfl) ?_
  intro env s _ expected
  refine ⟨rfl, ?_⟩
  intro all
  obtain ⟨hint, resolved, valid⟩ := expected all
  refine ⟨hint, ?_, valid⟩
  rw [resolved]

theorem cleanupProcessingHandle_keeps (route : DingTalkReplyRoute)
    (handle : Option DingTalkReplyHandle) :
    Fulfils config capabilities watched (cleanupProcessingHandle route handle) seen
      (Holds seen.lane seen.took) := by
  match handle with
  | some (.aiCard _) =>
    apply Program.Keeps.bind (finalizeAiCard_keeps route cancelledText)
    rintro finalized after rfl
    exact .pure ⟨rfl, rfl⟩
  | some (.legacyTransient _) =>
    apply Program.Keeps.weaken clearProcessingAck_keeps
    rintro cleared after ⟨rfl, -⟩
    exact ⟨rfl, rfl⟩
  | some (.reaction _) => exact .pure ⟨rfl, rfl⟩
  | some .noop => exact .pure ⟨rfl, rfl⟩
  | none => exact .pure ⟨rfl, rfl⟩

variable (channel : config.channel = some capabilities)
include channel

theorem finalizeTaskResultReply_keeps (taskId : TaskId) (route : DingTalkReplyRoute)
    (text : String) :
    Fulfils config capabilities watched (finalizeTaskResultReply config taskId route text) seen
      (Replied watched (seen.clear taskId) route text) := by
  rw [finalizeTaskResultReply]
  rw [channel]
  apply Program.Keeps.bind (takeDingtalkReplyHandle_keeps taskId)
  rintro handle after rfl
  exact sendOrFinalize_keeps route text handle

theorem completeContinuationWithReply_keeps (taskId : TaskId) (route : DingTalkReplyRoute)
    (text : String) :
    Fulfils config capabilities watched (completeContinuationWithReply config key taskId route text)
      seen (Replied watched (seen.clear taskId) route text) := by
  refine stopping_keeps (finalizeTaskResultReply_keeps channel taskId route text)
    (fun _ _ replied => replied) ?_
  intro after replied
  have steady := tolerates config capabilities watched after key
  exact (completeTurn_steady steady _).bind fun _ =>
    (pruneCompletedTurnTranscript_steady steady).bind fun _ => Program.Keeps.pure replied

theorem handleContinuationMissingCompletedTask_keeps (taskId : TaskId)
    (route : DingTalkReplyRoute) (text : String) :
    Fulfils config capabilities watched
      (handleContinuationMissingCompletedTask config key taskId route text) seen
      (Replied watched (seen.clear taskId) route text) := by
  rw [handleContinuationMissingCompletedTask]
  rw [channel]
  refine stopping_keeps (finalizeTaskResultReply_keeps channel taskId route text)
    (fun _ _ replied => replied) ?_
  intro after replied
  exact (completeTurn_steady (tolerates config capabilities watched after key) _).bind fun _ =>
    Program.Keeps.pure replied

theorem handleContinuationCancelledTurn_keeps (taskId : TaskId) (route : DingTalkReplyRoute) :
    Fulfils config capabilities watched
      (handleContinuationCancelledTurn config key taskId route) seen
      (Holds seen.lane seen.took) := by
  rw [handleContinuationCancelledTurn]
  rw [channel]
  apply Program.Keeps.bind (takeDingtalkReplyHandle_keeps taskId)
  rintro handle after rfl
  refine stopping_keeps (cleanupProcessingHandle_keeps route handle) (fun _ _ same => same) ?_
  intro after same
  exact (pruneCompletedTurnTranscript_steady
    (tolerates config capabilities watched after key)).bind fun _ => Program.Keeps.pure same

theorem executeContinuationStep_keeps (begun : Begun taken seen) (step : PlannedTurnStep) :
    Fulfils config capabilities watched
      (executeContinuationStep config taken.binding.sessionKey taken.taskId taken.binding step)
      seen (Concludes watched taken seen.lane) := by
  -- All local steps are executed alike.
  have locally : Fulfils config capabilities watched (executeContinuationStep config
      taken.binding.sessionKey taken.taskId taken.binding .listInstalledSkills) seen
      (Concludes watched taken seen.lane) := by
    refine stopping_keeps (executeLocalTurnStep_keeps channel _ _) ?_ ?_
    · rintro error after ⟨more, rfl, replied⟩
      refine ⟨rfl, begun.took, ?_⟩
      intro all
      cases (replied all).1
    · rintro after ⟨more, rfl, replied⟩
      refine (pruneCompletedTurnTranscript_steady
        (tolerates config capabilities watched _ taken.binding.sessionKey)).bind fun _ =>
          Program.Keeps.pure ⟨rfl, begun.took, ?_⟩
      intro all
      obtain ⟨-, text, rfl⟩ := replied all
      refine ⟨rfl, .inl ⟨text, ?_, begun.bound, .inr rfl⟩⟩
      simp [Handling.reply, begun.sent]
  cases step with
  | finalize text =>
    refine (appendTranscriptEvent_steady (tolerates config capabilities watched seen
      taken.binding.sessionKey) _ _).bind fun _ => ?_
    exact .weaken (completeContinuationWithReply_keeps channel _ _ text)
      fun _ _ => begun.concludes
  | submitTask command workspacePath =>
    apply Program.Keeps.bind (resolveWorkspace_keeps command workspacePath)
    rintro workspace after ⟨rfl, resolves⟩
    cases workspace with
    | error error =>
      refine .pure ⟨rfl, begun.took, ?_⟩
      intro all
      obtain ⟨hint, impossible, -⟩ := resolves all
      cases impossible
    | ok hint =>
      dsimp only
      split
      · next error invalid =>
          refine .pure ⟨rfl, begun.took, ?_⟩
          intro all
          obtain ⟨_, same, valid⟩ := resolves all
          cases same
          cases invalid.symm.trans valid
      · have continues : ∀ taskId toolCallId, Continues ⟨taskId, ⟨taken.binding.sessionKey,
            taken.binding.turnId, toolCallId, taken.binding.agentId, taken.binding.route⟩,
            after.message, after.took⟩ := by
          intro taskId toolCallId
          refine ⟨.inr ?_, ?_, ?_⟩
          · rw [begun.took]
            rfl
          · intro inbound message
            cases begun.message.symm.trans message
          · intro other took
            cases begun.took.symm.trans took
            exact ⟨rfl, rfl, rfl⟩
        apply Program.Keeps.bind (dispatchTask_keeps begun.session continues _)
        rintro outcome last ⟨taskId, toolCallId, rfl, rfl⟩
        refine .pure ⟨rfl, begun.took, fun _ => ⟨rfl, .inr ⟨_, ?_, begun.took,
          continues taskId toolCallId, begun.sent⟩⟩⟩
        simp [Handling.bind, Handling.submit, begun.bound]
  | executeSkill skillName input => exact locally
  | listInstalledSkills => exact locally
  | querySkill skillName => exact locally
  | installSkill query => exact locally

theorem continueTurn_keeps (begun : Begun taken seen) (result : TaskResult)
    (same : result.taskId = taken.taskId) :
    Fulfils config capabilities watched (continueTurn config result taken.binding) seen
      (Concludes watched taken seen.lane) := by
  have steady := tolerates config capabilities watched seen taken.binding.sessionKey
  rw [continueTurn]
  rw [same]
  refine (getCompletedTask_steady steady _).bind fun completed => ?_
  cases completed with
  | none =>
    refine (buildTaskResultReplyText_steady steady config result).bind fun text => ?_
    exact .weaken (handleContinuationMissingCompletedTask_keeps channel _ _ text)
      fun _ _ => begun.concludes
  | some completed =>
    have checked : Fulfils config capabilities watched
        (Program.query (.checkCancelled taken.binding.sessionKey) (fun _ s =>
          (s.runtime.turnState taken.binding.sessionKey).any (fun turn => turn.cancelRequested)))
        seen fun cancelled after => after = seen ∧ (watched → cancelled = false) := by
      refine query_keeps rfl (fun _ => rfl) (fun _ => rfl) ?_
      intro env s _ expected
      exact ⟨rfl, expected⟩
    refine (appendTranscriptEvent_steady steady _ _).bind fun _ => Program.Keeps.bind checked ?_
    rintro cancelled after ⟨rfl, active⟩
    cases cancelled with
    | true =>
      apply Program.Keeps.weaken (handleContinuationCancelledTurn_keeps channel _ _)
      intro outcome last held
      refine ⟨held.1, held.2.trans begun.took, ?_⟩
      intro all
      cases active all
    | false =>
      have resumed : (onRuntime fun _ runtime => runtime.markTurnResuming
          taken.binding.sessionKey (some taken.taskId)).Steady (handling capabilities)
          (replyContract config capabilities watched) after :=
        onRuntime_steady steady fun _ => Tame.updateTurn fun _ => rfl
      refine resumed.bind fun _ => (appendTranscriptEvent_steady steady _ _).bind fun _ => ?_
      have planned : (continueTaskResult taken.binding).Keeps (handling capabilities)
          (replyContract config capabilities watched) after
          (fun result last => last = after ∧ ∀ step, result = .ok step → True) :=
        Program.Keeps.weaken (query_steady steady rfl _)
          fun _ _ unchanged => ⟨unchanged, fun _ _ => trivial⟩
      refine .bind (planContinuationStepWithRetry_keeps steady config taken.binding
        completed planned (fun _ => trivial)) ?_
      rintro step last ⟨rfl, -⟩
      refine (appendTranscriptEvent_steady steady _ _).bind fun _ =>
        Program.Keeps.bind (incrementStepCount_keeps begun.session) ?_
      rintro turn last ⟨rfl, present⟩
      obtain ⟨turn, rfl⟩ := Option.isSome_iff_exists.mp present
      dsimp only
      split
      · refine (summarizeTaskResultOrFallback_steady steady config completed).bind fun text =>
          (appendTranscriptEvent_steady steady _ _).bind fun _ => ?_
        exact .weaken (completeContinuationWithReply_keeps channel _ _ text)
          fun _ _ => begun.concludes
      · exact executeContinuationStep_keeps channel begun step

end Results

/-! ## Whole handlers -/

/-- A handler ends without a lane, and with an answer if it took a binding and all its calls
succeed. -/
def Ends (watched : Prop) (outcome : Outcome) (after : Handling) : Prop :=
  after.lane = none ∧
    ∀ taken, after.took = some taken → watched → outcome = .ok () ∧ Answered taken after

section Handlers

variable {config : WebConfig} {capabilities : ChannelCapabilities} {watched : Prop}

theorem Holds.ends {outcome : Outcome} {after : Handling} (held : Holds none none outcome after) :
    Ends watched outcome after := by
  refine ⟨held.1, ?_⟩
  intro taken took
  cases held.2.symm.trans took

theorem ends_start (outcome : Outcome) :
    Ends watched outcome (handling capabilities).start :=
  Holds.ends ⟨rfl, rfl⟩

theorem replyTaskResult_keeps (channel : config.channel = some capabilities)
    (result : TaskResult) :
    Fulfils config capabilities watched (replyTaskResult config result)
      (handling capabilities).start (Ends watched) := by
  apply Program.Keeps.bind (takeTaskBinding_fulfils result.taskId)
  intro found after searched
  cases found with
  | none =>
    cases searched
    have steady := tolerates config capabilities watched (handling capabilities).start ""
    refine (takeDingtalkReplyRoute_steady steady _).bind fun route => ?_
    cases route with
    | none => exact .pure (ends_start _)
    | some route =>
      refine (getCompletedTask_steady steady _).bind fun _ =>
        (buildTaskResultReplyText_steady steady config result).bind fun text => ?_
      apply Program.Keeps.weaken (finalizeTaskResultReply_keeps channel _ route text)
      intro outcome after replied
      exact replied.holds.ends
  | some binding =>
    obtain ⟨hadHandle, rfl⟩ := searched
    apply runSerialized_fulfils rfl
    have begun : Begun ⟨result.taskId, binding, hadHandle⟩
        { (handling capabilities).start.take ⟨result.taskId, binding, hadHandle⟩ with
          lane := some binding.sessionKey } := ⟨rfl, rfl, rfl, rfl, rfl⟩
    apply Program.Keeps.weaken (continueTurn_keeps channel begun result rfl)
    rintro outcome after ⟨held, took, answered⟩
    refine ⟨held, rfl, ?_⟩
    intro taken same all
    cases took.symm.trans same
    exact answered all

/-- A handler that looks a binding up and changes its session only. -/
theorem findTaskBinding_bind_keeps (taskId : TaskId)
    {rest : Option TaskContinuationBinding → Handler Outcome}
    (steady : ∀ found, (rest found).Steady (handling capabilities)
      (replyContract config capabilities watched) (handling capabilities).start) :
    Fulfils config capabilities watched (findTaskBinding taskId >>= rest)
      (handling capabilities).start (Ends watched) := by
  have looked : (findTaskBinding taskId).Steady (handling capabilities)
      (replyContract config capabilities watched) (handling capabilities).start :=
    query_keeps rfl (fun _ => rfl) (fun _ => rfl) fun _ _ _ _ => rfl
  refine looked.bind fun found => Program.Keeps.weaken (steady found) ?_
  rintro outcome after rfl
  exact ends_start outcome

theorem Spawns.ends (channel : config.channel = some capabilities) {program : Handler Outcome}
    (spawned : Spawns config program) :
    Fulfils config capabilities watched program (handling capabilities).start (Ends watched) := by
  have steady := tolerates config capabilities watched (handling capabilities).start
  cases spawned with
  | inbound inbound normalized early =>
    exact .weaken (handleDingtalkInbound_keeps channel inbound normalized early rfl
      rfl) fun _ _ => Holds.ends
  | result result => exact replyTaskResult_keeps channel result
  | approvalRequest taskId requestId reason =>
    refine findTaskBinding_bind_keeps taskId fun found => ?_
    cases found with
    | none => exact .pure _
    | some binding =>
      refine .bind (onRuntime_steady (steady binding.sessionKey)
        fun _ => Tame.updateTurn fun _ => rfl) fun _ => ?_
      exact (appendTranscriptEvent_steady (steady binding.sessionKey) _ _).bind fun _ =>
        Program.Steady.pure _
  | approvalDecision taskId approved requestId responder =>
    refine findTaskBinding_bind_keeps taskId fun found => ?_
    cases found with
    | none => exact .pure _
    | some binding =>
      exact (appendTranscriptEvent_steady (steady binding.sessionKey) _ _).bind fun _ =>
        Program.Steady.pure _
  | cancellation taskId =>
    refine findTaskBinding_bind_keeps taskId fun found => ?_
    cases found with
    | none => exact .pure _
    | some binding =>
      refine .bind (onRuntime_steady (steady binding.sessionKey)
        fun _ => Tame.updateTurn fun _ => rfl) fun _ => ?_
      exact (appendTranscriptEvent_steady (steady binding.sessionKey) _ _).bind fun _ =>
        Program.Steady.pure _

end Handlers

end UHorse.Hub.DingTalk
