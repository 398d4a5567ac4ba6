import UHorse.Agent.SessionKey
import UHorse.Hub.DingTalk.Staging

/-!
# The session of a continuation

A continuation rebuilds the session key of its task from the reply route in the
binding, which has neither the team of the message nor its channel user. Every
binding leads back to a message that was received, so the rebuilt key is the
binding's exactly for messages whose key the route determines.
-/

namespace UHorse.Hub.DingTalk

open UHorse.Lib UHorse.Protocol

/-! ## Session keys -/

/-- `build_dingtalk_session_key` before it is printed. -/
def dingtalkSessionKey (fallbackUserId : String)
    (senderUserId senderStaffId senderCorpId : Option String) : Agent.SessionKey :=
  let channelUserId :=
    ((nonEmpty senderUserId).orElse fun _ => nonEmpty senderStaffId).getD fallbackUserId
  match nonEmpty senderCorpId with
  | some teamId => .withTeam "dingtalk" channelUserId teamId
  | none => .new "dingtalk" channelUserId

/-- The route of the message determines its session key: the sender is named and has no
team, or the conversation is named like the channel user, with the team if there is one. -/
def Rebuildable (inbound : DingTalkInbound) : Prop :=
  match (nonEmpty inbound.senderUserId).orElse fun _ => nonEmpty inbound.senderStaffId with
  | some _ => nonEmpty inbound.senderCorpId = none
  | none => inbound.conversationId = inbound.channelUserId ++
      ((nonEmpty inbound.senderCorpId).map fun teamId => ":" ++ teamId).getD ""

theorem ne_append_team (user teamId : String) : user ≠ user ++ ":" ++ teamId := by
  intro same
  have lengths := congrArg (fun text => text.toList.length) same
  simp only [String.toList_append, List.length_append] at lengths
  have colon : ":".toList.length = 1 := rfl
  omega

/-- The key rebuilt from the route of a message is the key of the message. -/
theorem rebuilt_eq_iff (inbound : DingTalkInbound) :
    buildDingtalkSessionKey inbound.conversationId inbound.senderUserId inbound.senderStaffId
      none = inbound.sessionKey ↔ Rebuildable inbound := by
  unfold DingTalkInbound.sessionKey buildDingtalkSessionKey Rebuildable
  have teamless : nonEmpty none = none := rfl
  rw [teamless]
  dsimp only
  cases (nonEmpty inbound.senderUserId).orElse fun _ => nonEmpty inbound.senderStaffId with
  | some user =>
    cases nonEmpty inbound.senderCorpId with
    | none => simp
    | some teamId =>
      have distinct := ne_append_team ("dingtalk:" ++ user) teamId
      simpa using distinct
  | none =>
    cases nonEmpty inbound.senderCorpId with
    | none => simp
    | some teamId => simp [String.append_assoc]

/-! ## Where bindings come from -/

/-- The messages whose handling has got to the planner. -/
def origins : Observer Web WebEnv Note (List DingTalkInbound) where
  start := []
  see seen note _ _ :=
    match note with
    | .receive inbound => seen ++ [inbound]
    | _ => seen

/-- A session key and a reply route as a message gives them. -/
def DingTalkInbound.lead (inbound : DingTalkInbound) : String × DingTalkReplyRoute :=
  (inbound.sessionKey, replyRouteFromInbound inbound)

def bindingLead (binding : TaskContinuationBinding) : String × DingTalkReplyRoute :=
  (binding.sessionKey, binding.route)

/-- The session and the route of a task that the handler may still bind. -/
def Stage.lead : Stage → Option (String × DingTalkReplyRoute)
  | received inbound => some inbound.lead
  | took _ binding | holding _ binding | recorded _ binding | uncancelled _ binding =>
    some (bindingLead binding)
  | opened source | planning source _ | counted source | calling source | submitted source _ =>
    some (source.key, source.route)
  | _ => none

section Moves

variable {stage after : Stage} {note : Note} {env : WebEnv} {s t : Web}

/-- A lead is kept, comes with a message, or is that of a stored binding. -/
theorem Move.lead (move : Move stage note env s after t) {lead : String × DingTalkReplyRoute}
    (leads : after.lead = some lead) :
    stage.lead = some lead ∨ (∃ inbound, note = .receive inbound ∧ lead = inbound.lead) ∨
      ∃ taskId binding, s.runtime.taskBinding taskId = some binding ∧
        lead = bindingLead binding := by
  cases move with
  | quiet _ _ => exact .inl leads
  | receive => exact .inr (.inl ⟨_, rfl, (Option.some.inj leads).symm⟩)
  | take found => exact .inr (.inr ⟨_, _, found, (Option.some.inj leads).symm⟩)
  | start => exact .inl leads
  | transcribe => exact .inl leads
  | hold _ => exact .inl leads
  | record _ => exact .inl leads
  | goOn _ => exact .inl leads
  | resume => exact .inl leads
  | plan _ => exact .inl leads
  | count _ _ => exact .inl leads
  | call => exact .inl leads
  | submit => exact .inl leads
  | _ => cases leads

/-- A new binding has the lead of the handler that makes it. -/
theorem Move.bindings (move : Move stage note env s after t) {taskId : TaskId}
    {binding : TaskContinuationBinding} (found : t.runtime.taskBinding taskId = some binding) :
    s.runtime.taskBinding taskId = some binding ∨ stage.lead = some (bindingLead binding) := by
  have kept : ∀ (key : String) (change : SessionTurnState → SessionTurnState),
      (s.runtime.updateTurn key change).taskBinding taskId = some binding →
      s.runtime.taskBinding taskId = some binding := by
    intro key change found
    unfold SessionRuntime.taskBinding at found ⊢
    rwa [SessionRuntime.taskBindings_updateTurn] at found
  cases move with
  | quiet _ same => exact .inl (same.bindings taskId binding found)
  | take _ => exact .inl ((Quiet.removeBinding (some _)).bindings taskId binding found)
  | takeNothing _ => exact .inl ((Quiet.removeBinding (some _)).bindings taskId binding found)
  | @bind source submitted made _ _ key _ route =>
    have lookup : (s.runtime.taskBindings.insert submitted made).lookup taskId = some binding :=
      found
    rw [HashMap.lookup_insert_ite] at lookup
    split at lookup
    · cases lookup
      refine .inr ?_
      rw [bindingLead, key, route]
      rfl
    · exact .inl lookup
  | resume => exact .inl (kept _ _ found)
  | count _ _ => exact .inl (kept _ _ found)
  | exhaust => exact .inl (kept _ _ found)
  | call => exact .inl (kept _ _ found)
  | bound => exact .inl (kept _ _ found)
  | complete => exact .inl (kept _ _ found)
  | completeOrphan => exact .inl (kept _ _ found)
  | failOrphan => exact .inl (kept _ _ found)
  | approve => exact .inl (kept _ _ found)
  | cancel => exact .inl (kept _ _ found)
  | _ => exact .inl found

/-- The binding a planner is asked about has the lead of the handler that asks. -/
theorem Move.plan_lead {binding : TaskContinuationBinding}
    (move : Move stage (.plan binding) env s after t) :
    stage.lead = some (bindingLead binding) := by
  cases move with
  | quiet ordinary _ => cases ordinary
  | plan _ => rfl

end Moves

/-- The lead is that of a message that was received. -/
def Received (crew : List (List DingTalkInbound × Stage)) (lead : String × DingTalkReplyRoute) :
    Prop :=
  ∃ member ∈ crew, ∃ inbound ∈ member.1, lead = inbound.lead

/-- Every lead, also that of a stored binding, is one of a received message. -/
structure Traced (s : Web) (crew : List (List DingTalkInbound × Stage)) : Prop where
  bindings : ∀ taskId binding, s.runtime.taskBinding taskId = some binding →
    Received crew (bindingLead binding)
  stages : ∀ member ∈ crew, ∀ lead, member.2.lead = some lead → Received crew lead

theorem Received.spawn {crew : List (List DingTalkInbound × Stage)}
    {lead : String × DingTalkReplyRoute} (received : Received crew lead)
    (more : List (List DingTalkInbound × Stage)) : Received (crew ++ more) lead := by
  obtain ⟨member, present, inbound, seen, same⟩ := received
  exact ⟨member, List.mem_append_left _ present, inbound, seen, same⟩

section Steps

variable {crew : List (List DingTalkInbound × Stage)} {index : Nat} {seen : List DingTalkInbound}
  {stage after : Stage} {note : Note} {env : WebEnv} {s t : Web}

theorem see_origins (seen : List DingTalkInbound) (note : Note) (env : WebEnv) (s : Web) :
    ∀ inbound ∈ seen, inbound ∈ origins.see seen note env s := by
  intro inbound member
  cases note <;> first | exact member | exact List.mem_append_left _ member

/-- What has been received stays received. -/
theorem Received.run {lead : String × DingTalkReplyRoute} (received : Received crew lead)
    (here : crew[index]? = some (seen, stage)) :
    Received (crew.set index (origins.see seen note env s, after)) lead := by
  obtain ⟨member, present, inbound, known, same⟩ := received
  obtain ⟨position, found⟩ := List.mem_iff_getElem?.mp present
  have inside : index < crew.length := (List.getElem?_eq_some_iff.mp here).1
  by_cases moved : position = index
  · subst moved
    rw [here] at found
    cases found
    exact ⟨_, List.mem_set inside _, inbound, see_origins seen note env s inbound known, same⟩
  · refine ⟨member, ?_, inbound, known, same⟩
    apply List.mem_iff_getElem?.mpr
    refine ⟨position, ?_⟩
    rw [List.getElem?_set_ne (Ne.symm moved), found]

theorem Traced.run (traced : Traced s crew) (here : crew[index]? = some (seen, stage))
    (move : Move stage note env s after t) :
    Traced t (crew.set index (origins.see seen note env s, after)) := by
  have member : (seen, stage) ∈ crew := List.mem_of_getElem? here
  refine ⟨?_, ?_⟩
  · intro taskId binding found
    obtain before | leads := move.bindings found
    · exact (traced.bindings taskId binding before).run here
    · exact (traced.stages _ member _ leads).run here
  · intro other present lead leads
    obtain old | rfl := List.mem_or_eq_of_mem_set present
    · exact (traced.stages other old lead leads).run here
    · obtain kept | ⟨inbound, rfl, rfl⟩ | ⟨taskId, binding, found, rfl⟩ := move.lead leads
      · exact (traced.stages _ member lead kept).run here
      · have inside : index < crew.length := (List.getElem?_eq_some_iff.mp here).1
        exact ⟨_, List.mem_set inside _, inbound, List.mem_append_right _ List.mem_cons_self, rfl⟩
      · exact (traced.bindings taskId binding found).run here

end Steps

theorem steers_traced (config : WebConfig) :
    Pool.Steers origins (Spawns config) Completes (fun s => s = .empty) (fun _ _ => True) Move
      .blank (fun s crew _ => Traced s crew) where
  start := by
    rintro s rfl
    refine ⟨?_, by simp⟩
    intro taskId binding found
    cases found
  spawn := by
    intro s crew _ program _ traced _ spawned
    obtain ⟨stage, begins, follows⟩ := spawned.follows
    refine ⟨stage, follows, ?_, ?_⟩
    · intro taskId binding found
      exact (traced.bindings taskId binding found).spawn _
    · intro member present lead leads
      obtain old | new := List.mem_append.mp present
      · exact (traced.stages member old lead leads).spawn _
      · cases List.mem_singleton.mp new
        obtain rfl | ⟨_, _, _, -, rfl⟩ := begins
        · cases leads
        · cases leads
  run := by
    intro s crew _ index env note ready act next seen stage after _ traced _ _ _ here move
    exact traced.run here move
  background := by
    rintro s crew _ shared _ traced _ ⟨completed, rfl⟩
    exact ⟨traced.bindings, traced.stages⟩

/-! ## Continuations -/

abbrev OriginPool : Type := Pool Web WebEnv Note Outcome (List DingTalkInbound)

/-- A binding a continuation may be planned for: a stored one, or one that a handler asks the
planner about. -/
def Continuable (s : OriginPool) (binding : TaskContinuationBinding) : Prop :=
  (∃ taskId, s.shared.runtime.taskBinding taskId = some binding) ∨
    ∃ index env t ready act next seen,
      s.threads[index]? = some ⟨.act (.plan binding) ready act next, seen⟩ ∧
      Pool.Step origins (fun _ => False) (fun _ _ => False) s (.run index env) t

/-- The message has been received by some handler. -/
def Arrived (s : OriginPool) (inbound : DingTalkInbound) : Prop :=
  ∃ thread ∈ s.threads, inbound ∈ thread.seen

/-- A continuation stays in the session of the message its task was submitted for exactly if
the route of the message determines its session key. -/
theorem continuation_in_session_iff (config : WebConfig) (s : OriginPool)
    (binding : TaskContinuationBinding) (reached : (system config origins).Reachable s)
    (continuable : Continuable s binding) :
    ∃ inbound, Arrived s inbound ∧ binding.sessionKey = inbound.sessionKey ∧
      binding.route = replyRouteFromInbound inbound ∧
      (parseDingtalkBindingSessionKey binding = binding.sessionKey ↔ Rebuildable inbound) := by
  obtain ⟨crew, -, staged, traced⟩ := (steers_traced config).of_reachable reached.restrict_true
  have known : Received crew (bindingLead binding) := by
    obtain ⟨taskId, stored⟩ | ⟨index, env, t, ready, act, next, seen, here, step⟩ := continuable
    · exact traced.bindings taskId binding stored
    · cases step with
      | run _ _ note ready act next seen there enabled =>
        rw [here] at there
        cases there
        obtain ⟨stage, after, member, move, -⟩ :=
          staged.move origins here enabled env
        exact traced.stages _ (List.mem_of_getElem? member) _ move.plan_lead
  obtain ⟨member, present, inbound, seen, same⟩ := known
  obtain ⟨index, found⟩ := List.mem_iff_getElem?.mp present
  obtain ⟨thread, here, kept⟩ := staged.thread found
  obtain ⟨key, route⟩ := Prod.mk.inj same
  refine ⟨inbound, ⟨thread, List.mem_of_getElem? here, kept ▸ seen⟩, key, route, ?_⟩
  rw [← rebuilt_eq_iff, ← key, parseDingtalkBindingSessionKey, route]
  rfl

/-! ### A message that is planned into a task -/

def originPlayer : (system sampleConfig origins).Player SampleMove := samplePlayer origins

/-- The message is handled until its task is bound, if the binding satisfies `holds`. -/
theorem continuable_of_asked (inbound : DingTalkInbound) (holds : TaskContinuationBinding → Bool)
    (evaluated : (originPlayer.play emptyPool
      (.spawn _ (.inbound inbound .continueAsText none) ::
        Pool.running (List.replicate 12 (0, submitEnv)))).any (fun s =>
          (s.shared.runtime.taskBinding ⟨"task-1"⟩).any holds) = true) :
    ∃ s binding, (system sampleConfig origins).Reachable s ∧ Continuable s binding ∧
      holds binding = true := by
  obtain ⟨s, played, bound⟩ := (Option.any_eq_true _ _).mp evaluated
  obtain ⟨labels, run⟩ := originPlayer.exec_play played
  obtain ⟨binding, stored, held⟩ := (Option.any_eq_true _ _).mp bound
  have start : (system sampleConfig origins).Reachable emptyPool := .init ⟨rfl, rfl⟩
  exact ⟨s, binding, start.exec run, .inl ⟨_, stored⟩, held⟩

/-- The sender of the sample message has no team. -/
theorem continuation_in_session_sample :
    ∃ s binding inbound, (system sampleConfig origins).Reachable s ∧ Continuable s binding ∧
      Arrived s inbound ∧ binding.sessionKey = inbound.sessionKey ∧
      binding.route = replyRouteFromInbound inbound ∧
      (parseDingtalkBindingSessionKey binding = binding.sessionKey ↔ Rebuildable inbound) := by
  obtain ⟨s, binding, reached, continuable, -⟩ :=
    continuable_of_asked sampleInbound (fun _ => true) (by decide)
  obtain ⟨inbound, fits⟩ :=
    continuation_in_session_iff sampleConfig s binding reached continuable
  exact ⟨s, binding, inbound, reached, continuable, fits⟩

/-- The sender of the message belongs to an organisation. -/
theorem continuation_leaves_session :
    ∃ s binding, (system sampleConfig origins).Reachable s ∧ Continuable s binding ∧
      binding.sessionKey = "dingtalk:user:corp" ∧
      parseDingtalkBindingSessionKey binding = "dingtalk:user" := by
  obtain ⟨s, binding, reached, continuable, held⟩ := continuable_of_asked
    { sampleInbound with senderCorpId := some "corp" }
    (fun binding => decide (binding.sessionKey = "dingtalk:user:corp" ∧
      parseDingtalkBindingSessionKey binding = "dingtalk:user")) (by decide)
  exact ⟨s, binding, reached, continuable, of_decide_eq_true held⟩

end UHorse.Hub.DingTalk
