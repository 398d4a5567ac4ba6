import UHorse.Hub.ApprovalDecision

/-!
# Decisions and the messages about them

As long as a request is decided while it waits and has not expired, and its node
is there to be told, message and status agree: the flag a node receives is the
status the request ended in, no request is answered twice, and a handler fails
only for a request that is not there. Otherwise the decision may be final while
its node never hears of it, or hears that a request was approved which timed out.
-/

namespace UHorse.Hub.Approvals

open UHorse.Lib UHorse.Protocol

/-! ## What a handler relies on and grants -/

/-- A request is decided while it waits and has not expired, and its node is there and
takes the message. -/
def Admits (s : Desk) (note : Note) (env : DecisionEnv) : Prop :=
  match note with
  | .decide id _ => ∃ request, s.manager.pending.lookup id = some request ∧
      request.isExpired env.now = false
  | .findSender nodeId => nodeId ∈ s.nodeSenders
  | .send => env.delivered = true
  | _ => True

/-- The flag of an `ApprovalResponse`. -/
def approvedFlag : HubToNode → Option Bool
  | .approvalResponse _ _ approved _ _ _ => some approved
  | _ => none

/-- The request of a response has the status its flag says. -/
def Matches (manager : Security.ApprovalManager) (response : Response) : Prop :=
  ∀ approved, approvedFlag response.message = some approved →
    ∃ request, manager.history.lookup response.approvalId = some request ∧
      request.status = verdict approved

structure Relies (seen : Progress) (s : Desk) : Prop where
  tidy : Tidy s.manager
  decided : ∀ id approved, seen = .decided id approved →
    ∃ request, s.manager.history.lookup id = some request ∧ request.status = verdict approved

/-- The approvals whose nodes were told. -/
def told (s : Desk) : List String := s.sent.map Response.approvalId

structure Grants (seen : Progress) (note : Note) (env : DecisionEnv) (s t : Desk) : Prop where
  relies : Relies (progress.see seen note env s) t
  retains : Retains s.manager t.manager
  missed : ∀ id, progress.see seen note env s = .unknown id → t.manager.getRequest id = none
  answers : ∀ response ∈ t.sent, response ∈ s.sent ∨ Matches t.manager response
  balance : ∀ id, (told t).count id + tick? (progress.see seen note env s).untold id +
      s.manager.history.present id ≤
    (told s).count id + tick? seen.untold id + t.manager.history.present id

def deskContract : Contract Desk DecisionEnv Note Progress where
  relies := Relies
  expects _ note env s := Admits s note env
  waits _ _ _ := True
  grants := Grants

section Keeps

variable {seen : Progress} {note : Note} {env : DecisionEnv} {s t : Desk} {id : String}
  {approved : Bool}

theorem Matches.retain {manager manager' : Security.ApprovalManager} {response : Response}
    (agrees : Matches manager response) (retains : Retains manager manager') :
    Matches manager' response := by
  intro approved flag
  obtain ⟨request, found, status⟩ := agrees approved flag
  exact ⟨request, retains _ _ found, status⟩

theorem Retains.present_le {manager manager' : Security.ApprovalManager}
    (retains : Retains manager manager') (id : String) :
    manager.history.present id ≤ manager'.history.present id := by
  by_cases settled : id ∈ manager.history
  · obtain ⟨request, found⟩ := Finmap.mem_iff.mp settled
    have later := HashMap.mem_of_lookup (retains id request found)
    rw [HashMap.present_of_mem settled, HashMap.present_of_mem later]
  · rw [HashMap.present_eq_zero.mpr settled]
    exact Nat.zero_le _

theorem Relies.retain (relied : Relies seen s) (tidy : Tidy t.manager)
    (retains : Retains s.manager t.manager) : Relies seen t := by
  refine ⟨tidy, ?_⟩
  intro id approved decided
  obtain ⟨request, found, status⟩ := relied.decided id approved decided
  exact ⟨request, retains _ _ found, status⟩

/-- A section that leaves requests and messages alone. -/
theorem Grants.of_same (relied : Relies (progress.see seen note env s) s)
    (manager : t.manager = s.manager) (sent : t.sent = s.sent)
    (untold : (progress.see seen note env s).untold = seen.untold)
    (missed : ∀ id, progress.see seen note env s = .unknown id → s.manager.getRequest id = none) :
    Grants seen note env s t := by
  have retains : Retains s.manager t.manager := by
    rw [manager]
    exact .refl _
  refine ⟨relied.retain ?_ retains, retains, ?_, ?_, ?_⟩
  · rw [manager]
    exact relied.tidy
  · rwa [manager]
  · intro response member
    rw [sent] at member
    exact .inl member
  · intro id
    unfold told
    rw [manager, sent, untold]

/-- Sections without a note of their own, while a decision is to be told. -/
theorem Grants.of_work (relied : Relies (.decided id approved) s) (manager : t.manager = s.manager)
    (sent : t.sent = s.sent) : Grants (.decided id approved) .work env s t :=
  .of_same relied manager sent rfl nofun

theorem work_steady {α : Type} {run : DecisionEnv → Desk → Desk} {value : DecisionEnv → Desk → α}
    (manager : ∀ env s, (run env s).manager = s.manager)
    (sent : ∀ env s, (run env s).sent = s.sent) :
    (Program.update .work run value).Steady progress deskContract (.decided id approved) := by
  refine Program.Keeps.update ?_ ?_
  · intro env s relied _
    exact .of_work relied (manager env s) (sent env s)
  · intro env s _ _
    rfl

/-- What a handler knows of a request it has found. -/
theorem find_keeps (id : String) :
    (getRequest (.find id) id).Keeps progress deskContract .idle fun found after =>
      match found with
      | none => after = .unknown id
      | some request => after = .looking id ∧ Routed id request := by
  refine Program.Keeps.update ?_ ?_
  · intro env s relied _
    cases found : s.manager.getRequest id with
    | none =>
      have after : progress.see .idle (.find id) env s = .unknown id := by
        simp [progress, found]
      refine .of_same ⟨relied.tidy, ?_⟩ rfl rfl ?_ ?_
      · simp [after]
      · rw [after]
        rfl
      · rw [after]
        rintro other same
        cases same
        exact found
    | some request =>
      have after : progress.see .idle (.find id) env s = .looking id := by
        simp [progress, found]
      refine .of_same ⟨relied.tidy, ?_⟩ rfl rfl ?_ ?_
      · simp [after]
      · rw [after]
        rfl
      · simp [after]
  · intro env s relied _
    cases found : s.manager.getRequest id with
    | none => simp [progress, found]
    | some request =>
      refine ⟨?_, relied.tidy.getRequest_routed found⟩
      simp [progress, found]

theorem decideRequest_keeps (id : String) (payload : ApprovalDecisionPayload) (approved : Bool) :
    (decideRequest id payload approved).Keeps progress deskContract (.looking id)
      fun outcome after => outcome = .ok () ∧ after = .decided id approved := by
  refine Program.Keeps.update ?_ ?_
  · rintro env s relied ⟨request, waiting, unexpired⟩
    obtain ⟨updated, routed, status, concluded⟩ :=
      relied.tidy.conclude waiting env unexpired payload approved
    have member : id ∈ s.manager.pending := HashMap.mem_of_lookup waiting
    have after : progress.see (.looking id) (.decide id approved) env s = .decided id approved := by
      simp [progress, member]
    have retains : Retains s.manager (s.manager.settleAndForget id updated) :=
      relied.tidy.retains_settle waiting
    have settled : (s.manager.settleAndForget id updated).history.lookup id = some updated :=
      Finmap.lookup_insert _
    rw [concluded]
    refine ⟨⟨(relied.tidy.settle routed).reindex _, ?_⟩, retains, ?_, ?_, ?_⟩
    · rw [after]
      rintro other flag same
      cases same
      exact ⟨updated, settled, status⟩
    · simp [after]
    · intro response member
      exact .inl member
    · intro other
      have moved : HashMap.present (s.manager.settleAndForget id updated).history other =
          s.manager.history.present other + tick id other :=
        HashMap.present_insert (relied.tidy.disjoint id member) updated other
      rw [after, moved]
      simp only [told, Progress.untold, tick?_some, tick?_none]
      omega
  · rintro env s relied ⟨request, waiting, unexpired⟩
    obtain ⟨updated, -, -, concluded⟩ :=
      relied.tidy.conclude waiting env unexpired payload approved
    refine ⟨by rw [concluded], ?_⟩
    simp [progress, HashMap.mem_of_lookup waiting]

theorem reread_keeps (id : String) (approved : Bool) :
    (getRequest .work id).Keeps progress deskContract (.decided id approved) fun found after =>
      after = .decided id approved ∧ ∃ request, found = some request := by
  refine Program.Keeps.update ?_ ?_
  · intro env s relied _
    exact .of_work relied rfl rfl
  · intro env s relied _
    refine ⟨rfl, ?_⟩
    obtain ⟨request, settled, -⟩ := relied.decided id approved rfl
    exact ⟨request, relied.tidy.getRequest_settled settled⟩

theorem noteDecision_steady (request : Security.ApprovalRequest)
    (payload : ApprovalDecisionPayload) :
    (noteDecision request id payload approved).Steady progress deskContract
      (.decided id approved) := by
  unfold noteDecision
  split
  · exact Program.Steady.pure _
  · refine Program.Steady.bind (work_steady (fun _ _ => rfl) (fun _ _ => rfl)) fun binding => ?_
    cases binding with
    | none => exact Program.Steady.pure _
    | some binding => exact work_steady (fun _ _ => rfl) (fun _ _ => rfl)

theorem findSender_keeps (nodeId : NodeId) :
    (findSender nodeId).Keeps progress deskContract (.decided id approved) fun sender after =>
      after = .decided id approved ∧ ∃ channel, sender = some channel := by
  refine Program.Keeps.update ?_ ?_
  · intro env s relied _
    exact .of_same relied rfl rfl rfl nofun
  · intro env s _ present
    obtain ⟨channel, found⟩ := Finmap.mem_iff.mp present
    exact ⟨rfl, channel, found⟩

theorem sendToNode_keeps (nodeId : NodeId) (sender : Nat) {message : DecisionEnv → HubToNode}
    (flag : ∀ env, approvedFlag (message env) = some approved) :
    (sendToNode id nodeId sender message).Keeps progress deskContract (.decided id approved)
      fun outcome _ => outcome = .ok () := by
  refine Program.Keeps.update ?_ ?_
  · intro env s relied delivered
    have delivered : env.delivered = true := delivered
    have after : progress.see (.decided id approved) .send env s = .answered id := by
      simp [progress, delivered]
    rw [if_pos delivered]
    refine ⟨⟨relied.tidy, ?_⟩, .refl _, ?_, ?_, ?_⟩
    · simp [after]
    · simp [after]
    · intro response member
      obtain earlier | new := List.mem_append.mp member
      · exact .inl earlier
      · refine .inr ?_
        cases List.mem_singleton.mp new
        intro approved' flag'
        rw [flag env] at flag'
        cases flag'
        exact relied.decided id approved rfl
    · intro other
      have added : (told { s with sent := s.sent ++ [⟨id, sender, message env⟩] }).count other =
          (told s).count other + tick id other := by
        rw [told, List.map_append, List.map_singleton, count_append_singleton, told]
      rw [after, added]
      simp only [Progress.untold, tick?_some, tick?_none]
      omega
  · intro env s _ delivered
    have delivered : env.delivered = true := delivered
    rw [if_pos delivered]

theorem notifyNodeApprovalDecision_keeps {request : Security.ApprovalRequest}
    (routed : Routed id request) (payload : ApprovalDecisionPayload) :
    (notifyNodeApprovalDecision request payload approved).Keeps progress deskContract
      (.decided id approved) fun outcome _ => outcome = .ok () := by
  obtain ⟨nodeId, node⟩ := routed.node
  unfold notifyNodeApprovalDecision
  rw [node]
  apply Program.Keeps.bind (findSender_keeps ⟨nodeId⟩)
  rintro sender after ⟨rfl, channel, rfl⟩
  rw [routed.id]
  exact sendToNode_keeps _ channel fun _ => rfl

/-- An error is returned only for a request that is not there. -/
def Candid (answer : Answer) (after : Progress) : Prop :=
  ∀ error, answer = .error error → ∃ id, after = .unknown id

theorem decideApproval_keeps (id : String) (payload : ApprovalDecisionPayload) (approved : Bool) :
    (decideApproval id payload approved).Keeps progress deskContract .idle Candid := by
  apply Program.Keeps.bind (find_keeps id)
  intro found after known
  cases found with
  | none =>
    cases known
    exact Program.Keeps.pure fun _ _ => ⟨id, rfl⟩
  | some existing =>
    obtain ⟨rfl, routed⟩ := known
    apply Program.Keeps.bind (decideRequest_keeps id payload approved)
    rintro outcome after ⟨rfl, rfl⟩
    apply Program.Keeps.bind (reread_keeps id approved)
    rintro found after ⟨rfl, updated, rfl⟩
    refine Program.Steady.bind (noteDecision_steady existing payload) fun _ => ?_
    apply Program.Keeps.bind (notifyNodeApprovalDecision_keeps routed payload)
    rintro outcome after rfl
    exact Program.Keeps.pure nofun

end Keeps

/-! ## Runs -/

/-- Every section meets `Admits`. -/
def Attended (s : DeskPool) : PoolLabel Desk DecisionEnv Note Answer → Prop
  | .run index env => ∀ note ready act next seen,
      s.threads[index]? = some ⟨.act note ready act next, seen⟩ → Admits s.shared note env
  | _ => True

/-- The requests of the handlers that have decided and not told. -/
def untold (s : DeskPool) : List String :=
  s.threads.filterMap fun thread => thread.seen.untold

/-- Every decision is told once or still to be told by one handler. -/
structure Accounted (s : DeskPool) : Prop where
  tidy : Tidy s.shared.manager
  lawful : ∀ thread ∈ s.threads,
    thread.program.Keeps progress deskContract thread.seen Candid
  relies : ∀ thread ∈ s.threads, Relies thread.seen s.shared
  answers : ∀ response ∈ s.shared.sent, Matches s.shared.manager response
  balance : ∀ id, (told s.shared).count id + (untold s).count id ≤
    s.shared.manager.history.present id

namespace Accounted

variable {ruleEngine : Security.ApprovalRuleEngine} {s t : DeskPool}

theorem init (start : (desk ruleEngine).Init s) : Accounted s := by
  obtain ⟨nobody, manager, sent⟩ := start
  refine ⟨?_, ?_, ?_, ?_, ?_⟩
  · rw [manager]
    exact ⟨fun id waiting => absurd waiting Finmap.notMem_empty,
      by simp [Security.ApprovalManager.new], by simp [Security.ApprovalManager.new]⟩
  · simp [nobody]
  · simp [nobody]
  · simp [sent]
  · simp [told, untold, nobody, sent]

theorem spawn (accounted : Accounted s) {program : Handler Answer} (spawned : Spawns program) :
    Accounted { s with threads := s.threads ++ [⟨program, progress.start⟩] } := by
  obtain ⟨id, payload, approved, rfl⟩ := spawned
  refine ⟨accounted.tidy, ?_, ?_, accounted.answers, ?_⟩
  · intro thread member
    obtain old | new := List.mem_append.mp member
    · exact accounted.lawful thread old
    · cases List.mem_singleton.mp new
      exact decideApproval_keeps id payload approved
  · intro thread member
    obtain old | new := List.mem_append.mp member
    · exact accounted.relies thread old
    · cases List.mem_singleton.mp new
      exact ⟨accounted.tidy, nofun⟩
  · intro other
    rw [untold, count_filterMap_concat]
    exact accounted.balance other

/-- The shared state changes without a message, and nothing that is settled is touched. -/
theorem withShared (accounted : Accounted s) {shared : Desk} (sent : shared.sent = s.shared.sent)
    (tidy : Tidy shared.manager) (retains : Retains s.shared.manager shared.manager) :
    Accounted { s with shared } := by
  refine ⟨tidy, accounted.lawful, ?_, ?_, ?_⟩
  · intro thread member
    exact (accounted.relies thread member).retain tidy retains
  · intro response member
    rw [sent] at member
    exact (accounted.answers response member).retain retains
  · intro id
    have same : told shared = told s.shared := by rw [told, sent, told]
    rw [same]
    exact (accounted.balance id).trans (retains.present_le id)

theorem background (accounted : Accounted s) {shared : Desk}
    (changed : Background s.shared shared) : Accounted { s with shared } := by
  cases changed with
  | upkeep upkeep fits =>
    obtain ⟨tidy, retains⟩ := accounted.tidy.upkeep upkeep fits
    exact accounted.withShared rfl tidy retains
  | senders nodeSenders => exact accounted.withShared rfl accounted.tidy (.refl _)
  | sessions sessionRuntime => exact accounted.withShared rfl accounted.tidy (.refl _)

section Run

variable {index : Nat} {env : DecisionEnv} {note : Note} {ready : Desk → Bool}
  {act : DecisionEnv → Desk → Desk} {next : DecisionEnv → Desk → Handler Answer} {seen : Progress}

theorem granted (accounted : Accounted s)
    (here : s.threads[index]? = some ⟨.act note ready act next, seen⟩)
    (enabled : ready s.shared = true) (admitted : Admits s.shared note env) :
    Grants seen note env s.shared (act env s.shared) ∧
      (next env s.shared).Keeps progress deskContract (progress.see seen note env s.shared)
        Candid := by
  have member := List.mem_of_getElem? here
  exact (accounted.lawful _ member).2 env s.shared enabled (accounted.relies _ member) admitted

theorem run (accounted : Accounted s)
    (here : s.threads[index]? = some ⟨.act note ready act next, seen⟩)
    (enabled : ready s.shared = true) (admitted : Admits s.shared note env) :
    Accounted { shared := act env s.shared
                threads := s.threads.set index
                  ⟨next env s.shared, progress.see seen note env s.shared⟩ } := by
  obtain ⟨granted, lawful⟩ := accounted.granted here enabled admitted
  refine ⟨granted.relies.tidy, ?_, ?_, ?_, ?_⟩
  · intro thread member
    obtain old | rfl := List.mem_or_eq_of_mem_set member
    · exact accounted.lawful thread old
    · exact lawful
  · intro thread member
    obtain old | rfl := List.mem_or_eq_of_mem_set member
    · exact (accounted.relies thread old).retain granted.relies.tidy granted.retains
    · exact granted.relies
  · intro response member
    obtain old | agrees := granted.answers response member
    · exact (accounted.answers response old).retain granted.retains
    · exact agrees
  · intro id
    have before := accounted.balance id
    have moved := granted.balance id
    have exchanged := count_filterMap_set (fun thread => thread.seen.untold) here
      ⟨next env s.shared, progress.see seen note env s.shared⟩ id
    unfold untold at before ⊢
    dsimp only at exchanged ⊢
    omega

end Run

theorem step {label : PoolLabel Desk DecisionEnv Note Answer} (accounted : Accounted s)
    (step : ((desk ruleEngine).restrict Attended).Step s label t) : Accounted t := by
  obtain ⟨attended, step⟩ := step
  cases step with
  | spawn program spawned => exact accounted.spawn spawned
  | run index env note ready act next seen here enabled =>
    exact accounted.run here enabled (attended note ready act next seen here)
  | background shared changed => exact accounted.background changed

end Accounted

section Reachable

variable {ruleEngine : Security.ApprovalRuleEngine}

theorem accounted_of_reachable {s : DeskPool}
    (reached : ((desk ruleEngine).restrict Attended).Reachable s) : Accounted s := by
  refine reached.invariant ?_ ?_
  · intro initial start
    exact Accounted.init start
  · intro before label after accounted step
    exact accounted.step step

/-- Messages and statuses agree, and no request is answered twice. -/
structure Agrees (s : Desk) : Prop where
  status : ∀ response ∈ s.sent, ∀ approved, approvedFlag response.message = some approved →
    ∃ request, s.manager.getRequest response.approvalId = some request ∧
      request.status = verdict approved
  once : ∀ id, (told s).count id ≤ 1

/-- If the handler at `index` has just answered with an error, its request, if there is one,
is still pending. -/
def Repeatable (s : DeskPool) (index : Nat) : Prop :=
  ∀ error seen id request, s.threads[index]? = some ⟨.done (.error error), seen⟩ →
    seen.id = some id → s.shared.manager.getRequest id = some request →
    s.shared.manager.pending.lookup id = some request ∧ request.status = .pending

theorem Accounted.agrees {s : DeskPool} (accounted : Accounted s) : Agrees s.shared := by
  refine ⟨?_, ?_⟩
  · intro response member approved flag
    obtain ⟨request, settled, status⟩ := accounted.answers response member approved flag
    exact ⟨request, accounted.tidy.getRequest_settled settled, status⟩
  · intro id
    have told := accounted.balance id
    have settled := s.shared.manager.history.present_le_one id
    omega

/-- While requests are decided in time and their nodes can be told, decisions and messages
agree, and a handler fails only for a request that is not there. -/
theorem decisions_agree (s : DeskPool)
    (reached : ((desk ruleEngine).restrict Attended).Reachable s) :
    Agrees s.shared ∧ ∀ index env t,
      ((desk ruleEngine).restrict Attended).Step s (.run index env) t → Repeatable t index := by
  have accounted := accounted_of_reachable reached
  refine ⟨accounted.agrees, ?_⟩
  rintro index env t ⟨attended, step⟩ error seen id request finished about present
  cases step with
  | run _ _ note ready act next before here enabled =>
    obtain ⟨granted, candid⟩ :=
      accounted.granted here enabled (attended note ready act next before here)
    have inside : index < s.threads.length := (List.getElem?_eq_some_iff.mp here).1
    rw [List.getElem?_set_self inside, Option.some.injEq, Thread.mk.injEq] at finished
    obtain ⟨answered, rfl⟩ := finished
    rw [answered] at candid
    obtain ⟨missing, unknown⟩ := candid error rfl
    have gone := granted.missed missing unknown
    rw [unknown] at about
    cases about
    cases gone.symm.trans present

end Reachable

/-! ### A request that is approved -/

def sampleRequest : Security.Operation :=
  .create "system_command" "node-1" .single hubAdmin
    (routedMetadata "request-1" "task-1" "node-1" "rm" (.string "shell") .null (.object [])
      .null .null) "approval-1" 10

/-- The router has stored the request, and its node is connected. -/
def sampleDesk : Desk where
  manager := ((Security.ApprovalManager.new .new).perform sampleRequest).1
  nodeSenders := (∅ : Senders).insert ⟨"node-1"⟩ 7
  sessionRuntime := .new
  sent := []

def samplePayload : ApprovalDecisionPayload := ⟨"hub-admin", none⟩

def sampleEnv (now : Nat) : DecisionEnv := ⟨now, now, 0, ⟨"message-1"⟩, true⟩

theorem sampleDesk_reachable
    {guard : DeskPool → PoolLabel Desk DecisionEnv Note Answer → Prop}
    (background : ∀ s shared, guard s (.background shared)) :
    ((desk .new).restrict guard).Reachable ⟨sampleDesk, []⟩ := by
  have start : ((desk .new).restrict guard).Reachable
      ⟨⟨.new .new, ∅, .new, []⟩, []⟩ := .init ⟨rfl, rfl, rfl⟩
  have routed : Background ⟨.new .new, ∅, .new, []⟩ { sampleDesk with nodeSenders := ∅ } :=
    .upkeep (.route ..) ⟨Finmap.notMem_empty, Finmap.notMem_empty⟩
  have stored := start.step ⟨background _ _, .background _ _ routed⟩
  exact stored.step ⟨background _ _, .background _ _ (.senders sampleDesk.nodeSenders)⟩

abbrev DeskMove : Type := Pool.Move Spawns Background

def deskPlayer : (desk .new).Player DeskMove := Pool.player progress Spawns Background _

/-- A handler is about to approve the request. -/
def approves : DeskMove :=
  .spawn (decideApproval "approval-1" samplePayload true) ⟨_, _, _, rfl⟩

/-- The node disconnects. -/
def disconnects : DeskMove :=
  .background (fun s => { s with nodeSenders := ∅ }) fun _ => .senders ∅

def admitsAttended (s : DeskPool) (note : Note) (env : DecisionEnv) : Bool :=
  match note with
  | .decide id _ =>
    (s.shared.manager.pending.lookup id).any fun request => !request.isExpired env.now
  | .findSender nodeId => (s.shared.nodeSenders.lookup nodeId).isSome
  | .send => env.delivered
  | _ => true

theorem attended_of_admits (s : DeskPool) (index : Nat) (env : DecisionEnv)
    (passed : Pool.noteCheck id admitsAttended s index env = true) :
    Attended s (.run index env) := by
  intro note ready act next seen here
  have admitted := Pool.admits_of_noteCheck passed here
  cases note with
  | decide id approved =>
    obtain ⟨request, waiting, unexpired⟩ := (Option.any_eq_true _ _).mp admitted
    exact ⟨request, waiting, by simpa using unexpired⟩
  | findSender nodeId => exact Finmap.lookup_isSome.mp admitted
  | send => exact admitted
  | _ => trivial

/-- The flags that were sent, with the statuses their requests have. -/
def verdicts (s : Desk) : List (Option Bool × Option Security.ApprovalStatus) :=
  s.sent.map fun response => (approvedFlag response.message,
    (s.manager.getRequest response.approvalId).map Security.ApprovalRequest.status)

theorem decisions_agree_sample : ∃ s, ((desk .new).restrict Attended).Reachable s ∧
    verdicts s.shared = [(some true, some .approved)] ∧ Agrees s.shared := by
  obtain ⟨s, reached, sent⟩ := (Pool.checked deskPlayer _ attended_of_admits (fun _ _ => trivial)
    fun _ _ => trivial).exists_reachable (sampleDesk_reachable fun _ _ => trivial)
    (approves :: Pool.running (List.replicate 6 (0, sampleEnv 20)))
    (fun s => verdicts s.shared = [(some true, some .approved)]) (by decide)
  exact ⟨s, reached, sent, (decisions_agree s reached).1⟩

/-- The status of the request for which the handler at `index` has answered with an error. -/
def failedWith (s : DeskPool) (index : Nat) : Option Security.ApprovalStatus :=
  match s.threads[index]? with
  | some ⟨.done (.error _), seen⟩ =>
    (seen.id.bind s.shared.manager.getRequest).map Security.ApprovalRequest.status
  | _ => none

theorem not_repeatable_of_failedWith {s : DeskPool} {index : Nat}
    {status : Security.ApprovalStatus} (failed : failedWith s index = some status)
    (final : status ≠ .pending) : ¬ Repeatable s index := by
  intro repeatable
  unfold failedWith at failed
  split at failed
  · next error seen here =>
      obtain ⟨request, found, rfl⟩ := Option.map_eq_some_iff.mp failed
      obtain ⟨id, about, found⟩ := Option.bind_eq_some_iff.mp found
      exact final (repeatable error seen id request here about found).2
  · cases failed

/-- The node disconnects before it is told: the handler fails and the request is approved.
An approval after the request has expired: the node is told that it was approved. -/
theorem decisions_disagree :
    (∃ s t, (desk .new).Reachable s ∧ (desk .new).Step s (.run 0 (sampleEnv 20)) t ∧
      ¬ Repeatable t 0) ∧
    ∃ s, (desk .new).Reachable s ∧ ¬ Agrees s.shared := by
  constructor
  · obtain ⟨s, reached, failed⟩ := deskPlayer.any.exists_reachable
      (sampleDesk_reachable fun _ _ => trivial)
      (approves :: disconnects :: Pool.running (List.replicate 4 (0, sampleEnv 20)))
      (fun s => (Pool.runAt progress (fun _ _ _ => true) s 0 (sampleEnv 20)).bind
        (failedWith · 0) = some .approved) (by decide)
    obtain ⟨t, ran, failed⟩ := Option.bind_eq_some_iff.mp failed
    exact ⟨s, t, reached.of_restrict, Pool.step_of_runAt ran,
      not_repeatable_of_failedWith failed (by decide)⟩
  · obtain ⟨s, reached, sent⟩ := deskPlayer.any.exists_reachable
      (sampleDesk_reachable fun _ _ => trivial)
      (approves :: Pool.running (List.replicate 6 (0, sampleEnv 90000)))
      (fun s => verdicts s.shared = [(some true, some .timedOut)]) (by decide)
    refine ⟨s, reached.of_restrict, ?_⟩
    intro agrees
    obtain ⟨response, member, seen⟩ := List.mem_map.mp (sent ▸ List.mem_singleton_self _ :
      (some true, some Security.ApprovalStatus.timedOut) ∈ verdicts s.shared)
    obtain ⟨flag, status⟩ := Prod.mk.inj seen
    obtain ⟨request, found, approved⟩ := agrees.status response member true flag
    rw [found, Option.map_some, approved] at status
    cases status

end UHorse.Hub.Approvals
