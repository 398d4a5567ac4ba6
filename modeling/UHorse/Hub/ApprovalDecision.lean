import UHorse.Hub.SessionRuntime
import UHorse.Lib.Occurrences
import UHorse.Lib.Program
import UHorse.Protocol.Message
import UHorse.Security.Approval

/-!
# Deciding an approval request and telling its node

`decideApproval` is the handler of the Hub's web interface, for a Hub with a
security manager. It reads the request, decides it, reads it again and tells the
node that waits for it, in separate sections, and answers with an error from
wherever it stops. The decision is final after the second section, whatever
becomes of the later ones, and the message carries the flag of the call rather
than the status the request ended in.

A pool runs any number of these handlers, while the router stores requests, nodes
connect and disconnect, and requests expire. `progress` observes how far a handler
has come.
-/

namespace UHorse.Hub

open UHorse.Lib UHorse.Protocol

/-- The text of an error. -/
def HubError.display : HubError → String
  | .nodeNotFound nodeId => "Node not found: " ++ nodeId.value
  | .nodeLimitReached => "Maximum number of nodes reached"
  | .node message => "Node error: " ++ message
  | .task message => "Task error: " ++ message
  | .schedule message => "Schedule error: " ++ message
  | .communication message => "Communication error: " ++ message
  | .timeout message => "Timeout: " ++ message
  | .permission message => "Permission denied: " ++ message
  | .config message => "Config error: " ++ message
  | .internal message => "Internal error: " ++ message

end UHorse.Hub

namespace UHorse.Hub.Approvals

open UHorse.Lib UHorse.Protocol

/-- A message that was put into a node's channel, with the approval it is about. -/
structure Response where
  approvalId : String
  sender : Nat
  message : HubToNode

/-- What the handlers share. -/
structure Desk where
  manager : Security.ApprovalManager
  nodeSenders : Senders
  sessionRuntime : SessionRuntime
  sent : List Response

/-- What a section draws from outside: the clock of the manager, the clock of the web
handler, a fresh message id, and whether the channel still takes a message. -/
structure DecisionEnv where
  decidedAt : Nat
  now : Nat
  utcNow : DateTime
  messageId : MessageId
  delivered : Bool

inductive Note
  | find (id : String)
  | decide (id : String) (approved : Bool)
  | findSender (nodeId : NodeId)
  | send
  | work

abbrev Handler := Program Desk DecisionEnv Note

inductive StatusCode
  | notFound
  | internalServerError
deriving DecidableEq

structure ApiError where
  status : StatusCode
  error : String
deriving DecidableEq

structure ApprovalDecisionPayload where
  responder : String
  reason : Option String

abbrev Answer := Except ApiError Security.ApprovalRequest

def displayUHorseError : Security.UHorseError → String
  | .internalError message => "Internal error: " ++ message

/-- The outcome of the manager, as the operation approver passes it on. -/
def permitted (failed : String) :
    Except Security.UHorseError Security.ApprovalRequest → Except HubError Unit
  | .ok _ => .ok ()
  | .error error => .error (.permission (failed ++ displayUHorseError error))

/-- `SensitiveOperationApprover::approve`. -/
def approve (manager : Security.ApprovalManager) (requestId approver : String)
    (comment : Option String) (decidedAt now : Nat) :
    Security.ApprovalManager × Except HubError Unit :=
  let outcome := manager.approveRequest requestId approver comment decidedAt now
  (outcome.1, permitted "Failed to approve: " outcome.2)

/-- `SensitiveOperationApprover::reject`. -/
def reject (manager : Security.ApprovalManager) (requestId rejecter : String)
    (comment : Option String) (decidedAt now : Nat) :
    Security.ApprovalManager × Except HubError Unit :=
  let outcome := manager.rejectRequest requestId rejecter comment decidedAt now
  (outcome.1, permitted "Failed to reject: " outcome.2)

/-- The branch of `decide_approval` for its flag. -/
def conclude (manager : Security.ApprovalManager) (requestId : String)
    (payload : ApprovalDecisionPayload) (approved : Bool) (env : DecisionEnv) :
    Security.ApprovalManager × Except HubError Unit :=
  if approved then approve manager requestId payload.responder payload.reason env.decidedAt env.now
  else reject manager requestId payload.responder payload.reason env.decidedAt env.now

def getRequest (note : Note) (requestId : String) : Handler (Option Security.ApprovalRequest) :=
  Program.query note fun _ s => s.manager.getRequest requestId

def decideRequest (requestId : String) (payload : ApprovalDecisionPayload) (approved : Bool) :
    Handler (Except HubError Unit) :=
  Program.update (.decide requestId approved)
    (fun env s => { s with manager := (conclude s.manager requestId payload approved env).1 })
    (fun env s => (conclude s.manager requestId payload approved env).2)

/-- A string field of the metadata the router attached. -/
def metadataString (request : Security.ApprovalRequest) (key : String) : Option String :=
  (request.metadata.get key).bind Json.asStr

/-- The transcript of the task's session, if it has one, says how the request was decided. -/
def noteDecision (request : Security.ApprovalRequest) (requestId : String)
    (payload : ApprovalDecisionPayload) (approved : Bool) : Handler Unit :=
  match metadataString request "task_id" with
  | none => pure ()
  | some taskId => do
      match ← Program.query .work (fun _ s => s.sessionRuntime.taskBinding ⟨taskId⟩) with
      | none => pure ()
      | some binding =>
        Program.update .work
          (fun env s =>
            { s with
              sessionRuntime := s.sessionRuntime.appendTranscriptEvent binding.sessionKey
                (if approved then .approvalApproved else .approvalRejected)
                ("request_id=" ++ requestId ++ "; responder=" ++ payload.responder) env.utcNow })
          (fun _ _ => ())

def findSender (nodeId : NodeId) : Handler (Option Nat) :=
  Program.query (.findSender nodeId) fun _ s => s.nodeSenders.lookup nodeId

/-- `send_to_node`: the message reaches the channel or the channel is closed. -/
def sendToNode (approvalId : String) (nodeId : NodeId) (sender : Nat)
    (message : DecisionEnv → HubToNode) : Handler (Except HubError Unit) :=
  Program.update .send
    (fun env s =>
      if env.delivered then { s with sent := s.sent ++ [⟨approvalId, sender, message env⟩] } else s)
    (fun env _ =>
      if env.delivered then .ok ()
      else .error (.communication
        ("Failed to send message to " ++ nodeId.value ++ ": channel closed")))

def notifyNodeApprovalDecision (request : Security.ApprovalRequest)
    (payload : ApprovalDecisionPayload) (approved : Bool) : Handler (Except HubError Unit) :=
  match metadataString request "node_id" with
  | none => pure (.error (.internal "Approval request missing node_id metadata"))
  | some nodeId => do
      let requestId := (metadataString request "request_id").getD request.id
      match ← findSender ⟨nodeId⟩ with
      | none => pure (.error (.nodeNotFound ⟨nodeId⟩))
      | some sender =>
        sendToNode request.id ⟨nodeId⟩ sender fun env =>
          .approvalResponse env.messageId requestId approved payload.responder payload.reason
            env.utcNow

def decideApproval (requestId : String) (payload : ApprovalDecisionPayload) (approved : Bool) :
    Handler Answer := do
  match ← getRequest (.find requestId) requestId with
  | none => pure (.error ⟨.notFound, "Approval not found"⟩)
  | some existing =>
    match ← decideRequest requestId payload approved with
    | .error error => pure (.error ⟨.internalServerError, error.display⟩)
    | .ok _ =>
      match ← getRequest .work requestId with
      | none => pure (.error ⟨.internalServerError, "Approval disappeared after decision"⟩)
      | some updated => do
          noteDecision existing requestId payload approved
          match ← notifyNodeApprovalDecision existing payload approved with
          | .error error => pure (.error ⟨.internalServerError, error.display⟩)
          | .ok _ => pure (.ok updated)

/-! ## The Hub around the handlers -/

/-- The metadata the router attaches to a request; the values no handler reads are any. -/
def routedMetadata (requestId taskId nodeId reason : String)
    (commandType command context requestedAt expiresAt : Json) : Json :=
  .object [("request_id", .string requestId), ("task_id", .string taskId),
    ("node_id", .string nodeId), ("command_type", commandType), ("command", command),
    ("context", context), ("reason", .string reason), ("requested_at", requestedAt),
    ("expires_at", expiresAt)]

/-- The approvers `request_approval` asks. -/
def hubAdmin : List Security.Approver := [⟨"hub-admin", "Hub Administrator", "admin"⟩]

/-- What else happens to requests: the router stores them, and they are cancelled, cleaned
up or expire. Only the handlers decide them. -/
inductive Upkeep : Security.Operation → Prop
  | route (operation requestId taskId nodeId reason : String)
      (commandType command context requestedAt expiresAt : Json) (id : String) (now : Nat) :
      Upkeep (.create operation nodeId .single hubAdmin
        (routedMetadata requestId taskId nodeId reason commandType command context requestedAt
          expiresAt) id now)
  | cancel (id : String) : Upkeep (.cancel id)
  | cleanup (order : List (String × Security.ApprovalRequest)) (clock : String → Nat) :
      Upkeep (.cleanup order clock)
  | expire (id : String) : Upkeep (.expire id)

inductive Background (s : Desk) : Desk → Prop
  | upkeep {operation : Security.Operation} : Upkeep operation → operation.Fits s.manager →
      Background s { s with manager := (s.manager.perform operation).1 }
  | senders (nodeSenders : Senders) : Background s { s with nodeSenders }
  | sessions (sessionRuntime : SessionRuntime) : Background s { s with sessionRuntime }

def Spawns (program : Handler Answer) : Prop :=
  ∃ requestId payload approved, program = decideApproval requestId payload approved

def Starts (ruleEngine : Security.ApprovalRuleEngine) (s : Desk) : Prop :=
  s.manager = .new ruleEngine ∧ s.sent = []

/-- How far a handler has come with its request. -/
inductive Progress
  | idle
  | unknown (id : String)
  | looking (id : String)
  | decided (id : String) (approved : Bool)
  | answered (id : String)
deriving DecidableEq

def Progress.id : Progress → Option String
  | .idle => none
  | .unknown id | .looking id | .decided id _ | .answered id => some id

/-- The request that the handler has decided and its node has not been told about. -/
def Progress.untold : Progress → Option String
  | .decided id _ => some id
  | _ => none

def progress : Observer Desk DecisionEnv Note Progress where
  start := .idle
  see seen note env s :=
    match note, seen with
    | .find id, _ => if (s.manager.getRequest id).isSome then .looking id else .unknown id
    | .decide id approved, _ => if id ∈ s.manager.pending then .decided id approved else seen
    | .send, .decided id _ => if env.delivered then .answered id else seen
    | _, _ => seen

abbrev DeskPool := Pool Desk DecisionEnv Note Answer Progress

def desk (ruleEngine : Security.ApprovalRuleEngine) :
    System DeskPool (PoolLabel Desk DecisionEnv Note Answer) :=
  Pool.system progress Spawns Background (Starts ruleEngine)

/-! ## The requests of the router -/

/-- The status a decision is to lead to. -/
def verdict (approved : Bool) : Security.ApprovalStatus :=
  if approved then .approved else .rejected

/-- A request under its id, with the node that waits for it. -/
structure Routed (id : String) (request : Security.ApprovalRequest) : Prop where
  id : request.id = id
  node : ∃ nodeId, metadataString request "node_id" = some nodeId

/-- One approver is enough, and nobody has decided. -/
structure Undecided (request : Security.ApprovalRequest) : Prop where
  level : request.level = .single
  decisions : request.decisions = []
  approvals : request.approvedCount = 0
  rejections : request.rejectedCount = 0

structure Tidy (manager : Security.ApprovalManager) : Prop where
  disjoint : ∀ id, id ∈ manager.pending → id ∉ manager.history
  waiting : ∀ id request, manager.pending.lookup id = some request →
    Routed id request ∧ Undecided request
  settled : ∀ id request, manager.history.lookup id = some request → Routed id request

/-- What is settled stays as it is. -/
def Retains (manager manager' : Security.ApprovalManager) : Prop :=
  ∀ id request, manager.history.lookup id = some request →
    manager'.history.lookup id = some request

section Manager

open Security Security.ApprovalManager

variable {manager : Security.ApprovalManager} {id : String}
  {request request' : Security.ApprovalRequest}

theorem Retains.refl (manager : Security.ApprovalManager) : Retains manager manager :=
  fun _ _ found => found

theorem Retains.trans {first second third : Security.ApprovalManager}
    (earlier : Retains first second) (later : Retains second third) : Retains first third :=
  fun id request found => later id request (earlier id request found)

theorem Routed.of_same (routed : Routed id request) (same : request'.id = request.id)
    (metadata : request'.metadata = request.metadata) : Routed id request' := by
  refine ⟨same.trans routed.id, ?_⟩
  rw [metadataString]
  rw [metadata]
  exact routed.node

/-- A settled request is found. -/
theorem Tidy.getRequest_settled (tidy : Tidy manager)
    (settled : manager.history.lookup id = some request) :
    manager.getRequest id = some request := by
  have apart : manager.pending.lookup id = none := by
    apply Finmap.lookup_eq_none.mpr
    intro waiting
    exact tidy.disjoint id waiting (HashMap.mem_of_lookup settled)
  rw [ApprovalManager.getRequest, apart, settled]
  rfl

theorem Tidy.getRequest_routed (tidy : Tidy manager)
    (found : manager.getRequest id = some request) :
    Routed id request := by
  obtain waiting | ⟨-, settled⟩ := Option.or_eq_some_iff.mp found
  · exact (tidy.waiting id request waiting).1
  · exact tidy.settled id request settled

/-- Which users are asked does not matter here. -/
theorem Tidy.reindex (tidy : Tidy manager) (index : String → Option (List String)) :
    Tidy { manager with userRequests := index } :=
  ⟨tidy.disjoint, tidy.waiting, tidy.settled⟩

theorem Tidy.insert (tidy : Tidy manager) (routed : Routed id request)
    (undecided : Undecided request) (unsettled : id ∉ manager.history) :
    Tidy { manager with pending := manager.pending.insert id request } := by
  refine ⟨?_, ?_, tidy.settled⟩
  · intro other present
    obtain rfl | present := Finmap.mem_insert.mp present
    · exact unsettled
    · exact tidy.disjoint other present
  · intro other candidate present
    rw [HashMap.lookup_insert_ite] at present
    split at present
    · next same =>
        cases present
        rw [same]
        exact ⟨routed, undecided⟩
    · exact tidy.waiting other candidate present

theorem Tidy.settle (tidy : Tidy manager) (routed : Routed id request) :
    Tidy (manager.settle id request) := by
  refine ⟨?_, ?_, ?_⟩
  · intro other present settled
    obtain ⟨distinct, present⟩ := Finmap.mem_erase.mp present
    obtain same | settled := Finmap.mem_insert.mp settled
    · exact distinct same
    · exact tidy.disjoint other present settled
  · intro other candidate present
    simp only [ApprovalManager.settle, HashMap.lookup_erase_ite,
      Option.ite_none_left_eq_some] at present
    exact tidy.waiting other candidate present.2
  · intro other candidate present
    simp only [ApprovalManager.settle, HashMap.lookup_insert_ite] at present
    split at present
    · next same =>
        cases present
        rw [same]
        exact routed
    · exact tidy.settled other candidate present

theorem Tidy.retains_settle (tidy : Tidy manager)
    (waiting : manager.pending.lookup id = some request) :
    Retains manager (manager.settle id request') := by
  intro other candidate found
  have distinct : other ≠ id := by
    rintro rfl
    exact tidy.disjoint other (HashMap.mem_of_lookup waiting) (HashMap.mem_of_lookup found)
  rw [ApprovalManager.settle, HashMap.lookup_insert_ite, if_neg distinct, found]

theorem Tidy.timeOut (tidy : Tidy manager) (id : String) :
    Tidy (manager.timeOut id) ∧ Retains manager (manager.timeOut id) := by
  rw [ApprovalManager.timeOut]
  cases waiting : manager.pending.lookup id with
  | none => exact ⟨tidy, .refl manager⟩
  | some request =>
    have routed := (tidy.waiting id request waiting).1
    exact ⟨tidy.settle (routed.of_same rfl rfl), tidy.retains_settle waiting⟩

theorem Tidy.timeOuts (tidy : Tidy manager) (ids : List String) :
    Tidy (ids.foldl ApprovalManager.timeOut manager) ∧
      Retains manager (ids.foldl ApprovalManager.timeOut manager) := by
  induction ids generalizing manager with
  | nil => exact ⟨tidy, .refl manager⟩
  | cons first ids ih =>
    obtain ⟨tidied, retained⟩ := tidy.timeOut first
    obtain ⟨tidied', retained'⟩ := ih tidied
    exact ⟨tidied', retained.trans retained'⟩

theorem routed_new (requestId taskId nodeId reason operation : String)
    (commandType command context requestedAt expiresAt : Json) (id : String) (now : Nat) :
    Routed id { ApprovalRequest.new id operation nodeId .single hubAdmin now with
      metadata := routedMetadata requestId taskId nodeId reason commandType command context
        requestedAt expiresAt } := by
  refine ⟨rfl, nodeId, ?_⟩
  simp [metadataString, routedMetadata, Json.get, Json.asStr, List.lookup_cons]

/-- Upkeep keeps the requests in order and touches nothing that is settled. -/
theorem Tidy.upkeep (tidy : Tidy manager) {operation : Security.Operation}
    (upkeep : Upkeep operation) (fits : operation.Fits manager) :
    Tidy (manager.perform operation).1 ∧ Retains manager (manager.perform operation).1 := by
  cases upkeep with
  | route =>
    dsimp only [perform, createRequest]
    split
    · exact ⟨tidy, .refl manager⟩
    · split
      · exact ⟨tidy, .refl manager⟩
      · refine ⟨?_, .refl manager⟩
        exact (tidy.insert (routed_new ..) ⟨rfl, rfl, rfl, rfl⟩ fits.2).reindex _
  | cancel id =>
    dsimp only [perform, cancelRequest]
    cases waiting : manager.pending.lookup id with
    | none => exact ⟨tidy, .refl manager⟩
    | some request =>
      have routed := (tidy.waiting id request waiting).1
      exact ⟨tidy.settle (routed.of_same rfl rfl), tidy.retains_settle waiting⟩
  | cleanup order clock => exact tidy.timeOuts _
  | expire id =>
    dsimp only [perform, expireRequest]
    cases waiting : manager.pending.lookup id with
    | none => exact ⟨tidy, .refl manager⟩
    | some request =>
      obtain ⟨routed, undecided⟩ := tidy.waiting id request waiting
      have unsettled := tidy.disjoint id (HashMap.mem_of_lookup waiting)
      dsimp only
      split
      · refine ⟨tidy.insert (routed.of_same rfl rfl) ?_ unsettled, .refl manager⟩
        exact ⟨undecided.level, undecided.decisions, undecided.approvals, undecided.rejections⟩
      · exact ⟨tidy, .refl manager⟩

/-- A waiting request that has not expired is settled with the status of the decision. -/
theorem Tidy.conclude (tidy : Tidy manager) (waiting : manager.pending.lookup id = some request)
    (env : DecisionEnv) (unexpired : request.isExpired env.now = false)
    (payload : ApprovalDecisionPayload) (approved : Bool) :
    ∃ updated, Routed id updated ∧ updated.status = verdict approved ∧
      conclude manager id payload approved env = (manager.settleAndForget id updated, .ok ()) := by
  obtain ⟨routed, undecided⟩ := tidy.waiting id request waiting
  obtain ⟨level, decisions, approvals, rejections⟩ := undecided
  have inTime : ¬ request.expiresAt < env.now := by
    simpa [ApprovalRequest.isExpired] using unexpired
  cases approved with
  | true =>
    refine ⟨{ request with
      decisions := [⟨payload.responder, true, payload.reason, env.decidedAt⟩]
      approvedCount := 1, status := .approved }, routed.of_same rfl rfl, rfl, ?_⟩
    simp [Approvals.conclude, approve, approveRequest, waiting, ApprovalRequest.canApprove, level,
      approvals, ApprovalRequest.addDecision, ApprovalRequest.hasDecided, decisions,
      ApprovalRequest.updateStatus, ApprovalRequest.isExpired, inTime, rejections,
      ApprovalRequest.isCompleted, permitted]
  | false =>
    refine ⟨{ request with
      decisions := [⟨payload.responder, false, payload.reason, env.decidedAt⟩]
      rejectedCount := 1, status := .rejected }, routed.of_same rfl rfl, rfl, ?_⟩
    simp [Approvals.conclude, reject, rejectRequest, waiting, rejections,
      ApprovalRequest.addDecision, ApprovalRequest.hasDecided, decisions,
      ApprovalRequest.updateStatus, ApprovalRequest.isExpired, inTime, permitted]

end Manager

end UHorse.Hub.Approvals
