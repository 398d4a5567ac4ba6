import UHorse.Lib.Occurrences
import UHorse.Lib.System
import UHorse.Node.Permission

/-!
# The message loop of a node

The node handles the Hub's messages one after the other. What is left of a task
between two messages is in two tables: `runningTasks`, from its assignment to
its result, and the pending approvals of the permission manager.

`Effect` lists what one message can do to the two tables, together with the
events that go along; `handleHubMessage_effect` says that the list is complete.
-/

namespace UHorse.Node

open UHorse.Lib UHorse.Protocol

structure Metrics where
  totalExecutions : Nat
  successfulExecutions : Nat
  failedExecutions : Nat
  totalDurationMs : Nat

/-- The average the source keeps beside these is the quotient of two of them. -/
def Metrics.recordExecution (metrics : Metrics) (success : Bool) (durationMs : Nat) : Metrics where
  totalExecutions := metrics.totalExecutions + 1
  successfulExecutions := metrics.successfulExecutions + if success then 1 else 0
  failedExecutions := metrics.failedExecutions + if success then 0 else 1
  totalDurationMs := metrics.totalDurationMs + durationMs

/-- A running task carries only the sending half of a channel whose receiver is
gone, so the table is a set. -/
structure NodeRuntime where
  permissionManager : PermissionManager
  metrics : Metrics
  runningTasks : Finset TaskId

/-- What handling one message draws from outside: besides what the permission
check reads, the fresh ids, the executor's answer and whether the outbound channel
has a receiver. -/
structure NodeEnv extends CheckEnv where
  approvalId : String
  messageId : MessageId
  execution : Except NodeError CommandResult
  durationMs : Nat
  outboundOpen : Bool
  describe : NodeError → String

inductive NodeEvent
  | executed (taskId : TaskId) (command : Command)
  | sent (message : NodeToHub)

def commandResultFromNodeError (describe : NodeError → String) (error : NodeError)
    (durationMs : Nat) : CommandResult :=
  let executionError : ExecutionError :=
    match error with
    | .permission message => .permissionDenied message
    | .cannotAccess _ => .permissionDenied (describe error)
    | .timeout message => .timeout message
    | .execution message => .executionFailed message
    | .workspace _ => .validationFailed (describe error)
    | .config message => .validationFailed message
    | .connection message => .new "CONNECTION_FAILED" message .external
    | .protocol message => .new "PROTOCOL_ERROR" message .internal
    | .io message => .new "IO_ERROR" message .executor
    | .serialization message => .new "SERIALIZATION_ERROR" message .internal
    | .internal message => .new "INTERNAL_ERROR" message .internal
  (CommandResult.failure executionError).withDuration durationMs

namespace NodeRuntime

/-- What a handler returns: the runtime, what it did and how it ended. -/
abbrev Handled := NodeRuntime × List NodeEvent × Except NodeError Unit

def send (env : NodeEnv) (failure : String) (message : NodeToHub) :
    List NodeEvent × Except NodeError Unit :=
  if env.outboundOpen then ([.sent message], .ok ())
  else ([], .error (.connection (failure ++ "channel closed")))

def sendTaskResult (env : NodeEnv) (taskId : TaskId) (result : CommandResult) (durationMs : Nat) :
    List NodeEvent × Except NodeError Unit :=
  send env "Failed to send task result: "
    (.taskResult env.messageId taskId result (.ofDuration durationMs))

/-- Take a task off the table, count it and report its result. -/
def settle (node : NodeRuntime) (env : NodeEnv) (taskId : TaskId) (result : CommandResult)
    (durationMs : Nat) (before : List NodeEvent) : Handled :=
  let (sent, outcome) := sendTaskResult env taskId result durationMs
  ({ node with
      metrics := node.metrics.recordExecution result.success durationMs
      runningTasks := node.runningTasks.erase taskId }, before ++ sent, outcome)

def start (node : NodeRuntime) (taskId : TaskId) : NodeRuntime :=
  { node with runningTasks := insert taskId node.runningTasks }

/-- Run a command whose permission is settled. -/
def execute (node : NodeRuntime) (env : NodeEnv) (taskId : TaskId) (command : Command) :
    Handled :=
  let result :=
    match env.execution with
    | .ok result => result
    | .error error => commandResultFromNodeError env.describe error env.durationMs
  node.settle env taskId result env.durationMs [.executed taskId command]

def handleTaskAssignment (node : NodeRuntime) (env : NodeEnv) (taskId : TaskId)
    (command : Command) (context : TaskContext) : Handled :=
  let node := node.start taskId
  match node.permissionManager.check env.toCheckEnv command context with
  | .allowed => node.execute env taskId command
  | .denied reason =>
    let result :=
      (CommandResult.failure (.permissionDenied reason)).withDuration env.durationMs
    node.settle env taskId result env.durationMs []
  | .requiresApproval _ reason =>
    let (request, manager) := node.permissionManager.createApprovalRequest env.approvalId
      taskId.value command context reason env.now
    let (sent, outcome) := send env "Failed to send approval request: "
      (.approvalRequest env.messageId request.id taskId command context request.reason
        request.requestedAt request.expiresAt)
    ({ node with permissionManager := manager }, sent, outcome)

def handleApproval (node : NodeRuntime) (env : NodeEnv) (requestId : String) (approved : Bool)
    (responder : String) (reason : Option String) : Handled :=
  let (resolution, manager) :=
    node.permissionManager.handleApprovalResponse requestId approved responder reason env.now
  let node := { node with permissionManager := manager }
  match resolution with
  | .error error => (node, [], .error error)
  | .ok (.approved request taskId) => (node.start taskId).execute env taskId request.command
  | .ok (.rejected _ taskId) =>
    let result := CommandResult.failure (.permissionDenied (reason.getD "Approval rejected"))
    node.settle env taskId result 0 []

def handleHubMessage (node : NodeRuntime) (env : NodeEnv) (message : HubToNode) : Handled :=
  match message with
  | .taskAssignment _ taskId command _ _ context _ _ =>
    node.handleTaskAssignment env taskId command context
  | .taskCancellation _ taskId _ =>
    ({ node with runningTasks := node.runningTasks.erase taskId }, [], .ok ())
  | .permissionUpdate _ rules =>
    ({ node with
        permissionManager :=
          node.permissionManager.replaceRules (rules.map convertProtocolPermissionRule) },
      [], .ok ())
  | .approvalResponse _ requestId approved responder reason _ =>
    node.handleApproval env requestId approved responder reason
  | .heartbeatRequest .. => (node, [], .ok ())
  | .configUpdate .. => (node, [], .ok ())
  | .skillDeploy .. => (node, [], .ok ())
  | .skillRemove .. => (node, [], .ok ())
  | .disconnect .. => (node, [], .ok ())

end NodeRuntime

/-! ## What one message can do -/

def HubToNode.assignedId : HubToNode → Option TaskId
  | .taskAssignment _ taskId _ _ _ _ _ _ => some taskId
  | _ => none

def NodeEvent.executedId : NodeEvent → Option TaskId
  | .executed taskId _ => some taskId
  | .sent _ => none

def NodeEvent.resultId : NodeEvent → Option TaskId
  | .sent (.taskResult _ taskId _ _) => some taskId
  | _ => none

/-- The events of a message that settles `taskId`: its result, if the channel is
open, and at most an execution of its command before. -/
structure Settles (env : NodeEnv) (taskId : TaskId) (events : List NodeEvent) : Prop where
  result : env.outboundOpen = true → ∀ t,
    (events.filterMap NodeEvent.resultId).count t = tick taskId t
  executed : ∀ t, t ≠ taskId → (events.filterMap NodeEvent.executedId).count t = 0

/-- Everything a message can do to the two tables, with the events that go along. -/
inductive Effect (node : NodeRuntime) (env : NodeEnv) :
    HubToNode → NodeRuntime → List NodeEvent → Prop
  | quiet {message : HubToNode} {after : NodeRuntime}
      (unassigned : HubToNode.assignedId message = none)
      (pending : after.permissionManager.pendingApprovals =
        node.permissionManager.pendingApprovals)
      (running : after.runningTasks = node.runningTasks) : Effect node env message after []
  | settled {id : MessageId} {taskId : TaskId} {command : Command} {priority : Priority}
      {deadline : Option DateTime} {context : TaskContext} {retryCount maxRetries : Nat}
      {after : NodeRuntime} {events : List NodeEvent}
      (decided : ∀ requestId reason,
        node.permissionManager.check env.toCheckEnv command context ≠
          .requiresApproval requestId reason)
      (pending : after.permissionManager = node.permissionManager)
      (running : after.runningTasks = node.runningTasks.erase taskId)
      (settles : Settles env taskId events) :
      Effect node env (.taskAssignment id taskId command priority deadline context retryCount
        maxRetries) after events
  | asked {id : MessageId} {taskId : TaskId} {command : Command} {priority : Priority}
      {deadline : Option DateTime} {context : TaskContext} {retryCount maxRetries : Nat}
      {after : NodeRuntime} {events : List NodeEvent} {request : ApprovalRequest}
      (asks : request.taskId = taskId.value)
      (pending : after.permissionManager.pendingApprovals =
        node.permissionManager.pendingApprovals.insert env.approvalId request)
      (running : after.runningTasks = insert taskId node.runningTasks)
      (silent : events.filterMap NodeEvent.resultId = [] ∧
        events.filterMap NodeEvent.executedId = []) :
      Effect node env (.taskAssignment id taskId command priority deadline context retryCount
        maxRetries) after events
  | cancelled {id : MessageId} {taskId : TaskId} {reason : String} {after : NodeRuntime}
      (pending : after.permissionManager = node.permissionManager)
      (running : after.runningTasks = node.runningTasks.erase taskId) :
      Effect node env (.taskCancellation id taskId reason) after []
  | expired {id : MessageId} {requestId : String} {approved : Bool} {responder : String}
      {reason : Option String} {respondedAt : DateTime} {request : ApprovalRequest}
      {after : NodeRuntime}
      (found : node.permissionManager.pendingApprovals.lookup requestId = some request)
      (late : request.expiresAt < env.now)
      (pending : after.permissionManager.pendingApprovals =
        node.permissionManager.pendingApprovals.erase requestId)
      (running : after.runningTasks = node.runningTasks) :
      Effect node env (.approvalResponse id requestId approved responder reason respondedAt)
        after []
  | resolved {id : MessageId} {requestId : String} {approved : Bool} {responder : String}
      {reason : Option String} {respondedAt : DateTime} {request : ApprovalRequest}
      {after : NodeRuntime} {events : List NodeEvent}
      (found : node.permissionManager.pendingApprovals.lookup requestId = some request)
      (pending : after.permissionManager.pendingApprovals =
        node.permissionManager.pendingApprovals.erase requestId)
      (running : after.runningTasks = node.runningTasks.erase ⟨request.taskId⟩)
      (settles : Settles env ⟨request.taskId⟩ events) :
      Effect node env (.approvalResponse id requestId approved responder reason respondedAt)
        after events

namespace NodeRuntime

theorem settle_settles (node : NodeRuntime) (env : NodeEnv) (taskId : TaskId)
    (result : CommandResult) (durationMs : Nat) {before : List NodeEvent}
    (known : before = [] ∨ ∃ command, before = [.executed taskId command]) :
    Settles env taskId (node.settle env taskId result durationMs before).2.1 := by
  have silent : before.filterMap NodeEvent.resultId = [] := by
    obtain rfl | ⟨command, rfl⟩ := known <;> rfl
  constructor
  · intro opened t
    simp [settle, sendTaskResult, send, opened, silent, NodeEvent.resultId, count_cons_tick]
  · intro t distinct
    have none_sent : (sendTaskResult env taskId result durationMs).1.filterMap
        NodeEvent.executedId = [] := by
      rw [sendTaskResult, send]
      split <;> rfl
    show ((before ++ (sendTaskResult env taskId result durationMs).1).filterMap _).count t = 0
    rw [List.filterMap_append, none_sent]
    obtain rfl | ⟨command, rfl⟩ := known
    · rfl
    · simp [NodeEvent.executedId, count_cons_tick, tick_of_ne (Ne.symm distinct)]

theorem send_silent (env : NodeEnv) (failure : String) (message : NodeToHub)
    (other : NodeEvent.resultId (.sent message) = none) :
    (send env failure message).1.filterMap NodeEvent.resultId = [] ∧
      (send env failure message).1.filterMap NodeEvent.executedId = [] := by
  rw [send]
  split
  · simp [other, NodeEvent.executedId]
  · simp

theorem handleTaskAssignment_effect (node : NodeRuntime) (env : NodeEnv) (id : MessageId)
    (taskId : TaskId) (command : Command) (priority : Priority) (deadline : Option DateTime)
    (context : TaskContext) (retryCount maxRetries : Nat) :
    Effect node env (.taskAssignment id taskId command priority deadline context retryCount
      maxRetries) (node.handleTaskAssignment env taskId command context).1
      (node.handleTaskAssignment env taskId command context).2.1 := by
  have erased : (insert taskId node.runningTasks).erase taskId = node.runningTasks.erase taskId :=
    Finset.erase_insert_eq_erase ..
  rw [handleTaskAssignment]
  dsimp only
  cases verdict : (node.start taskId).permissionManager.check env.toCheckEnv command context with
  | allowed =>
    refine .settled ?_ rfl erased (settle_settles _ _ _ _ _ (.inr ⟨command, rfl⟩))
    intro requestId reason asks
    exact absurd (verdict.symm.trans asks) (by simp)
  | denied reason =>
    refine .settled ?_ rfl erased (settle_settles _ _ _ _ _ (.inl rfl))
    intro requestId reason asks
    exact absurd (verdict.symm.trans asks) (by simp)
  | requiresApproval requestId reason => exact .asked rfl rfl rfl (send_silent _ _ _ rfl)

theorem handleApproval_effect (node : NodeRuntime) (env : NodeEnv) (id : MessageId)
    (requestId : String) (approved : Bool) (responder : String) (reason : Option String)
    (respondedAt : DateTime) :
    Effect node env (.approvalResponse id requestId approved responder reason respondedAt)
      (node.handleApproval env requestId approved responder reason).1
      (node.handleApproval env requestId approved responder reason).2.1 := by
  rw [handleApproval, PermissionManager.handleApprovalResponse]
  cases found : node.permissionManager.pendingApprovals.lookup requestId with
  | none => exact .quiet rfl rfl rfl
  | some request =>
    dsimp only
    by_cases late : env.now > request.expiresAt
    · simp only [late, if_true]
      exact .expired found late rfl rfl
    · simp only [late, if_false]
      cases approved with
      | true =>
        refine .resolved found rfl ?_ (settle_settles _ _ _ _ _ (.inr ⟨request.command, rfl⟩))
        exact Finset.erase_insert_eq_erase ..
      | false => exact .resolved found rfl rfl (settle_settles _ _ _ _ _ (.inl rfl))

theorem handleHubMessage_effect (node : NodeRuntime) (env : NodeEnv) (message : HubToNode) :
    Effect node env message (node.handleHubMessage env message).1
      (node.handleHubMessage env message).2.1 := by
  cases message with
  | taskAssignment id taskId command priority deadline context retryCount maxRetries =>
    exact node.handleTaskAssignment_effect env id taskId command priority deadline context
      retryCount maxRetries
  | taskCancellation => exact .cancelled rfl rfl
  | approvalResponse id requestId approved responder reason respondedAt =>
    exact node.handleApproval_effect env id requestId approved responder reason respondedAt
  | _ => exact .quiet rfl rfl rfl

end NodeRuntime

/-! ## Runs -/

structure Delivery where
  env : NodeEnv
  message : HubToNode

/-- A node with the messages it has handled and everything it has done. -/
structure NodeState where
  runtime : NodeRuntime
  handled : List HubToNode
  events : List NodeEvent

namespace NodeState

def deliver (s : NodeState) (delivery : Delivery) : NodeState :=
  let outcome := s.runtime.handleHubMessage delivery.env delivery.message
  { runtime := outcome.1
    handled := s.handled ++ [delivery.message]
    events := s.events ++ outcome.2.1 }

def assigned (s : NodeState) (taskId : TaskId) : Nat :=
  (s.handled.filterMap HubToNode.assignedId).count taskId

def executions (s : NodeState) (taskId : TaskId) : Nat :=
  (s.events.filterMap NodeEvent.executedId).count taskId

def results (s : NodeState) (taskId : TaskId) : Nat :=
  (s.events.filterMap NodeEvent.resultId).count taskId

/-- The task waits for an approval. -/
def Waiting (s : NodeState) (taskId : TaskId) : Prop :=
  s.runtime.permissionManager.Waiting taskId

/-- A node under any sequence of messages, with any rules and any clock. -/
def system : System NodeState Delivery where
  Init s := s.runtime.permissionManager.pendingApprovals = ∅ ∧ s.runtime.runningTasks = ∅ ∧
    s.handled = [] ∧ s.events = []
  Step s delivery t := t = s.deliver delivery

end NodeState
end UHorse.Node
