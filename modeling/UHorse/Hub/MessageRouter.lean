import UHorse.Hub.SessionRuntime

/-!
# The message router of the Hub

`routeNodeMessage` is called with the node id of the connection a message came
in on; the message carries ids of its own. A heartbeat is charged to the
connection's node. A task result is charged to whatever task it names, and an
unregistration to whatever node it names. `routeNodeMessage_isolated_iff` says
for which messages a connection leaves the other nodes alone.

A call runs without interruption here: each of its effects is one section of the
component it calls, and no effect depends on what happens in between.
-/

namespace UHorse.Hub

open UHorse.Lib UHorse.Protocol

/-- The JSON object the router attaches to an approval request, key by key. -/
structure ApprovalMetadata where
  requestId : String
  taskId : TaskId
  nodeId : NodeId
  commandType : CommandType
  command : Command
  context : TaskContext
  reason : String
  requestedAt : DateTime
  expiresAt : DateTime

inductive ApprovalStatus
  | pending
  | approved
  | rejected
  | cancelled
  | timedOut
deriving DecidableEq, Repr

structure Approver where
  userId : String
  name : String
  role : String

/-- An entry of `ApprovalManager`, for the level `Single` the router asks for. -/
structure HubApproval where
  id : String
  action : String
  requestedBy : String
  status : ApprovalStatus
  createdAt : Nat
  expiresAt : Nat
  requiredApprovers : List Approver
  metadata : ApprovalMetadata

structure IdempotencyRecord where
  approvalId : String
  expiresAt : Nat

/-- `SecurityManager`, as far as approvals go: the idempotency cache, the pending
requests and the verdicts of the rule engine. -/
structure SecurityManager where
  records : String → Option IdempotencyRecord
  pending : HashMap String HubApproval
  autoApprove : ApprovalMetadata → Bool
  autoReject : ApprovalMetadata → Bool

namespace SecurityManager

def new (autoApprove autoReject : ApprovalMetadata → Bool) : SecurityManager where
  records := fun _ => none
  pending := ∅
  autoApprove := autoApprove
  autoReject := autoReject

/-- `check_or_record`: expired records go first, and nothing is recorded. -/
def checkIdempotency (manager : SecurityManager) (key : String) (now : Nat) :
    Bool × SecurityManager :=
  let records := fun key => (manager.records key).filter (fun record => now < record.expiresAt)
  ((records key).isSome, { manager with records })

def storeIdempotencyResponse (manager : SecurityManager) (key approvalId : String)
    (ttlSeconds now : Nat) : SecurityManager :=
  { manager with
    records := Function.update manager.records key (some ⟨approvalId, now + ttlSeconds⟩) }

/-- `create_request` with the id `id`: a request the rules decide is not stored. -/
def requestApproval (manager : SecurityManager) (nodeId : NodeId) (operation : String)
    (metadata : ApprovalMetadata) (id : String) (now : Nat) : SecurityManager :=
  if manager.autoApprove metadata then manager
  else if manager.autoReject metadata then manager
  else
    let request : HubApproval :=
      { id, action := operation, requestedBy := nodeId.value, status := .pending
        createdAt := now, expiresAt := now + 86400
        requiredApprovers := [⟨"hub-admin", "Hub Administrator", "admin"⟩], metadata }
    { manager with pending := manager.pending.insert id request }

end SecurityManager

/-- What the router and the web handlers share. `results` are the notifications
the result loop has not taken yet. -/
structure HubState where
  nodeManager : NodeManager
  taskScheduler : TaskScheduler
  nodeSenders : Senders
  sessionRuntime : SessionRuntime
  securityManager : Option SecurityManager
  results : List TaskResult

/-- What a call draws from outside: the clock, a fresh approval id and the order
in which `completed_tasks` iterates. -/
structure RouterEnv where
  now : DateTime
  approvalId : String
  completedOrder : List (TaskId × CompletedTask)

namespace HubState

def new (maxNodes heartbeatTimeoutSecs maxRetries taskTimeoutSecs : Nat)
    (securityManager : Option SecurityManager) : HubState where
  nodeManager := .new maxNodes heartbeatTimeoutSecs
  taskScheduler := .new maxRetries taskTimeoutSecs
  nodeSenders := ∅
  sessionRuntime := .new
  securityManager := securityManager
  results := []

def registerNodeSender (hub : HubState) (nodeId : NodeId) (sender : Nat) : HubState :=
  { hub with nodeSenders := hub.nodeSenders.insert nodeId sender }

def unregisterNodeSender (hub : HubState) (nodeId : NodeId) : HubState :=
  { hub with nodeSenders := hub.nodeSenders.erase nodeId }

/-- The effect of a node manager call; a failed one leaves the registry alone. -/
def withNodeManager (hub : HubState) (outcome : Except HubError NodeManager) :
    HubState × Except HubError Unit :=
  match outcome with
  | .ok nodeManager => ({ hub with nodeManager }, .ok ())
  | .error error => (hub, .error error)

def completeTask (hub : HubState) (env : RouterEnv) (taskId : TaskId) (nodeId : NodeId)
    (result : CommandResult) : HubState :=
  let outcome := hub.taskScheduler.completeTask taskId nodeId result env.now env.completedOrder
  { hub with taskScheduler := outcome.1, results := hub.results ++ outcome.2.toList }

def approvalOperationForCommand (command : Command) : String :=
  match command.commandType with
  | .file => "file_delete"
  | .shell => "system_command"
  | .api => "network_access"
  | .browser => "network_access"
  | .database => "network_access"
  | .code => "config_change"
  | .skill => "config_change"

/-- Whole seconds, at least one; a request that expires before it was made gets one. -/
def approvalRequestTtlSeconds (requestedAt expiresAt : DateTime) : Nat :=
  if expiresAt < requestedAt then 1
  else max ((expiresAt - requestedAt) / seconds 1).toNat 1

def unixSeconds (now : DateTime) : Nat := (now / seconds 1).toNat

/-- The turn a task belongs to waits for approval, and its transcript says why. -/
def noteApprovalRequest (runtime : SessionRuntime) (taskId : TaskId) (requestId reason : String)
    (now : DateTime) : SessionRuntime :=
  match runtime.taskBinding taskId with
  | some binding =>
    (runtime.markWaitingForApproval binding.sessionKey).appendTranscriptEvent
      binding.sessionKey .approvalRequested
      ("request_id=" ++ requestId ++ "; reason=" ++ reason) now
  | none => runtime

def routeApprovalRequest (hub : HubState) (env : RouterEnv) (nodeId : NodeId) (requestId : String)
    (taskId : TaskId) (command : Command) (context : TaskContext) (reason : String)
    (timestamp expiresAt : DateTime) : HubState × Except HubError Unit :=
  match hub.securityManager with
  | none => (hub, .error (.permission "Approval request requires security manager"))
  | some manager =>
    let ttl := approvalRequestTtlSeconds timestamp expiresAt
    let (processed, manager) := manager.checkIdempotency requestId (unixSeconds env.now)
    if processed then ({ hub with securityManager := some manager }, .ok ())
    else
      let metadata : ApprovalMetadata :=
        { requestId, taskId, nodeId, commandType := command.commandType, command, context
          reason, requestedAt := timestamp, expiresAt }
      let manager := manager.requestApproval nodeId (approvalOperationForCommand command)
        metadata env.approvalId (unixSeconds env.now)
      let manager := manager.storeIdempotencyResponse requestId env.approvalId ttl
        (unixSeconds env.now)
      ({ hub with
          sessionRuntime := noteApprovalRequest hub.sessionRuntime taskId requestId reason env.now
          securityManager := some manager }, .ok ())

/-- `route_node_message` for the connection of `nodeId`. Mirroring a notification
to a channel changes nothing here, and its errors are only logged. -/
def routeNodeMessage (hub : HubState) (env : RouterEnv) (nodeId : NodeId) (message : NodeToHub) :
    HubState × Except HubError Unit :=
  match message with
  | .heartbeat _ _ status load _ =>
    hub.withNodeManager (hub.nodeManager.updateHeartbeat nodeId status load env.now)
  | .taskProgress .. => (hub, .ok ())
  | .taskResult _ taskId result _ => (hub.completeTask env taskId nodeId result, .ok ())
  | .error _ (some taskId) error _ =>
    (hub.completeTask env taskId nodeId
      (.failure (.new error.code error.message .executor)), .ok ())
  | .error _ none _ _ => (hub, .ok ())
  | .approvalRequest _ requestId taskId command context reason timestamp expiresAt =>
    hub.routeApprovalRequest env nodeId requestId taskId command context reason timestamp
      expiresAt
  | .notificationEvent .. => (hub, .ok ())
  | .unregister _ unregisterNodeId _ =>
    hub.withNodeManager (hub.nodeManager.unregisterNode unregisterNodeId)
  | .register .. => (hub, .ok ())
  | .skillReport .. => (hub, .ok ())

/-! ## What a message can do to the registry -/

/-- Routing a message changes no sender. -/
theorem nodeSenders_routeNodeMessage (hub : HubState) (env : RouterEnv) (nodeId : NodeId)
    (message : NodeToHub) :
    (hub.routeNodeMessage env nodeId message).1.nodeSenders = hub.nodeSenders := by
  have registry : ∀ outcome, (hub.withNodeManager outcome).1.nodeSenders = hub.nodeSenders := by
    intro outcome
    cases outcome <;> rfl
  cases message with
  | heartbeat => exact registry _
  | unregister => exact registry _
  | error _ taskId _ _ => cases taskId <;> rfl
  | approvalRequest =>
    rw [routeNodeMessage, routeApprovalRequest]
    dsimp only
    split
    · rfl
    · split <;> rfl
  | _ => rfl

/-- Only an unregistration takes a node out of the registry, and only the node it
names. -/
theorem mem_nodes_routeNodeMessage {hub : HubState} {env : RouterEnv} {nodeId other : NodeId}
    {message : NodeToHub} (member : other ∈ hub.nodeManager.nodes)
    (unnamed : ∀ id reason, message ≠ .unregister id other reason) :
    other ∈ (hub.routeNodeMessage env nodeId message).1.nodeManager.nodes := by
  cases message with
  | heartbeat _ _ status load _ =>
    unfold routeNodeMessage withNodeManager
    dsimp only
    split
    · next updated =>
        obtain ⟨info, -, nodes, -⟩ := NodeManager.updateHeartbeat_ok updated
        rw [nodes]
        exact Finmap.mem_insert.mpr (.inr member)
    · exact member
  | unregister id target reason =>
    have distinct : other ≠ target := by
      rintro rfl
      exact unnamed id reason rfl
    unfold routeNodeMessage withNodeManager
    dsimp only
    split
    · next removed =>
        obtain ⟨info, -, nodes, -⟩ := NodeManager.unregisterNode_ok removed
        rw [nodes]
        exact Finmap.mem_erase.mpr ⟨distinct, member⟩
    · exact member
  | error _ taskId _ _ => cases taskId <;> exact member
  | approvalRequest =>
    rw [routeNodeMessage, routeApprovalRequest]
    dsimp only
    split
    · exact member
    · split <;> exact member
  | _ => exact member

/-! ## Isolation between connections -/

/-- Nothing of a node other than `node` changed: not its registry entry, not the
workspace ids indexed for it, not its sender, and no task running on it was moved
to the completed ones. -/
structure Isolated (node : NodeId) (before after : HubState) : Prop where
  entry : ∀ other, other ≠ node →
    after.nodeManager.nodes.lookup other = before.nodeManager.nodes.lookup other
  index : ∀ other, other ≠ node → ∀ workspaceId,
    after.nodeManager.workspaceIndex.lookup workspaceId = some other ↔
      before.nodeManager.workspaceIndex.lookup workspaceId = some other
  sender : ∀ other, other ≠ node →
    after.nodeSenders.lookup other = before.nodeSenders.lookup other
  running : ∀ taskId running, before.taskScheduler.runningTasks.lookup taskId = some running →
    running.nodeId ≠ node → after.taskScheduler.runningTasks.lookup taskId = some running

/-- The registry allows `node` to be taken out without touching another node: the
index entry of its workspace id is its own. -/
def OwnsIndex (hub : HubState) (node : NodeId) : Prop :=
  ∀ info workspaceId other, hub.nodeManager.nodes.lookup node = some info →
    info.workspace.workspaceId = some workspaceId →
    hub.nodeManager.workspaceIndex.lookup workspaceId = some other → other = node

/-- A task, if it is running, runs on `node`. -/
def RunsOn (hub : HubState) (node : NodeId) (taskId : TaskId) : Prop :=
  ∀ running, hub.taskScheduler.runningTasks.lookup taskId = some running →
    running.nodeId = node

/-- The ids in the payload are those of the connection: a result or an error names
no task that runs on another node, and an unregistration names the connection's
own node, whose workspace id no other node holds, or a node not registered. -/
def ActsOnOwn (hub : HubState) (node : NodeId) : NodeToHub → Prop
  | .taskResult _ taskId _ _ => hub.RunsOn node taskId
  | .error _ (some taskId) _ _ => hub.RunsOn node taskId
  | .unregister _ target _ =>
    target ∈ hub.nodeManager.nodes → target = node ∧ hub.OwnsIndex node
  | _ => True

theorem Isolated.refl (node : NodeId) (hub : HubState) : Isolated node hub hub :=
  ⟨fun _ _ => rfl, fun _ _ _ => Iff.rfl, fun _ _ => rfl, fun _ _ found _ => found⟩

/-- Only the registry, the senders and the running tasks matter. -/
theorem Isolated.of_registry {node : NodeId} {before after : HubState}
    (nodes : after.nodeManager = before.nodeManager)
    (senders : after.nodeSenders = before.nodeSenders)
    (tasks : after.taskScheduler = before.taskScheduler) : Isolated node before after := by
  refine ⟨fun _ _ => by rw [nodes], fun _ _ _ => by rw [nodes], fun _ _ => by rw [senders], ?_⟩
  intro taskId running found _
  rw [tasks]
  exact found

theorem routeApprovalRequest_isolated (hub : HubState) (env : RouterEnv) (node : NodeId)
    (requestId : String) (taskId : TaskId) (command : Command) (context : TaskContext)
    (reason : String) (timestamp expiresAt : DateTime) :
    Isolated node hub (hub.routeApprovalRequest env node requestId taskId command context reason
      timestamp expiresAt).1 := by
  rw [routeApprovalRequest]
  split
  · exact .refl node hub
  · dsimp only
    split
    · exact .of_registry rfl rfl rfl
    · exact .of_registry rfl rfl rfl

/-- A heartbeat writes the entry of the connection's node only. -/
theorem updateHeartbeat_isolated (hub : HubState) (node : NodeId) (status : NodeStatus)
    (load : LoadInfo) (now : DateTime) :
    Isolated node hub
      (hub.withNodeManager (hub.nodeManager.updateHeartbeat node status load now)).1 := by
  cases updated : hub.nodeManager.updateHeartbeat node status load now with
  | error _ => exact .refl node hub
  | ok manager =>
    obtain ⟨info, -, nodes, index⟩ := NodeManager.updateHeartbeat_ok updated
    refine ⟨?_, ?_, fun _ _ => rfl, fun _ _ found _ => found⟩
    · intro other distinct
      show manager.nodes.lookup other = _
      rw [nodes, HashMap.lookup_insert_ite, if_neg distinct]
    · intro other _ workspaceId
      show manager.workspaceIndex.lookup workspaceId = _ ↔ _
      rw [index]

theorem completeTask_isolated_iff (hub : HubState) (env : RouterEnv) (node : NodeId)
    (taskId : TaskId)
    (result : CommandResult) :
    Isolated node hub (hub.completeTask env taskId node result) ↔ hub.RunsOn node taskId := by
  have lookups : ∀ other,
      (hub.completeTask env taskId node result).taskScheduler.runningTasks.lookup other =
        if other = taskId then none else hub.taskScheduler.runningTasks.lookup other :=
    TaskScheduler.lookup_runningTasks_completeTask node result env.now env.completedOrder
  constructor
  · intro isolated running found
    by_contra elsewhere
    have kept := isolated.running taskId running found elsewhere
    rw [lookups taskId, if_pos rfl] at kept
    cases kept
  · intro own
    refine ⟨fun _ _ => rfl, fun _ _ _ => Iff.rfl, fun _ _ => rfl, ?_⟩
    intro other running found elsewhere
    have distinct : other ≠ taskId := by
      rintro rfl
      exact elsewhere (own running found)
    rw [lookups other, if_neg distinct, found]

/-- Taking a node out of the registry leaves the others alone exactly if it is the
connection's own node and its index entry is not another's. -/
theorem unregisterNode_isolated_iff (hub : HubState) (node target : NodeId) :
    Isolated node hub (hub.withNodeManager (hub.nodeManager.unregisterNode target)).1 ↔
      (target ∈ hub.nodeManager.nodes → target = node ∧ hub.OwnsIndex node) := by
  cases removed : hub.nodeManager.unregisterNode target with
  | error error =>
    have missing : target ∉ hub.nodeManager.nodes := by
      rw [NodeManager.unregisterNode] at removed
      split at removed
      · cases removed
      · next missing => exact Finmap.lookup_eq_none.mp missing
    exact ⟨fun _ member => absurd member missing, fun _ => .refl node hub⟩
  | ok manager =>
    obtain ⟨info, found, nodes, index⟩ := NodeManager.unregisterNode_ok removed
    constructor
    · intro isolated _
      have own : target = node := by
        by_contra foreign
        have kept : manager.nodes.lookup target = _ := isolated.entry target foreign
        rw [nodes, HashMap.lookup_erase_ite, if_pos rfl, found] at kept
        cases kept
      refine ⟨own, ?_⟩
      subst own
      intro info' workspaceId other found' stored indexed
      obtain rfl : info = info' := Option.some.inj (found.symm.trans found')
      by_contra foreign
      have kept : manager.workspaceIndex.lookup workspaceId = some other :=
        (isolated.index other foreign workspaceId).mpr indexed
      rw [index, NodeManager.lookup_dropIndex, if_pos (by simpa using stored)] at kept
      cases kept
    · intro own
      obtain ⟨rfl, owns⟩ := own (HashMap.mem_of_lookup found)
      refine ⟨?_, ?_, fun _ _ => rfl, fun _ _ found _ => found⟩
      · intro other distinct
        show manager.nodes.lookup other = _
        rw [nodes, HashMap.lookup_erase_ite, if_neg distinct]
      · intro other distinct workspaceId
        show manager.workspaceIndex.lookup workspaceId = _ ↔ _
        rw [index, NodeManager.lookup_dropIndex]
        split
        · next stored =>
            constructor
            · intro impossible
              cases impossible
            · intro indexed
              have same := owns info workspaceId other found (by simpa using stored) indexed
              exact absurd same distinct
        · exact Iff.rfl

/-- A message of a connection leaves every other node alone exactly if the task or
the node it names is the connection's own. -/
theorem routeNodeMessage_isolated_iff (hub : HubState) (env : RouterEnv) (node : NodeId)
    (message : NodeToHub) :
    Isolated node hub (hub.routeNodeMessage env node message).1 ↔
      hub.ActsOnOwn node message := by
  cases message with
  | heartbeat _ _ status load _ =>
    exact iff_of_true (hub.updateHeartbeat_isolated node status load env.now) trivial
  | taskResult _ taskId result _ => exact hub.completeTask_isolated_iff env node taskId result
  | error _ taskId error _ =>
    cases taskId with
    | none => exact iff_of_true (.refl node hub) trivial
    | some taskId => exact hub.completeTask_isolated_iff env node taskId _
  | approvalRequest _ requestId taskId command context reason timestamp expiresAt =>
    exact iff_of_true (hub.routeApprovalRequest_isolated env node requestId taskId command
      context reason timestamp expiresAt) trivial
  | unregister _ target _ => exact hub.unregisterNode_isolated_iff node target
  | taskProgress | notificationEvent | register | skillReport =>
    exact iff_of_true (.refl node hub) trivial

/-- Two nodes, each registered by its own connection. -/
def twoNodes : Except HubError HubState := do
  let hub := HubState.new 10 90 3 300 none
  let workspace : WorkspaceInfo := ⟨none, "ws", "/ws", false, [], []⟩
  let first ← hub.nodeManager.registerNode ⟨"a"⟩ "a" .default workspace [] 0
  let second ← first.registerNode ⟨"b"⟩ "b" .default workspace [] 0
  return { hub with nodeManager := second }

/-- The connection of node `a` takes node `b` out of the registry. -/
theorem routeNodeMessage_unregisters_other :
    ∃ hub, twoNodes = .ok hub ∧
      ¬ Isolated ⟨"a"⟩ hub
        (hub.routeNodeMessage ⟨0, "", []⟩ ⟨"a"⟩ (.unregister ⟨"m"⟩ ⟨"b"⟩ "bye")).1 := by
  refine ⟨_, rfl, ?_⟩
  intro isolated
  have kept := isolated.entry ⟨"b"⟩ (by decide)
  revert kept
  decide

end HubState
end UHorse.Hub
