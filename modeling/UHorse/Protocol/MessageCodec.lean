import Mathlib.Data.Finset.Sort
import Mathlib.Data.String.Basic
import UHorse.Protocol.CommandCodec

/-!
# Encoding and decoding messages

`MessageCodec` for both directions. `decode_encode_iff` says which messages and
commands come back as they were.
-/

namespace UHorse.Protocol

open UHorse.Lib Serde

namespace ProtocolResourcePattern

abbrev exactVariant : Variant ProtocolResourcePattern String where
  name := "exact"
  fields := Fields.required "path" .string
  make := .exact

abbrev globVariant : Variant ProtocolResourcePattern String where
  name := "glob"
  fields := Fields.required "pattern" .string
  make := .glob

abbrev regexVariant : Variant ProtocolResourcePattern String where
  name := "regex"
  fields := Fields.required "pattern" .string
  make := .regex

abbrev pathPrefixVariant : Variant ProtocolResourcePattern String where
  name := "prefix"
  fields := Fields.required "prefix" .string
  make := .pathPrefix

def variants : Variants ProtocolResourcePattern where
  write
    | .exact path => exactVariant.write path
    | .glob pattern => globVariant.write pattern
    | .regex pattern => regexVariant.write pattern
    | .pathPrefix value => pathPrefixVariant.write value
  keys := ["path", "pattern", "prefix"]
  written
    | .exact .. => exactVariant.written_within rfl _
    | .glob .. => globVariant.written_within rfl _
    | .regex .. => regexVariant.written_within rfl _
    | .pathPrefix .. => pathPrefixVariant.written_within rfl _
  cases := [exactVariant.case, globVariant.case, regexVariant.case, pathPrefixVariant.case]

def body : Body ProtocolResourcePattern := variants.tagged "type"

instance : body.RoundTrips fun _ => True := by
  refine Variants.tagged_roundTrips rfl fun value => ?_
  cases value with
  | exact path => exact exactVariant.reread_iff variants path rfl rfl (by simp)
  | glob pattern => exact globVariant.reread_iff variants pattern rfl rfl (by simp)
  | regex pattern => exact regexVariant.reread_iff variants pattern rfl rfl (by simp)
  | pathPrefix value => exact pathPrefixVariant.reread_iff variants value rfl rfl (by simp)

end ProtocolResourcePattern

namespace ProtocolCondition

abbrev timeRangeVariant : Variant ProtocolCondition (String × String) where
  name := "time_range"
  fields :=
    (Fields.required "start" .string).and <|
    Fields.required "end" .string
  make := fun range => .timeRange range.1 range.2

abbrev ipWhitelistVariant : Variant ProtocolCondition (List String) where
  name := "ip_whitelist"
  fields := Fields.required "ips" Codec.string.list
  make := .ipWhitelist

abbrev userRestrictionVariant : Variant ProtocolCondition (List String) where
  name := "user_restriction"
  fields := Fields.required "allowed_users" Codec.string.list
  make := .userRestriction

abbrev sizeLimitVariant : Variant ProtocolCondition Nat where
  name := "size_limit"
  fields := Fields.required "max_bytes" .nat
  make := .sizeLimit

def variants : Variants ProtocolCondition where
  write
    | .timeRange start finish => timeRangeVariant.write (start, finish)
    | .ipWhitelist ips => ipWhitelistVariant.write ips
    | .userRestriction allowedUsers => userRestrictionVariant.write allowedUsers
    | .sizeLimit maxBytes => sizeLimitVariant.write maxBytes
  keys := ["start", "end", "ips", "allowed_users", "max_bytes"]
  written
    | .timeRange .. => timeRangeVariant.written_within rfl _
    | .ipWhitelist .. => ipWhitelistVariant.written_within rfl _
    | .userRestriction .. => userRestrictionVariant.written_within rfl _
    | .sizeLimit .. => sizeLimitVariant.written_within rfl _
  cases := [timeRangeVariant.case, ipWhitelistVariant.case, userRestrictionVariant.case,
    sizeLimitVariant.case]

def body : Body ProtocolCondition := variants.tagged "type"

instance : body.RoundTrips fun _ => True := by
  refine Variants.tagged_roundTrips rfl fun value => ?_
  cases value with
  | timeRange start finish =>
    exact timeRangeVariant.reread_iff variants (start, finish) rfl rfl (by simp)
  | ipWhitelist ips => exact ipWhitelistVariant.reread_iff variants ips rfl rfl (by simp)
  | userRestriction allowedUsers =>
    exact userRestrictionVariant.reread_iff variants allowedUsers rfl rfl (by simp)
  | sizeLimit maxBytes => exact sizeLimitVariant.reread_iff variants maxBytes rfl rfl (by simp)

end ProtocolCondition

/-- `PermissionRule`. -/
def ProtocolPermissionRule.fields : Fields ProtocolPermissionRule :=
  ((Fields.required "id" .string).and <|
    (Fields.required "name" .string).and <|
    (Fields.required "resource" ProtocolResourcePattern.body.codec).and <|
    (Fields.required "actions" ProtocolAction.codec.list).and <|
    (Fields.required "conditions" ProtocolCondition.body.codec.list).and <|
    (Fields.defaulted "require_approval" .bool false).and <|
    Fields.defaulted "enabled" .bool true).as
  ⟨fun (id, name, resource, actions, conditions, requireApproval, enabled) =>
      ⟨id, name, resource, actions, conditions, requireApproval, enabled⟩,
    fun rule => (rule.id, rule.name, rule.resource, rule.actions, rule.conditions,
      rule.requireApproval, rule.enabled),
    fun _ => rfl, fun _ => rfl⟩

instance : ProtocolPermissionRule.fields.RoundTrips fun _ => True := by
  rw [ProtocolPermissionRule.fields]
  exact Body.RoundTrips.congr inferInstance fun _ => by simp

/-- The variant with data is an object with its name as the only key. -/
def SkillStatus.codec : Codec SkillStatus where
  encode
    | .active => .string "active"
    | .disabled => .string "disabled"
    | .error message =>
      .object [("error", (Fields.required "message" Codec.string).codec.encode message)]
  decode
    | .string "active" => some .active
    | .string "disabled" => some .disabled
    | .object [("error", value)] =>
      ((Fields.required "message" Codec.string).codec.decode value).map .error
    | _ => none

instance : SkillStatus.codec.RoundTrips fun _ => True := by
  refine Codec.roundTrips_of_eq fun status => ?_
  cases status with
  | active => rfl
  | disabled => rfl
  | error message => rfl

def InstalledSkill.fields (wire : Wire) : Fields InstalledSkill :=
  ((Fields.required "name" .string).and <|
    (Fields.required "version" .string).and <|
    (Fields.required "installed_at" wire.time).and <|
    Fields.required "status" SkillStatus.codec).as
  ⟨fun (name, version, installedAt, status) => ⟨name, version, installedAt, status⟩,
    fun skill => (skill.name, skill.version, skill.installedAt, skill.status),
    fun _ => rfl, fun _ => rfl⟩

instance (wire : Wire) : (InstalledSkill.fields wire).RoundTrips fun _ => True := by
  rw [InstalledSkill.fields]
  exact Body.RoundTrips.congr inferInstance fun _ => by simp

namespace HubToNode

abbrev taskAssignmentVariant (wire : Wire) : Variant HubToNode (MessageId × TaskId × Command ×
    Priority × Option DateTime × TaskContext × Nat × Nat) where
  name := "task_assignment"
  fields :=
    (Fields.defaulted "message_id" MessageId.codec wire.freshId).and <|
    (Fields.required "task_id" TaskId.codec).and <|
    (Fields.required "command" (Command.body wire).codec).and <|
    (Fields.defaulted "priority" Priority.codec .normal).and <|
    (Fields.optional "deadline" wire.time).and <|
    (Fields.required "context" (TaskContext.fields wire).codec).and <|
    (Fields.defaulted "retry_count" .nat 0).and <|
    Fields.defaulted "max_retries" .nat 3
  make := fun (messageId, taskId, command, priority, deadline, context, retryCount, maxRetries) =>
    .taskAssignment messageId taskId command priority deadline context retryCount maxRetries

abbrev taskCancellationVariant (wire : Wire) : Variant HubToNode (MessageId × TaskId × String) where
  name := "task_cancellation"
  fields :=
    (Fields.defaulted "message_id" MessageId.codec wire.freshId).and <|
    (Fields.required "task_id" TaskId.codec).and <|
    Fields.required "reason" .string
  make := fun (messageId, taskId, reason) => .taskCancellation messageId taskId reason

abbrev heartbeatRequestVariant (wire : Wire) : Variant HubToNode (MessageId × DateTime) where
  name := "heartbeat_request"
  fields :=
    (Fields.defaulted "message_id" MessageId.codec wire.freshId).and <|
    Fields.required "timestamp" wire.time
  make := fun (messageId, timestamp) => .heartbeatRequest messageId timestamp

abbrev configUpdateVariant (wire : Wire) : Variant HubToNode (MessageId × Json) where
  name := "config_update"
  fields :=
    (Fields.defaulted "message_id" MessageId.codec wire.freshId).and <|
    Fields.required "config" .json
  make := fun (messageId, config) => .configUpdate messageId config

abbrev permissionUpdateVariant (wire : Wire) : Variant HubToNode (MessageId × List
    ProtocolPermissionRule) where
  name := "permission_update"
  fields :=
    (Fields.defaulted "message_id" MessageId.codec wire.freshId).and <|
    Fields.required "rules" ProtocolPermissionRule.fields.codec.list
  make := fun (messageId, rules) => .permissionUpdate messageId rules

abbrev skillDeployVariant (wire : Wire) : Variant HubToNode (MessageId × String × String × String ×
    Option (List UInt8)) where
  name := "skill_deploy"
  fields :=
    (Fields.defaulted "message_id" MessageId.codec wire.freshId).and <|
    (Fields.required "skill_name" .string).and <|
    (Fields.required "version" .string).and <|
    (Fields.required "skill_definition" .string).and <|
    Fields.optional "code" Codec.byte.list
  make := fun (messageId, skillName, version, skillDefinition, code) => .skillDeploy messageId
    skillName version skillDefinition code

abbrev skillRemoveVariant (wire : Wire) : Variant HubToNode (MessageId × String) where
  name := "skill_remove"
  fields :=
    (Fields.defaulted "message_id" MessageId.codec wire.freshId).and <|
    Fields.required "skill_name" .string
  make := fun (messageId, skillName) => .skillRemove messageId skillName

abbrev approvalResponseVariant (wire : Wire) : Variant HubToNode (MessageId × String × Bool ×
    String × Option String × DateTime) where
  name := "approval_response"
  fields :=
    (Fields.defaulted "message_id" MessageId.codec wire.freshId).and <|
    (Fields.required "request_id" .string).and <|
    (Fields.required "approved" .bool).and <|
    (Fields.required "responder" .string).and <|
    (Fields.optional "reason" .string).and <|
    Fields.required "responded_at" wire.time
  make := fun (messageId, requestId, approved, responder, reason, respondedAt) => .approvalResponse
    messageId requestId approved responder reason respondedAt

abbrev disconnectVariant (wire : Wire) : Variant HubToNode (MessageId × String × Bool) where
  name := "disconnect"
  fields :=
    (Fields.defaulted "message_id" MessageId.codec wire.freshId).and <|
    (Fields.required "reason" .string).and <|
    Fields.required "reconnectable" .bool
  make := fun (messageId, reason, reconnectable) => .disconnect messageId reason reconnectable

def variants (wire : Wire) : Variants HubToNode where
  write
    | .taskAssignment messageId taskId command priority deadline context retryCount maxRetries =>
      (taskAssignmentVariant wire).write (messageId, taskId, command, priority, deadline,
      context, retryCount, maxRetries)
    | .taskCancellation messageId taskId reason => (taskCancellationVariant wire).write (messageId,
        taskId, reason)
    | .heartbeatRequest messageId timestamp => (heartbeatRequestVariant wire).write (messageId,
        timestamp)
    | .configUpdate messageId config => (configUpdateVariant wire).write (messageId, config)
    | .permissionUpdate messageId rules => (permissionUpdateVariant wire).write (messageId, rules)
    | .skillDeploy messageId skillName version skillDefinition code => (skillDeployVariant
        wire).write (messageId, skillName, version, skillDefinition, code)
    | .skillRemove messageId skillName => (skillRemoveVariant wire).write (messageId, skillName)
    | .approvalResponse messageId requestId approved responder reason respondedAt =>
      (approvalResponseVariant wire).write (messageId, requestId, approved, responder, reason,
      respondedAt)
    | .disconnect messageId reason reconnectable => (disconnectVariant wire).write (messageId,
        reason, reconnectable)
  keys := ["message_id", "task_id", "command", "priority", "deadline", "context", "retry_count",
    "max_retries", "reason", "timestamp", "config", "rules", "skill_name", "version",
    "skill_definition", "code", "request_id", "approved", "responder", "responded_at",
    "reconnectable"]
  written
    | .taskAssignment .. => (taskAssignmentVariant wire).written_within rfl _
    | .taskCancellation .. => (taskCancellationVariant wire).written_within rfl _
    | .heartbeatRequest .. => (heartbeatRequestVariant wire).written_within rfl _
    | .configUpdate .. => (configUpdateVariant wire).written_within rfl _
    | .permissionUpdate .. => (permissionUpdateVariant wire).written_within rfl _
    | .skillDeploy .. => (skillDeployVariant wire).written_within rfl _
    | .skillRemove .. => (skillRemoveVariant wire).written_within rfl _
    | .approvalResponse .. => (approvalResponseVariant wire).written_within rfl _
    | .disconnect .. => (disconnectVariant wire).written_within rfl _
  cases := [(taskAssignmentVariant wire).case, (taskCancellationVariant wire).case,
    (heartbeatRequestVariant wire).case, (configUpdateVariant wire).case, (permissionUpdateVariant
    wire).case, (skillDeployVariant wire).case, (skillRemoveVariant wire).case,
    (approvalResponseVariant wire).case, (disconnectVariant wire).case]

def body (wire : Wire) : Body HubToNode := (variants wire).tagged "direction"

/-- A command that is assigned survives. -/
def Portable : HubToNode → Prop
  | .taskAssignment _ _ command _ _ _ _ _ => command.Portable
  | _ => True

instance (wire : Wire) : (body wire).RoundTrips Portable := by
  refine Variants.tagged_roundTrips rfl fun value => ?_
  cases value with
  | taskAssignment messageId taskId command priority deadline context retryCount maxRetries =>
    exact (taskAssignmentVariant wire).reread_iff (variants wire) (messageId, taskId, command,
      priority, deadline, context, retryCount, maxRetries) rfl rfl (by simp [Portable])
  | taskCancellation messageId taskId reason =>
    exact (taskCancellationVariant wire).reread_iff (variants wire) (messageId, taskId, reason)
      rfl rfl (by simp [Portable])
  | heartbeatRequest messageId timestamp =>
    exact (heartbeatRequestVariant wire).reread_iff (variants wire) (messageId, timestamp) rfl
      rfl (by simp [Portable])
  | configUpdate messageId config =>
    exact (configUpdateVariant wire).reread_iff (variants wire) (messageId, config) rfl rfl (by
      simp [Portable])
  | permissionUpdate messageId rules =>
    exact (permissionUpdateVariant wire).reread_iff (variants wire) (messageId, rules) rfl rfl
      (by simp [Portable])
  | skillDeploy messageId skillName version skillDefinition code =>
    exact (skillDeployVariant wire).reread_iff (variants wire) (messageId, skillName, version,
      skillDefinition, code) rfl rfl (by simp [Portable])
  | skillRemove messageId skillName =>
    exact (skillRemoveVariant wire).reread_iff (variants wire) (messageId, skillName) rfl rfl (by
      simp [Portable])
  | approvalResponse messageId requestId approved responder reason respondedAt =>
    exact (approvalResponseVariant wire).reread_iff (variants wire) (messageId, requestId,
      approved, responder, reason, respondedAt) rfl rfl (by simp [Portable])
  | disconnect messageId reason reconnectable =>
    exact (disconnectVariant wire).reread_iff (variants wire) (messageId, reason, reconnectable)
      rfl rfl (by simp [Portable])

end HubToNode

namespace NodeToHub

abbrev registerVariant (wire : Wire) : Variant NodeToHub (MessageId × NodeId × String ×
    NodeCapabilities × WorkspaceInfo × String × DateTime) where
  name := "register"
  fields :=
    (Fields.defaulted "message_id" MessageId.codec wire.freshId).and <|
    (Fields.required "node_id" NodeId.codec).and <|
    (Fields.required "name" .string).and <|
    (Fields.required "capabilities" NodeCapabilities.fields.codec).and <|
    (Fields.required "workspace" WorkspaceInfo.fields.codec).and <|
    (Fields.required "auth_token" .string).and <|
    Fields.required "timestamp" wire.time
  make := fun (messageId, nodeId, name, capabilities, workspace, authToken, timestamp) => .register
    messageId nodeId name capabilities workspace authToken timestamp

abbrev heartbeatVariant (wire : Wire) : Variant NodeToHub (MessageId × NodeId × NodeStatus ×
    LoadInfo × DateTime) where
  name := "heartbeat"
  fields :=
    (Fields.defaulted "message_id" MessageId.codec wire.freshId).and <|
    (Fields.required "node_id" NodeId.codec).and <|
    (Fields.required "status" (NodeStatus.fields wire).codec).and <|
    (Fields.required "load" (LoadInfo.fields wire).codec).and <|
    Fields.required "timestamp" wire.time
  make := fun (messageId, nodeId, status, load, timestamp) => .heartbeat messageId nodeId status
    load timestamp

abbrev taskResultVariant (wire : Wire) : Variant NodeToHub (MessageId × TaskId × CommandResult ×
    ExecutionMetrics) where
  name := "task_result"
  fields :=
    (Fields.defaulted "message_id" MessageId.codec wire.freshId).and <|
    (Fields.required "task_id" TaskId.codec).and <|
    (Fields.required "result" (CommandResult.fields wire).codec).and <|
    Fields.required "metrics" ExecutionMetrics.fields.codec
  make := fun (messageId, taskId, result, metrics) => .taskResult messageId taskId result metrics

abbrev taskProgressVariant (wire : Wire) : Variant NodeToHub (MessageId × TaskId × BitVec 32 ×
    String × DateTime) where
  name := "task_progress"
  fields :=
    (Fields.defaulted "message_id" MessageId.codec wire.freshId).and <|
    (Fields.required "task_id" TaskId.codec).and <|
    (Fields.required "progress" wire.float.codec).and <|
    (Fields.required "message" .string).and <|
    Fields.required "timestamp" wire.time
  make := fun (messageId, taskId, progress, message, timestamp) => .taskProgress messageId taskId
    progress message timestamp

abbrev errorVariant (wire : Wire) : Variant NodeToHub (MessageId × Option TaskId × NodeErrorReport
    × DateTime) where
  name := "error"
  fields :=
    (Fields.defaulted "message_id" MessageId.codec wire.freshId).and <|
    (Fields.optional "task_id" TaskId.codec).and <|
    (Fields.required "error" NodeErrorReport.fields.codec).and <|
    Fields.required "timestamp" wire.time
  make := fun (messageId, taskId, report, timestamp) => .error messageId taskId report timestamp

abbrev approvalRequestVariant (wire : Wire) : Variant NodeToHub (MessageId × String × TaskId ×
    Command × TaskContext × String × DateTime × DateTime) where
  name := "approval_request"
  fields :=
    (Fields.defaulted "message_id" MessageId.codec wire.freshId).and <|
    (Fields.required "request_id" .string).and <|
    (Fields.required "task_id" TaskId.codec).and <|
    (Fields.required "command" (Command.body wire).codec).and <|
    (Fields.required "context" (TaskContext.fields wire).codec).and <|
    (Fields.required "reason" .string).and <|
    (Fields.required "timestamp" wire.time).and <|
    Fields.required "expires_at" wire.time
  make := fun (messageId, requestId, taskId, command, context, reason, timestamp, expiresAt) =>
    .approvalRequest messageId requestId taskId command context reason timestamp expiresAt

abbrev unregisterVariant (wire : Wire) : Variant NodeToHub (MessageId × NodeId × String) where
  name := "unregister"
  fields :=
    (Fields.defaulted "message_id" MessageId.codec wire.freshId).and <|
    (Fields.required "node_id" NodeId.codec).and <|
    Fields.required "reason" .string
  make := fun (messageId, nodeId, reason) => .unregister messageId nodeId reason

abbrev skillReportVariant (wire : Wire) : Variant NodeToHub (MessageId × NodeId × List
    InstalledSkill) where
  name := "skill_report"
  fields :=
    (Fields.defaulted "message_id" MessageId.codec wire.freshId).and <|
    (Fields.required "node_id" NodeId.codec).and <|
    Fields.required "installed_skills" (InstalledSkill.fields wire).codec.list
  make := fun (messageId, nodeId, installedSkills) => .skillReport messageId nodeId installedSkills

abbrev notificationEventVariant (wire : Wire) : Variant NodeToHub (MessageId × NodeId ×
    NotificationEvent) where
  name := "notification_event"
  fields :=
    (Fields.defaulted "message_id" MessageId.codec wire.freshId).and <|
    (Fields.required "node_id" NodeId.codec).and <|
    Fields.required "event" (NotificationEvent.fields wire).codec
  make := fun (messageId, nodeId, event) => .notificationEvent messageId nodeId event

def variants (wire : Wire) : Variants NodeToHub where
  write
    | .register messageId nodeId name capabilities workspace authToken timestamp =>
      (registerVariant wire).write (messageId, nodeId, name, capabilities, workspace, authToken,
      timestamp)
    | .heartbeat messageId nodeId status load timestamp => (heartbeatVariant wire).write
        (messageId, nodeId, status, load, timestamp)
    | .taskResult messageId taskId result metrics => (taskResultVariant wire).write (messageId,
        taskId, result, metrics)
    | .taskProgress messageId taskId progress message timestamp => (taskProgressVariant wire).write
        (messageId, taskId, progress, message, timestamp)
    | .error messageId taskId report timestamp => (errorVariant wire).write (messageId, taskId,
        report, timestamp)
    | .approvalRequest messageId requestId taskId command context reason timestamp expiresAt =>
      (approvalRequestVariant wire).write (messageId, requestId, taskId, command, context,
      reason, timestamp, expiresAt)
    | .unregister messageId nodeId reason => (unregisterVariant wire).write (messageId, nodeId,
        reason)
    | .skillReport messageId nodeId installedSkills => (skillReportVariant wire).write (messageId,
        nodeId, installedSkills)
    | .notificationEvent messageId nodeId event => (notificationEventVariant wire).write
        (messageId, nodeId, event)
  keys := ["message_id", "node_id", "name", "capabilities", "workspace", "auth_token", "timestamp",
    "status", "load", "task_id", "result", "metrics", "progress", "message", "error", "request_id",
    "command", "context", "reason", "expires_at", "installed_skills", "event"]
  written
    | .register .. => (registerVariant wire).written_within rfl _
    | .heartbeat .. => (heartbeatVariant wire).written_within rfl _
    | .taskResult .. => (taskResultVariant wire).written_within rfl _
    | .taskProgress .. => (taskProgressVariant wire).written_within rfl _
    | .error .. => (errorVariant wire).written_within rfl _
    | .approvalRequest .. => (approvalRequestVariant wire).written_within rfl _
    | .unregister .. => (unregisterVariant wire).written_within rfl _
    | .skillReport .. => (skillReportVariant wire).written_within rfl _
    | .notificationEvent .. => (notificationEventVariant wire).written_within rfl _
  cases := [(registerVariant wire).case, (heartbeatVariant wire).case, (taskResultVariant
    wire).case, (taskProgressVariant wire).case, (errorVariant wire).case, (approvalRequestVariant
    wire).case, (unregisterVariant wire).case, (skillReportVariant wire).case,
    (notificationEventVariant wire).case]

def body (wire : Wire) : Body NodeToHub := (variants wire).tagged "direction"

/-- Floating-point numbers are finite, commands and results survive, and the details of an
error are not the value `null`. -/
def Portable : NodeToHub → Prop
  | .heartbeat _ _ status load _ =>
    (finite32 status.cpuPercent = true ∧ finite64 status.diskGb = true) ∧
      finite32 load.cpuUsage = true ∧ finite32 load.memoryUsage = true
  | .taskResult _ _ result _ => result.Portable
  | .taskProgress _ _ progress _ _ => finite32 progress = true
  | .error _ _ report _ => report.details ≠ some .null
  | .approvalRequest _ _ _ command _ _ _ _ => command.Portable
  | _ => True

instance (wire : Wire) : (body wire).RoundTrips Portable := by
  refine Variants.tagged_roundTrips rfl fun value => ?_
  cases value with
  | register messageId nodeId name capabilities workspace authToken timestamp =>
    exact (registerVariant wire).reread_iff (variants wire) (messageId, nodeId, name,
      capabilities, workspace, authToken, timestamp) rfl rfl (by simp [Portable])
  | heartbeat messageId nodeId status load timestamp =>
    exact (heartbeatVariant wire).reread_iff (variants wire) (messageId, nodeId, status, load,
      timestamp) rfl rfl (by simp [Portable])
  | taskResult messageId taskId result metrics =>
    exact (taskResultVariant wire).reread_iff (variants wire) (messageId, taskId, result,
      metrics) rfl rfl (by simp [Portable])
  | taskProgress messageId taskId progress message timestamp =>
    exact (taskProgressVariant wire).reread_iff (variants wire) (messageId, taskId, progress,
      message, timestamp) rfl rfl (by simp [Portable])
  | error messageId taskId report timestamp =>
    exact (errorVariant wire).reread_iff (variants wire) (messageId, taskId, report, timestamp)
      rfl rfl (by simp [Portable])
  | approvalRequest messageId requestId taskId command context reason timestamp expiresAt =>
    exact (approvalRequestVariant wire).reread_iff (variants wire) (messageId, requestId, taskId,
      command, context, reason, timestamp, expiresAt) rfl rfl (by simp [Portable])
  | unregister messageId nodeId reason =>
    exact (unregisterVariant wire).reread_iff (variants wire) (messageId, nodeId, reason) rfl rfl
      (by simp [Portable])
  | skillReport messageId nodeId installedSkills =>
    exact (skillReportVariant wire).reread_iff (variants wire) (messageId, nodeId,
      installedSkills) rfl rfl (by simp [Portable])
  | notificationEvent messageId nodeId event =>
    exact (notificationEventVariant wire).reread_iff (variants wire) (messageId, nodeId, event)
      rfl rfl (by simp [Portable])

end NodeToHub

/-! ## The codec -/

namespace MessageCodec

section Codec

variable (wire : Wire)

def encodeHubToNode (message : HubToNode) : Json := (HubToNode.body wire).codec.encode message

def decodeHubToNode (value : Json) : Option HubToNode := (HubToNode.body wire).codec.decode value

def encodeNodeToHub (message : NodeToHub) : Json := (NodeToHub.body wire).codec.encode message

def decodeNodeToHub (value : Json) : Option NodeToHub := (NodeToHub.body wire).codec.decode value

/-- A command as it stands in a message. -/
def encodeCommand (command : Command) : Json := (Command.body wire).codec.encode command

def decodeCommand (value : Json) : Option Command := (Command.body wire).codec.decode value

/-- Exactly the portable messages and commands come back. -/
theorem decode_encode_iff :
    (∀ message, decodeHubToNode wire (encodeHubToNode wire message) = some message ↔
      message.Portable) ∧
    (∀ message, decodeNodeToHub wire (encodeNodeToHub wire message) = some message ↔
      message.Portable) ∧
    ∀ command, decodeCommand wire (encodeCommand wire command) = some command ↔
      command.Portable := by
  have messages : (HubToNode.body wire).codec.RoundTrips HubToNode.Portable := inferInstance
  have reports : (NodeToHub.body wire).codec.RoundTrips NodeToHub.Portable := inferInstance
  have commands : (Command.body wire).codec.RoundTrips Command.Portable := inferInstance
  exact ⟨messages.exact, reports.exact, commands.exact⟩

end Codec

/-! ### A task that is assigned at the epoch -/

theorem not_isNat_of_mem {text : String} {c : Char} (member : c ∈ text.toList)
    (other : ¬ (c.isDigit = true ∨ c = '_')) : text.isNat = false := by
  rw [Bool.eq_false_iff, Ne, String.isNat_iff]
  intro digits
  exact other (digits.2.1 c member)

/-- The text of the epoch; other times are written as numbers. -/
def formatEpoch (time : DateTime) : String :=
  if time = 0 then "1970-01-01T00:00:00Z" else time.repr

def parseEpoch (text : String) : Option DateTime :=
  if text = "1970-01-01T00:00:00Z" then some 0 else text.toInt?

theorem parseEpoch_formatEpoch (time : DateTime) : parseEpoch (formatEpoch time) = some time := by
  rw [formatEpoch]
  split
  · next epoch =>
      subst epoch
      rfl
  · have other : time.repr ≠ "1970-01-01T00:00:00Z" := by
      intro same
      have number := Int.isInt_repr time
      rw [same, String.isInt_iff] at number
      obtain natural | ⟨rest, signed, -⟩ := number
      · have refused : "1970-01-01T00:00:00Z".isNat = false :=
          not_isNat_of_mem (show 'T' ∈ _ by decide) (by decide)
        cases refused.symm.trans natural
      · have first := congrArg String.toList signed
        rw [String.toList_append] at first
        cases first
    rw [parseEpoch, if_neg other, Int.toInt?_repr]

/-- The text of zero; other numbers are written as their bits. -/
def sampleFloat {w : Nat} (finite : BitVec w → Bool) : FloatFormat finite where
  write bits :=
    if finite bits then
      if bits = 0 then .number "0.0" else .number bits.toNat.repr
    else .null
  read
    | .number text => if text = "0.0" then some 0 else text.toNat?.map (BitVec.ofNat w)
    | _ => none
  read_write bits isFinite := by
    rw [if_pos isFinite]
    by_cases zero : bits = 0
    · rw [if_pos zero, zero]
      rfl
    · have other : bits.toNat.repr ≠ "0.0" := by
        intro same
        have natural := Nat.isNat_repr bits.toNat
        have refused : "0.0".isNat = false := not_isNat_of_mem (show '.' ∈ _ by decide) (by decide)
        rw [same, refused] at natural
        cases natural
      rw [if_neg zero]
      dsimp only
      rw [if_neg other, Nat.toNat?_repr, Option.map_some, BitVec.ofNat_toNat, BitVec.setWidth_eq]
  write_other bits infinite := by simp [infinite]
  read_null := rfl

/-- The entries of a map in the order of their keys. -/
def byKey {V : Type} (entries : HashMap String V) : List (String × V) :=
  (entries.keys.sort (· ≤ ·)).filterMap fun key =>
    (entries.lookup key).map fun value => (key, value)

theorem lists_byKey {V : Type} (entries : HashMap String V) : entries.Lists (byKey entries) := by
  refine ⟨?_, ?_⟩
  · have keys : (byKey entries).map Prod.fst =
        (entries.keys.sort (· ≤ ·)).filter fun key => (entries.lookup key).isSome := by
      rw [byKey, List.map_filterMap, ← List.filterMap_eq_filter]
      congr 1
      funext key
      cases found : entries.lookup key <;> simp [Option.guard, found]
    rw [keys]
    exact (Finset.sort_nodup _ _).filter _
  · intro key value
    rw [byKey, List.mem_filterMap]
    constructor
    · rintro ⟨other, -, found⟩
      obtain ⟨stored, present, same⟩ := Option.map_eq_some_iff.mp found
      cases same
      exact present
    · intro present
      refine ⟨key, ?_, by rw [present]; rfl⟩
      rw [Finset.mem_sort, Finmap.mem_keys]
      exact HashMap.mem_of_lookup present

def sampleWire : Wire where
  formatTime := formatEpoch
  parseTime := parseEpoch
  parse_format := parseEpoch_formatEpoch
  float := sampleFloat finite32
  double := sampleFloat finite64
  stringOrder := byKey
  stringOrder_lists := lists_byKey
  valueOrder := byKey
  valueOrder_lists := lists_byKey
  freshId := ⟨"message-0"⟩

def sampleAssignment (timeout : Duration) : HubToNode :=
  .taskAssignment ⟨"message-1"⟩ ⟨"task-1"⟩ (.shell ⟨"ls", [], none, ∅, timeout, true⟩) .normal none
    (TaskContext.new ⟨"user-1"⟩ ⟨"session-1"⟩ "dingtalk" 0) 0 3

theorem decode_encode_iff_sample :
    decodeHubToNode sampleWire (encodeHubToNode sampleWire (sampleAssignment (.fromSecs 30))) =
      some (sampleAssignment (.fromSecs 30)) :=
  ((decode_encode_iff sampleWire).1 _).mpr rfl

/-- A timeout of half a second is lost. -/
theorem decode_encode_drops_nanos :
    decodeHubToNode sampleWire (encodeHubToNode sampleWire (sampleAssignment ⟨0, 500000000⟩)) ≠
      some (sampleAssignment ⟨0, 500000000⟩) := by
  have messages : (HubToNode.body sampleWire).codec.RoundTrips HubToNode.Portable := inferInstance
  intro same
  have whole : (500000000 : Fin 1000000000) = 0 := (messages.exact _).mp same
  exact absurd whole (by decide)

end MessageCodec

end UHorse.Protocol
