import UHorse.Protocol.Types

/-!
# Messages between the Hub and its nodes

Both directions with every constructor and payload field. What a handler does
with a message is stated where the handler is modelled; this module only fixes
which data a message carries.
-/

namespace UHorse.Protocol

open UHorse.Lib

/-- The permission rules a Hub can push to a node. -/
inductive ProtocolResourcePattern
  | exact (path : String)
  | glob (pattern : String)
  | regex (pattern : String)
  | pathPrefix (value : String)

inductive ProtocolAction
  | read
  | write
  | delete
  | execute
  | list
  | admin
deriving DecidableEq, Repr

inductive ProtocolCondition
  | timeRange (start finish : String)
  | ipWhitelist (ips : List String)
  | userRestriction (allowedUsers : List String)
  | sizeLimit (maxBytes : Nat)

structure ProtocolPermissionRule where
  id : String
  name : String
  resource : ProtocolResourcePattern
  actions : List ProtocolAction
  conditions : List ProtocolCondition
  requireApproval : Bool
  enabled : Bool

inductive HubToNode
  | taskAssignment (messageId : MessageId) (taskId : TaskId) (command : Command)
      (priority : Priority) (deadline : Option DateTime) (context : TaskContext)
      (retryCount maxRetries : Nat)
  | taskCancellation (messageId : MessageId) (taskId : TaskId) (reason : String)
  | heartbeatRequest (messageId : MessageId) (timestamp : DateTime)
  | configUpdate (messageId : MessageId) (config : Json)
  | permissionUpdate (messageId : MessageId) (rules : List ProtocolPermissionRule)
  | skillDeploy (messageId : MessageId) (skillName version skillDefinition : String)
      (code : Option (List UInt8))
  | skillRemove (messageId : MessageId) (skillName : String)
  | approvalResponse (messageId : MessageId) (requestId : String) (approved : Bool)
      (responder : String) (reason : Option String) (respondedAt : DateTime)
  | disconnect (messageId : MessageId) (reason : String) (reconnectable : Bool)

inductive NotificationEventKind
  | test
  | info
  | warn
  | error
deriving DecidableEq, Repr

structure NotificationEvent where
  eventId : String
  kind : NotificationEventKind
  title : String
  body : String
  detailsIncluded : Bool
  timestamp : DateTime
  dedupeKey : Option String

/-- An error report of a node (`uhorse_protocol::NodeError`). -/
structure NodeErrorReport where
  code : String
  message : String
  details : Option Json
  retryable : Bool
  stackTrace : Option String

inductive SkillStatus
  | active
  | disabled
  | error (message : String)

structure InstalledSkill where
  name : String
  version : String
  installedAt : DateTime
  status : SkillStatus

inductive NodeToHub
  | register (messageId : MessageId) (nodeId : NodeId) (name : String)
      (capabilities : NodeCapabilities) (workspace : WorkspaceInfo) (authToken : String)
      (timestamp : DateTime)
  | heartbeat (messageId : MessageId) (nodeId : NodeId) (status : NodeStatus) (load : LoadInfo)
      (timestamp : DateTime)
  | taskResult (messageId : MessageId) (taskId : TaskId) (result : CommandResult)
      (metrics : ExecutionMetrics)
  | taskProgress (messageId : MessageId) (taskId : TaskId) (progress : BitVec 32)
      (message : String) (timestamp : DateTime)
  | error (messageId : MessageId) (taskId : Option TaskId) (error : NodeErrorReport)
      (timestamp : DateTime)
  | approvalRequest (messageId : MessageId) (requestId : String) (taskId : TaskId)
      (command : Command) (context : TaskContext) (reason : String)
      (timestamp expiresAt : DateTime)
  | unregister (messageId : MessageId) (nodeId : NodeId) (reason : String)
  | skillReport (messageId : MessageId) (nodeId : NodeId) (installedSkills : List InstalledSkill)
  | notificationEvent (messageId : MessageId) (nodeId : NodeId) (event : NotificationEvent)

end UHorse.Protocol
