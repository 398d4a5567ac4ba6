import UHorse.Lib.System
import UHorse.Lib.Program
import UHorse.Lib.Runs
import UHorse.Lib.Automaton
import UHorse.Lib.HashMap
import UHorse.Lib.Occurrences
import UHorse.Lib.Channel
import UHorse.Lib.Locks
import UHorse.Lib.FileSystem
import UHorse.Lib.ExistingAncestor
import UHorse.Lib.DescendingPath
import UHorse.Protocol.Types
import UHorse.Protocol.Message
import UHorse.Protocol.Serde
import UHorse.Protocol.Codec
import UHorse.Protocol.CommandCodec
import UHorse.Protocol.MessageCodec
import UHorse.Agent.SessionKey
import UHorse.Node.Workspace
import UHorse.Node.Permission
import UHorse.Node.PermissionUpdate
import UHorse.Node.PathScope
import UHorse.Node.Runtime
import UHorse.Node.Lifecycle
import UHorse.Security.Approval
import UHorse.Security.ApprovalStore
import UHorse.Security.ApprovalEntitlement
import UHorse.Security.ApprovalLocks
import UHorse.Security.PairingLocks
import UHorse.Hub.NodeManager
import UHorse.Hub.WorkspaceIndex
import UHorse.Hub.TaskScheduler
import UHorse.Hub.SessionRuntime
import UHorse.Hub.MessageRouter
import UHorse.Hub.ApprovalRouting
import UHorse.Hub.ApprovalDecision
import UHorse.Hub.ApprovalAgreement
import UHorse.Hub.WebSocket
import UHorse.Hub.DingTalk.Handlers
import UHorse.Hub.DingTalk.Actions
import UHorse.Hub.DingTalk.Turns
import UHorse.Hub.DingTalk.Handling
import UHorse.Hub.DingTalk.Replies
import UHorse.Hub.DingTalk.Stages
import UHorse.Hub.DingTalk.Staging
import UHorse.Hub.DingTalk.Sessions
import UHorse.Hub.DingTalk.Lanes
import UHorse.Hub.DingTalk.AgentLoop
import UHorse.Hub.DingTalk.TurnStatus
import UHorse.Hub.DingTalk.Closing
import UHorse.Hub.Scheduler.Interleaving
import UHorse.Hub.Scheduler.Conservation
import UHorse.Hub.Scheduler.Terminal
import UHorse.Hub.Scheduler.Delivery
import UHorse.Hub.Scheduler.Visibility
import UHorse.Hub.Scheduler.Order
import UHorse.Hub.Scheduler.Drain
import UHorse.Hub.Scheduler.Registration
import UHorse.Hub.Scheduler.Capacity
import UHorse.Lib.Text
import UHorse.Agent.Memory
import UHorse.Lib.NetPath
import UHorse.Agent.MemoryPaths
import UHorse.Hub.Web.SessionHistory
import UHorse.Hub.Web.SessionMessages
import UHorse.Hub.Web.AgentCatalog
import UHorse.Hub.Web.PairingBinding
import UHorse.Security.Pairing
import UHorse.Security.PairingCodes
import UHorse.Security.TokenRevocation
import UHorse.Hub.NodeAuthentication
import UHorse.Node.Reconnection
import UHorse.Gdpr.Erasure
import UHorse.Observability.AuditTampering
import UHorse.Sso.TokenKinds
import UHorse.Sso.Registration
import UHorse.Gateway.RoomIsolation
import UHorse.Backup.Retention
import UHorse.Cache.BlacklistHistory
import UHorse.Cache.SessionHistory
import UHorse.Hub.DingTalk.AttachmentHistory
import UHorse.Hub.Web.SkillSafety
import UHorse.Discovery.Failover
import UHorse.Node.PermissionRules
import UHorse.Hub.Web.TranscriptMessages
import UHorse.Hub.Scheduler.Placement
import UHorse.Hub.PlanExecution
import UHorse.Security.FieldCrypto
import UHorse.Webhook.Signature
import UHorse.Storage.TenantRoutes
import UHorse.Gateway.Admission
import UHorse.Config.VersionLog
import UHorse.Storage.Routing
import UHorse.Hub.Web.NamespaceMetadata
import UHorse.Node.FileRead
import UHorse.Node.OutputText
import UHorse.Hub.Web.JsonExtraction
import UHorse.Hub.Web.ShellValidation
import UHorse.Hub.Web.BrowserTarget
import UHorse.Scheduler.CronSchedule
import UHorse.Storage.Migration
import UHorse.Config.LineDiff
import UHorse.Backup.Encryption
import UHorse.Storage.Replicas
import UHorse.Gateway.UserQuotas
import UHorse.Gateway.Compatibility
import UHorse.Gateway.RateLimitBackends
import UHorse.Gateway.EndpointLimits
import UHorse.Webhook.Template
import UHorse.Webhook.JsonTemplate
import UHorse.Gateway.VersionedPath
import UHorse.Gateway.TenantQuotas
import UHorse.Gateway.LeastConnection
import UHorse.Queue.Conservation
import UHorse.Queue.Priorities
import UHorse.Hub.Scheduler.Timeouts
import UHorse.Observability.AuditPaging
import UHorse.Siem.Alerts
import UHorse.Hub.Scheduler.History
import UHorse.Webhook.Placeholders
import UHorse.Agent.Bindings
import UHorse.Lib.Binary64
import UHorse.Gateway.Pagination
import UHorse.Sso.Saml
import UHorse.Siem.RuleStorage
