import Mathlib.Data.Finset.Sort
import UHorse.Agent.SessionKey
import UHorse.Protocol.Types

/-!
# Which agent a session gets

Agents are registered globally and for scopes, under ids that may repeat. A session looks an
id up along its visibility chain, private scopes first, after the source that was recorded
when the agent was last chosen; an id that nobody on the chain has is taken from wherever it
is registered.
-/

namespace UHorse.Hub.Web

open UHorse.Lib UHorse.Agent UHorse.Protocol

/-! ## The catalogue -/

structure CatalogAgent where
  agentId : String
deriving DecidableEq

structure CatalogAgentEntry where
  agent : CatalogAgent
  sourceLayer : ScopeLayer
  sourceScope : Option String
deriving DecidableEq

structure LayeredAgentCatalog where
  global : HashMap String CatalogAgent
  scopedAgents : HashMap String (HashMap String CatalogAgent)

namespace LayeredAgentCatalog

def globalEntry (catalog : LayeredAgentCatalog) (agentId : String) : Option CatalogAgentEntry :=
  (catalog.global.lookup agentId).map fun agent => ⟨agent, .globalLayer, none⟩

def scopedEntry (catalog : LayeredAgentCatalog) (agentId scope : String) :
    Option CatalogAgentEntry :=
  ((catalog.scopedAgents.lookup scope).bind fun agents => agents.lookup agentId).map fun agent =>
    ⟨agent, scopeLayerFromScope scope, some scope⟩

local instance isTrans_texts : IsTrans String (· ≤ ·) := ⟨fun _ _ _ => String.le_trans⟩

local instance antisymm_texts : Std.Antisymm (α := String) (· ≤ ·) :=
  ⟨fun _ _ => String.le_antisymm⟩

local instance total_texts : Std.Total (α := String) (· ≤ ·) := ⟨String.le_total⟩

end LayeredAgentCatalog

/-! ## Namespaces of sessions and tasks -/

abbrev Metadata := HashMap String String

/-- The metadata of a stored session state; its other fields play no part here. -/
structure SessionState where
  sessionId : String
  metadata : Metadata

section Resolution

-- how a list of roles is read from JSON
variable (parseRoles : String → Option (List String))

def accessContextFromMetadata (metadata : Metadata) : Option AccessContext :=
  let access := AccessContext.normalized
    { tenant := metadata.lookup "namespace_tenant"
      enterprise := metadata.lookup "namespace_enterprise"
      department := metadata.lookup "namespace_department"
      roles := ((metadata.lookup "namespace_roles").bind parseRoles).getD [] }
  if access.tenant.isSome || access.enterprise.isSome || access.department.isSome ||
      !access.roles.isEmpty then
    some access
  else none

def sessionNamespaceFromMetadata (sessionKey : Option SessionKey) (metadata : Metadata) :
    Option SessionNamespace :=
  let access := accessContextFromMetadata parseRoles metadata
  (sessionKey.or ((metadata.lookup "session_id").bind fun sessionId =>
    (SessionKey.parse sessionId).toOption)).map fun key =>
    let base := key.namespacesWithAccessContext access
    { base with
      globalScope := (metadata.lookup "namespace_global").getD base.globalScope
      user := (metadata.lookup "namespace_user").getD base.user
      session := (metadata.lookup "namespace_session").getD base.session }

variable (catalog : LayeredAgentCatalog)

end Resolution

/-! ## What a session is given -/

section Resolved

variable {parseRoles : String → Option (List String)} {catalog : LayeredAgentCatalog}
  {chain scopes : List String} {metadata : Metadata} {agentId : String} {entry : CatalogAgentEntry}

/-- The entry is the one registered under its id where the metadata say it is from. -/
structure Recorded (catalog : LayeredAgentCatalog) (metadata : Metadata) (agentId : String)
    (entry : CatalogAgentEntry) : Prop where
  layer : metadata.lookup "agent_source_layer" = some entry.sourceLayer.label
  scope : metadata.lookup "agent_source_scope" = entry.sourceScope
  defined : catalog.globalEntry agentId = some entry ∨
    ∃ scope ∈ entry.sourceScope, catalog.scopedEntry agentId scope = some entry

end Resolved

section Sample

end Sample

end UHorse.Hub.Web
