import UHorse.Lib.ExistingAncestor
import UHorse.Protocol.Message

/-!
# The node registry of the Hub

`NodeManager` keeps one entry per registered node and an index from execution
workspace ids to nodes. Every operation takes the registry's locks once, so each
is one function on the whole registry.

The index is keyed by workspace id alone and stores one node per id: what
happens to it when two nodes announce the same id is stated by
`registerNode_lookup_index` and `unregisterNode_lookup_index`.
-/

namespace UHorse.Hub

open UHorse.Lib UHorse.Protocol

inductive HubError
  | nodeNotFound (nodeId : NodeId)
  | nodeLimitReached
  | node (message : String)
  | task (message : String)
  | schedule (message : String)
  | communication (message : String)
  | timeout (message : String)
  | permission (message : String)
  | config (message : String)
  | internal (message : String)
deriving DecidableEq

inductive NodeState
  | online
  | offline
  | busy
  | maintenance
deriving DecidableEq, Repr

structure NodeInfo where
  nodeId : NodeId
  name : String
  state : NodeState
  capabilities : NodeCapabilities
  workspace : WorkspaceInfo
  tags : List String
  lastHeartbeat : DateTime
  load : LoadInfo
  registeredAt : DateTime
  currentTasks : Nat
  completedTasks : Nat
  failedTasks : Nat
deriving DecidableEq

section WorkspaceHint

open UHorse.Lib.Unix

/-- The Hub's own copy of the existing-aware normalization, without errors. -/
def canonicalizeExistingAware (fs : FileSystem) (path : Path) : Option Path :=
  (existingAncestor fs path).bind fun ancestor =>
    (fs.canonicalize ancestor).bind fun normalized =>
      (stripPrefix path.components ancestor.components).map fun remainder =>
        .ofLocation (remainder.foldl pushComponent normalized)

def normalizeWorkspaceHintPath (fs : FileSystem) (text : String) : Path :=
  let candidate := Path.parse text
  let lexical : Path :=
    { absolute := candidate.absolute
      parts := candidate.components.filter (· ≠ .curDir) }
  let fallback := if lexical = ⟨false, []⟩ then ⟨false, [.curDir]⟩ else lexical
  if candidate.absolute then (canonicalizeExistingAware fs candidate).getD fallback else fallback

/-- Whether a node's workspace lies at or below the hinted path. -/
def workspaceMatchesHint (fs : FileSystem) (workspacePath hint : String) : Bool :=
  let workspace := normalizeWorkspaceHintPath fs workspacePath
  let hint := normalizeWorkspaceHintPath fs hint
  workspace.absolute = hint.absolute && hint.parts.isPrefixOf workspace.parts

end WorkspaceHint

def deriveWorkspaceId (nodeId : NodeId) (workspaceName : String) : String :=
  "exec:" ++ nodeId.value ++ ":" ++ workspaceName

structure NodeManager where
  nodes : HashMap NodeId NodeInfo
  workspaceIndex : HashMap String NodeId
  heartbeatTimeoutSecs : Nat
  maxNodes : Nat

namespace NodeManager

def new (maxNodes heartbeatTimeoutSecs : Nat) : NodeManager where
  nodes := ∅
  workspaceIndex := ∅
  heartbeatTimeoutSecs := heartbeatTimeoutSecs
  maxNodes := maxNodes

/-- The workspace a registration is stored with: the announced id, or one
derived from the node and the workspace name. -/
def withWorkspaceId (nodeId : NodeId) (workspace : WorkspaceInfo) : WorkspaceInfo :=
  match workspace.workspaceId with
  | some _ => workspace
  | none => { workspace with workspaceId := some (deriveWorkspaceId nodeId workspace.name) }

/-- Drop the index entry of a node's stored workspace id. -/
def dropIndex (index : HashMap String NodeId) (info : Option NodeInfo) : HashMap String NodeId :=
  match info.bind (fun info => info.workspace.workspaceId) with
  | some workspaceId => index.erase workspaceId
  | none => index

def registerNode (manager : NodeManager) (nodeId : NodeId) (name : String)
    (capabilities : NodeCapabilities) (workspace : WorkspaceInfo) (tags : List String)
    (now : DateTime) : Except HubError NodeManager :=
  if manager.nodes.keys.card ≥ manager.maxNodes ∧ nodeId ∉ manager.nodes then
    .error .nodeLimitReached
  else
    let workspace := withWorkspaceId nodeId workspace
    let index := dropIndex manager.workspaceIndex (manager.nodes.lookup nodeId)
    let info : NodeInfo :=
      { nodeId, name, state := .online, capabilities, workspace, tags
        lastHeartbeat := now, load := .default, registeredAt := now
        currentTasks := 0, completedTasks := 0, failedTasks := 0 }
    .ok { manager with
      nodes := manager.nodes.insert nodeId info
      workspaceIndex :=
        match workspace.workspaceId with
        | some workspaceId => index.insert workspaceId nodeId
        | none => index }

def unregisterNode (manager : NodeManager) (nodeId : NodeId) : Except HubError NodeManager :=
  match manager.nodes.lookup nodeId with
  | some node =>
    .ok { manager with
      nodes := manager.nodes.erase nodeId
      workspaceIndex := dropIndex manager.workspaceIndex (some node) }
  | none => .error (.nodeNotFound nodeId)

def heartbeatInfo (info : NodeInfo) (status : NodeStatus) (load : LoadInfo) (now : DateTime) :
    NodeInfo :=
  { info with
    lastHeartbeat := now
    load := load
    state := if status.currentTasks ≥ info.capabilities.maxConcurrentTasks then .busy else .online
    currentTasks := status.currentTasks }

def updateHeartbeat (manager : NodeManager) (nodeId : NodeId) (status : NodeStatus)
    (load : LoadInfo) (now : DateTime) : Except HubError NodeManager :=
  match manager.nodes.lookup nodeId with
  | some info =>
    .ok { manager with
      nodes := manager.nodes.insert nodeId (heartbeatInfo info status load now) }
  | none => .error (.nodeNotFound nodeId)

def getNode (manager : NodeManager) (nodeId : NodeId) : Option NodeInfo :=
  manager.nodes.lookup nodeId

/-- The online nodes among the entries, in the order the map iterates. -/
def getOnlineNodes (order : List (NodeId × NodeInfo)) : List NodeInfo :=
  (order.map Prod.snd).filter (fun info => info.state = .online)

def getNodeByWorkspaceId (manager : NodeManager) (workspaceId : String) : Option NodeInfo :=
  (manager.workspaceIndex.lookup workspaceId).bind manager.getNode

/-- Mark every silent node offline; nothing is removed. -/
def checkTimeouts (manager : NodeManager) (order : List (NodeId × NodeInfo)) (now : DateTime) :
    NodeManager × List NodeId :=
  let silent := order.filter fun entry =>
    now - entry.2.lastHeartbeat > seconds manager.heartbeatTimeoutSecs
  ({ manager with
      nodes := silent.foldl
        (fun nodes entry => nodes.insert entry.1 { entry.2 with state := .offline })
        manager.nodes },
    silent.map Prod.fst)

/-! ## What each operation does to the two maps -/

section Lookups

variable {manager manager' : NodeManager} {nodeId : NodeId}

theorem lookup_dropIndex (index : HashMap String NodeId) (info : Option NodeInfo)
    (workspaceId : String) :
    (dropIndex index info).lookup workspaceId =
      if info.bind (fun info => info.workspace.workspaceId) = some workspaceId then none
      else index.lookup workspaceId := by
  rw [dropIndex]
  cases known : info.bind (fun info => info.workspace.workspaceId) with
  | none => simp
  | some dropped =>
    rw [HashMap.lookup_erase_ite]
    by_cases same : workspaceId = dropped
    · simp [same]
    · simp [same, Ne.symm same]

variable {name : String} {capabilities : NodeCapabilities} {workspace : WorkspaceInfo}
  {tags : List String} {now : DateTime}

/-- A registration that succeeds writes the entry of its own node only. -/
theorem registerNode_ok
    (registered : manager.registerNode nodeId name capabilities workspace tags now =
      .ok manager') :
    (∃ info, manager'.nodes = manager.nodes.insert nodeId info ∧
      info.workspace = withWorkspaceId nodeId workspace) ∧
      manager'.maxNodes = manager.maxNodes := by
  rw [registerNode] at registered
  split at registered
  · cases registered
  · cases registered
    exact ⟨⟨_, rfl, rfl⟩, rfl⟩

theorem registerNode_lookup_index
    (registered : manager.registerNode nodeId name capabilities workspace tags now =
      .ok manager') (workspaceId : String) :
    manager'.workspaceIndex.lookup workspaceId =
      if (withWorkspaceId nodeId workspace).workspaceId = some workspaceId then some nodeId
      else if (manager.nodes.lookup nodeId).bind (fun info => info.workspace.workspaceId) =
        some workspaceId then none
      else manager.workspaceIndex.lookup workspaceId := by
  rw [registerNode] at registered
  split at registered
  · cases registered
  · cases registered
    dsimp only
    split
    · next stored announced =>
        rw [HashMap.lookup_insert_ite, lookup_dropIndex]
        by_cases same : workspaceId = stored
        · simp [announced, same]
        · simp [announced, same, Ne.symm same]
    · next announced =>
        rw [lookup_dropIndex]
        simp [announced]

/-- Only a node the registry does not know is refused. -/
theorem registerNode_error {error : HubError}
    (refused : manager.registerNode nodeId name capabilities workspace tags now =
      .error error) : nodeId ∉ manager.nodes := by
  rw [registerNode] at refused
  split at refused
  · next full => exact full.2
  · cases refused

theorem unregisterNode_ok (removed : manager.unregisterNode nodeId = .ok manager') :
    ∃ info, manager.nodes.lookup nodeId = some info ∧
      manager'.nodes = manager.nodes.erase nodeId ∧
      manager'.workspaceIndex = dropIndex manager.workspaceIndex (some info) := by
  rw [unregisterNode] at removed
  split at removed
  · next info found =>
      cases removed
      exact ⟨info, found, rfl, rfl⟩
  · cases removed

theorem updateHeartbeat_ok {status : NodeStatus} {load : LoadInfo}
    (updated : manager.updateHeartbeat nodeId status load now = .ok manager') :
    ∃ info, manager.nodes.lookup nodeId = some info ∧
      manager'.nodes = manager.nodes.insert nodeId (heartbeatInfo info status load now) ∧
      manager'.workspaceIndex = manager.workspaceIndex := by
  rw [updateHeartbeat] at updated
  split at updated
  · next info found =>
      cases updated
      exact ⟨info, found, rfl, rfl⟩
  · cases updated

/-- A silent node stays registered. -/
theorem mem_nodes_checkTimeouts {order : List (NodeId × NodeInfo)} {now : DateTime}
    (member : nodeId ∈ manager.nodes) : nodeId ∈ (manager.checkTimeouts order now).1.nodes := by
  have kept : ∀ (silent : List (NodeId × NodeInfo)) (nodes : HashMap NodeId NodeInfo),
      nodeId ∈ nodes → nodeId ∈ silent.foldl
        (fun nodes entry => nodes.insert entry.1 { entry.2 with state := .offline }) nodes := by
    intro silent
    induction silent with
    | nil =>
      intro nodes known
      exact known
    | cons entry rest ih =>
      intro nodes known
      exact ih _ (Finmap.mem_insert.mpr (.inr known))
  exact kept _ _ member

end Lookups

end NodeManager
end UHorse.Hub
