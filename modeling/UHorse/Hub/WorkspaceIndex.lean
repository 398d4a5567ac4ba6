import UHorse.Hub.NodeManager
import UHorse.Lib.System

/-!
# The workspace index of the node registry

The registry finds the node of an execution workspace through an index that
`register_node` and `unregister_node` keep by hand. Both remove the index entry of
the workspace a node gives up, whichever node the entry names. As long as a
workspace is given up only by the last node that carries it, the index names a
node for exactly the workspaces of the registered nodes.
-/

namespace UHorse.Hub.NodeManager

open UHorse.Lib UHorse.Protocol

/-- The calls that change the registry. -/
inductive Call
  | register (nodeId : NodeId) (name : String) (capabilities : NodeCapabilities)
      (workspace : WorkspaceInfo) (tags : List String) (now : DateTime)
  | unregister (nodeId : NodeId)
  | heartbeat (nodeId : NodeId) (status : NodeStatus) (load : LoadInfo) (now : DateTime)
  | timeouts (order : List (NodeId × NodeInfo)) (now : DateTime)

/-- The registry after a call; a call that fails leaves it alone. -/
def after (manager : NodeManager) (outcome : Except HubError NodeManager) : NodeManager :=
  match outcome with
  | .ok manager' => manager'
  | .error _ => manager

def call (manager : NodeManager) : Call → NodeManager
  | .register nodeId name capabilities workspace tags now =>
    manager.after (manager.registerNode nodeId name capabilities workspace tags now)
  | .unregister nodeId => manager.after (manager.unregisterNode nodeId)
  | .heartbeat nodeId status load now =>
    manager.after (manager.updateHeartbeat nodeId status load now)
  | .timeouts order now => (manager.checkTimeouts order now).1

/-- `check_timeouts` sees every node once. -/
def Admits (manager : NodeManager) : Call → Prop
  | .timeouts order _ => manager.nodes.Lists order
  | _ => True

/-- A registry that starts empty and is changed by its calls. -/
def registry (maxNodes heartbeatTimeoutSecs : Nat) : System NodeManager Call where
  Init manager := manager = .new maxNodes heartbeatTimeoutSecs
  Step manager call manager' := manager.Admits call ∧ manager' = manager.call call

/-- The workspace id a registered node carries. -/
def workspaceOf (manager : NodeManager) (nodeId : NodeId) : Option String :=
  (manager.nodes.lookup nodeId).bind fun info => info.workspace.workspaceId

/-- No other registered node carries the workspace this one carries. -/
def SoleCarrier (manager : NodeManager) (nodeId : NodeId) : Prop :=
  ∀ workspaceId, manager.workspaceOf nodeId = some workspaceId →
    ∀ other, other ≠ nodeId → manager.workspaceOf other ≠ some workspaceId

/-- A node gives up a workspace only if it is the only one that carries it. -/
def GivesUpAlone (manager : NodeManager) : Call → Prop
  | .register nodeId _ _ workspace _ _ =>
    manager.workspaceOf nodeId ≠ (withWorkspaceId nodeId workspace).workspaceId →
      manager.SoleCarrier nodeId
  | .unregister nodeId => manager.SoleCarrier nodeId
  | _ => True

/-- The index names a node that carries the workspace, and one for each workspace
that is carried; the registry is not larger than it may be. -/
structure Indexed (manager : NodeManager) : Prop where
  sound : ∀ workspaceId nodeId, manager.workspaceIndex.lookup workspaceId = some nodeId →
    manager.workspaceOf nodeId = some workspaceId
  complete : ∀ workspaceId nodeId, manager.workspaceOf nodeId = some workspaceId →
    ∃ indexed, manager.workspaceIndex.lookup workspaceId = some indexed
  bounded : manager.nodes.keys.card ≤ manager.maxNodes

section Calls

variable {manager manager' : NodeManager} {nodeId : NodeId}

theorem withWorkspaceId_isSome (nodeId : NodeId) (workspace : WorkspaceInfo) :
    ∃ workspaceId, (withWorkspaceId nodeId workspace).workspaceId = some workspaceId := by
  rw [withWorkspaceId]
  split
  · next announced found => exact ⟨announced, found⟩
  · exact ⟨_, rfl⟩

variable {name : String} {capabilities : NodeCapabilities} {workspace : WorkspaceInfo}
  {tags : List String} {now : DateTime}

theorem workspaceOf_registerNode
    (registered : manager.registerNode nodeId name capabilities workspace tags now =
      .ok manager') (other : NodeId) :
    manager'.workspaceOf other =
      if other = nodeId then (withWorkspaceId nodeId workspace).workspaceId
      else manager.workspaceOf other := by
  obtain ⟨⟨info, inserted, stored⟩, -⟩ := registerNode_ok registered
  rw [workspaceOf]
  rw [inserted, HashMap.lookup_insert_ite]
  split
  · rw [Option.bind_some, stored]
  · rfl

theorem card_registerNode
    (registered : manager.registerNode nodeId name capabilities workspace tags now =
      .ok manager') (bounded : manager.nodes.keys.card ≤ manager.maxNodes) :
    manager'.nodes.keys.card ≤ manager'.maxNodes := by
  obtain ⟨⟨info, inserted, -⟩, limit⟩ := registerNode_ok registered
  have keys : manager'.nodes.keys = insert nodeId manager.nodes.keys := by
    ext other
    rw [inserted, Finmap.mem_keys, Finmap.mem_insert, Finset.mem_insert, Finmap.mem_keys]
  rw [keys, limit]
  by_cases known : nodeId ∈ manager.nodes
  · rw [Finset.insert_eq_of_mem (Finmap.mem_keys.mpr known)]
    exact bounded
  · have room : manager.nodes.keys.card < manager.maxNodes := by
      rw [registerNode] at registered
      split at registered
      · cases registered
      · next free => exact Nat.lt_of_not_le fun full => free ⟨full, known⟩
    exact (Finset.card_insert_le _ _).trans room

theorem Indexed.registerNode (indexed : manager.Indexed)
    (alone : manager.workspaceOf nodeId ≠ (withWorkspaceId nodeId workspace).workspaceId →
      manager.SoleCarrier nodeId)
    (registered : manager.registerNode nodeId name capabilities workspace tags now =
      .ok manager') : manager'.Indexed := by
  obtain ⟨announced, stored⟩ := withWorkspaceId_isSome nodeId workspace
  have index := registerNode_lookup_index registered
  have carried := workspaceOf_registerNode registered
  rw [stored] at alone
  simp only [stored] at index carried
  refine ⟨?_, ?_, card_registerNode registered indexed.bounded⟩
  · intro workspaceId other found
    rw [index] at found
    split at found
    · next same =>
        cases found
        rw [carried, if_pos rfl, same]
    · next different =>
        split at found
        · cases found
        · next kept =>
            have before := indexed.sound workspaceId other found
            rw [carried, if_neg]
            · exact before
            · rintro rfl
              exact kept before
  · intro workspaceId other carries
    rw [index]
    rw [carried] at carries
    split
    · exact ⟨nodeId, rfl⟩
    · next different =>
        split at carries
        · exact absurd carries different
        · next distinct =>
            rw [if_neg]
            · exact indexed.complete workspaceId other carries
            · intro given
              have given : manager.workspaceOf nodeId = some workspaceId := given
              have changes : manager.workspaceOf nodeId ≠ some announced := by
                rw [given]
                exact Ne.symm different
              exact alone changes workspaceId given other distinct carries

theorem workspaceOf_unregisterNode (removed : manager.unregisterNode nodeId = .ok manager')
    (other : NodeId) :
    manager'.workspaceOf other = if other = nodeId then none else manager.workspaceOf other := by
  obtain ⟨info, -, erased, -⟩ := unregisterNode_ok removed
  rw [workspaceOf]
  rw [erased, HashMap.lookup_erase_ite]
  split <;> rfl

theorem Indexed.unregisterNode (indexed : manager.Indexed) (alone : manager.SoleCarrier nodeId)
    (removed : manager.unregisterNode nodeId = .ok manager') : manager'.Indexed := by
  have carried := workspaceOf_unregisterNode removed
  obtain ⟨info, found, erased, dropped⟩ := unregisterNode_ok removed
  have given : manager.workspaceOf nodeId = info.workspace.workspaceId := by
    rw [workspaceOf]
    rw [found, Option.bind_some]
  have index : ∀ workspaceId, manager'.workspaceIndex.lookup workspaceId =
      if manager.workspaceOf nodeId = some workspaceId then none
      else manager.workspaceIndex.lookup workspaceId := by
    intro workspaceId
    rw [dropped, lookup_dropIndex, Option.bind_some, given]
  have limit : manager'.maxNodes = manager.maxNodes := by
    rw [NodeManager.unregisterNode] at removed
    rw [found] at removed
    cases removed
    rfl
  refine ⟨?_, ?_, ?_⟩
  · intro workspaceId other named
    rw [index] at named
    split at named
    · cases named
    · next kept =>
        have before := indexed.sound workspaceId other named
        rw [carried, if_neg]
        · exact before
        · rintro rfl
          exact kept before
  · intro workspaceId other carries
    rw [carried] at carries
    split at carries
    · cases carries
    · next distinct =>
        rw [index, if_neg]
        · exact indexed.complete workspaceId other carries
        · intro same
          exact alone workspaceId same other distinct carries
  · have fewer : manager'.nodes.keys ⊆ manager.nodes.keys := by
      intro other member
      rw [erased, Finmap.mem_keys, Finmap.mem_erase] at member
      exact Finmap.mem_keys.mpr member.2
    rw [limit]
    exact (Finset.card_le_card fewer).trans indexed.bounded

/-- A call that leaves every node its workspace and the index alone. -/
theorem Indexed.of_same (indexed : manager.Indexed)
    (workspaces : ∀ other, (manager'.nodes.lookup other).map NodeInfo.workspace =
      (manager.nodes.lookup other).map NodeInfo.workspace)
    (index : manager'.workspaceIndex = manager.workspaceIndex)
    (limit : manager'.maxNodes = manager.maxNodes) : manager'.Indexed := by
  have carried : ∀ other, manager'.workspaceOf other = manager.workspaceOf other := by
    intro other
    have through : ∀ info : Option NodeInfo, (info.bind fun info => info.workspace.workspaceId) =
        (info.map NodeInfo.workspace).bind fun workspace => workspace.workspaceId := by
      rintro (_ | info) <;> rfl
    unfold workspaceOf
    rw [through, through, workspaces]
  have keys : manager'.nodes.keys = manager.nodes.keys := by
    ext other
    have known : (manager'.nodes.lookup other).isSome = (manager.nodes.lookup other).isSome := by
      rw [← Option.isSome_map, workspaces, Option.isSome_map]
    rw [Finmap.mem_keys, Finmap.mem_keys, ← Finmap.lookup_isSome, ← Finmap.lookup_isSome, known]
  refine ⟨?_, ?_, ?_⟩
  · intro workspaceId nodeId found
    rw [index] at found
    rw [carried]
    exact indexed.sound workspaceId nodeId found
  · intro workspaceId nodeId carries
    rw [carried] at carries
    rw [index]
    exact indexed.complete workspaceId nodeId carries
  · rw [keys, limit]
    exact indexed.bounded

theorem Indexed.updateHeartbeat {status : NodeStatus} {load : LoadInfo} (indexed : manager.Indexed)
    (updated : manager.updateHeartbeat nodeId status load now = .ok manager') :
    manager'.Indexed := by
  rw [NodeManager.updateHeartbeat] at updated
  split at updated
  · next info found =>
      cases updated
      refine indexed.of_same ?_ rfl rfl
      intro other
      rw [HashMap.lookup_insert_ite]
      split
      · next same =>
          rw [same, found]
          rfl
      · rfl
  · cases updated

/-- Marking nodes offline leaves every node its workspace. -/
theorem workspaces_checkTimeouts {order : List (NodeId × NodeInfo)}
    (listed : manager.nodes.Lists order) (now : DateTime) (other : NodeId) :
    ((manager.checkTimeouts order now).1.nodes.lookup other).map NodeInfo.workspace =
      (manager.nodes.lookup other).map NodeInfo.workspace := by
  have kept : ∀ (silent : List (NodeId × NodeInfo)) (nodes : HashMap NodeId NodeInfo),
      (∀ entry ∈ silent, manager.nodes.lookup entry.1 = some entry.2) →
      (nodes.lookup other).map NodeInfo.workspace =
        (manager.nodes.lookup other).map NodeInfo.workspace →
      ((silent.foldl (fun nodes entry => nodes.insert entry.1 { entry.2 with state := .offline })
        nodes).lookup other).map NodeInfo.workspace =
        (manager.nodes.lookup other).map NodeInfo.workspace := by
    intro silent
    induction silent with
    | nil =>
      intro nodes _ agrees
      exact agrees
    | cons entry rest ih =>
      intro nodes entries agrees
      refine ih _ (fun later member => entries later (List.mem_cons_of_mem _ member)) ?_
      rw [HashMap.lookup_insert_ite]
      split
      · next same => rw [same, entries entry List.mem_cons_self]; rfl
      · exact agrees
  refine kept _ _ ?_ rfl
  intro entry member
  exact (listed.2 entry.1 entry.2).mp (List.mem_of_mem_filter member)

end Calls

section Runs

variable {maxNodes heartbeatTimeoutSecs : Nat} {manager manager' : NodeManager}

theorem Indexed.after {outcome : Except HubError NodeManager} (indexed : manager.Indexed)
    (later : ∀ manager', outcome = .ok manager' → manager'.Indexed) :
    (manager.after outcome).Indexed := by
  cases outcome with
  | error error => exact indexed
  | ok manager' => exact later manager' rfl

theorem Indexed.call {call : Call} (indexed : manager.Indexed) (admitted : manager.Admits call)
    (alone : manager.GivesUpAlone call) : (manager.call call).Indexed := by
  cases call with
  | register nodeId name capabilities workspace tags now =>
    exact indexed.after fun _ registered => indexed.registerNode alone registered
  | unregister nodeId => exact indexed.after fun _ removed => indexed.unregisterNode alone removed
  | heartbeat nodeId status load now =>
    exact indexed.after fun _ updated => indexed.updateHeartbeat updated
  | timeouts order now => exact indexed.of_same (workspaces_checkTimeouts admitted now) rfl rfl

theorem maxNodes_after {outcome : Except HubError NodeManager}
    (later : ∀ manager', outcome = .ok manager' → manager'.maxNodes = manager.maxNodes) :
    (manager.after outcome).maxNodes = manager.maxNodes := by
  cases outcome with
  | error error => rfl
  | ok manager' => exact later manager' rfl

theorem maxNodes_call (call : Call) : (manager.call call).maxNodes = manager.maxNodes := by
  cases call with
  | register nodeId name capabilities workspace tags now =>
    exact maxNodes_after fun _ registered => (registerNode_ok registered).2
  | unregister nodeId =>
    refine maxNodes_after ?_
    intro manager' removed
    rw [unregisterNode] at removed
    split at removed <;> cases removed
    rfl
  | heartbeat nodeId status load now =>
    refine maxNodes_after ?_
    intro manager' updated
    rw [updateHeartbeat] at updated
    split at updated <;> cases updated
    rfl
  | timeouts order now => rfl

theorem indexed_of_reachable
    (reached : ((registry maxNodes heartbeatTimeoutSecs).restrict GivesUpAlone).Reachable manager) :
    manager.Indexed ∧ manager.maxNodes = maxNodes := by
  refine System.Reachable.invariant (P := fun manager => manager.Indexed ∧
    manager.maxNodes = maxNodes) ?_ ?_ reached
  · rintro initial rfl
    refine ⟨⟨?_, ?_, Nat.zero_le _⟩, rfl⟩
    · intro workspaceId nodeId found
      cases found
    · intro workspaceId nodeId carries
      cases carries
  · rintro before call after ⟨indexed, limit⟩ ⟨alone, admitted, rfl⟩
    exact ⟨indexed.call admitted alone, (maxNodes_call call).trans limit⟩

theorem Indexed.getNodeByWorkspaceId (indexed : manager.Indexed) {workspaceId : String}
    {info : NodeInfo} (found : manager.getNodeByWorkspaceId workspaceId = some info) :
    ∃ nodeId, manager.nodes.lookup nodeId = some info ∧
      info.workspace.workspaceId = some workspaceId := by
  obtain ⟨nodeId, named, stored⟩ := Option.bind_eq_some_iff.mp found
  have stored : manager.nodes.lookup nodeId = some info := stored
  have carries := indexed.sound workspaceId nodeId named
  rw [workspaceOf] at carries
  rw [stored, Option.bind_some] at carries
  exact ⟨nodeId, stored, carries⟩

/-- If workspaces are given up by their only carrier, the index answers for exactly
the workspaces of the registered nodes, with a node that carries the workspace. -/
theorem getNodeByWorkspaceId_exact
    (reached : ((registry maxNodes heartbeatTimeoutSecs).restrict GivesUpAlone).Reachable manager) :
    (∀ workspaceId, (∃ info, manager.getNodeByWorkspaceId workspaceId = some info) ↔
      ∃ nodeId info, manager.nodes.lookup nodeId = some info ∧
        info.workspace.workspaceId = some workspaceId) ∧
    (∀ workspaceId info, manager.getNodeByWorkspaceId workspaceId = some info →
      info.workspace.workspaceId = some workspaceId) ∧
    manager.nodes.keys.card ≤ maxNodes := by
  obtain ⟨indexed, limit⟩ := indexed_of_reachable reached
  refine ⟨?_, ?_, limit ▸ indexed.bounded⟩
  · intro workspaceId
    constructor
    · rintro ⟨info, found⟩
      obtain ⟨nodeId, stored, carries⟩ := indexed.getNodeByWorkspaceId found
      exact ⟨nodeId, info, stored, carries⟩
    · rintro ⟨nodeId, info, stored, carries⟩
      have carried : manager.workspaceOf nodeId = some workspaceId := by
        rw [workspaceOf]
        rw [stored, Option.bind_some, carries]
      obtain ⟨named, index⟩ := indexed.complete workspaceId nodeId carried
      obtain ⟨answer, known, -⟩ :=
        Option.bind_eq_some_iff.mp (indexed.sound workspaceId named index)
      exact ⟨answer, Option.bind_eq_some_iff.mpr ⟨named, index, known⟩⟩
  · intro workspaceId info found
    obtain ⟨-, -, carries⟩ := indexed.getNodeByWorkspaceId found
    exact carries

end Runs

/-! ## Two nodes in one workspace -/

/-- The registration of a node that announces the workspace id `shared`. -/
def joinShared (nodeId : String) : Call :=
  .register ⟨nodeId⟩ nodeId .default ⟨some "shared", "shared", "/shared", false, [], []⟩ [] 0

/-- Two nodes are registered for one workspace. -/
def bothJoined : NodeManager :=
  ((NodeManager.new 10 30).call (joinShared "a")).call (joinShared "b")

theorem bothJoined_reachable :
    ((registry 10 30).restrict GivesUpAlone).Reachable bothJoined := by
  have start : ((registry 10 30).restrict GivesUpAlone).Reachable (.new 10 30) :=
    System.Reachable.init rfl
  have first : (NodeManager.new 10 30).GivesUpAlone (joinShared "a") := by
    intro _ workspaceId carries
    cases carries
  have second : ((NodeManager.new 10 30).call (joinShared "a")).GivesUpAlone (joinShared "b") := by
    intro _ workspaceId carries
    have unknown : ((NodeManager.new 10 30).call (joinShared "a")).workspaceOf ⟨"b"⟩ = none := by
      decide
    rw [unknown] at carries
    cases carries
  exact (start.step ⟨first, trivial, rfl⟩).step ⟨second, trivial, rfl⟩

theorem getNodeByWorkspaceId_exact_shared :
    ((registry 10 30).restrict GivesUpAlone).Reachable bothJoined ∧
      ∃ info, bothJoined.getNodeByWorkspaceId "shared" = some info ∧
        info.workspace.workspaceId = some "shared" := by
  obtain ⟨exact_, carries, -⟩ := getNodeByWorkspaceId_exact bothJoined_reachable
  have registered : ∃ nodeId info, bothJoined.nodes.lookup nodeId = some info ∧
      info.workspace.workspaceId = some "shared" := by
    have found : (bothJoined.nodes.lookup ⟨"a"⟩).any
        (fun info => decide (info.workspace.workspaceId = some "shared")) = true := by
      decide
    obtain ⟨info, stored, shared⟩ := (Option.any_eq_true _ _).mp found
    exact ⟨⟨"a"⟩, info, stored, of_decide_eq_true shared⟩
  obtain ⟨info, found⟩ := (exact_ "shared").mpr registered
  exact ⟨bothJoined_reachable, info, found, carries "shared" info found⟩

/-- One of the two leaves, and the index forgets the workspace of the other. -/
theorem unregisterNode_forgets_other :
    ∃ manager, (registry 10 30).Reachable manager ∧
      manager.workspaceOf ⟨"a"⟩ = some "shared" ∧
      manager.getNodeByWorkspaceId "shared" = none := by
  have leaves : (registry 10 30).Step bothJoined (.unregister ⟨"b"⟩)
      (bothJoined.call (.unregister ⟨"b"⟩)) := ⟨trivial, rfl⟩
  exact ⟨_, bothJoined_reachable.of_restrict.step leaves, by decide, by decide⟩

end UHorse.Hub.NodeManager
