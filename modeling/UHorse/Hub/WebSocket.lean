import UHorse.Hub.MessageRouter
import UHorse.Lib.System

/-!
# WebSocket connections of the nodes

`handle_socket` registers a connection, serves it and cleans up after it. The
sender map and the registry are keyed by node id, so a node that reconnects
shares both entries with its older connections, and each of them removes both
when it ends.

A registration, a message and a clean-up are one step each. Connections are
numbered in the order they registered, and the number of a connection is also
that of its sender. As long as no connection is cleaned up while a newer one of
its node is open, and no message unregisters a node with an open connection,
the newest connection of a node is the one the Hub sends to.
-/

namespace UHorse.Hub

open UHorse.Lib UHorse.Protocol

structure Registration where
  nodeId : NodeId
  name : String
  capabilities : NodeCapabilities
  workspace : WorkspaceInfo
  authToken : String

/-- `verify` is the node authenticator's, absent without a security manager. -/
def authenticateRegistration (verify : Option (String → Except HubError NodeId))
    (registration : Registration) : Except HubError Unit :=
  match verify with
  | none => .ok ()
  | some verifyToken =>
    if registration.authToken = "" then .error (.permission "Missing auth token")
    else
      match verifyToken registration.authToken with
      | .error error => .error error
      | .ok nodeId =>
        if nodeId ≠ registration.nodeId then
          .error (.permission ("Token node_id " ++ nodeId.value ++
            " does not match registration node_id " ++ registration.nodeId.value))
        else .ok ()

namespace HubState

/-- The registry part of `handle_node_connection`. The dispatch after it is a step
of its own; it never fails. -/
def handleNodeConnection (hub : HubState) (registration : Registration) (now : DateTime) :
    Except HubError HubState :=
  match hub.nodeManager.registerNode registration.nodeId registration.name
    registration.capabilities registration.workspace [] now with
  | .ok nodeManager => .ok { hub with nodeManager }
  | .error error => .error error

def handleNodeDisconnect (hub : HubState) (nodeId : NodeId) : HubState :=
  (hub.withNodeManager (hub.nodeManager.unregisterNode nodeId)).1

end HubState

inductive Phase
  | opened
  | closing
  | closed
deriving DecidableEq, Repr

/-- A connection that completed its registration. -/
structure Connection where
  nodeId : NodeId
  phase : Phase
deriving DecidableEq

structure Sockets where
  hub : HubState
  connections : List Connection

inductive SocketLabel
  | accept (registration : Registration) (now : DateTime)
  | message (index : Nat) (env : RouterEnv) (message : NodeToHub)
  | close (index : Nat)
  | cleanUp (index : Nat)
  | checkTimeouts (order : List (NodeId × NodeInfo)) (now : DateTime)
  | background (hub : HubState)

namespace Sockets

/-- The registration phase. A rejected connection leaves nothing behind; one that
the registry refuses takes its sender out again. -/
def accept (verify : Option (String → Except HubError NodeId)) (s : Sockets)
    (registration : Registration) (now : DateTime) : Sockets :=
  match authenticateRegistration verify registration with
  | .error _ => s
  | .ok _ =>
    let hub := s.hub.registerNodeSender registration.nodeId s.connections.length
    match hub.handleNodeConnection registration now with
    | .error _ => { s with hub := hub.unregisterNodeSender registration.nodeId }
    | .ok hub => { hub, connections := s.connections ++ [⟨registration.nodeId, .opened⟩] }

def setPhase (s : Sockets) (index : Nat) (phase : Phase) : Sockets :=
  { s with connections := s.connections.modify index fun connection => { connection with phase } }

/-- The clean-up phase, by node id. -/
def cleanUp (s : Sockets) (index : Nat) (nodeId : NodeId) : Sockets :=
  { s.setPhase index .closed with
    hub := (s.hub.unregisterNodeSender nodeId).handleNodeDisconnect nodeId }

/-- One phase of one connection, or one step of the Hub's background tasks.

A connection closes when its acknowledgement cannot be sent or one of its two
tasks ends. The other task is not stopped, so messages of a connection may be
handled after its clean-up. Submissions, dispatches and the result loop touch
neither the registry nor the senders. -/
inductive Step (verify : Option (String → Except HubError NodeId)) :
    Sockets → SocketLabel → Sockets → Prop
  | accept (s : Sockets) (registration : Registration) (now : DateTime) :
      Step verify s (.accept registration now) (s.accept verify registration now)
  | message (s : Sockets) (index : Nat) (connection : Connection) (env : RouterEnv)
      (message : NodeToHub) (known : s.connections[index]? = some connection) :
      Step verify s (.message index env message)
        { s with hub := (s.hub.routeNodeMessage env connection.nodeId message).1 }
  | close (s : Sockets) (index : Nat) (nodeId : NodeId)
      (known : s.connections[index]? = some ⟨nodeId, .opened⟩) :
      Step verify s (.close index) (s.setPhase index .closing)
  | cleanUp (s : Sockets) (index : Nat) (nodeId : NodeId)
      (known : s.connections[index]? = some ⟨nodeId, .closing⟩) :
      Step verify s (.cleanUp index) (s.cleanUp index nodeId)
  | checkTimeouts (s : Sockets) (order : List (NodeId × NodeInfo)) (now : DateTime)
      (listed : s.hub.nodeManager.nodes.Lists order) :
      Step verify s (.checkTimeouts order now)
        { s with hub := { s.hub with
            nodeManager := (s.hub.nodeManager.checkTimeouts order now).1 } }
  | background (s : Sockets) (hub : HubState) (registry : hub.nodeManager = s.hub.nodeManager)
      (senders : hub.nodeSenders = s.hub.nodeSenders) :
      Step verify s (.background hub) { s with hub }

/-- All connections of a Hub that starts with an empty registry. -/
def system (verify : Option (String → Except HubError NodeId)) :
    System Sockets SocketLabel where
  Init s := s.connections = [] ∧ s.hub.nodeManager.nodes = ∅ ∧ s.hub.nodeSenders = ∅
  Step := Step verify

/-! ## The newest connection of a node -/

/-- No later connection registered for the same node. -/
structure Newest (s : Sockets) (index : Nat) (connection : Connection) : Prop where
  known : s.connections[index]? = some connection
  last : ∀ later other, index < later → s.connections[later]? = some other →
    other.nodeId ≠ connection.nodeId

/-- The newest connection of the node is open. -/
def Connected (s : Sockets) (nodeId : NodeId) : Prop :=
  ∃ index connection, s.Newest index connection ∧ connection.nodeId = nodeId ∧
    connection.phase = .opened

/-- The Hub sends to the newest connection of every node that is connected, and
knows that node. -/
def Served (s : Sockets) : Prop :=
  ∀ index connection, s.Newest index connection → connection.phase = .opened →
    s.hub.nodeSenders.lookup connection.nodeId = some index ∧
      connection.nodeId ∈ s.hub.nodeManager.nodes

/-- No connection is cleaned up while a newer one of its node is open, and no
message unregisters a node whose newest connection is open. -/
def NotStale (s : Sockets) : SocketLabel → Prop
  | .cleanUp index => ∀ connection, s.connections[index]? = some connection →
      ¬ s.Connected connection.nodeId
  | .message _ _ (.unregister _ nodeId _) => ¬ s.Connected nodeId
  | _ => True

section Steps

variable {verify : Option (String → Except HubError NodeId)} {s s' : Sockets}

theorem getElem?_setPhase (s : Sockets) (index later : Nat) (phase : Phase) :
    (s.setPhase index phase).connections[later]? = s.connections[later]?.map fun connection =>
      if index = later then { connection with phase } else connection := by
  rw [setPhase]
  exact List.getElem?_modify ..

/-- Which of the other connections is the newest does not depend on phases. -/
theorem newest_setPhase_iff {index later : Nat} (distinct : index ≠ later) (phase : Phase)
    (connection : Connection) :
    (s.setPhase index phase).Newest later connection ↔ s.Newest later connection := by
  have here : (s.setPhase index phase).connections[later]? = s.connections[later]? := by
    simp [getElem?_setPhase, distinct]
  constructor
  · intro newest
    refine ⟨here ▸ newest.known, ?_⟩
    intro next other after found
    have moved := s.getElem?_setPhase index next phase
    rw [found, Option.map_some] at moved
    have differs := newest.last next _ after moved
    split at differs
    · exact differs
    · exact differs
  · intro newest
    refine ⟨here.trans newest.known, ?_⟩
    intro next other after found
    rw [getElem?_setPhase, Option.map_eq_some_iff] at found
    obtain ⟨other, found, rfl⟩ := found
    have differs := newest.last next other after found
    split
    · exact differs
    · exact differs

/-- A connection that is open after another left that phase was open before. -/
theorem Newest.of_setPhase {index later : Nat} {phase : Phase} {connection : Connection}
    (away : phase ≠ .opened) (newest : (s.setPhase index phase).Newest later connection)
    (opened : connection.phase = .opened) : s.Newest later connection := by
  have distinct : index ≠ later := by
    rintro rfl
    have known := newest.known
    rw [getElem?_setPhase, Option.map_eq_some_iff] at known
    obtain ⟨_, -, rfl⟩ := known
    rw [if_pos rfl] at opened
    exact away opened
  exact (newest_setPhase_iff distinct phase connection).mp newest

theorem Newest.of_append {index : Nat} {connection added : Connection} {hub : HubState}
    (newest : Newest ⟨hub, s.connections ++ [added]⟩ index connection) :
    (index = s.connections.length ∧ connection = added) ∨
      (s.Newest index connection ∧ added.nodeId ≠ connection.nodeId) := by
  have known : (s.connections ++ [added])[index]? = some connection := newest.known
  obtain before | rfl | beyond := Nat.lt_trichotomy index s.connections.length
  · right
    refine ⟨⟨?_, ?_⟩, ?_⟩
    · rwa [List.getElem?_append_left before] at known
    · intro later other after found
      refine newest.last later other after ?_
      show (s.connections ++ [added])[later]? = some other
      rw [List.getElem?_append_left (List.getElem?_eq_some_iff.mp found).1, found]
    · exact newest.last s.connections.length added before (by simp)
  · left
    refine ⟨rfl, ?_⟩
    simpa using known.symm
  · rw [List.getElem?_append_right (by omega)] at known
    have outside : [added][index - s.connections.length]? = none :=
      List.getElem?_eq_none (by simp; omega)
    rw [outside] at known
    cases known

theorem Served.accept (served : s.Served) (registration : Registration) (now : DateTime) :
    (s.accept verify registration now).Served := by
  rw [Sockets.accept]
  split
  · exact served
  · dsimp only
    split
    · next error refused =>
        -- The registry refuses only nodes it does not know, which have no open connection.
        have unknown : registration.nodeId ∉ s.hub.nodeManager.nodes := by
          rw [HubState.handleNodeConnection] at refused
          split at refused
          · cases refused
          · next failed => exact NodeManager.registerNode_error failed
        intro index connection newest opened
        obtain ⟨sender, member⟩ := served index connection ⟨newest.known, newest.last⟩ opened
        have distinct : connection.nodeId ≠ registration.nodeId := by
          intro same
          exact unknown (same ▸ member)
        refine ⟨?_, member⟩
        show ((s.hub.nodeSenders.insert _ _).erase _).lookup _ = _
        rw [HashMap.lookup_erase_ite, if_neg distinct, HashMap.lookup_insert_ite,
          if_neg distinct, sender]
    · next hub registered =>
        rw [HubState.handleNodeConnection] at registered
        split at registered
        · next manager succeeded =>
            cases registered
            obtain ⟨⟨info, nodes, -⟩, -⟩ := NodeManager.registerNode_ok succeeded
            intro index connection newest opened
            show (s.hub.nodeSenders.insert _ _).lookup _ = _ ∧ _ ∈ manager.nodes
            rw [nodes, HashMap.lookup_insert_ite]
            obtain ⟨rfl, rfl⟩ | ⟨older, distinct⟩ := newest.of_append
            · exact ⟨if_pos rfl, Finmap.mem_insert.mpr (.inl rfl)⟩
            · obtain ⟨sender, member⟩ := served index connection older opened
              rw [if_neg (Ne.symm distinct)]
              exact ⟨sender, Finmap.mem_insert.mpr (.inr member)⟩
        · cases registered

theorem mem_nodes_handleNodeDisconnect {hub : HubState} {nodeId other : NodeId}
    (member : other ∈ hub.nodeManager.nodes) (distinct : other ≠ nodeId) :
    other ∈ (hub.handleNodeDisconnect nodeId).nodeManager.nodes := by
  unfold HubState.handleNodeDisconnect HubState.withNodeManager
  split
  · next removed =>
      obtain ⟨info, -, nodes, -⟩ := NodeManager.unregisterNode_ok removed
      rw [nodes]
      exact Finmap.mem_erase.mpr ⟨distinct, member⟩
  · exact member

theorem nodeSenders_handleNodeDisconnect (hub : HubState) (nodeId : NodeId) :
    (hub.handleNodeDisconnect nodeId).nodeSenders = hub.nodeSenders := by
  unfold HubState.handleNodeDisconnect HubState.withNodeManager
  split <;> rfl

/-- A clean-up removes the entries of its own node id. -/
theorem Served.cleanUp (served : s.Served) {index : Nat} {nodeId : NodeId}
    (alone : ¬ s.Connected nodeId) : (s.cleanUp index nodeId).Served := by
  intro later connection newest opened
  have older : s.Newest later connection :=
    Newest.of_setPhase (by decide) ⟨newest.known, newest.last⟩ opened
  obtain ⟨sender, member⟩ := served later connection older opened
  have distinct : connection.nodeId ≠ nodeId := by
    intro same
    exact alone ⟨later, connection, older, same, opened⟩
  constructor
  · show ((s.hub.unregisterNodeSender nodeId).handleNodeDisconnect nodeId).nodeSenders.lookup _ = _
    rw [nodeSenders_handleNodeDisconnect]
    show (s.hub.nodeSenders.erase nodeId).lookup _ = _
    rw [HashMap.lookup_erase_ite, if_neg distinct, sender]
  · exact mem_nodes_handleNodeDisconnect member distinct

theorem Served.step {label : SocketLabel} (served : s.Served) (fresh : s.NotStale label)
    (taken : Step verify s label s') : s'.Served := by
  cases taken with
  | accept registration now => exact served.accept registration now
  | message index sender env message known =>
    intro later connection newest opened
    obtain ⟨sender, member⟩ := served later connection ⟨newest.known, newest.last⟩ opened
    refine ⟨?_, ?_⟩
    · show (HubState.routeNodeMessage _ _ _ _).1.nodeSenders.lookup _ = _
      rw [HubState.nodeSenders_routeNodeMessage, sender]
    · refine HubState.mem_nodes_routeNodeMessage member ?_
      rintro id reason rfl
      exact fresh ⟨later, connection, ⟨newest.known, newest.last⟩, rfl, opened⟩
  | close index nodeId known =>
    intro later connection newest opened
    exact served later connection (newest.of_setPhase (by decide) opened) opened
  | cleanUp index nodeId known => exact served.cleanUp (fresh _ known)
  | checkTimeouts order now listed =>
    intro later connection newest opened
    obtain ⟨sender, member⟩ := served later connection ⟨newest.known, newest.last⟩ opened
    exact ⟨sender, NodeManager.mem_nodes_checkTimeouts member⟩
  | background hub registry senders =>
    intro later connection newest opened
    show hub.nodeSenders.lookup _ = _ ∧ _ ∈ hub.nodeManager.nodes
    rw [registry, senders]
    exact served later connection ⟨newest.known, newest.last⟩ opened

theorem Served.of_reachable (reached : ((system verify).restrict NotStale).Reachable s) :
    s.Served := by
  refine reached.invariant ?_ ?_
  · rintro s ⟨empty, -, -⟩ index connection newest
    have known := newest.known
    rw [empty] at known
    cases known
  · rintro s label s' served ⟨fresh, taken⟩
    exact served.step fresh taken

/-- In a run without stale clean-ups, the Hub sends to the newest connection of a
node as long as that is open, and no clean-up of an older one changes this. -/
theorem newest_connection_served
    (reached : ((system verify).restrict NotStale).Reachable s) :
    (∀ index connection, s.Newest index connection → connection.phase = .opened →
      s.hub.nodeSenders.lookup connection.nodeId = some index ∧
        connection.nodeId ∈ s.hub.nodeManager.nodes) ∧
    ∀ older s', ((system verify).restrict NotStale).Step s (.cleanUp older) s' →
      ∀ index connection, s.Newest index connection → connection.phase = .opened →
        s'.hub.nodeSenders.lookup connection.nodeId = some index ∧
          connection.nodeId ∈ s'.hub.nodeManager.nodes := by
  have served := Served.of_reachable reached
  refine ⟨served, ?_⟩
  rintro older s' step index connection newest opened
  have after := Served.of_reachable (reached.step step)
  obtain ⟨fresh, taken⟩ := step
  cases taken with
  | cleanUp _ nodeId known =>
    have distinct : index ≠ older := by
      rintro rfl
      rw [newest.known] at known
      cases known
      cases opened
    have kept := (newest_setPhase_iff (Ne.symm distinct) .closed connection).mpr newest
    exact after index connection ⟨kept.known, kept.last⟩ opened

end Steps

def sampleRegistration : Registration where
  nodeId := ⟨"a"⟩
  name := "a"
  capabilities := .default
  workspace := ⟨none, "ws", "/ws", false, [], []⟩
  authToken := ""

/-- A Hub without connections and without a security manager. -/
def noSockets : Sockets := ⟨.new 10 90 3 300 none, []⟩

/-- The same node connects twice. -/
def reconnected : Sockets := (noSockets.accept none sampleRegistration 0).accept none
  sampleRegistration 1

theorem newest_connection_served_reconnected :
    ((system none).restrict NotStale).Reachable reconnected ∧
      reconnected.Newest 1 ⟨⟨"a"⟩, .opened⟩ ∧
      reconnected.hub.nodeSenders.lookup ⟨"a"⟩ = some 1 := by
  have start : ((system none).restrict NotStale).Init noSockets := ⟨rfl, rfl, rfl⟩
  have first : ((system none).restrict NotStale).Step noSockets (.accept sampleRegistration 0)
      (noSockets.accept none sampleRegistration 0) := ⟨trivial, .accept ..⟩
  have second : ((system none).restrict NotStale).Step
      (noSockets.accept none sampleRegistration 0) (.accept sampleRegistration 1) reconnected :=
    ⟨trivial, .accept ..⟩
  have reached := ((System.Reachable.init start).step first).step second
  have newest : reconnected.Newest 1 ⟨⟨"a"⟩, .opened⟩ := by
    refine ⟨by decide, ?_⟩
    intro later other after found
    have few : reconnected.connections.length = 2 := by decide
    have inside := (List.getElem?_eq_some_iff.mp found).1
    omega
  exact ⟨reached, newest, ((newest_connection_served reached).1 1 _ newest rfl).1⟩

/-- The first connection notices its end after the second has registered. -/
theorem stale_cleanUp_removes_newer :
    ∃ s, (system none).Reachable s ∧ s.Newest 1 ⟨⟨"a"⟩, .opened⟩ ∧
      s.hub.nodeSenders.lookup ⟨"a"⟩ = none ∧ ⟨"a"⟩ ∉ s.hub.nodeManager.nodes := by
  have first : (system none).Step noSockets (.accept sampleRegistration 0)
      (noSockets.accept none sampleRegistration 0) := .accept ..
  have second : (system none).Step (noSockets.accept none sampleRegistration 0)
      (.accept sampleRegistration 1) reconnected := .accept ..
  have third : (system none).Step reconnected (.close 0) (reconnected.setPhase 0 .closing) :=
    .close _ 0 ⟨"a"⟩ (by decide)
  have last : (system none).Step (reconnected.setPhase 0 .closing) (.cleanUp 0)
      ((reconnected.setPhase 0 .closing).cleanUp 0 ⟨"a"⟩) :=
    .cleanUp _ 0 ⟨"a"⟩ (by decide)
  have start : (system none).Init noSockets := ⟨rfl, rfl, rfl⟩
  refine ⟨_, ((((System.Reachable.init start).step first).step second).step third).step last,
    ⟨by decide, ?_⟩, by decide, by decide⟩
  intro later other after found
  have few : ((reconnected.setPhase 0 .closing).cleanUp 0 ⟨"a"⟩).connections.length = 2 := by
    decide
  have inside := (List.getElem?_eq_some_iff.mp found).1
  omega

end Sockets
end UHorse.Hub
