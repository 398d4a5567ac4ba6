import UHorse.Agent.SessionKey
import UHorse.Lib.Behaviour
import UHorse.Lib.Channel
import UHorse.Lib.FileSystem
import UHorse.Node.Workspace
import UHorse.Protocol.Message

/-!
# The connection of a node to its hub

One task connects, registers, serves the connection and connects again. It is a state machine
with one step for each section between two awaits; what the step waited for is its input. The
node puts messages in the outbound channel and may stop the connection at any time.

The socket is known by what it answers: every message the task sends is taken or refused.
Messages from the outbound channel are recorded with the answer, in the order the task has taken
them from the channel.
-/

namespace UHorse.Node

open UHorse.Lib UHorse.Protocol

structure ConnectionConfig where
  maxReconnectAttempts : UInt32
  authToken : Option String

inductive ConnectionState
  | disconnected
  | connecting
  | connected (connectedAt : DateTime)
  | authenticating
  | authenticated (authenticatedAt : DateTime)
  | reconnecting (attempt : UInt32)
  | failed (error : String)
deriving DecidableEq

structure HeartbeatSnapshot where
  status : NodeStatus
  load : LoadInfo

/-- What a connection knows of its node. -/
structure HubConnection where
  config : ConnectionConfig
  nodeId : NodeId
  nodeName : String
  workspacePath : String
  capabilities : NodeCapabilities

/-- The errors `connect_and_run` returns. -/
inductive ConnectionError
  | timeout (message : String)
  | connection (message : String)
deriving DecidableEq

def ConnectionError.toString : ConnectionError → String
  | .timeout message => "Timeout: " ++ message
  | .connection message => "Connection error: " ++ message

/-- A frame of the socket; of binary data, what the codec decodes from it. -/
inductive Frame
  | binary (message : Option HubToNode)
  | ping
  | close (reason : Option String)
  | pong
  | other

/-- What an await of the connection loop ends with. -/
inductive Input
  | proceed
  | connect (result : Except ConnectionError Unit)
  | clock (now : DateTime)
  | register (messageId : MessageId) (now : DateTime)
  | sink (result : Except String Unit)
  | received (frame : Option (Except String Frame))
  | outbound
  | heartbeat (snapshot : Option HeartbeatSnapshot) (messageId : MessageId) (now : DateTime)
  | forwarded (accepted : Bool)

/-- Where the task is. It serves a connection `confirmed` once the hub has sent a message, and
leaves the loop with an error or because it was stopped. -/
inductive Position
  | starting
  | connecting
  | opened
  | registering
  | authenticating (message : NodeToHub)
  | registered (message : NodeToHub)
  | serving (confirmed : Bool)
  | selecting (confirmed : Bool)
  | confirming (message : HubToNode)
  | forwarding (message : HubToNode)
  | answering (confirmed : Bool)
  | sending (confirmed : Bool) (message : NodeToHub)
  | beating (confirmed : Bool) (message : NodeToHub)
  | ended
  | erred (error : ConnectionError)
  | givingUp (error : ConnectionError)
  | retrying
  | sleeping
  | leaving (failure : Option ConnectionError)
  | left (failure : Option ConnectionError)

structure Connection where
  position : Position
  state : ConnectionState
  running : Bool
  reconnectAttempts : UInt32
  outbound : Channel NodeToHub 100
  senderOpen : Bool
  inbound : List HubToNode
  /-- Calls of `stop` that have not written the state yet. -/
  stopping : Nat
  /-- What hub connections took. -/
  sent : List NodeToHub
  /-- What was taken from the outbound channel, and whether a hub connection took it. -/
  outcomes : List (NodeToHub × Bool)

namespace HubConnection

variable (node : HubConnection)

def workspaceName : String :=
  match (Unix.Path.parse node.workspacePath).components.getLast? with
  | some (.normal name) => name
  | _ => "workspace"

def registerMessage (messageId : MessageId) (now : DateTime) : NodeToHub :=
  .register messageId node.nodeId node.nodeName node.capabilities
    { workspaceId := none
      name := node.workspaceName
      path := node.workspacePath
      readOnly := false
      allowedPatterns := ["**/*"]
      deniedPatterns := [] }
    (node.config.authToken.getD "") now

def heartbeatMessage (snapshot : HeartbeatSnapshot) (messageId : MessageId) (now : DateTime) :
    NodeToHub :=
  .heartbeat messageId node.nodeId snapshot.status snapshot.load now

/-- Why the hub closed a connection it had not confirmed. -/
def rejection (reason : Option String) : ConnectionError :=
  .connection ((reason.filter fun reason => Agent.trim reason ≠ "").getD
    "Hub rejected node registration before confirmation")

/-- What `start` spawns the task with. -/
def start : Connection where
  position := .starting
  state := .connecting
  running := true
  reconnectAttempts := 0
  outbound := .empty
  senderOpen := true
  inbound := []
  stopping := 0
  sent := []
  outcomes := []

/-- A frame the connection was waiting for. -/
def receive (s : Connection) (confirmed : Bool) :
    Option (Except String Frame) → Connection
  | some (.ok (.binary (some message))) =>
    if confirmed then { s with position := .forwarding message }
    else { s with position := .confirming message }
  | some (.ok (.binary none)) => { s with position := .serving confirmed }
  | some (.ok .ping) => { s with position := .answering confirmed }
  | some (.ok (.close reason)) =>
    if confirmed then { s with position := .ended }
    else { s with position := .erred (rejection reason) }
  | some (.ok .pong) | some (.ok .other) => { s with position := .serving confirmed }
  | some (.error _) => { s with position := .ended }
  | none =>
    if confirmed then { s with position := .ended }
    else
      let error := "Hub closed connection before registration confirmation"
      { s with position := .erred (.connection error) }

/-- The next message of the node, unless the connection has to wait for one. -/
def receiveOutbound (s : Connection) (confirmed : Bool) : Option Connection :=
  match s.outbound.receive with
  | some (message, outbound) =>
    some { s with outbound, position := .sending confirmed message }
  | none => if s.senderOpen then none else some { s with position := .ended }

/-- A message of the node after the socket has answered. -/
def finishSend (s : Connection) (confirmed : Bool) (message : NodeToHub) :
    Except String Unit → Connection
  | .ok () =>
    { s with
      position := .serving confirmed
      sent := s.sent ++ [message]
      outcomes := s.outcomes ++ [(message, true)] }
  | .error _ => { s with position := .ended, outcomes := s.outcomes ++ [(message, false)] }

/-- Count a connection that ended with an error; the counter wraps. -/
def recordError (s : Connection) (error : ConnectionError) : Connection :=
  let reconnectAttempts := s.reconnectAttempts + 1
  if node.config.maxReconnectAttempts < reconnectAttempts then
    { s with reconnectAttempts, position := .givingUp error }
  else { s with reconnectAttempts, position := .retrying }

/-- The task goes on with what it waited for. -/
def advance (s : Connection) (input : Input) : Option Connection :=
  match s.position, input with
  | .starting, .proceed =>
    some { s with position := if s.running then .connecting else .leaving none }
  | .connecting, .connect (.ok ()) => some { s with position := .opened }
  | .connecting, .connect (.error error) => some { s with position := .erred error }
  | .opened, .clock now => some { s with state := .connected now, position := .registering }
  | .registering, .register messageId now =>
    some { s with position := .authenticating (node.registerMessage messageId now) }
  | .authenticating message, .proceed =>
    some { s with state := .authenticating, position := .registered message }
  | .registered message, .sink (.ok ()) =>
    some { s with position := .serving false, sent := s.sent ++ [message] }
  | .registered _, .sink (.error error) =>
    some { s with
      position := .erred (.connection ("Failed to send register message: " ++ error)) }
  | .serving confirmed, .proceed =>
    some { s with position := if s.running then .selecting confirmed else .ended }
  | .selecting confirmed, .received frame => some (receive s confirmed frame)
  | .selecting confirmed, .outbound => receiveOutbound s confirmed
  | .selecting confirmed, .heartbeat none _ _ => some { s with position := .serving confirmed }
  | .selecting confirmed, .heartbeat (some snapshot) messageId now =>
    some { s with
      position := .beating confirmed (node.heartbeatMessage snapshot messageId now) }
  | .confirming message, .clock now =>
    some { s with state := .authenticated now, position := .forwarding message }
  | .forwarding message, .forwarded true =>
    some { s with inbound := s.inbound ++ [message], position := .serving true }
  | .forwarding _, .forwarded false => some { s with position := .ended }
  | .answering confirmed, .sink (.ok ()) => some { s with position := .serving confirmed }
  | .answering _, .sink (.error _) => some { s with position := .ended }
  | .sending confirmed message, .sink result => some (finishSend s confirmed message result)
  | .beating confirmed message, .sink (.ok ()) =>
    some { s with position := .serving confirmed, sent := s.sent ++ [message] }
  | .beating _ _, .sink (.error _) => some { s with position := .ended }
  | .ended, .proceed => some { s with reconnectAttempts := 0, position := .starting }
  | .erred error, .proceed => some (node.recordError s error)
  | .givingUp error, .proceed =>
    some { s with state := .failed error.toString, position := .leaving (some error) }
  | .retrying, .proceed =>
    some { s with state := .reconnecting s.reconnectAttempts, position := .sleeping }
  | .sleeping, .proceed => some { s with position := .starting }
  | .leaving failure, .proceed =>
    some { s with state := .disconnected, position := .left failure }
  | _, _ => none

end HubConnection

/-- The task goes on, the node uses the outbound channel, or a call of `stop` goes on. -/
inductive ConnectionEvent
  | run (input : Input)
  | put (message : NodeToHub)
  | close
  | stop
  | stopped

namespace HubConnection

variable (node : HubConnection)

def handle (s : Connection) : ConnectionEvent → Option Connection
  | .run input => node.advance s input
  | .put message =>
    if s.senderOpen then
      match s.position with
      | .left _ => none
      | _ => (s.outbound.send message).map fun outbound => { s with outbound }
    else none
  | .close => some { s with senderOpen := false }
  | .stop => some { s with running := false, stopping := s.stopping + 1 }
  | .stopped =>
    match s.stopping with
    | 0 => none
    | stopping + 1 => some { s with state := .disconnected, stopping }

def loop : System Connection ConnectionEvent where
  Init s := s = start
  Step s event t := node.handle s event = some t

end HubConnection

end UHorse.Node
