import UHorse.Lib.Channel
import UHorse.Lib.HashMap
import UHorse.Lib.System

/-!
# WebSocket connections of the gateway

The manager keeps the connections, the subscribers of every room, and one broadcast channel.
Each connection runs a task that sends what it receives from the channel and a task that handles
the commands of its client; the connection is removed when one of them ends.

Events are sent with a note of what they were sent for, which nobody reads: it tells whom an
event was meant for.
-/

namespace UHorse.Gateway

open UHorse.Lib

/-! ## Rooms, events and commands -/

inductive Room
  | global
  | agent (id : String)
  | session (id : String)
deriving DecidableEq

namespace Room

/-- `strip_prefix`. -/
def stripPrefix (begins text : String) : Option String :=
  if begins.toList <+: text.toList then some (.ofList (text.toList.drop begins.toList.length))
  else none

def parse (s : String) : Option Room :=
  if s = "global" then some .global
  else
    ((stripPrefix "agent:" s).map .agent).or ((stripPrefix "session:" s).map .session)

def toString : Room → String
  | .global => "global"
  | .agent id => "agent:" ++ id
  | .session id => "session:" ++ id

end Room

/-- Events; a fraction is carried as its bits. -/
inductive WsEvent
  | message (sessionId role content : String) (timestamp : UInt64)
  | stateChange (entityType entityId oldState newState : String)
  | taskProgress (taskId : String) (progress : UInt32) (message : String)
  | agentStatus (agentId status : String) (message : Option String)
  | channelStatus (channelType : String) (connected : Bool) (message : Option String)
  | pong (timestamp : UInt64)
  | error (code message : String)
deriving DecidableEq

inductive WsCommand
  | ping (timestamp : UInt64)
  | subscribe (room : String)
  | unsubscribe (room : String)
  | send (sessionId content : String)
deriving DecidableEq

/-- What an event was sent for. -/
inductive Purpose
  | everyone
  | room (room : Room)
  | reply (recipient : String)
deriving DecidableEq

structure Sent where
  event : WsEvent
  purpose : Purpose
deriving DecidableEq

/-! ## The manager -/

structure Connection where
  id : String
  clientId : String
  sessionId : Option String
  agentId : Option String
  connectedAt : UInt64
deriving DecidableEq

structure ConnectionManager where
  connections : HashMap String Connection
  roomSubscriptions : Room → List String
  eventTx : Broadcast Sent 1024

namespace ConnectionManager

variable (manager : ConnectionManager)

def new : ConnectionManager := ⟨∅, fun _ => [], ⟨[]⟩⟩

/-- A receiver begins behind what was sent so far. -/
def subscribeEvents : Nat := manager.eventTx.sent.length

def broadcast (sent : Sent) : ConnectionManager :=
  { manager with eventTx := manager.eventTx.send sent }

/-- The subscribers of the room are only counted. -/
def broadcastToRoom (room : Room) (event : WsEvent) : ConnectionManager :=
  { manager with eventTx := manager.eventTx.send ⟨event, .room room⟩ }

def addConnection (connection : Connection) : ConnectionManager :=
  { manager with connections := manager.connections.insert connection.id connection }

def subscribeRoom (connectionId : String) (room : Room) : ConnectionManager :=
  { manager with
    roomSubscriptions := fun other =>
      if other = room then manager.roomSubscriptions room ++ [connectionId]
      else manager.roomSubscriptions other }

def unsubscribeRoom (connectionId : String) (room : Room) : ConnectionManager :=
  { manager with
    roomSubscriptions := fun other =>
      if other = room then (manager.roomSubscriptions room).filter (· ≠ connectionId)
      else manager.roomSubscriptions other }

/-- The first half of `remove_connection`, which keeps the lock of the connections if there is
such a connection. -/
def takeConnection (id : String) : ConnectionManager :=
  { manager with connections := manager.connections.erase id }

/-- The second half of `remove_connection`. -/
def dropSubscriptions (id : String) : ConnectionManager :=
  { manager with
    roomSubscriptions := fun room => (manager.roomSubscriptions room).filter (· ≠ id) }

def subscribe? (connectionId : String) (room : Option Room) : ConnectionManager :=
  match room with
  | none => manager
  | some room => manager.subscribeRoom connectionId room

end ConnectionManager

/-! ## The tasks of a connection -/

/-- How far `handle_socket` is. A running connection has its position in the channel, and the
confirmation its command task is about to send, if there is one. -/
inductive Stage
  | accepted
  | added
  | agentJoined
  | sessionJoined
  | running (position : Nat) (confirm : Option WsEvent)
  | closing
  | leaving
  | closed
deriving DecidableEq

structure Socket where
  connection : Connection
  stage : Stage

/-- What was put on the socket of a connection, with the subscriptions at that moment. -/
structure Delivery where
  connectionId : String
  sent : Sent
  subscriptions : Room → List String

structure GatewayState where
  manager : ConnectionManager
  /-- Whether a removal holds the lock of the connections. -/
  removing : Bool
  sockets : HashMap String Socket
  deliveries : List Delivery

/-- The steps of the connections and of those who send events; a text that is no command and
other frames change nothing. -/
inductive Label
  | accept (connection : Connection)
  | proceed (id : String)
  | deliver (id : String) (written : Bool)
  | lag (id : String)
  | command (id : String) (command : WsCommand) (now : UInt64)
  | confirm (id : String)
  | close (id : String)
  | broadcast (event : WsEvent)
  | broadcastToRoom (room : Room) (event : WsEvent)

namespace GatewayState

def new : GatewayState := ⟨.new, false, ∅, []⟩

variable (s : GatewayState)

def setStage (id : String) (socket : Socket) (stage : Stage) : GatewayState :=
  { s with sockets := s.sockets.insert id { socket with stage } }

/-- The next step of setting a connection up or of cleaning up after it. -/
def proceed (id : String) (socket : Socket) : Option GatewayState :=
  match socket.stage with
  | .accepted =>
    if s.removing then none
    else some ({ s with manager := s.manager.addConnection socket.connection }.setStage id socket
      .added)
  | .added =>
    some ({ s with
      manager := s.manager.subscribe? id (socket.connection.agentId.map .agent) }.setStage id
        socket .agentJoined)
  | .agentJoined =>
    some ({ s with
      manager := s.manager.subscribe? id (socket.connection.sessionId.map .session) }.setStage id
        socket .sessionJoined)
  | .sessionJoined => some (s.setStage id socket (.running s.manager.subscribeEvents none))
  | .running _ _ => none
  | .closing =>
    if s.removing then none
    else if id ∈ s.manager.connections then
      some ({ s with manager := s.manager.takeConnection id, removing := true }.setStage id
        socket .leaving)
    else some (s.setStage id socket .closed)
  | .leaving =>
    some ({ s with manager := s.manager.dropSubscriptions id, removing := false }.setStage id
      socket .closed)
  | .closed => none

/-- `handle_client_message`, up to the confirmation of a subscription. -/
def handleCommand (id : String) (socket : Socket) (position : Nat) (command : WsCommand)
    (now : UInt64) : GatewayState :=
  match command with
  | .ping timestamp =>
    { s with manager := s.manager.broadcast ⟨.pong timestamp, .reply id⟩ }
  | .subscribe text =>
    match Room.parse text with
    | none => s
    | some room =>
      { s with manager := s.manager.subscribeRoom id room }.setStage id socket
        (.running position
          (some (.stateChange "subscription" room.toString "unsubscribed" "subscribed")))
  | .unsubscribe text =>
    match Room.parse text with
    | none => s
    | some room => { s with manager := s.manager.unsubscribeRoom id room }
  | .send sessionId content =>
    { s with
      manager := s.manager.broadcast ⟨.message sessionId "user" content now, .everyone⟩ }

/-- The send task takes an event from the channel and puts it on the socket, or ends when the
socket does not take it. -/
def deliver (id : String) (socket : Socket) (position : Nat) (confirm : Option WsEvent)
    (sent : Sent) (written : Bool) : GatewayState :=
  if written then
    { s with deliveries := ⟨id, sent, s.manager.roomSubscriptions⟩ :: s.deliveries }.setStage id
      socket (.running (position + 1) confirm)
  else s.setStage id socket .closing

/-- A connection whose tasks run, with its position in the channel and its confirmation. -/
def running (id : String) : Option (Socket × Nat × Option WsEvent) :=
  (s.sockets.lookup id).bind fun socket =>
    match socket.stage with
    | .running position confirm => some (socket, position, confirm)
    | _ => none

def sendTask (id : String) (written : Bool) : Option GatewayState :=
  (s.running id).bind fun (socket, position, confirm) =>
    match s.manager.eventTx.receive position with
    | .item sent => some (s.deliver id socket position confirm sent written)
    | _ => none

/-- A receiver that lags ends the send task. -/
def lag (id : String) : Option GatewayState :=
  (s.running id).bind fun (socket, position, _) =>
    match s.manager.eventTx.receive position with
    | .lagged => some (s.setStage id socket .closing)
    | _ => none

def recvTask (id : String) (command : WsCommand) (now : UInt64) : Option GatewayState :=
  (s.running id).bind fun (socket, position, confirm) =>
    match confirm with
    | none => some (s.handleCommand id socket position command now)
    | some _ => none

def confirm (id : String) : Option GatewayState :=
  (s.running id).bind fun (socket, position, confirm) =>
    confirm.map fun event =>
      { s with manager := s.manager.broadcast ⟨event, .reply id⟩ }.setStage id socket
        (.running position none)

/-- The client closes the connection, or it fails. -/
def close (id : String) : Option GatewayState :=
  (s.running id).bind fun (socket, _, confirm) =>
    match confirm with
    | none => some (s.setStage id socket .closing)
    | some _ => none

/-- A client connects; the id of the connection is a new UUID. -/
def accept (connection : Connection) : Option GatewayState :=
  if connection.id ∈ s.sockets then none
  else some { s with sockets := s.sockets.insert connection.id ⟨connection, .accepted⟩ }

/-- A step, or `none` if it cannot be taken. -/
def step : Label → Option GatewayState
  | .accept connection => s.accept connection
  | .proceed id => (s.sockets.lookup id).bind (s.proceed id)
  | .deliver id written => s.sendTask id written
  | .lag id => s.lag id
  | .command id command now => s.recvTask id command now
  | .confirm id => s.confirm id
  | .close id => s.close id
  | .broadcast event => some { s with manager := s.manager.broadcast ⟨event, .everyone⟩ }
  | .broadcastToRoom room event => some { s with manager := s.manager.broadcastToRoom room event }

end GatewayState

/-- Every order of steps of a gateway without connections. -/
def gateway : System GatewayState Label where
  Init s := s = .new
  Step s label t := s.step label = some t

end UHorse.Gateway
