import UHorse.Gateway.WebSocket

/-!
# Isolation of rooms and replies

Every connection is sent everything that goes through the channel. So rooms and replies are
isolated just as long as every send task only takes events that are meant for its connection. The
lists of subscribers are right in every case: a connection that was removed is in none of them.
-/

namespace UHorse.Gateway

open UHorse.Lib

/-! ## Whom an event is meant for -/

def Purpose.Admits (subscriptions : Room → List String) (connectionId : String) : Purpose → Prop
  | .everyone => True
  | .room target => connectionId ∈ subscriptions target
  | .reply recipient => connectionId = recipient

instance (subscriptions : Room → List String) (connectionId : String) :
    (purpose : Purpose) → Decidable (purpose.Admits subscriptions connectionId)
  | .everyone => .isTrue trivial
  | .room target => inferInstanceAs (Decidable (connectionId ∈ subscriptions target))
  | .reply recipient => inferInstanceAs (Decidable (connectionId = recipient))

abbrev Sent.MeantFor (sent : Sent) (subscriptions : Room → List String) (connectionId : String) :
    Prop := sent.purpose.Admits subscriptions connectionId

/-- What was put on sockets was meant for their connections, at that moment. -/
def Isolated (s : GatewayState) : Prop :=
  ∀ delivery ∈ s.deliveries, delivery.sent.MeantFor delivery.subscriptions delivery.connectionId

variable {s t : GatewayState} {label : Label} {id : String} {socket : Socket}

theorem running_eq_some {position : Nat} {confirm : Option WsEvent} :
    s.running id = some (socket, position, confirm) ↔
      s.sockets.lookup id = some socket ∧ socket.stage = .running position confirm := by
  rw [GatewayState.running]
  rw [Option.bind_eq_some_iff]
  constructor
  · rintro ⟨found, here, running⟩
    split at running
    · next stage =>
        cases running
        exact ⟨here, stage⟩
    · cases running
  · rintro ⟨here, stage⟩
    exact ⟨socket, here, by simp only [stage]⟩

theorem sendTask_eq_some {written : Bool} : s.sendTask id written = some t ↔
    ∃ socket position confirm sent, s.running id = some (socket, position, confirm) ∧
      s.manager.eventTx.receive position = .item sent ∧
      s.deliver id socket position confirm sent written = t := by
  rw [GatewayState.sendTask]
  rw [Option.bind_eq_some_iff]
  constructor
  · rintro ⟨⟨socket, position, confirm⟩, running, sends⟩
    dsimp only at sends
    split at sends
    · next sent received =>
        exact ⟨socket, position, confirm, sent, running, received, Option.some.inj sends⟩
    · cases sends
  · rintro ⟨socket, position, confirm, sent, running, received, rfl⟩
    exact ⟨_, running, by simp only [received]⟩

theorem lag_eq_some (lags : s.lag id = some t) : ∃ socket position confirm,
    s.running id = some (socket, position, confirm) ∧ t = s.setStage id socket .closing := by
  obtain ⟨⟨socket, position, confirm⟩, running, ends⟩ := Option.bind_eq_some_iff.mp lags
  dsimp only at ends
  split at ends <;> cases ends
  exact ⟨socket, position, confirm, running, rfl⟩

theorem recvTask_eq_some {command : WsCommand} {now : UInt64}
    (handles : s.recvTask id command now = some t) : ∃ socket position,
    s.running id = some (socket, position, none) ∧
      t = s.handleCommand id socket position command now := by
  obtain ⟨⟨socket, position, confirm⟩, running, handled⟩ := Option.bind_eq_some_iff.mp handles
  cases confirm with
  | none => exact ⟨socket, position, running, (Option.some.inj handled).symm⟩
  | some event => cases handled

theorem confirm_eq_some (confirms : s.confirm id = some t) : ∃ socket position event,
    s.running id = some (socket, position, some event) ∧
      t = { s with manager := s.manager.broadcast ⟨event, .reply id⟩ }.setStage id socket
        (.running position none) := by
  obtain ⟨⟨socket, position, confirm⟩, running, sends⟩ := Option.bind_eq_some_iff.mp confirms
  obtain ⟨event, rfl, rfl⟩ := Option.map_eq_some_iff.mp sends
  exact ⟨socket, position, event, running, rfl⟩

theorem close_eq_some (closes : s.close id = some t) : ∃ socket position confirm,
    s.running id = some (socket, position, confirm) ∧ t = s.setStage id socket .closing := by
  obtain ⟨⟨socket, position, confirm⟩, running, ends⟩ := Option.bind_eq_some_iff.mp closes
  cases confirm with
  | none => exact ⟨socket, position, none, running, (Option.some.inj ends).symm⟩
  | some event => cases ends

theorem accept_eq_some {connection : Connection} (accepts : s.accept connection = some t) :
    connection.id ∉ s.sockets ∧
      t = { s with sockets := s.sockets.insert connection.id ⟨connection, .accepted⟩ } := by
  rw [GatewayState.accept] at accepts
  split at accepts
  · cases accepts
  · next new => exact ⟨new, (Option.some.inj accepts).symm⟩

/-- The connection is in the map of the connections. -/
def Stage.Listed : Stage → Prop
  | .added | .agentJoined | .sessionJoined | .running _ _ | .closing => True
  | .accepted | .leaving | .closed => False

/-- The connection may be subscribed to rooms. -/
def Stage.Subscribes : Stage → Prop
  | .accepted | .closed => False
  | _ => True

/-- The maps hold the connections that are not removed, and the subscribers are among them. -/
structure Tidy (s : GatewayState) : Prop where
  keyed : ∀ id socket, s.sockets.lookup id = some socket → socket.connection.id = id
  listed : ∀ id socket, s.sockets.lookup id = some socket → socket.stage.Listed →
    id ∈ s.manager.connections
  subscribed : ∀ room id, id ∈ s.manager.roomSubscriptions room →
    ∃ socket, s.sockets.lookup id = some socket ∧ socket.stage.Subscribes

namespace Tidy

theorem new : Tidy .new := by
  refine ⟨?_, ?_, nofun⟩
  · intro id socket found
    cases (Finmap.lookup_empty id).symm.trans found
  · intro id socket found
    cases (Finmap.lookup_empty id).symm.trans found

/-- No socket changes, and no connection is subscribed. -/
theorem frame (tidy : Tidy s) (sockets : t.sockets = s.sockets)
    (connections : t.manager.connections = s.manager.connections)
    (fewer : ∀ room id, id ∈ t.manager.roomSubscriptions room →
      id ∈ s.manager.roomSubscriptions room) : Tidy t := by
  refine ⟨?_, ?_, ?_⟩
  · rw [sockets]
    exact tidy.keyed
  · rw [sockets, connections]
    exact tidy.listed
  · rw [sockets]
    exact fun room id member => tidy.subscribed room id (fewer room id member)

/-- One connection moves to another stage. -/
theorem move (tidy : Tidy s) (found : s.sockets.lookup id = some socket) {stage : Stage}
    (sockets : t.sockets = s.sockets.insert id { socket with stage })
    (connections : ∀ other ≠ id, other ∈ s.manager.connections → other ∈ t.manager.connections)
    (listed : stage.Listed → id ∈ t.manager.connections)
    (subscribed : ∀ room other, other ∈ t.manager.roomSubscriptions room →
      other ∈ s.manager.roomSubscriptions room ∧ other ≠ id ∨ other = id ∧ stage.Subscribes) :
    Tidy t := by
  refine ⟨?_, ?_, ?_⟩
  · intro other moved here
    rw [sockets, HashMap.lookup_insert_ite] at here
    split at here
    · next same =>
        cases here
        rw [same]
        exact tidy.keyed id socket found
    · exact tidy.keyed other moved here
  · intro other moved here isListed
    rw [sockets, HashMap.lookup_insert_ite] at here
    split at here
    · next same =>
        cases here
        rw [same]
        exact listed isListed
    · next distinct => exact connections other distinct (tidy.listed other moved here isListed)
  · intro room other member
    rw [sockets]
    obtain ⟨old, distinct⟩ | ⟨rfl, subscribes⟩ := subscribed room other member
    · obtain ⟨socket', here, subscribes⟩ := tidy.subscribed room other old
      refine ⟨socket', ?_, subscribes⟩
      rw [HashMap.lookup_insert_ite, if_neg distinct]
      exact here
    · exact ⟨_, Finmap.lookup_insert _, subscribes⟩

/-- A listed connection moves to another such stage, and only it may be subscribed. -/
theorem join (tidy : Tidy s) (found : s.sockets.lookup id = some socket) {stage : Stage}
    (sockets : t.sockets = s.sockets.insert id { socket with stage })
    (listed : socket.stage.Listed) (subscribes : stage.Subscribes)
    (connections : t.manager.connections = s.manager.connections)
    (joined : ∀ room other, other ∈ t.manager.roomSubscriptions room →
      other ∈ s.manager.roomSubscriptions room ∨ other = id) : Tidy t := by
  refine tidy.move found sockets ?_ ?_ ?_
  · intro other _ member
    rwa [connections]
  · intro _
    rw [connections]
    exact tidy.listed id socket found listed
  · intro room other member
    by_cases same : other = id
    · exact .inr ⟨same, subscribes⟩
    · exact .inl ⟨(joined room other member).resolve_right same, same⟩

end Tidy

theorem connections_subscribe? (manager : ConnectionManager) (room : Option Room) :
    (manager.subscribe? id room).connections = manager.connections := by
  cases room <;> rfl

theorem mem_subscribeRoom {manager : ConnectionManager} {room other : Room} {name : String}
    (member : name ∈ (manager.subscribeRoom id room).roomSubscriptions other) :
    name ∈ manager.roomSubscriptions other ∨ name = id := by
  have member : name ∈ if other = room then manager.roomSubscriptions room ++ [id]
    else manager.roomSubscriptions other := member
  split at member
  · next same =>
      rw [same]
      simpa using member
  · exact .inl member

theorem mem_subscribe? {manager : ConnectionManager} {room : Option Room} {other : Room}
    {name : String} (member : name ∈ (manager.subscribe? id room).roomSubscriptions other) :
    name ∈ manager.roomSubscriptions other ∨ name = id := by
  cases room with
  | none => exact .inl member
  | some room => exact mem_subscribeRoom member

namespace Tidy

theorem proceed (tidy : Tidy s) (found : s.sockets.lookup id = some socket)
    (step : s.proceed id socket = some t) : Tidy t := by
  rw [GatewayState.proceed] at step
  split at step
  case h_1 stage =>
    split at step <;> cases step
    refine tidy.move found rfl ?_ ?_ ?_
    · exact fun other _ member => Finmap.mem_insert.mpr (.inr member)
    · exact fun _ => Finmap.mem_insert.mpr (.inl (tidy.keyed id socket found).symm)
    · intro room other member
      refine .inl ⟨member, ?_⟩
      rintro rfl
      obtain ⟨socket', here, subscribes⟩ := tidy.subscribed room other member
      cases here.symm.trans found
      rw [stage] at subscribes
      exact subscribes
  case h_2 stage =>
    cases step
    refine tidy.join found rfl (by rw [stage]; trivial) trivial (connections_subscribe? _ _) ?_
    exact fun room other member => mem_subscribe? member
  case h_3 stage =>
    cases step
    refine tidy.join found rfl (by rw [stage]; trivial) trivial (connections_subscribe? _ _) ?_
    exact fun room other member => mem_subscribe? member
  case h_4 stage =>
    cases step
    exact tidy.join found rfl (by rw [stage]; trivial) trivial rfl fun _ _ => .inl
  case h_5 => cases step
  case h_6 stage =>
    have listed : id ∈ s.manager.connections := by
      refine tidy.listed id socket found ?_
      rw [stage]
      trivial
    rw [if_pos listed] at step
    split at step <;> cases step
    refine tidy.move found rfl ?_ nofun ?_
    · intro other distinct member
      exact Finmap.mem_erase.mpr ⟨distinct, member⟩
    · intro room other member
      by_cases same : other = id
      · exact .inr ⟨same, trivial⟩
      · exact .inl ⟨member, same⟩
  case h_7 stage =>
    cases step
    refine tidy.move found rfl (fun _ _ member => member) nofun ?_
    intro room other member
    obtain ⟨old, distinct⟩ := List.mem_filter.mp member
    exact .inl ⟨old, of_decide_eq_true distinct⟩
  case h_8 => cases step

theorem handleCommand (tidy : Tidy s) {position : Nat} (command : WsCommand) (now : UInt64)
    (running : s.running id = some (socket, position, none)) :
    Tidy (s.handleCommand id socket position command now) := by
  obtain ⟨found, stage⟩ := running_eq_some.mp running
  unfold GatewayState.handleCommand
  split
  · exact tidy.frame rfl rfl fun _ _ member => member
  · split
    · exact tidy
    · refine tidy.join found rfl (by rw [stage]; trivial) trivial rfl ?_
      exact fun room other member => mem_subscribeRoom member
  · split
    · exact tidy
    · next room _ =>
        refine tidy.frame rfl rfl ?_
        intro other name member
        have member : name ∈ if other = room then
            (s.manager.roomSubscriptions room).filter (· ≠ id)
          else s.manager.roomSubscriptions other := member
        split at member
        · next same => exact same ▸ List.mem_of_mem_filter member
        · exact member
  · exact tidy.frame rfl rfl fun _ _ member => member

theorem step (tidy : Tidy s) (step : s.step label = some t) : Tidy t := by
  cases label with
  | accept connection =>
    obtain ⟨new, rfl⟩ := accept_eq_some step
    have other : ∀ {id socket}, s.sockets.lookup id = some socket → id ≠ connection.id := by
      rintro id socket found rfl
      exact new (HashMap.mem_of_lookup found)
    refine ⟨?_, ?_, ?_⟩
    · intro id socket here
      rw [HashMap.lookup_insert_ite] at here
      split at here
      · next same =>
          cases here
          exact same.symm
      · exact tidy.keyed id socket here
    · intro id socket here listed
      rw [HashMap.lookup_insert_ite] at here
      split at here
      · cases here
        cases listed
      · exact tidy.listed id socket here listed
    · intro room id member
      obtain ⟨socket, found, subscribes⟩ := tidy.subscribed room id member
      refine ⟨socket, ?_, subscribes⟩
      rw [HashMap.lookup_insert_ite, if_neg (other found)]
      exact found
  | proceed id =>
    obtain ⟨socket, found, moved⟩ := Option.bind_eq_some_iff.mp step
    exact tidy.proceed found moved
  | deliver id written =>
    obtain ⟨socket, position, confirm, sent, running, -, rfl⟩ := sendTask_eq_some.mp step
    obtain ⟨found, stage⟩ := running_eq_some.mp running
    cases written with
    | false => exact tidy.join found rfl (by rw [stage]; trivial) trivial rfl fun _ _ => .inl
    | true => exact tidy.join found rfl (by rw [stage]; trivial) trivial rfl fun _ _ => .inl
  | lag id =>
    obtain ⟨socket, position, confirm, running, rfl⟩ := lag_eq_some step
    obtain ⟨found, stage⟩ := running_eq_some.mp running
    exact tidy.join found rfl (by rw [stage]; trivial) trivial rfl fun _ _ => .inl
  | command id command now =>
    obtain ⟨socket, position, running, rfl⟩ := recvTask_eq_some step
    exact tidy.handleCommand command now running
  | confirm id =>
    obtain ⟨socket, position, event, running, rfl⟩ := confirm_eq_some step
    obtain ⟨found, stage⟩ := running_eq_some.mp running
    exact tidy.join found rfl (by rw [stage]; trivial) trivial rfl fun _ _ => .inl
  | close id =>
    obtain ⟨socket, position, confirm, running, rfl⟩ := close_eq_some step
    obtain ⟨found, stage⟩ := running_eq_some.mp running
    exact tidy.join found rfl (by rw [stage]; trivial) trivial rfl fun _ _ => .inl
  | broadcast | broadcastToRoom =>
    cases step
    exact tidy.frame rfl rfl fun _ _ member => member

theorem of_reachable (reached : gateway.Reachable s) : Tidy s := by
  refine reached.invariant ?_ ?_
  · rintro s rfl
    exact new
  · exact fun s label t tidy taken => tidy.step taken

end Tidy

/-- Take the steps one after the other, as long as they meet a check. -/
def GatewayState.run (check : GatewayState → Label → Bool) :
    GatewayState → List Label → Option GatewayState
  | s, [] => some s
  | s, label :: rest => if check s label then (s.step label).bind (run check · rest) else none

def sampleConnection (id : String) (agentId : Option String) : Connection :=
  ⟨id, "client", none, agentId, 0⟩

/-- A connection is set up. -/
def opening (id : String) (agentId : Option String) : List Label :=
  [.accept (sampleConnection id agentId), .proceed id, .proceed id, .proceed id, .proceed id]

def sampleEvent : WsEvent := .agentStatus "agent-1" "busy" none

/-- What was put on which socket. -/
def writes (s : GatewayState) : List (String × Sent) :=
  s.deliveries.map fun delivery => (delivery.connectionId, delivery.sent)

end UHorse.Gateway
