import UHorse.Hub.WebSocket
import UHorse.Hub.Scheduler.Drain
import UHorse.Lib.Channel

/-!
# The dispatch inside a registration

`handle_socket` creates the channel of a node, registers its sender and the node, and
only then starts the task that empties the channel. Registering dispatches the queued
tasks, so whatever the dispatch sends to the new node must fit into the channel: a send
beyond its capacity waits for a task that this very handler has yet to start.

The handler runs alone here. The channels of the other nodes are served, unless their
receivers are gone, in which case a send fails and the next candidate is tried.
-/

namespace UHorse.Hub.Scheduler

open UHorse.Lib UHorse.Protocol TaskScheduler

/-- The capacity of the channel to a node. -/
def channelCapacity : Nat := 100

abbrev NodeChannel := Channel HubToNode channelCapacity

/-- What the dispatch of a registration reads: the view of `schedule_next`, the node that
registers and the nodes whose receivers are gone. -/
structure Handshake where
  manager : NodeManager
  order : List (NodeId × NodeInfo)
  fs : Unix.FileSystem
  scoreLe : LoadInfo → LoadInfo → Bool
  senders : Senders
  own : NodeId
  closed : NodeId → Bool

/-- What one call of `schedule_next` draws: a message id and readings of the clock. -/
structure Tick where
  messageId : MessageId
  deadline : DateTime
  now : DateTime
  later : DateTime

/-- What became of the sends of one task. -/
inductive Placement
  | placed (node : NodeInfo) (channel : NodeChannel)
  | nowhere
  | stuck

namespace Handshake

variable (handshake : Handshake)

def nodesFor (task : QueuedTask) : List NodeInfo :=
  candidates handshake.fs handshake.scoreLe handshake.senders task
    (reachableNodes handshake.manager handshake.order task)

/-- Try the candidates in order until a send succeeds. -/
def place (message : HubToNode) (channel : NodeChannel) : List NodeInfo → Placement
  | [] => .nowhere
  | node :: nodes =>
    if node.nodeId = handshake.own then
      match channel.send message with
      | some channel => .placed node channel
      | none => .stuck
    else if handshake.closed node.nodeId then place message channel nodes
    else .placed node channel

/-- `schedule_next` over the queues; `none` when it waits for room in the own channel. -/
def scheduleFrom (tick : Tick) : List Priority → TaskScheduler → NodeChannel →
    Option (TaskScheduler × NodeChannel × Option ScheduledTask)
  | [], scheduler, channel => some (scheduler, channel, none)
  | queue :: queues, scheduler, channel =>
    match scheduler.popPending queue with
    | none => scheduleFrom tick queues scheduler channel
    | some (task, popped) =>
      match handshake.place (assignment task tick.messageId (popped.deadlineAt tick.deadline))
        channel (handshake.nodesFor task) with
      | .placed node channel =>
        some (popped.insertRunning task node.nodeId tick.now (popped.deadlineAt tick.later),
          channel, some ⟨task.taskId, node.nodeId, tick.later⟩)
      | .nowhere =>
        scheduleFrom tick queues
          (popped.requeue queue (bumpRetry handshake.senders task)) channel
      | .stuck => none

/-- Whether a node's channel takes a message or makes the sender wait. -/
def answers (node : NodeInfo) : Bool :=
  node.nodeId = handshake.own || !handshake.closed node.nodeId

/-- The node whose channel takes a task, if the sends to it come that far. -/
def chosen (task : QueuedTask) : Option NodeInfo :=
  (handshake.nodesFor task).find? handshake.answers

/-- The task goes to the node that registers. -/
def comesHere (task : QueuedTask) : Bool :=
  (handshake.chosen task).any fun node => node.nodeId = handshake.own

/-- How many tasks of a queue go to the node that registers. The queue is emptied up to its
first task that no node takes. -/
def arrivals (queue : List QueuedTask) : Nat :=
  (queue.takeWhile fun task => (handshake.chosen task).isSome).countP handshake.comesHere

/-- How many queued tasks go to the node that registers. -/
def incoming (scheduler : TaskScheduler) : Nat :=
  (schedulingOrder.map fun queue => handshake.arrivals (waiting scheduler queue)).sum

/-! ## One call of `schedule_next` -/

section Calls

variable {scheduler : TaskScheduler} {channel : NodeChannel} {queue : Priority}
  {task : QueuedTask} {message : HubToNode}

/-- How many messages of a placement end up in the own channel. -/
def share (node : NodeInfo) : Nat := if node.nodeId = handshake.own then 1 else 0

theorem place_spec (message : HubToNode) (channel : NodeChannel) (nodes : List NodeInfo) :
    (nodes.find? handshake.answers = none ∧
      handshake.place message channel nodes = .nowhere) ∨
    ∃ node, nodes.find? handshake.answers = some node ∧
      ((∃ sent, handshake.place message channel nodes = .placed node sent ∧
          sent.messages.length = channel.messages.length + handshake.share node) ∨
        (node.nodeId = handshake.own ∧ handshake.place message channel nodes = .stuck ∧
          channel.messages.length = channelCapacity)) := by
  induction nodes with
  | nil => exact .inl ⟨rfl, rfl⟩
  | cons node nodes ih =>
    by_cases own : node.nodeId = handshake.own
    · refine .inr ⟨node, ?_, ?_⟩
      · rw [List.find?_cons_of_pos (by simp [answers, own])]
      · rw [place, if_pos own]
        cases went : channel.send message with
        | some sent =>
          refine .inl ⟨sent, rfl, ?_⟩
          rw [Channel.messages_of_send went, share, if_pos own, List.length_append]
          rfl
        | none => exact .inr ⟨own, rfl, Channel.send_eq_none_iff.mp went⟩
    · by_cases closed : handshake.closed node.nodeId = true
      · rw [List.find?_cons_of_neg (by simp [answers, own, closed]), place, if_neg own,
          if_pos closed]
        exact ih
      · refine .inr ⟨node, ?_, .inl ⟨channel, ?_, ?_⟩⟩
        · rw [List.find?_cons_of_pos (by simp [answers, closed])]
        · rw [place, if_neg own, if_neg closed]
        · rw [share, if_neg own, Nat.add_zero]

/-- Nothing was placed and no front can be, one front was placed, or the front of a queue
waits for room in the own channel. -/
theorem scheduleFrom_spec (tick : Tick) (queues : List Priority) (scheduler : TaskScheduler)
    (channel : NodeChannel) :
    (∃ scheduler', handshake.scheduleFrom tick queues scheduler channel =
        some (scheduler', channel, none) ∧
      ∀ queue ∈ queues, ∀ task ∈ (waiting scheduler queue).head?,
        handshake.chosen task = none) ∨
    ∃ queue task rest node, waiting scheduler queue = task :: rest ∧
      handshake.chosen task = some node ∧
      ((∃ scheduler' sent placed, handshake.scheduleFrom tick queues scheduler channel =
          some (scheduler', sent, some placed) ∧
          waiting scheduler' = Function.update (waiting scheduler) queue rest ∧
          sent.messages.length = channel.messages.length + handshake.share node) ∨
        (node.nodeId = handshake.own ∧
          handshake.scheduleFrom tick queues scheduler channel = none ∧
          channel.messages.length = channelCapacity)) := by
  induction queues generalizing scheduler with
  | nil => exact .inl ⟨scheduler, rfl, by simp⟩
  | cons queue queues ih =>
    cases front : scheduler.pendingTasks queue with
    | nil =>
      have empty : waiting scheduler queue = [] := by simp [waiting, front]
      simp only [scheduleFrom, popPending, front]
      refine (ih scheduler).imp_left ?_
      rintro ⟨scheduler', nothing, blocked⟩
      exact ⟨scheduler', nothing, List.forall_mem_cons.mpr ⟨by simp [empty], blocked⟩⟩
    | cons task rest =>
      have first : waiting scheduler queue = unretried task :: rest.map unretried := by
        simp [waiting, front]
      simp only [scheduleFrom, popPending, front]
      generalize assignment task tick.messageId _ = message
      obtain ⟨unanswered, nowhere⟩ | ⟨node, answered, ⟨sent, placed, length⟩ |
          ⟨own, stuck, full⟩⟩ :=
        handshake.place_spec message channel (handshake.nodesFor task)
      · rw [nowhere]
        have later := ih ((scheduler.setQueue queue rest).requeue queue
          (bumpRetry handshake.senders task))
        rw [waiting_putBack front] at later
        refine later.imp_left ?_
        rintro ⟨scheduler', nothing, blocked⟩
        refine ⟨scheduler', nothing, List.forall_mem_cons.mpr ⟨?_, blocked⟩⟩
        intro other here
        rw [first, List.head?_cons, Option.mem_some_iff] at here
        subst here
        exact unanswered
      · rw [placed]
        refine .inr ⟨queue, _, _, node, first, answered, .inl ⟨_, _, _, rfl, ?_, length⟩⟩
        exact waiting_setQueue rest
      · rw [stuck]
        exact .inr ⟨queue, _, _, node, first, answered, .inr ⟨own, rfl, full⟩⟩

/-! ## The whole dispatch -/

/-- A node without sender is no candidate. -/
theorem chosen_of_silent (silent : handshake.senders.keys = ∅) (task : QueuedTask) :
    handshake.chosen task = none := by
  refine List.find?_eq_none.mpr fun node member _ => ?_
  rw [nodesFor, candidates, List.mem_mergeSort, List.mem_filter] at member
  have absent : node.nodeId ∉ handshake.senders := by
    rw [← Finmap.mem_keys, silent]
    exact Finset.notMem_empty _
  simp [suits, absent] at member

/-- A front that a node takes counts if the node is the own one. -/
theorem arrivals_of_front (rest : List QueuedTask) {node : NodeInfo}
    (taken : handshake.chosen task = some node) :
    handshake.arrivals (task :: rest) = handshake.arrivals rest + handshake.share node := by
  rw [arrivals, List.takeWhile_cons_of_pos (by rw [taken, Option.isSome_some]), List.countP_cons,
    comesHere, taken, Option.any_some, share, arrivals]
  by_cases own : node.nodeId = handshake.own <;> simp [own]

theorem incoming_of_front {scheduler scheduler' : TaskScheduler} {rest : List QueuedTask}
    {node : NodeInfo} (front : waiting scheduler queue = task :: rest)
    (taken : handshake.chosen task = some node)
    (after : waiting scheduler' = Function.update (waiting scheduler) queue rest) :
    handshake.incoming scheduler = handshake.incoming scheduler' + handshake.share node := by
  have counted := handshake.arrivals_of_front rest taken
  simp only [incoming, after, schedulingOrder, List.map_cons, List.map_nil, List.sum_cons,
    List.sum_nil]
  cases queue <;> simp only [Function.update_self, ne_eq, reduceCtorEq, not_false_eq_true,
    Function.update_of_ne, front, counted] <;> omega

/-- A waiting front is one of the incoming tasks. -/
theorem share_le_incoming {rest : List QueuedTask} {node : NodeInfo}
    (front : waiting scheduler queue = task :: rest)
    (taken : handshake.chosen task = some node) :
    handshake.share node ≤ handshake.incoming scheduler := by
  have part : handshake.arrivals (waiting scheduler queue) ≤ handshake.incoming scheduler := by
    simp only [incoming, schedulingOrder, List.map_cons, List.map_nil, List.sum_cons,
      List.sum_nil]
    cases queue <;> omega
  rw [front, handshake.arrivals_of_front rest taken] at part
  exact (Nat.le_add_left _ _).trans part

theorem incoming_of_blocked (scheduler : TaskScheduler)
    (blocked : ∀ queue ∈ schedulingOrder, ∀ task ∈ (waiting scheduler queue).head?,
      handshake.chosen task = none) : handshake.incoming scheduler = 0 := by
  refine List.sum_eq_zero fun count member => ?_
  obtain ⟨queue, known, rfl⟩ := List.mem_map.mp member
  cases front : waiting scheduler queue with
  | nil => rfl
  | cons task rest =>
    have missing := blocked queue known task (by rw [front]; rfl)
    rw [arrivals, List.takeWhile_cons_of_neg (by simp [missing])]
    rfl

theorem pendingCount_scheduleFrom {scheduler' : TaskScheduler} {tick : Tick}
    {sent : NodeChannel} {placed : ScheduledTask}
    (ran : handshake.scheduleFrom tick schedulingOrder scheduler channel =
      some (scheduler', sent, some placed)) :
    pendingCount scheduler' < pendingCount scheduler := by
  obtain ⟨_, nothing, -⟩ | ⟨queue, task, rest, _, front, -, ⟨_, _, _, something, after, -⟩ |
      ⟨-, stuck, -⟩⟩ := handshake.scheduleFrom_spec tick schedulingOrder scheduler channel
  · rw [ran] at nothing
    cases nothing
  · rw [ran] at something
    cases something
    simp only [pendingCount, after, schedulingOrder, List.map_cons, List.map_nil, List.sum_cons,
      List.sum_nil]
    cases queue <;> simp [Function.update_of_ne, front]
  · rw [ran] at stuck
    cases stuck

end Calls

/-- `dispatch_pending_tasks` while nobody empties the own channel. -/
def dispatchPendingTasks (clock : Nat → Tick) (round : Nat) (scheduler : TaskScheduler)
    (channel : NodeChannel) : Option (TaskScheduler × NodeChannel) :=
  if handshake.senders.keys = ∅ then some (scheduler, channel)
  else
    match ran : handshake.scheduleFrom (clock round) schedulingOrder scheduler channel with
    | some (scheduler', sent, some _) => dispatchPendingTasks clock (round + 1) scheduler' sent
    | some (scheduler', sent, none) => some (scheduler', sent)
    | none => none
termination_by pendingCount scheduler
decreasing_by exact handshake.pendingCount_scheduleFrom ran

/-- The channel receives exactly the incoming tasks, as long as they fit. -/
theorem dispatchPendingTasks_spec (clock : Nat → Tick) (round : Nat) (scheduler : TaskScheduler)
    (channel : NodeChannel) :
    (∃ scheduler' sent, handshake.dispatchPendingTasks clock round scheduler channel =
        some (scheduler', sent) ∧
      sent.messages.length = channel.messages.length + handshake.incoming scheduler) ∨
    (handshake.dispatchPendingTasks clock round scheduler channel = none ∧
      channelCapacity < channel.messages.length + handshake.incoming scheduler) := by
  fun_induction dispatchPendingTasks handshake clock round scheduler channel with
  | case1 round scheduler channel silent =>
    have blocked := handshake.incoming_of_blocked scheduler fun queue _ task _ =>
      handshake.chosen_of_silent silent task
    exact .inl ⟨scheduler, channel, rfl, by rw [blocked, Nat.add_zero]⟩
  | case2 round scheduler channel reachable scheduler' sent placed ran ih =>
    obtain ⟨_, nothing, -⟩ | ⟨queue, task, rest, node, front, taken,
        ⟨_, _, _, something, after, length⟩ | ⟨-, stuck, -⟩⟩ :=
      handshake.scheduleFrom_spec (clock round) schedulingOrder scheduler channel
    · rw [ran] at nothing
      cases nothing
    · rw [ran] at something
      cases something
      rw [handshake.incoming_of_front front taken after]
      rw [length] at ih
      have regroup : channel.messages.length +
          (handshake.incoming scheduler' + handshake.share node) =
        channel.messages.length + handshake.share node + handshake.incoming scheduler' := by
        omega
      rw [regroup]
      exact ih
    · rw [ran] at stuck
      cases stuck
  | case3 round scheduler channel reachable scheduler' sent ran =>
    obtain ⟨_, nothing, blocked⟩ | ⟨_, _, _, _, -, -, ⟨_, _, _, something, -, -⟩ |
        ⟨-, stuck, -⟩⟩ :=
      handshake.scheduleFrom_spec (clock round) schedulingOrder scheduler channel
    · rw [ran] at nothing
      cases nothing
      exact .inl ⟨scheduler', channel, rfl, by rw [handshake.incoming_of_blocked _ blocked]; rfl⟩
    · rw [ran] at something
      cases something
    · rw [ran] at stuck
      cases stuck
  | case4 round scheduler channel reachable ran =>
    obtain ⟨_, nothing, -⟩ | ⟨_, _, _, _, front, taken, ⟨_, _, _, something, -, -⟩ |
        ⟨own, -, full⟩⟩ :=
      handshake.scheduleFrom_spec (clock round) schedulingOrder scheduler channel
    · rw [ran] at nothing
      cases nothing
    · rw [ran] at something
      cases something
    · have waits := handshake.share_le_incoming front taken
      rw [share, if_pos own] at waits
      exact .inr ⟨rfl, by omega⟩

end Handshake

/-! ## Registrations -/

/-- What a registration finds around it: the order in which the registry iterates, the file
system, the comparison of load scores and the nodes whose receivers are gone. -/
structure Surroundings where
  order : List (NodeId × NodeInfo)
  fs : Unix.FileSystem
  scoreLe : LoadInfo → LoadInfo → Bool
  closed : NodeId → Bool

def Surroundings.handshake (around : Surroundings) (hub : HubState) (own : NodeId) :
    Handshake where
  manager := hub.nodeManager
  order := around.order
  fs := around.fs
  scoreLe := around.scoreLe
  senders := hub.nodeSenders
  own := own
  closed := around.closed

/-- How far `handle_socket` comes: it returns when the registry refuses the node, it starts
the task that empties the channel, or it waits for this task before it is started. -/
inductive Entry
  | refused (error : HubError) (hub : HubState)
  | serving (hub : HubState) (channel : NodeChannel)
  | stuck

/-- `handle_socket` from the creation of the channel to the start of the task that empties it.
The acknowledgement on the way is written to the socket directly. -/
def handleSocket (hub : HubState) (registration : Registration) (sender : Nat) (now : DateTime)
    (around : Surroundings) (clock : Nat → Tick) : Entry :=
  let registered := hub.registerNodeSender registration.nodeId sender
  match registered.handleNodeConnection registration now with
  | .error error => .refused error (registered.unregisterNodeSender registration.nodeId)
  | .ok connected =>
    match (around.handshake connected registration.nodeId).dispatchPendingTasks clock 0
      connected.taskScheduler .empty with
    | some (taskScheduler, channel) => .serving { connected with taskScheduler } channel
    | none => .stuck

section Registrations

variable (hub : HubState) (registration : Registration) (sender : Nat) (now : DateTime)
  (around : Surroundings) (clock : Nat → Tick)

/-- A node that is registered is served as soon as the tasks for it are in its channel. -/
theorem handleSocket_spec {connected : HubState}
    (accepted : (hub.registerNodeSender registration.nodeId sender).handleNodeConnection
      registration now = .ok connected) :
    (∃ served channel, handleSocket hub registration sender now around clock =
        .serving served channel ∧
      channel.messages.length = (around.handshake connected registration.nodeId).incoming
        connected.taskScheduler) ∨
    (handleSocket hub registration sender now around clock = .stuck ∧
      channelCapacity < (around.handshake connected registration.nodeId).incoming
        connected.taskScheduler) := by
  simp only [handleSocket, accepted]
  obtain ⟨scheduler', sent, ran, length⟩ | ⟨stuck, more⟩ :=
    (around.handshake connected registration.nodeId).dispatchPendingTasks_spec clock 0
      connected.taskScheduler .empty
  · rw [ran]
    rw [Channel.length_empty, Nat.zero_add] at length
    exact .inl ⟨_, sent, rfl, length⟩
  · rw [stuck]
    rw [Channel.length_empty, Nat.zero_add] at more
    exact .inr ⟨rfl, more⟩

/-- A registered node is served, exactly if at most as many queued tasks go to the node as its
channel holds. -/
theorem registration_served_iff :
    (∀ connected, (hub.registerNodeSender registration.nodeId sender).handleNodeConnection
        registration now = .ok connected →
      ∃ served channel, handleSocket hub registration sender now around clock =
        .serving served channel) ↔
    ∀ connected, (hub.registerNodeSender registration.nodeId sender).handleNodeConnection
        registration now = .ok connected →
      (around.handshake connected registration.nodeId).incoming connected.taskScheduler ≤
        channelCapacity := by
  refine forall_congr' fun connected => imp_congr_right fun accepted => ?_
  obtain ⟨_, channel, serving, length⟩ | ⟨stuck, more⟩ :=
    handleSocket_spec hub registration sender now around clock accepted
  · rw [← length]
    exact iff_of_true ⟨_, channel, serving⟩ channel.bounded
  · rw [stuck]
    exact iff_of_false (by simp) (Nat.not_le.mpr more)

end Registrations

def sampleRegistration : Registration where
  nodeId := ⟨"node-1"⟩
  name := "node"
  capabilities := .default
  workspace := ⟨none, "workspace", "/workspace", false, [], []⟩
  authToken := ""

/-- A Hub without nodes in which as many tasks wait as are given. -/
def waitingHub (count : Nat) : HubState :=
  { HubState.new 10 90 3 300 none with
    taskScheduler := (TaskScheduler.new 3 300).setQueue .normal
      ((List.range count).map sampleTask) }

/-- The registry holds the sample node as it registered. -/
def sampleSurroundings : Surroundings where
  order := [(⟨"node-1"⟩, { sampleNode with
    workspace := NodeManager.withWorkspaceId ⟨"node-1"⟩ sampleRegistration.workspace })]
  fs := sampleFileSystem
  scoreLe := fun _ _ => true
  closed := fun _ => false

/-- The Hub after the sample node has registered, before the dispatch. -/
def connectedHub (count : Nat) : HubState :=
  { (waitingHub count).registerNodeSender ⟨"node-1"⟩ 0 with
    nodeManager :=
      { NodeManager.new 10 90 with
        nodes := Finmap.insert ⟨"node-1"⟩ { sampleNode with
          workspace := NodeManager.withWorkspaceId ⟨"node-1"⟩ sampleRegistration.workspace } ∅
        workspaceIndex := Finmap.insert "exec:node-1:workspace" ⟨"node-1"⟩ ∅ } }

theorem waitingHub_connects (count : Nat) :
    ((waitingHub count).registerNodeSender sampleRegistration.nodeId 0).handleNodeConnection
      sampleRegistration 0 = .ok (connectedHub count) := rfl

theorem registration_served_full : ∃ served channel,
    handleSocket (waitingHub 100) sampleRegistration 0 0 sampleSurroundings
      (fun round => ⟨⟨Nat.repr round⟩, 0, 0, 0⟩) = .serving served channel := by
  refine (registration_served_iff (waitingHub 100) sampleRegistration 0 0 sampleSurroundings
    (fun round => ⟨⟨Nat.repr round⟩, 0, 0, 0⟩)).mpr ?_ (connectedHub 100)
      (waitingHub_connects 100)
  intro connected accepted
  rw [waitingHub_connects] at accepted
  cases accepted
  decide +kernel

/-- With 101 queued tasks for it, a node waits for its own channel. -/
theorem registration_stuck : ∃ connected,
    ((waitingHub 101).registerNodeSender sampleRegistration.nodeId 0).handleNodeConnection
      sampleRegistration 0 = .ok connected ∧
    connected.nodeManager.nodes.Lists sampleSurroundings.order ∧
    handleSocket (waitingHub 101) sampleRegistration 0 0 sampleSurroundings
      (fun round => ⟨⟨Nat.repr round⟩, 0, 0, 0⟩) = .stuck := by
  refine ⟨_, waitingHub_connects 101, lists_singleton _ _, ?_⟩
  obtain ⟨_, channel, -, length⟩ | ⟨stuck, -⟩ :=
    handleSocket_spec (waitingHub 101) sampleRegistration 0 0 sampleSurroundings
      (fun round => ⟨⟨Nat.repr round⟩, 0, 0, 0⟩) (waitingHub_connects 101)
  · have waits : (sampleSurroundings.handshake (connectedHub 101) ⟨"node-1"⟩).incoming
        (connectedHub 101).taskScheduler = 101 := by
      decide +kernel
    exact absurd (length.trans waits ▸ channel.bounded) (by decide)
  · exact stuck

end UHorse.Hub.Scheduler
