import UHorse.Hub.Scheduler.Delivery

/-!
# How much a node is given

The scheduler asks the registry for online nodes, and a node is online until a
heartbeat counts as many tasks as it registered for. A heartbeat counts the
tasks the node has received and not finished. It knows nothing of assignments
in the node's channel, and an assignment changes nothing in the registry.

A `Fleet` is the scheduler with its calls, the registry, and of each node how
many assignments it has received and finished and which heartbeats are on their
way. The last three fields are ghosts: what a node registered for, what its last
report counted, and how many tasks had been sent to it before that.
-/

namespace UHorse.Hub.Scheduler

open UHorse.Lib UHorse.Protocol TaskScheduler

/-- A node's heartbeat. -/
structure Beat where
  status : NodeStatus
  load : LoadInfo

structure Fleet where
  hub : State
  registry : NodeManager
  received : NodeId → Nat
  finished : NodeId → Nat
  beats : NodeId → List Beat
  limit : NodeId → Nat
  counted : NodeId → Nat
  before : NodeId → Nat

/-! ## What is on a node -/

/-- The tasks of `running_tasks` that are assigned to a node. -/
def runningOn (scheduler : TaskScheduler) (nodeId : NodeId) : Nat :=
  (scheduler.runningTasks.keysWith fun running => running.nodeId = nodeId).card

/-- The assignment was sent and the task is about to be in `running_tasks`. -/
def Call.registersOn (nodeId : NodeId) : Call → Bool
  | .registering _ target => target = nodeId
  | _ => false

def Event.sentTo (nodeId : NodeId) : Event → Bool
  | .assigned _ target _ => target = nodeId
  | _ => false

/-- How many assignments were put into the node's channel. -/
def State.sent (s : State) (nodeId : NodeId) : Nat := s.log.countP (Event.sentTo nodeId)

/-- The tasks on a node as the Hub could know them. -/
def State.committed (s : State) (nodeId : NodeId) : Nat :=
  runningOn s.scheduler nodeId + s.calls.countP (Call.registersOn nodeId)

/-- The answer to the question a call asks the registry: which node the index named is
read before the node's entry. -/
inductive Answer (registry : NodeManager) (task : QueuedTask) : List NodeInfo → Prop
  | indexed (workspaceId : String) (nodeId : NodeId) :
      task.context.executionWorkspaceId = some workspaceId →
      Answer registry task (registry.getNode nodeId).toList
  | unknown (workspaceId : String) :
      task.context.executionWorkspaceId = some workspaceId → Answer registry task []
  | online (order : List (NodeId × NodeInfo)) :
      task.context.executionWorkspaceId = none → registry.nodes.Lists order →
      Answer registry task (NodeManager.getOnlineNodes order)

inductive FleetLabel
  | scheduler (label : Label)
  | register (nodeId : NodeId) (name : String) (capabilities : NodeCapabilities)
      (workspace : WorkspaceInfo) (tags : List String) (now : DateTime)
  | unregister (nodeId : NodeId)
  | checkTimeouts (order : List (NodeId × NodeInfo)) (now : DateTime)
  | receive (nodeId : NodeId)
  | finish (nodeId : NodeId)
  | beat (nodeId : NodeId) (beat : Beat)
  | heartbeat (nodeId : NodeId) (now : DateTime)

namespace Fleet

/-- Once a node has reported `count` tasks. -/
def reported (s : Fleet) (nodeId : NodeId) (count : Nat) : Fleet :=
  { s with
    counted := Function.update s.counted nodeId count
    before := Function.update s.before nodeId (s.hub.sent nodeId) }

/-- A section of the scheduler, a call of the registry, or a step of a node: it receives
the next assignment, finishes one, or sends a heartbeat that counts what it has. -/
inductive Step : Fleet → FleetLabel → Fleet → Prop
  | scheduler {s : Fleet} {label : Label} {hub : State} :
      Scheduler.Step s.hub label hub →
      (∀ index env senders queue queues task, label = .advance index env →
        s.hub.calls[index]? = some (.selecting senders queue queues task) →
        Answer s.registry task env.nodes) →
      Step s (.scheduler label) { s with hub }
  | register {s : Fleet} {nodeId : NodeId} {name : String} {capabilities : NodeCapabilities}
      {workspace : WorkspaceInfo} {tags : List String} {now : DateTime} {registry : NodeManager} :
      s.registry.registerNode nodeId name capabilities workspace tags now = .ok registry →
      Step s (.register nodeId name capabilities workspace tags now)
        { s.reported nodeId 0 with
          registry, limit := Function.update s.limit nodeId capabilities.maxConcurrentTasks }
  | unregister {s : Fleet} {nodeId : NodeId} {registry : NodeManager} :
      s.registry.unregisterNode nodeId = .ok registry →
      Step s (.unregister nodeId) { s with registry }
  | checkTimeouts {s : Fleet} {order : List (NodeId × NodeInfo)} {now : DateTime} :
      s.registry.nodes.Lists order →
      Step s (.checkTimeouts order now)
        { s with registry := (s.registry.checkTimeouts order now).1 }
  | receive {s : Fleet} {nodeId : NodeId} :
      s.received nodeId < s.hub.sent nodeId →
      Step s (.receive nodeId)
        { s with received := Function.update s.received nodeId (s.received nodeId + 1) }
  | finish {s : Fleet} {nodeId : NodeId} :
      s.finished nodeId < s.received nodeId →
      Step s (.finish nodeId)
        { s with finished := Function.update s.finished nodeId (s.finished nodeId + 1) }
  | beat {s : Fleet} {nodeId : NodeId} {beat : Beat} :
      beat.status.currentTasks = s.received nodeId - s.finished nodeId →
      Step s (.beat nodeId beat)
        { s with beats := Function.update s.beats nodeId (s.beats nodeId ++ [beat]) }
  | heartbeat {s : Fleet} {nodeId : NodeId} {beat : Beat} {rest : List Beat} {now : DateTime}
      {registry : NodeManager} :
      s.beats nodeId = beat :: rest →
      s.registry.updateHeartbeat nodeId beat.status beat.load now = .ok registry →
      Step s (.heartbeat nodeId now)
        { s.reported nodeId beat.status.currentTasks with
          registry, beats := Function.update s.beats nodeId rest }
  | unheard {s : Fleet} {nodeId : NodeId} {beat : Beat} {rest : List Beat} {now : DateTime}
      {error : HubError} :
      s.beats nodeId = beat :: rest →
      s.registry.updateHeartbeat nodeId beat.status beat.load now = .error error →
      Step s (.heartbeat nodeId now) { s with beats := Function.update s.beats nodeId rest }

/-- A fresh Hub and nodes that have received nothing. -/
def initial (maxNodes heartbeatTimeoutSecs maxRetries taskTimeoutSecs : Nat) : Fleet where
  hub := .initial maxRetries taskTimeoutSecs
  registry := .new maxNodes heartbeatTimeoutSecs
  received := fun _ => 0
  finished := fun _ => 0
  beats := fun _ => []
  limit := fun _ => 0
  counted := fun _ => 0
  before := fun _ => 0

def system (maxNodes heartbeatTimeoutSecs maxRetries taskTimeoutSecs : Nat) :
    System Fleet FleetLabel where
  Init s := s = initial maxNodes heartbeatTimeoutSecs maxRetries taskTimeoutSecs
  Step := Step

/-! ## Reports that can be relied on -/

/-- How many tasks were sent to a node since it last reported. -/
def since (s : Fleet) (nodeId : NodeId) : Nat := s.hub.sent nodeId - s.before nodeId

/-- No call is between its choice of the node and the assignment. -/
def Unchosen (s : Fleet) (nodeId : NodeId) : Prop :=
  ∀ senders queue queues task nodes, .placing senders queue queues task nodes ∈ s.hub.calls →
    ∀ info ∈ nodes, info.nodeId ≠ nodeId

/-- A report counts all that is on the node and comes when no call has chosen the node
already, and after the first task since a report, another is sent only if the report left
room for it. -/
def Informed (s : Fleet) : FleetLabel → Prop
  | .register nodeId _ capabilities _ _ _ =>
    s.hub.committed nodeId = 0 ∧ 0 < capabilities.maxConcurrentTasks ∧ s.Unchosen nodeId
  | .heartbeat nodeId _ => ∀ beat ∈ (s.beats nodeId).head?,
      s.hub.committed nodeId ≤ beat.status.currentTasks ∧ s.Unchosen nodeId
  | .scheduler (.advance index env) => env.delivered = true →
      ∀ senders queue queues task node nodes,
        s.hub.calls[index]? = some (.placing senders queue queues task (node :: nodes)) →
        0 < s.since node.nodeId →
        s.counted node.nodeId + s.since node.nodeId < s.limit node.nodeId
  | _ => True

end Fleet

/-! ## What a section adds -/

section Sections

variable {env : Env} {scheduler scheduler' : TaskScheduler} {call call' : Call}
  {events : List Event}

/-- A task comes to a node only by an assignment that is sent to it. -/
theorem Section.committed_le (ran : Section env scheduler call scheduler' call' events)
    (nodeId : NodeId) :
    runningOn scheduler' nodeId + (call'.registersOn nodeId).toNat ≤
      runningOn scheduler nodeId + (call.registersOn nodeId).toNat +
        events.countP (Event.sentTo nodeId) := by
  have erased : ∀ taskId, runningOn { scheduler with
      runningTasks := scheduler.runningTasks.erase taskId } nodeId ≤ runningOn scheduler nodeId :=
    fun taskId => HashMap.card_keysWith_erase_le _ _ taskId
  cases ran with
  | send senders queue queues task node nodes delivered =>
    by_cases same : node.nodeId = nodeId <;> simp [Call.registersOn, Event.sentTo, same]
  | register task target =>
    exact HashMap.card_keysWith_insert_le _ _ _ _
  | result target result found => exact (erased _).trans (Nat.le_add_right _ _)
  | cancelRunning found => exact (erased _).trans (Nat.le_add_right _ _)
  | firstTimeout found => exact (erased _).trans (Nat.le_add_right _ _)
  | nextTimeout found => exact (erased _).trans (Nat.le_add_right _ _)
  | store completed notice resume =>
    rw [runningOn, runningTasks_storeCompletedTask]
    exact Nat.le_add_right _ _
  | notify notice resume =>
    cases resume <;> exact Nat.le_add_right _ _
  | _ => exact Nat.le_add_right _ _

/-- An assignment goes to the first of the nodes a call has chosen. -/
theorem Section.sent (ran : Section env scheduler call scheduler' call' events) {nodeId : NodeId}
    (sent : 0 < events.countP (Event.sentTo nodeId)) :
    events.countP (Event.sentTo nodeId) = 1 ∧ env.delivered = true ∧
      ∃ senders queue queues task node nodes,
        call = .placing senders queue queues task (node :: nodes) ∧ node.nodeId = nodeId := by
  cases ran with
  | send senders queue queues task node nodes delivered =>
    have same : node.nodeId = nodeId := by
      by_contra other
      simp [Event.sentTo, other] at sent
    exact ⟨by simp [Event.sentTo, same], delivered, _, _, _, _, _, _, rfl, same⟩
  | store completed notice resume =>
    have none_sent : ∀ evicted : List TaskId,
        (evicted.map Event.evicted).countP (Event.sentTo nodeId) = 0 := fun evicted =>
      List.countP_eq_zero.mpr fun event member => by
        obtain ⟨taskId, -, rfl⟩ := List.mem_map.mp member
        exact Bool.false_ne_true
    rw [List.countP_cons, none_sent] at sent
    cases sent
  | _ => cases sent

/-- The nodes a call has chosen were online when the registry was asked, or were chosen
before. -/
theorem Section.chosen (ran : Section env scheduler call scheduler' call' events)
    {senders : Senders} {queue : Priority} {queues : List Priority} {task : QueuedTask}
    {nodes : List NodeInfo} (chosen : call' = .placing senders queue queues task nodes) :
    (call = .selecting senders queue queues task ∧
      ∀ info ∈ nodes, info ∈ env.nodes ∧ info.state = .online) ∨
    ∃ node, call = .placing senders queue queues task (node :: nodes) := by
  cases ran with
  | select =>
    cases chosen
    refine .inl ⟨rfl, fun info member => ?_⟩
    rw [candidates, List.mem_mergeSort, List.mem_filter] at member
    refine ⟨member.1, ?_⟩
    by_contra offline
    simp [suits, offline] at member
  | refused senders queue queues task node nodes undelivered =>
    cases chosen
    exact .inr ⟨node, rfl⟩
  | notify notice resume => cases resume <;> cases chosen
  | _ => cases chosen

end Sections

/-! ## No node is over-committed -/

namespace Fleet

section Invariant

variable {s : Fleet} {nodeId : NodeId}

/-- What is on a node was counted by its last report or sent since, and is no more than the
node registered for. A node that is online, or that some call has chosen, had room when it
last reported. -/
structure Fitting (s : Fleet) : Prop where
  known : ∀ nodeId, s.hub.committed nodeId + s.before nodeId ≤
    s.counted nodeId + s.hub.sent nodeId
  marked : ∀ nodeId, s.before nodeId ≤ s.hub.sent nodeId
  within : ∀ nodeId, s.hub.committed nodeId ≤ s.limit nodeId
  entry : ∀ nodeId info, s.registry.nodes.lookup nodeId = some info →
    info.nodeId = nodeId ∧ info.capabilities.maxConcurrentTasks = s.limit nodeId ∧
      (info.state = .online → s.counted nodeId < s.limit nodeId)
  chosen : ∀ senders queue queues task nodes,
    .placing senders queue queues task nodes ∈ s.hub.calls →
      ∀ info ∈ nodes, s.counted info.nodeId < s.limit info.nodeId

theorem Fitting.answer (fitting : Fitting s) {task : QueuedTask} {nodes : List NodeInfo}
    (answer : Answer s.registry task nodes) {info : NodeInfo} (member : info ∈ nodes)
    (online : info.state = .online) : s.counted info.nodeId < s.limit info.nodeId := by
  have entered : ∃ nodeId, s.registry.nodes.lookup nodeId = some info := by
    cases answer with
    | indexed workspaceId nodeId indexed => exact ⟨nodeId, Option.mem_toList.mp member⟩
    | unknown workspaceId indexed => exact absurd member List.not_mem_nil
    | online order unindexed listed =>
      obtain ⟨entry, listedEntry, rfl⟩ := List.mem_map.mp (List.mem_of_mem_filter member)
      exact ⟨entry.1, (listed.2 entry.1 entry.2).mp listedEntry⟩
  obtain ⟨nodeId, found⟩ := entered
  obtain ⟨rfl, -, room⟩ := fitting.entry nodeId info found
  exact room online

/-- The Hub changes in a way that explains what is on the nodes. -/
theorem Fitting.hub {hub : State} (fitting : Fitting s)
    (sent : ∀ nodeId, s.hub.sent nodeId ≤ hub.sent nodeId)
    (committed : ∀ nodeId, hub.committed nodeId + s.hub.sent nodeId ≤
      s.hub.committed nodeId + hub.sent nodeId)
    (within : ∀ nodeId, hub.committed nodeId ≤ s.limit nodeId)
    (chosen : ∀ senders queue queues task nodes,
      .placing senders queue queues task nodes ∈ hub.calls →
        ∀ info ∈ nodes, s.counted info.nodeId < s.limit info.nodeId) :
    Fitting { s with hub } where
  known nodeId := by
    have known := fitting.known nodeId
    have explained := committed nodeId
    change hub.committed nodeId + s.before nodeId ≤ s.counted nodeId + hub.sent nodeId
    omega
  marked nodeId := (fitting.marked nodeId).trans (sent nodeId)
  within := within
  entry := fitting.entry
  chosen := chosen

/-- A call begins. -/
theorem Fitting.begins (fitting : Fitting s) {hub : State} {call : Call}
    (calls : hub.calls = s.hub.calls ++ [call]) (opens : ∀ nodeId, call.registersOn nodeId = false)
    (unplaced : ∀ senders queue queues task nodes,
      call ≠ .placing senders queue queues task nodes)
    (running : ∀ nodeId, runningOn hub.scheduler nodeId = runningOn s.hub.scheduler nodeId)
    (sent : ∀ nodeId, hub.sent nodeId = s.hub.sent nodeId) : Fitting { s with hub } := by
  have committed : ∀ nodeId, hub.committed nodeId = s.hub.committed nodeId := fun nodeId => by
    rw [State.committed, calls, List.countP_append, List.countP_singleton, opens, running]
    rfl
  refine fitting.hub (fun nodeId => (sent nodeId).ge) (fun nodeId => ?_) (fun nodeId => ?_) ?_
  · rw [committed, sent]
  · rw [committed]
    exact fitting.within nodeId
  · intro senders queue queues task nodes member
    rw [calls] at member
    obtain old | new := List.mem_append.mp member
    · exact fitting.chosen _ _ _ _ _ old
    · exact (unplaced _ _ _ _ _ (List.mem_singleton.mp new).symm).elim

/-- A call runs a section. -/
theorem Fitting.runs (fitting : Fitting s) {index : Nat} {call call' : Call} {env : Env}
    {scheduler : TaskScheduler} {events : List Event}
    (informed : Informed s (.scheduler (.advance index env)))
    (here : s.hub.calls[index]? = some call)
    (ran : Section env s.hub.scheduler call scheduler call' events)
    (answers : ∀ senders queue queues task, call = .selecting senders queue queues task →
      Answer s.registry task env.nodes) :
    Fitting { s with hub := ⟨scheduler, s.hub.calls.set index call', s.hub.log ++ events⟩ } := by
  have sent : ∀ nodeId, State.sent ⟨scheduler, s.hub.calls.set index call', s.hub.log ++ events⟩
      nodeId = s.hub.sent nodeId + events.countP (Event.sentTo nodeId) :=
    fun nodeId => List.countP_append
  have committed : ∀ nodeId,
      State.committed ⟨scheduler, s.hub.calls.set index call', s.hub.log ++ events⟩ nodeId ≤
        s.hub.committed nodeId + events.countP (Event.sentTo nodeId) := fun nodeId => by
    have moved := countP_set_add (Call.registersOn nodeId) here call'
    have added := ran.committed_le nodeId
    rw [State.committed, State.committed]
    dsimp only
    omega
  refine fitting.hub (fun nodeId => ?_) (fun nodeId => ?_) (fun nodeId => ?_) ?_
  · rw [sent]
    exact Nat.le_add_right _ _
  · rw [sent]
    have bound := committed nodeId
    omega
  · have bound := committed nodeId
    have within := fitting.within nodeId
    obtain none_sent | some_sent := Nat.eq_zero_or_pos (events.countP (Event.sentTo nodeId))
    · omega
    · obtain ⟨one, delivered, senders, queue, queues, task, node, nodes, rfl, rfl⟩ :=
        ran.sent some_sent
      have known := fitting.known node.nodeId
      have room := fitting.chosen _ _ _ _ _ (List.mem_of_getElem? here) node List.mem_cons_self
      have again := informed delivered _ _ _ _ _ _ here
      simp only [since] at again
      omega
  · intro senders queue queues task nodes member info chosen
    obtain old | rfl := List.mem_or_eq_of_mem_set member
    · exact fitting.chosen _ _ _ _ _ old info chosen
    · obtain ⟨rfl, online⟩ | ⟨node, rfl⟩ := ran.chosen rfl
      · exact fitting.answer (answers _ _ _ _ rfl) (online info chosen).1 (online info chosen).2
      · exact fitting.chosen _ _ _ _ _ (List.mem_of_getElem? here) info
          (List.mem_cons_of_mem _ chosen)

theorem Fitting.scheduler {label : Label} {hub : State} (fitting : Fitting s)
    (informed : Informed s (.scheduler label)) (step : Scheduler.Step s.hub label hub)
    (answers : ∀ index env senders queue queues task, label = .advance index env →
      s.hub.calls[index]? = some (.selecting senders queue queues task) →
      Answer s.registry task env.nodes) : Fitting { s with hub } := by
  obtain ⟨submission, now, rfl, rfl⟩ | ⟨call, opening, rfl⟩ |
    ⟨index, call, env, scheduler, call', events, rfl, here, fits, ran, rfl⟩ := step.cases
  · refine fitting.begins rfl (fun _ => rfl) (fun _ _ _ _ _ => nofun) (fun _ => rfl)
      fun nodeId => ?_
    exact List.countP_append
  · refine fitting.begins rfl ?_ ?_ (fun _ => rfl) (fun _ => rfl) <;> cases opening <;> intros <;>
      first | rfl | exact nofun
  · exact fitting.runs informed here ran fun senders queue queues task selecting =>
      answers index env senders queue queues task rfl (selecting ▸ here)

/-- A node reports, and its entry says whether it has room. -/
theorem Fitting.reports (fitting : Fitting s) {registry : NodeManager} {info : NodeInfo}
    {count : Nat} {limit : NodeId → Nat} {beats : NodeId → List Beat}
    (entered : registry.nodes = s.registry.nodes.insert nodeId info)
    (named : info.nodeId = nodeId) (cap : info.capabilities.maxConcurrentTasks = limit nodeId)
    (room : info.state = .online → count < limit nodeId)
    (elsewhere : ∀ other, other ≠ nodeId → limit other = s.limit other)
    (counts : s.hub.committed nodeId ≤ count) (within : s.hub.committed nodeId ≤ limit nodeId)
    (unchosen : s.Unchosen nodeId) :
    Fitting { s.reported nodeId count with registry, limit, beats } where
  known other := by
    have known := fitting.known other
    by_cases same : other = nodeId
    · subst same
      simp [reported]
      omega
    · simpa [reported, same] using known
  marked other := by
    by_cases same : other = nodeId
    · subst same
      simp [reported]
    · simpa [reported, same] using fitting.marked other
  within other := by
    by_cases same : other = nodeId
    · subst same
      exact within
    · change s.hub.committed other ≤ limit other
      rw [elsewhere other same]
      exact fitting.within other
  entry other info' found := by
    simp only [entered, HashMap.lookup_insert_ite] at found
    split at found
    · next same =>
        cases found
        subst same
        refine ⟨named, cap, fun online => ?_⟩
        simpa [reported] using room online
    · next same =>
        obtain ⟨named', cap', room'⟩ := fitting.entry other info' found
        have unmoved := elsewhere other same
        refine ⟨named', cap'.trans unmoved.symm, fun online => ?_⟩
        have before := room' online
        simp only [reported, Function.update_of_ne same, unmoved]
        exact before
  chosen senders queue queues task nodes member chosenInfo chosen := by
    have other := unchosen _ _ _ _ _ member chosenInfo chosen
    have before := fitting.chosen _ _ _ _ _ member chosenInfo chosen
    simp only [reported, Function.update_of_ne other, elsewhere _ other]
    exact before

theorem registerNode_entry {registry registry' : NodeManager} {name : String}
    {capabilities : NodeCapabilities} {workspace : WorkspaceInfo} {tags : List String}
    {now : DateTime}
    (registered : registry.registerNode nodeId name capabilities workspace tags now =
      .ok registry') :
    ∃ info, registry'.nodes = registry.nodes.insert nodeId info ∧ info.nodeId = nodeId ∧
      info.capabilities = capabilities := by
  rw [NodeManager.registerNode] at registered
  split at registered
  · cases registered
  · cases registered
    exact ⟨_, rfl, rfl, rfl⟩

/-- A node that timed out is offline; the other entries stay. -/
theorem checkTimeouts_entry {registry : NodeManager} {order : List (NodeId × NodeInfo)}
    {now : DateTime} (listed : registry.nodes.Lists order) {info' : NodeInfo}
    (found : (registry.checkTimeouts order now).1.nodes.lookup nodeId = some info') :
    ∃ info, registry.nodes.lookup nodeId = some info ∧
      (info' = info ∨ info' = { info with state := .offline }) := by
  have replaced : ∀ (silent : List (NodeId × NodeInfo)) (nodes : HashMap NodeId NodeInfo),
      (∀ entry ∈ silent, registry.nodes.lookup entry.1 = some entry.2) →
      (silent.foldl (fun nodes entry => nodes.insert entry.1 { entry.2 with state := .offline })
        nodes).lookup nodeId = some info' →
      nodes.lookup nodeId = some info' ∨ ∃ info, registry.nodes.lookup nodeId = some info ∧
        info' = { info with state := .offline } := by
    intro silent
    induction silent with
    | nil =>
      intro nodes _ stays
      exact .inl stays
    | cons entry rest ih =>
      intro nodes known folded
      obtain inserted | offline := ih _ (fun other member =>
        known other (List.mem_cons_of_mem _ member)) folded
      · rw [HashMap.lookup_insert_ite] at inserted
        split at inserted
        · next same =>
            refine .inr ⟨entry.2, ?_, (Option.some.inj inserted).symm⟩
            rw [same]
            exact known entry List.mem_cons_self
        · exact .inl inserted
      · exact .inr offline
  obtain stays | ⟨info, known, rfl⟩ := replaced _ _ (fun entry member =>
    (listed.2 entry.1 entry.2).mp (List.mem_of_mem_filter member)) found
  · exact ⟨info', stays, .inl rfl⟩
  · exact ⟨info, known, .inr rfl⟩

theorem Fitting.step {t : Fleet} {label : FleetLabel} (fitting : Fitting s)
    (informed : Informed s label) (step : Step s label t) : Fitting t := by
  cases step with
  | scheduler moved answers => exact fitting.scheduler informed moved answers
  | @register nodeId name capabilities workspace tags now registry registered =>
    obtain ⟨info, entered, named, rfl⟩ := registerNode_entry registered
    obtain ⟨unused, positive, unchosen⟩ := informed
    refine fitting.reports entered named ?_ (fun _ => ?_)
      (fun other different => Function.update_of_ne different _ _) unused.le ?_ unchosen
    · rw [Function.update_self]
    · rwa [Function.update_self]
    · exact unused.le.trans (Nat.zero_le _)
  | unregister removed =>
    obtain ⟨-, -, left, -⟩ := NodeManager.unregisterNode_ok removed
    refine ⟨fitting.known, fitting.marked, fitting.within, fun other info found => ?_,
      fitting.chosen⟩
    rw [left, HashMap.lookup_erase_ite] at found
    split at found
    · cases found
    · exact fitting.entry other info found
  | checkTimeouts listed =>
    refine ⟨fitting.known, fitting.marked, fitting.within, fun other info' found => ?_,
      fitting.chosen⟩
    obtain ⟨info, known, rfl | rfl⟩ := checkTimeouts_entry listed found
    · exact fitting.entry other info' known
    · obtain ⟨named, cap, -⟩ := fitting.entry other info known
      exact ⟨named, cap, nofun⟩
  | receive | finish | beat =>
    exact ⟨fitting.known, fitting.marked, fitting.within, fitting.entry, fitting.chosen⟩
  | @heartbeat nodeId beat rest now registry queued heard =>
    obtain ⟨info, found, entered, -⟩ := NodeManager.updateHeartbeat_ok heard
    obtain ⟨named, cap, -⟩ := fitting.entry nodeId info found
    obtain ⟨counts, unchosen⟩ := informed beat (by rw [queued]; exact Option.mem_some_self _)
    refine fitting.reports entered named cap (fun online => ?_)
      (fun _ _ => rfl) counts (fitting.within nodeId) unchosen
    by_contra full
    change ¬ beat.status.currentTasks < s.limit nodeId at full
    rw [← cap, Nat.not_lt] at full
    simp [NodeManager.heartbeatInfo, full] at online
  | unheard =>
    exact ⟨fitting.known, fitting.marked, fitting.within, fitting.entry, fitting.chosen⟩

end Invariant

variable {maxNodes heartbeatTimeoutSecs maxRetries taskTimeoutSecs : Nat}

theorem Fitting.of_reachable {s : Fleet}
    (reached : ((system maxNodes heartbeatTimeoutSecs maxRetries taskTimeoutSecs).restrict
      Informed).Reachable s) : Fitting s := by
  refine reached.invariant ?_ fun s label t fitting ⟨informed, step⟩ => fitting.step informed step
  rintro s rfl
  exact ⟨fun _ => Nat.le_refl 0, fun _ => Nat.le_refl 0, fun _ => Nat.le_refl 0,
    fun nodeId info found => (nomatch found), fun _ _ _ _ _ member => (nomatch member)⟩

/-- As long as reports can be relied on, no node has more running tasks than it registered
for. -/
theorem running_le_limit {s : Fleet}
    (reached : ((system maxNodes heartbeatTimeoutSecs maxRetries taskTimeoutSecs).restrict
      Informed).Reachable s) (nodeId : NodeId) :
    runningOn s.hub.scheduler nodeId ≤ s.limit nodeId :=
  (Nat.le_add_right _ _).trans ((Fitting.of_reachable reached).within nodeId)

/-! ## A node for one task at a time -/

def smallCapabilities : NodeCapabilities :=
  { NodeCapabilities.default with maxConcurrentTasks := 1 }

def smallNode : NodeInfo :=
  { sampleNode with
    capabilities := smallCapabilities
    workspace := NodeManager.withWorkspaceId sampleNode.nodeId sampleNode.workspace }

def smallRegistry : NodeManager :=
  { NodeManager.new 10 30 with
    nodes := Finmap.insert sampleNode.nodeId smallNode ∅
    workspaceIndex := Finmap.insert "exec:node-1:workspace" sampleNode.nodeId ∅ }

/-- The node has registered. -/
def smallFleet : Fleet :=
  { (initial 10 30 3 300).reported sampleNode.nodeId 0 with
    registry := smallRegistry
    limit := Function.update (fun _ => 0) sampleNode.nodeId 1 }

theorem register_smallFleet : Step (initial 10 30 3 300)
    (.register sampleNode.nodeId "node" smallCapabilities sampleNode.workspace [] 0) smallFleet :=
  .register (rfl : _ = Except.ok smallRegistry)

def urgentSubmission : Submission := { sampleSubmission with priority := .critical }

def smallEnv : Env := { quietEnv [] with nodes := [smallNode] }

/-- The task may go to any node that is online. -/
def anywhere : Call → Bool
  | .selecting _ _ _ task => task.context.executionWorkspaceId = none
  | _ => true

/-- A step of the scheduler; the registry answers with the online ones of the nodes it lists. -/
def move (ids : List TaskId) (nodeIds : List NodeId) (s : Fleet) (label : Label) :
    Option (FleetLabel × Fleet) :=
  match label with
  | .advance index env =>
    let online := NodeManager.getOnlineNodes (s.registry.nodes.listing nodeIds)
    if nodeIds.Nodup ∧ (∀ nodeId ∈ s.registry.nodes.keys, nodeId ∈ nodeIds) ∧
        s.hub.calls[index]?.all anywhere = true then
      (s.hub.move ids (.advance index { env with nodes := online })).map fun step =>
        (.scheduler step.1, { s with hub := step.2 })
    else none
  | label => (s.hub.move ids label).map fun step => (.scheduler step.1, { s with hub := step.2 })

def player (ids : List TaskId) (nodeIds : List NodeId) : (system 10 30 3 300).Player Label where
  move := move ids nodeIds
  sound s label taken t moved := by
    cases label with
    | advance index env =>
      simp only [move] at moved
      split at moved
      · next met =>
          obtain ⟨distinct, covers, answered⟩ := met
          obtain ⟨⟨next, hub⟩, ran, same⟩ := Option.map_eq_some_iff.mp moved
          cases same
          refine .scheduler (State.step_of_move ran) ?_
          obtain ⟨call, here, -, -, rfl, -⟩ := State.move_advance ran
          rintro _ _ senders queue queues task ⟨⟩ selecting
          obtain rfl := Option.some_inj.mp (here.symm.trans selecting)
          rw [here] at answered
          exact .online _ (of_decide_eq_true answered) (HashMap.lists_listing distinct covers)
      · cases moved
    | _ =>
      simp only [move] at moved
      obtain ⟨⟨next, hub⟩, ran, same⟩ := Option.map_eq_some_iff.mp moved
      cases same
      refine .scheduler (State.step_of_move ran) ?_
      cases ran
      rintro _ _ _ _ _ _ ⟨⟩

/-- The first assignment after a report. -/
def admitsInformed (s : Fleet) : FleetLabel → Bool
  | .scheduler (.advance index _) =>
    match s.hub.calls[index]? with
    | some (.placing _ _ _ _ (node :: _)) => s.since node.nodeId = 0
    | _ => true
  | .scheduler _ => true
  | _ => false

theorem informed_of_admits {s : Fleet} {label : FleetLabel}
    (admitted : s.admitsInformed label = true) : s.Informed label := by
  cases label with
  | scheduler label =>
    cases label with
    | advance index env =>
      intro _ senders queue queues task node nodes here sent
      simp only [admitsInformed, here, decide_eq_true_eq] at admitted
      omega
    | _ => trivial
  | _ => cases admitted

/-- A critical task is submitted and sent to the node, by calls with these numbers. -/
def dispatching (submits schedules : Nat) : List Label :=
  [.submit urgentSubmission 0, .advance submits (quietEnv []), .schedule sampleSenders] ++
    List.replicate 4 (.advance schedules smallEnv)

theorem smallFleet_reachable : ((system 10 30 3 300).restrict Informed).Reachable smallFleet := by
  have start : ((system 10 30 3 300).restrict Informed).Reachable (initial 10 30 3 300) :=
    .init rfl
  have unused : Informed (initial 10 30 3 300)
      (.register sampleNode.nodeId "node" smallCapabilities sampleNode.workspace [] 0) := by
    refine ⟨rfl, by decide, fun _ _ _ _ _ member => ?_⟩
    cases member
  exact start.step ⟨unused, register_smallFleet⟩

theorem running_le_limit_smallNode : ∃ s : Fleet,
    runningOn s.hub.scheduler sampleNode.nodeId = 1 ∧
      runningOn s.hub.scheduler sampleNode.nodeId ≤ s.limit sampleNode.nodeId := by
  obtain ⟨s, reached, one⟩ := ((player [taskIdOf 0] [sampleNode.nodeId]).restrict
    admitsInformed fun _ _ => informed_of_admits).exists_reachable smallFleet_reachable
    (dispatching 0 1) (fun s => runningOn s.hub.scheduler sampleNode.nodeId = 1)
    (by decide +kernel)
  exact ⟨s, one, running_le_limit reached sampleNode.nodeId⟩

/-- Two tasks run on a node that registered for one: it has not sent a heartbeat yet. -/
theorem node_over_committed : ∃ s : Fleet, (system 10 30 3 300).Reachable s ∧
    s.limit sampleNode.nodeId = 1 ∧ runningOn s.hub.scheduler sampleNode.nodeId = 2 := by
  obtain ⟨s, reached, limit, two⟩ := (player [taskIdOf 0] [sampleNode.nodeId]).exists_reachable
    smallFleet_reachable.of_restrict (dispatching 0 1 ++ dispatching 2 3)
    (fun s => s.limit sampleNode.nodeId = 1 ∧ runningOn s.hub.scheduler sampleNode.nodeId = 2)
    (by decide +kernel)
  exact ⟨s, reached, limit, two⟩

end Fleet
end UHorse.Hub.Scheduler
