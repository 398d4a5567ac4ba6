import UHorse.Node.Runtime

/-!
# Cancelled and answered tasks of a node

A cancellation clears a task from `runningTasks` and leaves its approval request
pending; an approval that comes too late clears the request and leaves the task.
`cancelled_not_executed_iff` says after which cancellations a task can still be
executed, and `every_assignment_answered` under which messages every assignment
is answered by exactly one result.
-/

namespace UHorse.Node

open UHorse.Lib UHorse.Protocol

namespace NodeState

/-! ## Cancelled tasks -/

section Cancellation

variable {s u : NodeState} {delivery : Delivery} {t : TaskId}

theorem deliver_effect (s : NodeState) (delivery : Delivery) :
    ∃ events, (s.deliver delivery).events = s.events ++ events ∧
      Effect s.runtime delivery.env delivery.message (s.deliver delivery).runtime events :=
  ⟨_, rfl, s.runtime.handleHubMessage_effect delivery.env delivery.message⟩

theorem executions_append (s : NodeState) {events more : List NodeEvent}
    (grown : s.events = events ++ more) (t : TaskId) :
    s.executions t = (events.filterMap NodeEvent.executedId).count t +
      (more.filterMap NodeEvent.executedId).count t := by
  unfold executions
  rw [grown, List.filterMap_append, List.count_append]

/-- A message that does not assign the task makes it wait only if it waited before. -/
theorem Waiting.of_deliver (unassigned : HubToNode.assignedId delivery.message ≠ some t)
    (waiting : (s.deliver delivery).Waiting t) : s.Waiting t := by
  obtain ⟨events, -, effect⟩ := s.deliver_effect delivery
  obtain ⟨id, request, found, asks⟩ := waiting
  generalize (s.deliver delivery).runtime = after at effect found
  generalize delivery.message = message at effect unassigned
  have erased : ∀ requestId, after.permissionManager.pendingApprovals =
      s.runtime.permissionManager.pendingApprovals.erase requestId → s.Waiting t := by
    intro requestId pending
    rw [pending, HashMap.lookup_erase_ite] at found
    split at found
    · cases found
    · exact ⟨id, request, found, asks⟩
  cases effect with
  | quiet _ pending _ => exact ⟨id, request, pending ▸ found, asks⟩
  | settled _ pending _ _ => exact ⟨id, request, pending ▸ found, asks⟩
  | cancelled pending _ => exact ⟨id, request, pending ▸ found, asks⟩
  | expired _ _ pending _ => exact erased _ pending
  | resolved _ pending _ _ => exact erased _ pending
  | @asked _ taskId _ _ _ _ _ _ _ _ request' asks' pending _ _ =>
    rw [pending, HashMap.lookup_insert_ite] at found
    split at found
    · cases found
      obtain rfl : taskId = t := by
        cases taskId
        cases t
        exact congrArg TaskId.mk (asks'.symm.trans asks)
      exact absurd rfl unassigned
    · exact ⟨id, request, found, asks⟩

/-- Only an assignment of a task or an answer to its approval request executes it. -/
theorem executions_deliver (unassigned : HubToNode.assignedId delivery.message ≠ some t)
    (idle : ¬ s.Waiting t) : (s.deliver delivery).executions t = s.executions t := by
  obtain ⟨events, grown, effect⟩ := s.deliver_effect delivery
  rw [executions_append _ grown]
  suffices none : (events.filterMap NodeEvent.executedId).count t = 0 by
    rw [none]
    rfl
  generalize (s.deliver delivery).runtime = after at effect
  generalize delivery.message = message at effect unassigned
  cases effect with
  | quiet => rfl
  | cancelled => rfl
  | expired => rfl
  | asked _ _ _ silent => simp [silent.2]
  | @settled _ taskId _ _ _ _ _ _ _ _ _ _ _ settles =>
    refine settles.executed t ?_
    rintro rfl
    exact unassigned rfl
  | resolved found _ _ settles =>
    refine settles.executed t ?_
    rintro rfl
    exact idle ⟨_, _, found, rfl⟩

theorem executions_exec {labels : List Delivery} (run : system.Exec s labels u)
    (unassigned : ∀ delivery ∈ labels, HubToNode.assignedId delivery.message ≠ some t)
    (idle : ¬ s.Waiting t) : ¬ u.Waiting t ∧ u.executions t = s.executions t := by
  induction run with
  | refl => exact ⟨idle, rfl⟩
  | @snoc middle _ labels delivery _ step ih =>
    obtain ⟨still, same⟩ := ih fun delivery member => unassigned delivery (by simp [member])
    have other := unassigned delivery (by simp)
    obtain rfl : _ = middle.deliver delivery := step
    refine ⟨?_, (executions_deliver other still).trans same⟩
    intro waiting
    exact still (Waiting.of_deliver other waiting)

/-- After a cancellation of `t`, whatever arrives except a new assignment of `t`,
its command is never executed. -/
def StaysCancelled (s : NodeState) (t : TaskId) : Prop :=
  ∀ labels u, system.Exec s labels u →
    (∀ delivery ∈ labels, HubToNode.assignedId delivery.message ≠ some t) →
    u.executions t = s.executions t

theorem waiting_cancel_iff (env : NodeEnv) (id : MessageId) (reason : String) :
    (s.deliver ⟨env, .taskCancellation id t reason⟩).Waiting t ↔ s.Waiting t := Iff.rfl

/-- An approval in time executes the task of its request. -/
theorem executions_approve (s : NodeState) (env : NodeEnv) {requestId : String}
    {request : ApprovalRequest}
    (found : s.runtime.permissionManager.pendingApprovals.lookup requestId = some request)
    (timely : env.now ≤ request.expiresAt) (id : MessageId) (responder : String)
    (reason : Option String) (respondedAt : DateTime) :
    s.executions ⟨request.taskId⟩ < (s.deliver
      ⟨env, .approvalResponse id requestId true responder reason respondedAt⟩).executions
        ⟨request.taskId⟩ := by
  have outcome : ∃ result, (s.deliver
      ⟨env, .approvalResponse id requestId true responder reason respondedAt⟩).events =
      s.events ++ (.executed ⟨request.taskId⟩ request.command :: (NodeRuntime.sendTaskResult env
        ⟨request.taskId⟩ result env.durationMs).1) := by
    have inTime : ¬ env.now > request.expiresAt := not_lt.mpr timely
    simp only [deliver, NodeRuntime.handleHubMessage, NodeRuntime.handleApproval,
      PermissionManager.handleApprovalResponse, found, inTime, if_false, if_true]
    exact ⟨_, rfl⟩
  obtain ⟨result, outcome⟩ := outcome
  rw [executions_append _ outcome, count_filterMap_cons]
  show s.executions _ < s.executions _ + (_ + tick _ _)
  rw [tick_self]
  omega

/-- A cancelled task is never executed again unless it is assigned again, exactly
if no approval request of it was pending when it was cancelled. -/
theorem cancelled_not_executed_iff (s : NodeState) (env : NodeEnv) (id : MessageId) (t : TaskId)
    (reason : String) :
    (s.deliver ⟨env, .taskCancellation id t reason⟩).StaysCancelled t ↔ ¬ s.Waiting t := by
  constructor
  · rintro stays ⟨requestId, request, found, asks⟩
    let approval : Delivery :=
      ⟨{ env with now := request.expiresAt }, .approvalResponse id requestId true "" none 0⟩
    let cancelled := s.deliver ⟨env, .taskCancellation id t reason⟩
    have kept := stays [approval] (cancelled.deliver approval) (.single rfl) (by
      intro delivery member
      rw [List.mem_singleton.mp member]
      simp [approval, HubToNode.assignedId])
    have ran := cancelled.executions_approve approval.env found le_rfl id "" none 0
    rw [show (⟨request.taskId⟩ : TaskId) = t by rw [asks]] at ran
    exact absurd kept (Nat.ne_of_gt ran)
  · intro idle labels u run unassigned
    exact (executions_exec run unassigned ((waiting_cancel_iff env id reason).not.mpr idle)).2

end Cancellation

def sampleTask : TaskId := ⟨"task-approval"⟩

def sampleCommand : Command := .shell ⟨"sh", ["-c", "printf approved"], none, ∅, .fromSecs 60, true⟩

def sampleEnv (now : DateTime) : NodeEnv where
  now := now
  globMatch := fun _ _ => false
  toLowercase := id
  canAccess := fun _ _ => .ok true
  root := "/ws"
  requestId := "check"
  approvalId := "approval"
  messageId := ⟨"message"⟩
  execution := .ok (.succeeded (.text "approved"))
  durationMs := 0
  outboundOpen := true
  describe := fun _ => ""

/-- A node with one rule, by which shell commands need an approval. -/
def shellAsks : NodeState where
  runtime :=
    { permissionManager :=
        { PermissionManager.new true with
          rules := [{ PermissionRule.new "approval-shell" "Require shell approval" with
            resource := .commandType ["shell"]
            actions := [.execute]
            requireApproval := true
            priority := 10 }] }
      metrics := ⟨0, 0, 0, 0⟩
      runningTasks := ∅ }
  handled := []
  events := []

def assignment : Delivery :=
  ⟨sampleEnv 0, .taskAssignment ⟨"assign"⟩ sampleTask sampleCommand .normal none
    (.new ⟨"user"⟩ ⟨"session"⟩ "dingtalk" 0) 0 3⟩

def cancellation : Delivery := ⟨sampleEnv 1, .taskCancellation ⟨"cancel"⟩ sampleTask "stop"⟩

def approval (now : DateTime) : Delivery :=
  ⟨sampleEnv now, .approvalResponse ⟨"approve"⟩ "approval" true "admin" none now⟩

/-- The shell command waits, is cancelled and runs when it is approved. -/
theorem cancelled_task_executed :
    system.Reachable (shellAsks.deliver assignment) ∧
      ((shellAsks.deliver assignment).deliver cancellation).executions sampleTask = 0 ∧
      (((shellAsks.deliver assignment).deliver cancellation).deliver (approval 2)).executions
        sampleTask = 1 := by
  have start : system.Init shellAsks := ⟨rfl, rfl, rfl, rfl⟩
  exact ⟨(System.Reachable.init start).step rfl, by decide, by decide⟩

/-! ## Answered assignments -/

/-- The message clears both tables or none: no assignment or cancellation of a task
that waits for approval, no answer to an approval request after its expiry, and an
open channel wherever a result is sent. Approval ids are fresh. -/
def Answerable (s : NodeState) (delivery : Delivery) : Prop :=
  match delivery.message with
  | .taskAssignment _ taskId command _ _ context _ _ =>
    ¬ s.Waiting taskId ∧
      delivery.env.approvalId ∉ s.runtime.permissionManager.pendingApprovals ∧
      (delivery.env.outboundOpen = true ∨ ∃ requestId reason,
        s.runtime.permissionManager.check delivery.env.toCheckEnv command context =
          .requiresApproval requestId reason)
  | .taskCancellation _ taskId _ => ¬ s.Waiting taskId
  | .approvalResponse _ requestId _ _ _ _ => ∀ request,
      s.runtime.permissionManager.pendingApprovals.lookup requestId = some request →
        delivery.env.now ≤ request.expiresAt ∧ delivery.env.outboundOpen = true
  | _ => True

/-- The two tables agree, and of every task as many assignments were handled as
results were sent, not counting one that waits. -/
structure Answered (s : NodeState) : Prop where
  unique : ∀ id id' request request',
    s.runtime.permissionManager.pendingApprovals.lookup id = some request →
    s.runtime.permissionManager.pendingApprovals.lookup id' = some request' →
    request.taskId = request'.taskId → id = id'
  running : ∀ t, t ∈ s.runtime.runningTasks ↔ s.Waiting t
  waiting : ∀ t, s.Waiting t → s.assigned t = s.results t + 1
  idle : ∀ t, ¬ s.Waiting t → s.assigned t = s.results t

namespace Answered

variable {s s' : NodeState}

/-- A message that changes neither table and answers what it assigns. -/
theorem of_same (answered : s.Answered)
    (pending : s'.runtime.permissionManager.pendingApprovals =
      s.runtime.permissionManager.pendingApprovals)
    (running : ∀ t, t ∈ s'.runtime.runningTasks ↔ t ∈ s.runtime.runningTasks)
    (balance : ∀ t, s'.assigned t + s.results t = s.assigned t + s'.results t) :
    s'.Answered := by
  have waits : ∀ t, s'.Waiting t ↔ s.Waiting t := by
    intro t
    unfold Waiting PermissionManager.Waiting
    rw [pending]
  refine ⟨?_, ?_, ?_, ?_⟩
  · rw [pending]
    exact answered.unique
  · intro t
    rw [running, answered.running, waits]
  · intro t waiting
    have before := answered.waiting t ((waits t).mp waiting)
    have sums := balance t
    omega
  · intro t idle
    have before := answered.idle t (fun waiting => idle ((waits t).mpr waiting))
    have sums := balance t
    omega

/-- An assignment of a task that does not wait makes it wait. -/
theorem of_insert (answered : s.Answered) {id : String} {request : ApprovalRequest}
    {taskId : TaskId} (asks : request.taskId = taskId.value) (untouched : ¬ s.Waiting taskId)
    (fresh : id ∉ s.runtime.permissionManager.pendingApprovals)
    (pending : s'.runtime.permissionManager.pendingApprovals =
      s.runtime.permissionManager.pendingApprovals.insert id request)
    (running : s'.runtime.runningTasks = insert taskId s.runtime.runningTasks)
    (assigned : ∀ t, s'.assigned t = s.assigned t + tick taskId t)
    (results : ∀ t, s'.results t = s.results t) : s'.Answered := by
  have waits : ∀ t, s'.Waiting t ↔ t = taskId ∨ s.Waiting t := by
    intro t
    constructor
    · rintro ⟨other, found, lookup, names⟩
      rw [pending, HashMap.lookup_insert_ite] at lookup
      split at lookup
      · cases lookup
        left
        cases t
        cases taskId
        exact congrArg TaskId.mk (names.symm.trans asks)
      · exact .inr ⟨other, found, lookup, names⟩
    · rintro (rfl | ⟨other, found, lookup, names⟩)
      · refine ⟨id, request, ?_, asks⟩
        rw [pending, HashMap.lookup_insert_ite, if_pos rfl]
      · refine ⟨other, found, ?_, names⟩
        have distinct : other ≠ id := by
          rintro rfl
          exact fresh (HashMap.mem_of_lookup lookup)
        rw [pending, HashMap.lookup_insert_ite, if_neg distinct, lookup]
  refine ⟨?_, ?_, ?_, ?_⟩
  · intro first second left right lookup lookup' same
    rw [pending, HashMap.lookup_insert_ite] at lookup lookup'
    split at lookup <;> split at lookup'
    · next here here' => rw [here, here']
    · cases lookup
      exact absurd ⟨second, right, lookup', same.symm.trans asks⟩ untouched
    · cases lookup'
      exact absurd ⟨first, left, lookup, same.trans asks⟩ untouched
    · exact answered.unique first second left right lookup lookup' same
  · intro t
    rw [running, waits, Finset.mem_insert, answered.running]
  · intro t waiting
    rw [assigned, results]
    obtain rfl | before := (waits t).mp waiting
    · have balance := answered.idle t untouched
      rw [tick_self]
      omega
    · have distinct : taskId ≠ t := by
        rintro rfl
        exact untouched before
      have balance := answered.waiting t before
      rw [tick_of_ne distinct]
      omega
  · intro t idle
    have other : ¬ (t = taskId ∨ s.Waiting t) := fun waiting => idle ((waits t).mpr waiting)
    have distinct : taskId ≠ t := fun same => other (.inl same.symm)
    have balance := answered.idle t (fun waiting => other (.inr waiting))
    rw [assigned, results, tick_of_ne distinct]
    omega

/-- An answer to the only request of a task ends its waiting. -/
theorem of_erase (answered : s.Answered) {id : String} {request : ApprovalRequest}
    (found : s.runtime.permissionManager.pendingApprovals.lookup id = some request)
    (pending : s'.runtime.permissionManager.pendingApprovals =
      s.runtime.permissionManager.pendingApprovals.erase id)
    (running : s'.runtime.runningTasks = s.runtime.runningTasks.erase ⟨request.taskId⟩)
    (assigned : ∀ t, s'.assigned t = s.assigned t)
    (results : ∀ t, s'.results t = s.results t + tick ⟨request.taskId⟩ t) : s'.Answered := by
  have waits : ∀ t, s'.Waiting t ↔ t ≠ ⟨request.taskId⟩ ∧ s.Waiting t := by
    intro t
    constructor
    · rintro ⟨other, held, lookup, names⟩
      rw [pending, HashMap.lookup_erase_ite] at lookup
      split at lookup
      · cases lookup
      · next distinct =>
          refine ⟨?_, other, held, lookup, names⟩
          rintro rfl
          exact distinct (answered.unique other id held request lookup found names)
    · rintro ⟨distinct, other, held, lookup, names⟩
      refine ⟨other, held, ?_, names⟩
      have elsewhere : other ≠ id := by
        rintro rfl
        obtain rfl : request = held := Option.some.inj (found.symm.trans lookup)
        exact distinct (by rw [names])
      rw [pending, HashMap.lookup_erase_ite, if_neg elsewhere, lookup]
  refine ⟨?_, ?_, ?_, ?_⟩
  · intro first second left right lookup lookup' same
    rw [pending, HashMap.lookup_erase_ite] at lookup lookup'
    split at lookup
    · cases lookup
    · split at lookup'
      · cases lookup'
      · exact answered.unique first second left right lookup lookup' same
  · intro t
    rw [running, waits, Finset.mem_erase, answered.running]
  · intro t waiting
    obtain ⟨distinct, before⟩ := (waits t).mp waiting
    have balance := answered.waiting t before
    rw [assigned, results, tick_of_ne (Ne.symm distinct)]
    omega
  · intro t idle
    rw [assigned, results]
    by_cases same : t = ⟨request.taskId⟩
    · subst same
      have balance := answered.waiting ⟨request.taskId⟩ ⟨id, request, found, rfl⟩
      rw [tick_self]
      omega
    · have balance := answered.idle t (fun waiting => idle ((waits t).mpr ⟨same, waiting⟩))
      rw [tick_of_ne (Ne.symm same)]
      omega

theorem step (answered : s.Answered) {delivery : Delivery} (answerable : s.Answerable delivery) :
    (s.deliver delivery).Answered := by
  obtain ⟨events, grown, effect⟩ := s.deliver_effect delivery
  have assigned : ∀ t, (s.deliver delivery).assigned t =
      s.assigned t + tick? (HubToNode.assignedId delivery.message) t := fun t =>
    count_filterMap_concat ..
  have results : ∀ t, (s.deliver delivery).results t =
      s.results t + (events.filterMap NodeEvent.resultId).count t := by
    intro t
    unfold NodeState.results
    rw [grown, List.filterMap_append, List.count_append]
  have absent : ∀ {t t'}, ¬ s.Waiting t → (t' ∈ s.runtime.runningTasks.erase t ↔
      t' ∈ s.runtime.runningTasks) := by
    intro t t' idle
    rw [Finset.mem_erase, and_iff_right_iff_imp]
    rintro member rfl
    exact idle ((answered.running t').mp member)
  obtain ⟨env, message⟩ := delivery
  generalize s.deliver ⟨env, message⟩ = after at effect assigned results ⊢
  dsimp only at effect assigned results
  cases effect with
  | quiet unassigned pending running =>
    refine answered.of_same pending (fun t => by rw [running]) ?_
    intro t
    rw [assigned, results, unassigned]
    rfl
  | settled decided pending running settles =>
    obtain ⟨idle, -, sending⟩ := answerable
    have opened : env.outboundOpen = true := by
      obtain opened | ⟨requestId, reason, asks⟩ := sending
      · exact opened
      · exact absurd asks (decided requestId reason)
    refine answered.of_same (by rw [pending]) (fun t => by rw [running, absent idle]) ?_
    intro t
    rw [assigned, results, settles.result opened]
    show s.assigned t + tick _ t + s.results t = _
    omega
  | asked asks pending running silent =>
    obtain ⟨idle, fresh, -⟩ := answerable
    refine answered.of_insert asks idle fresh pending running assigned ?_
    intro t
    rw [results, silent.1]
    rfl
  | cancelled pending running =>
    refine answered.of_same (by rw [pending]) (fun t => by rw [running, absent answerable]) ?_
    intro t
    rw [assigned, results]
    rfl
  | expired found late pending running =>
    exact absurd (answerable _ found).1 (not_le.mpr late)
  | resolved found pending running settles =>
    obtain ⟨-, opened⟩ := answerable _ found
    refine answered.of_erase found pending running assigned ?_
    intro t
    rw [results, settles.result opened]

theorem of_reachable (reached : (system.restrict Answerable).Reachable s) : s.Answered := by
  refine reached.invariant ?_ ?_
  · rintro s ⟨pending, running, handled, events⟩
    have idle : ∀ t, ¬ s.Waiting t := by
      rintro t ⟨id, request, found, -⟩
      rw [pending] at found
      cases found
    refine ⟨?_, ?_, ?_, ?_⟩
    · intro id id' request request' found
      rw [pending] at found
      cases found
    · intro t
      rw [running]
      exact iff_of_false (Finset.notMem_empty t) (idle t)
    · intro t waiting
      exact absurd waiting (idle t)
    · intro t _
      simp [assigned, results, handled, events]
  · rintro s delivery t answered ⟨answerable, rfl⟩
    exact answered.step answerable

end Answered

/-- Between two messages the running tasks are those that wait for approval, and
every other assignment has been answered by exactly one result. -/
theorem every_assignment_answered {s : NodeState}
    (reached : (system.restrict Answerable).Reachable s) (t : TaskId) :
    (t ∈ s.runtime.runningTasks ↔ s.Waiting t) ∧
      (¬ s.Waiting t → s.results t = s.assigned t) ∧
      (s.Waiting t → s.results t + 1 = s.assigned t) := by
  have answered := Answered.of_reachable reached
  refine ⟨answered.running t, ?_, ?_⟩
  · intro idle
    exact (answered.idle t idle).symm
  · intro waiting
    exact (answered.waiting t waiting).symm

theorem every_assignment_answered_waiting :
    (system.restrict Answerable).Reachable (shellAsks.deliver assignment) ∧
      sampleTask ∈ (shellAsks.deliver assignment).runtime.runningTasks ∧
      (shellAsks.deliver assignment).Waiting sampleTask := by
  have start : (system.restrict Answerable).Init shellAsks := ⟨rfl, rfl, rfl, rfl⟩
  have answerable : shellAsks.Answerable assignment := by
    refine ⟨?_, Finmap.notMem_empty, .inl rfl⟩
    rintro ⟨id, request, found, -⟩
    cases found
  have reached : (system.restrict Answerable).Reachable (shellAsks.deliver assignment) :=
    (System.Reachable.init start).step ⟨answerable, rfl⟩
  have member : sampleTask ∈ (shellAsks.deliver assignment).runtime.runningTasks := by
    decide
  exact ⟨reached, member, (every_assignment_answered reached sampleTask).1.mp member⟩

/-- An approval that comes too late leaves the task running and unanswered. -/
theorem expired_approval_unanswered :
    ∃ s, system.Reachable s ∧ sampleTask ∈ s.runtime.runningTasks ∧ ¬ s.Waiting sampleTask ∧
      s.assigned sampleTask = 1 ∧ s.results sampleTask = 0 := by
  have start : system.Init shellAsks := ⟨rfl, rfl, rfl, rfl⟩
  refine ⟨(shellAsks.deliver assignment).deliver (approval (seconds 301)),
    ((System.Reachable.init start).step rfl).step rfl, by decide, ?_, by decide,
    by decide⟩
  rintro ⟨id, request, found, -⟩
  have empty : ((shellAsks.deliver assignment).deliver
      (approval (seconds 301))).runtime.permissionManager.pendingApprovals.keys = ∅ := by
    decide
  have member := Finmap.mem_keys.mpr (HashMap.mem_of_lookup found)
  rw [empty] at member
  exact absurd member (Finset.notMem_empty id)

end NodeState
end UHorse.Node
