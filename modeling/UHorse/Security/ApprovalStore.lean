import UHorse.Security.Approval

/-!
# The maps of the approval manager

`Consistent` relates the three maps: no id is both pending and settled, the counts
of every request are those of its decisions, a settled request is not pending and
approved only in time, and the user index answers for the pending requests. It
holds after every sequence of operations, and what is settled stays as it is.

A request that the rules decide is returned without being stored:
`createRequest_readable_iff` says that only a request they leave to the approvers
can be read back.
-/

namespace UHorse.Security

open UHorse.Lib UHorse.Protocol

namespace ApprovalRequest

/-- The counts are those of the decisions, nobody decided twice, and no decision is dated
in the future. -/
structure Sound (request : ApprovalRequest) (now : Nat) : Prop where
  approvals : request.approvedCount = request.decisions.countP fun decision => decision.approved
  rejections : request.rejectedCount = request.decisions.countP fun decision => !decision.approved
  once : (request.decisions.map ApprovalDecision.approverId).Nodup
  dated : ∀ decision ∈ request.decisions, decision.decidedAt ≤ now

variable {request decided : ApprovalRequest} {decision : ApprovalDecision} {start now : Nat}

theorem Sound.mono (sound : request.Sound start) (later : start ≤ now) : request.Sound now :=
  ⟨sound.approvals, sound.rejections, sound.once,
    fun decision member => (sound.dated decision member).trans later⟩

theorem Sound.withStatus (sound : request.Sound now) (status : ApprovalStatus) :
    { request with status := status }.Sound now :=
  ⟨sound.approvals, sound.rejections, sound.once, sound.dated⟩

/-- What a decision changes. -/
theorem addDecision_ok (added : request.addDecision decision = .ok decided) :
    request.hasDecided decision.approverId = false ∧
      decided.decisions = request.decisions ++ [decision] ∧
      decided.approvedCount = request.approvedCount + (if decision.approved then 1 else 0) ∧
      decided.rejectedCount = request.rejectedCount + (if decision.approved then 0 else 1) ∧
      decided.level = request.level ∧ decided.expiresAt = request.expiresAt ∧
      decided.requiredApprovers = request.requiredApprovers ∧ decided.status = request.status := by
  rw [addDecision] at added
  split at added
  · cases added
  · next undecided =>
      dsimp only at added
      split at added
      · next approving =>
          cases added
          simp [undecided, approving]
      · next rejecting =>
          cases added
          simp [undecided, rejecting]

/-- The new status, and nothing else. -/
theorem updateStatus_eq (request : ApprovalRequest) (now : Nat) :
    ∃ status, request.updateStatus now = { request with status := status } := by
  rw [updateStatus]
  split
  · exact ⟨_, rfl⟩
  · split
    · exact ⟨_, rfl⟩
    · split
      · exact ⟨_, rfl⟩
      · exact ⟨request.status, rfl⟩

theorem Sound.addDecision (sound : request.Sound start) (later : start ≤ decision.decidedAt)
    (added : request.addDecision decision = .ok decided) :
    decided.Sound decision.decidedAt := by
  obtain ⟨undecided, decisions, approvals, rejections, -⟩ := addDecision_ok added
  refine ⟨?_, ?_, ?_, ?_⟩
  · rw [approvals, decisions, List.countP_append, sound.approvals, List.countP_singleton]
  · rw [rejections, decisions, List.countP_append, sound.rejections, List.countP_singleton]
    cases decision.approved <;> rfl
  · rw [decisions, List.map_append, List.map_singleton, List.nodup_append]
    refine ⟨sound.once, List.nodup_singleton _, ?_⟩
    intro user earlier last member same
    obtain ⟨other, inside, rfl⟩ := List.mem_map.mp earlier
    rw [List.mem_singleton.mp member] at same
    have known : request.hasDecided decision.approverId = true :=
      List.any_eq_true.mpr ⟨other, inside, decide_eq_true same⟩
    rw [undecided] at known
    cases known
  · intro other member
    rw [decisions, List.mem_append, List.mem_singleton] at member
    obtain earlier | rfl := member
    · exact (sound.dated other earlier).trans later
    · exact le_rfl

theorem Sound.updateStatus (sound : request.Sound start) (later : start ≤ now) :
    (request.updateStatus now).Sound now := by
  obtain ⟨status, same⟩ := updateStatus_eq request now
  rw [same]
  exact (sound.mono later).withStatus status

@[simp] theorem isCompleted_withStatus (status : ApprovalStatus) :
    { request with status := status }.isCompleted = request.isCompleted := rfl

theorem isCompleted_updateStatus :
    (request.updateStatus now).isCompleted = request.isCompleted := by
  obtain ⟨status, same⟩ := updateStatus_eq request now
  rw [same, isCompleted_withStatus]

theorem isCompleted_of_rejected (rejected : 0 < request.rejectedCount) :
    request.isCompleted = true := by
  have counted : request.rejectedCount ≥ 1 := rejected
  rw [isCompleted]
  split <;> simp [counted]

/-- What holds of a request in `history`. -/
structure Settled (request : ApprovalRequest) (now : Nat) : Prop where
  sound : request.Sound now
  final : request.status ≠ .pending
  inTime : request.status = .approved → request.isCompleted = true ∧
    ∀ decision ∈ request.decisions, decision.decidedAt ≤ request.expiresAt

theorem Settled.mono (settled : request.Settled start) (later : start ≤ now) :
    request.Settled now :=
  ⟨settled.sound.mono later, settled.final, settled.inTime⟩

/-- A completed request is approved only while it has not expired. -/
theorem settled_updateStatus (sound : request.Sound start) (later : start ≤ now)
    (completed : request.isCompleted = true) : (request.updateStatus now).Settled now := by
  refine ⟨sound.updateStatus later, ?_, ?_⟩
  · rw [updateStatus]
    split
    · simp
    · split <;> simp
  · rw [updateStatus]
    split
    · simp
    · next unexpired =>
        have inTime : now ≤ request.expiresAt := by simpa [isExpired] using unexpired
        split
        · simp
        · intro approved
          refine ⟨completed, ?_⟩
          intro decision member
          exact ((sound.dated decision member).trans later).trans inTime

theorem settled_withStatus (sound : request.Sound now) {status : ApprovalStatus}
    (final : status ≠ .pending) (other : status ≠ .approved) :
    { request with status := status }.Settled now :=
  ⟨sound.withStatus status, final, fun approved => absurd approved other⟩

theorem approverIds_updateStatus :
    (request.updateStatus now).approverIds = request.approverIds := by
  obtain ⟨status, same⟩ := updateStatus_eq request now
  rw [same]
  rfl

theorem approverIds_addDecision (added : request.addDecision decision = .ok decided) :
    decided.approverIds = request.approverIds := by
  obtain ⟨-, -, -, -, -, -, approvers, -⟩ := addDecision_ok added
  rw [approverIds, approvers, approverIds]

end ApprovalRequest

theorem Operation.Within.le {operation : Operation} {start finish : Nat}
    (within : operation.Within start finish) : start ≤ finish := by
  cases operation with
  | create => exact within.1.trans within.2
  | approve => exact within.1.trans (within.2.1.trans within.2.2)
  | reject => exact within.1.trans (within.2.1.trans within.2.2)
  | cancel => exact within
  | cleanup => exact within.1
  | expire => exact within

namespace ApprovalManager

/-- The ids a user is asked about. -/
def asked (manager : ApprovalManager) (user : String) : List String :=
  (manager.userRequests user).getD []

structure Consistent (manager : ApprovalManager) (now : Nat) : Prop where
  disjoint : ∀ id, id ∈ manager.pending → id ∉ manager.history
  waiting : ∀ id request, manager.pending.lookup id = some request → request.Sound now
  settled : ∀ id request, manager.history.lookup id = some request → request.Settled now
  indexed : ∀ id request, manager.pending.lookup id = some request →
    ∀ user, id ∈ manager.asked user ↔ user ∈ request.approverIds
  known : ∀ user, ∀ id ∈ manager.asked user, id ∈ manager.pending ∨ id ∈ manager.history

section Index

variable {index : String → Option (List String)} {id other user : String}

theorem mem_indexRequest {users : List String} :
    other ∈ (indexRequest index id users user).getD [] ↔
      other ∈ (index user).getD [] ∨ other = id ∧ user ∈ users := by
  rw [indexRequest]
  induction users generalizing index with
  | nil => simp
  | cons first users ih =>
    rw [List.foldl_cons, ih]
    by_cases same : user = first
    · subst same
      simp [or_assoc]
      tauto
    · simp [same]

theorem mem_forgetRequest :
    other ∈ (forgetRequest index id user).getD [] ↔
      other ∈ (index user).getD [] ∧ other ≠ id := by
  rw [forgetRequest]
  cases index user <;> simp

end Index

namespace Consistent

variable {manager : ApprovalManager} {start now : Nat} {id : String}
  {request request' : ApprovalRequest}

theorem mono (consistent : manager.Consistent start) (later : start ≤ now) :
    manager.Consistent now where
  disjoint := consistent.disjoint
  waiting id request found := (consistent.waiting id request found).mono later
  settled id request found := (consistent.settled id request found).mono later
  indexed := consistent.indexed
  known := consistent.known

/-- A pending request is replaced by one with the same approvers. -/
theorem replace (consistent : manager.Consistent now)
    (found : manager.pending.lookup id = some request) (sound : request'.Sound now)
    (approvers : request'.approverIds = request.approverIds) :
    { manager with pending := manager.pending.insert id request' }.Consistent now := by
  have member := HashMap.mem_of_lookup found
  refine ⟨?_, ?_, consistent.settled, ?_, ?_⟩
  · intro other present
    obtain rfl | present := Finmap.mem_insert.mp present
    · exact consistent.disjoint other member
    · exact consistent.disjoint other present
  · intro other candidate present
    rw [HashMap.lookup_insert_ite] at present
    split at present
    · cases present
      exact sound
    · exact consistent.waiting other candidate present
  · intro other candidate present user
    rw [HashMap.lookup_insert_ite] at present
    split at present
    · next same =>
        cases present
        rw [same, approvers]
        exact consistent.indexed id request found user
    · exact consistent.indexed other candidate present user
  · intro user other listed
    exact (consistent.known user other listed).imp_left fun present =>
      Finmap.mem_insert.mpr (.inr present)

/-- A request is settled, its users still asked. -/
theorem settle (consistent : manager.Consistent now) (settled : request'.Settled now) :
    (manager.settle id request').Consistent now := by
  refine ⟨?_, ?_, ?_, ?_, ?_⟩
  · intro other present settledToo
    obtain ⟨distinct, present⟩ := Finmap.mem_erase.mp present
    obtain same | settledToo := Finmap.mem_insert.mp settledToo
    · exact distinct same
    · exact consistent.disjoint other present settledToo
  · intro other candidate present
    simp only [ApprovalManager.settle, HashMap.lookup_erase_ite,
      Option.ite_none_left_eq_some] at present
    exact consistent.waiting other candidate present.2
  · intro other candidate present
    simp only [ApprovalManager.settle, HashMap.lookup_insert_ite] at present
    split at present
    · cases present
      exact settled
    · exact consistent.settled other candidate present
  · intro other candidate present
    simp only [ApprovalManager.settle, HashMap.lookup_erase_ite,
      Option.ite_none_left_eq_some] at present
    exact consistent.indexed other candidate present.2
  · intro user other listed
    by_cases same : other = id
    · exact .inr (Finmap.mem_insert.mpr (.inl same))
    · exact (consistent.known user other listed).imp
        (fun present => Finmap.mem_erase.mpr ⟨same, present⟩)
        (fun present => Finmap.mem_insert.mpr (.inr present))

/-- Users are no longer asked about a request that is not pending. -/
theorem forget (consistent : manager.Consistent now) (absent : id ∉ manager.pending) :
    { manager with userRequests := forgetRequest manager.userRequests id }.Consistent now := by
  refine ⟨consistent.disjoint, consistent.waiting, consistent.settled, ?_, ?_⟩
  · intro other candidate present user
    have distinct : other ≠ id := by
      rintro rfl
      exact absent (HashMap.mem_of_lookup present)
    refine mem_forgetRequest.trans ?_
    rw [and_iff_left distinct]
    exact consistent.indexed other candidate present user
  · intro user other listed
    exact consistent.known user other (mem_forgetRequest.mp listed).1

theorem settleAndForget (consistent : manager.Consistent now) (settled : request'.Settled now) :
    (manager.settleAndForget id request').Consistent now := by
  have moved : (manager.settle id request').Consistent now := consistent.settle settled
  refine moved.forget ?_
  simp [ApprovalManager.settle]

theorem store (consistent : manager.Consistent now) (fresh : request.id ∉ manager.pending)
    (unused : request.id ∉ manager.history) (sound : request.Sound now) :
    (manager.storeRequest request).Consistent now := by
  have unasked : ∀ user, request.id ∉ manager.asked user := by
    intro user listed
    exact (consistent.known user _ listed).elim fresh unused
  refine ⟨?_, ?_, consistent.settled, ?_, ?_⟩
  · intro other present
    obtain rfl | present := Finmap.mem_insert.mp present
    · exact unused
    · exact consistent.disjoint other present
  · intro other candidate present
    simp only [storeRequest, HashMap.lookup_insert_ite] at present
    split at present
    · cases present
      exact sound
    · exact consistent.waiting other candidate present
  · intro other candidate present user
    refine mem_indexRequest.trans ?_
    simp only [storeRequest, HashMap.lookup_insert_ite] at present
    split at present
    · next same =>
        cases present
        subst same
        exact ⟨fun listed => listed.elim (fun old => absurd old (unasked user)) And.right,
          fun approver => .inr ⟨rfl, approver⟩⟩
    · next distinct =>
        rw [← consistent.indexed other candidate present user]
        simp [distinct, asked]
  · intro user other listed
    obtain old | ⟨rfl, -⟩ := mem_indexRequest.mp listed
    · exact (consistent.known user other old).imp_left fun present =>
        Finmap.mem_insert.mpr (.inr present)
    · exact .inl (Finmap.mem_insert.mpr (.inl rfl))

theorem timeOut (consistent : manager.Consistent now) (id : String) :
    (manager.timeOut id).Consistent now := by
  rw [ApprovalManager.timeOut]
  cases found : manager.pending.lookup id with
  | none => exact consistent
  | some request =>
    refine consistent.settle ?_
    exact ApprovalRequest.settled_withStatus (consistent.waiting id request found) (by simp)
      (by simp)

theorem timeOuts (consistent : manager.Consistent now) (ids : List String) :
    (ids.foldl ApprovalManager.timeOut manager).Consistent now := by
  induction ids generalizing manager with
  | nil => exact consistent
  | cons id ids ih => exact ih (consistent.timeOut id)

/-- An operation takes the maps from one consistent state to the next. -/
theorem effect {operation : Operation} {manager' : ApprovalManager} {start finish : Nat}
    (consistent : manager.Consistent start) (fits : operation.Fits manager)
    (within : operation.Within start finish) (effect : Effect manager operation manager') :
    manager'.Consistent finish := by
  cases effect with
  | unchanged => exact consistent.mono within.le
  | create =>
    obtain ⟨later, later'⟩ := within
    refine (consistent.mono (later.trans later')).store fits.1 fits.2 ?_
    exact ⟨rfl, rfl, List.nodup_nil, by simp [ApprovalRequest.new]⟩
  | decide found allowed added incomplete =>
    obtain ⟨later, ordered, later'⟩ := within
    have sound := (consistent.waiting _ _ found).addDecision later added
    have updated := (sound.updateStatus ordered).mono later'
    refine (consistent.mono (later.trans (ordered.trans later'))).replace found updated ?_
    rw [ApprovalRequest.approverIds_updateStatus, ApprovalRequest.approverIds_addDecision added]
  | complete found allowed added completed =>
    obtain ⟨later, ordered, later'⟩ := within
    have sound := (consistent.waiting _ _ found).addDecision later added
    rw [ApprovalRequest.isCompleted_updateStatus] at completed
    have settled := ApprovalRequest.settled_updateStatus sound ordered completed
    refine (consistent.mono (later.trans (ordered.trans later'))).settleAndForget ?_
    exact settled.mono later'
  | @reject _ _ _ _ _ _ decided found added =>
    obtain ⟨later, ordered, later'⟩ := within
    have sound := (consistent.waiting _ _ found).addDecision later added
    obtain ⟨-, -, -, rejections, -⟩ := ApprovalRequest.addDecision_ok added
    have rejected : 0 < decided.rejectedCount := by
      rw [rejections]
      exact Nat.succ_pos _
    have completed := ApprovalRequest.isCompleted_of_rejected rejected
    have settled := ApprovalRequest.settled_updateStatus sound ordered completed
    refine (consistent.mono (later.trans (ordered.trans later'))).settleAndForget ?_
    exact settled.mono later'
  | cancel found =>
    have later := consistent.mono within
    refine later.settle ?_
    exact ApprovalRequest.settled_withStatus (later.waiting _ _ found) (by simp) (by simp)
  | cleanup order clock => exact (consistent.mono within.1).timeOuts _
  | expire found waiting =>
    have later := consistent.mono within
    exact later.replace found ((later.waiting _ _ found).withStatus _) rfl

end Consistent

/-- The user index answers with the pending requests that name the user. -/
theorem Consistent.mem_getUserPendingRequests {manager : ApprovalManager} {now : Nat}
    (consistent : manager.Consistent now) (user : String) (request : ApprovalRequest) :
    request ∈ manager.getUserPendingRequests user ↔
      ∃ id, manager.pending.lookup id = some request ∧ user ∈ request.approverIds := by
  rw [getUserPendingRequests, List.mem_filterMap]
  refine exists_congr fun id => ?_
  constructor
  · rintro ⟨listed, found⟩
    exact ⟨found, (consistent.indexed id request found user).mp listed⟩
  · rintro ⟨found, approver⟩
    exact ⟨(consistent.indexed id request found user).mpr approver, found⟩

section History

variable {manager : ApprovalManager} {now : Nat} {id other : String}
  {request request' moved : ApprovalRequest}

theorem Consistent.history_settle (consistent : manager.Consistent now)
    (waiting : manager.pending.lookup other = some request')
    (found : manager.history.lookup id = some request) :
    (manager.settle other moved).history.lookup id = some request := by
  have distinct : id ≠ other := by
    rintro rfl
    exact consistent.disjoint id (HashMap.mem_of_lookup waiting) (HashMap.mem_of_lookup found)
  rw [ApprovalManager.settle, HashMap.lookup_insert_ite, if_neg distinct, found]

theorem Consistent.history_timeOuts (consistent : manager.Consistent now) (ids : List String)
    (found : manager.history.lookup id = some request) :
    (ids.foldl ApprovalManager.timeOut manager).history.lookup id = some request := by
  induction ids generalizing manager with
  | nil => exact found
  | cons first ids ih =>
    refine ih (consistent.timeOut first) ?_
    rw [ApprovalManager.timeOut]
    cases waiting : manager.pending.lookup first with
    | none => exact found
    | some request' => exact consistent.history_settle waiting found

/-- What an operation finds settled it leaves alone. -/
theorem Consistent.history_effect {manager' : ApprovalManager} {operation : Operation}
    (consistent : manager.Consistent now) (effect : Effect manager operation manager')
    (found : manager.history.lookup id = some request) :
    manager'.history.lookup id = some request := by
  cases effect with
  | unchanged => exact found
  | create => exact found
  | decide => exact found
  | complete waiting => exact consistent.history_settle waiting found
  | reject waiting => exact consistent.history_settle waiting found
  | cancel waiting => exact consistent.history_settle waiting found
  | cleanup order clock => exact consistent.history_timeOuts _ found
  | expire => exact found

end History

end ApprovalManager

open ApprovalManager

variable {ruleEngine : ApprovalRuleEngine}

theorem consistent_of_reachable {s : Store} (reached : (store ruleEngine).Reachable s) :
    s.manager.Consistent s.now := by
  refine reached.invariant (P := fun s => s.manager.Consistent s.now) ?_ ?_
  · intro s start
    obtain ⟨manager, now⟩ := s
    obtain rfl : manager = .new ruleEngine := start
    exact ⟨fun id member => absurd member Finmap.notMem_empty, by simp [new], by simp [new],
      by simp [new], by simp [new, asked]⟩
  · rintro s operation t consistent ⟨fits, within, same⟩
    rw [same]
    exact consistent.effect fits within (perform_effect s.manager operation).1

theorem history_of_exec {s t : Store} {operations : List Operation}
    (reached : (store ruleEngine).Reachable s) (run : (store ruleEngine).Exec s operations t)
    {id : String} {request : ApprovalRequest}
    (found : s.manager.history.lookup id = some request) :
    t.manager.history.lookup id = some request := by
  induction run with
  | refl => exact found
  | snoc run step ih =>
    obtain ⟨-, -, same⟩ := step
    rw [same]
    exact (consistent_of_reachable (reached.exec run)).history_effect
      (perform_effect _ _).1 ih

/-- The maps agree after every sequence of operations. -/
theorem store_invariant {s : Store} (reached : (store ruleEngine).Reachable s) :
    (∀ id, id ∈ s.manager.pending → id ∉ s.manager.history) ∧
    (∀ id request, s.manager.history.lookup id = some request →
      request.status ≠ .pending ∧
      (∀ operations t, (store ruleEngine).Exec s operations t →
        t.manager.history.lookup id = some request) ∧
      (request.status = .approved → request.isCompleted = true ∧
        ∀ decision ∈ request.decisions, decision.decidedAt ≤ request.expiresAt)) ∧
    (∀ id request, s.manager.getRequest id = some request →
      request.approvedCount = (request.decisions.countP fun decision => decision.approved) ∧
      request.rejectedCount = (request.decisions.countP fun decision => !decision.approved) ∧
      (request.decisions.map ApprovalDecision.approverId).Nodup) ∧
    (∀ user request, request ∈ s.manager.getUserPendingRequests user ↔
      ∃ id, s.manager.pending.lookup id = some request ∧ user ∈ request.approverIds) ∧
    ∀ operation error, (s.manager.perform operation).2 = some error →
      (s.manager.perform operation).1 = s.manager := by
  have consistent := consistent_of_reachable reached
  refine ⟨consistent.disjoint, ?_, ?_, consistent.mem_getUserPendingRequests, ?_⟩
  · intro id request found
    have settled := consistent.settled id request found
    refine ⟨settled.final, ?_, settled.inTime⟩
    intro operations t run
    exact history_of_exec reached run found
  · intro id request found
    have sound : request.Sound s.now := by
      obtain waiting | ⟨-, settled⟩ := Option.or_eq_some_iff.mp found
      · exact consistent.waiting id request waiting
      · exact (consistent.settled id request settled).sound
    exact ⟨sound.approvals, sound.rejections, sound.once⟩
  · intro operation error failed
    exact (perform_effect s.manager operation).2 (by simp [failed])

/-! ### A request that its approver approves -/

def sampleApprover : Approver := ⟨"admin-001", "Admin", "admin"⟩

def sampleCreate : Operation :=
  .create "deploy" "user-001" .single [sampleApprover] (.object []) "request-1" 10

def sampleApprove : Operation := .approve "request-1" "admin-001" none 20 20

def created : Store := ⟨((ApprovalManager.new .new).perform sampleCreate).1, 10⟩

def approved : Store := ⟨(created.manager.perform sampleApprove).1, 20⟩

theorem created_reachable : (store .new).Reachable created := by
  have start : (store .new).Reachable ⟨.new .new, 0⟩ := .init rfl
  have fresh : sampleCreate.Fits (.new .new) :=
    ⟨Finmap.notMem_empty, Finmap.notMem_empty⟩
  exact start.step ⟨fresh, ⟨by decide, by decide⟩, rfl⟩

theorem approved_reachable : (store .new).Reachable approved := by
  have step : (store .new).Step created sampleApprove approved :=
    ⟨trivial, ⟨by decide, by decide, by decide⟩, rfl⟩
  exact created_reachable.step step

theorem store_invariant_approved :
    ∃ request, approved.manager.history.lookup "request-1" = some request ∧
      request.status = .approved ∧ "request-1" ∉ approved.manager.pending ∧
      ∀ decision ∈ request.decisions, decision.decidedAt ≤ request.expiresAt := by
  obtain ⟨disjoint, settled, -⟩ := store_invariant approved_reachable
  have stored : (approved.manager.history.lookup "request-1").map ApprovalRequest.status =
      some .approved := by
    decide
  obtain ⟨request, found, status⟩ := Option.map_eq_some_iff.mp stored
  refine ⟨request, found, status, ?_, ((settled _ request found).2.2 status).2⟩
  intro waiting
  exact disjoint _ waiting (HashMap.mem_of_lookup found)

/-! ## Reading a request back -/

/-- The operation may change what is stored under the id. -/
def Operation.Concerns (id : String) : Operation → Prop
  | .create _ _ _ _ _ other _ => other = id
  | .approve other _ _ _ _ => other = id
  | .reject other _ _ _ _ => other = id
  | .cancel other => other = id
  | .cleanup order clock => id ∈ expiredIds order clock
  | .expire other => other = id

/-- The request is found under its id with its status, and listed exactly if it is pending,
for as long as no operation concerns it. -/
def ApprovalManager.Readable (manager : ApprovalManager) (request : ApprovalRequest) : Prop :=
  ∀ operations : List Operation, (∀ operation ∈ operations, ¬ operation.Concerns request.id) →
    let manager' :=
      operations.foldl (fun manager operation => (manager.perform operation).1) manager
    (∃ found, manager'.getRequest request.id = some found ∧ found.status = request.status) ∧
    ∀ order, manager'.pending.Lists order →
      (request ∈ listPending order ↔ request.status = .pending)

section ReadBack

variable {manager manager' : ApprovalManager} {id : String}

theorem lookup_timeOuts {ids : List String} (absent : id ∉ ids) :
    (ids.foldl timeOut manager).pending.lookup id = manager.pending.lookup id := by
  induction ids generalizing manager with
  | nil => rfl
  | cons first ids ih =>
    obtain ⟨distinct, absent⟩ := not_or.mp (List.mem_cons.not.mp absent)
    rw [List.foldl_cons, ih absent]
    rw [timeOut]
    split
    · rw [settle, HashMap.lookup_erase_ite, if_neg distinct]
    · rfl

theorem lookup_effect {operation : Operation} (effect : Effect manager operation manager')
    (elsewhere : ¬ operation.Concerns id) :
    manager'.pending.lookup id = manager.pending.lookup id := by
  cases effect with
  | unchanged => rfl
  | create => exact Finmap.lookup_insert_of_ne _ (Ne.symm elsewhere)
  | decide => rw [HashMap.lookup_insert_ite, if_neg (Ne.symm elsewhere)]
  | complete =>
    rw [settleAndForget, settle, HashMap.lookup_erase_ite, if_neg (Ne.symm elsewhere)]
  | reject =>
    rw [settleAndForget, settle, HashMap.lookup_erase_ite, if_neg (Ne.symm elsewhere)]
  | cancel => rw [settle, HashMap.lookup_erase_ite, if_neg (Ne.symm elsewhere)]
  | cleanup order clock => exact lookup_timeOuts elsewhere
  | expire => rw [HashMap.lookup_insert_ite, if_neg (Ne.symm elsewhere)]

theorem lookup_performs {operations : List Operation}
    (elsewhere : ∀ operation ∈ operations, ¬ operation.Concerns id) :
    (operations.foldl (fun manager operation => (manager.perform operation).1)
      manager).pending.lookup id = manager.pending.lookup id := by
  induction operations generalizing manager with
  | nil => rfl
  | cons operation operations ih =>
    obtain ⟨first, later⟩ := List.forall_mem_cons.mp elsewhere
    rw [List.foldl_cons, ih later, lookup_effect (perform_effect manager operation).1 first]

/-- A request that waits under its id can be read back. -/
theorem readable_of_pending {request : ApprovalRequest}
    (found : manager.pending.lookup request.id = some request)
    (waiting : request.status = .pending) : manager.Readable request := by
  intro operations elsewhere manager'
  have kept : manager'.pending.lookup request.id = some request :=
    (lookup_performs elsewhere).trans found
  refine ⟨⟨request, ?_, rfl⟩, ?_⟩
  · rw [getRequest, kept]
    rfl
  · intro order listed
    refine iff_of_true ?_ waiting
    exact List.mem_map.mpr ⟨(request.id, request), (listed.2 _ _).mpr kept, rfl⟩

end ReadBack

/-- What `create_request` returns can be read back exactly if no rule decides it. -/
theorem createRequest_readable_iff (manager : ApprovalManager) (action requestedBy : String)
    (level : ApprovalLevel) (requiredApprovers : List Approver) (metadata : Json) (id : String)
    (now : Nat) (fresh : id ∉ manager.pending) (unused : id ∉ manager.history) :
    let outcome :=
      manager.createRequest action requestedBy level requiredApprovers metadata id now
    outcome.1.Readable outcome.2 ↔
      manager.ruleEngine.evaluateAutoApprove metadata = false ∧
        manager.ruleEngine.evaluateAutoReject metadata = false := by
  have missing : manager.getRequest id = none := by
    rw [getRequest, Finmap.lookup_eq_none.mpr fresh, Finmap.lookup_eq_none.mpr unused]
    rfl
  have unreadable : ∀ request : ApprovalRequest, request.id = id → ¬ manager.Readable request := by
    intro request same readable
    obtain ⟨⟨found, present, -⟩, -⟩ := readable [] (by simp)
    rw [same] at present
    cases missing.symm.trans present
  dsimp only [createRequest]
  split
  · next approves =>
      exact iff_of_false (unreadable _ rfl) (by simp [approves])
  · next leaves =>
      split
      · next rejects => exact iff_of_false (unreadable _ rfl) (by simp [rejects])
      · next leaves' =>
          refine iff_of_true (readable_of_pending ?_ rfl) ⟨?_, ?_⟩
          · rw [storeRequest, Finmap.lookup_insert]
          · simpa using leaves
          · simpa using leaves'

theorem createRequest_readable_iff_sample :
    let outcome := (ApprovalManager.new .new).createRequest "deploy" "user-001" .single
      [sampleApprover] (.object []) "request-1" 10
    outcome.1.Readable outcome.2 :=
  (createRequest_readable_iff (.new .new) "deploy" "user-001" .single [sampleApprover] (.object [])
    "request-1" 10 Finmap.notMem_empty Finmap.notMem_empty).mpr ⟨rfl, rfl⟩

/-- A rule without conditions approves every request. -/
def approvingRules : ApprovalRuleEngine := ⟨[⟨"low-risk", .object [], "approve"⟩], []⟩

/-- The request comes back approved and is nowhere to be found. -/
theorem createRequest_auto_approved_unreadable :
    let outcome := (ApprovalManager.new approvingRules).createRequest "deploy" "user-001" .single
      [sampleApprover] (.object []) "request-1" 10
    outcome.2.status = .approved ∧ (outcome.1.getRequest outcome.2.id).isNone ∧
      ¬ outcome.1.Readable outcome.2 := by
  have missing : ((ApprovalManager.new approvingRules).getRequest "request-1").isNone := by
    decide
  refine ⟨rfl, missing, ?_⟩
  intro readable
  obtain ⟨⟨found, present, -⟩, -⟩ := readable [] (by simp)
  have there : (ApprovalManager.new approvingRules).getRequest "request-1" = some found := present
  rw [there] at missing
  cases missing

end UHorse.Security
