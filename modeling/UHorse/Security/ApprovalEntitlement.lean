import UHorse.Security.ApprovalStore

/-!
# Who approves a request

`approve_request` records the decision of whoever calls it: neither the list of
required approvers nor, for sequential levels, its order is consulted.
`Operation.Entitled` is the check that is missing. In every sequence of operations
that meet it, an approved request has the approvals its level asks for, from users
of its list.
-/

namespace UHorse.Security

open UHorse.Lib UHorse.Protocol ApprovalManager

namespace ApprovalRequest

/-- The users who approved, in the order of their decisions. -/
def approvers (request : ApprovalRequest) : List String :=
  (request.decisions.filter fun decision => decision.approved).map ApprovalDecision.approverId

/-- The approvals the level of a request asks for. -/
def LevelMet (request : ApprovalRequest) : Prop :=
  match request.level with
  | .single => 1 ≤ request.approvers.length
  | .sequential _ => request.approvers = request.approverIds
  | .parallel required => required ≤ request.approvers.length
  | .conditional conditions => conditions.length ≤ request.approvers.length

structure Entitled (request : ApprovalRequest) : Prop where
  distinct : request.approvers.Nodup
  listed : ∀ user ∈ request.approvers, user ∈ request.approverIds
  level : request.LevelMet

/-- The user is asked to approve, and with sequential levels it is the user's turn and the
request is not completed before the last approver. -/
def MayApprove (request : ApprovalRequest) (user : String) : Prop :=
  user ∈ request.approverIds ∧
  match request.level with
  | .sequential levels => request.approverIds[request.approvedCount]? = some user ∧
      (levels.length ≤ request.approvedCount + 1 →
        request.approvedCount + 1 = request.approverIds.length)
  | _ => True

/-- The approvals so far come from the list and, with sequential levels, follow it. -/
structure OnTrack (request : ApprovalRequest) : Prop where
  listed : ∀ user ∈ request.approvers, user ∈ request.approverIds
  turns : ∀ levels, request.level = .sequential levels →
    request.approvers = request.approverIds.take request.approvedCount

end ApprovalRequest

/-- An approval that is recorded in time comes from a user who may give it. -/
def Operation.Entitled (s : Store) : Operation → Prop
  | .approve id user _ _ now => ∀ request, s.manager.pending.lookup id = some request →
      request.canApprove = true → request.hasDecided user = false →
      request.isExpired now = false → request.MayApprove user
  | _ => True

/-- Pending requests are on track or have expired, and approved ones are entitled to it. -/
structure Entitling (manager : ApprovalManager) (now : Nat) : Prop where
  waiting : ∀ id request, manager.pending.lookup id = some request →
    request.status ≠ .approved ∧ (request.OnTrack ∨ request.expiresAt < now)
  settled : ∀ id request, manager.history.lookup id = some request →
    request.status = .approved → request.Entitled

namespace ApprovalRequest

variable {request decided : ApprovalRequest} {decision : ApprovalDecision} {start now : Nat}

theorem approvers_addDecision (added : request.addDecision decision = .ok decided) :
    decided.approvers =
      request.approvers ++ if decision.approved then [decision.approverId] else [] := by
  obtain ⟨-, decisions, -⟩ := addDecision_ok added
  rw [approvers, decisions, List.filter_append, List.map_append, approvers]
  cases approved : decision.approved <;> simp [approved]

theorem Sound.length_approvers (sound : request.Sound now) :
    request.approvers.length = request.approvedCount := by
  rw [approvers, List.length_map, sound.approvals, List.countP_eq_length_filter]

theorem Sound.nodup_approvers (sound : request.Sound now) : request.approvers.Nodup :=
  sound.once.sublist (List.filter_sublist.map _)

/-- An entitled approval keeps a request on track. -/
theorem OnTrack.addDecision (onTrack : request.OnTrack)
    (may : request.MayApprove decision.approverId) (approving : decision.approved = true)
    (added : request.addDecision decision = .ok decided) : decided.OnTrack := by
  obtain ⟨-, -, approvals, -, level, -⟩ := addDecision_ok added
  rw [if_pos approving] at approvals
  have appended := approvers_addDecision added
  rw [if_pos approving] at appended
  have approvers := approverIds_addDecision added
  refine ⟨?_, ?_⟩
  · intro user member
    rw [appended, List.mem_append, List.mem_singleton] at member
    rw [approvers]
    obtain earlier | rfl := member
    · exact onTrack.listed user earlier
    · exact may.1
  · intro levels sequential
    rw [level] at sequential
    obtain ⟨-, turn⟩ := may
    rw [sequential] at turn
    rw [appended, approvers, approvals, onTrack.turns levels sequential, List.take_add_one, turn.1]
    rfl

theorem OnTrack.withStatus (onTrack : request.OnTrack) (status : ApprovalStatus) :
    { request with status := status }.OnTrack :=
  ⟨onTrack.listed, onTrack.turns⟩

theorem Entitled.withStatus (entitled : request.Entitled) (status : ApprovalStatus) :
    { request with status := status }.Entitled :=
  ⟨entitled.distinct, entitled.listed, entitled.level⟩

/-- The status becomes `Approved` only in time, without rejection and on completion. -/
theorem of_updateStatus_approved (approved : (request.updateStatus now).status = .approved)
    (before : request.status ≠ .approved) :
    request.isExpired now = false ∧ request.rejectedCount = 0 ∧ request.isCompleted = true := by
  rw [updateStatus] at approved
  split at approved
  · cases approved
  · next unexpired =>
      split at approved
      · cases approved
      · next accepted =>
          split at approved
          · next completed => exact ⟨by simpa using unexpired, by simpa using accepted, completed⟩
          · exact absurd approved before

/-- A request that is approved on track has the approvals its level asks for. -/
theorem entitled_of_approved (onTrack : decided.OnTrack) (sound : decided.Sound start)
    (accepted : decided.rejectedCount = 0) (completed : decided.isCompleted = true)
    (some : 1 ≤ decided.approvedCount)
    (last : ∀ levels, decided.level = .sequential levels →
      levels.length ≤ decided.approvedCount → decided.approvedCount = decided.approverIds.length) :
    decided.Entitled := by
  refine ⟨sound.nodup_approvers, onTrack.listed, ?_⟩
  have length := sound.length_approvers
  rw [LevelMet]
  rw [isCompleted] at completed
  split
  · rw [length]
    exact some
  · next levels sequential =>
      rw [sequential] at completed
      have enough : levels.length ≤ decided.approvedCount := by simpa [accepted] using completed
      rw [onTrack.turns levels sequential, last levels sequential enough, List.take_length]
  · next required parallel =>
      rw [parallel] at completed
      rw [length]
      simpa [accepted] using completed
  · next conditions conditional =>
      rw [conditional] at completed
      rw [length]
      simpa [accepted] using completed

end ApprovalRequest

namespace Entitling

variable {manager manager' : ApprovalManager} {start now : Nat} {id : String}
  {request request' : ApprovalRequest}

theorem mono (entitling : Entitling manager start) (later : start ≤ now) :
    Entitling manager now := by
  refine ⟨?_, entitling.settled⟩
  intro id request found
  obtain ⟨status, track⟩ := entitling.waiting id request found
  exact ⟨status, track.imp_right fun expired => expired.trans_le later⟩

theorem insert (entitling : Entitling manager now) (status : request.status ≠ .approved)
    (track : request.OnTrack ∨ request.expiresAt < now) (index : String → Option (List String)) :
    Entitling { manager with
      pending := manager.pending.insert id request, userRequests := index } now := by
  refine ⟨?_, entitling.settled⟩
  intro other candidate found
  rw [HashMap.lookup_insert_ite] at found
  split at found
  · cases found
    exact ⟨status, track⟩
  · exact entitling.waiting other candidate found

theorem settle (entitling : Entitling manager now)
    (entitled : request.status = .approved → request.Entitled)
    (index : String → Option (List String)) :
    Entitling { manager.settle id request with userRequests := index } now := by
  refine ⟨?_, ?_⟩
  · intro other candidate found
    simp only [ApprovalManager.settle, HashMap.lookup_erase_ite,
      Option.ite_none_left_eq_some] at found
    exact entitling.waiting other candidate found.2
  · intro other candidate found
    simp only [ApprovalManager.settle, HashMap.lookup_insert_ite] at found
    split at found
    · cases found
      exact entitled
    · exact entitling.settled other candidate found

theorem timeOuts (entitling : Entitling manager now) (ids : List String) :
    Entitling (ids.foldl ApprovalManager.timeOut manager) now := by
  induction ids generalizing manager with
  | nil => exact entitling
  | cons id ids ih =>
    apply ih
    rw [ApprovalManager.timeOut]
    split
    · exact entitling.settle (by simp) manager.userRequests
    · exact entitling

/-- An approval that is recorded in time is entitled, and the request stays on track. -/
theorem onTrack_of_unexpired {s : Store} {user : String} {comment : Option String}
    {decidedAt now finish : Nat} {decided : ApprovalRequest}
    (entitling : Entitling s.manager s.now)
    (entitled : (Operation.approve id user comment decidedAt now).Entitled s)
    (within : (Operation.approve id user comment decidedAt now).Within s.now finish)
    (found : s.manager.pending.lookup id = some request) (allowed : request.canApprove = true)
    (added : request.addDecision ⟨user, true, comment, decidedAt⟩ = .ok decided)
    (unexpired : decided.isExpired now = false) :
    request.MayApprove user ∧ decided.OnTrack := by
  obtain ⟨undecided, -, -, -, -, expiry, -⟩ := ApprovalRequest.addDecision_ok added
  have inTime : now ≤ request.expiresAt := by
    simpa [ApprovalRequest.isExpired, expiry] using unexpired
  have may : request.MayApprove user := by
    refine entitled request found allowed undecided ?_
    simpa [ApprovalRequest.isExpired] using inTime
  have onTrack : request.OnTrack := by
    refine (entitling.waiting id request found).2.resolve_right ?_
    obtain ⟨early, ordered, -⟩ := within
    omega
  exact ⟨may, onTrack.addDecision may rfl added⟩

theorem not_approved_of_added {decision : ApprovalDecision} {decided : ApprovalRequest}
    (entitling : Entitling manager now) (found : manager.pending.lookup id = some request)
    (added : request.addDecision decision = .ok decided) : decided.status ≠ .approved := by
  obtain ⟨-, -, -, -, -, -, -, status⟩ := ApprovalRequest.addDecision_ok added
  rw [status]
  exact (entitling.waiting id request found).1

theorem effect {operation : Operation} {s : Store} {finish : Nat}
    (entitling : Entitling s.manager s.now) (consistent : s.manager.Consistent s.now)
    (entitled : operation.Entitled s) (within : operation.Within s.now finish)
    (effect : Effect s.manager operation manager') : Entitling manager' finish := by
  have later := entitling.mono within.le
  cases effect with
  | unchanged => exact later
  | create =>
    refine later.insert (by simp [ApprovalRequest.new]) (.inl ⟨?_, ?_⟩) _
    · simp [ApprovalRequest.approvers, ApprovalRequest.new]
    · simp [ApprovalRequest.approvers, ApprovalRequest.new]
  | @decide _ _ _ _ now request decided found allowed added incomplete =>
    refine later.insert ?_ ?_ s.manager.userRequests
    · intro approved
      rw [ApprovalRequest.isCompleted_updateStatus] at incomplete
      have completed := (ApprovalRequest.of_updateStatus_approved approved
        (entitling.not_approved_of_added found added)).2.2
      rw [incomplete] at completed
      cases completed
    · obtain ⟨status, same⟩ := ApprovalRequest.updateStatus_eq decided now
      rw [same]
      cases expired : decided.isExpired now with
      | true =>
        have passed : decided.expiresAt < now := by
          simpa [ApprovalRequest.isExpired] using expired
        exact .inr (passed.trans_le within.2.2)
      | false =>
        have kept := onTrack_of_unexpired entitling entitled within found allowed added expired
        exact .inl (kept.2.withStatus status)
  | @complete _ _ _ _ now request decided found allowed added completed =>
    refine later.settle ?_ _
    intro approved
    obtain ⟨unexpired, accepted, completed⟩ :=
      ApprovalRequest.of_updateStatus_approved approved
        (entitling.not_approved_of_added found added)
    obtain ⟨may, onTrack⟩ :=
      onTrack_of_unexpired entitling entitled within found allowed added unexpired
    obtain ⟨-, -, approvals, -, level, -⟩ := ApprovalRequest.addDecision_ok added
    rw [if_pos rfl] at approvals
    have sound := (consistent.waiting _ _ found).addDecision within.1 added
    obtain ⟨status, same⟩ := ApprovalRequest.updateStatus_eq decided now
    rw [same]
    apply ApprovalRequest.Entitled.withStatus
    refine ApprovalRequest.entitled_of_approved onTrack sound accepted completed (by omega) ?_
    intro levels sequential enough
    obtain ⟨-, turn⟩ := may
    rw [level] at sequential
    rw [sequential] at turn
    rw [ApprovalRequest.approverIds_addDecision added, approvals]
    rw [approvals] at enough
    exact turn.2 enough
  | @reject _ _ _ _ now request decided found added =>
    refine later.settle ?_ _
    intro approved
    obtain ⟨-, accepted, -⟩ := ApprovalRequest.of_updateStatus_approved approved
      (entitling.not_approved_of_added found added)
    obtain ⟨-, -, -, rejections, -⟩ := ApprovalRequest.addDecision_ok added
    rw [rejections] at accepted
    cases accepted
  | cancel found => exact later.settle (by simp) s.manager.userRequests
  | cleanup order clock => exact later.timeOuts _
  | expire found waiting =>
    obtain ⟨-, track⟩ := later.waiting _ _ found
    refine later.insert ?_ ?_ s.manager.userRequests
    · simp
    · exact track.imp_left fun onTrack => onTrack.withStatus _

end Entitling

theorem entitling_of_reachable {ruleEngine : ApprovalRuleEngine} {s : Store}
    (reached : ((store ruleEngine).restrict fun s operation => operation.Entitled s).Reachable s) :
    Entitling s.manager s.now := by
  have both : Entitling s.manager s.now ∧ s.manager.Consistent s.now := by
    refine reached.invariant
      (P := fun s => Entitling s.manager s.now ∧ s.manager.Consistent s.now) ?_ ?_
    · intro s start
      have consistent := consistent_of_reachable (System.Reachable.init start)
      obtain ⟨manager, now⟩ := s
      obtain rfl : manager = .new ruleEngine := start
      exact ⟨⟨by simp [new], by simp [new]⟩, consistent⟩
    · rintro s operation t ⟨entitling, consistent⟩ ⟨entitled, fits, within, same⟩
      have effect := (perform_effect s.manager operation).1
      rw [same]
      exact ⟨entitling.effect consistent entitled within effect,
        consistent.effect fits within effect⟩
  exact both.1

/-- An approved request was approved by users of its list, as its level demands. -/
theorem approved_by_entitled {ruleEngine : ApprovalRuleEngine} {s : Store}
    (reached : ((store ruleEngine).restrict fun s operation => operation.Entitled s).Reachable s)
    {id : String} {request : ApprovalRequest} (found : s.manager.getRequest id = some request)
    (approved : request.status = .approved) : request.Entitled := by
  have entitling := entitling_of_reachable reached
  obtain waiting | ⟨-, settled⟩ := Option.or_eq_some_iff.mp found
  · exact absurd approved (entitling.waiting id request waiting).1
  · exact entitling.settled id request settled approved

theorem approved_by_entitled_sample :
    ∃ request, approved.manager.getRequest "request-1" = some request ∧
      request.status = .approved ∧ request.approvers = ["admin-001"] ∧ request.Entitled := by
  have waiting : created.manager.pending.lookup "request-1" =
      some (ApprovalRequest.new "request-1" "deploy" "user-001" .single [sampleApprover] 10) := by
    rfl
  have entitled : sampleApprove.Entitled created := by
    intro request found _ _ _
    cases waiting.symm.trans found
    exact ⟨by decide, trivial⟩
  have began : ((store .new).restrict fun s operation => operation.Entitled s).Reachable
      ⟨.new .new, 0⟩ := .init rfl
  have stored : ((store .new).restrict fun s operation => operation.Entitled s).Step
      ⟨.new .new, 0⟩ sampleCreate created :=
    ⟨trivial, ⟨Finmap.notMem_empty, Finmap.notMem_empty⟩, ⟨by decide, by decide⟩, rfl⟩
  have decided : ((store .new).restrict fun s operation => operation.Entitled s).Step
      created sampleApprove approved :=
    ⟨entitled, trivial, ⟨by decide, by decide, by decide⟩, rfl⟩
  have shown : (approved.manager.getRequest "request-1").map
      (fun request => (request.status, request.approvers)) = some (.approved, ["admin-001"]) := by
    decide
  obtain ⟨request, found, fields⟩ := Option.map_eq_some_iff.mp shown
  obtain ⟨status, approvers⟩ := Prod.mk.inj fields
  exact ⟨request, found, status, approvers,
    approved_by_entitled ((began.step stored).step decided) found status⟩

/-- The requester, who is not on the list, approves the own request. -/
theorem approved_by_outsider :
    ∃ s : Store, (store .new).Reachable s ∧ ∃ request,
      s.manager.getRequest "request-1" = some request ∧ request.status = .approved ∧
      request.approverIds = ["admin-001"] ∧ request.approvers = ["user-001"] := by
  let outsider : Operation := .approve "request-1" "user-001" none 20 20
  have decided : (store .new).Step created outsider ⟨(created.manager.perform outsider).1, 20⟩ :=
    ⟨trivial, ⟨by decide, by decide, by decide⟩, rfl⟩
  have shown : ((created.manager.perform outsider).1.getRequest "request-1").map
      (fun request => (request.status, request.approverIds, request.approvers)) =
      some (.approved, ["admin-001"], ["user-001"]) := by
    decide
  obtain ⟨request, found, fields⟩ := Option.map_eq_some_iff.mp shown
  obtain ⟨status, listed, approvers⟩ := by simpa only [Prod.mk.injEq] using fields
  exact ⟨_, created_reachable.step decided, request, found, status, listed, approvers⟩

end UHorse.Security
