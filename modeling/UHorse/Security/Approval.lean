import UHorse.Lib.System
import UHorse.Protocol.Types

/-!
# The approval manager

Requests wait in `pending`, move to `history` once they are decided, and are
indexed by the users who are asked to approve. An operation takes the locks of
the three maps one after the other; here it runs without interruption and is one
function on the whole manager. The clock and fresh ids are arguments.

`Operation` collects the operations together with the task that each stored
request starts for its expiry, and `store` is the system of all their sequences
under a clock that does not go back.
-/

namespace UHorse.Security

open UHorse.Lib UHorse.Protocol

inductive UHorseError
  | internalError (message : String)
deriving DecidableEq

inductive ApprovalStatus
  | pending
  | approved
  | rejected
  | cancelled
  | timedOut
deriving DecidableEq, Repr

structure ApprovalCondition where
  conditionType : String
  threshold : Json
  requiredApprovers : List String

inductive ApprovalLevel
  | single
  | sequential (levels : List String)
  | parallel (required : Nat)
  | conditional (conditions : List ApprovalCondition)

structure Approver where
  userId : String
  name : String
  role : String

structure ApprovalDecision where
  approverId : String
  approved : Bool
  comment : Option String
  decidedAt : Nat

structure ApprovalRequest where
  id : String
  action : String
  requestedBy : String
  level : ApprovalLevel
  status : ApprovalStatus
  createdAt : Nat
  expiresAt : Nat
  decisions : List ApprovalDecision
  requiredApprovers : List Approver
  approvedCount : Nat
  rejectedCount : Nat
  metadata : Json

namespace ApprovalRequest

/-- Requests expire after a day. -/
def new (id action requestedBy : String) (level : ApprovalLevel)
    (requiredApprovers : List Approver) (now : Nat) : ApprovalRequest where
  id := id
  action := action
  requestedBy := requestedBy
  level := level
  status := .pending
  createdAt := now
  expiresAt := now + 86400
  decisions := []
  requiredApprovers := requiredApprovers
  approvedCount := 0
  rejectedCount := 0
  metadata := .object []

def approverIds (request : ApprovalRequest) : List String :=
  request.requiredApprovers.map Approver.userId

def isExpired (request : ApprovalRequest) (now : Nat) : Bool := now > request.expiresAt

def hasDecided (request : ApprovalRequest) (user : String) : Bool :=
  request.decisions.any fun decision => decision.approverId = user

def addDecision (request : ApprovalRequest) (decision : ApprovalDecision) :
    Except UHorseError ApprovalRequest :=
  if request.hasDecided decision.approverId then
    .error (.internalError "Approver has already decided")
  else
    let request := { request with decisions := request.decisions ++ [decision] }
    if decision.approved then
      .ok { request with approvedCount := request.approvedCount + 1 }
    else .ok { request with rejectedCount := request.rejectedCount + 1 }

def canApprove (request : ApprovalRequest) : Bool :=
  match request.level with
  | .single => request.approvedCount = 0
  | .sequential _ => true
  | .parallel required => request.approvedCount < required
  | .conditional _ => true

def isCompleted (request : ApprovalRequest) : Bool :=
  match request.level with
  | .single => request.approvedCount ≥ 1 || request.rejectedCount ≥ 1
  | .sequential levels => request.approvedCount ≥ levels.length || request.rejectedCount ≥ 1
  | .parallel required => request.approvedCount ≥ required || request.rejectedCount ≥ 1
  | .conditional conditions =>
    request.rejectedCount ≥ 1 || request.approvedCount ≥ conditions.length

def updateStatus (request : ApprovalRequest) (now : Nat) : ApprovalRequest :=
  if request.isExpired now then { request with status := .timedOut }
  else if request.rejectedCount > 0 then { request with status := .rejected }
  else if request.isCompleted then { request with status := .approved }
  else request

end ApprovalRequest

structure ApprovalRule where
  ruleName : String
  condition : Json
  action : String

structure ApprovalRuleEngine where
  autoApproveRules : List ApprovalRule
  autoRejectRules : List ApprovalRule

namespace ApprovalRuleEngine

def new : ApprovalRuleEngine := ⟨[], []⟩

/-- The metadata contains every field of the condition. -/
def matchesCondition (condition metadata : Json) : Bool :=
  match condition with
  | .object fields => fields.all fun field => metadata.get field.1 = some field.2
  | _ => false

def evaluateAutoApprove (engine : ApprovalRuleEngine) (metadata : Json) : Bool :=
  engine.autoApproveRules.any fun rule => matchesCondition rule.condition metadata

def evaluateAutoReject (engine : ApprovalRuleEngine) (metadata : Json) : Bool :=
  engine.autoRejectRules.any fun rule => matchesCondition rule.condition metadata

end ApprovalRuleEngine

/-- `userRequests` has an entry for every user who was ever asked. -/
structure ApprovalManager where
  pending : HashMap String ApprovalRequest
  history : HashMap String ApprovalRequest
  ruleEngine : ApprovalRuleEngine
  userRequests : String → Option (List String)

namespace ApprovalManager

def new (ruleEngine : ApprovalRuleEngine) : ApprovalManager where
  pending := ∅
  history := ∅
  ruleEngine := ruleEngine
  userRequests := fun _ => none

/-- `entry(user).or_insert_with(Vec::new).push(id)` for each user. -/
def indexRequest (index : String → Option (List String)) (id : String) (users : List String) :
    String → Option (List String) :=
  users.foldl
    (fun index user => Function.update index user (some ((index user).getD [] ++ [id]))) index

def forgetRequest (index : String → Option (List String)) (id : String) :
    String → Option (List String) :=
  fun user => (index user).map fun ids => ids.filter (· ≠ id)

/-- Store a new request and ask its approvers. -/
def storeRequest (manager : ApprovalManager) (request : ApprovalRequest) : ApprovalManager :=
  { manager with
    pending := manager.pending.insert request.id request
    userRequests := indexRequest manager.userRequests request.id request.approverIds }

/-- Move a request out of `pending` into `history`. -/
def settle (manager : ApprovalManager) (id : String) (request : ApprovalRequest) :
    ApprovalManager :=
  { manager with
    pending := manager.pending.erase id
    history := manager.history.insert id request }

/-- As `settle`, and no user is asked any more. -/
def settleAndForget (manager : ApprovalManager) (id : String) (request : ApprovalRequest) :
    ApprovalManager :=
  { manager.settle id request with userRequests := forgetRequest manager.userRequests id }

/-- `create_request` with the id `id`; it cannot fail. -/
def createRequest (manager : ApprovalManager) (action requestedBy : String) (level : ApprovalLevel)
    (requiredApprovers : List Approver) (metadata : Json) (id : String) (now : Nat) :
    ApprovalManager × ApprovalRequest :=
  let request := ApprovalRequest.new id action requestedBy level requiredApprovers now
  if manager.ruleEngine.evaluateAutoApprove metadata then
    (manager, { request with status := .approved, approvedCount := 1 })
  else if manager.ruleEngine.evaluateAutoReject metadata then
    (manager, { request with status := .rejected, rejectedCount := 1 })
  else
    let request := { request with metadata := metadata }
    (manager.storeRequest request, request)

def notFound : UHorseError := .internalError "Request not found"

/-- `approve_request`: the decision is dated at `decidedAt` and its effect on the status
is computed at `now`. -/
def approveRequest (manager : ApprovalManager) (id approverId : String) (comment : Option String)
    (decidedAt now : Nat) : ApprovalManager × Except UHorseError ApprovalRequest :=
  match manager.pending.lookup id with
  | none => (manager, .error notFound)
  | some request =>
    if request.canApprove then
      match request.addDecision ⟨approverId, true, comment, decidedAt⟩ with
      | .error error => (manager, .error error)
      | .ok decided =>
        let updated := decided.updateStatus now
        if updated.isCompleted then (manager.settleAndForget id updated, .ok updated)
        else ({ manager with pending := manager.pending.insert id updated }, .ok updated)
    else (manager, .error (.internalError "Cannot approve at this stage"))

def rejectRequest (manager : ApprovalManager) (id approverId : String) (comment : Option String)
    (decidedAt now : Nat) : ApprovalManager × Except UHorseError ApprovalRequest :=
  match manager.pending.lookup id with
  | none => (manager, .error notFound)
  | some request =>
    match request.addDecision ⟨approverId, false, comment, decidedAt⟩ with
    | .error error => (manager, .error error)
    | .ok decided =>
      let updated := decided.updateStatus now
      (manager.settleAndForget id updated, .ok updated)

def cancelRequest (manager : ApprovalManager) (id : String) : ApprovalManager × Bool :=
  match manager.pending.lookup id with
  | some request => (manager.settle id { request with status := .cancelled }, true)
  | none => (manager, false)

/-- The loop body of `cleanup_expired`. -/
def timeOut (manager : ApprovalManager) (id : String) : ApprovalManager :=
  match manager.pending.lookup id with
  | some request => manager.settle id { request with status := .timedOut }
  | none => manager

/-- The ids `cleanup_expired` collects: `order` is the order the map iterates in and
`clock` the reading of the clock for each request. -/
def expiredIds (order : List (String × ApprovalRequest)) (clock : String → Nat) : List String :=
  (order.filter fun entry => entry.2.isExpired (clock entry.1)).map Prod.fst

def cleanupExpired (manager : ApprovalManager) (order : List (String × ApprovalRequest))
    (clock : String → Nat) : ApprovalManager × Nat :=
  let expired := expiredIds order clock
  (expired.foldl timeOut manager, expired.length)

/-- What the expiry task of a request does before it asks for the lock that it holds. -/
def expireRequest (manager : ApprovalManager) (id : String) : ApprovalManager :=
  match manager.pending.lookup id with
  | some request =>
    if request.status = .pending then
      { manager with pending := manager.pending.insert id { request with status := .timedOut } }
    else manager
  | none => manager

def getUserPendingRequests (manager : ApprovalManager) (user : String) : List ApprovalRequest :=
  ((manager.userRequests user).getD []).filterMap manager.pending.lookup

def getRequest (manager : ApprovalManager) (id : String) : Option ApprovalRequest :=
  (manager.pending.lookup id).or (manager.history.lookup id)

def listPending (order : List (String × ApprovalRequest)) : List ApprovalRequest :=
  order.map Prod.snd

end ApprovalManager

/-! ## Sequences of operations -/

/-- The operations that change the maps, with the ids, the readings of the clock and the
iteration order they get from outside. -/
inductive Operation
  | create (action requestedBy : String) (level : ApprovalLevel)
      (requiredApprovers : List Approver) (metadata : Json) (id : String) (now : Nat)
  | approve (id approverId : String) (comment : Option String) (decidedAt now : Nat)
  | reject (id approverId : String) (comment : Option String) (decidedAt now : Nat)
  | cancel (id : String)
  | cleanup (order : List (String × ApprovalRequest)) (clock : String → Nat)
  | expire (id : String)

def failure {α : Type} : Except UHorseError α → Option UHorseError
  | .ok _ => none
  | .error error => some error

/-- The manager after an operation, and the error it returned. -/
def ApprovalManager.perform (manager : ApprovalManager) :
    Operation → ApprovalManager × Option UHorseError
  | .create action requestedBy level requiredApprovers metadata id now =>
    ((manager.createRequest action requestedBy level requiredApprovers metadata id now).1, none)
  | .approve id approverId comment decidedAt now =>
    let outcome := manager.approveRequest id approverId comment decidedAt now
    (outcome.1, failure outcome.2)
  | .reject id approverId comment decidedAt now =>
    let outcome := manager.rejectRequest id approverId comment decidedAt now
    (outcome.1, failure outcome.2)
  | .cancel id => ((manager.cancelRequest id).1, none)
  | .cleanup order clock => ((manager.cleanupExpired order clock).1, none)
  | .expire id => (manager.expireRequest id, none)

/-- New ids are fresh, and iteration sees every pending request. -/
def Operation.Fits (manager : ApprovalManager) : Operation → Prop
  | .create _ _ _ _ _ id _ => id ∉ manager.pending ∧ id ∉ manager.history
  | .cleanup order _ => manager.pending.Lists order
  | _ => True

/-- The readings of the clock lie between two moments, in the order they are taken. -/
def Operation.Within (start finish : Nat) : Operation → Prop
  | .create _ _ _ _ _ _ now => start ≤ now ∧ now ≤ finish
  | .approve _ _ _ decidedAt now => start ≤ decidedAt ∧ decidedAt ≤ now ∧ now ≤ finish
  | .reject _ _ _ decidedAt now => start ≤ decidedAt ∧ decidedAt ≤ now ∧ now ≤ finish
  | .cleanup order clock =>
    start ≤ finish ∧ ∀ entry ∈ order, start ≤ clock entry.1 ∧ clock entry.1 ≤ finish
  | _ => start ≤ finish

/-- The manager and the latest reading of the clock. -/
structure Store where
  manager : ApprovalManager
  now : Nat

def store (ruleEngine : ApprovalRuleEngine) : System Store Operation where
  Init s := s.manager = .new ruleEngine
  Step s operation t :=
    operation.Fits s.manager ∧ operation.Within s.now t.now ∧
      t.manager = (s.manager.perform operation).1

/-! ## What an operation can do -/

/-- Every outcome of an operation, with what it found and what it changed. -/
inductive Effect (manager : ApprovalManager) : Operation → ApprovalManager → Prop
  | unchanged (operation : Operation) : Effect manager operation manager
  | create {action requestedBy : String} {level : ApprovalLevel}
      {requiredApprovers : List Approver} {metadata : Json} {id : String} {now : Nat} :
      Effect manager (.create action requestedBy level requiredApprovers metadata id now)
        (manager.storeRequest
          { ApprovalRequest.new id action requestedBy level requiredApprovers now with
            metadata := metadata })
  | decide {id approverId : String} {comment : Option String} {decidedAt now : Nat}
      {request decided : ApprovalRequest} :
      manager.pending.lookup id = some request → request.canApprove = true →
      request.addDecision ⟨approverId, true, comment, decidedAt⟩ = .ok decided →
      (decided.updateStatus now).isCompleted = false →
      Effect manager (.approve id approverId comment decidedAt now)
        { manager with pending := manager.pending.insert id (decided.updateStatus now) }
  | complete {id approverId : String} {comment : Option String} {decidedAt now : Nat}
      {request decided : ApprovalRequest} :
      manager.pending.lookup id = some request → request.canApprove = true →
      request.addDecision ⟨approverId, true, comment, decidedAt⟩ = .ok decided →
      (decided.updateStatus now).isCompleted = true →
      Effect manager (.approve id approverId comment decidedAt now)
        (manager.settleAndForget id (decided.updateStatus now))
  | reject {id approverId : String} {comment : Option String} {decidedAt now : Nat}
      {request decided : ApprovalRequest} :
      manager.pending.lookup id = some request →
      request.addDecision ⟨approverId, false, comment, decidedAt⟩ = .ok decided →
      Effect manager (.reject id approverId comment decidedAt now)
        (manager.settleAndForget id (decided.updateStatus now))
  | cancel {id : String} {request : ApprovalRequest} :
      manager.pending.lookup id = some request →
      Effect manager (.cancel id) (manager.settle id { request with status := .cancelled })
  | cleanup (order : List (String × ApprovalRequest)) (clock : String → Nat) :
      Effect manager (.cleanup order clock)
        ((ApprovalManager.expiredIds order clock).foldl ApprovalManager.timeOut manager)
  | expire {id : String} {request : ApprovalRequest} :
      manager.pending.lookup id = some request → request.status = .pending →
      Effect manager (.expire id)
        { manager with pending := manager.pending.insert id { request with status := .timedOut } }

/-- An operation that fails changes nothing. -/
theorem ApprovalManager.perform_effect (manager : ApprovalManager) (operation : Operation) :
    Effect manager operation (manager.perform operation).1 ∧
      ((manager.perform operation).2.isSome → (manager.perform operation).1 = manager) := by
  cases operation with
  | create action requestedBy level requiredApprovers metadata id now =>
    refine ⟨?_, by simp [perform]⟩
    simp only [perform, createRequest]
    split
    · exact .unchanged _
    · split
      · exact .unchanged _
      · exact .create
  | approve id approverId comment decidedAt now =>
    simp only [perform, approveRequest]
    cases found : manager.pending.lookup id with
    | none => exact ⟨.unchanged _, fun _ => rfl⟩
    | some request =>
      dsimp only
      split
      · next allowed =>
          cases added : request.addDecision ⟨approverId, true, comment, decidedAt⟩ with
          | error error => exact ⟨.unchanged _, fun _ => rfl⟩
          | ok decided =>
            dsimp only
            split
            · next completed =>
                exact ⟨.complete found allowed added completed, by simp [failure]⟩
            · next incomplete =>
                refine ⟨.decide found allowed added ?_, by simp [failure]⟩
                simpa using incomplete
      · exact ⟨.unchanged _, fun _ => rfl⟩
  | reject id approverId comment decidedAt now =>
    simp only [perform, rejectRequest]
    cases found : manager.pending.lookup id with
    | none => exact ⟨.unchanged _, fun _ => rfl⟩
    | some request =>
      dsimp only
      cases added : request.addDecision ⟨approverId, false, comment, decidedAt⟩ with
      | error error => exact ⟨.unchanged _, fun _ => rfl⟩
      | ok decided => exact ⟨.reject found added, by simp [failure]⟩
  | cancel id =>
    refine ⟨?_, by simp [perform]⟩
    simp only [perform, cancelRequest]
    cases found : manager.pending.lookup id with
    | none => exact .unchanged _
    | some request => exact .cancel found
  | cleanup order clock => exact ⟨.cleanup order clock, by simp [perform]⟩
  | expire id =>
    refine ⟨?_, by simp [perform]⟩
    simp only [perform, expireRequest]
    cases found : manager.pending.lookup id with
    | none => exact .unchanged _
    | some request =>
      dsimp only
      split
      · next waiting => exact .expire found waiting
      · exact .unchanged _

end UHorse.Security
