import UHorse.Hub.MessageRouter
import UHorse.Lib.Occurrences
import UHorse.Lib.System

/-!
# Deliveries of approval requests

A node may send an approval request again, over its old connection or over a new one,
and each connection handles its messages on its own. The handler looks for the request
id in the idempotency cache, tells the session, creates the approval and only then
records the id; looking records nothing. A `Handling` is one delivery at a point
between these sections.

The log is a ghost: it lists the approvals that were created, with the request ids
they were created for.
-/

namespace UHorse.Hub

open UHorse.Lib UHorse.Protocol
open HubState (approvalRequestTtlSeconds unixSeconds noteApprovalRequest
  approvalOperationForCommand)

/-- An approval request with the node whose connection it came in on. -/
structure ApprovalMessage where
  nodeId : NodeId
  requestId : String
  taskId : TaskId
  command : Command
  context : TaskContext
  reason : String
  timestamp : DateTime
  expiresAt : DateTime

namespace ApprovalMessage

def ttlSeconds (message : ApprovalMessage) : Nat :=
  approvalRequestTtlSeconds message.timestamp message.expiresAt

def metadata (message : ApprovalMessage) : ApprovalMetadata where
  requestId := message.requestId
  taskId := message.taskId
  nodeId := message.nodeId
  commandType := message.command.commandType
  command := message.command
  context := message.context
  reason := message.reason
  requestedAt := message.timestamp
  expiresAt := message.expiresAt

end ApprovalMessage

/-- Where the handling of a delivery is. -/
inductive Handling
  | received (message : ApprovalMessage)
  /-- The id was not in the cache. -/
  | passed (message : ApprovalMessage)
  /-- The session was told. -/
  | asking (message : ApprovalMessage)
  /-- The approval exists, the id is not recorded. -/
  | created (message : ApprovalMessage) (approvalId : String)
  | answered (outcome : Except HubError Unit)

/-- What a section draws from outside: the clock, a fresh approval id and whether the
approval manager creates the request. -/
structure HandlingEnv where
  now : DateTime
  approvalId : String
  creation : Except HubError Unit

def HubState.onSecurity (hub : HubState) (change : SecurityManager → SecurityManager) : HubState :=
  { hub with securityManager := hub.securityManager.map change }

/-- The records of the idempotency cache. -/
def HubState.record (hub : HubState) (requestId : String) : Option IdempotencyRecord :=
  hub.securityManager.bind fun manager => manager.records requestId

/-- The next section of a handling, with the approval it creates. -/
def Handling.advance (env : HandlingEnv) (hub : HubState) :
    Handling → HubState × Handling × List (String × String)
  | .received message =>
    match hub.securityManager with
    | none =>
      (hub, .answered (.error (.permission "Approval request requires security manager")), [])
    | some manager =>
      let checked := manager.checkIdempotency message.requestId (unixSeconds env.now)
      ({ hub with securityManager := some checked.2 },
        if checked.1 then .answered (.ok ()) else .passed message, [])
  | .passed message =>
    ({ hub with
        sessionRuntime := noteApprovalRequest hub.sessionRuntime message.taskId
          message.requestId message.reason env.now },
      .asking message, [])
  | .asking message =>
    match env.creation with
    | .error error => (hub, .answered (.error error), [])
    | .ok _ =>
      (hub.onSecurity fun manager =>
          manager.requestApproval message.nodeId (approvalOperationForCommand message.command)
            message.metadata env.approvalId (unixSeconds env.now),
        .created message env.approvalId, [(message.requestId, env.approvalId)])
  | .created message approvalId =>
    (hub.onSecurity fun manager =>
        manager.storeIdempotencyResponse message.requestId approvalId message.ttlSeconds
          (unixSeconds env.now),
      .answered (.ok ()), [])
  | .answered outcome => (hub, .answered outcome, [])

def Handling.finished : Handling → Bool
  | .answered _ => true
  | _ => false

structure Deliveries where
  hub : HubState
  handlings : List Handling
  log : List (String × String)

inductive DeliveryLabel
  | deliver (message : ApprovalMessage)
  | advance (index : Nat) (env : HandlingEnv)
  | background (hub : HubState)

namespace Deliveries

/-- One section of the handling at `index`. -/
def run (s : Deliveries) (index : Nat) (handling : Handling) (env : HandlingEnv) : Deliveries where
  hub := (handling.advance env s.hub).1
  handlings := s.handlings.set index (handling.advance env s.hub).2.1
  log := s.log ++ (handling.advance env s.hub).2.2

/-- A delivery arrives, a handling runs one section, or something else changes the Hub. Only
the handlings use the idempotency cache, and a Hub has a security manager or has none. -/
inductive Step : Deliveries → DeliveryLabel → Deliveries → Prop
  | deliver (s : Deliveries) (message : ApprovalMessage) :
      Step s (.deliver message) { s with handlings := s.handlings ++ [.received message] }
  | advance (s : Deliveries) (index : Nat) (handling : Handling) (env : HandlingEnv)
      (here : s.handlings[index]? = some handling) (unfinished : handling.finished = false) :
      Step s (.advance index env) (s.run index handling env)
  | background (s : Deliveries) (hub : HubState) (records : hub.record = s.hub.record)
      (secured : hub.securityManager = none ↔ s.hub.securityManager = none) :
      Step s (.background hub) { s with hub }

def system : System Deliveries DeliveryLabel where
  Init s := s.handlings = [] ∧ s.log = [] ∧ ∀ requestId, s.hub.record requestId = none
  Step := Step

end Deliveries

/-! ## How a handling counts -/

/-- The handling has passed the check for the id and has not created anything yet. -/
def Handling.before (requestId : String) : Handling → Bool
  | .passed message | .asking message => message.requestId = requestId
  | _ => false

/-- The handling has created the approval and not recorded the id yet. -/
def Handling.after (requestId : String) : Handling → Bool
  | .created message _ => message.requestId = requestId
  | _ => false

namespace Deliveries

/-- How many approvals were created for a request id. -/
def creations (s : Deliveries) (requestId : String) : Nat :=
  s.log.countP fun entry => entry.1 = requestId

/-- The record of the id has not expired when anybody looks into the cache. -/
def InTime (requestId : String) (s : Deliveries) : DeliveryLabel → Prop
  | .advance index env => ∀ message, s.handlings[index]? = some (.received message) →
      ∀ record, s.hub.record requestId = some record → unixSeconds env.now < record.expiresAt
  | _ => True

/-- Nobody looks for the id while another delivery of it is between its look and its record. -/
def Alone (requestId : String) (s : Deliveries) : DeliveryLabel → Prop
  | .advance index _ => ∀ message, s.handlings[index]? = some (.received message) →
      message.requestId = requestId →
      ∀ other ∈ s.handlings, other.before requestId = false ∧ other.after requestId = false
  | _ => True

/-! ## What a section does to the records -/

section Sections

variable {s t : Deliveries} {requestId : String} {index : Nat} {handling : Handling}
  {env : HandlingEnv}

theorem record_onSecurity_of_same {hub : HubState} {change : SecurityManager → SecurityManager}
    (same : ∀ manager, (change manager).records requestId = manager.records requestId) :
    (hub.onSecurity change).record requestId = hub.record requestId := by
  unfold HubState.record HubState.onSecurity
  cases hub.securityManager with
  | none => rfl
  | some manager => exact same manager

theorem records_requestApproval (manager : SecurityManager) (nodeId : NodeId) (operation : String)
    (metadata : ApprovalMetadata) (id : String) (now : Nat) :
    (manager.requestApproval nodeId operation metadata id now).records = manager.records := by
  rw [SecurityManager.requestApproval]
  split
  · rfl
  · split <;> rfl

/-- Looking removes what has expired and records nothing; it passes an id that is not there. -/
theorem received_spec (hub : HubState) (message : ApprovalMessage) (env : HandlingEnv) :
    ∃ hub' next, (Handling.received message).advance env hub = (hub', next, []) ∧
      (∀ key, hub'.record key =
        (hub.record key).filter fun record => unixSeconds env.now < record.expiresAt) ∧
      ((∃ outcome, next = .answered outcome) ∨ next = .passed message ∧
        hub.securityManager ≠ none ∧ ((hub.record message.requestId).filter fun record =>
          unixSeconds env.now < record.expiresAt) = none) := by
  cases secured : hub.securityManager with
  | none =>
    refine ⟨hub, _, by simp only [Handling.advance, secured]; rfl, ?_, .inl ⟨_, rfl⟩⟩
    intro key
    rw [HubState.record, secured]
    rfl
  | some manager =>
    refine ⟨_, _, by simp only [Handling.advance, secured]; rfl, ?_, ?_⟩
    · intro key
      rw [HubState.record, HubState.record, secured]
      rfl
    · have found : (manager.checkIdempotency message.requestId (unixSeconds env.now)).1 =
          ((hub.record message.requestId).filter fun record =>
            unixSeconds env.now < record.expiresAt).isSome := by
        rw [HubState.record, secured]
        rfl
      rw [found]
      split
      · exact .inl ⟨_, rfl⟩
      · next missing =>
          exact .inr ⟨rfl, by simp, Option.not_isSome_iff_eq_none.mp missing⟩

theorem securityManager_advance (env : HandlingEnv) (hub : HubState) (handling : Handling) :
    (handling.advance env hub).1.securityManager = none ↔ hub.securityManager = none := by
  cases handling with
  | received message =>
    cases secured : hub.securityManager with
    | none =>
      rw [Handling.advance, secured]
      exact iff_of_true secured rfl
    | some manager => simp only [Handling.advance, secured, reduceCtorEq]
  | passed message => rfl
  | asking message =>
    cases answer : env.creation <;>
      simp [Handling.advance, answer, HubState.onSecurity, Option.map_eq_none_iff]
  | created message approvalId =>
    simp [Handling.advance, HubState.onSecurity, Option.map_eq_none_iff]
  | answered outcome => rfl

/-- The record is written in the presence of a security manager. -/
theorem record_stored {hub : HubState} (secured : hub.securityManager ≠ none)
    (message : ApprovalMessage) (approvalId : String) (env : HandlingEnv) :
    ((Handling.created message approvalId).advance env hub).1.record requestId =
      if requestId = message.requestId then
        some ⟨approvalId, unixSeconds env.now + message.ttlSeconds⟩
      else hub.record requestId := by
  obtain ⟨manager, present⟩ := Option.ne_none_iff_exists'.mp secured
  simp only [Handling.advance, HubState.onSecurity, HubState.record, present, Option.map_some,
    Option.bind_some, SecurityManager.storeIdempotencyResponse, Function.update_apply]

end Sections

/-! ## At most one creation -/

/-- How many deliveries of the id are past their look, and how many of them have created. -/
def waiting (s : Deliveries) (requestId : String) : Nat :=
  s.handlings.countP (Handling.before requestId)

def unrecorded (s : Deliveries) (requestId : String) : Nat :=
  s.handlings.countP (Handling.after requestId)

def recorded (s : Deliveries) (requestId : String) : Nat :=
  (s.hub.record requestId).isSome.toNat

/-- Every creation is recorded or about to be, and only one delivery gets that far. -/
structure Single (requestId : String) (s : Deliveries) : Prop where
  accounted : s.creations requestId = s.unrecorded requestId + s.recorded requestId
  exclusive : s.waiting requestId + s.unrecorded requestId + s.recorded requestId ≤ 1
  secured : s.hub.securityManager = none → s.waiting requestId = 0 ∧ s.unrecorded requestId = 0

section Single

variable {s : Deliveries} {requestId : String} {index : Nat} {handling : Handling}
  {env : HandlingEnv}

theorem waiting_run (requestId : String) (env : HandlingEnv)
    (here : s.handlings[index]? = some handling) :
    (s.run index handling env).waiting requestId + (handling.before requestId).toNat =
      s.waiting requestId + ((handling.advance env s.hub).2.1.before requestId).toNat :=
  countP_set_add _ here _

theorem unrecorded_run (requestId : String) (env : HandlingEnv)
    (here : s.handlings[index]? = some handling) :
    (s.run index handling env).unrecorded requestId + (handling.after requestId).toNat =
      s.unrecorded requestId + ((handling.advance env s.hub).2.1.after requestId).toNat :=
  countP_set_add _ here _

theorem creations_run (s : Deliveries) (requestId : String) (index : Nat) (handling : Handling)
    (env : HandlingEnv) :
    (s.run index handling env).creations requestId = s.creations requestId +
      (handling.advance env s.hub).2.2.countP fun entry => entry.1 = requestId :=
  List.countP_append

theorem recorded_of_record_eq {t : Deliveries}
    (same : t.hub.record requestId = s.hub.record requestId) :
    t.recorded requestId = s.recorded requestId := by
  rw [recorded, same, recorded]

/-- Looking in time leaves the record of the id. -/
theorem filter_of_inTime {message : ApprovalMessage}
    (here : s.handlings[index]? = some (.received message))
    (inTime : InTime requestId s (.advance index env)) :
    (s.hub.record requestId).filter (fun record => unixSeconds env.now < record.expiresAt) =
      s.hub.record requestId := by
  cases found : s.hub.record requestId with
  | none => rfl
  | some record => exact Option.filter_eq_some_iff.mpr ⟨rfl, by simpa using inTime _ here _ found⟩

/-- A delivery of the id that looks alone. -/
theorem waiting_of_alone {message : ApprovalMessage}
    (here : s.handlings[index]? = some (.received message))
    (alone : Alone requestId s (.advance index env)) (same : message.requestId = requestId) :
    s.waiting requestId = 0 ∧ s.unrecorded requestId = 0 := by
  have others := alone message here same
  constructor
  · exact List.countP_eq_zero.mpr fun other member => by simp [(others other member).1]
  · exact List.countP_eq_zero.mpr fun other member => by simp [(others other member).2]

theorem Single.advance (single : Single requestId s)
    (here : s.handlings[index]? = some handling)
    (inTime : InTime requestId s (.advance index env))
    (alone : Alone requestId s (.advance index env)) :
    Single requestId (s.run index handling env) := by
  obtain ⟨accounted, exclusive, secured⟩ := single
  have kept : (s.run index handling env).hub.securityManager = none →
      s.hub.securityManager = none := (securityManager_advance env s.hub handling).mp
  have waiting := waiting_run requestId env here
  have unrecorded := unrecorded_run requestId env here
  have creations := creations_run s requestId index handling env
  cases handling with
  | received message =>
    obtain ⟨hub', next, ran, records, next_eq⟩ := received_spec s.hub message env
    have same : (s.run index (.received message) env).recorded requestId =
        s.recorded requestId := by
      refine recorded_of_record_eq ?_
      rw [Deliveries.run, ran]
      exact (records requestId).trans (filter_of_inTime here inTime)
    rw [ran] at waiting unrecorded creations
    obtain ⟨outcome, rfl⟩ | ⟨rfl, present, missing⟩ := next_eq
    · simp only [Handling.before, Handling.after, Bool.toNat_false, List.countP_nil] at *
      exact ⟨by omega, by omega, fun lost => by have empty := secured (kept lost); omega⟩
    · by_cases own : message.requestId = requestId
      · obtain ⟨nobody, nothing⟩ := waiting_of_alone here alone own
        have absent : s.recorded requestId = 0 := by
          rw [own, filter_of_inTime here inTime] at missing
          rw [recorded, missing]
          rfl
        simp only [Handling.before, Handling.after, own, decide_true, Bool.toNat_false,
          Bool.toNat_true, List.countP_nil] at waiting unrecorded creations
        exact ⟨by omega, by omega, fun lost => absurd (kept lost) present⟩
      · simp only [Handling.before, Handling.after, own, decide_false, Bool.toNat_false,
          List.countP_nil] at waiting unrecorded creations
        exact ⟨by omega, by omega, fun lost => by have empty := secured (kept lost); omega⟩
  | passed message =>
    have same : (s.run index (.passed message) env).recorded requestId =
        s.recorded requestId := recorded_of_record_eq rfl
    simp only [Handling.advance, Handling.before, Handling.after, Bool.toNat_false,
      List.countP_nil] at waiting unrecorded creations
    exact ⟨by omega, by omega, fun lost => by have empty := secured (kept lost); omega⟩
  | asking message =>
    cases answer : env.creation with
    | error error =>
      have same : (s.run index (.asking message) env).recorded requestId =
          s.recorded requestId := by
        refine recorded_of_record_eq ?_
        rw [Deliveries.run, Handling.advance, answer]
      simp only [Handling.advance, answer, Handling.before, Handling.after, Bool.toNat_false,
        List.countP_nil] at waiting unrecorded creations
      exact ⟨by omega, by omega, fun lost => by have empty := secured (kept lost); omega⟩
    | ok _ =>
      have same : (s.run index (.asking message) env).recorded requestId =
          s.recorded requestId := by
        refine recorded_of_record_eq ?_
        rw [Deliveries.run, Handling.advance, answer]
        exact record_onSecurity_of_same fun manager =>
          congrFun (records_requestApproval manager ..) requestId
      simp only [Handling.advance, answer, Handling.before, Handling.after, Bool.toNat_false,
        List.countP_singleton] at waiting unrecorded creations
      by_cases own : message.requestId = requestId
      · simp only [own, decide_true, Bool.toNat_true, if_true] at waiting unrecorded creations
        exact ⟨by omega, by omega, fun lost => by have empty := secured (kept lost); omega⟩
      · simp only [own, decide_false, Bool.toNat_false, Bool.false_eq_true, if_false]
          at waiting unrecorded creations
        exact ⟨by omega, by omega, fun lost => by have empty := secured (kept lost); omega⟩
  | created message approvalId =>
    simp only [Handling.advance, Handling.before, Handling.after, Bool.toNat_false,
      List.countP_nil] at waiting unrecorded creations
    by_cases own : message.requestId = requestId
    · simp only [own, decide_true, Bool.toNat_true] at unrecorded
      have present : s.hub.securityManager ≠ none := by
        intro lost
        have empty := secured lost
        omega
      have stored : (s.run index (.created message approvalId) env).recorded requestId = 1 := by
        rw [recorded, Deliveries.run, record_stored present, if_pos own.symm]
        rfl
      exact ⟨by omega, by omega, fun lost => absurd (kept lost) present⟩
    · have same : (s.run index (.created message approvalId) env).recorded requestId =
          s.recorded requestId := by
        refine recorded_of_record_eq (record_onSecurity_of_same fun manager => ?_)
        exact Function.update_of_ne (Ne.symm own) _ _
      simp only [own, decide_false, Bool.toNat_false] at unrecorded
      exact ⟨by omega, by omega, fun lost => by have empty := secured (kept lost); omega⟩
  | answered outcome =>
    have same : (s.run index (.answered outcome) env).recorded requestId =
        s.recorded requestId := recorded_of_record_eq rfl
    simp only [Handling.advance, Handling.before, Handling.after, Bool.toNat_false,
      List.countP_nil] at waiting unrecorded creations
    exact ⟨by omega, by omega, fun lost => by have empty := secured (kept lost); omega⟩

theorem Single.of_reachable
    (reached : ((system.restrict (InTime requestId)).restrict (Alone requestId)).Reachable s) :
    Single requestId s := by
  refine reached.invariant ?_ ?_
  · rintro t ⟨nobody, nothing, empty⟩
    refine ⟨?_, ?_, fun _ => ?_⟩ <;>
      simp [creations, Deliveries.waiting, Deliveries.unrecorded, recorded, nobody, nothing, empty]
  · rintro t label u single ⟨alone, inTime, step⟩
    cases step with
    | deliver message =>
      obtain ⟨accounted, exclusive, secured⟩ := single
      have before : Deliveries.waiting
          { t with handlings := t.handlings ++ [.received message] } requestId =
            t.waiting requestId := List.countP_append
      have after : Deliveries.unrecorded
          { t with handlings := t.handlings ++ [.received message] } requestId =
            t.unrecorded requestId := List.countP_append
      refine ⟨?_, ?_, ?_⟩
      · rw [after]
        exact accounted
      · rw [before, after]
        exact exclusive
      · rw [before, after]
        exact secured
    | advance index handling env here unfinished => exact single.advance here inTime alone
    | background hub records secured =>
      refine ⟨?_, ?_, fun lost => single.secured (secured.mp lost)⟩
      · rw [recorded_of_record_eq (congrFun records requestId)]
        exact single.accounted
      · rw [recorded_of_record_eq (congrFun records requestId)]
        exact single.exclusive

end Single

/-! ## Trying again -/

/-- An id is in the cache only once its approval was created. -/
structure Backed (s : Deliveries) : Prop where
  records : ∀ requestId, s.hub.record requestId ≠ none → requestId ∈ s.log.map Prod.fst
  created : ∀ message approvalId, Handling.created message approvalId ∈ s.handlings →
    message.requestId ∈ s.log.map Prod.fst

section Backed

variable {s : Deliveries} {requestId : String} {handling : Handling} {env : HandlingEnv}

/-- Only a handling that has created the approval records an id. -/
theorem record_advance {hub : HubState}
    (found : (handling.advance env hub).1.record requestId ≠ none) :
    hub.record requestId ≠ none ∨
      ∃ message approvalId, handling = .created message approvalId ∧
        message.requestId = requestId := by
  cases handling with
  | received message =>
    obtain ⟨hub', next, ran, records, -⟩ := received_spec hub message env
    rw [ran, records] at found
    exact .inl fun missing => found (by rw [missing]; rfl)
  | passed message => exact .inl found
  | asking message =>
    refine .inl ?_
    cases answer : env.creation with
    | error error => simpa only [Handling.advance, answer] using found
    | ok _ =>
      rw [Handling.advance, answer] at found
      rwa [record_onSecurity_of_same fun manager =>
        congrFun (records_requestApproval manager ..) requestId] at found
  | created message approvalId =>
    by_cases own : message.requestId = requestId
    · exact .inr ⟨message, approvalId, rfl, own⟩
    · refine .inl ?_
      rwa [Handling.advance, record_onSecurity_of_same fun manager =>
        Function.update_of_ne (Ne.symm own) _ _] at found
  | answered outcome => exact .inl found

/-- A handling that gets to the record has just created the approval. -/
theorem logged_of_created {hub : HubState} {message : ApprovalMessage} {approvalId : String}
    (unfinished : handling.finished = false)
    (next : (handling.advance env hub).2.1 = .created message approvalId) :
    (message.requestId, approvalId) ∈ (handling.advance env hub).2.2 := by
  cases handling with
  | received sent =>
    obtain ⟨hub', after, ran, -, ⟨outcome, rfl⟩ | ⟨rfl, -⟩⟩ := received_spec hub sent env <;>
      · rw [ran] at next
        cases next
  | passed sent => cases next
  | asking sent =>
    cases answer : env.creation with
    | error error =>
      rw [Handling.advance, answer] at next
      cases next
    | ok _ =>
      rw [Handling.advance, answer] at next ⊢
      cases next
      exact List.mem_singleton_self _
  | created sent id => cases next
  | answered outcome => cases unfinished

theorem Backed.of_reachable (reached : system.Reachable s) : Backed s := by
  refine reached.invariant ?_ ?_
  · rintro t ⟨nobody, nothing, empty⟩
    exact ⟨fun requestId found => absurd (empty requestId) found, by simp [nobody]⟩
  · rintro t label u ⟨records, created⟩ step
    cases step with
    | deliver message => exact ⟨records, by simpa using created⟩
    | background hub same secured => exact ⟨by rwa [same], created⟩
    | advance index handling env here unfinished =>
      have kept : ∀ requestId, requestId ∈ t.log.map Prod.fst →
          requestId ∈ (t.run index handling env).log.map Prod.fst := fun requestId member => by
        rw [run, List.map_append]
        exact List.mem_append_left _ member
      refine ⟨fun requestId found => kept requestId ?_, fun message approvalId member => ?_⟩
      · obtain old | ⟨message, approvalId, rfl, rfl⟩ := record_advance found
        · exact records requestId old
        · exact created message approvalId (List.mem_of_getElem? here)
      · obtain old | new := List.mem_or_eq_of_mem_set member
        · exact kept _ (created message approvalId old)
        · exact List.mem_map_of_mem
            (List.mem_append_right _ (logged_of_created unfinished new.symm))

end Backed

/-- A delivery of an id no approval was created for gets past the look, and the approval is
created when the manager creates it. -/
theorem created_by_delivery {s : Deliveries} (reached : system.Reachable s)
    (secured : s.hub.securityManager ≠ none) (message : ApprovalMessage)
    (never : s.creations message.requestId = 0) (env : HandlingEnv)
    (succeeds : env.creation = .ok ()) :
    ∃ t, system.Exec s
        (.deliver message :: List.replicate 3 (.advance s.handlings.length env)) t ∧
      t.creations message.requestId = 1 := by
  have missing : s.hub.record message.requestId = none := by
    by_contra found
    obtain ⟨entry, member, same⟩ :=
      List.mem_map.mp ((Backed.of_reachable reached).records _ found)
    exact absurd (List.countP_eq_zero.mp never entry member) (by simpa using same)
  obtain ⟨manager, present⟩ := Option.ne_none_iff_exists'.mp secured
  have unseen : (manager.checkIdempotency message.requestId (unixSeconds env.now)).1 = false := by
    have absent : manager.records message.requestId = none := by
      rwa [HubState.record, present] at missing
    simp only [SecurityManager.checkIdempotency, absent, Option.filter_none, Option.isSome_none]
  let delivered : Deliveries := { s with handlings := s.handlings ++ [.received message] }
  have last : ∀ (t : Deliveries) (handling : Handling),
      t.handlings = s.handlings ++ [handling] →
        t.handlings[s.handlings.length]? = some handling := fun t handling same => by
    rw [same, List.getElem?_concat_length]
  have replaced : ∀ (t : Deliveries) (handling : Handling),
      t.handlings = s.handlings ++ [handling] → (t.run s.handlings.length handling env).handlings =
        s.handlings ++ [(handling.advance env t.hub).2.1] := fun t handling same => by
    rw [run, same, List.set_append_right _ _ le_rfl, Nat.sub_self, List.set_cons_zero]
  let looked := delivered.run s.handlings.length (.received message) env
  have looked_handlings : looked.handlings = s.handlings ++ [.passed message] := by
    rw [replaced delivered _ rfl]
    simp only [Handling.advance, delivered, present, unseen, Bool.false_eq_true, if_false]
  have looked_log : looked.log = s.log := by
    simp only [looked, run, Handling.advance, delivered, present, List.append_nil]
  let told := looked.run s.handlings.length (.passed message) env
  have told_handlings : told.handlings = s.handlings ++ [.asking message] :=
    replaced looked _ looked_handlings
  have told_log : told.log = s.log := (List.append_nil _).trans looked_log
  let asked := told.run s.handlings.length (.asking message) env
  have asked_log : asked.log = s.log ++ [(message.requestId, env.approvalId)] := by
    simp only [asked, run, Handling.advance, succeeds, told_log]
  refine ⟨asked, ?_, ?_⟩
  · have begun : system.Exec s [.deliver message] delivered := .single (.deliver s message)
    have first := begun.snoc (.advance delivered _ _ env (last delivered _ rfl) rfl)
    have second := first.snoc (.advance looked _ _ env (last looked _ looked_handlings) rfl)
    exact second.snoc (.advance told _ _ env (last told _ told_handlings) rfl)
  · rw [creations, asked_log, List.countP_append]
    simp only [creations] at never
    simp [never]

/-- No id gets two approvals within its lifetime when its deliveries look one at a time, and
an id without one can always get one. -/
theorem one_approval_per_request (requestId : String) :
    (∀ s, ((system.restrict (InTime requestId)).restrict (Alone requestId)).Reachable s →
      s.creations requestId ≤ 1) ∧
    ∀ s, system.Reachable s → s.hub.securityManager ≠ none → s.creations requestId = 0 →
      ∀ (message : ApprovalMessage) (env : HandlingEnv), message.requestId = requestId →
        env.creation = .ok () → ∃ t, system.Exec s
            (.deliver message :: List.replicate 3 (.advance s.handlings.length env)) t ∧
          t.creations requestId = 1 := by
  constructor
  · intro s reached
    have single := Single.of_reachable reached
    have accounted := single.accounted
    have exclusive := single.exclusive
    omega
  · rintro s reached secured never message env rfl succeeds
    exact created_by_delivery reached secured message never env succeeds

def sampleApproval : ApprovalMessage where
  nodeId := ⟨"node-1"⟩
  requestId := "req-1"
  taskId := ⟨"task-1"⟩
  command := .shell ⟨"sh", ["-c", "printf approved"], none, ∅, .fromSecs 60, true⟩
  context := .new ⟨"user"⟩ ⟨"session"⟩ "dingtalk" 0
  reason := "requires approval"
  timestamp := 0
  expiresAt := seconds 300

def sampleHandlingEnv (approvalId : String) : HandlingEnv := ⟨0, approvalId, .ok ()⟩

/-- A Hub that decides nothing by rule. -/
def sampleDeliveries : Deliveries where
  hub := .new 10 30 3 300 (some (.new (fun _ => false) fun _ => false))
  handlings := []
  log := []

theorem sampleDeliveries_init : system.Init sampleDeliveries :=
  ⟨rfl, rfl, fun _ => rfl⟩

theorem one_approval_per_request_sample : ∃ t,
    system.Exec sampleDeliveries (.deliver sampleApproval ::
      List.replicate 3 (.advance 0 (sampleHandlingEnv "approval-1"))) t ∧
    t.creations "req-1" = 1 :=
  (one_approval_per_request "req-1").2 sampleDeliveries (.init sampleDeliveries_init)
    (by simp [sampleDeliveries, HubState.new]) rfl sampleApproval
    (sampleHandlingEnv "approval-1") rfl rfl

/-- A second delivery looks before the first has recorded the id. -/
theorem two_approvals_for_one_request : ∃ s,
    (system.restrict (InTime "req-1")).Reachable s ∧
    s.log = [("req-1", "approval-1"), ("req-1", "approval-2")] ∧ ¬ s.creations "req-1" ≤ 1 := by
  have section_reachable : ∀ {s : Deliveries}, (system.restrict (InTime "req-1")).Reachable s →
      s.hub.record "req-1" = none → ∀ (index : Nat) (handling : Handling) (approvalId : String),
      s.handlings[index]? = some handling → handling.finished = false →
      (system.restrict (InTime "req-1")).Reachable
        (s.run index handling (sampleHandlingEnv approvalId)) := by
    intro s reached missing index handling approvalId here unfinished
    refine reached.step (a := .advance index (sampleHandlingEnv approvalId)) ⟨?_, ?_⟩
    · intro message looking record found
      rw [missing] at found
      cases found
    · exact .advance s index handling _ here unfinished
  have start : (system.restrict (InTime "req-1")).Reachable sampleDeliveries :=
    .init sampleDeliveries_init
  have delivered_reachable : ∀ {s : Deliveries}, (system.restrict (InTime "req-1")).Reachable s →
      (system.restrict (InTime "req-1")).Reachable
        { s with handlings := s.handlings ++ [.received sampleApproval] } := by
    intro s reached
    refine reached.step (a := .deliver sampleApproval) ⟨?_, ?_⟩
    · exact trivial
    · exact .deliver s sampleApproval
  have second := delivered_reachable (delivered_reachable start)
  have looked := section_reachable second rfl 0 (.received sampleApproval) "approval-1" rfl rfl
  have both := section_reachable looked rfl 1 (.received sampleApproval) "approval-2" rfl rfl
  have told := section_reachable both rfl 0 (.passed sampleApproval) "approval-1" rfl rfl
  have all := section_reachable told rfl 1 (.passed sampleApproval) "approval-2" rfl rfl
  have one := section_reachable all rfl 0 (.asking sampleApproval) "approval-1" rfl rfl
  have two := section_reachable one rfl 1 (.asking sampleApproval) "approval-2" rfl rfl
  exact ⟨_, two, rfl, by decide⟩

end Deliveries
end UHorse.Hub
