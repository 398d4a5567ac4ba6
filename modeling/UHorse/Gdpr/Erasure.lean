import UHorse.Lib.HashMap
import UHorse.Lib.System

/-!
# Erasure of personal data

An erasure request is created as pending. Its execution asks every registered handler to erase
the data and then every handler to verify that it is gone; what the handlers answer is arbitrary.
The manager holds the lock of the requests during the whole execution, so calls follow one another.

A book keeps the manager together with the executions of its requests. `erasure_complete_iff` says
in which histories of calls a request that is reported as complete is complete.
-/

namespace UHorse.Gdpr

open UHorse.Lib

/-! ## The erasure manager -/

structure Uuid where
  value : BitVec 128
deriving DecidableEq

inductive GdprError
  | userNotFound (message : String)
  | consentNotGranted (message : String)
  | exportFailed (message : String)
  | erasureFailed (message : String)
  | verificationFailed (message : String)
  | storageError (message : String)
deriving DecidableEq

inductive ErasureType
  | fullErasure
  | partialErasure
  | anonymization
  | softDelete
deriving DecidableEq

inductive ErasureStatus
  | pending
  | verifying
  | processing
  | completed
  | failed
  | rejected
deriving DecidableEq

/-- The status as the JSON text it is written as. -/
def ErasureStatus.json : ErasureStatus → String
  | .pending => "\"Pending\""
  | .verifying => "\"Verifying\""
  | .processing => "\"Processing\""
  | .completed => "\"Completed\""
  | .failed => "\"Failed\""
  | .rejected => "\"Rejected\""

inductive VerificationMethod
  | databaseQuery
  | storageScan
  | logInspection
  | backupVerification
  | thirdPartyAudit
deriving DecidableEq

inductive VerificationResult
  | verified
  | partiallyVerified
  | failed
  | pending
deriving DecidableEq

structure ErasureVerification where
  id : Uuid
  erasureRequestId : Uuid
  method : VerificationMethod
  verifiedAt : UInt64
  result : VerificationResult
  details : HashMap String String

structure ErasureRequest where
  id : Uuid
  userId : String
  tenantId : String
  requestType : ErasureType
  dataCategories : List String
  createdAt : UInt64
  status : ErasureStatus
  completedAt : Option UInt64
  verification : Option ErasureVerification
  notes : Option String

structure ErasureResult where
  handler : String
  recordsDeleted : UInt64
  filesDeleted : UInt64
  bytesFreed : UInt64
  skipped : List String
  errors : List String

structure DataErasureManager where
  requests : HashMap Uuid ErasureRequest
  dataHandlers : Finset String

/-- What an execution meets: the handlers in the order it goes through them, their answers, the
times and the new id. -/
structure Execution where
  handlers : List String
  eraseData : String → Except GdprError ErasureResult
  verifyErasure : String → Except GdprError VerificationResult
  completedAt : UInt64
  verificationId : Uuid
  verifiedAt : UInt64

def ErasureRequest.new (id : Uuid) (userId tenantId : String) (requestType : ErasureType)
    (dataCategories : List String) (now : UInt64) : ErasureRequest where
  id := id
  userId := userId
  tenantId := tenantId
  requestType := requestType
  dataCategories := dataCategories
  createdAt := now
  status := .pending
  completedAt := none
  verification := none
  notes := none

/-- The handlers that answer count; what was erased is not looked at any more. -/
def Execution.verificationResults (execution : Execution) : List VerificationResult :=
  execution.handlers.filterMap fun handler => (execution.verifyErasure handler).toOption

def Execution.allVerified (execution : Execution) : Bool :=
  execution.verificationResults.all (· = .verified)

def Execution.anyFailed (execution : Execution) : Bool :=
  execution.verificationResults.any (· = .failed)

/-- A request after the handlers have erased and verified. -/
def ErasureRequest.conclude (request : ErasureRequest) (requestId : Uuid)
    (execution : Execution) : ErasureRequest :=
  if execution.allVerified then
    { request with
      status := .completed
      completedAt := some execution.completedAt
      verification := some
        { id := execution.verificationId
          erasureRequestId := requestId
          method := .databaseQuery
          verifiedAt := execution.verifiedAt
          result := .verified
          details := ∅ } }
  else if execution.anyFailed then { request with status := .failed }
  else { request with status := .completed }

namespace DataErasureManager

def registerHandler (manager : DataErasureManager) (name : String) : DataErasureManager :=
  { manager with dataHandlers := insert name manager.dataHandlers }

def createRequest (manager : DataErasureManager) (id : Uuid) (userId tenantId : String)
    (requestType : ErasureType) (dataCategories : List String) (now : UInt64) :
    DataErasureManager × ErasureRequest :=
  let request := ErasureRequest.new id userId tenantId requestType dataCategories now
  ({ manager with requests := manager.requests.insert id request }, request)

variable (display : Uuid → String)

def executeErasure (manager : DataErasureManager) (requestId : Uuid) (execution : Execution) :
    DataErasureManager × Except GdprError ErasureRequest :=
  match manager.requests.lookup requestId with
  | none => (manager, .error (.userNotFound (display requestId)))
  | some request =>
    if request.status ≠ .pending then
      (manager, .error (.erasureFailed ("Request already " ++ request.status.json)))
    else
      let concluded := request.conclude requestId execution
      ({ manager with requests := manager.requests.insert requestId concluded },
        .ok concluded)

def rejectRequest (manager : DataErasureManager) (requestId : Uuid) (reason : String)
    (now : UInt64) : DataErasureManager × Except GdprError ErasureRequest :=
  match manager.requests.lookup requestId with
  | none => (manager, .error (.userNotFound (display requestId)))
  | some request =>
    let rejected : ErasureRequest :=
      { request with status := .rejected, notes := some reason, completedAt := some now }
    ({ manager with requests := manager.requests.insert requestId rejected }, .ok rejected)

end DataErasureManager

/-! ## Books of calls -/

inductive Call
  | registerHandler (name : String)
  | createRequest (id : Uuid) (userId tenantId : String) (requestType : ErasureType)
      (dataCategories : List String) (now : UInt64)
  | executeErasure (requestId : Uuid) (execution : Execution)
  | rejectRequest (requestId : Uuid) (reason : String) (now : UInt64)

/-- The manager, and with what its requests were executed. -/
structure Book where
  manager : DataErasureManager
  executed : HashMap Uuid Execution

namespace Book

def empty : Book := ⟨⟨∅, ∅⟩, ∅⟩

def request? (book : Book) (id : Uuid) : Option ErasureRequest := book.manager.requests.lookup id

/-- The request waits to be executed. -/
def Pending (book : Book) (id : Uuid) : Prop :=
  ∃ request, book.request? id = some request ∧ request.status = .pending

instance (book : Book) (id : Uuid) : Decidable (book.Pending id) :=
  decidable_of_iff (∃ request ∈ book.request? id, request.status = .pending) (by
    simp [Pending, Option.mem_def])

variable (display : Uuid → String)

def perform (book : Book) : Call → Book
  | .registerHandler name => { book with manager := book.manager.registerHandler name }
  | .createRequest id userId tenantId requestType dataCategories now =>
    { book with manager :=
        (book.manager.createRequest id userId tenantId requestType dataCategories now).1 }
  | .executeErasure requestId execution =>
    { manager := (book.manager.executeErasure display requestId execution).1
      executed := if book.Pending requestId then book.executed.insert requestId execution
        else book.executed }
  | .rejectRequest requestId reason now =>
    { book with manager := (book.manager.rejectRequest display requestId reason now).1 }

end Book

/-! ## What is reported -/

/-- Every handler erased without errors and verified that the data is gone. -/
def Execution.Clean (execution : Execution) : Prop :=
  ∀ handler ∈ execution.handlers,
    (∃ result, execution.eraseData handler = .ok result ∧ result.errors = []) ∧
      execution.verifyErasure handler = .ok .verified

/-- Some handler found that the data is not gone. -/
def Execution.Refuted (execution : Execution) : Prop :=
  ∃ handler ∈ execution.handlers, execution.verifyErasure handler = .ok .failed

def ErasureStatus.Terminal (status : ErasureStatus) : Prop :=
  status = .completed ∨ status = .failed ∨ status = .rejected

namespace Book

/-- The request was executed cleanly. -/
def Erased (book : Book) (id : Uuid) : Prop :=
  ∃ execution, book.executed.lookup id = some execution ∧ execution.Clean

/-- A completed request was executed cleanly, and the cleanly executed requests are the verified
ones. -/
def Sound (book : Book) : Prop :=
  ∀ id request, book.request? id = some request →
    (request.status = .completed → book.Erased id) ∧
      (request.verification.isSome ↔ book.Erased id)

/-- Requests with a terminal status are kept with it. -/
def Settles (book later : Book) : Prop :=
  ∀ id request, book.request? id = some request → request.status.Terminal →
    ∃ request', later.request? id = some request' ∧ request'.status = request.status

/-- New ids are new, and an execution goes through the registered handlers. -/
def Fits (book : Book) : Call → Prop
  | .createRequest id .. => book.request? id = none
  | .executeErasure _ execution => execution.handlers.Nodup ∧
      ∀ name, name ∈ execution.handlers ↔ name ∈ book.manager.dataHandlers
  | _ => True

/-- An execution that is not clean is refuted by a handler, and only requests that have neither
completed nor failed are rejected. -/
def Careful (book : Book) : Call → Prop
  | .executeErasure requestId execution =>
    book.Pending requestId → execution.Clean ∨ execution.Refuted
  | .rejectRequest requestId .. => ∀ request, book.request? requestId = some request →
      request.status ≠ .completed ∧ request.status ≠ .failed
  | _ => True

/-- Pending and new requests were not executed. -/
structure Kept (book : Book) : Prop where
  sound : book.Sound
  waiting : ∀ id, (∀ request, book.request? id = some request → request.status = .pending) →
    book.executed.lookup id = none

variable {display : Uuid → String} {book : Book} {id : Uuid}

/-! ### Single calls -/

theorem request?_createRequest (new : Uuid) (userId tenantId : String)
    (requestType : ErasureType) (dataCategories : List String) (now : UInt64) :
    (book.perform display (.createRequest new userId tenantId requestType dataCategories
        now)).request? id =
      if id = new then some (.new new userId tenantId requestType dataCategories now)
      else book.request? id :=
  HashMap.lookup_insert_ite _ _ _ _

variable {requestId : Uuid} {execution : Execution} {request : ErasureRequest} {reason : String}
  {now : UInt64}

theorem request?_executeErasure (found : book.request? requestId = some request)
    (pending : request.status = .pending) :
    (book.perform display (.executeErasure requestId execution)).request? id =
      if id = requestId then some (request.conclude requestId execution)
      else book.request? id := by
  have executed : book.manager.executeErasure display requestId execution =
      ({ book.manager with requests :=
          book.manager.requests.insert requestId (request.conclude requestId execution) },
        .ok (request.conclude requestId execution)) := by
    rw [request?] at found
    rw [DataErasureManager.executeErasure, found]
    exact if_neg (not_not.mpr pending)
  rw [request?, perform, executed]
  exact HashMap.lookup_insert_ite _ _ _ _

/-- A request that does not wait is not executed. -/
theorem perform_executeErasure (idle : ¬ book.Pending requestId) :
    book.perform display (.executeErasure requestId execution) = book := by
  have same : (book.manager.executeErasure display requestId execution).1 = book.manager := by
    rw [DataErasureManager.executeErasure]
    split
    · rfl
    · next request found =>
        have done : request.status ≠ .pending := fun pending => idle ⟨request, found, pending⟩
        rw [if_pos done]
  rw [perform, same, if_neg idle]

theorem request?_rejectRequest (found : book.request? requestId = some request) :
    (book.perform display (.rejectRequest requestId reason now)).request? id =
      if id = requestId then
        some { request with
          status := .rejected, notes := some reason, completedAt := some now }
      else book.request? id := by
  rw [request?] at found
  rw [request?, perform, DataErasureManager.rejectRequest, found]
  exact HashMap.lookup_insert_ite _ _ _ _

theorem perform_rejectRequest (missing : book.request? requestId = none) :
    book.perform display (.rejectRequest requestId reason now) = book := by
  rw [request?] at missing
  rw [perform, DataErasureManager.rejectRequest, missing]

/-! ### Executions -/

section Execution

variable {execution : Execution} {request : ErasureRequest} {requestId : Uuid}

theorem allVerified_of_clean (clean : execution.Clean) : execution.allVerified = true := by
  refine List.all_eq_true.mpr ?_
  intro result member
  obtain ⟨handler, listed, answered⟩ := List.mem_filterMap.mp member
  rw [(clean handler listed).2] at answered
  cases answered
  rfl

theorem anyFailed_iff : execution.anyFailed = true ↔ execution.Refuted := by
  rw [Execution.anyFailed, Execution.verificationResults, Execution.Refuted]
  rw [List.any_eq_true]
  constructor
  · rintro ⟨result, member, failed⟩
    obtain ⟨handler, listed, answered⟩ := List.mem_filterMap.mp member
    obtain rfl := of_decide_eq_true failed
    refine ⟨handler, listed, ?_⟩
    cases verified : execution.verifyErasure handler with
    | error error =>
      rw [verified] at answered
      cases answered
    | ok result =>
      rw [verified] at answered
      cases answered
      rfl
  · rintro ⟨handler, listed, failed⟩
    refine ⟨.failed, List.mem_filterMap.mpr ⟨handler, listed, ?_⟩, rfl⟩
    rw [failed]
    rfl

theorem allVerified_of_refuted (refuted : execution.Refuted) : execution.allVerified = false := by
  obtain ⟨handler, listed, failed⟩ := refuted
  refine List.all_eq_false.mpr ⟨.failed, List.mem_filterMap.mpr ⟨handler, listed, ?_⟩, nofun⟩
  rw [failed]
  rfl

/-- A request is concluded as it should be if its execution is clean or refuted. -/
theorem conclude_iff (unverified : request.verification = none) :
    (((request.conclude requestId execution).status = .completed → execution.Clean) ∧
        ((request.conclude requestId execution).verification.isSome ↔ execution.Clean)) ↔
      execution.Clean ∨ execution.Refuted := by
  rw [ErasureRequest.conclude]
  rw [← anyFailed_iff]
  split
  · next verified =>
      have refuted : execution.anyFailed ≠ true := by
        intro failed
        rw [allVerified_of_refuted (anyFailed_iff.mp failed)] at verified
        cases verified
      simp [refuted]
  · next unfinished =>
      have unclean : ¬ execution.Clean := fun clean => unfinished (allVerified_of_clean clean)
      split
      · next failed => simp [unclean, unverified, failed]
      · next never => simp [unclean, never]

theorem conclude_not_pending : (request.conclude requestId execution).status ≠ .pending := by
  rw [ErasureRequest.conclude]
  split
  · nofun
  · split <;> nofun

end Execution

/-! ### Calls in a book -/

/-- The book after a call is as it should be, and nothing settled has changed. -/
def Faithful (display : Uuid → String) (book : Book) (call : Call) : Prop :=
  (book.perform display call).Sound ∧ book.Settles (book.perform display call)

theorem Settles.refl (book : Book) : book.Settles book :=
  fun _ request found _ => ⟨request, found, rfl⟩

theorem Kept.createRequest (kept : book.Kept) {new : Uuid} (userId tenantId : String)
    (requestType : ErasureType) (dataCategories : List String) (now : UInt64)
    (fresh : book.request? new = none) :
    book.Faithful display
      (.createRequest new userId tenantId requestType dataCategories now) := by
  have unknown : book.executed.lookup new = none := by
    refine kept.waiting new fun request found => ?_
    cases fresh.symm.trans found
  refine ⟨fun id request found => ?_, fun id request found _ => ?_⟩
  · rw [request?_createRequest] at found
    split at found
    · next same =>
        obtain rfl := Option.some.inj found
        have unexecuted : ¬ book.Erased id := by
          rintro ⟨execution, known, -⟩
          rw [same, unknown] at known
          cases known
        exact ⟨nofun, iff_of_false nofun unexecuted⟩
    · exact kept.sound id request found
  · refine ⟨request, ?_, rfl⟩
    rw [request?_createRequest, if_neg, found]
    rintro rfl
    cases fresh.symm.trans found

theorem Kept.not_erased (kept : book.Kept) (found : book.request? id = some request)
    (pending : request.status = .pending) : ¬ book.Erased id := by
  rintro ⟨execution, known, -⟩
  have waiting : book.executed.lookup id = none := by
    refine kept.waiting id fun request' found' => ?_
    cases found.symm.trans found'
    exact pending
  cases waiting.symm.trans known

/-- Of an execution only the executed request is to be judged. -/
theorem Kept.executeErasure_pending_iff (kept : book.Kept)
    (found : book.request? requestId = some request) (pending : request.status = .pending) :
    book.Faithful display (.executeErasure requestId execution) ↔
      execution.Clean ∨ execution.Refuted := by
  have unverified : request.verification = none := by
    rw [← Option.not_isSome_iff_eq_none, (kept.sound requestId request found).2]
    exact kept.not_erased found pending
  have waits : book.Pending requestId := ⟨request, found, pending⟩
  have erased : ∀ id, (book.perform display (.executeErasure requestId execution)).Erased id ↔
      if id = requestId then execution.Clean else book.Erased id := by
    intro id
    rw [Erased, Book.perform, if_pos waits]
    simp only [HashMap.lookup_insert_ite]
    split
    · simp
    · rfl
  rw [← conclude_iff unverified]
  constructor
  · intro faithful
    have sound := faithful.1 requestId (request.conclude requestId execution)
    rw [request?_executeErasure found pending, if_pos rfl, erased, if_pos rfl] at sound
    exact sound rfl
  · intro concluded
    refine ⟨fun id other there => ?_, fun id other there terminal => ?_⟩
    · rw [request?_executeErasure found pending] at there
      rw [erased]
      split at there
      · next same =>
          cases there
          rwa [if_pos same]
      · next distinct =>
          rw [if_neg distinct]
          exact kept.sound id other there
    · refine ⟨other, ?_, rfl⟩
      rw [request?_executeErasure found pending, if_neg, there]
      rintro rfl
      cases found.symm.trans there
      rw [pending] at terminal
      obtain same | same | same := terminal <;> cases same

theorem Kept.executeErasure_iff (kept : book.Kept) :
    book.Faithful display (.executeErasure requestId execution) ↔
      (book.Pending requestId → execution.Clean ∨ execution.Refuted) := by
  by_cases waits : book.Pending requestId
  · obtain ⟨request, found, pending⟩ := id waits
    rw [kept.executeErasure_pending_iff found pending]
    exact ⟨fun judged _ => judged, fun judged => judged waits⟩
  · refine iff_of_true ?_ fun waiting => absurd waiting waits
    rw [Faithful, perform_executeErasure waits]
    exact ⟨kept.sound, Settles.refl book⟩

/-- A request may be rejected as long as it is open. -/
theorem Kept.rejectRequest_iff (kept : book.Kept) :
    book.Faithful display (.rejectRequest requestId reason now) ↔
      ∀ request, book.request? requestId = some request →
        request.status ≠ .completed ∧ request.status ≠ .failed := by
  constructor
  · intro faithful request found
    have settled := faithful.2 requestId request found
    rw [request?_rejectRequest found, if_pos rfl] at settled
    refine ⟨fun completed => ?_, fun failed => ?_⟩
    · obtain ⟨rejected, same, kept⟩ := settled (.inl completed)
      cases same
      cases kept.trans completed
    · obtain ⟨rejected, same, kept⟩ := settled (.inr (.inl failed))
      cases same
      cases kept.trans failed
  · intro isOpen
    cases found : book.request? requestId with
    | none =>
      rw [Faithful, perform_rejectRequest found]
      exact ⟨kept.sound, Settles.refl book⟩
    | some request =>
      refine ⟨fun id other there => ?_, fun id other there terminal => ?_⟩
      · rw [request?_rejectRequest found] at there
        split at there
        · next same =>
            cases there
            rw [same]
            exact ⟨nofun, (kept.sound requestId request found).2⟩
        · exact kept.sound id other there
      · rw [request?_rejectRequest found]
        split
        · next same =>
            rw [same] at there
            cases found.symm.trans there
            obtain ⟨uncompleted, unfailed⟩ := isOpen request found
            obtain completed | failed | rejected := terminal
            · exact absurd completed uncompleted
            · exact absurd failed unfailed
            · exact ⟨_, rfl, rejected.symm⟩
        · exact ⟨other, there, rfl⟩

/-- A faithful call is a careful one. -/
theorem Kept.faithful_call_iff (kept : book.Kept) {call : Call} (fits : book.Fits call) :
    book.Faithful display call ↔ book.Careful call := by
  cases call with
  | registerHandler name => exact iff_of_true ⟨kept.sound, Settles.refl _⟩ trivial
  | createRequest id userId tenantId requestType dataCategories now =>
    exact iff_of_true (kept.createRequest _ _ _ _ _ fits) trivial
  | executeErasure requestId execution => exact kept.executeErasure_iff
  | rejectRequest requestId reason now => exact kept.rejectRequest_iff

theorem Kept.perform (kept : book.Kept) {call : Call} (fits : book.Fits call)
    (faithful : book.Faithful display call) : (book.perform display call).Kept := by
  refine ⟨faithful.1, fun id waiting => ?_⟩
  cases call with
  | registerHandler name => exact kept.waiting id waiting
  | createRequest new =>
    refine kept.waiting id fun request found => waiting request ?_
    rw [request?_createRequest, if_neg, found]
    rintro rfl
    exact Option.some_ne_none _ (found.symm.trans fits)
  | executeErasure requestId execution =>
    by_cases waits : book.Pending requestId
    · obtain ⟨request, found, pending⟩ := waits
      simp only [request?_executeErasure found pending] at waiting
      have distinct : id ≠ requestId := by
        intro same
        exact conclude_not_pending (waiting _ (if_pos same))
      simp only [if_neg distinct] at waiting
      rw [Book.perform]
      split
      · rw [HashMap.lookup_insert_ite, if_neg distinct]
        exact kept.waiting id waiting
      · exact kept.waiting id waiting
    · rw [perform_executeErasure waits] at waiting ⊢
      exact kept.waiting id waiting
  | rejectRequest requestId reason now =>
    refine kept.waiting id fun request found => ?_
    cases there : book.request? requestId with
    | none =>
      rw [perform_rejectRequest there] at waiting
      exact waiting request found
    | some other =>
      simp only [request?_rejectRequest there] at waiting
      by_cases same : id = requestId
      · cases waiting _ (if_pos same)
      · exact waiting request (by rw [if_neg same, found])

end Book

/-- Exactly in the histories whose calls are careful, a request that is reported as complete is
complete, and a settled request stays as it is. -/
theorem erasure_complete_iff (display : Uuid → String) {calls : List Call}
    (fits : Along (Book.perform display) Book.Fits .empty calls) :
    Along (Book.perform display) (Book.Faithful display) .empty calls ↔
      Along (Book.perform display) Book.Careful .empty calls := by
  refine along_iff (I := Book.Kept) ?_ ?_ ?_ fits
  · intro book call kept fits faithful
    exact kept.perform fits faithful
  · intro book call kept fits
    exact kept.faithful_call_iff fits
  · refine ⟨fun id request found => ?_, fun id _ => rfl⟩
    cases found

/-! ### One handler -/

def sampleId : Uuid := ⟨1⟩

/-- An execution with one handler. -/
def sampleExecution (erased : Except GdprError ErasureResult)
    (verified : Except GdprError VerificationResult) : Execution where
  handlers := ["storage"]
  eraseData _ := erased
  verifyErasure _ := verified
  completedAt := 2
  verificationId := ⟨2⟩
  verifiedAt := 2

def sampleCalls (execution : Execution) : List Call :=
  [.registerHandler "storage",
    .createRequest sampleId "user-1" "tenant-1" .fullErasure ["profile"] 1,
    .executeErasure sampleId execution]

def cleanExecution : Execution := sampleExecution (.ok ⟨"storage", 1, 0, 0, [], []⟩) (.ok .verified)

/-- The data could not be erased, and nobody knows whether it is gone. -/
def unknownExecution : Execution :=
  sampleExecution (.error (.storageError "offline")) (.error (.storageError "offline"))

theorem erasure_complete_sample :
    Along (Book.perform fun _ => "request") (Book.Faithful fun _ => "request") .empty
      (sampleCalls cleanExecution) := by
  have fits : Along (Book.perform fun _ => "request") Book.Fits .empty
      (sampleCalls cleanExecution) := by
    refine ⟨trivial, rfl, ⟨List.nodup_singleton _, fun name => ?_⟩, trivial⟩
    simp [cleanExecution, sampleExecution, Book.perform, DataErasureManager.registerHandler,
      DataErasureManager.createRequest, Book.empty]
  refine (erasure_complete_iff _ fits).mpr ⟨trivial, trivial, fun _ => .inl ?_, trivial⟩
  intro handler listed
  exact ⟨⟨_, rfl, rfl⟩, rfl⟩

/-- A request whose only handler fails twice is reported as complete. -/
theorem erasure_not_complete :
    ¬ Along (Book.perform fun _ => "request") (Book.Faithful fun _ => "request") .empty
      (sampleCalls unknownExecution) := by
  rintro ⟨-, -, ⟨sound, -⟩, -⟩
  obtain ⟨execution, executed, clean⟩ := (sound sampleId _ rfl).1 rfl
  obtain rfl : unknownExecution = execution := Option.some.inj executed
  obtain ⟨⟨result, erased, -⟩, -⟩ := clean "storage" List.mem_cons_self
  cases erased

end UHorse.Gdpr
