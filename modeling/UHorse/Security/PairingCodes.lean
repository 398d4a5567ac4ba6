import UHorse.Lib.System
import UHorse.Security.Pairing

/-!
# Codes and statuses of pairing requests

A code is removed by its text, whichever request it leads to by then, and a request is
settled whatever its status. So a drawn code that is still in use, and a decision about a
request that has been settled, break what the maps are for; nothing else does.
-/

namespace UHorse.Security.Pairing

open UHorse.Lib

/-- Paired, rejected, expired or cancelled. -/
def PairingStatus.isFinal : PairingStatus → Bool
  | .pending => false
  | .awaitingConfirmation => false
  | _ => true

/-- Pending and not expired. -/
def PairingRequest.Live (request : PairingRequest) (now : Nat) : Prop :=
  request.status = .pending ∧ request.isExpired now = false

namespace DevicePairingManager

variable {manager manager' : DevicePairingManager} {now : Nat} {requestId code : String}
  {request request' : PairingRequest}

/-- Every live request is the one its code leads to. -/
def Identified (manager : DevicePairingManager) (now : Nat) : Prop :=
  ∀ requestId request, manager.pairingRequests.lookup requestId = some request →
    request.Live now → manager.codeToRequest.lookup request.pairingCode = some requestId

/-- What is final stays as it is while it is kept. -/
def Final (manager manager' : DevicePairingManager) : Prop :=
  ∀ requestId request request', manager.pairingRequests.lookup requestId = some request →
    request.status.isFinal → manager'.pairingRequests.lookup requestId = some request' →
    request'.status = request.status

/-- A device becomes paired only by the confirmation of a code that one of its requests
carries. -/
def PairsOwn (manager manager' : DevicePairingManager) (operation : Operation) : Prop :=
  ∀ deviceId device', manager'.devices.lookup deviceId = some device' → device'.paired = true →
    (∃ device, manager.devices.lookup deviceId = some device ∧ device.paired = true) ∨
      ∃ code userId requestId request, operation = .confirm code userId ∧
        manager.pairingRequests.lookup requestId = some request ∧
        request.pairingCode = code ∧ request.deviceId = deviceId

/-- No other live request carries the code. -/
def Unshared (manager : DevicePairingManager) (now : Nat) (requestId code : String) : Prop :=
  ∀ other request, manager.pairingRequests.lookup other = some request → request.Live now →
    other ≠ requestId → request.pairingCode ≠ code

/-- A code leads to a request that carries it. -/
def Matched (manager : DevicePairingManager) : Prop :=
  ∀ code requestId, manager.codeToRequest.lookup code = some requestId →
    ∃ request, manager.pairingRequests.lookup requestId = some request ∧
      request.pairingCode = code

theorem findByCode_eq_ok (found : manager.findByCode code = .ok (requestId, request)) :
    manager.codeToRequest.lookup code = some requestId ∧
      manager.pairingRequests.lookup requestId = some request := by
  rw [findByCode] at found
  cases leads : manager.codeToRequest.lookup code with
  | none =>
    rw [leads] at found
    cases found
  | some other =>
    rw [leads] at found
    dsimp only at found
    cases there : manager.pairingRequests.lookup other with
    | none =>
      rw [there] at found
      cases found
    | some same =>
      rw [there] at found
      cases found
      exact ⟨rfl, there⟩

/-! ## Settling one request -/

/-- A request gets a final status, and its code is dropped or not. -/
structure Settles (manager manager' : DevicePairingManager) (requestId : String)
    (request : PairingRequest) (status : PairingStatus) (drops : Bool) : Prop where
  before : manager.pairingRequests.lookup requestId = some request
  final : status.isFinal = true
  after : ∃ settled : PairingRequest, settled.status = status ∧
    settled.pairingCode = request.pairingCode ∧
    manager'.pairingRequests = manager.pairingRequests.insert requestId settled
  codes : manager'.codeToRequest =
    if drops then manager.codeToRequest.erase request.pairingCode else manager.codeToRequest

variable {status : PairingStatus} {drops : Bool}

theorem Settles.lookup (settles : Settles manager manager' requestId request status drops)
    (other : String) : ∃ settled : PairingRequest, settled.status = status ∧
      settled.pairingCode = request.pairingCode ∧
      manager'.pairingRequests.lookup other =
        if other = requestId then some settled else manager.pairingRequests.lookup other := by
  obtain ⟨settled, same, code, requests⟩ := settles.after
  exact ⟨settled, same, code, by rw [requests, HashMap.lookup_insert_ite]⟩

theorem not_live_of_isFinal (final : request.status.isFinal = true) : ¬ request.Live now := by
  rintro ⟨pending, -⟩
  rw [pending] at final
  cases final

theorem Settles.final_iff (settles : Settles manager manager' requestId request status drops) :
    Final manager manager' ↔ (request.status.isFinal → status = request.status) := by
  constructor
  · intro kept final
    obtain ⟨settled, same, -, lookup⟩ := settles.lookup requestId
    rw [if_pos rfl] at lookup
    rw [← same]
    exact kept requestId request settled settles.before final lookup
  · intro kept other stored stored' before final after
    obtain ⟨settled, same, -, lookup⟩ := settles.lookup other
    rw [lookup] at after
    split at after
    · next here =>
        subst here
        cases after
        obtain rfl := Option.some.inj (settles.before.symm.trans before)
        rw [same]
        exact kept final
    · rw [before] at after
      cases after
      rfl

theorem Settles.lookup_code (settles : Settles manager manager' requestId request status drops)
    (code : String) : manager'.codeToRequest.lookup code =
      if drops ∧ code = request.pairingCode then none else manager.codeToRequest.lookup code := by
  rw [settles.codes]
  cases drops with
  | false => simp
  | true => simp [HashMap.lookup_erase_ite]

theorem Settles.identified_iff (settles : Settles manager manager' requestId request status drops)
    (identified : manager.Identified now) : manager'.Identified now ↔
      (drops → manager.Unshared now requestId request.pairingCode) := by
  constructor
  · intro after dropped other stored before live distinct shared
    obtain ⟨settled, -, -, lookup⟩ := settles.lookup other
    rw [if_neg distinct, before] at lookup
    have reached := after other stored lookup live
    rw [settles.lookup_code, if_pos ⟨dropped, shared⟩] at reached
    cases reached
  · intro unshared other stored after live
    obtain ⟨settled, same, -, lookup⟩ := settles.lookup other
    rw [lookup] at after
    split at after
    · -- a settled request is not live
      cases after
      exact absurd live (not_live_of_isFinal (same ▸ settles.final))
    · next distinct =>
        rw [settles.lookup_code, if_neg]
        · exact identified other stored after live
        · rintro ⟨dropped, shared⟩
          exact unshared dropped other stored after live distinct shared

theorem Settles.matched (settles : Settles manager manager' requestId request status drops)
    (matched : manager.Matched) : manager'.Matched := by
  intro code other leads
  rw [settles.lookup_code] at leads
  split at leads
  · cases leads
  · obtain ⟨stored, before, carries⟩ := matched code other leads
    obtain ⟨settled, -, same, lookup⟩ := settles.lookup other
    by_cases here : other = requestId
    · subst here
      obtain rfl := Option.some.inj (settles.before.symm.trans before)
      exact ⟨settled, lookup.trans (if_pos rfl), same.trans carries⟩
    · exact ⟨stored, lookup.trans ((if_neg here).trans before), carries⟩

/-- What a code leads to carries it. -/
theorem carries_of_findByCode (matched : manager.Matched)
    (found : manager.findByCode code = .ok (requestId, request)) :
    request.pairingCode = code := by
  obtain ⟨leads, before⟩ := findByCode_eq_ok found
  obtain ⟨stored, there, carries⟩ := matched code requestId leads
  obtain rfl := Option.some.inj (there.symm.trans before)
  exact carries

/-- A code that leads to a request is no other live request's. -/
theorem unshared_of_findByCode (matched : manager.Matched) (identified : manager.Identified now)
    (found : manager.findByCode code = .ok (requestId, request)) :
    manager.Unshared now requestId request.pairingCode := by
  intro other stored before live distinct shared
  have reached := identified other stored before live
  rw [shared, carries_of_findByCode matched found, (findByCode_eq_ok found).1] at reached
  exact distinct (Option.some.inj reached).symm

/-! ## What each operation settles -/

/-- The status a confirmation gives. -/
def confirmedStatus (request : PairingRequest) (now : Nat) : PairingStatus :=
  if request.isExpired now then .expired else .paired

theorem settles_confirm (userId : String) (matched : manager.Matched)
    (found : manager.findByCode code = .ok (requestId, request)) :
    ∃ drops, Settles manager (manager.confirmPairing code userId now).1 requestId request
      (confirmedStatus request now) drops := by
  obtain ⟨-, before⟩ := findByCode_eq_ok found
  have carries := carries_of_findByCode matched found
  rw [confirmPairing, found]
  dsimp only
  by_cases expired : request.isExpired now
  · rw [if_pos expired]
    refine ⟨false, before, ?_, ⟨request.expire, ?_, rfl, rfl⟩, rfl⟩ <;>
      rw [confirmedStatus, if_pos expired] <;> rfl
  · rw [if_neg expired]
    have paired : confirmedStatus request now = .paired := if_neg expired
    cases manager.devices.lookup request.deviceId with
    | none =>
      exact ⟨false, before, paired ▸ rfl, ⟨request.confirm userId, paired.symm, rfl, rfl⟩, rfl⟩
    | some device =>
      refine ⟨true, before, paired ▸ rfl, ⟨request.confirm userId, paired.symm, rfl, rfl⟩, ?_⟩
      rw [carries]
      rfl

theorem settles_reject (matched : manager.Matched)
    (found : manager.findByCode code = .ok (requestId, request)) :
    Settles manager (manager.rejectPairing code).1 requestId request .rejected true := by
  obtain ⟨-, before⟩ := findByCode_eq_ok found
  rw [rejectPairing, found]
  refine ⟨before, rfl, ⟨request.reject, rfl, rfl, rfl⟩, ?_⟩
  rw [carries_of_findByCode matched found]
  rfl

theorem settles_cancel (before : manager.pairingRequests.lookup requestId = some request) :
    Settles manager (manager.cancelPairing requestId).1 requestId request .cancelled true := by
  rw [cancelPairing, getPairingRequest, before]
  exact ⟨before, rfl, ⟨request.cancel, rfl, rfl, rfl⟩, rfl⟩

theorem settles_expire (before : manager.pairingRequests.lookup requestId = some request)
    (isOpen : request.isOpen) :
    Settles manager (manager.expireRequest requestId) requestId request .expired true := by
  rw [expireRequest, before]
  dsimp only
  rw [if_pos isOpen]
  exact ⟨before, rfl, ⟨request.expire, rfl, rfl, rfl⟩, rfl⟩

/-! ## Initiating and cleaning up -/

section Initiate

variable {deviceId deviceName deviceType : String} {draw : Fin 1000000}

theorem lookup_initiate (other : String) :
    (manager.initiatePairing deviceId deviceName deviceType requestId draw
      now).1.pairingRequests.lookup other = if other = requestId then
        some (manager.newRequest deviceId deviceName deviceType requestId draw now)
      else manager.pairingRequests.lookup other :=
  HashMap.lookup_insert_ite _ _ _ _

theorem lookup_code_initiate (code : String) :
    (manager.initiatePairing deviceId deviceName deviceType requestId draw
      now).1.codeToRequest.lookup code = if code = PairingRequest.generatePairingCode draw then
        some requestId
      else manager.codeToRequest.lookup code :=
  HashMap.lookup_insert_ite _ _ _ _

theorem ne_of_lookup {other : String} (fresh : requestId ∉ manager.pairingRequests)
    (before : manager.pairingRequests.lookup other = some request) : other ≠ requestId := by
  rintro rfl
  exact fresh (HashMap.mem_of_lookup before)

theorem identified_initiate (fresh : requestId ∉ manager.pairingRequests)
    (identified : manager.Identified now) :
    (manager.initiatePairing deviceId deviceName deviceType requestId draw now).1.Identified now ↔
      ∀ other request, manager.pairingRequests.lookup other = some request → request.Live now →
        request.pairingCode ≠ PairingRequest.generatePairingCode draw := by
  constructor
  · intro after other stored before live shared
    have distinct := ne_of_lookup fresh before
    have reached := after other stored ((lookup_initiate other).trans
      ((if_neg distinct).trans before)) live
    rw [lookup_code_initiate, if_pos shared] at reached
    exact distinct (Option.some.inj reached).symm
  · intro unclaimed other stored after live
    rw [lookup_initiate] at after
    rw [lookup_code_initiate]
    split at after
    · next same =>
        cases after
        rw [same]
        exact if_pos rfl
    · rw [if_neg (unclaimed other stored after live)]
      exact identified other stored after live

theorem final_initiate (fresh : requestId ∉ manager.pairingRequests) :
    Final manager
      (manager.initiatePairing deviceId deviceName deviceType requestId draw now).1 := by
  intro other stored stored' before _ after
  rw [lookup_initiate, if_neg (ne_of_lookup fresh before), before] at after
  cases after
  rfl

theorem matched_initiate (fresh : requestId ∉ manager.pairingRequests)
    (matched : manager.Matched) :
    (manager.initiatePairing deviceId deviceName deviceType requestId draw now).1.Matched := by
  intro code other leads
  rw [lookup_code_initiate] at leads
  split at leads
  · next same =>
      cases leads
      exact ⟨_, (lookup_initiate requestId).trans (if_pos rfl), same.symm⟩
  · obtain ⟨stored, before, carries⟩ := matched code other leads
    exact ⟨stored, (lookup_initiate other).trans
      ((if_neg (ne_of_lookup fresh before)).trans before), carries⟩

end Initiate

section Cleanup

variable {order : List (String × PairingRequest)}

/-- No live request carries the code of a stale one. -/
def SparesLive (manager : DevicePairingManager) (now : Nat)
    (order : List (String × PairingRequest)) : Prop :=
  ∀ entry ∈ order, isStale now entry.2 = true → ∀ requestId request,
    manager.pairingRequests.lookup requestId = some request → request.Live now →
      request.pairingCode ≠ entry.2.pairingCode

theorem not_stale_of_live (live : request.Live now) : isStale now request = false := by
  simp [isStale, live.1, live.2]

/-- What a clean-up keeps. -/
theorem lookup_cleanup (listed : manager.pairingRequests.Lists order) (requestId : String) :
    (manager.cleanupExpiredRequests order now).1.pairingRequests.lookup requestId =
      (manager.pairingRequests.lookup requestId).filter fun request => !isStale now request := by
  rw [cleanupExpiredRequests, HashMap.lookup_eraseAll]
  cases stored : manager.pairingRequests.lookup requestId with
  | none => simp
  | some request =>
    have entry := (listed.2 requestId request).mpr stored
    have removed : requestId ∈ (order.filter fun entry => isStale now entry.2).map Prod.fst ↔
        isStale now request = true := by
      constructor
      · intro member
        obtain ⟨other, inside, same⟩ := List.mem_map.mp member
        obtain ⟨there, stale⟩ := List.mem_filter.mp inside
        have found := (listed.2 other.1 other.2).mp there
        rw [same, stored] at found
        rwa [Option.some.inj found]
      · intro stale
        exact List.mem_map.mpr ⟨_, List.mem_filter.mpr ⟨entry, stale⟩, rfl⟩
    rw [Option.filter_some]
    cases stale : isStale now request with
    | true => rw [if_pos (removed.mpr stale), if_neg (by simp)]
    | false => rw [if_neg (mt removed.mp (by simp [stale])), if_pos (by simp)]

theorem lookup_code_cleanup (code : String) :
    (manager.cleanupExpiredRequests order now).1.codeToRequest.lookup code =
      if ∃ entry ∈ order, isStale now entry.2 = true ∧ entry.2.pairingCode = code then none
      else manager.codeToRequest.lookup code := by
  rw [cleanupExpiredRequests, HashMap.lookup_eraseAll]
  refine if_congr ?_ rfl rfl
  simp only [List.mem_map, List.mem_filter, and_assoc]

theorem identified_cleanup (listed : manager.pairingRequests.Lists order)
    (identified : manager.Identified now) :
    (manager.cleanupExpiredRequests order now).1.Identified now ↔
      manager.SparesLive now order := by
  constructor
  · intro after entry inside stale other stored before live shared
    have kept := after other stored (by
      rw [lookup_cleanup listed, before]
      simp [not_stale_of_live live]) live
    rw [lookup_code_cleanup, if_pos ⟨entry, inside, stale, shared.symm⟩] at kept
    cases kept
  · intro spares other stored after live
    rw [lookup_cleanup listed] at after
    have before := (Option.filter_eq_some_iff.mp after).1
    rw [lookup_code_cleanup, if_neg]
    · exact identified other stored before live
    · rintro ⟨entry, inside, stale, shared⟩
      exact spares entry inside stale other stored before live shared.symm

theorem final_cleanup (listed : manager.pairingRequests.Lists order) :
    Final manager (manager.cleanupExpiredRequests order now).1 := by
  intro other stored stored' before _ after
  rw [lookup_cleanup listed, before] at after
  rw [Option.some.inj (Option.filter_eq_some_iff.mp after).1]

theorem matched_cleanup (listed : manager.pairingRequests.Lists order)
    (matched : manager.Matched) : (manager.cleanupExpiredRequests order now).1.Matched := by
  intro code other leads
  rw [lookup_code_cleanup] at leads
  split at leads
  · cases leads
  · next kept =>
      obtain ⟨stored, before, carries⟩ := matched code other leads
      refine ⟨stored, ?_, carries⟩
      rw [lookup_cleanup listed, before, Option.filter_some, if_pos]
      by_contra stale
      have entry := (listed.2 other stored).mpr before
      exact kept ⟨_, entry, by simpa using stale, carries⟩

end Cleanup

/-! ## Every operation -/

theorem Identified.mono {later : Nat} (identified : manager.Identified now) (le : now ≤ later) :
    manager.Identified later := by
  intro other stored before live
  refine identified other stored before ⟨live.1, ?_⟩
  have inTime := live.2
  simp only [PairingRequest.isExpired, decide_eq_false_iff_not, not_lt] at inTime ⊢
  exact le.trans inTime

theorem matched_perform {operation : Operation} (matched : manager.Matched)
    (fits : operation.Fits manager now) : (manager.perform now operation).Matched := by
  cases operation with
  | initiate => exact matched_initiate fits matched
  | confirm code userId =>
    cases found : manager.findByCode code with
    | error error =>
      rw [perform, confirmPairing, found]
      exact matched
    | ok entry =>
      obtain ⟨drops, settles⟩ := settles_confirm userId matched found
      exact settles.matched matched
  | reject code =>
    cases found : manager.findByCode code with
    | error error =>
      rw [perform, rejectPairing, found]
      exact matched
    | ok entry => exact (settles_reject matched found).matched matched
  | cancel requestId =>
    cases before : manager.pairingRequests.lookup requestId with
    | none =>
      rw [perform, cancelPairing, getPairingRequest, before]
      exact matched
    | some request => exact (settles_cancel before).matched matched
  | cleanup order => exact matched_cleanup fits matched
  | expire requestId =>
    rw [perform]
    cases before : manager.pairingRequests.lookup requestId with
    | none =>
      rw [expireRequest, before]
      exact matched
    | some request =>
      by_cases isOpen : request.isOpen
      · exact (settles_expire before isOpen).matched matched
      · rw [expireRequest, before]
        dsimp only
        rwa [if_neg isOpen]

theorem pairsOwn_of_devices {operation : Operation}
    (same : manager'.devices = manager.devices) : PairsOwn manager manager' operation := by
  intro deviceId device' there paired
  exact .inl ⟨device', same ▸ there, paired⟩

theorem pairsOwn_confirm {userId : String} (matched : manager.Matched) :
    PairsOwn manager (manager.confirmPairing code userId now).1 (.confirm code userId) := by
  cases found : manager.findByCode code with
  | error error =>
    rw [confirmPairing, found]
    exact pairsOwn_of_devices rfl
  | ok entry =>
    obtain ⟨requestId, request⟩ := entry
    rw [confirmPairing, found]
    dsimp only
    split
    · exact pairsOwn_of_devices rfl
    · split
      · exact pairsOwn_of_devices rfl
      · intro deviceId device' there paired
        dsimp only at there
        rw [HashMap.lookup_insert_ite] at there
        split at there
        · next same =>
            exact .inr ⟨code, userId, requestId, request, rfl, (findByCode_eq_ok found).2,
              carries_of_findByCode matched found, same.symm⟩
        · exact .inl ⟨device', there, paired⟩

theorem pairsOwn_initiate {deviceId deviceName deviceType : String} {draw : Fin 1000000} :
    PairsOwn manager
      (manager.initiatePairing deviceId deviceName deviceType requestId draw now).1
      (.initiate deviceId deviceName deviceType requestId draw) := by
  intro other device' there paired
  rw [initiatePairing] at there
  dsimp only at there
  rw [HashMap.lookup_insert_ite] at there
  split at there
  · -- a new device is not paired
    cases there
    cases paired
  · exact .inl ⟨device', there, paired⟩

/-- Only a confirmation pairs a device. -/
theorem pairsOwn_perform (matched : manager.Matched) (operation : Operation) :
    PairsOwn manager (manager.perform now operation) operation := by
  cases operation with
  | initiate => exact pairsOwn_initiate
  | confirm code userId => exact pairsOwn_confirm matched
  | reject code =>
    rw [perform, rejectPairing]
    split <;> exact pairsOwn_of_devices rfl
  | cancel requestId =>
    rw [perform, cancelPairing]
    split <;> exact pairsOwn_of_devices rfl
  | cleanup order => exact pairsOwn_of_devices rfl
  | expire requestId =>
    rw [perform, expireRequest]
    split
    · exact pairsOwn_of_devices rfl
    · split <;> exact pairsOwn_of_devices rfl

theorem forall_findByCode {P : String → PairingRequest → Prop}
    (found : manager.findByCode code = .ok (requestId, request)) :
    (∀ other stored, manager.findByCode code = .ok (other, stored) → P other stored) ↔
      P requestId request := by
  rw [found]
  constructor
  · intro each
    exact each requestId request rfl
  · rintro here other stored same
    cases same
    exact here

/-- Settling the request a code leads to takes the code from no other live request. -/
theorem Settles.identified_of_findByCode (matched : manager.Matched)
    (identified : manager.Identified now)
    (found : manager.findByCode code = .ok (requestId, request))
    (settles : Settles manager manager' requestId request status drops) :
    manager'.Identified now :=
  (settles.identified_iff identified).mpr fun _ => unshared_of_findByCode matched identified found

end DevicePairingManager

open DevicePairingManager

/-- The code that is drawn, settled or removed is no other live request's, and what is
decided about has not been decided otherwise. -/
def Operation.Safe (manager : DevicePairingManager) (now : Nat) : Operation → Prop
  | .initiate _ _ _ _ draw => ∀ other request,
      manager.pairingRequests.lookup other = some request → request.Live now →
        request.pairingCode ≠ PairingRequest.generatePairingCode draw
  | .confirm code _ => ∀ requestId request, manager.findByCode code = .ok (requestId, request) →
      request.status.isFinal → confirmedStatus request now = request.status
  | .reject code => ∀ requestId request, manager.findByCode code = .ok (requestId, request) →
      request.status.isFinal → .rejected = request.status
  | .cancel requestId => ∀ request, manager.pairingRequests.lookup requestId = some request →
      (request.status.isFinal → .cancelled = request.status) ∧
        manager.Unshared now requestId request.pairingCode
  | .cleanup order => manager.SparesLive now order
  | .expire requestId => ∀ request, manager.pairingRequests.lookup requestId = some request →
      request.isOpen → manager.Unshared now requestId request.pairingCode

/-- What is promised of an operation. -/
structure Operation.Holds (manager : DevicePairingManager) (now : Nat) (operation : Operation) :
    Prop where
  identified : (manager.perform now operation).Identified now
  final : Final manager (manager.perform now operation)
  pairsOwn : PairsOwn manager (manager.perform now operation) operation

section Operations

variable {manager manager' : DevicePairingManager} {now : Nat} {operation : Operation}

theorem final_refl : Final manager manager := by
  intro requestId request request' before _ after
  rw [before] at after
  cases after
  rfl

theorem not_isFinal_of_isOpen {request : PairingRequest} (isOpen : request.isOpen) :
    ¬ request.status.isFinal := by
  rw [PairingRequest.isOpen, Bool.or_eq_true, decide_eq_true_eq, decide_eq_true_eq] at isOpen
  obtain pending | awaiting := isOpen
  · simp [pending, PairingStatus.isFinal]
  · simp [awaiting, PairingStatus.isFinal]

theorem Operation.holds_iff_safe (matched : manager.Matched) (identified : manager.Identified now)
    (fits : operation.Fits manager now) : operation.Holds manager now ↔
      operation.Safe manager now := by
  have own : PairsOwn manager (manager.perform now operation) operation :=
    pairsOwn_perform matched operation
  have split : operation.Holds manager now ↔ (manager.perform now operation).Identified now ∧
      Final manager (manager.perform now operation) :=
    ⟨fun holds => ⟨holds.identified, holds.final⟩, fun holds => ⟨holds.1, holds.2, own⟩⟩
  rw [split]
  clear own split
  cases operation with
  | initiate =>
    exact (and_iff_left (final_initiate fits)).trans (identified_initiate fits identified)
  | cleanup order =>
    exact (and_iff_left (final_cleanup fits)).trans (identified_cleanup fits identified)
  | confirm code userId =>
    cases found : manager.findByCode code with
    | error error =>
      rw [DevicePairingManager.perform, confirmPairing, Operation.Safe, found]
      exact iff_of_true ⟨identified, final_refl⟩ (by rintro _ _ ⟨⟩)
    | ok entry =>
      obtain ⟨drops, settles⟩ : ∃ drops, Settles manager
          (manager.confirmPairing code userId now).1 entry.1 entry.2
          (confirmedStatus entry.2 now) drops := settles_confirm userId matched found
      rw [Operation.Safe, forall_findByCode found]
      exact (and_iff_right (settles.identified_of_findByCode matched identified found)).trans
        settles.final_iff
  | reject code =>
    cases found : manager.findByCode code with
    | error error =>
      rw [DevicePairingManager.perform, rejectPairing, Operation.Safe, found]
      exact iff_of_true ⟨identified, final_refl⟩ (by rintro _ _ ⟨⟩)
    | ok entry =>
      have settles := settles_reject matched found
      rw [Operation.Safe, forall_findByCode found]
      exact (and_iff_right (settles.identified_of_findByCode matched identified found)).trans
        settles.final_iff
  | cancel requestId =>
    cases before : manager.pairingRequests.lookup requestId with
    | none =>
      rw [DevicePairingManager.perform, cancelPairing, getPairingRequest, Operation.Safe,
        before]
      exact iff_of_true ⟨identified, final_refl⟩ (by rintro _ ⟨⟩)
    | some request =>
      have settles := settles_cancel before
      rw [DevicePairingManager.perform, settles.identified_iff identified, settles.final_iff,
        Operation.Safe, before]
      simp only [Option.some.injEq, forall_eq', forall_const]
      exact and_comm
  | expire requestId =>
    cases before : manager.pairingRequests.lookup requestId with
    | none =>
      rw [DevicePairingManager.perform, expireRequest, Operation.Safe, before]
      exact iff_of_true ⟨identified, final_refl⟩ (by rintro _ ⟨⟩)
    | some request =>
      rw [DevicePairingManager.perform, Operation.Safe, before]
      simp only [Option.some.injEq, forall_eq']
      by_cases isOpen : request.isOpen
      · have settles := settles_expire before isOpen
        have kept : Final manager (manager.expireRequest requestId) :=
          settles.final_iff.mpr fun final => absurd final (not_isFinal_of_isOpen isOpen)
        rw [settles.identified_iff identified, and_iff_left kept]
        exact imp_congr_left (iff_of_true rfl isOpen)
      · rw [expireRequest, before]
        dsimp only
        rw [if_neg isOpen]
        exact iff_of_true ⟨identified, final_refl⟩ fun settled => absurd settled isOpen

/-- Codes identify their live requests and final statuses stay, along a run of operations,
exactly if every operation is safe where it is performed. -/
theorem pairing_codes_identify (pairingTtl start : Nat) (calls : List Call)
    (fitting : Along Pairings.after
      (fun s call => call.operation.Fits s.manager (s.now + call.elapsed))
      ⟨.new pairingTtl, start⟩ calls) :
    Along Pairings.after (fun s call => call.operation.Holds s.manager (s.now + call.elapsed))
        ⟨.new pairingTtl, start⟩ calls ↔
      Along Pairings.after (fun s call => call.operation.Safe s.manager (s.now + call.elapsed))
        ⟨.new pairingTtl, start⟩ calls := by
  refine along_iff (I := fun s => s.manager.Matched ∧ s.manager.Identified s.now) ?_ ?_ ?_ fitting
  · rintro s call ⟨matched, -⟩ fits holds
    exact ⟨matched_perform matched fits, holds.identified⟩
  · rintro s call ⟨matched, identified⟩ fits
    exact Operation.holds_iff_safe matched (identified.mono (Nat.le_add_right _ _)) fits
  · exact ⟨fun _ _ leads => absurd leads (by simp [DevicePairingManager.new]),
      fun _ _ stored => absurd stored (by simp [DevicePairingManager.new])⟩

end Operations

section Sample

def sampleCalls : List Call :=
  [⟨0, .initiate "device-1" "Desk" "desktop" "request-1" 42⟩, ⟨10, .confirm "000042" "user-1"⟩]

theorem pairing_codes_identify_sample :
    Along Pairings.after (fun s call => call.operation.Holds s.manager (s.now + call.elapsed))
      ⟨.new 300, 0⟩ sampleCalls := by
  refine (pairing_codes_identify 300 0 sampleCalls ⟨?_, trivial, trivial⟩).mpr ⟨?_, ?_, trivial⟩
  · exact Finmap.notMem_empty
  · rintro other request stored
    exact absurd stored (by simp [DevicePairingManager.new])
  · refine (@forall_findByCode _ "request-1" _ ?_ _ ?_).mpr ?_
    · exact (DevicePairingManager.new 300).newRequest "device-1" "Desk" "desktop" "request-1" 42 0
    · rfl
    · decide

/-- A code drawn twice leads to the second request only, and a paired request can still be
cancelled. -/
theorem code_drawn_twice :
    ¬ Along Pairings.after
        (fun s call => call.operation.Holds s.manager (s.now + call.elapsed)) ⟨.new 300, 0⟩
        [⟨0, .initiate "device-1" "Desk" "desktop" "request-1" 42⟩,
          ⟨1, .initiate "device-2" "Laptop" "desktop" "request-2" 42⟩] ∧
      ¬ Along Pairings.after
        (fun s call => call.operation.Holds s.manager (s.now + call.elapsed)) ⟨.new 300, 0⟩
        [⟨0, .initiate "device-1" "Desk" "desktop" "request-1" 42⟩,
          ⟨1, .confirm "000042" "user-1"⟩, ⟨1, .cancel "request-1"⟩] := by
  constructor
  · rintro ⟨-, ⟨identified, -, -⟩, -⟩
    have reached := identified "request-1"
      ((DevicePairingManager.new 300).newRequest "device-1" "Desk" "desktop" "request-1" 42 0)
      (by decide) ⟨rfl, by decide⟩
    exact absurd reached (by decide)
  · rintro ⟨-, -, ⟨-, final, -⟩, -⟩
    have kept := final "request-1" _ _ (by rfl) (by decide) (by rfl)
    exact absurd kept (by decide)

end Sample

end UHorse.Security.Pairing
