import UHorse.Lib.HashMap

/-!
# Device pairing

A device asks to be paired and is shown a code of six digits; whoever sends the code back
confirms the pairing. The manager keeps the devices, the requests and a map from codes to
requests, which the operations update one after the other.

The ids, the drawn codes, the readings of the clock and the order in which maps are iterated
come from outside. `Operation` collects the operations together with the task that each new
request leaves behind to expire it.
-/

namespace UHorse.Security.Pairing

open UHorse.Lib

/-- The variants of `UHorseError` that pairing returns. -/
inductive PairingError
  | internalError (message : String)
  | deviceNotPaired (deviceId : String)
deriving DecidableEq

inductive PairingStatus
  | pending
  | awaitingConfirmation
  | paired
  | rejected
  | expired
  | cancelled
deriving DecidableEq, Repr

structure PairingRequest where
  requestId : String
  deviceId : String
  deviceName : String
  deviceType : String
  userId : Option String
  pairingCode : String
  status : PairingStatus
  createdAt : Nat
  expiresAt : Nat
deriving DecidableEq

/-- A registered device; the capabilities are always the default ones. -/
structure DeviceInfo where
  id : String
  name : String
  paired : Bool
  pairedAt : Option Nat
  lastSeen : Nat
deriving DecidableEq

namespace PairingRequest

/-- There are draws. -/
instance neZero_draws : @NeZero Nat Zero.ofOfNat0 1000000 := Nat.instNeZeroSucc

/-- Six digits, with zeros in front. -/
def generatePairingCode (draw : Fin 1000000) : String :=
  let digits := toString draw.val
  "".pushn '0' (6 - digits.length) ++ digits

def isExpired (request : PairingRequest) (now : Nat) : Bool := request.expiresAt < now

def confirm (request : PairingRequest) (userId : String) : PairingRequest :=
  { request with status := .paired, userId := some userId }

def reject (request : PairingRequest) : PairingRequest := { request with status := .rejected }

def cancel (request : PairingRequest) : PairingRequest := { request with status := .cancelled }

def expire (request : PairingRequest) : PairingRequest := { request with status := .expired }

/-- Neither decided nor expired. -/
def isOpen (request : PairingRequest) : Bool :=
  request.status = .pending || request.status = .awaitingConfirmation

end PairingRequest

structure DevicePairingManager where
  devices : HashMap String DeviceInfo
  pairingRequests : HashMap String PairingRequest
  codeToRequest : HashMap String String
  pairingTtl : Nat

namespace DevicePairingManager

/-! ## Operations -/

/-- `DevicePairingManager::new` with `with_pairing_ttl`. -/
def new (pairingTtl : Nat) : DevicePairingManager := ⟨∅, ∅, ∅, pairingTtl⟩

/-- The request that `initiate_pairing` makes. -/
def newRequest (manager : DevicePairingManager) (deviceId deviceName deviceType requestId : String)
    (draw : Fin 1000000) (now : Nat) : PairingRequest where
  requestId := requestId
  deviceId := deviceId
  deviceName := deviceName
  deviceType := deviceType
  userId := none
  pairingCode := PairingRequest.generatePairingCode draw
  status := .pending
  createdAt := now
  expiresAt := now + manager.pairingTtl

def initiatePairing (manager : DevicePairingManager)
    (deviceId deviceName deviceType requestId : String) (draw : Fin 1000000) (now : Nat) :
    DevicePairingManager × PairingRequest :=
  let request := manager.newRequest deviceId deviceName deviceType requestId draw now
  ({ manager with
      devices := manager.devices.insert deviceId ⟨deviceId, deviceName, false, none, now⟩
      pairingRequests := manager.pairingRequests.insert requestId request
      codeToRequest := manager.codeToRequest.insert request.pairingCode requestId }, request)

/-- The task left behind by `initiate_pairing`. -/
def expireRequest (manager : DevicePairingManager) (requestId : String) : DevicePairingManager :=
  match manager.pairingRequests.lookup requestId with
  | none => manager
  | some request =>
    if request.isOpen then
      { manager with
        pairingRequests := manager.pairingRequests.insert requestId request.expire
        codeToRequest := manager.codeToRequest.erase request.pairingCode }
    else manager

/-- The request a code leads to, with its id. -/
def findByCode (manager : DevicePairingManager) (code : String) :
    Except PairingError (String × PairingRequest) :=
  match manager.codeToRequest.lookup code with
  | none => .error (.internalError "Invalid pairing code")
  | some requestId =>
    match manager.pairingRequests.lookup requestId with
    | none => .error (.internalError "Pairing request not found")
    | some request => .ok (requestId, request)

def confirmPairing (manager : DevicePairingManager) (code userId : String) (now : Nat) :
    DevicePairingManager × Except PairingError DeviceInfo :=
  match manager.findByCode code with
  | .error error => (manager, .error error)
  | .ok (requestId, request) =>
    if request.isExpired now then
      ({ manager with
          pairingRequests := manager.pairingRequests.insert requestId request.expire },
        .error (.internalError "Pairing request expired"))
    else
      let requests := manager.pairingRequests.insert requestId (request.confirm userId)
      match manager.devices.lookup request.deviceId with
      | none =>
        ({ manager with pairingRequests := requests },
          .error (.deviceNotPaired request.deviceId))
      | some device =>
        let device := { device with paired := true, pairedAt := some now }
        ({ manager with
            devices := manager.devices.insert request.deviceId device
            pairingRequests := requests
            codeToRequest := manager.codeToRequest.erase code }, .ok device)

def rejectPairing (manager : DevicePairingManager) (code : String) :
    DevicePairingManager × Except PairingError Unit :=
  match manager.findByCode code with
  | .error error => (manager, .error error)
  | .ok (requestId, request) =>
    ({ manager with
        pairingRequests := manager.pairingRequests.insert requestId request.reject
        codeToRequest := manager.codeToRequest.erase code }, .ok ())

def getPairingRequest (manager : DevicePairingManager) (requestId : String) :
    Except PairingError PairingRequest :=
  match manager.pairingRequests.lookup requestId with
  | none => .error (.internalError "Pairing request not found")
  | some request => .ok request

def cancelPairing (manager : DevicePairingManager) (requestId : String) :
    DevicePairingManager × Except PairingError Unit :=
  match manager.getPairingRequest requestId with
  | .error error => (manager, .error error)
  | .ok request =>
    ({ manager with
        pairingRequests := manager.pairingRequests.insert requestId request.cancel
        codeToRequest := manager.codeToRequest.erase request.pairingCode }, .ok ())

/-- What `cleanup_expired_requests` removes. -/
def isStale (now : Nat) (request : PairingRequest) : Bool :=
  request.isExpired now || request.status = .rejected || request.status = .cancelled

/-- `order` lists the requests as the iteration sees them. -/
def cleanupExpiredRequests (manager : DevicePairingManager) (order : List (String × PairingRequest))
    (now : Nat) : DevicePairingManager × Nat :=
  let stale := order.filter fun entry => isStale now entry.2
  ({ manager with
      pairingRequests := manager.pairingRequests.eraseAll (stale.map Prod.fst)
      codeToRequest := manager.codeToRequest.eraseAll
        (stale.map fun entry => entry.2.pairingCode) }, stale.length)

def unpairDevice (manager : DevicePairingManager) (deviceId : String) :
    DevicePairingManager × Except PairingError Unit :=
  match manager.devices.lookup deviceId with
  | none => (manager, .error (.deviceNotPaired deviceId))
  | some device =>
    ({ manager with
        devices := manager.devices.insert deviceId
          { device with paired := false, pairedAt := none } }, .ok ())

end DevicePairingManager

/-! ## Sequences of operations -/

/-- The operations that change the requests, with what they get from outside. -/
inductive Operation
  | initiate (deviceId deviceName deviceType requestId : String) (draw : Fin 1000000)
  | confirm (code userId : String)
  | reject (code : String)
  | cancel (requestId : String)
  | cleanup (order : List (String × PairingRequest))
  | expire (requestId : String)

def DevicePairingManager.perform (manager : DevicePairingManager) (now : Nat) :
    Operation → DevicePairingManager
  | .initiate deviceId deviceName deviceType requestId draw =>
    (manager.initiatePairing deviceId deviceName deviceType requestId draw now).1
  | .confirm code userId => (manager.confirmPairing code userId now).1
  | .reject code => (manager.rejectPairing code).1
  | .cancel requestId => (manager.cancelPairing requestId).1
  | .cleanup order => (manager.cleanupExpiredRequests order now).1
  | .expire requestId => manager.expireRequest requestId

/-- New ids are fresh, an iteration sees every request, and no request expires early. -/
def Operation.Fits (manager : DevicePairingManager) (now : Nat) : Operation → Prop
  | .initiate _ _ _ requestId _ => requestId ∉ manager.pairingRequests
  | .cleanup order => manager.pairingRequests.Lists order
  | .expire requestId => ∀ request ∈ manager.pairingRequests.lookup requestId,
      request.expiresAt ≤ now
  | _ => True

/-- The manager and the time. -/
structure Pairings where
  manager : DevicePairingManager
  now : Nat

/-- An operation some time after the last one. -/
structure Call where
  elapsed : Nat
  operation : Operation

def Pairings.after (s : Pairings) (call : Call) : Pairings :=
  ⟨s.manager.perform (s.now + call.elapsed) call.operation, s.now + call.elapsed⟩

end UHorse.Security.Pairing
