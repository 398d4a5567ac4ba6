import UHorse.Lib.Locks
import UHorse.Lib.Runs
import UHorse.Security.Pairing

/-!
# The pairing manager, lock by lock

The operations as programs that take and drop the locks of `devices`, `pairing_requests` and
`code_to_request` around what they read and write. Run without interruption, the sections of
an operation are the operation.

Before an operation asks for a further lock, it marks what it is heading for; the mark changes
nothing.
-/

namespace UHorse.Security.Pairing

open UHorse.Lib

/-! ## What is done under the locks -/

namespace DevicePairingManager

def registerDevice (manager : DevicePairingManager) (request : PairingRequest) :
    DevicePairingManager :=
  { manager with
    devices := manager.devices.insert request.deviceId
      ⟨request.deviceId, request.deviceName, false, none, request.createdAt⟩ }

def storeRequest (manager : DevicePairingManager) (requestId : String)
    (request : PairingRequest) : DevicePairingManager :=
  { manager with pairingRequests := manager.pairingRequests.insert requestId request }

def storeCode (manager : DevicePairingManager) (code requestId : String) : DevicePairingManager :=
  { manager with codeToRequest := manager.codeToRequest.insert code requestId }

def removeCode (manager : DevicePairingManager) (code : String) : DevicePairingManager :=
  { manager with codeToRequest := manager.codeToRequest.erase code }

/-- A confirmation has found the id of its request. -/
def claimRequest (manager : DevicePairingManager) (requestId userId : String) (now : Nat) :
    DevicePairingManager × Except PairingError PairingRequest :=
  match manager.pairingRequests.lookup requestId with
  | none => (manager, .error (.internalError "Pairing request not found"))
  | some request =>
    if request.isExpired now then
      (manager.storeRequest requestId request.expire,
        .error (.internalError "Pairing request expired"))
    else (manager.storeRequest requestId (request.confirm userId), .ok request)

def pairDevice (manager : DevicePairingManager) (deviceId : String) (now : Nat) :
    DevicePairingManager × Except PairingError DeviceInfo :=
  match manager.devices.lookup deviceId with
  | none => (manager, .error (.deviceNotPaired deviceId))
  | some device =>
    let device := { device with paired := true, pairedAt := some now }
    ({ manager with devices := manager.devices.insert deviceId device }, .ok device)

/-- A rejection has found the id of its request. -/
def declineRequest (manager : DevicePairingManager) (requestId : String) :
    DevicePairingManager × Except PairingError Unit :=
  match manager.pairingRequests.lookup requestId with
  | none => (manager, .error (.internalError "Pairing request not found"))
  | some request => (manager.storeRequest requestId request.reject, .ok ())

/-- What a cancellation does to the requests, and the code it is going to remove. -/
def withdrawRequest (manager : DevicePairingManager) (requestId : String) :
    DevicePairingManager × Except PairingError String :=
  match manager.pairingRequests.lookup requestId with
  | none => (manager, .error (.internalError "Pairing request not found"))
  | some request => (manager.storeRequest requestId request.cancel, .ok request.pairingCode)

/-- What the expiry task does to the requests, and the code it is going to remove. -/
def lapseRequest (manager : DevicePairingManager) (requestId : String) :
    DevicePairingManager × Option String :=
  match manager.pairingRequests.lookup requestId with
  | none => (manager, none)
  | some request =>
    if request.isOpen then
      (manager.storeRequest requestId request.expire, some request.pairingCode)
    else (manager, none)

def listPendingRequests (order : List (String × PairingRequest)) : List PairingRequest :=
  (order.map Prod.snd).filter PairingRequest.isOpen

/-- The status of the first request of the device; `order` lists the requests as the iteration
sees them. -/
def requestStatus (deviceId : String) (order : List (String × PairingRequest)) : PairingStatus :=
  match order.find? fun entry => entry.2.deviceId = deviceId with
  | none => .pending
  | some entry => entry.2.status

end DevicePairingManager

/-! ## Operations as programs -/

inductive Lock
  | devices
  | requests
  | codes
deriving DecidableEq, Repr

structure Guarded where
  manager : DevicePairingManager
  locks : Lock → RwLock

/-- What an operation gets from outside under a lock: the clock, a new id and the drawn code,
and the order the requests are iterated in. -/
structure Reading where
  now : Nat
  uuid : String
  draw : Fin 1000000
  order : List (String × PairingRequest)

/-- What an operation is going to ask for, with the locks it holds. -/
inductive Heading
  /-- A code was found; its request is looked up while the codes are being read. -/
  | lookingUp
  /-- A request is confirmed; its device is paired while the requests are held. -/
  | pairing
  /-- A request is decided; its code is removed while the requests are held. -/
  | clearing
  /-- A device is not paired; its requests are looked through while the devices are read. -/
  | inspecting
deriving DecidableEq

inductive Note
  | acquire (lock : Lock) (mode : Mode)
  | release (lock : Lock) (mode : Mode)
  | head (heading : Heading)
  | register (deviceId : String)
  | pair (deviceId userId : String)
  | unpair (deviceId : String)
  | work
deriving DecidableEq

abbrev Process (α : Type) := Program Guarded Reading Note α

namespace Process

def acquire (lock : Lock) (mode : Mode) : Process Unit :=
  Program.await (.acquire lock mode) (fun s => (s.locks lock).admits mode) fun _ s =>
    { s with locks := Function.update s.locks lock ((s.locks lock).take mode) }

def release (lock : Lock) (mode : Mode) : Process Unit :=
  Program.update (.release lock mode)
    (fun _ s => { s with locks := Function.update s.locks lock ((s.locks lock).drop mode) })
    fun _ _ => ()

def head (heading : Heading) : Process Unit := Program.query (.head heading) fun _ _ => ()

def look {α : Type} (value : Reading → DevicePairingManager → α) : Process α :=
  Program.query .work fun reading s => value reading s.manager

def modify (note : Note)
    (change : Reading → DevicePairingManager → DevicePairingManager) : Process Unit :=
  Program.update note (fun reading s => { s with manager := change reading s.manager })
    fun _ _ => ()

/-- Change the manager and return what the change says. -/
def apply {α : Type} (note : Note)
    (change : Reading → DevicePairingManager → DevicePairingManager × α) : Process α :=
  Program.update note (fun reading s => { s with manager := (change reading s.manager).1 })
    fun reading s => (change reading s.manager).2

/-- One section under one lock. -/
def within {α : Type} (lock : Lock) (mode : Mode) (section' : Process α) : Process α := do
  acquire lock mode
  let value ← section'
  release lock mode
  pure value

def initiatePairing (deviceId deviceName deviceType : String) : Process PairingRequest := do
  let request ← look fun reading manager =>
    manager.newRequest deviceId deviceName deviceType reading.uuid reading.draw reading.now
  within .devices .write (modify (.register deviceId) fun _ manager =>
    manager.registerDevice request)
  within .requests .write (modify .work fun _ manager =>
    manager.storeRequest request.requestId request)
  within .codes .write (modify .work fun _ manager =>
    manager.storeCode request.pairingCode request.requestId)
  pure request

/-- Remove a code while the requests are held. -/
def clearCode (code : String) : Process Unit := do
  head .clearing
  within .codes .write (modify .work fun _ manager => manager.removeCode code)

/-- The task that `initiate_pairing` starts for the expiry of its request. -/
def expireRequest (requestId : String) : Process Unit := do
  acquire .requests .write
  let lapsed ← apply .work fun _ manager => manager.lapseRequest requestId
  match lapsed with
  | none => pure ()
  | some code => clearCode code
  release .requests .write

def findCode (code : String) : Process (Option String) :=
  look fun _ manager => manager.codeToRequest.lookup code

def getRequestByCode (code : String) : Process (Except PairingError PairingRequest) :=
  within .codes .read do
    let found ← findCode code
    match found with
    | none => pure (.error (.internalError "Invalid pairing code"))
    | some requestId => do
        head .lookingUp
        within .requests .read (look fun _ manager => manager.getPairingRequest requestId)

def confirmPairing (code userId : String) : Process (Except PairingError DeviceInfo) := do
  acquire .codes .read
  let found ← findCode code
  match found with
  | none => do
      release .codes .read
      pure (.error (.internalError "Invalid pairing code"))
  | some requestId => do
      head .lookingUp
      acquire .requests .write
      let claimed ← apply .work fun reading manager =>
        manager.claimRequest requestId userId reading.now
      match claimed with
      | .error error => do
          release .requests .write
          release .codes .read
          pure (.error error)
      | .ok request => do
          head .pairing
          acquire .devices .write
          let paired ← apply (.pair request.deviceId userId) fun reading manager =>
            manager.pairDevice request.deviceId reading.now
          match paired with
          | .error error => do
              release .devices .write
              release .requests .write
              release .codes .read
              pure (.error error)
          | .ok device => do
              release .codes .read
              clearCode code
              release .devices .write
              release .requests .write
              pure (.ok device)

def rejectPairing (code : String) : Process (Except PairingError Unit) := do
  acquire .codes .read
  let found ← findCode code
  match found with
  | none => do
      release .codes .read
      pure (.error (.internalError "Invalid pairing code"))
  | some requestId => do
      head .lookingUp
      acquire .requests .write
      let declined ← apply .work fun _ manager => manager.declineRequest requestId
      match declined with
      | .error error => do
          release .requests .write
          release .codes .read
          pure (.error error)
      | .ok _ => do
          release .codes .read
          clearCode code
          release .requests .write
          pure (.ok ())

def cancelPairing (requestId : String) : Process (Except PairingError Unit) :=
  within .requests .write do
    let withdrawn ← apply .work fun _ manager => manager.withdrawRequest requestId
    match withdrawn with
    | .error error => pure (.error error)
    | .ok code => do
        clearCode code
        pure (.ok ())

def getPairingRequest (requestId : String) : Process (Except PairingError PairingRequest) :=
  within .requests .read (look fun _ manager => manager.getPairingRequest requestId)

def listPendingRequests : Process (List PairingRequest) :=
  within .requests .read (look fun reading _ =>
    DevicePairingManager.listPendingRequests reading.order)

def cleanupExpiredRequests : Process Nat :=
  within .requests .write do
    head .clearing
    within .codes .write (apply .work fun reading manager =>
      manager.cleanupExpiredRequests reading.order reading.now)

def getPairingStatus (deviceId : String) : Process (Except PairingError PairingStatus) :=
  within .devices .read do
    let found ← look fun _ manager => manager.devices.lookup deviceId
    match found with
    | none => pure (.error (.deviceNotPaired deviceId))
    | some device =>
      if device.paired then pure (.ok .paired)
      else do
        head .inspecting
        within .requests .read (look fun reading _ =>
          .ok (DevicePairingManager.requestStatus deviceId reading.order))

def unpairDevice (deviceId : String) : Process (Except PairingError Unit) :=
  within .devices .write (apply (.unpair deviceId) fun _ manager => manager.unpairDevice deviceId)

end Process

end UHorse.Security.Pairing
