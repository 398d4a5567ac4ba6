import UHorse.Lib.Bytes
import UHorse.Lib.Program
import UHorse.Protocol.Types

/-!
# The audit log

An audit event is stored with the hash of the event before it and with its own hash, which is
the SHA-256 of its fields one after the other. The hash function is a parameter: it takes bytes to
the hexadecimal text of their digest.

Persisting an event is a program of three actions: the section under the lock of the counter, the
signing, which reads the clock, and the storing.
-/

namespace UHorse.Observability

open UHorse.Lib UHorse.Protocol

/-! ## Events and their hashes -/

inductive AuditLevel
  | info
  | warn
  | error
deriving DecidableEq

inductive AuditCategory
  | auth
  | tool
  | scheduler
  | session
deriving DecidableEq

/-- The text of `{:?}`. -/
def AuditLevel.debug : AuditLevel → String
  | .info => "Info"
  | .warn => "Warn"
  | .error => "Error"

def AuditCategory.debug : AuditCategory → String
  | .auth => "Auth"
  | .tool => "Tool"
  | .scheduler => "Scheduler"
  | .session => "Session"

structure AuditEvent where
  timestamp : UInt64
  level : AuditLevel
  category : AuditCategory
  actor : Option String
  action : String
  target : Option String
  details : Option Json
  sessionId : Option String

structure SignedAuditEvent where
  event : AuditEvent
  hash : String
  prevHash : Option String
  signedAt : Int64
  sequence : UInt64

/-- The error of a storage, of which the storage in memory returns the two of `verifyChain`. -/
inductive AuditStorageError
  | storageError (message : String)
  | queryError (message : String)
  | signatureVerificationFailed
  | chainIntegrityFailed (index : Nat)
  | notFound (message : String)
deriving DecidableEq

namespace SignedAuditEvent

open Bytes

/-- What is hashed, in the order of the updates of the hasher. -/
def hashInput (event : AuditEvent) (prevHash : Option String) (signedAt : Int64)
    (sequence : UInt64) : List UInt8 :=
  littleEndian event.timestamp.toBitVec ++ utf8 event.level.debug ++
    utf8 event.category.debug ++ utf8 event.action ++ optionalUtf8 event.actor ++
    optionalUtf8 event.target ++ optionalUtf8 event.sessionId ++ optionalUtf8 prevHash ++
    littleEndian signedAt.toBitVec ++ littleEndian sequence.toBitVec

variable (sha256 : List UInt8 → String)

def computeHash (event : AuditEvent) (prevHash : Option String) (signedAt : Int64)
    (sequence : UInt64) : String :=
  sha256 (hashInput event prevHash signedAt sequence)

def new (event : AuditEvent) (prevHash : Option String) (sequence : UInt64) (now : Int64) :
    SignedAuditEvent where
  event := event
  hash := computeHash sha256 event prevHash now sequence
  prevHash := prevHash
  signedAt := now
  sequence := sequence

def verify (signed : SignedAuditEvent) : Bool :=
  computeHash sha256 signed.event signed.prevHash signed.signedAt signed.sequence = signed.hash

end SignedAuditEvent

/-! ## The storage in memory -/

structure InMemoryAuditStorage where
  events : List SignedAuditEvent
  maxEvents : UInt64

namespace InMemoryAuditStorage

variable (sha256 : List UInt8 → String) (storage : InMemoryAuditStorage)

/-- Store an event, without the oldest ones if there are too many. The loop of the source does not
end for a storage without any room. -/
def store (signed : SignedAuditEvent) : InMemoryAuditStorage :=
  let kept := storage.events.drop (storage.events.length + 1 - storage.maxEvents.toNat)
  { storage with events := kept ++ [signed] }

def getLatest : Option SignedAuditEvent := storage.events.getLast?

def latestSequence : UInt64 :=
  match storage.events.getLast? with
  | none => 0
  | some last => last.sequence

/-- Every event has to continue the event before it. -/
def checkLinks : List SignedAuditEvent → Except AuditStorageError Unit
  | prev :: curr :: rest =>
    if curr.prevHash = some prev.hash then checkLinks (curr :: rest)
    else .error (.chainIntegrityFailed curr.sequence.toNat)
  | _ => .ok ()

def verifyChain (fromSeq toSeq : UInt64) : Except AuditStorageError Unit :=
  let relevant := storage.events.filter fun signed =>
    fromSeq ≤ signed.sequence && signed.sequence ≤ toSeq
  if relevant.isEmpty then .ok ()
  else if relevant.all (·.verify sha256) then checkLinks relevant
  else .error .signatureVerificationFailed

end InMemoryAuditStorage

/-! ## The persistor -/

structure AuditPersistor where
  storage : InMemoryAuditStorage
  sequenceCounter : UInt64

/-- Notes name what an action is given. -/
inductive Note
  | counter
  | sign (event : AuditEvent) (prevHash : Option String) (sequence : UInt64)
  | store (signed : SignedAuditEvent)

namespace AuditPersistor

/-- A call reads the clock in seconds. -/
abbrev Process (α : Type) := Program AuditPersistor Int64 Note α

variable (sha256 : List UInt8 → String)

/-- The section under the lock of the counter. -/
def takeSequence : Process (UInt64 × Option String) :=
  Program.update .counter
    (fun _ s => { s with sequenceCounter := s.sequenceCounter + 1 })
    fun _ s => (s.sequenceCounter, s.storage.getLatest.map SignedAuditEvent.hash)

def sign (event : AuditEvent) (prevHash : Option String) (sequence : UInt64) :
    Process SignedAuditEvent :=
  Program.query (.sign event prevHash sequence) fun now _ => .new sha256 event prevHash sequence now

def storeSigned (signed : SignedAuditEvent) : Process Unit :=
  Program.update (.store signed) (fun _ s => { s with storage := s.storage.store signed })
    fun _ _ => ()

def persist (event : AuditEvent) : Process SignedAuditEvent := do
  let (sequence, prevHash) ← takeSequence
  let signed ← sign sha256 event prevHash sequence
  storeSigned signed
  pure signed

def verify (s : AuditPersistor) (fromSeq toSeq : Option UInt64) : Except AuditStorageError Unit :=
  s.storage.verifyChain sha256 (fromSeq.getD 1) (toSeq.getD s.storage.latestSequence)

def new (maxEvents : UInt64) : AuditPersistor := ⟨⟨[], maxEvents⟩, 1⟩

end AuditPersistor

end UHorse.Observability
