import UHorse.Lib.Bytes
import UHorse.Lib.System
import UHorse.Protocol.Types

/-!
# Backup keys and the encryption of backups

The manager marks the active key twice, by a flag of the key and by its id. Each call that writes
holds the lock of the keys from its start to its end. Data is combined with a nonce that is read
off the clock, and no key enters.

The hasher of the standard library is a parameter, a function of what is written to it.
-/

namespace UHorse.Backup

open UHorse.Lib UHorse.Protocol

/-- The errors that encryption returns. -/
inductive BackupError
  | encryptionError (message : String)
  | notFound (message : String)
deriving DecidableEq

structure EncryptionKey where
  id : String
  name : String
  version : UInt32
  createdAt : DateTime
  active : Bool
deriving DecidableEq

def EncryptionKey.new (name id : String) (now : DateTime) : EncryptionKey where
  id := id
  name := name
  version := 1
  createdAt := now
  active := true

structure EncryptionConfig where
  enabled : Bool := true
  keyLength : UInt64 := 32
  saltLength : UInt64 := 16
  nonceLength : UInt64 := 12

/-- Each key is stored under its own id. -/
@[ext]
structure EncryptionManager where
  config : EncryptionConfig
  keys : HashMap String EncryptionKey
  activeKeyId : Option String
  named : ∀ id key, keys.lookup id = some key → key.id = id

namespace EncryptionManager

def new (config : EncryptionConfig) : EncryptionManager where
  config := config
  keys := ∅
  activeKeyId := none
  named := fun id key found => by simp at found

/-- `generate_key`, with the id that is drawn for the key. -/
def generateKey (manager : EncryptionManager) (name id : String) (now : DateTime) :
    EncryptionManager where
  config := manager.config
  keys := manager.keys.insert id (.new name id now)
  activeKeyId := some id
  named := by
    intro other key found
    rw [HashMap.lookup_insert_ite] at found
    split at found
    · next same =>
        cases found
        exact same.symm
    · exact manager.named other key found

/-- All keys are deactivated first. -/
def deactivateAll (manager : EncryptionManager) : EncryptionManager where
  config := manager.config
  keys := manager.keys.mapValues fun key => { key with active := false }
  activeKeyId := manager.activeKeyId
  named := by
    intro id key found
    rw [HashMap.lookup_mapValues, Option.map_eq_some_iff] at found
    obtain ⟨old, found, rfl⟩ := found
    exact manager.named id old found

/-- The key is stored back as active, and its id becomes the active one. -/
def mark (manager : EncryptionManager) (keyId : String) (key : EncryptionKey)
    (found : manager.keys.lookup keyId = some key) : EncryptionManager where
  config := manager.config
  keys := manager.keys.insert keyId { key with active := true }
  activeKeyId := some keyId
  named := by
    intro other changed stored
    rw [HashMap.lookup_insert_ite] at stored
    split at stored
    · next same =>
        cases stored
        exact (manager.named keyId key found).trans same.symm
    · exact manager.named other changed stored

def activateKey (manager : EncryptionManager) (keyId : String) : Bool × EncryptionManager :=
  match found : manager.deactivateAll.keys.lookup keyId with
  | some key => (true, manager.deactivateAll.mark keyId key found)
  | none => (false, manager.deactivateAll)

def deleteKey (manager : EncryptionManager) (keyId : String) : Bool × EncryptionManager :=
  match manager.keys.lookup keyId with
  | none => (false, manager)
  | some key =>
    (true,
      { config := manager.config
        keys := manager.keys.erase keyId
        activeKeyId := if manager.activeKeyId = some key.id then none else manager.activeKeyId
        named := by
          intro other stored found
          rw [HashMap.lookup_erase_ite] at found
          split at found
          · cases found
          · exact manager.named other stored found })

end EncryptionManager

/-! ## Encryption -/

structure EncryptedData where
  keyId : String
  nonce : List UInt8
  data : List UInt8
  tag : List UInt8
deriving DecidableEq

/-- What the hash of a byte slice writes: its length and its bytes. -/
def hashWrites (bytes : List UInt8) : List (List UInt8) :=
  [Bytes.littleEndian (.ofNat 64 bytes.length), bytes]

/-- `timestamp_nanos_opt().unwrap_or(0)`. -/
def timestampNanos (now : DateTime) : Int64 :=
  if -9223372036854775808 ≤ now ∧ now < 9223372036854775808 then .ofInt now else 0

/-- The most bytes a vector can be created for. -/
def maxCapacity : Nat := 9223372036854775807

section Hasher

variable (finish : List (List UInt8) → UInt64)

/-- The bytes of the hash, over and over; `none` is the panic on a capacity that is too large. -/
def EncryptionManager.generateNonce (manager : EncryptionManager) (now : DateTime) :
    Option (List UInt8) :=
  let hash := Bytes.littleEndian
    (finish [Bytes.littleEndian (timestampNanos now).toBitVec]).toBitVec
  if manager.config.nonceLength.toNat ≤ maxCapacity then
    some ((List.range manager.config.nonceLength.toNat).map fun i => hash.getD (i % 8) 0)
  else none

/-- The bytes from a position on; `none` is the panic of the remainder by zero. -/
def xorFrom (nonce : List UInt8) : Nat → List UInt8 → Option (List UInt8)
  | _, [] => some []
  | i, byte :: rest =>
    if nonce.length = 0 then none
    else (xorFrom nonce (i + 1) rest).map fun bytes =>
      (byte ^^^ nonce.getD (i % nonce.length) 0) :: bytes

def xorEncrypt (data nonce : List UInt8) : Option (List UInt8) := xorFrom nonce 0 data

def computeTag (data nonce : List UInt8) : List UInt8 :=
  Bytes.littleEndian (finish (hashWrites data ++ hashWrites nonce)).toBitVec

namespace EncryptionManager

/-- `none` is a panic. -/
def encrypt (manager : EncryptionManager) (data : List UInt8) (keyId : String) (now : DateTime) :
    Option (Except BackupError EncryptedData) :=
  if keyId ∈ manager.keys then do
    let nonce ← manager.generateNonce finish now
    let encrypted ← xorEncrypt data nonce
    some (.ok ⟨keyId, nonce, encrypted, computeTag finish encrypted nonce⟩)
  else some (.error (.notFound ("Key not found: " ++ keyId)))

def decrypt (manager : EncryptionManager) (encrypted : EncryptedData) :
    Option (Except BackupError (List UInt8)) :=
  if encrypted.keyId ∈ manager.keys then
    if computeTag finish encrypted.data encrypted.nonce ≠ encrypted.tag then
      some (.error (.encryptionError "Authentication tag verification failed"))
    else (xorEncrypt encrypted.data encrypted.nonce).map .ok
  else some (.error (.notFound ("Key not found: " ++ encrypted.keyId)))

/-- What one manager encrypts, another one decrypts to the same data. -/
def RoundTrips (manager later : EncryptionManager) (data : List UInt8) (keyId : String)
    (now : DateTime) : Prop :=
  ∃ encrypted, manager.encrypt finish data keyId now = some (.ok encrypted) ∧
    later.decrypt finish encrypted = some (.ok data)

end EncryptionManager

/-! ## The round trip -/

/-- Without a nonce, only no data is encrypted. -/
theorem xorFrom_isSome (nonce : List UInt8) (i : Nat) (data : List UInt8) :
    (∃ encrypted, xorFrom nonce i data = some encrypted) ↔ data = [] ∨ nonce.length ≠ 0 := by
  by_cases empty : nonce.length = 0
  · cases data with
    | nil => exact iff_of_true ⟨[], rfl⟩ (.inl rfl)
    | cons byte rest => simp [xorFrom, empty]
  · refine iff_of_true ?_ (.inr empty)
    induction data generalizing i with
    | nil => exact ⟨[], rfl⟩
    | cons byte rest ih =>
      obtain ⟨bytes, later⟩ := ih (i + 1)
      exact ⟨_, by rw [xorFrom, if_neg empty, later]; rfl⟩

/-- The same bytes are taken from the nonce both times. -/
theorem xorFrom_xorFrom {nonce : List UInt8} {i : Nat} {data encrypted : List UInt8}
    (done : xorFrom nonce i data = some encrypted) : xorFrom nonce i encrypted = some data := by
  induction data generalizing i encrypted with
  | nil =>
    cases done
    rfl
  | cons byte rest ih =>
    rw [xorFrom] at done
    split at done
    · cases done
    · next present =>
        obtain ⟨bytes, later, rfl⟩ := Option.map_eq_some_iff.mp done
        rw [xorFrom, if_neg present, ih later, Option.map_some, UInt8.xor_assoc,
          UInt8.xor_self, UInt8.xor_zero]

/-- The nonce has the length that is configured. -/
theorem generateNonce_eq_some (manager : EncryptionManager) (now : DateTime)
    (fits : manager.config.nonceLength.toNat ≤ maxCapacity) :
    ∃ nonce, manager.generateNonce finish now = some nonce ∧
      nonce.length = manager.config.nonceLength.toNat := by
  refine ⟨_, if_pos fits, ?_⟩
  rw [List.length_map, List.length_range]

theorem length_ne_zero_iff {nonce : List UInt8} {length : UInt64}
    (sized : nonce.length = length.toNat) : nonce.length ≠ 0 ↔ length ≠ 0 := by
  rw [sized, ne_eq, ne_eq, ← UInt64.toNat_inj]
  rfl

variable {manager later : EncryptionManager} {data : List UInt8} {keyId : String} {now : DateTime}

/-- Under the tag that was computed, the data is decrypted. -/
theorem decrypt_of_xorEncrypt {nonce encrypted : List UInt8} (existing : keyId ∈ later.keys)
    (done : xorEncrypt data nonce = some encrypted) :
    later.decrypt finish ⟨keyId, nonce, encrypted, computeTag finish encrypted nonce⟩ =
      some (.ok data) := by
  rw [EncryptionManager.decrypt, if_pos existing, if_neg (not_not_intro rfl)]
  have back : xorEncrypt encrypted nonce = some data := xorFrom_xorFrom done
  rw [back, Option.map_some]

/-- The round trip works just with a key that exists and a nonce to take bytes from. -/
theorem roundTrips_iff :
    manager.RoundTrips finish later data keyId now ↔
      (keyId ∈ manager.keys ∧ keyId ∈ later.keys) ∧
        manager.config.nonceLength.toNat ≤ maxCapacity ∧
        (data = [] ∨ manager.config.nonceLength ≠ 0) := by
  constructor
  · rintro ⟨encrypted, sent, received⟩
    rw [EncryptionManager.encrypt] at sent
    split at sent
    · next existing =>
        obtain ⟨nonce, drawn, sent⟩ := Option.bind_eq_some_iff.mp sent
        obtain ⟨bytes, done, sent⟩ := Option.bind_eq_some_iff.mp sent
        cases sent
        have fits : manager.config.nonceLength.toNat ≤ maxCapacity := by
          by_contra large
          rw [EncryptionManager.generateNonce, if_neg large] at drawn
          cases drawn
        obtain ⟨other, same, sized⟩ := generateNonce_eq_some finish manager now fits
        cases drawn.symm.trans same
        have present := (xorFrom_isSome nonce 0 data).mp ⟨bytes, done⟩
        rw [length_ne_zero_iff sized] at present
        refine ⟨⟨existing, ?_⟩, fits, present⟩
        by_contra missing
        rw [EncryptionManager.decrypt, if_neg missing] at received
        cases received
    · cases sent
  · rintro ⟨⟨existing, kept⟩, fits, present⟩
    obtain ⟨nonce, drawn, sized⟩ := generateNonce_eq_some finish manager now fits
    rw [← length_ne_zero_iff sized] at present
    obtain ⟨bytes, done⟩ := (xorFrom_isSome nonce 0 data).mpr present
    have encrypted : xorEncrypt data nonce = some bytes := done
    refine ⟨⟨keyId, nonce, bytes, computeTag finish bytes nonce⟩, ?_,
      decrypt_of_xorEncrypt finish kept done⟩
    rw [EncryptionManager.encrypt, if_pos existing, drawn, Option.bind_eq_bind, Option.bind_some,
      encrypted]
    rfl

end Hasher

/-! ## Runs -/

inductive KeyCall
  | generate (name id : String) (now : DateTime)
  | activate (keyId : String)
  | delete (keyId : String)

namespace EncryptionManager

def after (manager : EncryptionManager) : KeyCall → EncryptionManager
  | .generate name id now => manager.generateKey name id now
  | .activate keyId => (manager.activateKey keyId).2
  | .delete keyId => (manager.deleteKey keyId).2

/-- The key with this id is stored and marked active. -/
def Marked (manager : EncryptionManager) (id : String) : Prop :=
  ∃ key, manager.keys.lookup id = some key ∧ key.active = true

/-- At most one key is marked active, and a key is marked just when its id is the active one. -/
structure WellMarked (manager : EncryptionManager) : Prop where
  atMostOne : ∀ id other, manager.Marked id → manager.Marked other → id = other
  marked_iff : ∀ id ∈ manager.keys, manager.Marked id ↔ manager.activeKeyId = some id

end EncryptionManager

/-- The marks are right behind the call, and an activation that fails changes nothing. -/
structure KeyCall.MarksWell (manager : EncryptionManager) (call : KeyCall) : Prop where
  marked : (manager.after call).WellMarked
  unchanged : ∀ keyId, call = .activate keyId → (manager.activateKey keyId).1 = false →
    manager.after call = manager

/-- A key is generated while no other key is marked, and a key that does not exist is activated
while no key is marked. -/
def KeyCall.Careful (manager : EncryptionManager) : KeyCall → Prop
  | .generate _ id _ => ∀ other, manager.Marked other → other = id
  | .activate keyId => keyId ∈ manager.keys ∨ ∀ other, ¬ manager.Marked other
  | .delete _ => True

namespace EncryptionManager

variable {manager : EncryptionManager} {keyId other : String}

theorem Marked.mem (marked : manager.Marked keyId) : keyId ∈ manager.keys := by
  obtain ⟨key, found, -⟩ := marked
  exact HashMap.mem_of_lookup found

theorem marked_generateKey (name : String) (now : DateTime) :
    (manager.generateKey name keyId now).Marked other ↔ other = keyId ∨ manager.Marked other := by
  rw [Marked, Marked, generateKey, HashMap.lookup_insert_ite]
  by_cases same : other = keyId
  · simp [same, EncryptionKey.new]
  · simp [same]

theorem not_marked_deactivateAll : ¬ manager.deactivateAll.Marked other := by
  rintro ⟨key, found, active⟩
  rw [deactivateAll, HashMap.lookup_mapValues, Option.map_eq_some_iff] at found
  obtain ⟨old, -, rfl⟩ := found
  cases active

theorem marked_mark {key : EncryptionKey} (found : manager.keys.lookup keyId = some key) :
    (manager.mark keyId key found).Marked other ↔ other = keyId ∨ manager.Marked other := by
  rw [Marked, Marked, mark, HashMap.lookup_insert_ite]
  by_cases same : other = keyId
  · simp [same]
  · simp [same]

theorem activateKey_of_mem (existing : keyId ∈ manager.keys) :
    ∃ key found,
      manager.activateKey keyId = (true, manager.deactivateAll.mark keyId key found) := by
  obtain ⟨old, stored⟩ := Finmap.mem_iff.mp existing
  have found : manager.deactivateAll.keys.lookup keyId = some { old with active := false } := by
    rw [deactivateAll, HashMap.lookup_mapValues, stored, Option.map_some]
  refine ⟨_, found, ?_⟩
  rw [activateKey]
  split
  · next key known =>
      cases found.symm.trans known
      rfl
  · next unknown => cases found.symm.trans unknown

theorem activateKey_of_notMem (missing : keyId ∉ manager.keys) :
    manager.activateKey keyId = (false, manager.deactivateAll) := by
  have unknown : manager.deactivateAll.keys.lookup keyId = none := by
    rw [deactivateAll, HashMap.lookup_mapValues, Finmap.lookup_eq_none.mpr missing, Option.map_none]
  rw [activateKey]
  split
  · next key found => cases unknown.symm.trans found
  · rfl

/-- Where no key is marked, there is nothing to deactivate. -/
theorem deactivateAll_eq (unmarked : ∀ other, ¬ manager.Marked other) :
    manager.deactivateAll = manager := by
  refine EncryptionManager.ext rfl (Finmap.ext_lookup fun id => ?_) rfl
  rw [deactivateAll, HashMap.lookup_mapValues]
  cases found : manager.keys.lookup id with
  | none => rfl
  | some key =>
    have inactive : key.active = false :=
      Bool.eq_false_iff.mpr fun active => unmarked id ⟨key, found, active⟩
    rw [Option.map_some, ← inactive]

theorem WellMarked.of_only (active : manager.activeKeyId = some keyId)
    (only : ∀ other, manager.Marked other ↔ other = keyId) : manager.WellMarked := by
  constructor
  · intro id other first second
    exact ((only id).mp first).trans ((only other).mp second).symm
  · intro id _
    rw [only, active, Option.some.injEq]
    exact eq_comm

theorem wellMarked_new (config : EncryptionConfig) : (new config).WellMarked := by
  have unmarked : ∀ id, ¬ (new config).Marked id := fun id marked =>
    Finmap.notMem_empty marked.mem
  exact ⟨fun id _ marked => absurd marked (unmarked id),
    fun id existing => absurd existing Finmap.notMem_empty⟩

theorem wellMarked_generateKey_iff (name : String) (now : DateTime) :
    (manager.generateKey name keyId now).WellMarked ↔
      ∀ other, manager.Marked other → other = keyId := by
  constructor
  · intro well other marked
    exact well.atMostOne other keyId ((marked_generateKey name now).mpr (.inr marked))
      ((marked_generateKey name now).mpr (.inl rfl))
  · intro only
    refine .of_only rfl fun other => ?_
    rw [marked_generateKey]
    exact or_iff_left_of_imp (only other)

theorem wellMarked_activateKey (existing : keyId ∈ manager.keys) :
    (manager.activateKey keyId).2.WellMarked := by
  obtain ⟨key, found, performed⟩ := activateKey_of_mem existing
  rw [performed]
  refine .of_only rfl fun other => ?_
  rw [marked_mark]
  exact or_iff_left not_marked_deactivateAll

theorem deleteKey_keys (manager : EncryptionManager) (keyId : String) :
    (manager.deleteKey keyId).2.keys = manager.keys.erase keyId := by
  rw [deleteKey]
  split
  · next missing =>
      refine Finmap.ext_lookup fun id => ?_
      rw [HashMap.lookup_erase_ite]
      split
      · next same => rw [same, missing]
      · rfl
  · rfl

theorem deleteKey_activeKeyId (existing : keyId ∈ manager.keys) :
    (manager.deleteKey keyId).2.activeKeyId =
      if manager.activeKeyId = some keyId then none else manager.activeKeyId := by
  rw [deleteKey]
  split
  · next missing => exact absurd existing (Finmap.lookup_eq_none.mp missing)
  · next key found => rw [manager.named keyId key found]

theorem marked_deleteKey :
    (manager.deleteKey keyId).2.Marked other ↔ other ≠ keyId ∧ manager.Marked other := by
  rw [Marked, Marked, deleteKey_keys, HashMap.lookup_erase_ite]
  by_cases same : other = keyId
  · simp [same]
  · simp [same]

theorem WellMarked.deleteKey (well : manager.WellMarked) (keyId : String) :
    (manager.deleteKey keyId).2.WellMarked := by
  by_cases existing : keyId ∈ manager.keys
  · constructor
    · intro id other first second
      exact well.atMostOne id other (marked_deleteKey.mp first).2 (marked_deleteKey.mp second).2
    · intro id left
      rw [deleteKey_keys, Finmap.mem_erase] at left
      obtain ⟨different, stored⟩ := left
      rw [marked_deleteKey, deleteKey_activeKeyId existing, well.marked_iff id stored,
        and_iff_right different]
      split
      · next active =>
          rw [active, Option.some.injEq]
          exact iff_of_false (Ne.symm different) (by simp)
      · exact Iff.rfl
  · rw [EncryptionManager.deleteKey, Finmap.lookup_eq_none.mpr existing]
    exact well

/-- Whether a call keeps the marks right is seen before it. -/
theorem WellMarked.marksWell_iff (well : manager.WellMarked) (call : KeyCall) :
    call.MarksWell manager ↔ call.Careful manager := by
  cases call with
  | generate name id now =>
    rw [KeyCall.Careful, ← wellMarked_generateKey_iff name now]
    exact ⟨KeyCall.MarksWell.marked, fun marked => ⟨marked, fun _ other => by cases other⟩⟩
  | delete keyId => exact iff_of_true ⟨well.deleteKey keyId, fun _ other => by cases other⟩ trivial
  | activate keyId =>
    by_cases existing : keyId ∈ manager.keys
    · refine iff_of_true ⟨wellMarked_activateKey existing, ?_⟩ (.inl existing)
      rintro _ ⟨⟩ failed
      obtain ⟨key, found, performed⟩ := activateKey_of_mem existing
      rw [performed] at failed
      cases failed
    · have performed := activateKey_of_notMem existing
      rw [KeyCall.Careful, or_iff_right existing]
      constructor
      · intro marks other marked
        have same := marks.unchanged keyId rfl (congrArg Prod.fst performed)
        rw [after, performed] at same
        rw [← same] at marked
        exact not_marked_deactivateAll marked
      · intro unmarked
        have same : manager.after (.activate keyId) = manager := by
          rw [after, performed]
          exact deactivateAll_eq unmarked
        refine ⟨?_, fun _ _ _ => same⟩
        rw [same]
        exact well

end EncryptionManager

/-- The marks stay right in a run just when all of its calls are careful, and data survives the
round trip just with a nonce to take bytes from. -/
theorem marks_and_round_trip_iff (finish : List (List UInt8) → UInt64) (config : EncryptionConfig)
    (calls : List KeyCall) (manager later : EncryptionManager) (data : List UInt8)
    (keyId : String) (now : DateTime) :
    (Along EncryptionManager.after (fun manager call => call.MarksWell manager) (.new config)
        calls ↔
      Along EncryptionManager.after (fun manager call => call.Careful manager) (.new config)
        calls) ∧
    (manager.RoundTrips finish later data keyId now ↔
      (keyId ∈ manager.keys ∧ keyId ∈ later.keys) ∧
        manager.config.nonceLength.toNat ≤ maxCapacity ∧
        (data = [] ∨ manager.config.nonceLength ≠ 0)) := by
  refine ⟨along_congr (fun _ _ _ marks => marks.marked) ?_
    (EncryptionManager.wellMarked_new config),
    roundTrips_iff finish⟩
  exact fun _ call well => well.marksWell_iff call

/-- The second key is generated and both are marked; without a nonce, encryption panics. -/
theorem marks_and_round_trip_fail :
    ¬ Along EncryptionManager.after (fun manager call => call.MarksWell manager) (.new {})
      [.generate "first" "a" 0, .generate "second" "b" 1] ∧
    EncryptionManager.encrypt (fun _ => 0)
      (EncryptionManager.generateKey (.new { nonceLength := 0 }) "first" "a" 0) [1] "a" 2 =
        none := by
  constructor
  · rintro ⟨-, marks, -⟩
    have first : EncryptionManager.Marked
        (((EncryptionManager.new {}).after (.generate "first" "a" 0)).after
          (.generate "second" "b" 1)) "a" := ⟨_, rfl, rfl⟩
    have second : EncryptionManager.Marked
        (((EncryptionManager.new {}).after (.generate "first" "a" 0)).after
          (.generate "second" "b" 1)) "b" := ⟨_, rfl, rfl⟩
    exact absurd (marks.marked.atMostOne _ _ first second) (by decide)
  · rfl

end UHorse.Backup
