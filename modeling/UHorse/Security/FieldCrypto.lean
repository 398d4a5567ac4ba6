import UHorse.Lib.System
import UHorse.Protocol.Types

/-!
# Fields encrypted under rotating keys

A `KeyManager` keeps every key it was given, each under an id made of the second in which it
was added. `encrypt` uses the primary key and writes its id into the field, `decrypt` takes
the first key of that id.

AES-256-GCM is a parameter. What is assumed of it is that decryption inverts encryption
under the same key and fails under any other.
-/

namespace UHorse.Security.FieldCrypto

open UHorse.Lib UHorse.Protocol

@[ext]
structure EncryptionKey where
  bytes : Vector UInt8 32
deriving DecidableEq

structure KeyId where
  value : String
deriving DecidableEq

structure KeyVersion where
  id : KeyId
  key : EncryptionKey
  createdAt : UInt64
  isPrimary : Bool

/-- The primary key is one of the keys. -/
structure KeyManager where
  keys : List KeyVersion
  primaryKeyIdx : Nat
  inside : primaryKeyIdx < keys.length

structure EncryptedField where
  keyId : KeyId
  nonce : List UInt8
  ciphertext : List UInt8

abbrev Nonce := Vector UInt8 12

/-- `Nonce::from_slice` panics on a slice of another length. -/
def Nonce.fromSlice? (slice : List UInt8) : Option Nonce :=
  if sized : slice.length = 12 then some ⟨slice.toArray, by simpa using sized⟩ else none

structure Aes256Gcm where
  encrypt : EncryptionKey → Nonce → List UInt8 → Option (List UInt8)
  decrypt : EncryptionKey → Nonce → List UInt8 → Option (List UInt8)

structure Aes256Gcm.Sound (cipher : Aes256Gcm) : Prop where
  inverts : ∀ key nonce plaintext ciphertext, cipher.encrypt key nonce plaintext = some ciphertext →
    cipher.decrypt key nonce ciphertext = some plaintext
  foreign : ∀ key nonce plaintext ciphertext, cipher.encrypt key nonce plaintext = some ciphertext →
    ∀ other ≠ key, cipher.decrypt other nonce ciphertext = none

/-- `chrono::DateTime::timestamp`. -/
def timestamp (now : DateTime) : Int := now / 1000000000

namespace KeyManager

/-- A key with the two readings of the clock that go into it. -/
def version (key : EncryptionKey) (idAt createdAt : DateTime) (isPrimary : Bool) : KeyVersion where
  id := ⟨"key-" ++ (timestamp idAt).repr⟩
  key := key
  createdAt := .ofInt (timestamp createdAt)
  isPrimary := isPrimary

def new (primaryKey : EncryptionKey) (idAt createdAt : DateTime) : KeyManager where
  keys := [version primaryKey idAt createdAt true]
  primaryKeyIdx := 0
  inside := Nat.zero_lt_one

def primary (manager : KeyManager) : KeyVersion :=
  manager.keys.get ⟨manager.primaryKeyIdx, manager.inside⟩

def primaryKey (manager : KeyManager) : EncryptionKey := manager.primary.key

def primaryKeyId (manager : KeyManager) : KeyId := manager.primary.id

def addKey (manager : KeyManager) (key : EncryptionKey) (idAt createdAt : DateTime) :
    KeyManager where
  keys := manager.keys ++ [version key idAt createdAt false]
  primaryKeyIdx := manager.primaryKeyIdx
  inside := by
    have inside := manager.inside
    simp only [List.length_append, List.length_singleton]
    omega

def rotate (manager : KeyManager) (newKey : EncryptionKey) (idAt createdAt : DateTime) :
    KeyManager where
  keys := manager.keys.modify manager.primaryKeyIdx (fun old => { old with isPrimary := false }) ++
    [version newKey idAt createdAt true]
  primaryKeyIdx := manager.keys.length
  inside := by simp

def getKey (manager : KeyManager) (id : KeyId) : Option EncryptionKey :=
  (manager.keys.find? fun version => version.id = id).map KeyVersion.key

end KeyManager

/-- What a call of `decrypt` comes to. -/
inductive Decrypted
  | returned (result : Except String (List UInt8))
  | panicked

namespace FieldEncryptor

def encrypt (cipher : Aes256Gcm) (manager : KeyManager) (plaintext : List UInt8) (nonce : Nonce) :
    Except String EncryptedField :=
  match cipher.encrypt manager.primaryKey nonce plaintext with
  | some ciphertext => .ok ⟨manager.primaryKeyId, nonce.toList, ciphertext⟩
  | none => .error "Encryption failed: aead::Error"

def decrypt (cipher : Aes256Gcm) (manager : KeyManager) (encrypted : EncryptedField) : Decrypted :=
  match manager.getKey encrypted.keyId with
  | none => .returned (.error ("Key not found: " ++ encrypted.keyId.value))
  | some key =>
    match Nonce.fromSlice? encrypted.nonce with
    | none => .panicked
    | some nonce =>
      match cipher.decrypt key nonce encrypted.ciphertext with
      | some plaintext => .returned (.ok plaintext)
      | none => .returned (.error "Decryption failed: aead::Error")

end FieldEncryptor

/-! ## Runs -/

/-- An operation with what it draws and reads of the clock. -/
inductive Operation
  | encrypt (plaintext : List UInt8) (nonce : Nonce)
  | rotateKey (newKey : EncryptionKey) (idAt createdAt : DateTime)
  | addKey (key : EncryptionKey) (idAt createdAt : DateTime)

/-- A field that `encrypt` returned, and for what. -/
structure Issued where
  field : EncryptedField
  plaintext : List UInt8

structure State where
  keyManager : KeyManager
  issued : List Issued

namespace State

def new (key : EncryptionKey) (idAt createdAt : DateTime) : State := ⟨.new key idAt createdAt, []⟩

def apply (cipher : Aes256Gcm) (s : State) : Operation → State
  | .encrypt plaintext nonce =>
    match FieldEncryptor.encrypt cipher s.keyManager plaintext nonce with
    | .ok field => { s with issued := ⟨field, plaintext⟩ :: s.issued }
    | .error _ => s
  | .rotateKey newKey idAt createdAt =>
    { s with keyManager := s.keyManager.rotate newKey idAt createdAt }
  | .addKey key idAt createdAt => { s with keyManager := s.keyManager.addKey key idAt createdAt }

/-- Every field returned so far is decrypted to its plaintext. -/
def Readable (cipher : Aes256Gcm) (s : State) : Prop :=
  ∀ issued ∈ s.issued,
    FieldEncryptor.decrypt cipher s.keyManager issued.field = .returned (.ok issued.plaintext)

end State

/-- The oldest key with the id of the primary key is the primary key. -/
def PrimaryFirst (manager : KeyManager) : Prop :=
  ∀ older oldest newer, manager.keys = older ++ oldest :: newer →
    oldest.id = manager.primaryKeyId → (∀ version ∈ older, version.id ≠ manager.primaryKeyId) →
    oldest.key = manager.primaryKey

/-- An encryption that succeeds finds the primary key first of its id. -/
def Unshadowed (cipher : Aes256Gcm) (s : State) : Operation → Prop
  | .encrypt plaintext nonce =>
    (cipher.encrypt s.keyManager.primaryKey nonce plaintext).isSome = true →
      PrimaryFirst s.keyManager
  | .rotateKey _ _ _ | .addKey _ _ _ => True

/-! ## Looking up a key -/

section Lookup

variable {manager : KeyManager} {id : KeyId} {key : EncryptionKey}

theorem getKey_eq_some_iff : manager.getKey id = some key ↔
    ∃ older oldest newer, manager.keys = older ++ oldest :: newer ∧ oldest.id = id ∧
      oldest.key = key ∧ ∀ version ∈ older, version.id ≠ id := by
  rw [KeyManager.getKey, Option.map_eq_some_iff]
  constructor
  · rintro ⟨oldest, found, rfl⟩
    obtain ⟨same, older, newer, whole, others⟩ := List.find?_eq_some_iff_append.mp found
    exact ⟨older, oldest, newer, whole, by simpa using same, rfl, by simpa using others⟩
  · rintro ⟨older, oldest, newer, whole, same, rfl, others⟩
    refine ⟨oldest, List.find?_eq_some_iff_append.mpr ⟨by simpa using same, ?_⟩, rfl⟩
    exact ⟨older, newer, whole, by simpa using others⟩

theorem exists_getKey_primaryKeyId (manager : KeyManager) :
    ∃ key, manager.getKey manager.primaryKeyId = some key := by
  rw [KeyManager.getKey]
  refine Option.isSome_iff_exists.mp ?_
  rw [Option.isSome_map, List.find?_isSome]
  exact ⟨manager.primary, List.get_mem _ _, by simp [KeyManager.primaryKeyId]⟩

theorem primaryFirst_iff :
    PrimaryFirst manager ↔ manager.getKey manager.primaryKeyId = some manager.primaryKey := by
  constructor
  · intro first
    obtain ⟨key, found⟩ := exists_getKey_primaryKeyId manager
    obtain ⟨older, oldest, newer, whole, same, rfl, others⟩ := getKey_eq_some_iff.mp found
    rw [found, first older oldest newer whole same others]
  · intro found older oldest newer whole same others
    have here : manager.getKey manager.primaryKeyId = some oldest.key :=
      getKey_eq_some_iff.mpr ⟨older, oldest, newer, whole, same, rfl, others⟩
    exact Option.some.inj (here.symm.trans found)

/-- What an id finds depends on the ids and the keys only. -/
theorem getKey_eq (manager : KeyManager) (id : KeyId) :
    manager.getKey id = ((manager.keys.map fun version => (version.id, version.key)).find?
      fun entry => entry.1 = id).map Prod.snd := by
  rw [List.find?_map, Option.map_map]
  rfl

/-- What an id finds it finds ever after. -/
theorem getKey_addKey (found : manager.getKey id = some key) (newKey : EncryptionKey)
    (idAt createdAt : DateTime) : (manager.addKey newKey idAt createdAt).getKey id = some key := by
  rw [getKey_eq] at found ⊢
  rw [KeyManager.addKey, List.map_append, List.find?_append, Option.map_or, found, Option.some_or]

theorem getKey_rotate (found : manager.getKey id = some key) (newKey : EncryptionKey)
    (idAt createdAt : DateTime) : (manager.rotate newKey idAt createdAt).getKey id = some key := by
  have entries : (manager.keys.modify manager.primaryKeyIdx
      fun old => { old with isPrimary := false }).map (fun version => (version.id, version.key)) =
        manager.keys.map fun version => (version.id, version.key) := by
    refine List.ext_getElem? fun place => ?_
    simp only [List.getElem?_map, List.getElem?_modify]
    split <;> simp [Function.comp_def]
  rw [getKey_eq] at found ⊢
  rw [KeyManager.rotate, List.map_append, entries, List.find?_append, Option.map_or, found,
    Option.some_or]

end Lookup

/-! ## Reading what was encrypted -/

theorem fromSlice?_toList (nonce : Nonce) : Nonce.fromSlice? nonce.toList = some nonce := by
  rw [Nonce.fromSlice?, dif_pos (by simp)]
  simp [Vector.toList]

theorem fromSlice?_eq_none_iff {slice : List UInt8} :
    Nonce.fromSlice? slice = none ↔ slice.length ≠ 12 := by
  rw [Nonce.fromSlice?, dite_eq_right_iff]
  simp

section Reading

variable {cipher : Aes256Gcm} {manager : KeyManager} {key found : EncryptionKey} {id : KeyId}
  {nonce : Nonce} {plaintext ciphertext : List UInt8}

/-- A ciphertext is read just when its own key is found. -/
theorem decrypt_eq_iff (sound : cipher.Sound)
    (sealed : cipher.encrypt key nonce plaintext = some ciphertext)
    (lookup : manager.getKey id = some found) :
    FieldEncryptor.decrypt cipher manager ⟨id, nonce.toList, ciphertext⟩ =
      .returned (.ok plaintext) ↔ found = key := by
  simp only [FieldEncryptor.decrypt, lookup, fromSlice?_toList]
  constructor
  · intro reads
    by_contra other
    simp [sound.foreign key nonce plaintext ciphertext sealed found other] at reads
  · rintro rfl
    rw [sound.inverts found nonce plaintext ciphertext sealed]

/-- `decrypt` panics just when the key is there and the nonce does not have its length. -/
theorem decrypt_eq_panicked_iff (field : EncryptedField) :
    FieldEncryptor.decrypt cipher manager field = .panicked ↔
      manager.getKey field.keyId ≠ none ∧ field.nonce.length ≠ 12 := by
  rw [FieldEncryptor.decrypt, ← fromSlice?_eq_none_iff]
  split
  · next missing => simp [missing]
  · next key there =>
      split
      · next short => simp [there, short]
      · next nonce fits => split <;> simp [there, fits]

end Reading

/-! ## Runs that keep every field readable -/

section Runs

variable {cipher : Aes256Gcm} {s : State}

/-- A field and what the cipher did for it. -/
structure Made (cipher : Aes256Gcm) (manager : KeyManager) (issued : Issued)
    (key : EncryptionKey) : Prop where
  sealed : ∃ nonce, issued.field.nonce = nonce.toList ∧
    cipher.encrypt key nonce issued.plaintext = some issued.field.ciphertext
  found : manager.getKey issued.field.keyId = some key

theorem Made.decrypt (sound : cipher.Sound) {manager : KeyManager} {issued : Issued}
    {key : EncryptionKey} (made : Made cipher manager issued key) :
    FieldEncryptor.decrypt cipher manager issued.field = .returned (.ok issued.plaintext) := by
  obtain ⟨⟨id, nonce, ciphertext⟩, plaintext⟩ := issued
  obtain ⟨⟨_, rfl, sealed⟩, found⟩ := made
  exact (decrypt_eq_iff sound sealed found).mpr rfl

/-- Every field returned so far was made with the key that its id finds. -/
def AllMade (cipher : Aes256Gcm) (s : State) : Prop :=
  ∀ issued ∈ s.issued, ∃ key, Made cipher s.keyManager issued key

theorem AllMade.readable (sound : cipher.Sound) (all : AllMade cipher s) : s.Readable cipher := by
  intro issued member
  obtain ⟨key, made⟩ := all issued member
  exact made.decrypt sound

/-- A later key takes nothing away. -/
theorem AllMade.mono {manager : KeyManager} (all : AllMade cipher s)
    (kept : ∀ id key, s.keyManager.getKey id = some key → manager.getKey id = some key) :
    AllMade cipher { s with keyManager := manager } := by
  intro issued member
  obtain ⟨key, sealed, found⟩ := all issued member
  exact ⟨key, sealed, kept _ _ found⟩

theorem AllMade.apply (all : AllMade cipher s) {operation : Operation}
    (unshadowed : Unshadowed cipher s operation) : AllMade cipher (s.apply cipher operation) := by
  cases operation with
  | encrypt plaintext nonce =>
    rw [State.apply]
    cases sealed : cipher.encrypt s.keyManager.primaryKey nonce plaintext with
    | none => simpa only [FieldEncryptor.encrypt, sealed] using all
    | some ciphertext =>
      simp only [FieldEncryptor.encrypt, sealed]
      refine List.forall_mem_cons.mpr ⟨⟨s.keyManager.primaryKey, ⟨nonce, rfl, sealed⟩, ?_⟩, all⟩
      exact primaryFirst_iff.mp (unshadowed (by rw [sealed]; rfl))
  | rotateKey newKey idAt createdAt =>
    exact all.mono fun id key found => getKey_rotate found newKey idAt createdAt
  | addKey newKey idAt createdAt =>
    exact all.mono fun id key found => getKey_addKey found newKey idAt createdAt

/-- A field is readable right after it was returned only if its key was not shadowed. -/
theorem unshadowed_of_readable (sound : cipher.Sound) {operation : Operation}
    (readable : (s.apply cipher operation).Readable cipher) : Unshadowed cipher s operation := by
  cases operation with
  | rotateKey => exact trivial
  | addKey => exact trivial
  | encrypt plaintext nonce =>
    intro succeeds
    obtain ⟨ciphertext, sealed⟩ := Option.isSome_iff_exists.mp succeeds
    obtain ⟨found, lookup⟩ := exists_getKey_primaryKeyId s.keyManager
    simp only [State.apply, FieldEncryptor.encrypt, sealed] at readable
    have reads := readable _ List.mem_cons_self
    rw [primaryFirst_iff, lookup, (decrypt_eq_iff sound sealed lookup).mp reads]

theorem readable_iff_along (sound : cipher.Sound) (all : AllMade cipher s)
    (operations : List Operation) :
    (∀ before, before <+: operations → (before.foldl (State.apply cipher) s).Readable cipher) ↔
      Along (State.apply cipher) (Unshadowed cipher) s operations := by
  induction operations generalizing s with
  | nil =>
    refine iff_of_true (fun before begins => ?_) trivial
    rw [List.prefix_nil.mp begins]
    exact all.readable sound
  | cons operation operations ih =>
    constructor
    · intro readable
      have first := unshadowed_of_readable sound (readable [operation] (by simp))
      refine ⟨first, (ih (all.apply first)).mp fun before begins => ?_⟩
      exact readable (operation :: before) (List.cons_prefix_cons.mpr ⟨rfl, begins⟩)
    · rintro ⟨first, later⟩ before begins
      cases before with
      | nil => exact all.readable sound
      | cons other before =>
        obtain ⟨rfl, rest⟩ := List.cons_prefix_cons.mp begins
        exact (ih (all.apply first)).mpr later before rest

end Runs

/-- Along any sequence of operations every field stays readable just when no encryption finds an
older key of its id first, and `decrypt` panics on a field just when its id is known and its
nonce is not of twelve bytes. -/
theorem fields_stay_readable (cipher : Aes256Gcm) (sound : cipher.Sound) (key : EncryptionKey)
    (idAt createdAt : DateTime) (operations : List Operation) :
    ((∀ before, before <+: operations →
        (before.foldl (State.apply cipher) (.new key idAt createdAt)).Readable cipher) ↔
      Along (State.apply cipher) (Unshadowed cipher) (.new key idAt createdAt) operations) ∧
    ∀ field, FieldEncryptor.decrypt cipher
        (operations.foldl (State.apply cipher) (.new key idAt createdAt)).keyManager field ≠
          .panicked ↔
      (operations.foldl (State.apply cipher) (.new key idAt createdAt)).keyManager.getKey
          field.keyId = none ∨ field.nonce.length = 12 := by
  have none : AllMade cipher (.new key idAt createdAt) :=
    fun _ member => absurd member List.not_mem_nil
  refine ⟨readable_iff_along sound none operations, fun field => ?_⟩
  rw [Ne, decrypt_eq_panicked_iff, not_and_or, not_not, not_not]

/-! ## A cipher to run the operations with -/

def sampleKey (byte : UInt8) : EncryptionKey := ⟨Vector.replicate 32 byte⟩

def sampleNonce : Nonce := Vector.replicate 12 0

/-- The bytes of `Secret data`. -/
def samplePlaintext : List UInt8 := [83, 101, 99, 114, 101, 116, 32, 100, 97, 116, 97]

/-- The ciphertext and the tag of AES-256-GCM for them, under a key and a nonce of zeros. -/
def sampleCiphertext : List UInt8 :=
  [157, 194, 35, 79, 40, 20, 75, 10, 102, 58, 164,
    156, 19, 115, 244, 233, 174, 208, 7, 152, 15, 208, 139, 30, 125, 226, 83]

/-- AES-256-GCM on the sample; elsewhere the key and the nonce are appended to the text. -/
def sampleCipher : Aes256Gcm where
  encrypt key nonce plaintext :=
    if key = sampleKey 0 ∧ nonce = sampleNonce ∧ plaintext = samplePlaintext then
      some sampleCiphertext
    else some (plaintext ++ (key.bytes.toList ++ nonce.toList))
  decrypt key nonce ciphertext :=
    if ciphertext = sampleCiphertext then
      if key = sampleKey 0 ∧ nonce = sampleNonce then some samplePlaintext else none
    else if key.bytes.toList ++ nonce.toList <:+ ciphertext then
      some (ciphertext.take (ciphertext.length - 44))
    else none

theorem sampleCipher_sound : sampleCipher.Sound := by
  have long : ∀ (plaintext : List UInt8) (key : EncryptionKey) (nonce : Nonce),
      plaintext ++ (key.bytes.toList ++ nonce.toList) ≠ sampleCiphertext := by
    intro plaintext key nonce same
    have lengths := congrArg List.length same
    simp [sampleCiphertext] at lengths
  constructor
  · intro key nonce plaintext ciphertext sealed
    simp only [sampleCipher] at sealed ⊢
    split at sealed
    · next sample =>
        obtain ⟨rfl, rfl, rfl⟩ := sample
        cases sealed
        rw [if_pos rfl, if_pos ⟨rfl, rfl⟩]
    · cases sealed
      rw [if_neg (long _ _ _), if_pos (List.suffix_append _ _)]
      simp
  · intro key nonce plaintext ciphertext sealed other different
    simp only [sampleCipher] at sealed ⊢
    split at sealed
    · next sample =>
        obtain ⟨rfl, rfl, rfl⟩ := sample
        cases sealed
        rw [if_pos rfl, if_neg fun both => different both.1]
    · cases sealed
      rw [if_neg (long _ _ _), if_neg]
      intro ends
      have suffix := List.suffix_of_suffix_length_le ends (List.suffix_append _ _) (by simp)
      have same := suffix.eq_of_length (by simp)
      have keys := (List.append_inj same (by simp)).1
      exact different (EncryptionKey.ext (Vector.toList_inj.mp keys))

/-- Encrypt, rotate a second later and encrypt again. -/
def slowRotation : List Operation :=
  [.encrypt samplePlaintext sampleNonce, .rotateKey (sampleKey 1) (seconds 1) (seconds 1),
    .encrypt samplePlaintext sampleNonce]

theorem fields_stay_readable_slowRotation :
    sampleCipher.Sound ∧ Along (State.apply sampleCipher) (Unshadowed sampleCipher)
        (.new (sampleKey 0) 0 0) slowRotation ∧
      ∀ before, before <+: slowRotation →
        (before.foldl (State.apply sampleCipher) (.new (sampleKey 0) 0 0)).Readable
          sampleCipher := by
  have along : Along (State.apply sampleCipher) (Unshadowed sampleCipher)
      (.new (sampleKey 0) 0 0) slowRotation :=
    ⟨fun _ => primaryFirst_iff.mpr (by decide), trivial, fun _ => primaryFirst_iff.mpr (by decide),
      trivial⟩
  exact ⟨sampleCipher_sound, along,
    (fields_stay_readable sampleCipher sampleCipher_sound (sampleKey 0) 0 0 slowRotation).1.mpr
      along⟩

/-- Rotate within the second of the first key and encrypt. -/
def fastRotation : List Operation :=
  [.rotateKey (sampleKey 1) 0 0, .encrypt samplePlaintext sampleNonce]

/-- The field of a key rotated in within a second is not decrypted, and a field whose nonce is
empty makes `decrypt` panic. -/
theorem fields_unreadable : sampleCipher.Sound ∧
    ¬ (fastRotation.foldl (State.apply sampleCipher) (.new (sampleKey 0) 0 0)).Readable
      sampleCipher ∧
    FieldEncryptor.decrypt sampleCipher (KeyManager.new (sampleKey 0) 0 0)
      ⟨⟨"key-0"⟩, [], sampleCiphertext⟩ = .panicked := by
  refine ⟨sampleCipher_sound, ?_, (decrypt_eq_panicked_iff _).mpr (by decide)⟩
  intro readable
  have unshadowed : Unshadowed sampleCipher
      (State.apply sampleCipher (.new (sampleKey 0) 0 0) (.rotateKey (sampleKey 1) 0 0))
      (.encrypt samplePlaintext sampleNonce) := unshadowed_of_readable sampleCipher_sound readable
  exact absurd (primaryFirst_iff.mp (unshadowed (by decide))) (by decide)

end UHorse.Security.FieldCrypto
