import UHorse.Lib.HashMap
import UHorse.Lib.LossyUtf8
import UHorse.Lib.Numerals

/-!
# Signatures of webhook requests

A payload is signed with or without the second in which it is sent, and the signature stands
behind a prefix in a header. `create_signature_headers` and `WebhookClient::send` make the
headers, `verify_request_signature` checks them.

HMAC is a parameter; it is assumed to be injective in the payload and to yield at least the
32 bytes of the shorter algorithm.
-/

namespace UHorse.Webhook

open UHorse.Lib UHorse.Lib.Bytes UHorse.Lib.LossyUtf8 UHorse.Lib.Numerals

inductive SignatureAlgorithm
  | hmacSha256
  | hmacSha512
deriving DecidableEq

structure SigningConfig where
  secret : String
  algorithm : SignatureAlgorithm
  headerName : String
  /-- The field `prefix`. -/
  prefixText : Option String
  timestampToleranceSecs : Option UInt64

/-- `SigningConfig::new`. -/
def SigningConfig.new (secret : String) : SigningConfig where
  secret := secret
  algorithm := .hmacSha256
  headerName := "X-Signature"
  prefixText := some "sha256="
  timestampToleranceSecs := some 300

/-- The codes of a payload under a key. -/
structure Hmac where
  sha256 : List UInt8 → List UInt8 → List UInt8
  sha512 : List UInt8 → List UInt8 → List UInt8

structure Hmac.Sound (hmac : Hmac) : Prop where
  injective256 : ∀ key, Function.Injective (hmac.sha256 key)
  injective512 : ∀ key, Function.Injective (hmac.sha512 key)
  long256 : ∀ key payload, 32 ≤ (hmac.sha256 key payload).length
  long512 : ∀ key payload, 32 ≤ (hmac.sha512 key payload).length

/-- What `chrono::Utc::now().timestamp()` can be. -/
structure UtcSeconds where
  value : Int64
  lower : -8334601228800 ≤ value.toInt
  upper : value.toInt ≤ 8210266876799

namespace SignatureVerifier

variable (hmac : Hmac) (config : SigningConfig)

def code (payload : List UInt8) : List UInt8 :=
  match config.algorithm with
  | .hmacSha256 => hmac.sha256 (utf8 config.secret) payload
  | .hmacSha512 => hmac.sha512 (utf8 config.secret) payload

def sign (payload : List UInt8) : String := .ofList (hex (code hmac config payload))

def withPrefix (signature : String) : String :=
  match config.prefixText with
  | some before => before ++ signature
  | none => signature

def withoutPrefix (signature : String) : String :=
  match config.prefixText with
  | some before =>
    if before.toList <+: signature.toList then
      .ofList (signature.toList.drop before.toList.length)
    else signature
  | none => signature

def generateSignatureHeader (payload : List UInt8) : String :=
  withPrefix config (sign hmac config payload)

def constantTimeCompare (a b : List UInt8) : Bool :=
  if a.length ≠ b.length then false
  else (a.zip b).foldl (fun result pair => result ||| (pair.1 ^^^ pair.2)) 0 == 0

def verify (payload : List UInt8) (signature : String) : Bool :=
  constantTimeCompare (utf8 (sign hmac config payload)) (utf8 (withoutPrefix config signature))

def timestamped (payload : List UInt8) (timestamp : Int64) : String :=
  timestamp.toInt.repr ++ ":" ++ .ofList (lossy payload)

def signWithTimestamp (payload : List UInt8) (timestamp : Int64) : String :=
  sign hmac config (utf8 (timestamped payload timestamp))

def verifyWithTimestamp (now : UtcSeconds) (payload : List UInt8) (signature : String)
    (timestamp : Int64) : Except String Bool :=
  match config.timestampToleranceSecs with
  | some tolerance =>
    let diff := (now.value - timestamp).abs.toUInt64
    if diff > tolerance then
      .error ("Timestamp expired: " ++ diff.toNat.repr ++ " seconds old")
    else
      .ok (constantTimeCompare (utf8 (signWithTimestamp hmac config payload timestamp))
        (utf8 signature))
  | none =>
    .ok (constantTimeCompare (utf8 (signWithTimestamp hmac config payload timestamp))
      (utf8 signature))

end SignatureVerifier

open SignatureVerifier

def timestampHeader : String := "X-Signature-Timestamp"

def createSignatureHeaders (hmac : Hmac) (config : SigningConfig) (payload : List UInt8)
    (now : UtcSeconds) : List (String × String) :=
  if config.timestampToleranceSecs.isSome then
    [(config.headerName, withPrefix config (signWithTimestamp hmac config payload now.value)),
      (timestampHeader, now.value.toInt.repr)]
  else [(config.headerName, generateSignatureHeader hmac config payload)]

/-- Headers collected into a map; the last of a name stays. -/
def collectHeaders (headers : List (String × String)) : HashMap String String :=
  headers.foldl (fun map header => map.insert header.1 header.2) ∅

/-- The headers of a request that `WebhookClient::send` makes. -/
def sendHeaders (hmac : Hmac) (custom : HashMap String String)
    (signingConfig : Option SigningConfig) (payload : String) : HashMap String String :=
  match signingConfig with
  | some config =>
    custom.insert config.headerName (generateSignatureHeader hmac config (utf8 payload))
  | none => custom

def verifyRequestSignature (hmac : Hmac) (config : SigningConfig) (now : UtcSeconds)
    (payload : List UInt8) (headers : HashMap String String) : Except String Bool :=
  match headers.lookup config.headerName with
  | none => .error "Missing signature header"
  | some header =>
    let signature := withoutPrefix config header
    if config.timestampToleranceSecs.isSome then
      match headers.lookup timestampHeader with
      | none => .error "Missing timestamp header"
      | some text =>
        match int64? text.toList with
        | none => .error "Invalid timestamp"
        | some timestamp => verifyWithTimestamp hmac config now payload signature timestamp
    else .ok (verify hmac config payload signature)

/-! ## The claims on the headers of a payload -/

/-- With the headers the payload passes, and no other one does. -/
structure SignsExactly (hmac : Hmac) (config : SigningConfig) (headers : HashMap String String)
    (now : UtcSeconds) (payload : List UInt8) : Prop where
  accepts : verifyRequestSignature hmac config now payload headers = .ok true
  only : ∀ other, verifyRequestSignature hmac config now other headers = .ok true →
    other = payload

/-- The prefix is not by chance the beginning of the signature. -/
def PrefixApart (hmac : Hmac) (config : SigningConfig) (payload : List UInt8) : Prop :=
  ∀ before, config.prefixText = some before → before ≠ "" →
    ¬ before.toList <+: (sign hmac config payload).toList

/-! ## Comparing and stripping -/

theorem foldl_or_eq_zero (pairs : List (UInt8 × UInt8)) (start : UInt8) :
    pairs.foldl (fun result pair => result ||| (pair.1 ^^^ pair.2)) start = 0 ↔
      start = 0 ∧ ∀ pair ∈ pairs, pair.1 = pair.2 := by
  induction pairs generalizing start with
  | nil => simp
  | cons pair pairs ih =>
    rw [List.foldl_cons, ih, UInt8.or_eq_zero_iff, UInt8.xor_eq_zero_iff, List.forall_mem_cons,
      and_assoc]

theorem constantTimeCompare_iff (a b : List UInt8) : constantTimeCompare a b = true ↔ a = b := by
  rw [constantTimeCompare]
  split
  · next different =>
      refine iff_of_false Bool.false_ne_true ?_
      rintro rfl
      exact different rfl
  · next same =>
      rw [beq_iff_eq, foldl_or_eq_zero, and_iff_right rfl]
      constructor
      · intro pairs
        refine List.ext_getElem (not_not.mp same) fun i inside inside' => ?_
        exact pairs (a[i], b[i]) (List.mem_iff_getElem.mpr ⟨i, by simp [inside, inside'], by simp⟩)
      · rintro rfl pair member
        obtain ⟨i, inside, rfl⟩ := List.mem_iff_getElem.mp member
        simp

variable {hmac : Hmac} {config : SigningConfig}

theorem compare_texts_iff (a b : String) :
    constantTimeCompare (utf8 a) (utf8 b) = true ↔ a = b := by
  rw [constantTimeCompare_iff, utf8_injective.eq_iff]

theorem withoutPrefix_withPrefix (signature : String) :
    withoutPrefix config (withPrefix config signature) = signature := by
  rw [withoutPrefix, withPrefix]
  cases config.prefixText with
  | none => rfl
  | some before => simp

/-- A prefix is taken off a signature only if it is by chance its beginning. -/
theorem withoutPrefix_sign_iff (payload : List UInt8) :
    sign hmac config payload = withoutPrefix config (sign hmac config payload) ↔
      PrefixApart hmac config payload := by
  rw [withoutPrefix, PrefixApart]
  cases config.prefixText with
  | none => simp
  | some before =>
    simp only [Option.some.injEq, forall_eq']
    split
    · next begins =>
        have length := begins.length_le
        have whole : before = "" ↔ before.toList.length = 0 := by
          rw [List.length_eq_zero_iff, String.toList_eq_nil_iff]
        rw [Ne, whole]
        constructor
        · intro same some_
          have lengths := congrArg (fun text => text.toList.length) same
          simp only [String.toList_ofList, List.length_drop] at lengths
          omega
        · intro apart
          have none := not_not.mp fun some_ => apart some_ begins
          rw [none, List.drop_zero, String.ofList_toList]
    · next apart => exact iff_of_true rfl fun _ => apart

section Injective

variable (sound : hmac.Sound)

include sound

theorem code_injective : Function.Injective (code hmac config) := by
  unfold code
  cases config.algorithm with
  | hmacSha256 => exact sound.injective256 _
  | hmacSha512 => exact sound.injective512 _

theorem sign_injective : Function.Injective (sign hmac config) := by
  intro payload other same
  exact code_injective sound (hex_injective (String.ofList_injective same))

variable (config) in
/-- A signature is no decimal number of 64 bits. -/
theorem length_sign (payload : List UInt8) : 64 ≤ (sign hmac config payload).toList.length := by
  have long : 32 ≤ (code hmac config payload).length := by
    rw [code]
    cases config.algorithm with
    | hmacSha256 => exact sound.long256 _ _
    | hmacSha512 => exact sound.long512 _ _
  rw [sign, String.toList_ofList, length_hex]
  omega

/-- Signing with a second covers what is read of the payload. -/
theorem signWithTimestamp_inj (timestamp : Int64) (payload other : List UInt8) :
    signWithTimestamp hmac config payload timestamp =
      signWithTimestamp hmac config other timestamp ↔ lossy payload = lossy other := by
  unfold signWithTimestamp timestamped
  rw [(sign_injective sound).eq_iff, utf8_injective.eq_iff, String.append_right_inj,
    String.ofList_inj]

/-- A signature with a second is not the plain signature of the same text. -/
theorem signWithTimestamp_ne_sign (text : String) (timestamp : Int64) :
    signWithTimestamp hmac config (utf8 text) timestamp ≠ sign hmac config (utf8 text) := by
  rw [signWithTimestamp, timestamped]
  rw [Ne, (sign_injective sound).eq_iff, utf8_injective.eq_iff]
  rw [utf8_eq_encode, lossy_encode, String.ofList_toList]
  intro same
  have lengths := congrArg (fun text => text.toList.length) same
  simp only [String.toList_append, List.length_append] at lengths
  have colon : (":" : String).toList.length = 1 := rfl
  omega

end Injective

/-! ## Plain signatures -/

variable {headers : HashMap String String} {payload : List UInt8} {tolerance : UInt64}
  {now : UtcSeconds}

/-- Without a tolerance the header alone decides. -/
theorem verifyRequestSignature_plain (plain : config.timestampToleranceSecs = none)
    (header : headers.lookup config.headerName =
      some (generateSignatureHeader hmac config payload)) (now : UtcSeconds) (other : List UInt8) :
    verifyRequestSignature hmac config now other headers = .ok true ↔
      sign hmac config other = withoutPrefix config (sign hmac config payload) := by
  rw [verifyRequestSignature, header]
  simp only [plain, Option.isSome_none, Bool.false_eq_true, if_false, generateSignatureHeader,
    withoutPrefix_withPrefix, verify, Except.ok.injEq, compare_texts_iff]

theorem signsExactly_plain (sound : hmac.Sound) (plain : config.timestampToleranceSecs = none)
    (header : headers.lookup config.headerName =
      some (generateSignatureHeader hmac config payload)) (now : UtcSeconds) :
    SignsExactly hmac config headers now payload ↔ PrefixApart hmac config payload := by
  have accepts := verifyRequestSignature_plain plain header now
  rw [← withoutPrefix_sign_iff]
  constructor
  · intro exact_
    exact (accepts payload).mp exact_.accepts
  · intro apart
    refine ⟨(accepts payload).mpr apart, fun other passes => ?_⟩
    exact sign_injective sound (((accepts other).mp passes).trans apart.symm)

/-! ## Signatures with a second -/

/-- The distance between two readings of the clock does not overflow. -/
theorem toNat_abs_sub (now timestamp : UtcSeconds) :
    (now.value - timestamp.value).abs.toUInt64.toNat =
      (now.value.toInt - timestamp.value.toInt).natAbs := by
  have lower := now.lower
  have upper := now.upper
  have lower' := timestamp.lower
  have upper' := timestamp.upper
  have exact_ : (now.value - timestamp.value).toInt =
      now.value.toInt - timestamp.value.toInt := by
    rw [Int64.toInt_sub, Int.bmod_eq_of_le (by omega) (by omega)]
  rw [← exact_]
  generalize now.value - timestamp.value = difference at exact_
  have bits : difference.abs.toUInt64.toNat = difference.toBitVec.abs.toNat := rfl
  have value : difference.toInt = difference.toBitVec.toInt := rfl
  rw [bits, value, BitVec.toNat_abs, BitVec.toInt_eq_msb_cond]
  have small := difference.toBitVec.isLt
  split <;> omega

/-- Within the tolerance a signature is checked. -/
theorem verifyWithTimestamp_iff {timestamp : UtcSeconds}
    (some_ : config.timestampToleranceSecs = some tolerance)
    (within : (now.value.toInt - timestamp.value.toInt).natAbs ≤ tolerance.toNat)
    (payload : List UInt8) (signature : String) :
    verifyWithTimestamp hmac config now payload signature timestamp.value = .ok true ↔
      signWithTimestamp hmac config payload timestamp.value = signature := by
  have fresh : ¬ (now.value - timestamp.value).abs.toUInt64 > tolerance := by
    rw [gt_iff_lt, UInt64.lt_iff_toNat_lt, toNat_abs_sub]
    exact Nat.not_lt.mpr within
  rw [verifyWithTimestamp, some_]
  simp only [if_neg fresh, Except.ok.injEq, compare_texts_iff]

/-- What passes is the signature for the second. -/
theorem of_verifyWithTimestamp {signature : String} {timestamp : Int64}
    (passes : verifyWithTimestamp hmac config now payload signature timestamp = .ok true) :
    signWithTimestamp hmac config payload timestamp = signature := by
  rw [verifyWithTimestamp] at passes
  split at passes
  · dsimp only at passes
    split at passes
    · cases passes
    · exact (compare_texts_iff _ _).mp (Except.ok.inj passes)
  · exact (compare_texts_iff _ _).mp (Except.ok.inj passes)

/-- With a tolerance the second of the other header goes into the signature. -/
theorem verifyRequestSignature_fresh {timestamp : UtcSeconds}
    (some_ : config.timestampToleranceSecs = some tolerance)
    (within : (now.value.toInt - timestamp.value.toInt).natAbs ≤ tolerance.toNat) {header : String}
    (found : headers.lookup config.headerName = some header)
    (dated : headers.lookup timestampHeader = some timestamp.value.toInt.repr)
    (payload : List UInt8) :
    verifyRequestSignature hmac config now payload headers = .ok true ↔
      signWithTimestamp hmac config payload timestamp.value = withoutPrefix config header := by
  rw [verifyRequestSignature, found]
  simp only [some_, Option.isSome_some, if_true, dated, int64?_repr]
  exact verifyWithTimestamp_iff some_ within payload _

variable (config) in
theorem lookup_collectHeaders (signature text name : String) :
    (collectHeaders [(config.headerName, signature), (timestampHeader, text)]).lookup name =
      if name = timestampHeader then some text
      else if name = config.headerName then some signature else none := by
  simp only [collectHeaders, List.foldl_cons, List.foldl_nil, HashMap.lookup_insert_ite,
    Finmap.lookup_empty]

variable (config) in
theorem length_withoutPrefix_le (signature : String) :
    (withoutPrefix config signature).toList.length ≤ signature.toList.length := by
  rw [withoutPrefix]
  split
  · split
    · rw [String.toList_ofList, List.length_drop]
      exact Nat.sub_le _ _
    · exact le_rfl
  · exact le_rfl

/-- With the headers of a payload those pass that are read as the same text; with the second in
the place of the signature nothing passes. -/
theorem verifyRequestSignature_created (sound : hmac.Sound) {signedAt : UtcSeconds}
    (some_ : config.timestampToleranceSecs = some tolerance)
    (within : (now.value.toInt - signedAt.value.toInt).natAbs ≤ tolerance.toNat)
    (payload other : List UInt8) :
    verifyRequestSignature hmac config now other
        (collectHeaders (createSignatureHeaders hmac config payload signedAt)) = .ok true ↔
      config.headerName ≠ timestampHeader ∧ lossy other = lossy payload := by
  have dated := lookup_collectHeaders config
    (withPrefix config (signWithTimestamp hmac config payload signedAt.value))
    signedAt.value.toInt.repr timestampHeader
  have found := lookup_collectHeaders config
    (withPrefix config (signWithTimestamp hmac config payload signedAt.value))
    signedAt.value.toInt.repr config.headerName
  rw [if_pos rfl] at dated
  rw [createSignatureHeaders, if_pos (by rw [some_]; rfl)]
  by_cases collides : config.headerName = timestampHeader
  · rw [if_pos collides] at found
    rw [verifyRequestSignature_fresh some_ within found dated]
    refine iff_of_false (fun same => ?_) (fun both => both.1 collides)
    have long := length_sign config sound
      (utf8 (timestamped other signedAt.value))
    have short := length_withoutPrefix_le config signedAt.value.toInt.repr
    have digits := length_repr_le signedAt.value
    rw [← same, signWithTimestamp] at short
    omega
  · rw [if_neg collides, if_pos rfl] at found
    rw [verifyRequestSignature_fresh some_ within found dated, withoutPrefix_withPrefix,
      signWithTimestamp_inj sound]
    exact (and_iff_right collides).symm

theorem signsExactly_created (sound : hmac.Sound) {signedAt : UtcSeconds}
    (some_ : config.timestampToleranceSecs = some tolerance)
    (within : (now.value.toInt - signedAt.value.toInt).natAbs ≤ tolerance.toNat)
    (payload : List UInt8) :
    SignsExactly hmac config
        (collectHeaders (createSignatureHeaders hmac config payload signedAt)) now payload ↔
      config.headerName ≠ timestampHeader ∧ replacement ∉ lossy payload := by
  have passes := verifyRequestSignature_created sound some_ within payload
  rw [← lossy_determines_iff]
  constructor
  · intro exact_
    obtain ⟨apart, -⟩ := (passes payload).mp exact_.accepts
    exact ⟨apart, fun other same => exact_.only other ((passes other).mpr ⟨apart, same⟩)⟩
  · rintro ⟨apart, determined⟩
    refine ⟨(passes payload).mpr ⟨apart, rfl⟩, fun other accepted => ?_⟩
    exact determined other ((passes other).mp accepted).2

/-- The plain signature of a text does not pass as one with a second. -/
theorem not_accepted_sent (sound : hmac.Sound) (some_ : config.timestampToleranceSecs.isSome = true)
    (custom : HashMap String String) (now : UtcSeconds) (text : String) :
    verifyRequestSignature hmac config now (utf8 text)
      (sendHeaders hmac custom (some config) text) ≠ .ok true := by
  have found : (sendHeaders hmac custom (some config) text).lookup config.headerName =
      some (generateSignatureHeader hmac config (utf8 text)) := by
    rw [sendHeaders, HashMap.lookup_insert_ite, if_pos rfl]
  rw [verifyRequestSignature, found]
  simp only [some_, if_true, generateSignatureHeader, withoutPrefix_withPrefix]
  intro passes
  split at passes
  · cases passes
  · split at passes
    · cases passes
    · next timestamp _ =>
        exact signWithTimestamp_ne_sign sound text timestamp (of_verifyWithTimestamp passes)

/-- The time of checking lies within the tolerance, if there is one. -/
def WithinTolerance (config : SigningConfig) (signedAt now : UtcSeconds) : Prop :=
  ∀ tolerance, config.timestampToleranceSecs = some tolerance →
    (now.value.toInt - signedAt.value.toInt).natAbs ≤ tolerance.toNat

/-- The headers that `create_signature_headers` makes sign exactly their payload just when they
are two headers and nothing in the payload is read as a replacement character, or, without a
tolerance, when the prefix does not begin the signature. The headers that `send` makes do so
only without a tolerance. -/
theorem headers_sign_exactly (hmac : Hmac) (sound : hmac.Sound) (config : SigningConfig)
    (signedAt now : UtcSeconds) (within : WithinTolerance config signedAt now) :
    (∀ payload, SignsExactly hmac config
        (collectHeaders (createSignatureHeaders hmac config payload signedAt)) now payload ↔
      (config.timestampToleranceSecs.isSome = true →
        config.headerName ≠ timestampHeader ∧ replacement ∉ lossy payload) ∧
      (config.timestampToleranceSecs = none → PrefixApart hmac config payload)) ∧
    ∀ custom text, SignsExactly hmac config (sendHeaders hmac custom (some config) text) now
        (utf8 text) ↔
      config.timestampToleranceSecs = none ∧ PrefixApart hmac config (utf8 text) := by
  constructor
  · intro payload
    cases some_ : config.timestampToleranceSecs with
    | none =>
      rw [signsExactly_plain sound some_]
      · simp
      · rw [createSignatureHeaders, if_neg (by simp [some_]), collectHeaders, List.foldl_cons,
          List.foldl_nil, HashMap.lookup_insert_ite, if_pos rfl]
    | some tolerance =>
      rw [signsExactly_created sound some_ (within tolerance some_)]
      simp
  · intro custom text
    cases some_ : config.timestampToleranceSecs with
    | none =>
      rw [signsExactly_plain sound some_]
      · simp
      · rw [sendHeaders, HashMap.lookup_insert_ite, if_pos rfl]
    | some tolerance =>
      refine iff_of_false (fun exact_ => ?_) (by simp)
      exact not_accepted_sent sound (by rw [some_]; rfl) custom now text exact_.accepts

/-! ## A code to sign with -/

def sampleConfig : SigningConfig := .new "my-secret-key"

def sampleSecond : UtcSeconds := ⟨1700000000, by decide, by decide⟩

def samplePayload : List UInt8 := utf8 "test payload"

/-- HMAC-SHA256 on the sample payload with its second; elsewhere the payload is padded. -/
def sampleHmac : Hmac where
  sha256 key payload :=
    if key = utf8 "my-secret-key" ∧ payload = utf8 "1700000000:test payload" then
      [83, 203, 133, 82, 39, 116, 216, 136, 41, 223, 82, 173, 89, 92, 153, 238,
        97, 157, 50, 29, 203, 89, 221, 73, 167, 181, 43, 245, 139, 165, 95, 239]
    else List.replicate 33 0 ++ payload
  sha512 _ payload := List.replicate 64 0 ++ payload

theorem sampleHmac_sound : sampleHmac.Sound where
  injective256 key payload other same := by
    simp only [sampleHmac] at same
    split at same
    · next first =>
        split at same
        · next second => exact first.2.trans second.2.symm
        · have lengths := congrArg List.length same
          simp at lengths
    · split at same
      · have lengths := congrArg List.length same
        simp at lengths
      · exact List.append_cancel_left same
  injective512 _ _ _ same := List.append_cancel_left same
  long256 key payload := by
    simp only [sampleHmac]
    split
    · rfl
    · simp
  long512 key payload := by simp [sampleHmac]

theorem headers_sign_exactly_sample :
    sampleHmac.Sound ∧ WithinTolerance sampleConfig sampleSecond sampleSecond ∧
      SignsExactly sampleHmac sampleConfig
        (collectHeaders (createSignatureHeaders sampleHmac sampleConfig samplePayload sampleSecond))
        sampleSecond samplePayload := by
  have within : WithinTolerance sampleConfig sampleSecond sampleSecond := by
    intro tolerance _
    rw [Int.sub_self]
    exact Nat.zero_le _
  refine ⟨sampleHmac_sound, within, ?_⟩
  refine ((headers_sign_exactly sampleHmac sampleHmac_sound sampleConfig sampleSecond sampleSecond
    within).1 samplePayload).mpr ⟨fun _ => ⟨by decide, ?_⟩, nofun⟩
  rw [samplePayload, utf8_eq_encode, lossy_encode]
  decide

/-- The headers for the single byte `0xFF` let another payload pass, and those that `send` makes
with the default configuration are refused. -/
theorem headers_not_exact :
    sampleHmac.Sound ∧
      ¬ SignsExactly sampleHmac sampleConfig
        (collectHeaders (createSignatureHeaders sampleHmac sampleConfig [0xFF] sampleSecond))
        sampleSecond [0xFF] ∧
      ¬ SignsExactly sampleHmac sampleConfig
        (sendHeaders sampleHmac ∅ (some sampleConfig) "test payload") sampleSecond
        samplePayload := by
  refine ⟨sampleHmac_sound, ?_, fun exact_ => ?_⟩
  · rw [signsExactly_created sampleHmac_sound rfl (by rw [Int.sub_self]; exact Nat.zero_le _),
      lossy_ff]
    exact fun both => both.2 List.mem_cons_self
  · exact not_accepted_sent sampleHmac_sound rfl ∅ sampleSecond "test payload" exact_.accepts

end UHorse.Webhook
