import UHorse.Agent.SessionKey
import UHorse.Lib.Numerals
import UHorse.Lib.Text

/-!
# Paths with a version

A URL names the major number of a version only, so reading it back gives that version and the path
without its other leading slashes. Rewriting a URL to a version and back gives the URL in the form
in which `toUrl` writes it.

Texts are lists of their characters.
-/

namespace UHorse.Gateway

open UHorse.Lib UHorse.Agent

structure ApiVersion where
  major : UInt32
  minor : UInt32
  patch : UInt32
deriving DecidableEq

inductive VersionParseError
  | invalidFormat
  | invalidNumber
deriving DecidableEq

namespace ApiVersion

/-- `parse::<u32>` with the error of the format. -/
def parseNumber (part : List Char) : Except VersionParseError UInt32 :=
  match Numerals.uint32? part with
  | some n => .ok (.ofNat n)
  | none => .error .invalidFormat

def parse (s : List Char) : Except VersionParseError ApiVersion :=
  let s := ((Text.trim isWhitespace s).dropWhile (· = 'v')).dropWhile (· = 'V')
  match s.splitOn '.' with
  | [major] => do
      let major ← parseNumber major
      pure ⟨major, 0, 0⟩
  | [major, minor] => do
      let major ← parseNumber major
      let minor ← parseNumber minor
      pure ⟨major, minor, 0⟩
  | [major, minor, patch] => do
      let major ← parseNumber major
      let minor ← parseNumber minor
      let patch ← parseNumber patch
      pure ⟨major, minor, patch⟩
  | _ => .error .invalidFormat

def toPath (version : ApiVersion) : List Char := 'v' :: version.major.toNat.repr.toList

end ApiVersion

structure VersionedPath where
  version : ApiVersion
  path : List Char
deriving DecidableEq

namespace VersionedPath

/-- The slashes at the front are removed. -/
def trimSlashes (text : List Char) : List Char := text.dropWhile (· = '/')

def fromUrl (url : List Char) : Option VersionedPath :=
  match (trimSlashes url).splitOn '/' with
  | api :: version :: parts =>
    if api = "api".toList ∧ version.head? = some 'v' then
      match ApiVersion.parse version with
      | .error _ => none
      | .ok version =>
        let rest := ['/'].intercalate parts
        some ⟨version, if rest.isEmpty then ['/'] else '/' :: rest⟩
    else none
  | _ => none

def toUrl (versioned : VersionedPath) : List Char :=
  "/api/".toList ++ versioned.version.toPath ++ "/".toList ++ trimSlashes versioned.path

end VersionedPath

structure VersionParser where
  supportedVersions : List ApiVersion
  defaultVersion : ApiVersion

def VersionParser.rewritePath (_ : VersionParser) (path : List Char) (targetVersion : ApiVersion) :
    Option (List Char) := do
  let versioned ← VersionedPath.fromUrl path
  pure (VersionedPath.toUrl ⟨targetVersion, versioned.path⟩)

/-! ## What is read back -/

namespace ApiVersion

theorem parseNumber_repr (n : UInt32) : parseNumber n.toNat.repr.toList = .ok n := by
  rw [parseNumber, Numerals.uint32?_of_natural? (Numerals.natural?_repr _),
    if_pos n.toNat_lt]
  exact congrArg Except.ok (UInt32.ofNat_toNat)

theorem parse_toPath (version : ApiVersion) :
    parse version.toPath = .ok ⟨version.major, 0, 0⟩ := by
  obtain ⟨-, digits⟩ := Numerals.digits_of_natural? (Numerals.natural?_repr version.major.toNat)
  have solid : ∀ c ∈ version.toPath, isWhitespace c = false := by
    intro c member
    obtain rfl | digit := List.mem_cons.mp member
    · decide
    · exact isWhitespace_of_isDigit (digits c digit)
  have trimmed : Text.trim isWhitespace version.toPath = version.toPath :=
    Text.trim_of_ends (fun c first => solid c (List.mem_of_mem_head? first))
      fun c last => solid c (List.mem_of_mem_getLast? last)
  have kept : ∀ letter : Char, letter.isDigit = false →
      version.major.toNat.repr.toList.dropWhile (· = letter) = version.major.toNat.repr.toList := by
    intro letter noDigit
    refine List.dropWhile_eq_self_iff.mpr fun nonempty => ?_
    intro same
    have digit := digits _ (List.getElem_mem nonempty)
    rw [of_decide_eq_true same, noDigit] at digit
    cases digit
  have single :
      version.major.toNat.repr.toList.splitOn '.' = [version.major.toNat.repr.toList] := by
    refine List.splitOn_eq_singleton fun dot => ?_
    cases digits '.' dot
  rw [parse, trimmed, toPath, List.dropWhile_cons_of_pos (by decide), kept 'v' (by decide),
    kept 'V' (by decide), single]
  dsimp only
  rw [parseNumber_repr]
  rfl

end ApiVersion

namespace VersionedPath

variable (versioned : VersionedPath) (url : List Char)

@[simp] theorem trimSlashes_trimSlashes (text : List Char) :
    trimSlashes (trimSlashes text) = trimSlashes text :=
  List.dropWhile_idempotent _ _

@[simp] theorem trimSlashes_cons_slash (text : List Char) :
    trimSlashes ('/' :: text) = trimSlashes text :=
  List.dropWhile_cons_of_pos (by decide)

/-- A URL is put together from its parts. -/
theorem toUrl_eq : versioned.toUrl = '/' :: ("api".toList ++ '/' :: (versioned.version.toPath ++
    '/' :: trimSlashes versioned.path)) := by
  have front : "/api/".toList = '/' :: ("api".toList ++ ['/']) := by decide
  have slash : "/".toList = ['/'] := by decide
  unfold toUrl
  simp only [front, slash, List.append_assoc, List.cons_append, List.nil_append]

theorem splitOn_toUrl :
    (trimSlashes versioned.toUrl).splitOn '/' =
      "api".toList :: versioned.version.toPath :: (trimSlashes versioned.path).splitOn '/' := by
  obtain ⟨-, digits⟩ :=
    Numerals.digits_of_natural? (Numerals.natural?_repr versioned.version.major.toNat)
  have free : '/' ∉ versioned.version.toPath := by
    intro slash
    obtain same | digit := List.mem_cons.mp slash
    · cases same
    · cases digits '/' digit
  have started : trimSlashes versioned.toUrl = "api".toList ++ '/' :: (versioned.version.toPath ++
      '/' :: trimSlashes versioned.path) := by
    rw [toUrl_eq, trimSlashes_cons_slash]
    exact List.dropWhile_cons_of_neg (by decide)
  rw [started, List.splitOn_append_cons_self_of_not_mem (by decide),
    List.splitOn_append_cons_self_of_not_mem free]

/-- What is written is read back with the major number and without the other slashes at the
front. -/
theorem fromUrl_toUrl : fromUrl versioned.toUrl =
    some ⟨⟨versioned.version.major, 0, 0⟩, '/' :: trimSlashes versioned.path⟩ := by
  rw [fromUrl, splitOn_toUrl]
  dsimp only
  rw [if_pos ⟨rfl, rfl⟩, ApiVersion.parse_toPath]
  dsimp only
  rw [List.intercalate_splitOn]
  cases trimSlashes versioned.path <;> rfl

/-- The path counts without its slashes at the front. -/
theorem toUrl_congr {versioned other : VersionedPath}
    (major : versioned.version.major = other.version.major)
    (path : trimSlashes versioned.path = trimSlashes other.path) :
    versioned.toUrl = other.toUrl := by
  rw [toUrl_eq, toUrl_eq, ApiVersion.toPath, ApiVersion.toPath, major, path]

/-- The form in which URLs are written. -/
def Canonical (url : List Char) : Prop :=
  ∃ (major : UInt32) (path : List Char), path.head? ≠ some '/' ∧
    url = "/api/v".toList ++ major.toNat.repr.toList ++ "/".toList ++ path

theorem trimSlashes_eq_self_iff {text : List Char} :
    trimSlashes text = text ↔ text.head? ≠ some '/' := by
  cases text with
  | nil => simp [trimSlashes]
  | cons letter text =>
    rw [trimSlashes, List.dropWhile_eq_self_iff]
    simp

theorem canonical_iff {url : List Char} :
    Canonical url ↔ ∃ versioned : VersionedPath, versioned.toUrl = url := by
  have front : "/api/v".toList = '/' :: ("api".toList ++ ['/', 'v']) := by decide
  have slash : "/".toList = ['/'] := by decide
  constructor
  · rintro ⟨major, path, trimmed, rfl⟩
    refine ⟨⟨⟨major, 0, 0⟩, path⟩, ?_⟩
    rw [toUrl_eq, trimSlashes_eq_self_iff.mpr trimmed, front, slash]
    simp only [ApiVersion.toPath, List.append_assoc, List.cons_append, List.nil_append]
  · rintro ⟨versioned, rfl⟩
    refine ⟨versioned.version.major, trimSlashes versioned.path, ?_, ?_⟩
    · exact trimSlashes_eq_self_iff.mp (trimSlashes_trimSlashes versioned.path)
    · rw [toUrl_eq, front, slash]
      simp only [ApiVersion.toPath, List.append_assoc, List.cons_append, List.nil_append]

/-- What a URL is read as is written as that URL just when it has the form of a written URL. -/
theorem toUrl_eq_iff {url : List Char} {versioned : VersionedPath}
    (accepted : fromUrl url = some versioned) : versioned.toUrl = url ↔ Canonical url := by
  constructor
  · intro written
    exact canonical_iff.mpr ⟨versioned, written⟩
  · intro canonical
    obtain ⟨written, rfl⟩ := canonical_iff.mp canonical
    rw [fromUrl_toUrl] at accepted
    obtain rfl := Option.some_inj.mp accepted
    refine toUrl_congr rfl ?_
    rw [trimSlashes_cons_slash, trimSlashes_trimSlashes]

end VersionedPath

/-- Rewriting writes the URL with the major number of the target. -/
theorem VersionParser.rewritePath_eq (parser : VersionParser) {url : List Char}
    {versioned : VersionedPath} (accepted : VersionedPath.fromUrl url = some versioned)
    (targetVersion : ApiVersion) :
    parser.rewritePath url targetVersion =
      some (VersionedPath.toUrl ⟨targetVersion, versioned.path⟩) := by
  rw [rewritePath, accepted]
  rfl

/-! ## The round trips -/

/-- A written path is read back with the major number of its version, and rewriting a URL to its own
version, or to another version and back, gives the URL that is written for it. -/
theorem versioned_round_trips (parser : VersionParser) :
    (∀ versioned : VersionedPath, ∃ path,
      VersionedPath.fromUrl versioned.toUrl = some ⟨⟨versioned.version.major, 0, 0⟩, path⟩ ∧
        VersionedPath.trimSlashes path = VersionedPath.trimSlashes versioned.path) ∧
    ∀ url versioned, VersionedPath.fromUrl url = some versioned →
      parser.rewritePath url versioned.version = some versioned.toUrl ∧
      (∀ target, ∃ there, parser.rewritePath url target = some there ∧
        parser.rewritePath there versioned.version = some versioned.toUrl) ∧
      (versioned.toUrl = url ↔ VersionedPath.Canonical url) := by
  constructor
  · intro versioned
    refine ⟨_, VersionedPath.fromUrl_toUrl versioned, ?_⟩
    rw [VersionedPath.trimSlashes_cons_slash, VersionedPath.trimSlashes_trimSlashes]
  · intro url versioned accepted
    refine ⟨parser.rewritePath_eq accepted _, ?_, VersionedPath.toUrl_eq_iff accepted⟩
    intro target
    refine ⟨_, parser.rewritePath_eq accepted target, ?_⟩
    rw [parser.rewritePath_eq (VersionedPath.fromUrl_toUrl _)]
    congr 1
    refine VersionedPath.toUrl_congr rfl ?_
    rw [VersionedPath.trimSlashes_cons_slash, VersionedPath.trimSlashes_trimSlashes]

/-- `/api/v1/agents` is rewritten to the second version and back. -/
theorem versioned_round_trips_agents :
    ∃ there, VersionParser.rewritePath ⟨[⟨1, 0, 0⟩, ⟨2, 0, 0⟩], ⟨1, 0, 0⟩⟩ "/api/v1/agents".toList
        ⟨2, 0, 0⟩ = some there ∧
      VersionParser.rewritePath ⟨[⟨1, 0, 0⟩, ⟨2, 0, 0⟩], ⟨1, 0, 0⟩⟩ there ⟨1, 0, 0⟩ =
        some "/api/v1/agents".toList := by
  have read : VersionedPath.fromUrl "/api/v1/agents".toList =
      some ⟨⟨1, 0, 0⟩, "/agents".toList⟩ := by decide
  obtain ⟨-, back, -⟩ := (versioned_round_trips ⟨[⟨1, 0, 0⟩, ⟨2, 0, 0⟩], ⟨1, 0, 0⟩⟩).2 _ _ read
  exact back ⟨2, 0, 0⟩

/-- A minor number is lost, and a URL that ends with its version is not given back. -/
theorem not_versioned_round_trips :
    (VersionedPath.fromUrl (VersionedPath.toUrl ⟨⟨1, 2, 0⟩, "/agents".toList⟩)).map
        VersionedPath.version ≠ some ⟨1, 2, 0⟩ ∧
      VersionedPath.fromUrl "/api/v1".toList = some ⟨⟨1, 0, 0⟩, "/".toList⟩ ∧
      VersionParser.rewritePath ⟨[⟨1, 0, 0⟩, ⟨2, 0, 0⟩], ⟨1, 0, 0⟩⟩ "/api/v1".toList ⟨1, 0, 0⟩ ≠
        some "/api/v1".toList := by
  decide

end UHorse.Gateway
