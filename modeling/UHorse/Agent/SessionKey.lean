import Mathlib.Data.List.Destutter
import Mathlib.Data.List.DropRight
import Mathlib.Data.List.Sort
import Mathlib.Data.Set.Basic

/-!
# Session keys and their namespaces

A session key joins a channel type, a user id and an optional team id with `:`;
its string is the key of lanes, histories and session states, and the scopes of
the memory store are derived from the parsed form. Nothing is escaped, so the
string determines the key exactly for keys without a `:` in their parts.
-/

namespace UHorse.Agent

inductive AgentError
  | invalidConfig (message : String)
deriving DecidableEq

/-! ## Splitting at colons -/

/-- `split(':')`, collected. -/
def splitColon (text : String) : List String := (text.toList.splitOn ':').map String.ofList

theorem splitColon_of_notMem {text : String} (plain : ':' ∉ text.toList) :
    splitColon text = [text] := by
  rw [splitColon, List.splitOn_eq_singleton plain, List.map_singleton, String.ofList_toList]

theorem splitColon_append {first : String} (plain : ':' ∉ first.toList) (rest : String) :
    splitColon (first ++ ":" ++ rest) = first :: splitColon rest := by
  have pieces : (first ++ ":" ++ rest).toList = first.toList ++ ':' :: rest.toList := by simp
  rw [splitColon, pieces, List.splitOn_append_cons_self_of_not_mem plain, List.map_cons,
    String.ofList_toList, splitColon]

theorem notMem_of_mem_splitOn {separator : Char} {letters piece : List Char}
    (member : piece ∈ letters.splitOn separator) : separator ∉ piece := by
  induction letters generalizing piece with
  | nil => simp_all
  | cons letter letters ih =>
    rw [List.splitOn_cons_eq_if_modifyHead] at member
    split at member
    · obtain rfl | later := List.mem_cons.mp member
      · simp
      · exact ih later
    · next other =>
        cases pieces : letters.splitOn separator with
        | nil => exact absurd pieces (List.splitOn_ne_nil _ _)
        | cons head tail =>
          rw [pieces] at ih member
          obtain rfl | later := List.mem_cons.mp member
          · have distinct : separator ≠ letter := by
              rintro rfl
              simp at other
            exact List.not_mem_cons_of_ne_of_not_mem distinct (ih List.mem_cons_self)
          · exact ih (List.mem_cons_of_mem _ later)

theorem notMem_of_mem_splitColon {text part : String} (member : part ∈ splitColon text) :
    ':' ∉ part.toList := by
  obtain ⟨piece, split, rfl⟩ := List.mem_map.mp member
  rw [String.toList_ofList]
  exact notMem_of_mem_splitOn split

/-! ## Keys -/

structure SessionKey where
  channelType : String
  channelUserId : String
  teamId : Option String
deriving DecidableEq

namespace SessionKey

def new (channelType channelUserId : String) : SessionKey := ⟨channelType, channelUserId, none⟩

def withTeam (channelType channelUserId teamId : String) : SessionKey :=
  ⟨channelType, channelUserId, some teamId⟩

def invalidFormat (text : String) : AgentError :=
  .invalidConfig ("Invalid session key format: '" ++ text ++
    "'. Expected: channel_type:user_id[:team_id]")

def parse (text : String) : Except AgentError SessionKey :=
  match splitColon text with
  | [channelType, channelUserId] => .ok (.new channelType channelUserId)
  | [channelType, channelUserId, teamId] => .ok (.withTeam channelType channelUserId teamId)
  | _ => .error (invalidFormat text)

def asStr (key : SessionKey) : String :=
  match key.teamId with
  | some teamId => key.channelType ++ ":" ++ key.channelUserId ++ ":" ++ teamId
  | none => key.channelType ++ ":" ++ key.channelUserId

/-- The user without the team. -/
def userKey (key : SessionKey) : String := key.channelType ++ ":" ++ key.channelUserId

def tenantKey (key : SessionKey) : Option String :=
  key.teamId.map fun teamId => "tenant:" ++ key.channelType ++ ":" ++ teamId

/-- No part contains the separator. -/
structure Plain (key : SessionKey) : Prop where
  channelType : ':' ∉ key.channelType.toList
  channelUserId : ':' ∉ key.channelUserId.toList
  teamId : ∀ teamId ∈ key.teamId, ':' ∉ teamId.toList

end SessionKey

/-! ## Namespaces -/

/-- The Unicode white space that `str::trim` removes. -/
def isWhitespace (letter : Char) : Bool :=
  let code := letter.toNat
  (9 ≤ code && code ≤ 13) || code = 0x20 || code = 0x85 || code = 0xA0 || code = 0x1680 ||
    (0x2000 ≤ code && code ≤ 0x200A) || code = 0x2028 || code = 0x2029 || code = 0x202F ||
    code = 0x205F || code = 0x3000

theorem isWhitespace_of_isDigit {letter : Char} (digit : letter.isDigit) :
    isWhitespace letter = false := by
  have bounds : 48 ≤ letter.toNat ∧ letter.toNat ≤ 57 := by
    simpa [Char.isDigit, UInt32.le_iff_toNat_le] using digit
  simp only [isWhitespace, Bool.or_eq_false_iff, Bool.and_eq_false_iff, decide_eq_false_iff_not]
  omega

def trim (text : String) : String :=
  .ofList ((text.toList.dropWhile isWhitespace).rdropWhile isWhitespace)

def normalizeOptionalScope (scope : Option String) : Option String :=
  (scope.map trim).filter (fun trimmed => trimmed ≠ "")

/-- Sorted, each role once. -/
def normalizeRoleScopes (roles : List String) : List String :=
  (((roles.map trim).filter (fun trimmed => trimmed ≠ "")).mergeSort (· ≤ ·)).destutter (· ≠ ·)

structure AccessContext where
  tenant : Option String
  enterprise : Option String
  department : Option String
  roles : List String

def AccessContext.normalized (access : AccessContext) : AccessContext where
  tenant := normalizeOptionalScope access.tenant
  enterprise := normalizeOptionalScope access.enterprise
  department := normalizeOptionalScope access.department
  roles := normalizeRoleScopes access.roles

structure SessionNamespace where
  globalScope : String
  tenant : Option String
  enterprise : Option String
  department : Option String
  roles : List String
  user : String
  session : String
deriving DecidableEq

namespace SessionNamespace

def fromSessionKey (key : SessionKey) : SessionNamespace where
  globalScope := "global"
  tenant := key.tenantKey
  enterprise := none
  department := none
  roles := []
  user := "user:" ++ key.userKey
  session := "session:" ++ key.asStr

/-- A tenant of the key itself goes first. -/
def withAccessContext (namespaces : SessionNamespace) (access : Option AccessContext) :
    SessionNamespace :=
  match access.map AccessContext.normalized with
  | none => namespaces
  | some access =>
    { namespaces with
      tenant := namespaces.tenant.orElse fun _ => access.tenant
      enterprise := access.enterprise
      department := access.department
      roles := access.roles }

/-- The scopes a memory context is read from, shared ones first. -/
def memoryContextChain (namespaces : SessionNamespace) : List String :=
  [namespaces.globalScope] ++ namespaces.tenant.toList ++ namespaces.enterprise.toList ++
    namespaces.department.toList ++ namespaces.roles ++ [namespaces.user, namespaces.session]

end SessionNamespace

inductive ScopeLayer
  | globalLayer
  | session
  | user
  | role
  | department
  | enterprise
  | tenant
  | scope
deriving DecidableEq, Repr

def scopeLayerFromScope (scope : String) : ScopeLayer :=
  if scope = "global" then .globalLayer
  else if scope.startsWith "session:" then .session
  else if scope.startsWith "user:" then .user
  else if scope.startsWith "role:" then .role
  else if scope.startsWith "department:" then .department
  else if scope.startsWith "enterprise:" then .enterprise
  else if scope.startsWith "tenant:" then .tenant
  else .scope

def ScopeLayer.label : ScopeLayer → String
  | .globalLayer => "global"
  | .session => "session"
  | .user => "user"
  | .role => "role"
  | .department => "department"
  | .enterprise => "enterprise"
  | .tenant => "tenant"
  | .scope => "scope"

/-- `scope_layer_rank`. -/
def ScopeLayer.rank : ScopeLayer → Nat
  | .session => 0
  | .user => 1
  | .role => 2
  | .department => 3
  | .enterprise => 4
  | .tenant => 5
  | .globalLayer => 6
  | .scope => 7

namespace SessionKey

def namespaces (key : SessionKey) : SessionNamespace := .fromSessionKey key

def namespacesWithAccessContext (key : SessionKey) (access : Option AccessContext) :
    SessionNamespace :=
  key.namespaces.withAccessContext access

end SessionKey

/-- `LayeredMemoryStore::namespace_for_session`; session ids are printed keys. -/
def namespaceForSession (sessionId : String) : Option SessionNamespace :=
  (SessionKey.parse sessionId).toOption.map SessionKey.namespaces

/-! ## When the string stands for the key -/

namespace SessionKey

variable {key other : SessionKey}

theorem splitColon_asStr (plain : key.Plain) :
    splitColon key.asStr = [key.channelType, key.channelUserId] ++ key.teamId.toList := by
  obtain ⟨channelType, channelUserId, team⟩ := key
  cases team with
  | none =>
    rw [asStr, splitColon_append plain.channelType, splitColon_of_notMem plain.channelUserId]
    rfl
  | some teamId =>
    have regroup : asStr ⟨channelType, channelUserId, some teamId⟩ =
        channelType ++ ":" ++ (channelUserId ++ ":" ++ teamId) := by
      simp only [asStr, String.append_assoc]
    rw [regroup, splitColon_append plain.channelType, splitColon_append plain.channelUserId,
      splitColon_of_notMem (plain.teamId teamId rfl)]
    rfl

theorem plain_of_parse {text : String} (parsed : parse text = .ok key) : key.Plain := by
  have parts : ∀ part ∈ splitColon text, ':' ∉ part.toList :=
    fun part member => notMem_of_mem_splitColon member
  rw [parse] at parsed
  split at parsed
  · next pieces =>
      cases parsed
      rw [pieces] at parts
      exact ⟨parts _ (by simp [new]), parts _ (by simp [new]), nofun⟩
  · next pieces =>
      cases parsed
      rw [pieces] at parts
      refine ⟨parts _ (by simp [withTeam]), parts _ (by simp [withTeam]), ?_⟩
      rintro teamId ⟨⟩
      exact parts _ (by simp)
  · cases parsed

theorem parse_asStr (plain : key.Plain) : parse key.asStr = .ok key := by
  rw [parse]
  rw [splitColon_asStr plain]
  obtain ⟨channelType, channelUserId, team⟩ := key
  cases team <;> rfl

theorem parse_asStr_iff : parse key.asStr = .ok key ↔ key.Plain :=
  ⟨plain_of_parse, parse_asStr⟩

theorem asStr_injective (plain : key.Plain) (otherPlain : other.Plain)
    (same : key.asStr = other.asStr) : key = other := by
  have parsed := parse_asStr plain
  rw [same, parse_asStr otherPlain] at parsed
  cases parsed
  rfl

/-- Two parts joined by the separator are the string of a key without team. -/
theorem joined_injective {first second first' second' : String} (firstPlain : ':' ∉ first.toList)
    (secondPlain : ':' ∉ second.toList) (firstPlain' : ':' ∉ first'.toList)
    (secondPlain' : ':' ∉ second'.toList)
    (same : first ++ ":" ++ second = first' ++ ":" ++ second') :
    first = first' ∧ second = second' := by
  have equal : new first second = new first' second' :=
    asStr_injective ⟨firstPlain, secondPlain, nofun⟩ ⟨firstPlain', secondPlain', nofun⟩ same
  cases equal
  exact ⟨rfl, rfl⟩

/-- What a set of keys needs so that nothing derived from their strings is shared: the
string parses back and tells the keys apart, the memory store finds each key's own
namespaces, and a scope belongs to one user, one team, or one session. -/
structure Faithful (keys : Set SessionKey) : Prop where
  parses : ∀ key ∈ keys, parse key.asStr = .ok key
  distinct : ∀ key ∈ keys, ∀ other ∈ keys, key.asStr = other.asStr → key = other
  stored : ∀ key ∈ keys, namespaceForSession key.asStr = some key.namespaces
  sessions : ∀ key ∈ keys, ∀ other ∈ keys, ∀ access access',
    (key.namespacesWithAccessContext access).session =
      (other.namespacesWithAccessContext access').session → key = other
  users : ∀ key ∈ keys, ∀ other ∈ keys, ∀ access access',
    (key.namespacesWithAccessContext access).user =
      (other.namespacesWithAccessContext access').user →
    key.channelType = other.channelType ∧ key.channelUserId = other.channelUserId
  tenants : ∀ key ∈ keys, ∀ other ∈ keys, ∀ tenant, key.tenantKey = some tenant →
    other.tenantKey = some tenant →
    key.channelType = other.channelType ∧ key.teamId = other.teamId

theorem session_withAccessContext (namespaces : SessionNamespace) (access : Option AccessContext) :
    (namespaces.withAccessContext access).session = namespaces.session := by
  rw [SessionNamespace.withAccessContext]
  split <;> rfl

theorem user_withAccessContext (namespaces : SessionNamespace) (access : Option AccessContext) :
    (namespaces.withAccessContext access).user = namespaces.user := by
  rw [SessionNamespace.withAccessContext]
  split <;> rfl

theorem tenantKey_injective (plain : key.Plain) (otherPlain : other.Plain) {tenant : String}
    (ours : key.tenantKey = some tenant) (theirs : other.tenantKey = some tenant) :
    key.channelType = other.channelType ∧ key.teamId = other.teamId := by
  obtain ⟨teamId, team, rfl⟩ := Option.map_eq_some_iff.mp ours
  obtain ⟨teamId', team', same⟩ := Option.map_eq_some_iff.mp theirs
  have joined : other.channelType ++ ":" ++ teamId' = key.channelType ++ ":" ++ teamId := by
    simpa only [String.append_assoc, String.append_right_inj] using same
  obtain ⟨channel, teams⟩ := joined_injective otherPlain.channelType
    (otherPlain.teamId _ team') plain.channelType (plain.teamId _ team) joined
  exact ⟨channel.symm, by rw [team, team', teams]⟩

/-- Exactly the sets of keys without the separator in their parts. -/
theorem faithful_iff (keys : Set SessionKey) : Faithful keys ↔ ∀ key ∈ keys, key.Plain := by
  constructor
  · intro faithful key member
    exact parse_asStr_iff.mp (faithful.parses key member)
  · intro plain
    refine ⟨?parses, ?distinct, ?stored, ?sessions, ?users, ?tenants⟩
    case parses => exact fun key member => parse_asStr (plain key member)
    case distinct =>
      intro key member other member' same
      exact asStr_injective (plain key member) (plain other member') same
    case stored =>
      intro key member
      rw [namespaceForSession, parse_asStr (plain key member)]
      rfl
    case sessions =>
      intro key member other member' access access' same
      rw [namespacesWithAccessContext, namespacesWithAccessContext, session_withAccessContext,
        session_withAccessContext] at same
      exact asStr_injective (plain key member) (plain other member')
        ((String.append_right_inj _).mp same)
    case users =>
      intro key member other member' access access' same
      rw [namespacesWithAccessContext, namespacesWithAccessContext, user_withAccessContext,
        user_withAccessContext] at same
      exact joined_injective (plain key member).channelType (plain key member).channelUserId
        (plain other member').channelType (plain other member').channelUserId
        ((String.append_right_inj _).mp same)
    case tenants =>
      intro key member other member' tenant
      exact tenantKey_injective (plain key member) (plain other member')

/-- A user id with a colon reads as a user of a team, and shares the string of one. -/
theorem not_faithful_of_colon :
    ¬ Faithful {SessionKey.new "dingtalk" "user:corp", .withTeam "dingtalk" "user" "corp"} := by
  intro faithful
  have same := faithful.distinct (.new "dingtalk" "user:corp") (by simp)
    (.withTeam "dingtalk" "user" "corp") (by simp) (by decide)
  revert same
  decide

end SessionKey

end UHorse.Agent
