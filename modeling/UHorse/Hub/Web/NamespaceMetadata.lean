import Mathlib.Logic.Equiv.List
import UHorse.Agent.SessionKey
import UHorse.Lib.HashMap
import UHorse.Lib.Numerals
import UHorse.Lib.Text

/-!
# Namespaces in the metadata of a session

A namespace is kept as separate entries of the metadata of a session. Reading them back takes
the scopes of the key first, normalizes the others, and finds what was written: every entry is
written or removed, and the scopes of a namespace are normalized already.
-/

namespace UHorse.Hub

open UHorse.Lib UHorse.Agent

abbrev Metadata := HashMap String String

/-- `serde_json::to_string` and `serde_json::from_str` for lists of texts. -/
structure RolesJson where
  encode : List String → Option String
  decode : String → Option (List String)

/-- Each list is encoded and read back. -/
def RolesJson.Faithful (json : RolesJson) : Prop :=
  ∀ roles, ∃ text, json.encode roles = some text ∧ json.decode text = some roles

/-- Some scope is there. -/
def hasScope (accessContext : AccessContext) : Bool :=
  accessContext.tenant.isSome || accessContext.enterprise.isSome ||
    accessContext.department.isSome || !accessContext.roles.isEmpty

section

variable (json : RolesJson)

def accessContextFromMetadata (metadata : Metadata) : Option AccessContext :=
  let accessContext := AccessContext.normalized
    { tenant := metadata.lookup "namespace_tenant"
      enterprise := metadata.lookup "namespace_enterprise"
      department := metadata.lookup "namespace_department"
      roles := ((metadata.lookup "namespace_roles").bind json.decode).getD [] }
  if hasScope accessContext then some accessContext else none

def sessionNamespaceFromMetadata (sessionKey : Option SessionKey) (metadata : Metadata) :
    Option SessionNamespace := do
  let accessContext := accessContextFromMetadata json metadata
  let sessionKey ← match sessionKey with
    | some sessionKey => some sessionKey
    | none => do
        let sessionId ← metadata.lookup "session_id"
        (SessionKey.parse sessionId).toOption
  let base := sessionKey.namespacesWithAccessContext accessContext
  some
    { base with
      globalScope := (metadata.lookup "namespace_global").getD base.globalScope
      user := (metadata.lookup "namespace_user").getD base.user
      session := (metadata.lookup "namespace_session").getD base.session }

/-- The entry of a scope that may be missing. -/
def writeScope (key : String) (scope : Option String) (metadata : Metadata) : Metadata :=
  match scope with
  | some scope => metadata.insert key scope
  | none => metadata.erase key

def writeRoles (roles : List String) (metadata : Metadata) : Metadata :=
  if roles.isEmpty then metadata.erase "namespace_roles"
  else
    match json.encode roles with
    | some serializedRoles => metadata.insert "namespace_roles" serializedRoles
    | none => metadata

def writeNamespaceMetadata (metadata : Metadata) (namespaces : SessionNamespace) : Metadata :=
  let metadata := metadata.insert "namespace_global" namespaces.globalScope
  let metadata := writeScope "namespace_tenant" namespaces.tenant metadata
  let metadata := writeScope "namespace_enterprise" namespaces.enterprise metadata
  let metadata := writeScope "namespace_department" namespaces.department metadata
  let metadata := writeRoles json namespaces.roles metadata
  let metadata := metadata.insert "namespace_user" namespaces.user
  metadata.insert "namespace_session" namespaces.session

end

/-! ## Normalized scopes -/

theorem trim_idem (text : String) : trim (trim text) = trim text := by
  have again : Text.trim isWhitespace (Text.trim isWhitespace text.toList) =
      Text.trim isWhitespace text.toList := Text.trim_trim text.toList
  rw [trim, trim, String.toList_ofList]
  exact congrArg String.ofList again

theorem normalizeOptionalScope_idem (scope : Option String) :
    normalizeOptionalScope (normalizeOptionalScope scope) = normalizeOptionalScope scope := by
  cases scope with
  | none => rfl
  | some scope =>
    rw [normalizeOptionalScope, normalizeOptionalScope, Option.map_some]
    by_cases blank : trim scope = ""
    · rw [Option.filter_some_neg (by simpa using blank)]
      rfl
    · rw [Option.filter_some_pos (by simpa using blank), Option.map_some, trim_idem,
        Option.filter_some_pos (by simpa using blank)]

/-- A list of roles that are trimmed, in order and distinct from their neighbours. -/
structure NormalRoles (roles : List String) : Prop where
  trimmed : ∀ role ∈ roles, trim role = role ∧ role ≠ ""
  sorted : roles.Pairwise (· ≤ ·)
  distinct : roles.IsChain (· ≠ ·)

theorem NormalRoles.normalized (roles : List String) :
    NormalRoles (normalizeRoleScopes roles) := by
  have kept : (normalizeRoleScopes roles).Sublist
      (((roles.map trim).filter fun trimmed => trimmed ≠ "").mergeSort (· ≤ ·)) :=
    List.destutter_sublist _ _
  refine ⟨fun role member => ?_, ?_, List.isChain_destutter _ _⟩
  · have inside := List.mem_mergeSort.mp (kept.subset member)
    obtain ⟨image, nonempty⟩ := List.mem_filter.mp inside
    obtain ⟨original, -, rfl⟩ := List.mem_map.mp image
    exact ⟨trim_idem original, of_decide_eq_true nonempty⟩
  · have sorted :
        (((roles.map trim).filter fun trimmed => trimmed ≠ "").mergeSort (· ≤ ·)).Pairwise
          fun first second => decide (first ≤ second) = true := by
      refine List.pairwise_mergeSort (fun first second third before after => ?_)
        (fun first second => ?_) _
      · exact decide_eq_true (String.le_trans (of_decide_eq_true before) (of_decide_eq_true after))
      · simpa only [Bool.or_eq_true, decide_eq_true_eq] using String.le_total first second
    exact (sorted.imp of_decide_eq_true).sublist kept

theorem NormalRoles.eq {roles : List String} (normal : NormalRoles roles) :
    normalizeRoleScopes roles = roles := by
  have images : roles.map trim = roles :=
    (List.map_congr_left fun role member => (normal.trimmed role member).1).trans (List.map_id _)
  have nonempty : roles.filter (fun trimmed => trimmed ≠ "") = roles :=
    List.filter_eq_self.mpr fun role member => decide_eq_true (normal.trimmed role member).2
  have sorted : roles.mergeSort (· ≤ ·) = roles :=
    List.mergeSort_of_pairwise (normal.sorted.imp decide_eq_true)
  rw [normalizeRoleScopes, images, nonempty, sorted]
  exact List.destutter_of_isChain _ _ normal.distinct

theorem normalizeRoleScopes_idem (roles : List String) :
    normalizeRoleScopes (normalizeRoleScopes roles) = normalizeRoleScopes roles :=
  (NormalRoles.normalized roles).eq

/-- Namespaces of a key: its own tenant goes first, and the other scopes are normalized. -/
structure Fits (key : SessionKey) (namespaces : SessionNamespace) : Prop where
  tenant : namespaces.tenant =
    key.tenantKey.orElse fun _ => normalizeOptionalScope namespaces.tenant
  enterprise : normalizeOptionalScope namespaces.enterprise = namespaces.enterprise
  department : normalizeOptionalScope namespaces.department = namespaces.department
  roles : normalizeRoleScopes namespaces.roles = namespaces.roles

theorem fits_withAccessContext (key : SessionKey) (access : Option AccessContext) :
    Fits key (key.namespacesWithAccessContext access) := by
  cases access with
  | none =>
    refine ⟨?_, rfl, rfl, NormalRoles.eq ⟨nofun, .nil, .nil⟩⟩
    have tenant : (key.namespacesWithAccessContext none).tenant = key.tenantKey := rfl
    rw [tenant]
    cases key.tenantKey <;> rfl
  | some access =>
    refine ⟨?_, normalizeOptionalScope_idem _, normalizeOptionalScope_idem _,
      normalizeRoleScopes_idem _⟩
    have tenant : (key.namespacesWithAccessContext (some access)).tenant =
        key.tenantKey.orElse fun _ => normalizeOptionalScope access.tenant := rfl
    rw [tenant]
    cases key.tenantKey with
    | some own => rfl
    | none => exact (normalizeOptionalScope_idem access.tenant).symm

/-! ## Reading what was written -/

section Written

variable {json : RolesJson}

@[simp]
theorem lookup_writeScope (key : String) (scope : Option String) (metadata : Metadata)
    (other : String) :
    (writeScope key scope metadata).lookup other =
      if other = key then scope else metadata.lookup other := by
  cases scope with
  | none => rw [writeScope, HashMap.lookup_erase_ite]
  | some scope => rw [writeScope, HashMap.lookup_insert_ite]

theorem lookup_writeRoles_ne (roles : List String) (metadata : Metadata) {other : String}
    (distinct : other ≠ "namespace_roles") :
    (writeRoles json roles metadata).lookup other = metadata.lookup other := by
  rw [writeRoles]
  split
  · rw [HashMap.lookup_erase_ite, if_neg distinct]
  · split
    · rw [HashMap.lookup_insert_ite, if_neg distinct]
    · rfl

/-- The entry of the roles does not depend on what was there. -/
theorem lookup_writeRoles (faithful : json.Faithful) (roles : List String) (metadata : Metadata) :
    (writeRoles json roles metadata).lookup "namespace_roles" =
      if roles.isEmpty then none else json.encode roles := by
  rw [writeRoles]
  split
  · rw [HashMap.lookup_erase_ite, if_pos rfl]
  · obtain ⟨text, encoded, -⟩ := faithful roles
    rw [encoded, HashMap.lookup_insert_ite, if_pos rfl]

variable (metadata : Metadata) (namespaces : SessionNamespace)

theorem lookup_session :
    (writeNamespaceMetadata json metadata namespaces).lookup "namespace_session" =
      some namespaces.session := by
  rw [writeNamespaceMetadata, HashMap.lookup_insert_ite, if_pos rfl]

theorem lookup_user :
    (writeNamespaceMetadata json metadata namespaces).lookup "namespace_user" =
      some namespaces.user := by
  rw [writeNamespaceMetadata, HashMap.lookup_insert_ite, if_neg (by decide),
    HashMap.lookup_insert_ite, if_pos rfl]

theorem lookup_roles (faithful : json.Faithful) :
    (writeNamespaceMetadata json metadata namespaces).lookup "namespace_roles" =
      if namespaces.roles.isEmpty then none else json.encode namespaces.roles := by
  rw [writeNamespaceMetadata, HashMap.lookup_insert_ite, if_neg (by decide),
    HashMap.lookup_insert_ite, if_neg (by decide)]
  exact lookup_writeRoles faithful _ _

/-- The roles are read as they were written. -/
theorem decode_roles (faithful : json.Faithful) :
    (((writeNamespaceMetadata json metadata namespaces).lookup "namespace_roles").bind
      json.decode).getD [] = namespaces.roles := by
  rw [lookup_roles metadata namespaces faithful]
  split
  · next empty => exact (List.isEmpty_iff.mp empty).symm
  · obtain ⟨text, encoded, decoded⟩ := faithful namespaces.roles
    rw [encoded, Option.bind_some, decoded, Option.getD_some]

/-- The other entries. -/
theorem lookup_scope {key : String} (session : key ≠ "namespace_session")
    (user : key ≠ "namespace_user") (roles : key ≠ "namespace_roles") :
    (writeNamespaceMetadata json metadata namespaces).lookup key =
      if key = "namespace_department" then namespaces.department
      else if key = "namespace_enterprise" then namespaces.enterprise
      else if key = "namespace_tenant" then namespaces.tenant
      else if key = "namespace_global" then some namespaces.globalScope
      else metadata.lookup key := by
  rw [writeNamespaceMetadata, HashMap.lookup_insert_ite, if_neg session,
    HashMap.lookup_insert_ite, if_neg user, lookup_writeRoles_ne _ _ roles]
  simp only [lookup_writeScope, HashMap.lookup_insert_ite]

/-- The access context that is read is that of the namespaces, normalized. -/
theorem accessContext_written (faithful : json.Faithful) {access : AccessContext}
    (normalized : AccessContext.normalized ⟨namespaces.tenant, namespaces.enterprise,
      namespaces.department, namespaces.roles⟩ = access) :
    accessContextFromMetadata json (writeNamespaceMetadata json metadata namespaces) =
      if hasScope access then some access else none := by
  subst normalized
  rw [accessContextFromMetadata, decode_roles metadata namespaces faithful,
    lookup_scope metadata namespaces (by decide) (by decide) (by decide),
    lookup_scope metadata namespaces (by decide) (by decide) (by decide),
    lookup_scope metadata namespaces (by decide) (by decide) (by decide)]
  simp only [String.reduceEq, if_true, if_false]

variable {namespaces}

/-- The normalized scopes of the namespaces of a key give these namespaces. -/
theorem withAccessContext_written {key : SessionKey} (fits : Fits key namespaces)
    {access : AccessContext}
    (normalized : AccessContext.normalized ⟨namespaces.tenant, namespaces.enterprise,
      namespaces.department, namespaces.roles⟩ = access) :
    key.namespacesWithAccessContext (if hasScope access then some access else none) =
      { key.namespaces with
        tenant := namespaces.tenant
        enterprise := namespaces.enterprise
        department := namespaces.department
        roles := namespaces.roles } := by
  have enterprise : access.enterprise = namespaces.enterprise := normalized ▸ fits.enterprise
  have department : access.department = namespaces.department := normalized ▸ fits.department
  have roles : access.roles = namespaces.roles := normalized ▸ fits.roles
  have tenant : access.tenant = normalizeOptionalScope namespaces.tenant := normalized ▸ rfl
  split
  · have again : access.normalized = access := by
      rw [← normalized, AccessContext.normalized, AccessContext.normalized]
      simp only [normalizeOptionalScope_idem, normalizeRoleScopes_idem]
    rw [SessionKey.namespacesWithAccessContext, SessionNamespace.withAccessContext,
      Option.map_some, again]
    have own : (key.namespaces.tenant.orElse fun _ => access.tenant) = namespaces.tenant := by
      rw [tenant]
      exact fits.tenant.symm
    dsimp only
    rw [own, enterprise, department, roles]
  · next nothing =>
      simp only [hasScope, Bool.or_eq_true, not_or, Bool.not_eq_true, Bool.not_eq_false',
        Option.isSome_eq_false_iff, Option.isNone_iff_eq_none, List.isEmpty_iff] at nothing
      obtain ⟨⟨⟨noTenant, noEnterprise⟩, noDepartment⟩, noRoles⟩ := nothing
      rw [fits.tenant, ← tenant, ← enterprise, ← department, ← roles, noTenant, noEnterprise,
        noDepartment, noRoles]
      have own : (key.tenantKey.orElse fun _ => none) = key.tenantKey := by
        cases key.tenantKey <;> rfl
      rw [own]
      rfl

/-- Namespaces of a key are read as they were written. -/
theorem read_written (faithful : json.Faithful) {key : SessionKey} (fits : Fits key namespaces) :
    sessionNamespaceFromMetadata json (some key)
      (writeNamespaceMetadata json metadata namespaces) = some namespaces := by
  rw [sessionNamespaceFromMetadata, accessContext_written metadata namespaces faithful rfl,
    lookup_session, lookup_user,
    lookup_scope metadata namespaces (by decide) (by decide) (by decide)]
  dsimp only [Option.bind_eq_bind, Option.bind_some]
  rw [withAccessContext_written fits rfl]
  simp only [String.reduceEq, if_true, if_false, Option.getD_some]

/-- Writing the same namespaces again changes nothing. -/
theorem write_written (faithful : json.Faithful) :
    writeNamespaceMetadata json (writeNamespaceMetadata json metadata namespaces) namespaces =
      writeNamespaceMetadata json metadata namespaces := by
  refine Finmap.ext_lookup fun key => ?_
  by_cases session : key = "namespace_session"
  · rw [session, lookup_session, lookup_session]
  by_cases user : key = "namespace_user"
  · rw [user, lookup_user, lookup_user]
  by_cases roles : key = "namespace_roles"
  · rw [roles, lookup_roles _ _ faithful, lookup_roles _ _ faithful]
  rw [lookup_scope _ _ session user roles, lookup_scope _ _ session user roles]
  split_ifs <;> rfl

/-- What is read from any metadata are namespaces of the key. -/
theorem fits_of_read {key : SessionKey}
    (read : sessionNamespaceFromMetadata json (some key) metadata = some namespaces) :
    Fits key namespaces := by
  rw [sessionNamespaceFromMetadata, Option.bind_eq_bind, Option.bind_some] at read
  have fits := fits_withAccessContext key (accessContextFromMetadata json metadata)
  cases read
  exact ⟨fits.tenant, fits.enterprise, fits.department, fits.roles⟩

end Written

/-- Namespaces that are written over some metadata are read back, and writing what is read then
changes nothing. -/
structure RoundTrips (json : RolesJson) (key : SessionKey) (metadata : Metadata)
    (namespaces : SessionNamespace) : Prop where
  read : sessionNamespaceFromMetadata json (some key)
    (writeNamespaceMetadata json metadata namespaces) = some namespaces
  write : ∀ found, sessionNamespaceFromMetadata json (some key)
      (writeNamespaceMetadata json metadata namespaces) = some found →
    writeNamespaceMetadata json (writeNamespaceMetadata json metadata namespaces) found =
      writeNamespaceMetadata json metadata namespaces

theorem Fits.roundTrips {json : RolesJson} (faithful : json.Faithful) {key : SessionKey}
    {namespaces : SessionNamespace} (fits : Fits key namespaces) (metadata : Metadata) :
    RoundTrips json key metadata namespaces where
  read := read_written metadata faithful fits
  write found read := by
    cases (read_written metadata faithful fits).symm.trans read
    exact write_written metadata faithful

/-- Over any metadata the namespaces of a key and an access context make the round trip, and so
do the namespaces that were read from it before. -/
theorem namespace_round_trip (json : RolesJson) (faithful : json.Faithful) (key : SessionKey)
    (access : Option AccessContext) (metadata : Metadata) :
    RoundTrips json key metadata (key.namespacesWithAccessContext access) ∧
      ∀ namespaces, sessionNamespaceFromMetadata json (some key) metadata = some namespaces →
        RoundTrips json key metadata namespaces :=
  ⟨(fits_withAccessContext key access).roundTrips faithful metadata,
    fun _ read => (fits_of_read metadata read).roundTrips faithful metadata⟩

/-! ## An encoding of lists -/

/-- One list as JSON has it, and the others by their numbers. -/
def sampleRolesJson : RolesJson where
  encode roles :=
    some (if roles = ["admin", "ops"] then "[\"admin\",\"ops\"]"
      else Nat.repr (Encodable.encode (roles.map fun role => role.toList.map Char.toNat)))
  decode text :=
    if text = "[\"admin\",\"ops\"]" then some ["admin", "ops"]
    else (Numerals.natural? text.toList).bind fun number =>
      (Encodable.decode number : Option (List (List ℕ))).map fun roles =>
        roles.map fun role => String.ofList (role.map Char.ofNat)

theorem sampleRolesJson_faithful : sampleRolesJson.Faithful := by
  intro roles
  refine ⟨_, rfl, ?_⟩
  rw [sampleRolesJson]
  dsimp only
  by_cases sample : roles = ["admin", "ops"]
  · rw [if_pos sample, if_pos rfl, sample]
  · rw [if_neg sample]
    have number := Numerals.natural?_repr
      (Encodable.encode (roles.map fun role => role.toList.map Char.toNat))
    rw [if_neg, number, Option.bind_some, Encodable.encodek, Option.map_some, List.map_map]
    · refine congrArg some ((List.map_congr_left fun role _ => ?_).trans (List.map_id roles))
      have letters : (role.toList.map Char.toNat).map Char.ofNat = role.toList := by
        rw [List.map_map]
        exact (List.map_congr_left fun c _ => Char.ofNat_toNat c).trans (List.map_id _)
      rw [Function.comp_apply, letters, String.ofList_toList, id]
    · intro same
      rw [same] at number
      have bracket : Numerals.natural? "[\"admin\",\"ops\"]".toList = none := by decide
      cases bracket.symm.trans number

theorem namespace_round_trip_sample : sampleRolesJson.Faithful ∧
    RoundTrips sampleRolesJson (.new "slack" "U1") (writeScope "namespace_tenant" (some "old") ∅)
      (SessionKey.namespacesWithAccessContext (.new "slack" "U1")
        (some ⟨some " acme ", none, none, ["ops", "admin", " ops"]⟩)) :=
  ⟨sampleRolesJson_faithful,
    (namespace_round_trip sampleRolesJson sampleRolesJson_faithful _ _ _).1⟩

end UHorse.Hub
