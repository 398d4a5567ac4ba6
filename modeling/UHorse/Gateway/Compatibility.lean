import UHorse.Lib.HashMap

/-!
# Compatibility of API specifications

The checker keeps the endpoints of both specifications by their method and path, compares the
fields of the old endpoint with the first field of the same name in the new one, and collects what
would break a client.

Both maps are iterated in an order that is not specified.
-/

namespace UHorse.Gateway

open UHorse.Lib

inductive CompatibilityLevel
  | fullyCompatible
  | backwardCompatible
  | breaking
  | incompatible
deriving DecidableEq

inductive BreakingChange
  | endpointRemoved (path : String)
  | endpointRenamed (old new : String)
  | requestFieldRemoved (endpoint field : String)
  | requestFieldTypeChanged (endpoint field oldType newType : String)
  | requiredFieldAdded (endpoint field : String)
  | responseFieldRemoved (endpoint field : String)
  | responseFieldTypeChanged (endpoint field oldType newType : String)
  | authenticationChanged (endpoint : String)
  | permissionChanged (endpoint old new : String)
deriving DecidableEq

def BreakingChange.severity : BreakingChange → Nat
  | endpointRemoved _ => 5
  | endpointRenamed _ _ => 4
  | requestFieldRemoved _ _ => 4
  | requestFieldTypeChanged _ _ _ _ => 3
  | requiredFieldAdded _ _ => 3
  | responseFieldRemoved _ _ => 3
  | responseFieldTypeChanged _ _ _ _ => 2
  | authenticationChanged _ => 5
  | permissionChanged _ _ _ => 2

structure FieldSpec where
  name : String
  fieldType : String
  required : Bool
  description : Option String := none
deriving DecidableEq

structure EndpointSpec where
  path : String
  method : String
  requestParams : List FieldSpec
  responseFields : List FieldSpec
  authRequired : Bool
  permissions : List String
deriving DecidableEq

/-- The key an endpoint is kept under. -/
def EndpointSpec.key (spec : EndpointSpec) : String := spec.method ++ ":" ++ spec.path

structure CompatibilityReport where
  level : CompatibilityLevel
  breakingChanges : List BreakingChange
  warnings : List String

/-! ## The checker -/

/-- The first field with the name. -/
def fieldNamed (fields : List FieldSpec) (name : String) : Option FieldSpec :=
  fields.find? fun field => field.name = name

namespace EndpointSpec

/-- What is reported of a request parameter of the old endpoint. -/
def requestChanges (new : EndpointSpec) (oldField : FieldSpec) : List BreakingChange :=
  match fieldNamed new.requestParams oldField.name with
  | none => [.requestFieldRemoved new.path oldField.name]
  | some newField =>
    (if newField.fieldType ≠ oldField.fieldType then
      [.requestFieldTypeChanged new.path oldField.name oldField.fieldType newField.fieldType]
    else []) ++
    if newField.required = true ∧ oldField.required = false then
      [.requiredFieldAdded new.path oldField.name]
    else []

/-- What is reported of a response field of the old endpoint. -/
def responseChanges (new : EndpointSpec) (oldField : FieldSpec) : List BreakingChange :=
  match fieldNamed new.responseFields oldField.name with
  | none => [.responseFieldRemoved new.path oldField.name]
  | some newField =>
    if newField.fieldType ≠ oldField.fieldType then
      [.responseFieldTypeChanged new.path oldField.name oldField.fieldType newField.fieldType]
    else []

def authenticationChanges (old new : EndpointSpec) : List BreakingChange :=
  if new.authRequired = true ∧ old.authRequired = false then [.authenticationChanged new.path]
  else []

/-- What is reported of an endpoint that both specifications have. -/
def changes (old new : EndpointSpec) : List BreakingChange :=
  old.requestParams.flatMap new.requestChanges ++
    old.responseFields.flatMap new.responseChanges ++ authenticationChanges old new

def permissionWarnings (old new : EndpointSpec) : List String :=
  (old.permissions.filter fun permission => permission ∉ new.permissions).map fun permission =>
    "权限 '" ++ permission ++ "' 已从端点 " ++ new.path ++ " 移除"

end EndpointSpec

structure CompatibilityChecker where
  oldSpec : HashMap String EndpointSpec
  newSpec : HashMap String EndpointSpec

/-- Of endpoints with one key the last one is kept. -/
def byKey (specs : List EndpointSpec) : HashMap String EndpointSpec :=
  specs.foldl (fun kept spec => kept.insert spec.key spec) ∅

def reportLevel (breakingChanges : List BreakingChange) : CompatibilityLevel :=
  if breakingChanges = [] then .fullyCompatible
  else if (breakingChanges.map BreakingChange.severity).foldl max 0 ≥ 4 then .incompatible
  else .breaking

namespace CompatibilityChecker

def new (oldSpec newSpec : List EndpointSpec) : CompatibilityChecker :=
  ⟨byKey oldSpec, byKey newSpec⟩

/-- The orders in which the maps are iterated. -/
structure Iteration (checker : CompatibilityChecker) where
  oldOrder : List (String × EndpointSpec)
  newOrder : List (String × EndpointSpec)
  listsOld : checker.oldSpec.Lists oldOrder
  listsNew : checker.newSpec.Lists newOrder

def removedEndpoints (checker : CompatibilityChecker) (iteration : checker.Iteration) :
    List BreakingChange :=
  (iteration.oldOrder.filter fun entry => entry.1 ∉ checker.newSpec).map fun entry =>
    .endpointRemoved entry.2.path

/-- What `report` collects of the endpoints that both specifications have. -/
def modifiedEndpoints {α : Type} (checker : CompatibilityChecker) (iteration : checker.Iteration)
    (report : EndpointSpec → EndpointSpec → List α) : List α :=
  iteration.newOrder.flatMap fun entry =>
    match checker.oldSpec.lookup entry.1 with
    | none => []
    | some old => report old entry.2

def check (checker : CompatibilityChecker) (iteration : checker.Iteration) :
    CompatibilityReport :=
  let breakingChanges := checker.removedEndpoints iteration ++
    checker.modifiedEndpoints iteration EndpointSpec.changes
  { level := reportLevel breakingChanges
    breakingChanges := breakingChanges
    warnings := checker.modifiedEndpoints iteration EndpointSpec.permissionWarnings }

end CompatibilityChecker

/-! ## What specifications mean -/

/-- A request gives its parameters values of some types. -/
structure ApiRequest where
  params : String → Option String
  authenticated : Bool

namespace EndpointSpec

/-- The same endpoint, in another specification. -/
def Same (old new : EndpointSpec) : Prop := old.method = new.method ∧ old.path = new.path

/-- The required parameters are present with their types, and so is an authentication that is
required. -/
structure Accepts (spec : EndpointSpec) (request : ApiRequest) : Prop where
  params : ∀ field ∈ spec.requestParams, field.required = true →
    request.params field.name = some field.fieldType
  authenticated : spec.authRequired = true → request.authenticated = true

/-- Requests for the old endpoint are requests for the new one, and the response has the fields
it had. -/
structure Preserves (old new : EndpointSpec) : Prop where
  requests : ∀ request, old.Accepts request → new.Accepts request
  responses : ∀ field ∈ old.responseFields, ∃ field' ∈ new.responseFields,
    field'.name = field.name ∧ field'.fieldType = field.fieldType

/-- What is required now was required before, with the same type. -/
def RequiresNoMore (old new : EndpointSpec) : Prop :=
  ∀ field ∈ new.requestParams, field.required = true → ∃ field' ∈ old.requestParams,
    field'.required = true ∧ field'.name = field.name ∧ field'.fieldType = field.fieldType

/-- A parameter is required with two types. -/
def Contradictory (spec : EndpointSpec) : Prop :=
  ∃ field ∈ spec.requestParams, ∃ other ∈ spec.requestParams, field.required = true ∧
    other.required = true ∧ field.name = other.name ∧ field.fieldType ≠ other.fieldType

/-- A change names a difference between the two endpoints. -/
def Names (old new : EndpointSpec) : BreakingChange → Prop
  | .requestFieldRemoved endpoint name =>
    endpoint = new.path ∧ (∃ field ∈ old.requestParams, field.name = name) ∧
      ∀ field ∈ new.requestParams, field.name ≠ name
  | .requestFieldTypeChanged endpoint name oldType newType =>
    endpoint = new.path ∧
      (∃ field ∈ old.requestParams, field.name = name ∧ field.fieldType = oldType) ∧
      (∃ field ∈ new.requestParams, field.name = name ∧ field.fieldType = newType) ∧
      ∀ field ∈ new.requestParams, field.name = name → field.fieldType ≠ oldType
  | .requiredFieldAdded endpoint name =>
    endpoint = new.path ∧
      (∃ field ∈ new.requestParams, field.name = name ∧ field.required = true) ∧
      ∀ field ∈ old.requestParams, field.name = name → field.required = false
  | .responseFieldRemoved endpoint name =>
    endpoint = new.path ∧ (∃ field ∈ old.responseFields, field.name = name) ∧
      ∀ field ∈ new.responseFields, field.name ≠ name
  | .responseFieldTypeChanged endpoint name oldType newType =>
    endpoint = new.path ∧
      (∃ field ∈ old.responseFields, field.name = name ∧ field.fieldType = oldType) ∧
      (∃ field ∈ new.responseFields, field.name = name ∧ field.fieldType = newType) ∧
      ∀ field ∈ new.responseFields, field.name = name → field.fieldType ≠ oldType
  | .authenticationChanged endpoint =>
    endpoint = new.path ∧ new.authRequired = true ∧ old.authRequired = false
  | .endpointRemoved _ | .endpointRenamed _ _ | .permissionChanged _ _ _ => False

/-- What the old endpoint has is carried over: a request for it has what the new one requires,
unless there is none, and so has the response. -/
structure Carries (old new : EndpointSpec) : Prop where
  requests : old.Contradictory ∨
    old.RequiresNoMore new ∧ (new.authRequired = true → old.authRequired = true)
  responses : ∀ field ∈ old.responseFields, ∃ field' ∈ new.responseFields,
    field'.name = field.name ∧ field'.fieldType = field.fieldType

/-- A field that is in the new list stands there first among those of its name, as far as its type
is concerned. -/
def FirstStands (old new : List FieldSpec) : Prop :=
  ∀ field ∈ old, ∀ other ∈ new, other.name = field.name → other.fieldType = field.fieldType →
    ∀ first, fieldNamed new field.name = some first → first.fieldType = field.fieldType

/-- The old parameters of one name agree on being required, where the new one is required. -/
def AgreeRequired (old new : EndpointSpec) : Prop :=
  ∀ field ∈ old.requestParams, ∀ other ∈ old.requestParams, other.name = field.name →
    other.required = true → ∀ first, fieldNamed new.requestParams field.name = some first →
    first.required = true → field.required = true

/-- The first new field of each name has the type of the old fields and is required only if they
are, and an authentication was required before. -/
structure Matches (old new : EndpointSpec) : Prop where
  params : ∀ field ∈ old.requestParams, ∃ first,
    fieldNamed new.requestParams field.name = some first ∧
      first.fieldType = field.fieldType ∧ (first.required = true → field.required = true)
  responses : ∀ field ∈ old.responseFields, ∃ first,
    fieldNamed new.responseFields field.name = some first ∧ first.fieldType = field.fieldType
  authentication : new.authRequired = true → old.authRequired = true

/-- Two different endpoints match, and in one endpoint no other field of the same name stands in the
way. -/
def Comparable (old new : EndpointSpec) : Prop :=
  old.Matches new ∨ old.Same new ∧ FirstStands old.requestParams new.requestParams ∧
    FirstStands old.responseFields new.responseFields ∧ old.AgreeRequired new

end EndpointSpec

namespace CompatibilityChecker

/-- The endpoints the checker compares under a key. -/
def Compared (checker : CompatibilityChecker) (key : String) (old new : EndpointSpec) : Prop :=
  checker.oldSpec.lookup key = some old ∧ checker.newSpec.lookup key = some new

/-- A change is reported of an endpoint that is removed, or of one that is compared. -/
inductive Concerns (checker : CompatibilityChecker) :
    BreakingChange → EndpointSpec → Option EndpointSpec → Prop
  | removed {key : String} {old : EndpointSpec} :
      checker.oldSpec.lookup key = some old → key ∉ checker.newSpec →
      Concerns checker (.endpointRemoved old.path) old none
  | modified {key : String} {old new : EndpointSpec} {change : BreakingChange} :
      checker.Compared key old new → change ∈ old.changes new →
      Concerns checker change old (some new)

end CompatibilityChecker

/-- Every endpoint of the old specification is one of the new specification, for which the same
requests are made and which responds with the same fields. -/
def Compatible (old new : List EndpointSpec) : Prop :=
  ∀ endpoint ∈ old, (∃ endpoint' ∈ new, endpoint.Same endpoint') ∧
    ∀ endpoint' ∈ new, endpoint.Same endpoint' → endpoint.Preserves endpoint'

/-- The difference of a change: the endpoint is not in the new specification any more, or it is,
and the change names a difference. -/
def Difference (new : List EndpointSpec) (change : BreakingChange) (endpoint : EndpointSpec) :
    Option EndpointSpec → Prop
  | none => ∀ endpoint' ∈ new, ¬ endpoint.Same endpoint'
  | some endpoint' => endpoint.Same endpoint' ∧ endpoint.Names endpoint' change

/-- Every change that is reported is reported of something, and of a difference. -/
def Truthful (checker : CompatibilityChecker) (new : List EndpointSpec)
    (report : CompatibilityReport) : Prop :=
  ∀ change ∈ report.breakingChanges,
    (∃ endpoint endpoint', checker.Concerns change endpoint endpoint') ∧
    ∀ endpoint endpoint', checker.Concerns change endpoint endpoint' →
      Difference new change endpoint endpoint'

/-- Each key of the old specification is one of the new one, and all endpoints that are compared
match. -/
structure Quiet (checker : CompatibilityChecker) : Prop where
  kept : ∀ key ∈ checker.oldSpec, key ∈ checker.newSpec
  matched : ∀ key old new, checker.Compared key old new → old.Matches new

/-- Endpoints that are compared require no more than they did, and endpoints that are not, since
others are kept under their key, carry over what they had. -/
def Covered (checker : CompatibilityChecker) (old new : List EndpointSpec) : Prop :=
  ∀ endpoint ∈ old, (∃ endpoint' ∈ new, endpoint.Same endpoint') ∧
    ∀ endpoint' ∈ new, endpoint.Same endpoint' →
      checker.Compared endpoint.key endpoint endpoint' ∧ endpoint.RequiresNoMore endpoint' ∨
        endpoint.Carries endpoint'

/-! ## Endpoints -/

section Endpoint

variable {fields : List FieldSpec} {field first : FieldSpec} {old new : EndpointSpec}

theorem fieldNamed_mem {name : String} (found : fieldNamed fields name = some first) :
    first ∈ fields ∧ first.name = name := by
  have named := List.find?_some (p := fun field : FieldSpec => decide (field.name = name)) found
  exact ⟨List.mem_of_find?_eq_some found, of_decide_eq_true named⟩

theorem fieldNamed_eq_none {name : String} :
    fieldNamed fields name = none ↔ ∀ field ∈ fields, field.name ≠ name := by
  rw [fieldNamed, List.find?_eq_none]
  simp

namespace EndpointSpec

theorem requestChanges_eq_nil_iff : new.requestChanges field = [] ↔
    ∃ first, fieldNamed new.requestParams field.name = some first ∧
      first.fieldType = field.fieldType ∧ (first.required = true → field.required = true) := by
  rw [requestChanges]
  cases fieldNamed new.requestParams field.name with
  | none => simp
  | some first => simp

theorem responseChanges_eq_nil_iff : new.responseChanges field = [] ↔
    ∃ first, fieldNamed new.responseFields field.name = some first ∧
      first.fieldType = field.fieldType := by
  rw [responseChanges]
  cases fieldNamed new.responseFields field.name with
  | none => simp
  | some first => simp

theorem authenticationChanges_eq_nil_iff : authenticationChanges old new = [] ↔
    (new.authRequired = true → old.authRequired = true) := by
  rw [authenticationChanges]
  simp

theorem changes_eq_nil_iff : old.changes new = [] ↔ old.Matches new := by
  rw [changes, List.append_eq_nil_iff, List.append_eq_nil_iff, List.flatMap_eq_nil_iff,
    List.flatMap_eq_nil_iff, authenticationChanges_eq_nil_iff]
  simp only [requestChanges_eq_nil_iff, responseChanges_eq_nil_iff]
  constructor
  · rintro ⟨⟨params, responses⟩, authentication⟩
    exact ⟨params, responses, authentication⟩
  · rintro ⟨params, responses, authentication⟩
    exact ⟨⟨params, responses⟩, authentication⟩

/-- A request that gives the required parameters and nothing else. -/
def leastRequest (spec : EndpointSpec) : ApiRequest where
  params name := (spec.requestParams.find? fun field =>
    field.name = name ∧ field.required = true).map FieldSpec.fieldType
  authenticated := spec.authRequired

theorem accepts_leastRequest (consistent : ¬ old.Contradictory) :
    old.Accepts old.leastRequest := by
  refine ⟨fun field member required => ?_, id⟩
  have some_ : ∃ found, old.requestParams.find? (fun other =>
      other.name = field.name ∧ other.required = true) = some found := by
    rw [← Option.isSome_iff_exists, List.find?_isSome]
    exact ⟨field, member, decide_eq_true ⟨rfl, required⟩⟩
  obtain ⟨found, first⟩ := some_
  have met := List.find?_some (p := fun other : FieldSpec =>
    decide (other.name = field.name ∧ other.required = true)) first
  obtain ⟨named, foundRequired⟩ := of_decide_eq_true met
  have typed : found.fieldType = field.fieldType := by
    by_contra different
    exact consistent ⟨found, List.mem_of_find?_eq_some first, field, member, foundRequired,
      required, named, different⟩
  show (old.requestParams.find? _).map FieldSpec.fieldType = _
  rw [first, Option.map_some, typed]

theorem leastRequest_eq_some {name fieldType : String}
    (given : old.leastRequest.params name = some fieldType) : ∃ field ∈ old.requestParams,
      field.required = true ∧ field.name = name ∧ field.fieldType = fieldType := by
  obtain ⟨field, found, typed⟩ := Option.map_eq_some_iff.mp given
  have met := List.find?_some (p := fun other : FieldSpec =>
    decide (other.name = name ∧ other.required = true)) found
  obtain ⟨named, required⟩ := of_decide_eq_true met
  exact ⟨field, List.mem_of_find?_eq_some found, required, named, typed⟩

/-- What every request has to have is seen from the fields. -/
theorem preserves_iff : old.Preserves new ↔ old.Carries new := by
  constructor
  · intro preserves
    refine ⟨or_iff_not_imp_left.mpr fun consistent => ?_, preserves.responses⟩
    have accepted := preserves.requests _ (accepts_leastRequest consistent)
    refine ⟨fun field member required => ?_, accepted.authenticated⟩
    exact leastRequest_eq_some (accepted.params field member required)
  · intro carries
    refine ⟨fun request accepted => ?_, carries.responses⟩
    rcases carries.requests with contradictory | ⟨noMore, authentication⟩
    · obtain ⟨field, member, other, otherMember, required, otherRequired, named, different⟩ :=
        contradictory
      have given := accepted.params field member required
      rw [named, accepted.params other otherMember otherRequired] at given
      exact absurd (Option.some.inj given).symm different
    · refine ⟨fun field member required => ?_, fun needed => ?_⟩
      · obtain ⟨field', member', required', named, typed⟩ := noMore field member required
        rw [← named, ← typed]
        exact accepted.params field' member' required'
      · exact accepted.authenticated (authentication needed)

/-- Where the first fields match, what is required now is all that can be missing. -/
theorem carries_of_matches (matched : old.Matches new) (noMore : old.RequiresNoMore new) :
    old.Carries new := by
  refine ⟨.inr ⟨noMore, matched.authentication⟩, fun field member => ?_⟩
  obtain ⟨first, found, typed⟩ := matched.responses field member
  obtain ⟨stored, named⟩ := fieldNamed_mem found
  exact ⟨first, stored, named, typed⟩

/-! ## Reported changes -/

variable {change : BreakingChange}

theorem mem_changes : change ∈ old.changes new ↔
    (∃ field ∈ old.requestParams, change ∈ new.requestChanges field) ∨
      (∃ field ∈ old.responseFields, change ∈ new.responseChanges field) ∨
      change ∈ authenticationChanges old new := by
  rw [changes, List.mem_append, List.mem_append, List.mem_flatMap, List.mem_flatMap, or_assoc]

theorem names_requestChanges (stands : FirstStands old.requestParams new.requestParams)
    (agree : old.AgreeRequired new) (member : field ∈ old.requestParams)
    (reported : change ∈ new.requestChanges field) : old.Names new change := by
  rw [requestChanges] at reported
  cases found : fieldNamed new.requestParams field.name with
  | none =>
    rw [found] at reported
    obtain rfl := List.mem_singleton.mp reported
    exact ⟨rfl, ⟨field, member, rfl⟩, fieldNamed_eq_none.mp found⟩
  | some first =>
    rw [found] at reported
    obtain ⟨stored, named⟩ := fieldNamed_mem found
    rcases List.mem_append.mp reported with reported | reported
    · split at reported
      · next different =>
          obtain rfl := List.mem_singleton.mp reported
          refine ⟨rfl, ⟨field, member, rfl, rfl⟩, ⟨first, stored, named, rfl⟩, ?_⟩
          intro other otherMember otherNamed same
          exact different (stands field member other otherMember otherNamed same first found)
      · cases reported
    · split at reported
      · next added =>
          obtain rfl := List.mem_singleton.mp reported
          refine ⟨rfl, ⟨first, stored, named, added.1⟩, fun other otherMember otherNamed => ?_⟩
          refine Bool.eq_false_iff.mpr fun required => ?_
          have same :=
            agree field member other otherMember otherNamed required first found added.1
          exact Bool.false_ne_true (added.2.symm.trans same)
      · cases reported

theorem names_responseChanges (stands : FirstStands old.responseFields new.responseFields)
    (member : field ∈ old.responseFields) (reported : change ∈ new.responseChanges field) :
    old.Names new change := by
  rw [responseChanges] at reported
  cases found : fieldNamed new.responseFields field.name with
  | none =>
    rw [found] at reported
    obtain rfl := List.mem_singleton.mp reported
    exact ⟨rfl, ⟨field, member, rfl⟩, fieldNamed_eq_none.mp found⟩
  | some first =>
    rw [found] at reported
    obtain ⟨stored, named⟩ := fieldNamed_mem found
    dsimp only at reported
    split at reported
    · next different =>
        obtain rfl := List.mem_singleton.mp reported
        refine ⟨rfl, ⟨field, member, rfl, rfl⟩, ⟨first, stored, named, rfl⟩, ?_⟩
        intro other otherMember otherNamed same
        exact different (stands field member other otherMember otherNamed same first found)
    · cases reported

theorem names_authenticationChanges (reported : change ∈ authenticationChanges old new) :
    old.Names new change := by
  rw [authenticationChanges] at reported
  split at reported
  · next added =>
      obtain rfl := List.mem_singleton.mp reported
      exact ⟨rfl, added⟩
  · cases reported

theorem firstStands_requestParams (named : ∀ change ∈ old.changes new, old.Names new change) :
    FirstStands old.requestParams new.requestParams := by
  intro field member other otherMember otherNamed sameType first found
  by_contra different
  have reported : .requestFieldTypeChanged new.path field.name field.fieldType first.fieldType ∈
      new.requestChanges field := by
    rw [requestChanges, found]
    exact List.mem_append_left _ (by simp [different])
  obtain ⟨-, -, -, gone⟩ := named _ (mem_changes.mpr (.inl ⟨field, member, reported⟩))
  exact gone other otherMember otherNamed sameType

theorem firstStands_responseFields (named : ∀ change ∈ old.changes new, old.Names new change) :
    FirstStands old.responseFields new.responseFields := by
  intro field member other otherMember otherNamed sameType first found
  by_contra different
  have reported : .responseFieldTypeChanged new.path field.name field.fieldType first.fieldType ∈
      new.responseChanges field := by
    rw [responseChanges, found]
    simp [different]
  obtain ⟨-, -, -, gone⟩ := named _ (mem_changes.mpr (.inr (.inl ⟨field, member, reported⟩)))
  exact gone other otherMember otherNamed sameType

theorem agreeRequired_of_names (named : ∀ change ∈ old.changes new, old.Names new change) :
    old.AgreeRequired new := by
  intro field member other otherMember otherNamed otherRequired first found required
  by_contra optional
  have reported : .requiredFieldAdded new.path field.name ∈ new.requestChanges field := by
    rw [requestChanges, found]
    exact List.mem_append_right _ (by simp [required, optional])
  obtain ⟨-, -, without⟩ := named _ (mem_changes.mpr (.inl ⟨field, member, reported⟩))
  exact Bool.false_ne_true ((without other otherMember otherNamed).symm.trans otherRequired)

/-- What is reported of two endpoints are differences just where they can be compared. -/
theorem names_iff : (∀ change ∈ old.changes new, old.Same new ∧ old.Names new change) ↔
    old.Comparable new := by
  constructor
  · intro names
    refine or_iff_not_imp_left.mpr fun unmatched => ?_
    obtain ⟨change, reported⟩ :=
      List.exists_mem_of_ne_nil _ (fun nothing => unmatched (changes_eq_nil_iff.mp nothing))
    have named : ∀ change ∈ old.changes new, old.Names new change :=
      fun change reported => (names change reported).2
    exact ⟨(names change reported).1, firstStands_requestParams named,
      firstStands_responseFields named, agreeRequired_of_names named⟩
  · rintro (matched | ⟨same, params, responses, agree⟩) change reported
    · rw [changes_eq_nil_iff.mpr matched] at reported
      cases reported
    · refine ⟨same, ?_⟩
      rcases mem_changes.mp reported with ⟨field, member, here⟩ | ⟨field, member, here⟩ | here
      · exact names_requestChanges params agree member here
      · exact names_responseChanges responses member here
      · exact names_authenticationChanges here

end EndpointSpec

end Endpoint

/-! ## Specifications -/

section Specification

variable {specs oldSpec newSpec : List EndpointSpec} {key : String} {old new : EndpointSpec}

theorem byKey_append (specs : List EndpointSpec) (spec : EndpointSpec) :
    byKey (specs ++ [spec]) = (byKey specs).insert spec.key spec := by
  rw [byKey, List.foldl_append]
  rfl

theorem lookup_byKey (found : (byKey specs).lookup key = some old) :
    old ∈ specs ∧ old.key = key := by
  induction specs using List.reverseRecOn with
  | nil =>
    rw [byKey, List.foldl_nil, Finmap.lookup_empty] at found
    cases found
  | append_singleton specs spec ih =>
    rw [byKey_append, HashMap.lookup_insert_ite] at found
    split at found
    · next same =>
        cases found
        exact ⟨List.mem_append_right _ List.mem_cons_self, same.symm⟩
    · obtain ⟨member, keyed⟩ := ih found
      exact ⟨List.mem_append_left _ member, keyed⟩

theorem mem_byKey (member : old ∈ specs) : old.key ∈ byKey specs := by
  induction specs using List.reverseRecOn with
  | nil => cases member
  | append_singleton specs spec ih =>
    rw [byKey_append, Finmap.mem_insert]
    rcases List.mem_append.mp member with earlier | last
    · exact .inr (ih earlier)
    · rw [List.mem_singleton.mp last]
      exact .inl rfl

theorem EndpointSpec.Same.sameKey (same : old.Same new) : old.key = new.key := by
  rw [EndpointSpec.key, EndpointSpec.key, same.1, same.2]

namespace CompatibilityChecker

variable {checker : CompatibilityChecker} {iteration : checker.Iteration} {change : BreakingChange}

/-- What is in the report is there because of an endpoint. -/
theorem mem_breakingChanges : change ∈ (checker.check iteration).breakingChanges ↔
    ∃ old new, checker.Concerns change old new := by
  show change ∈ checker.removedEndpoints iteration ++
    checker.modifiedEndpoints iteration EndpointSpec.changes ↔ _
  rw [List.mem_append, removedEndpoints, modifiedEndpoints, List.mem_map, List.mem_flatMap]
  constructor
  · rintro (⟨⟨key, old⟩, member, rfl⟩ | ⟨⟨key, new⟩, member, reported⟩)
    · obtain ⟨listed, gone⟩ := List.mem_filter.mp member
      have found := (iteration.listsOld.2 key old).mp listed
      exact ⟨old, none, .removed found (of_decide_eq_true gone)⟩
    · dsimp only at reported
      split at reported
      · cases reported
      · next old found =>
          have stored := (iteration.listsNew.2 key new).mp member
          exact ⟨old, some new, .modified ⟨found, stored⟩ reported⟩
  · rintro ⟨old, new?, concerns⟩
    cases concerns with
    | removed found gone =>
      refine .inl ⟨(_, old), List.mem_filter.mpr ⟨?_, decide_eq_true gone⟩, rfl⟩
      exact (iteration.listsOld.2 _ old).mpr found
    | modified compared reported =>
      refine .inr ⟨(_, _), (iteration.listsNew.2 _ _).mpr compared.2, ?_⟩
      dsimp only
      rw [compared.1]
      exact reported

/-- When nothing is reported. -/
theorem breakingChanges_eq_nil_iff :
    (checker.check iteration).breakingChanges = [] ↔ Quiet checker := by
  constructor
  · intro nothing
    have unconcerned : ∀ change old new?, ¬ checker.Concerns change old new? := by
      intro change old new? concerns
      have member : change ∈ (checker.check iteration).breakingChanges :=
        mem_breakingChanges.mpr ⟨old, new?, concerns⟩
      rw [nothing] at member
      cases member
    refine ⟨fun key stored => ?_, fun key old new compared => ?_⟩
    · by_contra gone
      obtain ⟨old, found⟩ := Finmap.mem_iff.mp stored
      exact unconcerned _ _ _ (.removed found gone)
    · refine EndpointSpec.changes_eq_nil_iff.mp (List.eq_nil_iff_forall_not_mem.mpr ?_)
      intro change reported
      exact unconcerned _ _ _ (.modified compared reported)
  · intro quiet
    refine List.eq_nil_iff_forall_not_mem.mpr fun change member => ?_
    obtain ⟨old, new?, concerns⟩ := mem_breakingChanges.mp member
    cases concerns with
    | removed found gone => exact gone (quiet.kept _ (HashMap.mem_of_lookup found))
    | modified compared reported =>
      rw [EndpointSpec.changes_eq_nil_iff.mpr (quiet.matched _ _ _ compared)] at reported
      cases reported

end CompatibilityChecker

/-- Where all that is compared matches, the specifications are compatible just when they are
covered. -/
theorem compatible_iff {checker : CompatibilityChecker} (quiet : Quiet checker) :
    Compatible oldSpec newSpec ↔ Covered checker oldSpec newSpec := by
  refine forall₂_congr fun old _ => and_congr_right fun _ => ?_
  refine forall₂_congr fun new _ => forall_congr' fun _ => ?_
  rw [EndpointSpec.preserves_iff]
  refine ⟨.inr, ?_⟩
  rintro (⟨compared, noMore⟩ | carries)
  · exact EndpointSpec.carries_of_matches (quiet.matched _ _ _ compared) noMore
  · exact carries

/-- The changes that are reported are differences just where all endpoints that are compared can
be compared. -/
theorem truthful_iff (iteration : (CompatibilityChecker.new oldSpec newSpec).Iteration) :
    Truthful (.new oldSpec newSpec) newSpec
        ((CompatibilityChecker.new oldSpec newSpec).check iteration) ↔
      ∀ key old new, (CompatibilityChecker.new oldSpec newSpec).Compared key old new →
        old.Comparable new := by
  constructor
  · intro truthful key old new compared
    refine EndpointSpec.names_iff.mp fun change reported => ?_
    have concerns : (CompatibilityChecker.new oldSpec newSpec).Concerns change old (some new) :=
      .modified compared reported
    exact (truthful change (CompatibilityChecker.mem_breakingChanges.mpr ⟨_, _, concerns⟩)).2 _ _
      concerns
  · intro comparable change member
    refine ⟨CompatibilityChecker.mem_breakingChanges.mp member, ?_⟩
    intro old new? concerns
    cases concerns with
    | removed found gone =>
      intro new stored same
      refine gone ?_
      rw [← (lookup_byKey found).2, same.sameKey]
      exact mem_byKey stored
    | modified compared reported =>
      exact EndpointSpec.names_iff.mpr (comparable _ _ _ compared) change reported

/-- A report without changes stands for compatible specifications just where they are covered, and
the changes of a report are differences just where the endpoints can be compared. -/
theorem report_sound_iff (oldSpec newSpec : List EndpointSpec)
    (iteration : (CompatibilityChecker.new oldSpec newSpec).Iteration) :
    ((((CompatibilityChecker.new oldSpec newSpec).check iteration).breakingChanges = [] →
        Compatible oldSpec newSpec) ↔
      (Quiet (.new oldSpec newSpec) → Covered (.new oldSpec newSpec) oldSpec newSpec)) ∧
    (Truthful (.new oldSpec newSpec) newSpec
        ((CompatibilityChecker.new oldSpec newSpec).check iteration) ↔
      ∀ key old new, (CompatibilityChecker.new oldSpec newSpec).Compared key old new →
        old.Comparable new) := by
  refine ⟨?_, truthful_iff iteration⟩
  rw [CompatibilityChecker.breakingChanges_eq_nil_iff]
  exact forall_congr' compatible_iff

theorem lists_byKey_singleton (spec : EndpointSpec) :
    (byKey [spec]).Lists [(spec.key, spec)] :=
  HashMap.lists_empty.insert Finmap.notMem_empty spec

end Specification

def usersEndpoint (requestParams : List FieldSpec) : EndpointSpec :=
  ⟨"/users", "GET", requestParams, [], false, []⟩

/-- The endpoint gets a parameter it requires, and nothing is reported. -/
theorem report_not_sound :
    ¬ ∀ iteration : (CompatibilityChecker.new [usersEndpoint []]
        [usersEndpoint [⟨"token", "string", true, none⟩]]).Iteration,
      ((CompatibilityChecker.new [usersEndpoint []]
        [usersEndpoint [⟨"token", "string", true, none⟩]]).check iteration).breakingChanges = [] →
      Compatible [usersEndpoint []] [usersEndpoint [⟨"token", "string", true, none⟩]] := by
  intro sound
  have compatible := sound
    ⟨_, _, lists_byKey_singleton (usersEndpoint []), lists_byKey_singleton (usersEndpoint _)⟩ rfl
  have preserves := (compatible _ List.mem_cons_self).2 _ List.mem_cons_self ⟨rfl, rfl⟩
  have accepted : (usersEndpoint []).Accepts ⟨fun _ => none, false⟩ := by
    refine ⟨fun field member => ?_, fun needed => needed⟩
    cases member
  have given := (preserves.requests _ accepted).params ⟨"token", "string", true, none⟩
    List.mem_cons_self rfl
  cases given

end UHorse.Gateway
