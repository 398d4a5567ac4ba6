import UHorse.Agent.SessionKey
import UHorse.Lib.HashMap
import UHorse.Lib.Holes
import UHorse.Lib.Text
import UHorse.Protocol.Types

/-!
# Templates of payloads

A template is rendered by replacing the placeholder of one variable after the other in the whole
text, the given variables before the defaults and each map in an order that is not specified. The
names of its variables are read from it by another function, which trims them.

`serde_json::to_string` is a parameter.
-/

namespace UHorse.Webhook

open UHorse.Lib UHorse.Lib.Holes UHorse.Protocol

inductive VariableType
  | string
  | number
  | boolean
  | object
  | array
deriving DecidableEq

/-- `Debug`. -/
def VariableType.debug : VariableType → String
  | .string => "String"
  | .number => "Number"
  | .boolean => "Boolean"
  | .object => "Object"
  | .array => "Array"

structure VariableDefinition where
  varType : VariableType
  required : Bool
  default : Option Json

structure WebhookTemplate where
  name : String
  content : String
  /-- The field `variables`. -/
  definitions : HashMap String VariableDefinition

inductive WebhookError
  | templateError (message : String)
deriving DecidableEq

structure TemplateEngine where
  leftDelimiter : String
  rightDelimiter : String

abbrev Variables := HashMap String Json

/-- The orders in which the two maps are iterated. -/
structure TemplateIteration (template : WebhookTemplate) (given : Variables) where
  values : List (String × Json)
  defined : List (String × VariableDefinition)
  listsValues : given.Lists values
  listsDefined : template.definitions.Lists defined

/-- `str::replace`. -/
def replaceText (text pattern value : String) : String :=
  .ofList (replace pattern.toList value.toList text.toList)

namespace TemplateEngine

def new : TemplateEngine := ⟨"\x7b\x7b", "\x7d\x7d"⟩

def checkType (value : Json) (expected : VariableType) : Bool :=
  match expected, value with
  | .string, .string _ => true
  | .number, .number _ => true
  | .boolean, .bool _ => true
  | .object, .object _ => true
  | .array, .array _ => true
  | _, _ => false

/-- What is wrong with a variable. -/
def variableError (given : Variables) (key : String) (definition : VariableDefinition) :
    Option WebhookError :=
  if definition.required ∧ key ∉ given ∧ definition.default = none then
    some (.templateError ("Missing required variable: " ++ key))
  else
    match given.lookup key with
    | none => none
    | some value =>
      if checkType value definition.varType then none
      else some (.templateError ("Type mismatch for variable '" ++ key ++ "': expected " ++
        definition.varType.debug))

def validateVariables (given : Variables) (defined : List (String × VariableDefinition)) :
    Except WebhookError Unit :=
  match defined.findSome? fun entry => variableError given entry.1 entry.2 with
  | some error => .error error
  | none => .ok ()

variable (engine : TemplateEngine) (toJson : Json → Option String)

def placeholder (key : String) : String := engine.leftDelimiter ++ key ++ engine.rightDelimiter

def valueToString : Json → String
  | .string s => s
  | .number n => n
  | .bool b => if b then "true" else "false"
  | .object fields => (toJson (.object fields)).getD ""
  | .array items => (toJson (.array items)).getD ""
  | .null => ""

def replaceValues (result : String) (values : List (String × Json)) : String :=
  values.foldl (fun result entry =>
    replaceText result (engine.placeholder entry.1) (valueToString toJson entry.2)) result

def replaceDefaults (given : Variables) (result : String)
    (defined : List (String × VariableDefinition)) : String :=
  defined.foldl (fun result entry =>
    if entry.1 ∈ given then result
    else
      match entry.2.default with
      | none => result
      | some value =>
        replaceText result (engine.placeholder entry.1) (valueToString toJson value)) result

def render (template : WebhookTemplate) (given : Variables)
    (iteration : TemplateIteration template given) : Except WebhookError String :=
  match validateVariables given iteration.defined with
  | .error error => .error error
  | .ok () => .ok (engine.replaceDefaults toJson given
      (engine.replaceValues toJson template.content iteration.values) iteration.defined)

/-- `none` is a loop that has not ended. -/
def extractFuel : Nat → List Char → List String → Option (List String)
  | 0, _, _ => none
  | fuel + 1, text, names =>
    match Text.splitOnce engine.leftDelimiter.toList text with
    | none => some names
    | some (_, afterLeft) =>
      match Text.splitOnce engine.rightDelimiter.toList afterLeft with
      | none => some names
      | some (raw, rest) =>
        let varName := String.ofList (Text.trim Agent.isWhitespace raw)
        extractFuel fuel rest
          (if varName ≠ "" ∧ varName ∉ names then names ++ [varName] else names)

/-- The text gets shorter in each turn of the loop unless both delimiters are empty. -/
def extractVariables (template : String) : Option (List String) :=
  engine.extractFuel (template.toList.length + 1) template.toList []

/-! ## Substitution at once -/

variable (template : WebhookTemplate) (given : Variables)

def mark (name : String) : List Char := (engine.placeholder name).toList

def HasDefault (name : String) : Prop :=
  name ∉ given ∧ ((template.definitions.lookup name).bind VariableDefinition.default).isSome

/-- The value of a variable or its default. -/
def valueOf (name : String) : Option Json :=
  (given.lookup name).or ((template.definitions.lookup name).bind VariableDefinition.default)

def valueText (name : String) : List Char :=
  ((valueOf template given name).map fun value => (valueToString toJson value).toList).getD []

/-- A text with a hole for each placeholder of a variable that has a value; the placeholders do not
overlap. -/
structure Reading (pieces : List (Piece String Char)) : Prop where
  written : fill engine.mark pieces = template.content.toList
  known : ∀ name, .hole name ∈ pieces → (valueOf template given name).isSome
  only : ∀ name, (valueOf template given name).isSome → OccursInHoles engine.mark name pieces

/-- The variables that may be replaced before another. -/
def Before (filled : Finset String) (name : String) : Prop :=
  name ∉ filled ∧
    ((name ∈ given ∧ ∀ other ∈ filled, other ∈ given) ∨
      (HasDefault template given name ∧ (∀ other ∈ given, other ∈ filled) ∧
        ∀ other ∈ filled, other ∈ given ∨ HasDefault template given other))

/-- Where the names stand that are read from a text. -/
def delimitedFuel : Nat → List Char → List (Nat × List Char)
  | 0, _ => []
  | fuel + 1, text =>
    match Text.splitOnce engine.leftDelimiter.toList text with
    | none => []
    | some (skipped, afterLeft) =>
      match Text.splitOnce engine.rightDelimiter.toList afterLeft with
      | none => []
      | some (raw, rest) =>
        (skipped.length, raw) :: (delimitedFuel fuel rest).map fun found =>
          (skipped.length + (engine.leftDelimiter.toList ++ (raw ++
            engine.rightDelimiter.toList)).length + found.1, found.2)

def delimited (text : List Char) : List (Nat × List Char) :=
  engine.delimitedFuel (text.length + 1) text

def trimmed (raw : List Char) : String := .ofList (Text.trim Agent.isWhitespace raw)

/-- The entries whose default is placed. -/
def placesDefault (entry : String × VariableDefinition) : Bool :=
  entry.1 ∉ given && entry.2.default.isSome

variable {template given} in
/-- The names in the order in which their placeholders are replaced. -/
def order (iteration : TemplateIteration template given) : List String :=
  iteration.values.map Prod.fst ++
    (iteration.defined.filter (placesDefault given)).map Prod.fst

/-- In every order, each step replaces holes of the template and nothing else, and what is rendered
is the text with all holes filled; a name that is read from the text has a hole wherever it is
read, if it has a value. -/
structure Simultaneous (pieces : List (Piece String Char)) : Prop
    extends Reading engine template given pieces where
  fills : ∀ iteration text, engine.render toJson template given iteration = .ok text →
    ∀ front name back, order iteration = front ++ name :: back →
      ∀ place ∈ foundFrom (engine.mark name) 0
          (replaceAll engine.mark (valueText toJson template given) front template.content.toList),
        (place, name) ∈ places
          (partly engine.mark (valueText toJson template given) front.toFinset) pieces
  rendered : ∀ iteration text, engine.render toJson template given iteration = .ok text →
    text.toList = fill (valueText toJson template given) pieces
  agreed : ∀ first second, (engine.render toJson template given first).isOk =
    (engine.render toJson template given second).isOk
  extracted : ∃ names, engine.extractVariables template.content = some names ∧
    ∀ name ∈ names, (valueOf template given name).isSome → .hole name ∈ pieces ∧
      ∀ found ∈ engine.delimited template.content.toList, trimmed found.2 = name →
        (found.1, name) ∈ places engine.mark pieces

/-- Nothing is wrong with the variables. -/
def Accepted : Prop :=
  ∀ key definition, template.definitions.lookup key = some definition →
    variableError given key definition = none

/-- Whatever is replaced before a variable, its placeholder is found where the template has it and
nowhere else. -/
structure Unmixed (pieces : List (Piece String Char)) : Prop
    extends Reading engine template given pieces where
  nonempty : ∀ name, (valueOf template given name).isSome → engine.mark name ≠ []
  kept : Accepted template given → ∀ filled name, Before template given filled name →
    FoundInHoles (partly engine.mark (valueText toJson template given) filled) name pieces

/-- Besides, names with a value are written without blanks around them, and the names can be
read. -/
structure Undisturbed (pieces : List (Piece String Char)) : Prop
    extends Unmixed engine toJson template given pieces where
  delimits : engine.leftDelimiter ≠ "" ∨ engine.rightDelimiter ≠ ""
  solid : ∀ found ∈ engine.delimited template.content.toList, trimmed found.2 ≠ "" →
    (valueOf template given (trimmed found.2)).isSome → (trimmed found.2).toList = found.2

/-! ## Rendering -/

section Rendering

variable {engine toJson template given} {pieces : List (Piece String Char)}

theorem toList_replaceText (text pattern value : String) :
    (replaceText text pattern value).toList = replace pattern.toList value.toList text.toList :=
  String.toList_ofList

theorem toList_replaceValues {values : List (String × Json)}
    (valued : ∀ entry ∈ values, valueOf template given entry.1 = some entry.2) (result : String) :
    (engine.replaceValues toJson result values).toList =
      replaceAll engine.mark (valueText toJson template given) (values.map Prod.fst)
        result.toList := by
  induction values generalizing result with
  | nil => rfl
  | cons entry values ih =>
    have first : valueText toJson template given entry.1 =
        (valueToString toJson entry.2).toList := by
      rw [valueText, valued entry List.mem_cons_self]
      rfl
    have later := ih (fun other member => valued other (List.mem_cons_of_mem _ member))
      (replaceText result (engine.placeholder entry.1) (valueToString toJson entry.2))
    rw [toList_replaceText, ← first] at later
    exact later

theorem toList_replaceDefaults {defined : List (String × VariableDefinition)}
    (valued : ∀ entry ∈ defined, template.definitions.lookup entry.1 = some entry.2)
    (result : String) :
    (engine.replaceDefaults toJson given result defined).toList =
      replaceAll engine.mark (valueText toJson template given)
        ((defined.filter (placesDefault given)).map Prod.fst) result.toList := by
  induction defined generalizing result with
  | nil => rfl
  | cons entry defined ih =>
    have later := ih fun other member => valued other (List.mem_cons_of_mem _ member)
    have here := valued entry List.mem_cons_self
    rw [replaceDefaults, List.foldl_cons, ← replaceDefaults]
    by_cases inside : entry.1 ∈ given
    · have unplaced : ¬ placesDefault given entry = true := by simp [placesDefault, inside]
      rw [if_pos inside, List.filter_cons_of_neg unplaced]
      exact later result
    · rw [if_neg inside]
      cases default : entry.2.default with
      | none =>
        have unplaced : ¬ placesDefault given entry = true := by
          simp [placesDefault, default]
        rw [List.filter_cons_of_neg unplaced]
        exact later result
      | some value =>
        have placed : placesDefault given entry = true := by
          simp [placesDefault, inside, default]
        have text : valueText toJson template given entry.1 =
            (valueToString toJson value).toList := by
          rw [valueText, valueOf, Finmap.lookup_eq_none.mpr inside, here, Option.none_or,
            Option.bind_some, default]
          rfl
        rw [List.filter_cons_of_pos placed, later, toList_replaceText, ← text]
        rfl

variable {name : String}

theorem isSome_valueOf :
    (valueOf template given name).isSome ↔ name ∈ given ∨ HasDefault template given name := by
  rw [valueOf, HasDefault, Option.isSome_or, Bool.or_eq_true, Finmap.lookup_isSome]
  by_cases inside : name ∈ given <;> simp [inside]

variable {iteration : TemplateIteration template given}

theorem hasDefault_iff :
    HasDefault template given name ↔ ∃ definition,
      template.definitions.lookup name = some definition ∧
        placesDefault given (name, definition) = true := by
  rw [HasDefault]
  cases found : template.definitions.lookup name with
  | none => simp
  | some definition => simp [placesDefault]

theorem mem_defaultNames :
    name ∈ (iteration.defined.filter (placesDefault given)).map Prod.fst ↔
      HasDefault template given name := by
  rw [List.mem_map, hasDefault_iff]
  constructor
  · rintro ⟨⟨_, definition⟩, member, rfl⟩
    obtain ⟨listed, placed⟩ := List.mem_filter.mp member
    exact ⟨definition, (iteration.listsDefined.2 _ _).mp listed, placed⟩
  · rintro ⟨definition, found, placed⟩
    have listed := (iteration.listsDefined.2 name definition).mpr found
    exact ⟨(name, definition), List.mem_filter.mpr ⟨listed, placed⟩, rfl⟩

theorem mem_valueNames : name ∈ iteration.values.map Prod.fst ↔ name ∈ given :=
  iteration.listsValues.mem_keys name

theorem mem_order : name ∈ order iteration ↔ (valueOf template given name).isSome := by
  rw [order, List.mem_append, mem_valueNames, mem_defaultNames, isSome_valueOf]

theorem nodup_order : (order iteration).Nodup := by
  refine List.nodup_append'.mpr ⟨iteration.listsValues.1,
    iteration.listsDefined.1.sublist ((List.filter_sublist).map Prod.fst), ?_⟩
  intro name inside default
  exact (mem_defaultNames.mp default).1 (mem_valueNames.mp inside)

/-- What is replaced before a name in an order may be replaced before it. -/
theorem before_of_split {front : List String} {back : List String}
    (split : order iteration = front ++ name :: back) :
    Before template given front.toFinset name := by
  have fresh : name ∉ front.toFinset := by
    intro member
    have nodup : (order iteration).Nodup := nodup_order
    rw [split] at nodup
    exact List.disjoint_of_nodup_append nodup (List.mem_toFinset.mp member) List.mem_cons_self
  have behind : ∀ middle, front = iteration.values.map Prod.fst ++ middle →
      (iteration.defined.filter (placesDefault given)).map Prod.fst = middle ++ name :: back →
        Before template given front.toFinset name := by
    rintro middle rfl defaults
    have listed : ∀ other ∈ middle ++ name :: back, HasDefault template given other := by
      intro other member
      rw [← defaults] at member
      exact mem_defaultNames.mp member
    refine ⟨fresh, .inr ⟨listed name (by simp), fun other inside => ?_, fun other member => ?_⟩⟩
    · exact List.mem_toFinset.mpr (List.mem_append_left _ (mem_valueNames.mpr inside))
    · obtain inside | later := List.mem_append.mp (List.mem_toFinset.mp member)
      · exact .inl (mem_valueNames.mp inside)
      · exact .inr (listed other (List.mem_append_left _ later))
  obtain ⟨middle, whole, defaults⟩ | ⟨middle, values, rest⟩ := List.append_eq_append_iff.mp split
  · exact behind middle whole defaults
  · cases middle with
    | nil => exact behind [] (by simpa using values.symm) rest.symm
    | cons other middle =>
      obtain ⟨rfl, -⟩ := List.cons.inj rest
      have listed : ∀ other ∈ front ++ name :: middle, other ∈ given := by
        intro other member
        rw [← values] at member
        exact mem_valueNames.mp member
      refine ⟨fresh, .inl ⟨listed name (by simp), fun other member => ?_⟩⟩
      exact listed other (List.mem_append_left _ (List.mem_toFinset.mp member))

/-- Whatever may be replaced before a name is replaced before it in some order. -/
theorem exists_split_of_before {filled : Finset String} {name : String}
    (before : Before template given filled name) :
    ∃ (iteration : TemplateIteration template given) (front back : List String),
      order iteration = front ++ name :: back ∧ front.toFinset = filled := by
  obtain ⟨fresh, ⟨inside, others⟩ | ⟨default, all, others⟩⟩ := before
  · obtain ⟨value, found⟩ := Finmap.mem_iff.mp inside
    obtain ⟨front, back, listed, first⟩ := given.exists_lists_behind filled found fresh
    obtain ⟨defined, listsDefined⟩ := template.definitions.exists_lists
    refine ⟨⟨_, defined, listed, listsDefined⟩, front.map Prod.fst,
      back.map Prod.fst ++ (defined.filter (placesDefault given)).map Prod.fst, ?_, ?_⟩
    · simp [order]
    · ext other
      rw [List.mem_toFinset, List.mem_map]
      constructor
      · rintro ⟨entry, member, rfl⟩
        exact ((first entry).mp member).2
      · intro member
        obtain ⟨value, found⟩ := Finmap.mem_iff.mp (others other member)
        exact ⟨(other, value), (first _).mpr ⟨found, member⟩, rfl⟩
  · obtain ⟨definition, found, placed⟩ := hasDefault_iff.mp default
    obtain ⟨front, back, listed, first⟩ :=
      template.definitions.exists_lists_behind filled found fresh
    obtain ⟨values, listsValues⟩ := given.exists_lists
    refine ⟨⟨values, _, listsValues, listed⟩,
      values.map Prod.fst ++ (front.filter (placesDefault given)).map Prod.fst,
      (back.filter (placesDefault given)).map Prod.fst, ?_, ?_⟩
    · simp [order, placed]
    · ext other
      rw [List.mem_toFinset, List.mem_append, listsValues.mem_keys, List.mem_map]
      constructor
      · rintro (inside | ⟨entry, member, rfl⟩)
        · exact all other inside
        · exact ((first entry).mp (List.mem_filter.mp member).1).2
      · intro member
        refine (others other member).imp_right fun default => ?_
        obtain ⟨definition, found, placed⟩ := hasDefault_iff.mp default
        have early := (first (other, definition)).mpr ⟨found, member⟩
        exact ⟨(other, definition), List.mem_filter.mpr ⟨early, placed⟩, rfl⟩

/-- The placeholders are not empty. -/
theorem mark_ne_nil (delimits : engine.leftDelimiter ≠ "" ∨ engine.rightDelimiter ≠ "")
    (name : String) : engine.mark name ≠ [] := by
  rw [mark, placeholder, String.toList_append, String.toList_append]
  obtain left | right := delimits <;> simp_all

theorem toList_replaced :
    (engine.replaceDefaults toJson given (engine.replaceValues toJson template.content
      iteration.values) iteration.defined).toList =
        replaceAll engine.mark (valueText toJson template given) (order iteration)
          template.content.toList := by
  have valued : ∀ entry ∈ iteration.values, valueOf template given entry.1 = some entry.2 := by
    intro entry member
    rw [valueOf, (iteration.listsValues.2 _ _).mp member, Option.some_or]
  have defined : ∀ entry ∈ iteration.defined,
      template.definitions.lookup entry.1 = some entry.2 :=
    fun entry member => (iteration.listsDefined.2 _ _).mp member
  rw [toList_replaceDefaults defined, toList_replaceValues valued, order, replaceAll_append]

section Steps

variable (unmixed : engine.Unmixed toJson template given pieces)
  (accepted : Accepted template given)
include unmixed accepted

theorem Unmixed.found {front : List String} {name : String} {back : List String}
    (split : order iteration = front ++ name :: back) :
    FoundInHoles (partly engine.mark (valueText toJson template given) front.toFinset) name
      pieces :=
  unmixed.kept accepted _ name (before_of_split split)

/-- Some first steps fill some holes. -/
theorem Unmixed.filled {front back : List String} (split : order iteration = front ++ back) :
    replaceAll engine.mark (valueText toJson template given) front template.content.toList =
      fill (partly engine.mark (valueText toJson template given) front.toFinset) pieces := by
  have nodup : (order iteration).Nodup := nodup_order
  rw [split] at nodup
  rw [← unmixed.written]
  refine replaceAll_fill nodup.of_append_left (fun name member => ?_)
    fun earlier name between inner => ?_
  · have inside : name ∈ order iteration := split ▸ List.mem_append_left _ member
    exact unmixed.nonempty name (mem_order.mp inside)
  · have whole : order iteration = earlier ++ name :: (between ++ back) := by
      rw [split, inner, List.append_assoc]
      rfl
    exact unmixed.found accepted whole

/-- All steps fill all holes. -/
theorem Unmixed.rendered :
    (engine.replaceDefaults toJson given (engine.replaceValues toJson template.content
      iteration.values) iteration.defined).toList =
        fill (valueText toJson template given) pieces := by
  rw [toList_replaced, unmixed.filled accepted (List.append_nil _).symm]
  refine fill_congr fun name member => if_pos (List.mem_toFinset.mpr (mem_order.mpr ?_))
  exact unmixed.known name member

end Steps

end Rendering

/-! ## Reading the names -/

section Extraction

variable {engine} {text rest raw skipped afterLeft : List Char}

theorem eq_of_delimiters (left : Text.splitOnce engine.leftDelimiter.toList text =
      some (skipped, afterLeft))
    (right : Text.splitOnce engine.rightDelimiter.toList afterLeft = some (raw, rest)) :
    text = skipped ++ (engine.leftDelimiter.toList ++ (raw ++ engine.rightDelimiter.toList)) ++
      rest := by
  rw [Text.splitOnce_eq_some left, Text.splitOnce_eq_some right]
  simp only [List.append_assoc]

variable {fuel : Nat} {found : Nat × List Char}

/-- The loop ends unless both delimiters are empty. -/
theorem exists_extractFuel (delimits : engine.leftDelimiter ≠ "" ∨ engine.rightDelimiter ≠ "")
    (enough : text.length < fuel) (names : List String) :
    ∃ found, engine.extractFuel fuel text names = some found := by
  induction fuel generalizing text names with
  | zero => cases enough
  | succ fuel ih =>
    rw [extractFuel]
    cases left : Text.splitOnce engine.leftDelimiter.toList text with
    | none => exact ⟨names, rfl⟩
    | some parts =>
      cases right : Text.splitOnce engine.rightDelimiter.toList parts.2 with
      | none => exact ⟨names, by simp only [right]⟩
      | some inner =>
        have lengths := congrArg List.length (eq_of_delimiters left right)
        simp only [List.length_append, String.length_toList] at lengths
        have positive : 0 < engine.leftDelimiter.length + engine.rightDelimiter.length := by
          obtain some_ | some_ := delimits
          · have := String.length_eq_zero_iff.not.mpr some_
            omega
          · have := String.length_eq_zero_iff.not.mpr some_
            omega
        simp only [right]
        exact ih (by omega) _

/-- The step of the loop that adds a name. -/
theorem mem_pushed {names : List String} {varName name : String} :
    (name ∈ if varName ≠ "" ∧ varName ∉ names then names ++ [varName] else names) ↔
      name ∈ names ∨ name ≠ "" ∧ varName = name := by
  split
  · next fresh =>
      rw [List.mem_append, List.mem_singleton]
      refine or_congr_right ⟨?_, fun same => same.2.symm⟩
      rintro rfl
      exact ⟨fresh.1, rfl⟩
  · next known =>
      refine ⟨.inl, ?_⟩
      rintro (member | ⟨some_, rfl⟩)
      · exact member
      · by_contra fresh
        exact known ⟨some_, fresh⟩

/-- The names are those of the delimited places, trimmed, without the empty one. -/
theorem mem_extractFuel {names found : List String}
    (ended : engine.extractFuel fuel text names = some found) (name : String) :
    name ∈ found ↔ name ∈ names ∨
      name ≠ "" ∧ ∃ place ∈ engine.delimitedFuel fuel text, trimmed place.2 = name := by
  induction fuel generalizing text names with
  | zero => cases ended
  | succ fuel ih =>
    rw [extractFuel] at ended
    rw [delimitedFuel]
    cases left : Text.splitOnce engine.leftDelimiter.toList text with
    | none =>
      rw [left] at ended
      cases ended
      simp
    | some parts =>
      obtain ⟨skipped, afterLeft⟩ := parts
      rw [left] at ended
      dsimp only at ended ⊢
      cases right : Text.splitOnce engine.rightDelimiter.toList afterLeft with
      | none =>
        rw [right] at ended
        cases ended
        simp
      | some inner =>
        obtain ⟨raw, rest⟩ := inner
        rw [right] at ended
        dsimp only at ended ⊢
        rw [ih ended, mem_pushed, or_assoc, ← and_or_left]
        refine or_congr_right (and_congr_right fun _ => ?_)
        rw [List.exists_mem_cons_iff]
        refine or_congr_right ⟨?_, ?_⟩
        · rintro ⟨place, member, same⟩
          exact ⟨_, List.mem_map.mpr ⟨place, member, rfl⟩, same⟩
        · rintro ⟨_, member, same⟩
          obtain ⟨place, inside, rfl⟩ := List.mem_map.mp member
          exact ⟨place, inside, same⟩

theorem exists_of_delimited (member : found ∈ engine.delimitedFuel fuel text) :
    ∃ afterLeft rest, text.drop found.1 = engine.leftDelimiter.toList ++ afterLeft ∧
      Text.splitOnce engine.rightDelimiter.toList afterLeft = some (found.2, rest) := by
  induction fuel generalizing text found with
  | zero => cases member
  | succ fuel ih =>
    rw [delimitedFuel] at member
    cases left : Text.splitOnce engine.leftDelimiter.toList text with
    | none =>
      rw [left] at member
      cases member
    | some parts =>
      obtain ⟨skipped, afterLeft⟩ := parts
      rw [left] at member
      dsimp only at member
      cases right : Text.splitOnce engine.rightDelimiter.toList afterLeft with
      | none =>
        rw [right] at member
        cases member
      | some inner =>
        obtain ⟨raw, rest⟩ := inner
        rw [right] at member
        dsimp only at member
        obtain rfl | later := List.mem_cons.mp member
        · refine ⟨afterLeft, rest, ?_, right⟩
          rw [Text.splitOnce_eq_some left, List.drop_left]
        · obtain ⟨before, inside, rfl⟩ := List.mem_map.mp later
          obtain ⟨after, further, dropped, cut⟩ := ih inside
          refine ⟨after, further, ?_, cut⟩
          rw [← dropped, eq_of_delimiters left right, ← List.length_append, ← List.drop_drop,
            List.drop_left]

/-- Two empty delimiters are found again and again. -/
theorem extractFuel_of_empty (left : engine.leftDelimiter = "") (right : engine.rightDelimiter = "")
    (fuel : Nat) (text : List Char) (names : List String) :
    engine.extractFuel fuel text names = none := by
  have first : ∀ text : List Char, Text.splitOnce [] text = some ([], text) := by
    intro text
    cases text <;> rfl
  induction fuel generalizing text names with
  | zero => rfl
  | succ fuel ih =>
    rw [extractFuel, left, right, String.toList_empty, first]
    dsimp only
    rw [first]
    exact ih _ _

variable {toJson : Json → Option String} {template : WebhookTemplate} {given : Variables}
variable {pieces : List (Piece String Char)}

theorem mark_eq (name : String) : engine.mark name =
    engine.leftDelimiter.toList ++ (name.toList ++ engine.rightDelimiter.toList) := by
  rw [mark, placeholder, String.toList_append, String.toList_append, List.append_assoc]

/-- A name that is read where a variable with a value stands is read at a hole. -/
theorem Undisturbed.mem_places (undisturbed : engine.Undisturbed toJson template given pieces)
    (member : found ∈ engine.delimited template.content.toList) (named : trimmed found.2 ≠ "")
    (valued : (valueOf template given (trimmed found.2)).isSome) :
    (found.1, trimmed found.2) ∈ places engine.mark pieces := by
  obtain ⟨afterLeft, rest, dropped, cut⟩ := exists_of_delimited member
  have occurs : engine.mark (trimmed found.2) <+: template.content.toList.drop found.1 := by
    rw [mark_eq, undisturbed.solid found member named valued, dropped, Text.splitOnce_eq_some cut]
    simp only [← List.append_assoc]
    exact List.prefix_append _ _
  rw [← undisturbed.written] at occurs
  refine undisturbed.only _ valued found.1 ?_ occurs
  have long := occurs.length_le
  have positive := List.length_pos_of_ne_nil (mark_ne_nil undisturbed.delimits (trimmed found.2))
  rw [List.length_drop] at long
  omega

/-- A name that is read at a hole is written as it is read. -/
theorem toList_trimmed (reading : engine.Reading template given pieces)
    (member : found ∈ engine.delimited template.content.toList)
    (inside : (found.1, trimmed found.2) ∈ places engine.mark pieces) :
    (trimmed found.2).toList = found.2 := by
  obtain ⟨afterLeft, rest, dropped, cut⟩ := exists_of_delimited member
  have occurs := isPrefix_of_mem_places inside
  rw [reading.written, dropped, mark_eq, List.prefix_append_right_inj] at occurs
  have shorter : (trimmed found.2).toList.length ≤ found.2.length := by
    rw [trimmed, String.toList_ofList]
    exact Text.length_trim_le _ _
  have ended : engine.rightDelimiter.toList <+: afterLeft.drop (trimmed found.2).toList.length := by
    obtain ⟨more, same⟩ := occurs
    rw [← same, List.append_assoc, List.drop_left]
    exact List.prefix_append _ _
  have longer : ¬ (trimmed found.2).toList.length < found.2.length :=
    fun below => Text.splitOnce_earliest cut _ below ended
  have first : (trimmed found.2).toList <+: afterLeft := (List.prefix_append _ _).trans occurs
  have second : found.2 <+: afterLeft := by
    rw [Text.splitOnce_eq_some cut]
    exact List.prefix_append _ _
  exact (List.prefix_of_prefix_length_le first second shorter).eq_of_length_le
    (Nat.not_lt.mp longer)

end Extraction

/-! ## Checking the variables -/

section Checking

variable {engine : TemplateEngine} {toJson : Json → Option String} {template : WebhookTemplate}
variable {given : Variables}

/-- The variables are accepted when nothing is wrong with any. -/
theorem validateVariables_eq_ok {defined : List (String × VariableDefinition)} :
    validateVariables given defined = .ok () ↔
      ∀ entry ∈ defined, variableError given entry.1 entry.2 = none := by
  rw [validateVariables, ← List.findSome?_eq_none_iff]
  cases defined.findSome? fun entry => variableError given entry.1 entry.2 with
  | none => exact iff_of_true rfl rfl
  | some error => constructor <;> rintro ⟨⟩

/-- In every order of the definitions. -/
theorem validateVariables_iff (iteration : TemplateIteration template given) :
    validateVariables given iteration.defined = .ok () ↔ Accepted template given := by
  rw [validateVariables_eq_ok]
  constructor
  · intro each key definition found
    exact each _ ((iteration.listsDefined.2 _ _).mpr found)
  · intro each entry member
    exact each _ _ ((iteration.listsDefined.2 _ _).mp member)

theorem render_eq_ok {iteration : TemplateIteration template given} {text : String} :
    engine.render toJson template given iteration = .ok text ↔
      validateVariables given iteration.defined = .ok () ∧
        engine.replaceDefaults toJson given (engine.replaceValues toJson template.content
          iteration.values) iteration.defined = text := by
  rw [render]
  cases validateVariables given iteration.defined with
  | error error =>
    refine iff_of_false (by rintro ⟨⟩) ?_
    rintro ⟨accepted, -⟩
    cases accepted
  | ok accepted => simp

theorem isOk_render (iteration : TemplateIteration template given) :
    (engine.render toJson template given iteration).isOk = true ↔ Accepted template given := by
  rw [← validateVariables_iff iteration, render]
  cases validateVariables given iteration.defined with
  | error error => constructor <;> rintro ⟨⟩
  | ok accepted => exact iff_of_true rfl rfl

end Checking

/-! ## Both sides -/

section Equivalence

variable {engine : TemplateEngine} {toJson : Json → Option String} {template : WebhookTemplate}
variable {given : Variables} {pieces : List (Piece String Char)}

theorem Simultaneous.delimits (simultaneous : engine.Simultaneous toJson template given pieces) :
    engine.leftDelimiter ≠ "" ∨ engine.rightDelimiter ≠ "" := by
  by_contra empty
  obtain ⟨left, right⟩ := not_or.mp empty
  obtain ⟨names, ended, -⟩ := simultaneous.extracted
  rw [extractVariables, extractFuel_of_empty (not_not.mp left) (not_not.mp right)] at ended
  cases ended

theorem Simultaneous.solid (simultaneous : engine.Simultaneous toJson template given pieces)
    {found : Nat × List Char} (member : found ∈ engine.delimited template.content.toList)
    (named : trimmed found.2 ≠ "") (valued : (valueOf template given (trimmed found.2)).isSome) :
    (trimmed found.2).toList = found.2 := by
  obtain ⟨names, ended, replaced⟩ := simultaneous.extracted
  have reported := (mem_extractFuel ended _).mpr (.inr ⟨named, found, member, rfl⟩)
  exact toList_trimmed simultaneous.toReading member ((replaced _ reported valued).2 _ member rfl)

theorem Simultaneous.kept (simultaneous : engine.Simultaneous toJson template given pieces)
    (accepted : Accepted template given) {filled : Finset String} {name : String}
    (before : Before template given filled name) :
    FoundInHoles (partly engine.mark (valueText toJson template given) filled) name pieces := by
  obtain ⟨iteration, front, back, split, rfl⟩ := exists_split_of_before before
  have ok := (validateVariables_iff iteration).mpr accepted
  refine foundInHoles_of_steps nodup_order (fun name _ => mark_ne_nil simultaneous.delimits name)
    ?_ split
  rw [simultaneous.written]
  exact simultaneous.fills iteration _ (render_eq_ok.mpr ⟨ok, rfl⟩)

theorem Unmixed.fills (unmixed : engine.Unmixed toJson template given pieces)
    (accepted : Accepted template given) {iteration : TemplateIteration template given}
    {front : List String} {name : String} {back : List String}
    (split : order iteration = front ++ name :: back) {place : Nat}
    (found : place ∈ foundFrom (engine.mark name) 0
      (replaceAll engine.mark (valueText toJson template given) front template.content.toList)) :
    (place, name) ∈ places
      (partly engine.mark (valueText toJson template given) front.toFinset) pieces := by
  have shown : partly engine.mark (valueText toJson template given) front.toFinset name =
      engine.mark name := if_neg (before_of_split split).1
  rw [unmixed.filled accepted split, ← shown] at found
  exact unmixed.found accepted split place found

theorem Undisturbed.extracted (undisturbed : engine.Undisturbed toJson template given pieces) :
    ∃ names, engine.extractVariables template.content = some names ∧
      ∀ name ∈ names, (valueOf template given name).isSome → .hole name ∈ pieces ∧
        ∀ found ∈ engine.delimited template.content.toList, trimmed found.2 = name →
          (found.1, name) ∈ places engine.mark pieces := by
  obtain ⟨names, ended⟩ := exists_extractFuel undisturbed.delimits
    (Nat.lt_succ_self template.content.toList.length) []
  refine ⟨names, ended, fun name member valued => ?_⟩
  obtain before | ⟨named, found, inside, same⟩ := (mem_extractFuel ended name).mp member
  · cases before
  have holes : ∀ found ∈ engine.delimited template.content.toList, trimmed found.2 = name →
      (found.1, name) ∈ places engine.mark pieces := by
    rintro found inside rfl
    exact undisturbed.mem_places inside named valued
  exact ⟨mem_of_mem_places (holes found inside same), holes⟩

end Equivalence

end TemplateEngine

/-- A template is rendered by substitution at once just where no placeholder appears that the
template does not have, and names are written without blanks. -/
theorem render_simultaneous_iff (engine : TemplateEngine) (toJson : Json → Option String)
    (template : WebhookTemplate) (given : Variables) (pieces : List (Piece String Char)) :
    engine.Simultaneous toJson template given pieces ↔
      engine.Undisturbed toJson template given pieces := by
  constructor
  · intro simultaneous
    exact
      { simultaneous.toReading with
        nonempty := fun name _ => TemplateEngine.mark_ne_nil simultaneous.delimits name
        kept := fun accepted _ _ => simultaneous.kept accepted
        delimits := simultaneous.delimits
        solid := fun _ => simultaneous.solid }
  · intro undisturbed
    have accepted : ∀ {iteration text}, engine.render toJson template given iteration = .ok text →
        TemplateEngine.Accepted template given := fun rendered =>
      (TemplateEngine.validateVariables_iff _).mp (TemplateEngine.render_eq_ok.mp rendered).1
    refine { undisturbed.toReading with fills := ?_, rendered := ?_, agreed := ?_, extracted := ?_ }
    · intro iteration text rendered front name back split place found
      exact undisturbed.fills (accepted rendered) split found
    · intro iteration text rendered
      rw [← (TemplateEngine.render_eq_ok.mp rendered).2]
      exact undisturbed.rendered (accepted rendered)
    · intro first second
      rw [Bool.eq_iff_iff, TemplateEngine.isOk_render, TemplateEngine.isOk_render]
    · exact undisturbed.extracted

/-- A placeholder in a value is replaced or not as the variables happen to be ordered, and a
placeholder with blanks in it is read as a name but not replaced. -/
theorem render_not_simultaneous :
    (∀ pieces, ¬ TemplateEngine.new.Simultaneous (fun _ => none)
      ⟨"message", TemplateEngine.new.placeholder "a", ∅⟩
      (((∅ : Variables).insert "a" (.string (TemplateEngine.new.placeholder "b"))).insert "b"
        (.string "x")) pieces) ∧
    (TemplateEngine.new.extractVariables (TemplateEngine.new.placeholder " a ") = some ["a"] ∧
      ∃ iteration, TemplateEngine.new.render (fun _ => none)
        ⟨"message", TemplateEngine.new.placeholder " a ", ∅⟩
        ((∅ : Variables).insert "a" (.string "x")) iteration =
          .ok (TemplateEngine.new.placeholder " a ")) := by
  refine ⟨fun pieces simultaneous => ?_, by decide, ?_⟩
  · have listed : HashMap.Lists (((∅ : Variables).insert "a"
        (.string (TemplateEngine.new.placeholder "b"))).insert "b" (.string "x"))
        [("b", .string "x"), ("a", .string (TemplateEngine.new.placeholder "b"))] :=
      (HashMap.lists_empty.insert Finmap.notMem_empty _).insert (by decide) _
    have early := simultaneous.rendered ⟨_, [], listed, HashMap.lists_empty⟩
      (TemplateEngine.new.placeholder "b")
      (TemplateEngine.render_eq_ok.mpr ⟨rfl, by dsimp only; decide⟩)
    have late := simultaneous.rendered
      ⟨_, [], listed.perm (.swap _ _ _), HashMap.lists_empty⟩ "x"
      (TemplateEngine.render_eq_ok.mpr ⟨rfl, by dsimp only; decide⟩)
    have same : (TemplateEngine.new.placeholder "b").toList = "x".toList := early.trans late.symm
    revert same
    decide
  · exact ⟨⟨[("a", .string "x")], [], HashMap.lists_empty.insert Finmap.notMem_empty _,
      HashMap.lists_empty⟩, TemplateEngine.render_eq_ok.mpr ⟨rfl, by dsimp only; decide⟩⟩

end UHorse.Webhook
