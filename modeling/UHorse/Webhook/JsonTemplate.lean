import UHorse.Lib.JsonHoles
import UHorse.Webhook.Template

/-!
# Templates of JSON

The payload of an event is rendered from a template of JSON in which strings are placed inside
string literals and other values for values. Strings are placed as they are.

`serde_json::to_string` and the text of a time are parameters.
-/

namespace UHorse.Webhook

open UHorse.Lib UHorse.Lib.Holes UHorse.Lib.JsonText UHorse.Protocol

structure WebhookEvent where
  eventType : String
  timestamp : DateTime
  data : Json
  tenantId : String

/-- The variables of `prepare_payload`. -/
def WebhookEvent.templateVariables (toRfc3339 : DateTime → String) (event : WebhookEvent) :
    Variables :=
  ((((∅ : Variables).insert "event_type" (.string event.eventType)).insert "timestamp"
    (.string (toRfc3339 event.timestamp))).insert "data" event.data).insert "tenant_id"
      (.string event.tenantId)

namespace VariableDefinition

def new (varType : VariableType) : VariableDefinition := ⟨varType, false, none⟩

/-- `required`. -/
def isRequired (definition : VariableDefinition) : VariableDefinition :=
  { definition with required := true }

def withDefault (definition : VariableDefinition) (default : Json) : VariableDefinition :=
  { definition with default := some default }

end VariableDefinition

namespace WebhookTemplate

def new (name content : String) : WebhookTemplate := ⟨name, content, ∅⟩

def addVariable (template : WebhookTemplate) (name : String) (definition : VariableDefinition) :
    WebhookTemplate :=
  { template with definitions := template.definitions.insert name definition }

end WebhookTemplate

def eventContent : String :=
  "\x7b\n  \"event_type\": \"\x7b\x7bevent_type\x7d\x7d\",\n" ++
    "  \"timestamp\": \"\x7b\x7btimestamp\x7d\x7d\",\n" ++
    "  \"data\": \x7b\x7bdata\x7d\x7d\n\x7d"

def slackContent : String :=
  "\x7b\n  \"text\": \"\x7b\x7bmessage\x7d\x7d\",\n" ++
    "  \"username\": \"\x7b\x7busername\x7d\x7d\",\n" ++
    "  \"icon_emoji\": \"\x7b\x7bicon\x7d\x7d\",\n" ++
    "  \"channel\": \"\x7b\x7bchannel\x7d\x7d\"\n\x7d"

def eventNotification (now : String) : WebhookTemplate :=
  (((WebhookTemplate.new "Event Notification" eventContent).addVariable
    "event_type" (VariableDefinition.new .string).isRequired).addVariable
    "timestamp" ((VariableDefinition.new .string).withDefault (.string now))).addVariable
    "data" (VariableDefinition.new .object).isRequired

def slackMessage : WebhookTemplate :=
  ((((WebhookTemplate.new "Slack Message" slackContent).addVariable
    "message" (VariableDefinition.new .string).isRequired).addVariable
    "username" ((VariableDefinition.new .string).withDefault (.string "uHorse Bot"))).addVariable
    "icon" ((VariableDefinition.new .string).withDefault (.string ":robot_face:"))).addVariable
    "channel" (VariableDefinition.new .string)

def defaultTemplates (now : String) : List WebhookTemplate := [eventNotification now, slackMessage]

/-! ## Documents -/

section Specification

variable (toJson : Json → Option String) (template : WebhookTemplate) (given : Variables)
variable (pieces : List (Piece String Char))

open TemplateEngine

/-- A variable that is a string. -/
def IsText (name : String) : Prop := ∃ s, valueOf template given name = some (.string s)

/-- A variable with another value. -/
def IsOther (name : String) : Prop :=
  ∃ value, valueOf template given name = some value ∧ ∀ s, value ≠ .string s

/-- A text of JSON with the placeholders of strings inside strings and the others for values. -/
def IsJsonTemplate : Prop :=
  Templated (IsText template given) (IsOther template given) .value pieces

/-- A document of JSON that is the template with texts placed in it: the text of a string decodes to
the string, and the text of another value is a value. -/
structure IsDocument (text : List Char) : Prop where
  filled : text = fill (valueText toJson template given) pieces
  valid : Derives .value text
  strings : ∀ name s, .hole name ∈ pieces → valueOf template given name = some (.string s) →
    Decodes (valueText toJson template given name) s.toList
  values : ∀ name, .hole name ∈ pieces → IsOther template given name →
    Derives .value (valueText toJson template given name)

/-- Whatever is rendered is a document. -/
def Delivers (engine : TemplateEngine) : Prop :=
  ∀ iteration text, engine.render toJson template given iteration = .ok text →
    IsDocument toJson template given pieces text.toList

/-- The characters of the placed strings stand for themselves, and nothing that is placed is
`null`. -/
structure PlainValues : Prop where
  strings : ∀ name s, .hole name ∈ pieces → valueOf template given name = some (.string s) →
    ∀ c ∈ s.toList, StandsForItself c
  values : ∀ name, .hole name ∈ pieces → valueOf template given name ≠ some .null

/-- `serde_json` writes values and numbers as JSON has them. -/
structure WritesJson : Prop where
  writes : ∀ value, ∃ text, toJson value = some text ∧ Derives .value text.toList
  numbers : ∀ name n, valueOf template given name = some (.number n) → IsNumber n.toList

end Specification

section Documents

variable {toJson : Json → Option String} {template : WebhookTemplate} {given : Variables}
variable {pieces : List (Piece String Char)} {name : String}

open TemplateEngine

theorem valueText_of_valueOf {value : Json} (valued : valueOf template given name = some value) :
    valueText toJson template given name = (valueToString toJson value).toList := by
  rw [valueText, valued]
  rfl

theorem not_derives_nil : ¬ Derives .value [] := by
  generalize same : ([] : List Char) = text
  intro derives
  cases derives with
  | literal known =>
    subst same
    revert known
    decide
  | number formed =>
    obtain ⟨sign, whole, fraction, exponent, -, digits, -, -, rfl⟩ := formed
    have empty : whole = [] := by simp_all
    exact digits.1.1 empty
  | string formed =>
    obtain ⟨inner, -, rfl⟩ := formed
    cases same
  | emptyArray _ => cases same
  | array _ => cases same
  | ofObject formed =>
    cases formed with
    | emptyObject _ => cases same
    | object _ => cases same

/-- A value that is no string is written as a value just when it is not `null`. -/
theorem derives_valueText_iff (serde : WritesJson toJson template given)
    (other : IsOther template given name) :
    Derives .value (valueText toJson template given name) ↔
      valueOf template given name ≠ some .null := by
  obtain ⟨value, valued, unlike⟩ := other
  rw [valueText_of_valueOf valued, valued]
  cases value with
  | null => exact iff_of_false not_derives_nil (fun unequal => unequal rfl)
  | bool b =>
    refine iff_of_true (.literal ?_) (by simp)
    rw [valueToString]
    cases b <;> decide
  | number n => exact iff_of_true (.number (serde.numbers name n valued)) (by simp)
  | string s => exact absurd rfl (unlike s)
  | array items =>
    obtain ⟨text, written, derives⟩ := serde.writes (.array items)
    refine iff_of_true ?_ (by simp)
    rw [valueToString, written]
    exact derives
  | object fields =>
    obtain ⟨text, written, derives⟩ := serde.writes (.object fields)
    refine iff_of_true ?_ (by simp)
    rw [valueToString, written]
    exact derives

theorem standsForItself_of_all {text : List Char}
    (all : text.all (fun c => StandsForItself c) = true) : ∀ c ∈ text, StandsForItself c :=
  fun c member => of_decide_eq_true (List.all_eq_true.mp all c member)

theorem inner_of_plain {text : List Char} (plain : ∀ c ∈ text, StandsForItself c) : Inner text :=
  (decodes_self_iff.mpr plain).inner

/-- Plain values make a document of a template. -/
theorem isDocument_fill (serde : WritesJson toJson template given)
    (json : IsJsonTemplate template given pieces) (plain : PlainValues template given pieces) :
    IsDocument toJson template given pieces (fill (valueText toJson template given) pieces) := by
  have strings : ∀ name s, .hole name ∈ pieces →
      valueOf template given name = some (.string s) →
        Decodes (valueText toJson template given name) s.toList := by
    intro name s member valued
    rw [valueText_of_valueOf valued]
    exact decodes_self_iff.mpr (plain.strings name s member valued)
  have values : ∀ name, .hole name ∈ pieces → IsOther template given name →
      Derives .value (valueText toJson template given name) :=
    fun name member other => (derives_valueText_iff serde other).mpr (plain.values name member)
  refine ⟨rfl, json.fill (fun name member text => ?_) values, strings, values⟩
  obtain ⟨s, valued⟩ := text
  exact (strings name s member valued).inner

/-- What is placed in a document is plain. -/
theorem IsDocument.plain (serde : WritesJson toJson template given) {text : List Char}
    (document : IsDocument toJson template given pieces text) :
    PlainValues template given pieces := by
  constructor
  · intro name s member valued
    have decodes := document.strings name s member valued
    rw [valueText_of_valueOf valued] at decodes
    exact decodes_self_iff.mp decodes
  · intro name member null
    have other : IsOther template given name := by
      refine ⟨.null, null, fun s same => ?_⟩
      cases same
    exact (derives_valueText_iff serde other).mp (document.values name member other) null

/-- Accepted variables are rendered. -/
theorem exists_render (engine : TemplateEngine) (toJson : Json → Option String)
    (accepted : Accepted template given) :
    ∃ iteration text, engine.render toJson template given iteration = .ok text := by
  obtain ⟨values, listsValues⟩ := given.exists_lists
  obtain ⟨defined, listsDefined⟩ := template.definitions.exists_lists
  have ok := (validateVariables_iff ⟨values, defined, listsValues, listsDefined⟩).mpr accepted
  exact ⟨_, _, render_eq_ok.mpr ⟨ok, rfl⟩⟩

end Documents

/-! ## The default templates -/

namespace TemplateEngine

variable {template : WebhookTemplate} {given : Variables} {name : String}

variable {definition : VariableDefinition}

theorem variableError_eq_none :
    variableError given name definition = none ↔
      (definition.required = true → name ∈ given ∨ definition.default ≠ none) ∧
      ∀ value, given.lookup name = some value → checkType value definition.varType = true := by
  rw [variableError]
  by_cases missing : definition.required ∧ name ∉ given ∧ definition.default = none
  · rw [if_pos missing]
    refine iff_of_false (by simp) fun fine => ?_
    obtain inside | some_ := fine.1 missing.1
    · exact missing.2.1 inside
    · exact some_ missing.2.2
  · rw [if_neg missing, and_iff_right]
    · cases found : given.lookup name with
      | none => simp
      | some value =>
        by_cases typed : checkType value definition.varType = true <;> simp [typed]
    · intro required
      by_contra neither
      obtain ⟨outside, none_⟩ := not_or.mp neither
      exact missing ⟨required, outside, not_not.mp none_⟩

/-- What an accepted variable can be. -/
theorem Accepted.checkType (accepted : Accepted template given)
    (defined : template.definitions.lookup name = some definition)
    (default : ∀ value ∈ definition.default, checkType value definition.varType = true)
    {value : Json} (valued : valueOf template given name = some value) :
    TemplateEngine.checkType value definition.varType = true := by
  rw [valueOf, defined, Option.bind_some, Option.or_eq_some_iff] at valued
  obtain found | ⟨-, placed⟩ := valued
  · exact (variableError_eq_none.mp (accepted name definition defined)).2 value found
  · exact default value placed

theorem Accepted.isSome_valueOf (accepted : Accepted template given)
    (defined : template.definitions.lookup name = some definition)
    (required : definition.required = true) : (valueOf template given name).isSome := by
  rw [valueOf, defined, Option.bind_some, Option.isSome_or, Bool.or_eq_true, Finmap.lookup_isSome]
  exact ((variableError_eq_none.mp (accepted name definition defined)).1 required).imp_right
    Option.isSome_iff_ne_none.mpr

theorem checkType_string {value : Json} :
    checkType value .string = true ↔ ∃ s, value = .string s := by
  cases value <;> simp [TemplateEngine.checkType]

theorem Accepted.isText (accepted : Accepted template given)
    (defined : template.definitions.lookup name = some definition)
    (typed : definition.varType = .string)
    (default : ∀ value ∈ definition.default, TemplateEngine.checkType value .string = true)
    (valued : (valueOf template given name).isSome) : IsText template given name := by
  obtain ⟨value, found⟩ := Option.isSome_iff_exists.mp valued
  have checked := accepted.checkType defined (typed ▸ default) found
  rw [typed, checkType_string] at checked
  obtain ⟨s, rfl⟩ := checked
  exact ⟨s, found⟩

end TemplateEngine

section Defaults

open TemplateEngine

variable (template : WebhookTemplate) (given : Variables)

/-- The placeholder of a variable, or a hole if the variable has a value. -/
def placed (name : String) : List (Piece String Char) :=
  if (valueOf template given name).isSome then [.hole name]
  else letters (TemplateEngine.new.mark name)

/-- A string with holes behind its key. -/
def textField (key name : String) (back : List Char) : List (Piece String Char) :=
  letters "\n  ".toList ++ (.letter '"' :: letters key.toList ++ [.letter '"']) ++ letters [] ++
    .letter ':' :: (letters [' '] ++ (.letter '"' :: placed template given name ++ [.letter '"']) ++
      letters back)

variable {template given} {key name : String} {back : List Char}

theorem fill_placed (name : String) :
    fill TemplateEngine.new.mark (placed template given name) = TemplateEngine.new.mark name := by
  rw [placed]
  split
  · exact List.append_nil _
  · exact fill_letters _ _

theorem fill_textField (key name : String) (back : List Char) :
    fill TemplateEngine.new.mark (textField template given key name back) =
      "\n  ".toList ++ ('"' :: key.toList ++ ['"']) ++ [] ++ ':' ::
        ([' '] ++ ('"' :: TemplateEngine.new.mark name ++ ['"']) ++ back) := by
  simp only [textField, fill_append, fill_letters, fill, fill_placed]

theorem holedInner_letters {inside : String → Prop} {text : List Char} (formed : Inner text) :
    HoledInner inside (letters text) := by
  have inner : HoledInner inside (letters text ++ []) := .letters formed .nil
  rwa [List.append_nil] at inner

theorem templated_textField
    (keyPlain : ∀ c ∈ key.toList, StandsForItself c)
    (plain : ∀ c ∈ TemplateEngine.new.mark name, StandsForItself c) (blank : Space back)
    (text : (valueOf template given name).isSome → IsText template given name) :
    Templated (IsText template given) (IsOther template given) .field
      (textField template given key name back) := by
  have value : HoledInner (IsText template given) (placed template given name) := by
    rw [placed]
    split
    · next some_ => exact .hole (text some_) .nil
    · exact holedInner_letters (inner_of_plain plain)
  refine .field (by decide) ⟨_, holedInner_letters (inner_of_plain keyPlain), rfl⟩ (by decide)
    (.item (by decide) (.string ⟨_, value, rfl⟩) blank)

def eventPieces (now : String) (given : Variables) : List (Piece String Char) :=
  .letter '{' :: (textField (eventNotification now) given "event_type" "event_type" [] ++
    .letter ',' :: (textField (eventNotification now) given "timestamp" "timestamp" [] ++
      .letter ',' :: (letters "\n  ".toList ++ (.letter '"' :: letters "data".toList ++
        [.letter '"']) ++ letters [] ++ .letter ':' :: (letters [' '] ++ [.hole "data"] ++
          letters ['\n'])))) ++ [.letter '}']

def slackPieces (given : Variables) : List (Piece String Char) :=
  .letter '{' :: (textField slackMessage given "text" "message" [] ++
    .letter ',' :: (textField slackMessage given "username" "username" [] ++
      .letter ',' :: (textField slackMessage given "icon_emoji" "icon" [] ++
        .letter ',' :: textField slackMessage given "channel" "channel" ['\n']))) ++ [.letter '}']

theorem fill_eventPieces (now : String) (given : Variables) :
    fill TemplateEngine.new.mark (eventPieces now given) =
      (eventNotification now).content.toList := by
  rw [eventPieces, fill_between]
  simp only [fill_append, fill_textField, fill, fill_letters]
  show _ = eventContent.toList
  decide

theorem fill_slackPieces (given : Variables) :
    fill TemplateEngine.new.mark (slackPieces given) = slackMessage.content.toList := by
  rw [slackPieces, fill_between]
  simp only [fill_append, fill_textField, fill]
  decide

/-- A field of a template with a definition of a text. -/
theorem templated_definedField (accepted : Accepted template given)
    {definition : VariableDefinition}
    (defined : template.definitions.lookup name = some definition)
    (typed : definition.varType = .string)
    (default : ∀ value ∈ definition.default, checkType value .string = true)
    (keyPlain : key.toList.all (fun c => StandsForItself c) = true)
    (plain : (TemplateEngine.new.mark name).all (fun c => StandsForItself c) = true)
    (blank : Space back) :
    Templated (IsText template given) (IsOther template given) .field
      (textField template given key name back) :=
  templated_textField (standsForItself_of_all keyPlain) (standsForItself_of_all plain) blank
    (accepted.isText defined typed default)

theorem isJsonTemplate_event {now : String}
    (accepted : Accepted (eventNotification now) given) :
    IsJsonTemplate (eventNotification now) given (eventPieces now given) := by
  have data : IsOther (eventNotification now) given "data" := by
    have defined : (eventNotification now).definitions.lookup "data" =
        some (VariableDefinition.new .object).isRequired := rfl
    obtain ⟨value, valued⟩ := Option.isSome_iff_exists.mp (accepted.isSome_valueOf defined rfl)
    have checked := accepted.checkType defined (by rintro _ ⟨⟩) valued
    refine ⟨value, valued, ?_⟩
    rintro s rfl
    cases checked
  refine .ofObject (.object (.moreFields ?_ (.moreFields ?_ (.lastField ?_))))
  · have defined : (eventNotification now).definitions.lookup "event_type" =
        some (VariableDefinition.new .string).isRequired := rfl
    exact templated_definedField accepted defined rfl (by rintro _ ⟨⟩) (by decide) (by decide)
      (by decide)
  · have defined : (eventNotification now).definitions.lookup "timestamp" =
        some ((VariableDefinition.new .string).withDefault (.string now)) := rfl
    refine templated_definedField accepted defined rfl ?_ (by decide) (by decide) (by decide)
    rintro _ ⟨⟩
    rfl
  · exact .field (by decide) ⟨_, holedInner_letters
      (inner_of_plain (standsForItself_of_all (by decide))), rfl⟩ (by decide)
      (.item (by decide) (.hole data) (by decide))

theorem isJsonTemplate_slack (accepted : Accepted slackMessage given) :
    IsJsonTemplate slackMessage given (slackPieces given) := by
  refine .ofObject (.object (.moreFields ?_ (.moreFields ?_ (.moreFields ?_ (.lastField ?_)))))
  · have defined : slackMessage.definitions.lookup "message" =
        some (VariableDefinition.new .string).isRequired := rfl
    exact templated_definedField accepted defined rfl (by rintro _ ⟨⟩) (by decide) (by decide)
      (by decide)
  · have defined : slackMessage.definitions.lookup "username" =
        some ((VariableDefinition.new .string).withDefault (.string "uHorse Bot")) := rfl
    refine templated_definedField accepted defined rfl ?_ (by decide) (by decide) (by decide)
    rintro _ ⟨⟩
    rfl
  · have defined : slackMessage.definitions.lookup "icon" =
        some ((VariableDefinition.new .string).withDefault (.string ":robot_face:")) := rfl
    refine templated_definedField accepted defined rfl ?_ (by decide) (by decide) (by decide)
    rintro _ ⟨⟩
    rfl
  · have defined : slackMessage.definitions.lookup "channel" =
        some (VariableDefinition.new .string) := rfl
    exact templated_definedField accepted defined rfl (by rintro _ ⟨⟩) (by decide) (by decide)
      (by decide)

end Defaults

/-- The default templates are templates of JSON, and a template of JSON delivers documents just when
the values that are placed in it are plain, provided that no placeholder appears while it is
rendered. -/
theorem delivers_json (toJson : Json → Option String) (now : String) :
    (∀ template ∈ defaultTemplates now, ∀ given, TemplateEngine.Accepted template given →
      ∃ pieces, fill TemplateEngine.new.mark pieces = template.content.toList ∧
        IsJsonTemplate template given pieces) ∧
    ∀ engine template given pieces, WritesJson toJson template given →
      IsJsonTemplate template given pieces → TemplateEngine.Accepted template given →
        engine.Unmixed toJson template given pieces →
          (Delivers toJson template given pieces engine ↔ PlainValues template given pieces) := by
  constructor
  · intro template member given accepted
    obtain rfl | later := List.mem_cons.mp member
    · exact ⟨_, fill_eventPieces now given, isJsonTemplate_event accepted⟩
    · obtain rfl := List.mem_singleton.mp later
      exact ⟨_, fill_slackPieces given, isJsonTemplate_slack accepted⟩
  · intro engine template given pieces serde json accepted unmixed
    constructor
    · intro delivers
      obtain ⟨iteration, text, rendered⟩ := exists_render engine toJson accepted
      exact (delivers iteration text rendered).plain serde
    · intro plain iteration text rendered
      rw [← (TemplateEngine.render_eq_ok.mp rendered).2, unmixed.rendered accepted]
      exact isDocument_fill serde json plain

/-- A list with a string and a number. -/
theorem delivers_json_list :
    Delivers (fun _ => some "[]")
      ⟨"list", "[\"" ++ TemplateEngine.new.placeholder "name" ++ "\", " ++
        TemplateEngine.new.placeholder "age" ++ "]", ∅⟩
      (((∅ : Variables).insert "name" (.string "Alice")).insert "age" (.number "30"))
      ("[\"".toList.map .letter ++ .hole "name" :: ("\", ".toList.map .letter ++
        [.hole "age", .letter ']'])) TemplateEngine.new := by
  have given_iff : ∀ name, name ∈ ((∅ : Variables).insert "name" (.string "Alice")).insert "age"
      (.number "30") ↔ name = "age" ∨ name = "name" := by
    intro name
    rw [Finmap.mem_insert, Finmap.mem_insert, or_iff_left Finmap.notMem_empty]
  have undefaulted : ∀ content name, ¬ TemplateEngine.HasDefault ⟨"list", content, ∅⟩
      (((∅ : Variables).insert "name" (.string "Alice")).insert "age" (.number "30")) name := by
    rintro content name ⟨-, some_⟩
    cases some_
  have known : ∀ content name, (TemplateEngine.valueOf ⟨"list", content, ∅⟩
      (((∅ : Variables).insert "name" (.string "Alice")).insert "age" (.number "30"))
        name).isSome → name = "age" ∨ name = "name" := by
    intro content name valued
    obtain inside | default := TemplateEngine.isSome_valueOf.mp valued
    · exact (given_iff name).mp inside
    · exact absurd default (undefaulted content name)
  refine ((delivers_json (fun _ => some "[]") "").2 _ _ _ _ ⟨fun value => ?_, ?_⟩ ?_ ?_
    ⟨⟨by decide, ?_, ?_⟩, fun name _ => ?_, fun _ filled name before => ?_⟩).mpr ⟨?_, ?_⟩
  · exact ⟨"[]", rfl, .emptyArray (List.forall_mem_nil _)⟩
  · intro name n valued
    obtain rfl | rfl := known _ name (by rw [valued]; rfl)
    · cases valued
      have digits : Digits ['3', '0'] := ⟨by decide, List.all_eq_true.mp (by decide)⟩
      exact ⟨[], ['3', '0'], [], [], .inl rfl, ⟨digits, by decide⟩, .inl rfl, .inl rfl, rfl⟩
    · cases valued
  · have blank : Space [] := by decide
    have space : Space [' '] := by decide
    refine .array (.moreItems
      (.item blank (.string ⟨_, .hole ⟨"Alice", rfl⟩ .nil, rfl⟩) blank)
      (.lastItem (.item space (.hole ⟨.number "30", rfl, ?_⟩) blank)))
    rintro s ⟨⟩
  · intro key definition found
    rw [Finmap.lookup_empty] at found
    cases found
  · intro name member
    have which : name = "name" ∨ name = "age" := by simpa using member
    obtain rfl | rfl := which <;> decide
  · intro name valued
    obtain rfl | rfl := known _ name valued <;> decide
  · exact TemplateEngine.mark_ne_nil (.inl (by decide)) name
  · obtain ⟨fresh, ⟨inside, others⟩ | ⟨default, -⟩⟩ := before
    · have apart : ∀ other ∈ filled, other ≠ name ∧ (other = "age" ∨ other = "name") := by
        intro other member
        refine ⟨?_, (given_iff other).mp (others other member)⟩
        rintro rfl
        exact fresh member
      obtain rfl | rfl := (given_iff name).mp inside
      · have few : ∀ other ∈ filled, other = "name" :=
          fun other member => (apart other member).2.resolve_left (apart other member).1
        obtain rfl | rfl := Finset.subset_singleton_iff.mp (Finset.subset_singleton_iff'.mpr few)
          <;> decide
      · have few : ∀ other ∈ filled, other = "age" :=
          fun other member => (apart other member).2.resolve_right (apart other member).1
        obtain rfl | rfl := Finset.subset_singleton_iff.mp (Finset.subset_singleton_iff'.mpr few)
          <;> decide
    · exact absurd default (undefaulted _ name)
  · intro name s member valued
    obtain rfl | rfl := known _ name (by rw [valued]; rfl)
    · cases valued
    · cases valued
      exact standsForItself_of_all (by decide)
  · intro name member null
    obtain rfl | rfl := known _ name (by rw [null]; rfl) <;> cases null

/-- Three quotes are no JSON. -/
theorem not_derives_quotes : ¬ Derives .value ['"', '"', '"'] := by
  generalize same : ['"', '"', '"'] = text
  intro derives
  cases derives with
  | literal known =>
    subst same
    revert known
    decide
  | number formed =>
    subst same
    have plain := formed.plain '"' List.mem_cons_self
    revert plain
    decide
  | string formed =>
    obtain ⟨inner, formed, rfl⟩ := formed
    have quote : inner ++ ['"'] = ['"', '"'] := (List.cons.inj same).2.symm
    obtain rfl : inner = ['"'] := List.append_cancel_right quote
    cases formed with
    | plain free _ => exact free.1 rfl
  | emptyArray _ => cases same
  | array _ => cases same
  | ofObject formed =>
    cases formed with
    | emptyObject _ => cases same
    | object _ => cases same

/-- An event whose type is a quote and whose data is `null`. -/
def quoteEvent : WebhookEvent := ⟨"\"", 0, .null, "acme"⟩

theorem exists_iteration_quoteEvent (name content : String) :
    ∃ iteration : TemplateIteration ⟨name, content, ∅⟩
        (quoteEvent.templateVariables fun _ => "1970-01-01T00:00:00+00:00"),
      iteration.values = [("tenant_id", .string "acme"), ("data", .null),
        ("timestamp", .string "1970-01-01T00:00:00+00:00"), ("event_type", .string "\"")] ∧
      iteration.defined = [] := by
  have listed : HashMap.Lists
      (quoteEvent.templateVariables fun _ => "1970-01-01T00:00:00+00:00")
      [("tenant_id", .string "acme"), ("data", .null),
        ("timestamp", .string "1970-01-01T00:00:00+00:00"), ("event_type", .string "\"")] :=
    (((HashMap.lists_empty.insert Finmap.notMem_empty _).insert (by decide) _).insert
      (by decide) _).insert (by decide) _
  exact ⟨⟨_, [], listed, HashMap.lists_empty⟩, rfl, rfl⟩

/-- A quote that is placed ends the string, and `null` is placed as nothing. -/
theorem not_delivers_json :
    (IsJsonTemplate ⟨"text", "\"" ++ TemplateEngine.new.placeholder "event_type" ++ "\"", ∅⟩
        (quoteEvent.templateVariables fun _ => "1970-01-01T00:00:00+00:00")
        [.letter '"', .hole "event_type", .letter '"'] ∧
      (∃ iteration, TemplateEngine.new.render (fun _ => none)
        ⟨"text", "\"" ++ TemplateEngine.new.placeholder "event_type" ++ "\"", ∅⟩
        (quoteEvent.templateVariables fun _ => "1970-01-01T00:00:00+00:00") iteration =
          .ok "\"\"\"") ∧ ¬ Derives .value "\"\"\"".toList) ∧
    IsJsonTemplate ⟨"data", TemplateEngine.new.placeholder "data", ∅⟩
        (quoteEvent.templateVariables fun _ => "1970-01-01T00:00:00+00:00") [.hole "data"] ∧
      (∃ iteration, TemplateEngine.new.render (fun _ => none)
        ⟨"data", TemplateEngine.new.placeholder "data", ∅⟩
        (quoteEvent.templateVariables fun _ => "1970-01-01T00:00:00+00:00") iteration =
          .ok "") ∧ ¬ Derives .value "".toList := by
  refine ⟨⟨?_, ?_, not_derives_quotes⟩, ?_, ?_, not_derives_nil⟩
  · exact .string ⟨[.hole "event_type"], .hole ⟨"\"", by decide⟩ .nil, rfl⟩
  · obtain ⟨iteration, values, defined⟩ := exists_iteration_quoteEvent "text"
      ("\"" ++ TemplateEngine.new.placeholder "event_type" ++ "\"")
    refine ⟨iteration, TemplateEngine.render_eq_ok.mpr ?_⟩
    rw [values, defined]
    exact ⟨rfl, by decide⟩
  · refine .hole ⟨.null, by decide, ?_⟩
    rintro s ⟨⟩
  · obtain ⟨iteration, values, defined⟩ := exists_iteration_quoteEvent "data"
      (TemplateEngine.new.placeholder "data")
    refine ⟨iteration, TemplateEngine.render_eq_ok.mpr ?_⟩
    rw [values, defined]
    exact ⟨rfl, by decide⟩

end UHorse.Webhook
