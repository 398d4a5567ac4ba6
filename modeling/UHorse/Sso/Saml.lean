import UHorse.Agent.SessionKey
import UHorse.Lib.HashMap
import UHorse.Lib.Utf8Slices

/-!
# SAML responses

The fields of an assertion are searched in the text of the document, each on its own. Decoding is a
parameter.
-/

namespace UHorse.Sso

open UHorse.Lib UHorse.Lib.Utf8Slices

def startTag (tag : String) : List Char := ("<" ++ tag ++ ">").toList

def endTag (tag : String) : List Char := ("</" ++ tag ++ ">").toList

def trimmed (text : List Char) : List Char := Text.trim Agent.isWhitespace text

/-- `none` is a panic, here and below. -/
def extractElementContent (xml : List Char) (tag : String) : Option (Option (List Char)) :=
  (between (startTag tag) (endTag tag) xml).map fun content => content.map trimmed

def extractAttribute (xml : List Char) (attr : String) : Option (Option (List Char)) :=
  between (attr ++ "=\"").toList ['"'] xml

structure SamlSubject where
  nameId : List Char
  nameIdFormat : List Char

/-- The fields that are always `None` are left out. -/
structure SamlAssertion where
  id : List Char
  issueInstant : Int
  issuer : List Char
  subject : SamlSubject
  attributes : HashMap String (List (List Char))

structure SamlResponse where
  rawXml : List Char
  assertion : SamlAssertion
  signatureValid : Bool

/-- The attributes between the first start and the first end of an attribute statement. -/
def parseAttributes (xml : List Char) : Option (HashMap String (List (List Char))) :=
  match findText (startTag "saml:AttributeStatement") xml,
      findText (endTag "saml:AttributeStatement") xml with
  | some attrsStart, some attrsEnd => do
      let attrsXml ← slice xml attrsStart attrsEnd
      let email ← extractElementContent attrsXml "saml:AttributeValue"
      match email with
      | some email => pure ((∅ : HashMap String (List (List Char))).insert "email" [email])
      | none => pure ∅
  | _, _ => some ∅

def parseAssertion (xml : List Char) (now : Int) : Option SamlAssertion := do
  let id ← extractAttribute xml "ID"
  let issuer ← extractElementContent xml "saml:Issuer"
  let nameId ← extractElementContent xml "saml:NameID"
  let nameIdFormat ← extractAttribute xml "Format"
  let attributes ← parseAttributes xml
  pure
    { id := id.getD []
      issueInstant := now
      issuer := issuer.getD []
      subject := ⟨nameId.getD [], nameIdFormat.getD []⟩
      attributes }

variable (base64 : String → Except String (List UInt8))
  (utf8 : List UInt8 → Except String (List Char))

/-- The decoded document, or the text of a `SamlError`. -/
def decoded (samlResponse : String) : Except String (List Char) :=
  match base64 samlResponse with
  | .error error => .error ("Failed to decode SAML response: " ++ error)
  | .ok bytes =>
    match utf8 bytes with
    | .error error => .error ("Invalid UTF-8 in SAML response: " ++ error)
    | .ok rawXml => .ok rawXml

def parseResponse (samlResponse : String) (now : Int) : Option (Except String SamlResponse) :=
  match decoded base64 utf8 samlResponse with
  | .error error => some (.error error)
  | .ok rawXml =>
    (parseAssertion rawXml now).map fun assertion => .ok ⟨rawXml, assertion, false⟩

/-! ## What a document says -/

/-- An element with its content up to the next end of such an element. -/
def IsElement (tag : String) (content xml : List Char) : Prop :=
  ∃ before attributes after,
    xml = before ++ (("<" ++ tag).toList ++ attributes ++ '>' :: (content ++ endTag tag ++ after)) ∧
    (∀ c ∈ attributes.head?, Agent.isWhitespace c = true) ∧ '>' ∉ attributes ∧
    ∀ place < content.length, ¬ endTag tag <+: (content ++ endTag tag ++ after).drop place

/-- A part of the document from a start of an element on and before the next end of one. -/
def IsInside (tag : String) (part xml : List Char) : Prop :=
  ∃ before after, xml = before ++ (part ++ after) ∧ startTag tag <+: part ++ after ∧
    endTag tag <+: after ∧ ∀ place < part.length, ¬ endTag tag <+: (part ++ after).drop place

/-- The response says what the document says, and names a subject. -/
structure Faithful (response : SamlResponse) : Prop where
  issuer : ∃ content, IsElement "saml:Issuer" content response.rawXml ∧
    response.assertion.issuer = trimmed content
  nameId : ∃ content, IsElement "saml:NameID" content response.rawXml ∧
    response.assertion.subject.nameId = trimmed content ∧ trimmed content ≠ []
  email : ∀ emails ∈ response.assertion.attributes.lookup "email", ∀ email ∈ emails,
    ∃ part content, IsInside "saml:AttributeStatement" part response.rawXml ∧
      IsElement "saml:AttributeValue" content part ∧ email = trimmed content

def ParsesSafely (samlResponse : String) (now : Int) : Prop :=
  ∃ answer, parseResponse base64 utf8 samlResponse now = some answer ∧
    ∀ response, answer = .ok response →
      decoded base64 utf8 samlResponse = .ok response.rawXml ∧ Faithful response

/-- The first element without attributes, up to the next end of such an element. -/
def plainContent (tag : String) (xml : List Char) : Option (List Char) :=
  (Text.splitOnce (startTag tag) xml).bind fun sides =>
    (Text.splitOnce (endTag tag) sides.2).map Prod.fst

/-- The attribute statement does not end before it starts, and the issuer and the subject stand in
elements without attributes. -/
structure WellPlaced (xml : List Char) : Prop where
  ordered : ∀ start ∈ findText (startTag "saml:AttributeStatement") xml,
    ∀ stop ∈ findText (endTag "saml:AttributeStatement") xml, start ≤ stop
  /-- An issuer without a text reads like none. -/
  issuer : plainContent "saml:Issuer" xml = none →
    ∃ content, IsElement "saml:Issuer" content xml ∧ trimmed content = []
  subject : ∃ content ∈ plainContent "saml:NameID" xml, trimmed content ≠ []

section Reading

variable {xml : List Char} {tag : String}

theorem extractElementContent_eq (xml : List Char) (tag : String) :
    extractElementContent xml tag = some ((plainContent tag xml).map trimmed) := by
  rw [extractElementContent, between_eq]
  rfl

theorem isElement_of_plainContent {content : List Char}
    (found : plainContent tag xml = some content) : IsElement tag content xml := by
  obtain ⟨⟨before, rest⟩, opened, closed⟩ := Option.bind_eq_some_iff.mp found
  obtain ⟨⟨_, after⟩, cut, rfl⟩ := Option.map_eq_some_iff.mp closed
  dsimp only at cut ⊢
  refine ⟨before, [], after, ?_, by simp, List.not_mem_nil, ?_⟩
  · rw [Text.splitOnce_eq_some opened, Text.splitOnce_eq_some cut, startTag]
    simp
  · have earliest := Text.splitOnce_earliest cut
    rw [Text.splitOnce_eq_some cut, ← List.append_assoc] at earliest
    exact earliest

theorem exists_append_of_byteLength_le {front back first last : List Char}
    (same : front ++ first = back ++ last) (le : byteLength front ≤ byteLength back) :
    ∃ part, back = front ++ part := by
  obtain ⟨part, rfl, -⟩ | ⟨part, rfl, -⟩ := List.append_eq_append_iff.mp same
  · exact ⟨part, rfl⟩
  · rw [byteLength_append] at le
    cases part with
    | nil => exact ⟨[], by simp⟩
    | cons c part =>
      have := c.utf8Size_pos
      rw [byteLength] at le
      omega

/-- The statement is sliced out if it does not end before it starts. -/
theorem slice_statement {before rest before' rest' : List Char}
    (starts : Text.splitOnce (startTag tag) xml = some (before, rest))
    (ends : Text.splitOnce (endTag tag) xml = some (before', rest')) :
    (byteLength before ≤ byteLength before' ∧ ∃ part,
      slice xml (byteLength before) (byteLength before') = some part ∧ IsInside tag part xml) ∨
    (byteLength before' < byteLength before ∧
      slice xml (byteLength before) (byteLength before') = none) := by
  obtain le | lt := le_or_gt (byteLength before) (byteLength before')
  · have written := Text.splitOnce_eq_some starts
    obtain ⟨part, rfl⟩ := exists_append_of_byteLength_le
      (written.symm.trans (Text.splitOnce_eq_some ends)) le
    have whole : xml = before ++ (part ++ (endTag tag ++ rest')) := by
      rw [Text.splitOnce_eq_some ends, List.append_assoc]
    refine .inl ⟨le, part, ?_, before, _, whole, ?_, List.prefix_append _ _, fun place inside => ?_⟩
    · rw [whole, ← List.append_assoc, byteLength_append, slice_append]
    · rw [List.append_cancel_left (whole.symm.trans written)]
      exact List.prefix_append _ _
    · have early := Text.splitOnce_earliest ends (before.length + place) (by simpa using inside)
      rwa [whole, ← List.drop_drop, List.drop_left] at early
  · refine .inr ⟨lt, Option.eq_none_iff_forall_ne_some.mpr fun part sliced => ?_⟩
    obtain ⟨front, _, -, first, second⟩ := slice_eq_some.mp sliced
    omega

/-- The attributes are read without a panic exactly if the statement does not end before it starts,
and an email that is read stands in it. -/
theorem parseAttributes_spec (xml : List Char) :
    ((∀ start ∈ findText (startTag "saml:AttributeStatement") xml,
      ∀ stop ∈ findText (endTag "saml:AttributeStatement") xml, start ≤ stop) ∧
        ∃ attributes, parseAttributes xml = some attributes ∧
          ∀ emails ∈ attributes.lookup "email", ∀ email ∈ emails,
            ∃ part content, IsInside "saml:AttributeStatement" part xml ∧
              IsElement "saml:AttributeValue" content part ∧ email = trimmed content) ∨
    ((∃ start ∈ findText (startTag "saml:AttributeStatement") xml,
      ∃ stop ∈ findText (endTag "saml:AttributeStatement") xml, stop < start) ∧
        parseAttributes xml = none) := by
  rw [parseAttributes, findText, findText]
  cases starts : Text.splitOnce (startTag "saml:AttributeStatement") xml with
  | none => exact .inl ⟨by simp, ∅, rfl, by simp⟩
  | some sides =>
    cases ends : Text.splitOnce (endTag "saml:AttributeStatement") xml with
    | none => exact .inl ⟨by simp, ∅, rfl, by simp⟩
    | some sides' =>
      simp only [Option.map_some, Option.mem_some_iff, forall_eq', exists_eq_left']
      obtain ⟨le, part, sliced, inside⟩ | ⟨lt, sliced⟩ := slice_statement starts ends
      · left
        refine ⟨le, ?_⟩
        simp only [sliced, Option.bind_eq_bind, Option.bind_some, extractElementContent_eq]
        cases found : plainContent "saml:AttributeValue" part with
        | none => exact ⟨∅, rfl, by simp⟩
        | some content =>
          refine ⟨_, rfl, fun emails reported email member => ?_⟩
          rw [Finmap.lookup_insert] at reported
          cases reported
          exact ⟨part, content, inside, isElement_of_plainContent found,
            List.mem_singleton.mp member⟩
      · exact .inr ⟨lt, by rw [sliced]; rfl⟩

/-- An assertion is read if its attributes are. -/
theorem parseAssertion_eq (xml : List Char) (now : Int) : ∃ id nameIdFormat,
    parseAssertion xml now = (parseAttributes xml).map fun attributes =>
      { id
        issueInstant := now
        issuer := ((plainContent "saml:Issuer" xml).map trimmed).getD []
        subject := ⟨((plainContent "saml:NameID" xml).map trimmed).getD [], nameIdFormat⟩
        attributes } := by
  obtain ⟨id, identified⟩ : ∃ id, extractAttribute xml "ID" = some id := ⟨_, between_eq _ _ _⟩
  obtain ⟨format, formatted⟩ : ∃ format, extractAttribute xml "Format" = some format :=
    ⟨_, between_eq _ _ _⟩
  refine ⟨id.getD [], format.getD [], ?_⟩
  simp only [parseAssertion, extractElementContent_eq, identified, formatted, Option.bind_eq_bind,
    Option.bind_some, Option.map_eq_bind]
  rfl

/-- What is read of an element is the content of one. -/
theorem read_element_iff (xml : List Char) (tag : String) :
    (∃ content, IsElement tag content xml ∧
      ((plainContent tag xml).map trimmed).getD [] = trimmed content) ↔
    (plainContent tag xml = none → ∃ content, IsElement tag content xml ∧
      trimmed content = []) := by
  cases found : plainContent tag xml with
  | none =>
    constructor
    · rintro ⟨content, element, empty⟩ -
      exact ⟨content, element, empty.symm⟩
    · intro blank
      obtain ⟨content, element, empty⟩ := blank rfl
      exact ⟨content, element, empty.symm⟩
  | some content =>
    exact iff_of_true ⟨content, isElement_of_plainContent found, rfl⟩ nofun

theorem read_text_iff (xml : List Char) (tag : String) :
    (∃ content, IsElement tag content xml ∧
      ((plainContent tag xml).map trimmed).getD [] = trimmed content ∧ trimmed content ≠ []) ↔
    ∃ content ∈ plainContent tag xml, trimmed content ≠ [] := by
  cases found : plainContent tag xml with
  | none =>
    refine iff_of_false ?_ (by simp)
    rintro ⟨content, -, empty, text⟩
    exact text empty.symm
  | some content =>
    simp only [Option.map_some, Option.getD_some, Option.mem_some_iff, exists_eq_left']
    constructor
    · rintro ⟨other, -, same, text⟩
      exact same ▸ text
    · exact fun text => ⟨content, isElement_of_plainContent found, rfl, text⟩

end Reading

/-- Every response is parsed safely exactly if the decoded document is well placed. -/
theorem parsesSafely_iff (base64 : String → Except String (List UInt8))
    (utf8 : List UInt8 → Except String (List Char)) (samlResponse : String) (now : Int) :
    ParsesSafely base64 utf8 samlResponse now ↔
      ∀ xml, decoded base64 utf8 samlResponse = .ok xml → WellPlaced xml := by
  rw [ParsesSafely, parseResponse]
  cases document : decoded base64 utf8 samlResponse with
  | error error => simp
  | ok xml =>
    obtain ⟨id, format, assertion⟩ := parseAssertion_eq xml now
    simp only [assertion, Except.ok.injEq, forall_eq']
    obtain ⟨ordered, attributes, read, inside⟩ | ⟨⟨start, starts, stop, ends, lt⟩, read⟩ :=
      parseAttributes_spec xml
    · simp only [read, Option.map_some, Option.some.injEq, exists_eq_left', Except.ok.injEq,
        forall_eq', true_and]
      constructor
      · rintro ⟨issuer, subject, -⟩
        exact ⟨ordered, (read_element_iff xml _).mp issuer, (read_text_iff xml _).mp subject⟩
      · rintro ⟨-, issuer, subject⟩
        exact ⟨(read_element_iff xml _).mpr issuer, (read_text_iff xml _).mpr subject, inside⟩
    · simp only [read, Option.map_none, reduceCtorEq, false_and, exists_false, false_iff]
      exact fun placed => absurd (placed.ordered start starts stop ends) (Nat.not_le.mpr lt)

def asciiBytes (text : String) : List UInt8 := text.toList.map fun c => .ofNat c.toNat

def asciiText (bytes : List UInt8) : Except String (List Char) :=
  .ok (bytes.map fun byte => .ofNat byte.toNat)

/-- A document that says nothing makes an assertion about nobody, and one whose statement ends
before it starts a panic. -/
theorem not_parsesSafely :
    ¬ ParsesSafely (fun _ => .ok (asciiBytes "<x/>")) asciiText "PHgvPg==" 0 ∧
      parseResponse (fun _ => .ok (asciiBytes
        "</saml:AttributeStatement><saml:AttributeStatement>")) asciiText
        "PC9zYW1sOkF0dHJpYnV0ZVN0YXRlbWVudD48c2FtbDpBdHRyaWJ1dGVTdGF0ZW1lbnQ+" 0 = none := by
  constructor
  · rintro ⟨answer, parsed, faithful⟩
    have document : decoded (fun _ => .ok (asciiBytes "<x/>")) asciiText "PHgvPg==" =
        .ok "<x/>".toList := by decide
    obtain ⟨id, format, assertion⟩ := parseAssertion_eq "<x/>".toList 0
    have nobody : plainContent "saml:NameID" "<x/>".toList = none := by decide
    rw [parseResponse, document] at parsed
    simp only [assertion, nobody] at parsed
    obtain ⟨_, read, rfl⟩ := Option.map_eq_some_iff.mp parsed
    obtain ⟨attributes, -, rfl⟩ := Option.map_eq_some_iff.mp read
    obtain ⟨content, -, same, text⟩ := (faithful _ rfl).2.nameId
    exact text same.symm
  · decide

end UHorse.Sso
