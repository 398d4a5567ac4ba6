import Mathlib.Data.List.Basic

/-!
# The texts of JSON

The grammar of JSON as a derivation over characters: strings with every escape, numbers, and arrays
and objects nested to any depth, with white space where the grammar has it. A text is not parsed
into a value; only whether it is one is said. Of strings it is also said what they decode to.
-/

namespace UHorse.Lib.JsonText

def isSpace (c : Char) : Bool := c = ' ' || c = '\t' || c = '\n' || c = '\r'

/-- White space of any length. -/
def Space (text : List Char) : Prop := ∀ c ∈ text, isSpace c = true

instance (text : List Char) : Decidable (Space text) :=
  decidable_of_iff (text.all isSpace = true) List.all_eq_true

def isHexDigit (c : Char) : Bool :=
  c.isDigit || ('a' ≤ c && c ≤ 'f') || ('A' ≤ c && c ≤ 'F')

/-- The letters that stand after a backslash alone. -/
def escapes : List Char := ['"', '\\', '/', 'b', 'f', 'n', 'r', 't']

/-- What is between the quotes of a string. -/
inductive Inner : List Char → Prop
  | nil : Inner []
  | plain {c : Char} {rest : List Char} (free : c ≠ '"' ∧ c ≠ '\\' ∧ 0x20 ≤ c.toNat)
      (others : Inner rest) : Inner (c :: rest)
  | escaped {c : Char} {rest : List Char} (known : c ∈ escapes) (others : Inner rest) :
      Inner ('\\' :: c :: rest)
  | unicode {code rest : List Char} (four : code.length = 4) (hex : ∀ c ∈ code, isHexDigit c = true)
      (others : Inner rest) : Inner ('\\' :: 'u' :: code ++ rest)

def IsString (text : List Char) : Prop := ∃ inner, Inner inner ∧ text = '"' :: inner ++ ['"']

def Digits (text : List Char) : Prop := text ≠ [] ∧ ∀ c ∈ text, c.isDigit = true

/-- No digit but `0` follows a leading `0`. -/
def Whole (text : List Char) : Prop := Digits text ∧ (text.head? = some '0' → text = ['0'])

def Fraction (text : List Char) : Prop :=
  text = [] ∨ ∃ digits, Digits digits ∧ text = '.' :: digits

def Exponent (text : List Char) : Prop :=
  text = [] ∨ ∃ letter sign digits, (letter = 'e' ∨ letter = 'E') ∧
    (sign = [] ∨ sign = ['+'] ∨ sign = ['-']) ∧ Digits digits ∧ text = letter :: sign ++ digits

def IsNumber (text : List Char) : Prop :=
  ∃ sign whole fraction exponent, (sign = [] ∨ sign = ['-']) ∧ Whole whole ∧ Fraction fraction ∧
    Exponent exponent ∧ text = sign ++ whole ++ fraction ++ exponent

def literals : List (List Char) := ["true".toList, "false".toList, "null".toList]

inductive Part
  | value
  | object
  | item
  | items
  | field
  | fields

/-- The texts of each part of the grammar. -/
inductive Derives : Part → List Char → Prop
  | literal {text : List Char} (known : text ∈ literals) : Derives .value text
  | number {text : List Char} (formed : IsNumber text) : Derives .value text
  | string {text : List Char} (formed : IsString text) : Derives .value text
  | emptyArray {space : List Char} (blank : Space space) : Derives .value ('[' :: space ++ [']'])
  | array {items : List Char} (formed : Derives .items items) :
      Derives .value ('[' :: items ++ [']'])
  | ofObject {text : List Char} (formed : Derives .object text) : Derives .value text
  | emptyObject {space : List Char} (blank : Space space) :
      Derives .object ('{' :: space ++ ['}'])
  | object {fields : List Char} (formed : Derives .fields fields) :
      Derives .object ('{' :: fields ++ ['}'])
  | item {front value back : List Char} (before : Space front) (formed : Derives .value value)
      (after : Space back) : Derives .item (front ++ value ++ back)
  | lastItem {text : List Char} (formed : Derives .item text) : Derives .items text
  | moreItems {first others : List Char} (formed : Derives .item first)
      (more : Derives .items others) : Derives .items (first ++ ',' :: others)
  | field {front name middle value : List Char} (before : Space front) (named : IsString name)
      (after : Space middle) (formed : Derives .item value) :
      Derives .field (front ++ name ++ middle ++ ':' :: value)
  | lastField {text : List Char} (formed : Derives .field text) : Derives .fields text
  | moreFields {first others : List Char} (formed : Derives .field first)
      (more : Derives .fields others) : Derives .fields (first ++ ',' :: others)

/-- A complete object. -/
def IsObject (text : List Char) : Prop := Derives .object text

/-! ## What strings decode to -/

/-- A character that stands in a string for itself. -/
def StandsForItself (c : Char) : Prop := c ≠ '"' ∧ c ≠ '\\' ∧ 0x20 ≤ c.toNat

instance (c : Char) : Decidable (StandsForItself c) := inferInstanceAs (Decidable (_ ∧ _))

/-- What a letter behind a backslash stands for. -/
def unescape : Char → Char
  | 'b' => '\x08'
  | 'f' => '\x0c'
  | 'n' => '\n'
  | 'r' => '\r'
  | 't' => '\t'
  | c => c

def hexDigit (c : Char) : Nat :=
  if c.isDigit then c.toNat - 48 else if 'a' ≤ c then c.toNat - 87 else c.toNat - 55

def hexValue (code : List Char) : Nat := code.foldl (fun value c => 16 * value + hexDigit c) 0

/-- The code of a character beyond the first plane, from both of its halves. -/
def joined (high low : Nat) : Nat := 0x10000 + (high - 0xD800) * 0x400 + (low - 0xDC00)

/-- The characters that the inner text of a string stands for. -/
inductive Decodes : List Char → List Char → Prop
  | nil : Decodes [] []
  | plain {c : Char} {rest decoded : List Char} (free : StandsForItself c)
      (others : Decodes rest decoded) : Decodes (c :: rest) (c :: decoded)
  | escaped {c : Char} {rest decoded : List Char} (known : c ∈ escapes)
      (others : Decodes rest decoded) : Decodes ('\\' :: c :: rest) (unescape c :: decoded)
  | unicode {code rest decoded : List Char} (four : code.length = 4)
      (hex : ∀ c ∈ code, isHexDigit c = true) (whole : (hexValue code).isValidChar)
      (others : Decodes rest decoded) :
      Decodes ('\\' :: 'u' :: code ++ rest) (.ofNat (hexValue code) :: decoded)
  | pair {high low rest decoded : List Char} (four : high.length = 4 ∧ low.length = 4)
      (hex : (∀ c ∈ high, isHexDigit c = true) ∧ ∀ c ∈ low, isHexDigit c = true)
      (halves : (0xD800 ≤ hexValue high ∧ hexValue high < 0xDC00) ∧
        0xDC00 ≤ hexValue low ∧ hexValue low < 0xE000)
      (others : Decodes rest decoded) :
      Decodes ('\\' :: 'u' :: high ++ ('\\' :: 'u' :: low ++ rest))
        (.ofNat (joined (hexValue high) (hexValue low)) :: decoded)

theorem Decodes.inner {inner decoded : List Char} (decodes : Decodes inner decoded) :
    Inner inner := by
  induction decodes with
  | nil => exact .nil
  | plain free _ ih => exact .plain free ih
  | escaped known _ ih => exact .escaped known ih
  | unicode four hex _ _ ih => exact .unicode four hex ih
  | pair four hex _ _ ih => exact .unicode four.1 hex.1 (.unicode four.2 hex.2 ih)

/-- An escape is longer than what it stands for. -/
theorem Decodes.length_le {inner decoded : List Char} (decodes : Decodes inner decoded) :
    decoded.length ≤ inner.length := by
  induction decodes with
  | nil => exact Nat.le_refl _
  | plain _ _ ih => exact Nat.succ_le_succ ih
  | escaped _ _ ih => exact Nat.succ_le_succ (Nat.le_succ_of_le ih)
  | unicode _ _ _ _ ih =>
    simp only [List.length_append, List.length_cons]
    omega
  | pair _ _ _ _ ih =>
    simp only [List.length_append, List.length_cons]
    omega

/-- Where nothing gets shorter, there is no escape. -/
theorem Decodes.plain_of_length {inner decoded : List Char} (decodes : Decodes inner decoded)
    (long : inner.length ≤ decoded.length) : ∀ c ∈ inner, StandsForItself c := by
  induction decodes with
  | nil => exact fun _ member => absurd member List.not_mem_nil
  | plain free others ih =>
    exact List.forall_mem_cons.mpr ⟨free, ih (Nat.le_of_succ_le_succ long)⟩
  | escaped known others ih =>
    have shorter := others.length_le
    simp only [List.length_cons] at long
    omega
  | unicode four hex whole others ih =>
    have shorter := others.length_le
    simp only [List.length_append, List.length_cons] at long
    omega
  | pair four hex halves others ih =>
    have shorter := others.length_le
    simp only [List.length_append, List.length_cons] at long
    omega

/-- A text decodes to itself just when each of its characters stands for itself. -/
theorem decodes_self_iff {text : List Char} :
    Decodes text text ↔ ∀ c ∈ text, StandsForItself c := by
  refine ⟨fun decodes => decodes.plain_of_length (Nat.le_refl _), fun each => ?_⟩
  induction text with
  | nil => exact .nil
  | cons c text ih =>
    obtain ⟨free, others⟩ := List.forall_mem_cons.mp each
    exact .plain free (ih others)

/-! ## The letters of the parts -/

/-- The letters that literals, numbers and white space are made of. -/
def isPlain (c : Char) : Bool := c ≠ '"' ∧ c ≠ '{' ∧ c ≠ '}'

variable {text : List Char}

theorem isPlain_of_isDigit {c : Char} (digit : c.isDigit = true) : isPlain c = true := by
  refine decide_eq_true ⟨?_, ?_, ?_⟩ <;>
    · rintro rfl
      cases digit

theorem Space.plain (blank : Space text) : ∀ c ∈ text, isPlain c = true := by
  intro c member
  have space := blank c member
  refine decide_eq_true ⟨?_, ?_, ?_⟩ <;>
    · rintro rfl
      cases space

theorem Digits.plain (digits : Digits text) : ∀ c ∈ text, isPlain c = true :=
  fun c member => isPlain_of_isDigit (digits.2 c member)

theorem plain_of_sign (sign : text = [] ∨ text = ['+'] ∨ text = ['-']) :
    ∀ c ∈ text, isPlain c = true := by
  obtain rfl | rfl | rfl := sign <;> simp [isPlain]

theorem Fraction.plain (formed : Fraction text) : ∀ c ∈ text, isPlain c = true := by
  obtain rfl | ⟨digits, formed, rfl⟩ := formed
  · simp
  · exact List.forall_mem_cons.mpr ⟨rfl, formed.plain⟩

theorem Exponent.plain (formed : Exponent text) : ∀ c ∈ text, isPlain c = true := by
  obtain rfl | ⟨letter, sign, digits, which, signed, formed, rfl⟩ := formed
  · simp
  · rw [List.cons_append]
    refine List.forall_mem_cons.mpr
      ⟨?_, List.forall_mem_append.mpr ⟨plain_of_sign signed, formed.plain⟩⟩
    obtain rfl | rfl := which <;> rfl

theorem IsNumber.plain (formed : IsNumber text) : ∀ c ∈ text, isPlain c = true := by
  obtain ⟨sign, whole, fraction, exponent, signed, digits, fractional, exponential, rfl⟩ := formed
  have signs : sign = [] ∨ sign = ['+'] ∨ sign = ['-'] := signed.imp_right .inr
  simp only [List.forall_mem_append]
  exact ⟨⟨⟨plain_of_sign signs, digits.1.plain⟩, fractional.plain⟩, exponential.plain⟩

theorem plain_of_literal (known : text ∈ literals) : ∀ c ∈ text, isPlain c = true := by
  have each : ∀ literal ∈ literals, literal.all isPlain = true := by decide
  exact List.all_eq_true.mp (each text known)

end UHorse.Lib.JsonText
