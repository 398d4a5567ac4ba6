import UHorse.Lib.JsonText
import UHorse.Lib.Utf8Slices

/-!
# The first JSON object in the answer of a model

The answer is scanned from its first `{` on, with the depth of the braces outside strings, until
the depth is 0 again. A complete value leaves the scan as it found it, whatever braces, quotes and
escapes its strings hold; so the scan of an object ends with the object.
-/

namespace UHorse.Hub.Web

open Lib.JsonText Lib.Utf8Slices

structure JsonScan where
  depth : Nat
  inString : Bool
  escape : Bool
deriving DecidableEq

/-- What a character does to the scan: it goes on, ends with the last brace closed, or ends with a
brace closed that was not open. -/
inductive JsonScan.Outcome
  | goesOn (scan : JsonScan)
  | closed
  | unopened

namespace JsonScan

def initial : JsonScan := ⟨0, false, false⟩

def step (scan : JsonScan) (ch : Char) : Outcome :=
  if scan.inString then
    if scan.escape then .goesOn { scan with escape := false }
    else if ch = '\\' then .goesOn { scan with escape := true }
    else if ch = '"' then .goesOn { scan with inString := false }
    else .goesOn scan
  else if ch = '"' then .goesOn { scan with inString := true }
  else if ch = '{' then .goesOn { scan with depth := scan.depth + 1 }
  else if ch = '}' then
    if scan.depth = 0 then .unopened
    else if scan.depth - 1 = 0 then .closed
    else .goesOn { scan with depth := scan.depth - 1 }
  else .goesOn scan

/-- The byte after the brace that closes the object. -/
def closingOffset : JsonScan → List (Nat × Char) → Option Nat
  | _, [] => none
  | scan, (offset, ch) :: others =>
    match scan.step ch with
    | .unopened => none
    | .closed => some (offset + ch.utf8Size)
    | .goesOn scan => closingOffset scan others

/-- The scan after a text in which it does not end. -/
def after : JsonScan → List Char → Option JsonScan
  | scan, [] => some scan
  | scan, ch :: text =>
    match scan.step ch with
    | .goesOn scan => after scan text
    | _ => none

end JsonScan

/-- The outer `none` is a panic. -/
def extractFirstJsonObject (input : List Char) : Option (Option (List Char)) :=
  match find '{' input with
  | none => some none
  | some start => do
      let rest ← sliceFrom input start
      match JsonScan.initial.closingOffset (charIndices 0 rest) with
      | none => some none
      | some offset => do
          let found ← slice input start (start + offset)
          some (some found)

/-! ## Where the scan ends -/

namespace JsonScan

variable {scan scan' : JsonScan} {text front rest : List Char} {ch : Char}

theorem after_append (scan : JsonScan) (text other : List Char) :
    scan.after (text ++ other) = (scan.after text).bind fun scan => scan.after other := by
  induction text generalizing scan with
  | nil => rfl
  | cons ch text ih =>
    rw [List.cons_append, after, after]
    cases scan.step ch with
    | goesOn scan => exact ih scan
    | closed => rfl
    | unopened => rfl

/-- A scan that does not end in a text and is closed by the character behind it ends there. -/
theorem closingOffset_of_closed (passed : scan.after front = some scan')
    (closes : scan'.step ch = .closed) (byte : Nat) (rest : List Char) :
    scan.closingOffset (charIndices byte (front ++ ch :: rest)) =
      some (byte + byteLength (front ++ [ch])) := by
  induction front generalizing scan byte with
  | nil =>
    cases passed
    simp [charIndices, closingOffset, closes, byteLength]
  | cons first front ih =>
    rw [after] at passed
    cases moved : scan.step first with
    | goesOn next =>
      rw [moved] at passed
      rw [List.cons_append, charIndices, closingOffset, moved]
      simp only [ih passed, List.cons_append, byteLength, Nat.add_assoc]
    | closed => simp [moved] at passed
    | unopened => simp [moved] at passed

/-- A scan that ends with the brace closed ends behind a `}`. -/
theorem exists_of_closingOffset {byte stop : Nat}
    (found : scan.closingOffset (charIndices byte text) = some stop) :
    ∃ front rest, text = front ++ '}' :: rest ∧ stop = byte + byteLength (front ++ ['}']) := by
  induction text generalizing scan byte with
  | nil => cases found
  | cons ch text ih =>
    rw [charIndices, closingOffset] at found
    cases moved : scan.step ch with
    | goesOn next =>
      rw [moved] at found
      obtain ⟨front, rest, rfl, rfl⟩ := ih found
      exact ⟨ch :: front, rest, rfl, by simp only [List.cons_append, byteLength, Nat.add_assoc]⟩
    | closed =>
      rw [moved] at found
      have brace : ch = '}' := by
        rw [step] at moved
        split_ifs at moved
        assumption
      subst brace
      exact ⟨[], text, rfl, (Option.some.inj found).symm⟩
    | unopened => simp [moved] at found

/-! ## What leaves the scan as it is -/

/-- Within braces the text leaves the scan as it found it. -/
def Neutral (text : List Char) : Prop :=
  ∀ depth, (⟨depth + 1, false, false⟩ : JsonScan).after text = some ⟨depth + 1, false, false⟩

theorem Neutral.append {text other : List Char} (first : Neutral text) (second : Neutral other) :
    Neutral (text ++ other) := by
  intro depth
  rw [after_append, first depth, Option.bind_some, second depth]

theorem neutral_of_plain (plain : ∀ c ∈ text, isPlain c = true) : Neutral text := by
  intro depth
  induction text with
  | nil => rfl
  | cons c text ih =>
    obtain ⟨head, others⟩ := List.forall_mem_cons.mp plain
    obtain ⟨quote, opens, closes⟩ := of_decide_eq_true head
    have moved : (⟨depth + 1, false, false⟩ : JsonScan).step c =
        .goesOn ⟨depth + 1, false, false⟩ := by
      simp [step, quote, opens, closes]
    rw [after, moved]
    exact ih others

theorem Neutral.cons {c : Char} {text : List Char} (plain : isPlain c = true)
    (others : Neutral text) : Neutral (c :: text) := by
  have head : Neutral [c] := neutral_of_plain (by simpa using plain)
  exact head.append others

/-- Braces around such a text are one again. -/
theorem Neutral.braces (inner : Neutral text) : Neutral ('{' :: text ++ ['}']) := by
  intro depth
  have opened : (⟨depth + 1, false, false⟩ : JsonScan).step '{' =
      .goesOn ⟨depth + 1 + 1, false, false⟩ := rfl
  rw [List.cons_append, after, opened]
  simp only [after_append, inner (depth + 1), Option.bind_some]
  rfl

/-- A character of a string that is no quote and no backslash. -/
theorem step_inString (depth : Nat) {c : Char} (quote : c ≠ '"') (backslash : c ≠ '\\') :
    (⟨depth, true, false⟩ : JsonScan).step c = .goesOn ⟨depth, true, false⟩ := by
  simp [step, quote, backslash]

theorem after_hex (depth : Nat) (hex : ∀ c ∈ text, isHexDigit c = true) :
    (⟨depth, true, false⟩ : JsonScan).after text = some ⟨depth, true, false⟩ := by
  induction text with
  | nil => rfl
  | cons c text ih =>
    obtain ⟨digit, others⟩ := List.forall_mem_cons.mp hex
    have moved := step_inString depth (c := c) (by rintro rfl; cases digit)
      (by rintro rfl; cases digit)
    rw [after, moved]
    exact ih others

/-- What is between the quotes leaves the scan within the string. -/
theorem after_inner (depth : Nat) (inner : Inner text) :
    (⟨depth, true, false⟩ : JsonScan).after text = some ⟨depth, true, false⟩ := by
  induction inner with
  | nil => rfl
  | plain free _ ih =>
    rw [after, step_inString depth free.1 free.2.1]
    exact ih
  | escaped _ _ ih => exact ih
  | @unicode code rest _ hex _ ih =>
    calc (⟨depth, true, false⟩ : JsonScan).after ('\\' :: 'u' :: code ++ rest)
        = (⟨depth, true, false⟩ : JsonScan).after (code ++ rest) := rfl
      _ = some ⟨depth, true, false⟩ := by rw [after_append, after_hex depth hex]; exact ih

theorem neutral_of_isString (formed : IsString text) : Neutral text := by
  obtain ⟨inner, formed, rfl⟩ := formed
  intro depth
  have opened : (⟨depth + 1, false, false⟩ : JsonScan).step '"' =
      .goesOn ⟨depth + 1, true, false⟩ := rfl
  rw [List.cons_append, after, opened]
  simp only [after_append, after_inner (depth + 1) formed, Option.bind_some]
  rfl

/-- Every part of the grammar leaves the scan as it found it. -/
theorem neutral_of_derives {part : Part} (derived : Derives part text) : Neutral text := by
  induction derived with
  | literal known => exact neutral_of_plain (plain_of_literal known)
  | number formed => exact neutral_of_plain formed.plain
  | string formed => exact neutral_of_isString formed
  | emptyArray blank =>
    exact (Neutral.cons rfl (neutral_of_plain blank.plain)).append (.cons rfl fun _ => rfl)
  | array _ ih => exact (Neutral.cons rfl ih).append (.cons rfl fun _ => rfl)
  | ofObject _ ih => exact ih
  | emptyObject blank => exact (neutral_of_plain blank.plain).braces
  | object _ ih => exact ih.braces
  | item before _ after ih =>
    exact ((neutral_of_plain before.plain).append ih).append (neutral_of_plain after.plain)
  | lastItem _ ih => exact ih
  | moreItems _ _ first others => exact first.append (.cons rfl others)
  | field before named after _ ih =>
    have front := (neutral_of_plain before.plain).append (neutral_of_isString named)
    exact (front.append (neutral_of_plain after.plain)).append (.cons rfl ih)
  | lastField _ ih => exact ih
  | moreFields _ _ first others => exact first.append (.cons rfl others)

/-- An object is a text between braces that leaves the scan as it found it. -/
theorem exists_of_isObject {object : List Char} (complete : IsObject object) :
    ∃ inner, object = '{' :: inner ++ ['}'] ∧ Neutral inner := by
  cases complete with
  | emptyObject blank => exact ⟨_, rfl, neutral_of_plain blank.plain⟩
  | object formed => exact ⟨_, rfl, neutral_of_derives formed⟩

/-- The scan of an object ends with the object. -/
theorem closingOffset_object {object : List Char} (complete : IsObject object) (rest : List Char) :
    initial.closingOffset (charIndices 0 (object ++ rest)) = some (byteLength object) := by
  obtain ⟨inner, rfl, neutral⟩ := exists_of_isObject complete
  have passed : initial.after ('{' :: inner) = some ⟨1, false, false⟩ := neutral 0
  have closes : (⟨1, false, false⟩ : JsonScan).step '}' = .closed := rfl
  have ended := closingOffset_of_closed passed closes 0 rest
  rw [List.append_assoc, Nat.zero_add] at *
  exact ended

end JsonScan

/-! ## What is extracted -/

/-- A complete object behind a text without `{` is what is extracted. -/
theorem extractFirstJsonObject_object {front object : List Char} (absent : '{' ∉ front)
    (complete : IsObject object) (rest : List Char) :
    extractFirstJsonObject (front ++ object ++ rest) = some (some object) := by
  have ended := JsonScan.closingOffset_object complete rest
  obtain ⟨inner, shape, -⟩ := JsonScan.exists_of_isObject complete
  have found : find '{' (front ++ object ++ rest) = some (byteLength front) := by
    rw [shape, List.append_assoc, List.cons_append, List.cons_append]
    exact find_append absent _
  have cut : sliceFrom (front ++ object ++ rest) (byteLength front) = some (object ++ rest) := by
    rw [List.append_assoc, sliceFrom, cutAt_byteLength_append, Option.map_some]
  simp only [extractFirstJsonObject, found, cut, Option.bind_eq_bind, Option.bind_some, ended,
    slice_append]

/-- What is extracted from any text begins with `{`, ends with `}` and is a part of it. -/
theorem exists_of_extractFirstJsonObject (input : List Char) :
    ∃ answer, extractFirstJsonObject input = some answer ∧
      ∀ found ∈ answer, found.head? = some '{' ∧ found.getLast? = some '}' ∧ found <:+: input := by
  cases located : find '{' input with
  | none => exact ⟨none, by simp [extractFirstJsonObject, located], by simp⟩
  | some start =>
    obtain ⟨front, rest, rfl, rfl⟩ := exists_of_find located
    have cut : sliceFrom (front ++ '{' :: rest) (byteLength front) = some ('{' :: rest) := by
      rw [sliceFrom, cutAt_byteLength_append, Option.map_some]
    cases closed : JsonScan.initial.closingOffset (charIndices 0 ('{' :: rest)) with
    | none =>
      exact ⟨none, by simp [extractFirstJsonObject, located, cut, closed], by simp⟩
    | some stop =>
      obtain ⟨inner, back, shape, rfl⟩ := JsonScan.exists_of_closingOffset closed
      rw [Nat.zero_add] at closed
      have whole : front ++ '{' :: rest = front ++ (inner ++ ['}']) ++ back := by
        simp [shape]
      have found : slice (front ++ '{' :: rest) (byteLength front)
          (byteLength front + byteLength (inner ++ ['}'])) = some (inner ++ ['}']) := by
        rw [whole]
        exact slice_append front (inner ++ ['}']) back
      refine ⟨some (inner ++ ['}']), ?_, ?_⟩
      · simp only [extractFirstJsonObject, located, cut, closed, found, Option.bind_eq_bind,
          Option.bind_some]
      · rintro _ ⟨⟩
        refine ⟨?_, by simp, ⟨front, back, by rw [whole]⟩⟩
        cases inner with
        | nil => simp at shape
        | cons c inner =>
          obtain ⟨rfl, -⟩ := List.cons.inj shape
          rfl

/-- The object behind a text without `{` is extracted, and whatever is extracted from a text is a
part of it between braces. -/
theorem extractFirstJsonObject_spec :
    (∀ front object rest : List Char, '{' ∉ front → IsObject object →
      extractFirstJsonObject (front ++ object ++ rest) = some (some object)) ∧
    ∀ input : List Char, ∃ answer, extractFirstJsonObject input = some answer ∧
      ∀ found ∈ answer, found.head? = some '{' ∧ found.getLast? = some '}' ∧ found <:+: input :=
  ⟨fun _ _ rest absent complete => extractFirstJsonObject_object absent complete rest,
    exists_of_extractFirstJsonObject⟩

end UHorse.Hub.Web
