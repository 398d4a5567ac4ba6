import UHorse.Lib.Holes
import UHorse.Lib.JsonText

/-!
# JSON with holes

A text of JSON in which holes stand inside strings or for values. Filled with texts for the inside
of strings and with values it is a text of JSON.
-/

namespace UHorse.Lib.JsonText

open Holes

variable {κ : Type*}

/-- A text without holes. -/
def letters (text : List Char) : List (Piece κ Char) := text.map .letter

@[simp] theorem fill_letters (shown : κ → List Char) (text : List Char) :
    fill shown (letters text) = text := by
  induction text with
  | nil => rfl
  | cons c text ih => exact congrArg (c :: ·) ih

/-- What is between the quotes of a string with holes of one kind. -/
inductive HoledInner (inside : κ → Prop) : List (Piece κ Char) → Prop
  | nil : HoledInner inside []
  | letters {text : List Char} {rest : List (Piece κ Char)} (formed : Inner text)
      (others : HoledInner inside rest) : HoledInner inside (letters text ++ rest)
  | hole {name : κ} {rest : List (Piece κ Char)} (placed : inside name)
      (others : HoledInner inside rest) : HoledInner inside (.hole name :: rest)

/-- A string with holes. -/
def IsHoledString (inside : κ → Prop) (pieces : List (Piece κ Char)) : Prop :=
  ∃ inner, HoledInner inside inner ∧ pieces = .letter '"' :: inner ++ [.letter '"']

/-- The texts of each part of the grammar, with holes of one kind inside strings and of another for
values. -/
inductive Templated (inside instead : κ → Prop) : Part → List (Piece κ Char) → Prop
  | whole {part : Part} {text : List Char} (formed : Derives part text) :
      Templated inside instead part (letters text)
  | hole {name : κ} (placed : instead name) : Templated inside instead .value [.hole name]
  | string {pieces : List (Piece κ Char)} (formed : IsHoledString inside pieces) :
      Templated inside instead .value pieces
  | array {items : List (Piece κ Char)} (formed : Templated inside instead .items items) :
      Templated inside instead .value (.letter '[' :: items ++ [.letter ']'])
  | ofObject {pieces : List (Piece κ Char)} (formed : Templated inside instead .object pieces) :
      Templated inside instead .value pieces
  | object {fields : List (Piece κ Char)} (formed : Templated inside instead .fields fields) :
      Templated inside instead .object (.letter '{' :: fields ++ [.letter '}'])
  | item {front back : List Char} {value : List (Piece κ Char)} (before : Space front)
      (formed : Templated inside instead .value value) (after : Space back) :
      Templated inside instead .item (letters front ++ value ++ letters back)
  | lastItem {pieces : List (Piece κ Char)} (formed : Templated inside instead .item pieces) :
      Templated inside instead .items pieces
  | moreItems {first others : List (Piece κ Char)} (formed : Templated inside instead .item first)
      (more : Templated inside instead .items others) :
      Templated inside instead .items (first ++ .letter ',' :: others)
  | field {front middle : List Char} {name value : List (Piece κ Char)} (before : Space front)
      (named : IsHoledString inside name) (after : Space middle)
      (formed : Templated inside instead .item value) :
      Templated inside instead .field
        (letters front ++ name ++ letters middle ++ .letter ':' :: value)
  | lastField {pieces : List (Piece κ Char)} (formed : Templated inside instead .field pieces) :
      Templated inside instead .fields pieces
  | moreFields {first others : List (Piece κ Char)} (formed : Templated inside instead .field first)
      (more : Templated inside instead .fields others) :
      Templated inside instead .fields (first ++ .letter ',' :: others)

section Filling

variable {inside instead : κ → Prop} {shown : κ → List Char} {pieces : List (Piece κ Char)}

theorem fill_between (first last : Char) (pieces : List (Piece κ Char)) :
    fill shown (.letter first :: pieces ++ [.letter last]) =
      first :: fill shown pieces ++ [last] := by
  rw [List.cons_append, fill, fill_append]
  rfl

theorem Inner.append {first second : List Char} (left : Inner first) (right : Inner second) :
    Inner (first ++ second) := by
  induction left with
  | nil => exact right
  | plain free _ ih => exact .plain free ih
  | escaped known _ ih => exact .escaped known ih
  | unicode four hex _ ih =>
    rw [List.append_assoc]
    exact .unicode four hex ih

theorem HoledInner.fill (formed : HoledInner inside pieces)
    (texts : ∀ name, .hole name ∈ pieces → inside name → Inner (shown name)) :
    Inner (fill shown pieces) := by
  induction formed with
  | nil => exact .nil
  | letters formed _ ih =>
    rw [fill_append, fill_letters]
    exact formed.append (ih fun name member => texts name (List.mem_append_right _ member))
  | hole placed _ ih =>
    refine (texts _ List.mem_cons_self placed).append ?_
    exact ih fun name member => texts name (List.mem_cons_of_mem _ member)

theorem IsHoledString.fill (formed : IsHoledString inside pieces)
    (texts : ∀ name, .hole name ∈ pieces → inside name → Inner (shown name)) :
    IsString (Holes.fill shown pieces) := by
  obtain ⟨inner, holed, rfl⟩ := formed
  refine ⟨Holes.fill shown inner, holed.fill fun name member => texts name ?_, fill_between _ _ _⟩
  exact List.mem_append_left _ (List.mem_cons_of_mem _ member)

/-- Filled with texts for the inside of strings and with values, a template is a text of JSON. -/
theorem Templated.fill {part : Part} (templated : Templated inside instead part pieces)
    (texts : ∀ name, .hole name ∈ pieces → inside name → Inner (shown name))
    (values : ∀ name, .hole name ∈ pieces → instead name → Derives .value (shown name)) :
    Derives part (Holes.fill shown pieces) := by
  induction templated with
  | whole formed =>
    rw [fill_letters]
    exact formed
  | hole placed =>
    rw [Holes.fill, Holes.fill, List.append_nil]
    exact values _ List.mem_cons_self placed
  | string formed => exact .string (formed.fill texts)
  | array _ ih =>
    rw [fill_between]
    exact .array (ih (fun name member => texts name (by simp [member]))
      fun name member => values name (by simp [member]))
  | ofObject _ ih => exact .ofObject (ih texts values)
  | object _ ih =>
    rw [fill_between]
    exact .object (ih (fun name member => texts name (by simp [member]))
      fun name member => values name (by simp [member]))
  | item before _ after ih =>
    rw [fill_append, fill_append, fill_letters, fill_letters]
    exact .item before (ih (fun name member => texts name (by simp [member]))
      fun name member => values name (by simp [member])) after
  | lastItem _ ih => exact .lastItem (ih texts values)
  | moreItems _ _ ih ihMore =>
    rw [fill_append, Holes.fill]
    exact .moreItems
      (ih (fun name member => texts name (by simp [member]))
        fun name member => values name (by simp [member]))
      (ihMore (fun name member => texts name (by simp [member]))
        fun name member => values name (by simp [member]))
  | field before named after _ ih =>
    rw [fill_append, fill_append, fill_append, fill_letters, fill_letters, Holes.fill]
    exact .field before (named.fill fun name member => texts name (by simp [member])) after
      (ih (fun name member => texts name (by simp [member]))
        fun name member => values name (by simp [member]))
  | lastField _ ih => exact .lastField (ih texts values)
  | moreFields _ _ ih ihMore =>
    rw [fill_append, Holes.fill]
    exact .moreFields
      (ih (fun name member => texts name (by simp [member]))
        fun name member => values name (by simp [member]))
      (ihMore (fun name member => texts name (by simp [member]))
        fun name member => values name (by simp [member]))

end Filling

end UHorse.Lib.JsonText
