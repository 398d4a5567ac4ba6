import Mathlib.Data.List.Basic

/-!
# Texts and words as bytes

A text is written in UTF-8 and a word of 64 bits with its lowest byte first. Both determine what
was written. Two concatenations are equal part by part if their parts have equal lengths.
-/

namespace UHorse.Lib.Bytes

/-- The UTF-8 bytes of a text. -/
def utf8 (text : String) : List UInt8 := text.toByteArray.data.toList

theorem utf8_injective : Function.Injective utf8 := by
  intro text other same
  have arrays : text.toByteArray.data = other.toByteArray.data := Array.toList_inj.mp same
  exact String.toByteArray_inj.mp (ByteArray.ext arrays)

/-- The bytes of a word, the lowest one first. -/
def littleEndian (word : BitVec 64) : List UInt8 :=
  (List.range 8).map fun i => ⟨word.extractLsb' (8 * i) 8⟩

@[simp] theorem length_littleEndian (word : BitVec 64) : (littleEndian word).length = 8 := by
  simp [littleEndian]

theorem littleEndian_injective : Function.Injective littleEndian := by
  intro word other same
  refine BitVec.eq_of_getLsbD_eq fun i inside => ?_
  have bytes : ∀ k < 8, word.extractLsb' (8 * k) 8 = other.extractLsb' (8 * k) 8 := by
    intro k few
    have entries := congrArg (fun bytes => bytes[k]?) same
    simpa [littleEndian, few] using entries
  have bits := congrArg (fun byte : BitVec 8 => byte.getLsbD (i % 8)) (bytes (i / 8) (by omega))
  have place : 8 * (i / 8) + i % 8 = i := Nat.div_add_mod i 8
  simpa [BitVec.getLsbD_extractLsb', Nat.mod_lt, place] using bits

/-- Optional texts are written if they are there. -/
def optionalUtf8 (text : Option String) : List UInt8 := text.elim [] utf8

/-- A text that is absent and an empty one are both nothing. -/
theorem eq_of_optionalUtf8 {text other : Option String}
    (shaped : text.isSome = other.isSome) (same : optionalUtf8 text = optionalUtf8 other) :
    text = other := by
  cases text with
  | none =>
    cases other with
    | none => rfl
    | some other => cases shaped
  | some text =>
    cases other with
    | none => cases shaped
    | some other => exact congrArg some (utf8_injective same)

end UHorse.Lib.Bytes
