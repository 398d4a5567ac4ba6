import UHorse.Lib.Text

/-!
# Texts cut at a byte

A text is a list of characters and takes one to four bytes for each. `cutAt` cuts it at a byte:
there is a cut only where a character starts or the text ends, and the two sides are the text.
The byte at which the character of a given number starts is always such a place, and the cut there
is the cut by characters.

Pages of a text that are read one after the other until an empty one are the whole text, whatever
their size.
-/

namespace UHorse.Lib.Utf8Slices

/-- The length of a text in bytes. -/
def byteLength : List Char → Nat
  | [] => 0
  | c :: text => c.utf8Size + byteLength text

/-- What is before a byte and from it on. Within a character and past the end there is no cut. -/
def cutAt : List Char → Nat → Option (List Char × List Char)
  | text, 0 => some ([], text)
  | [], _ + 1 => none
  | c :: text, byte + 1 =>
    if c.utf8Size ≤ byte + 1 then
      (cutAt text (byte + 1 - c.utf8Size)).map fun sides => (c :: sides.1, sides.2)
    else none

def sliceTo (text : List Char) (byte : Nat) : Option (List Char) :=
  (cutAt text byte).map Prod.fst

def sliceFrom (text : List Char) (byte : Nat) : Option (List Char) :=
  (cutAt text byte).map Prod.snd

/-- The characters of a text that begins at a byte, each after the byte at which it starts. -/
def charIndices : Nat → List Char → List (Nat × Char)
  | _, [] => []
  | byte, c :: text => (byte, c) :: charIndices (byte + c.utf8Size) text

/-- The byte at which the character of a number starts; the end if there are not so many. -/
def byteOfChar (text : List Char) (number : Nat) : Nat :=
  ((charIndices 0 text)[number]?.map Prod.fst).getD (byteLength text)

/-- What is from one byte on and before another. -/
def slice (text : List Char) (start stop : Nat) : Option (List Char) :=
  (sliceTo text stop).bind fun front => sliceFrom front start

/-- The byte at which a character is first. -/
def find (ch : Char) (text : List Char) : Option Nat :=
  ((charIndices 0 text).find? fun entry => entry.2 = ch).map Prod.fst

/-- A character starts at the byte, or the text ends there. -/
def IsBoundary (text : List Char) (byte : Nat) : Prop :=
  ∃ front, front <+: text ∧ byteLength front = byte

variable {text front rest : List Char} {byte : Nat}

@[simp] theorem byteLength_append (text other : List Char) :
    byteLength (text ++ other) = byteLength text + byteLength other := by
  induction text with
  | nil => simp [byteLength]
  | cons c text ih => simp [byteLength, ih, Nat.add_assoc]

theorem byteLength_replicate (count : Nat) (c : Char) :
    byteLength (List.replicate count c) = count * c.utf8Size := by
  induction count with
  | zero => simp [byteLength]
  | succ count ih => rw [List.replicate_succ, byteLength, ih, Nat.succ_mul, Nat.add_comm]

@[simp] theorem cutAt_zero (text : List Char) : cutAt text 0 = some ([], text) := by
  cases text <;> rfl

theorem cutAt_cons (c : Char) (text : List Char) (positive : 0 < byte) :
    cutAt (c :: text) byte =
      if c.utf8Size ≤ byte then
        (cutAt text (byte - c.utf8Size)).map fun sides => (c :: sides.1, sides.2)
      else none := by
  cases byte with
  | zero => cases positive
  | succ byte => rfl

theorem cutAt_byteLength_append (front rest : List Char) :
    cutAt (front ++ rest) (byteLength front) = some (front, rest) := by
  induction front with
  | nil => exact cutAt_zero rest
  | cons c front ih =>
    have positive := c.utf8Size_pos
    rw [List.cons_append, byteLength, cutAt_cons c _ (by omega), if_pos (Nat.le_add_right _ _),
      Nat.add_sub_cancel_left, ih]
    rfl

theorem eq_of_cutAt (cut : cutAt text byte = some (front, rest)) :
    text = front ++ rest ∧ byteLength front = byte := by
  induction text generalizing byte front with
  | nil =>
    cases byte with
    | zero => cases cut; exact ⟨rfl, rfl⟩
    | succ byte => cases cut
  | cons c text ih =>
    cases byte with
    | zero => cases cut; exact ⟨rfl, rfl⟩
    | succ byte =>
      rw [cutAt_cons c text byte.succ_pos] at cut
      split at cut
      · rename_i fits
        obtain ⟨⟨front', rest'⟩, inner, same⟩ := Option.map_eq_some_iff.mp cut
        obtain ⟨rfl, rfl⟩ := Prod.mk.inj same
        obtain ⟨rfl, bytes⟩ := ih inner
        refine ⟨rfl, ?_⟩
        simp only [byteLength, bytes]
        omega
      · cases cut

/-- The cut at a byte is the one with so many bytes before it. -/
theorem cutAt_eq_some :
    cutAt text byte = some (front, rest) ↔ text = front ++ rest ∧ byteLength front = byte := by
  refine ⟨eq_of_cutAt, ?_⟩
  rintro ⟨rfl, rfl⟩
  exact cutAt_byteLength_append front rest

theorem isSome_cutAt : (cutAt text byte).isSome ↔ IsBoundary text byte := by
  constructor
  · intro some_
    obtain ⟨⟨front, rest⟩, cut⟩ := Option.isSome_iff_exists.mp some_
    obtain ⟨rfl, bytes⟩ := eq_of_cutAt cut
    exact ⟨front, List.prefix_append front rest, bytes⟩
  · rintro ⟨front, ⟨rest, rfl⟩, rfl⟩
    rw [cutAt_byteLength_append]
    rfl

theorem isSome_sliceTo : (sliceTo text byte).isSome ↔ IsBoundary text byte := by
  rw [sliceTo, Option.isSome_map, isSome_cutAt]

theorem sliceTo_eq_some :
    sliceTo text byte = some front ↔ front <+: text ∧ byteLength front = byte := by
  rw [sliceTo]
  constructor
  · intro slice
    obtain ⟨⟨front', rest⟩, cut, rfl⟩ := Option.map_eq_some_iff.mp slice
    obtain ⟨rfl, bytes⟩ := eq_of_cutAt cut
    exact ⟨List.prefix_append front' rest, bytes⟩
  · rintro ⟨⟨rest, rfl⟩, rfl⟩
    rw [cutAt_byteLength_append]
    rfl

/-- The part between two cuts. -/
theorem slice_append (front middle rest : List Char) :
    slice (front ++ middle ++ rest) (byteLength front) (byteLength front + byteLength middle) =
      some middle := by
  rw [← byteLength_append, slice, sliceTo, cutAt_byteLength_append, Option.map_some,
    Option.bind_some, sliceFrom, cutAt_byteLength_append, Option.map_some]

theorem sliceFrom_append (front rest : List Char) :
    sliceFrom (front ++ rest) (byteLength front) = some rest := by
  rw [sliceFrom, cutAt_byteLength_append, Option.map_some]

/-- A part is sliced out just when both its ends are cuts and the first is not behind the other. -/
theorem slice_eq_some {middle : List Char} {start stop : Nat} :
    slice text start stop = some middle ↔ ∃ front rest, text = front ++ middle ++ rest ∧
      byteLength front = start ∧ byteLength front + byteLength middle = stop := by
  constructor
  · intro sliced
    obtain ⟨whole, first, second⟩ := Option.bind_eq_some_iff.mp sliced
    obtain ⟨⟨rest, rfl⟩, rfl⟩ := sliceTo_eq_some.mp first
    obtain ⟨⟨front, _⟩, cut, rfl⟩ := Option.map_eq_some_iff.mp second
    obtain ⟨rfl, rfl⟩ := eq_of_cutAt cut
    exact ⟨front, rest, rfl, rfl, (byteLength_append _ _).symm⟩
  · rintro ⟨front, rest, rfl, rfl, rfl⟩
    exact slice_append front middle rest

/-! ## Searching for a text -/

/-- The byte at which a text first occurs. -/
def findText (pattern text : List Char) : Option Nat :=
  (Text.splitOnce pattern text).map fun sides => byteLength sides.1

/-- What stands between the first opening text and the next closing one; `none` is a panic. -/
def between (opening closing text : List Char) : Option (Option (List Char)) :=
  match findText opening text with
  | none => some none
  | some start =>
    (sliceFrom text (start + byteLength opening)).bind fun rest =>
      match findText closing rest with
      | none => some none
      | some stop =>
        (slice text (start + byteLength opening) (start + byteLength opening + stop)).map some

/-- What is found is sliced out without a panic. -/
theorem between_eq (opening closing text : List Char) :
    between opening closing text = some ((Text.splitOnce opening text).bind fun sides =>
      (Text.splitOnce closing sides.2).map Prod.fst) := by
  rw [between, findText]
  cases first : Text.splitOnce opening text with
  | none => rfl
  | some sides =>
    obtain ⟨front, rest⟩ := sides
    rw [Text.splitOnce_eq_some first, Option.map_some, Option.bind_some]
    dsimp only
    rw [← byteLength_append, ← List.append_assoc, sliceFrom_append, Option.bind_some, findText]
    cases second : Text.splitOnce closing rest with
    | none => rfl
    | some sides =>
      obtain ⟨middle, after⟩ := sides
      rw [Text.splitOnce_eq_some second, Option.map_some, Option.map_some, ← List.append_assoc]
      dsimp only
      rw [slice_append, Option.map_some]

/-! ## Cuts by characters -/

theorem getElem?_charIndices (byte : Nat) (text : List Char) (number : Nat) :
    ((charIndices byte text)[number]?.map Prod.fst) =
      if number < text.length then some (byte + byteLength (text.take number)) else none := by
  induction text generalizing byte number with
  | nil => simp [charIndices]
  | cons c text ih =>
    cases number with
    | zero => simp [charIndices, byteLength]
    | succ number =>
      simp only [charIndices, List.getElem?_cons_succ, ih, List.length_cons,
        Nat.add_lt_add_iff_right, List.take_succ_cons, byteLength, Nat.add_assoc]

theorem byteOfChar_eq (text : List Char) (number : Nat) :
    byteOfChar text number = byteLength (text.take number) := by
  rw [byteOfChar, getElem?_charIndices]
  split
  · exact Nat.zero_add _
  · rw [List.take_of_length_le (by omega)]
    rfl

/-- The cut before a character is the cut by characters. -/
theorem cutAt_byteOfChar (text : List Char) (number : Nat) :
    cutAt text (byteOfChar text number) = some (text.take number, text.drop number) := by
  rw [cutAt_eq_some, byteOfChar_eq]
  exact ⟨(List.take_append_drop number text).symm, rfl⟩

@[simp] theorem sliceTo_byteOfChar (text : List Char) (number : Nat) :
    sliceTo text (byteOfChar text number) = some (text.take number) := by
  rw [sliceTo, cutAt_byteOfChar, Option.map_some]

@[simp] theorem sliceFrom_byteOfChar (text : List Char) (number : Nat) :
    sliceFrom text (byteOfChar text number) = some (text.drop number) := by
  rw [sliceFrom, cutAt_byteOfChar, Option.map_some]

theorem find?_charIndices {ch : Char} (absent : ch ∉ front) (byte : Nat) (rest : List Char) :
    ((charIndices byte (front ++ ch :: rest)).find? fun entry => entry.2 = ch) =
      some (byte + byteLength front, ch) := by
  induction front generalizing byte with
  | nil => simp [charIndices, byteLength]
  | cons c front ih =>
    have other : c ≠ ch := fun same => absent (same ▸ List.mem_cons_self)
    rw [List.cons_append, charIndices, List.find?_cons_of_neg (by simpa using other),
      ih (fun later => absent (List.mem_cons_of_mem c later)), byteLength, Nat.add_assoc]

theorem find_append {ch : Char} (absent : ch ∉ front) (rest : List Char) :
    find ch (front ++ ch :: rest) = some (byteLength front) := by
  rw [find, find?_charIndices absent, Option.map_some, Nat.zero_add]

theorem find_of_notMem {ch : Char} (absent : ch ∉ text) : find ch text = none := by
  have none_ : ∀ byte, ((charIndices byte text).find? fun entry => entry.2 = ch) = none := by
    induction text with
    | nil => exact fun _ => rfl
    | cons c text ih =>
      intro byte
      have other : c ≠ ch := fun same => absent (same ▸ List.mem_cons_self)
      rw [charIndices, List.find?_cons_of_neg (by simpa using other)]
      exact ih (fun later => absent (List.mem_cons_of_mem c later)) _
  rw [find, none_, Option.map_none]

/-- Where a character is found it is. -/
theorem exists_of_find {ch : Char} {start : Nat} (found : find ch text = some start) :
    ∃ front rest, text = front ++ ch :: rest ∧ start = byteLength front := by
  by_cases member : ch ∈ text
  · obtain ⟨front, rest, rfl, absent⟩ := List.eq_append_cons_of_mem member
    rw [find_append absent] at found
    exact ⟨front, rest, rfl, (Option.some.inj found).symm⟩
  · rw [find_of_notMem member] at found
    cases found

/-! ## Pages -/

variable {α : Type*} {page : Nat → Option (List α)} {size start : Nat} {text : List α}

/-- Pages are read one after the other from a place on until one is empty. -/
inductive PagesRead (page : Nat → Option (List α)) (size : Nat) : Nat → List α → Prop
  | done {start : Nat} (empty : page start = some []) : PagesRead page size start []
  | next {start : Nat} {first rest : List α} (nonempty : first ≠ [])
      (read : page start = some first) (others : PagesRead page size (start + size) rest) :
      PagesRead page size start (first ++ rest)

theorem PagesRead.unique {first second : List α} (pages : PagesRead page size start first)
    (again : PagesRead page size start second) : first = second := by
  induction pages generalizing second with
  | done empty =>
    cases again with
    | done => rfl
    | next nonempty read => exact absurd (Option.some.inj (read.symm.trans empty)) nonempty
  | next nonempty read _ ih =>
    cases again with
    | done empty => exact absurd (Option.some.inj (read.symm.trans empty)) nonempty
    | next _ read' others' =>
      rw [Option.some.inj (read.symm.trans read'), ih others']

/-- From any place on, the pages are what remains of the text there. -/
theorem pagesRead_drop (windows : ∀ start, page start = some ((text.drop start).take size))
    (positive : 0 < size) (start : Nat) : PagesRead page size start (text.drop start) := by
  by_cases past : text.length ≤ start
  · rw [List.drop_of_length_le past]
    refine .done ?_
    rw [windows, List.drop_of_length_le past, List.take_nil]
  · have others := pagesRead_drop windows positive (start + size)
    rw [← List.take_append_drop size (text.drop start), List.drop_drop]
    refine .next ?_ (windows start) others
    rw [← List.length_pos_iff, List.length_take, List.length_drop]
    omega
termination_by text.length - start

/-- The pages from the beginning on are the whole text, and nothing else. -/
theorem pagesRead_iff (windows : ∀ start, page start = some ((text.drop start).take size))
    (positive : 0 < size) {read : List α} : PagesRead page size 0 read ↔ read = text := by
  have all : PagesRead page size 0 text := pagesRead_drop windows positive 0
  refine ⟨fun pages => pages.unique all, ?_⟩
  rintro rfl
  exact all

end UHorse.Lib.Utf8Slices
