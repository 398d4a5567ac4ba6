import Mathlib.Algebra.BigOperators.Group.List.Basic
import Mathlib.Algebra.GroupWithZero.Nat
import UHorse.Lib.Scanning

/-!
# Common Event Format

A reader of lines of the Common Event Format. A line has seven header fields, each with a bar
behind it, and an extension of keys with values. In the header a backslash stands before a bar or
a backslash; in a value it stands before an equals sign or a backslash and in the marks of line
breaks. A value goes on to the last blank before the next equals sign. Breaks in a header, unknown
escapes, carriage returns and values without a key are malformed.

Lines that are written as they are come back just if no header field holds a bar, a backslash or a
break and no value an equals sign, a backslash or a break.
-/

namespace UHorse.Lib.Cef

abbrev Pair := List Char × List Char

structure Line where
  header : List (List Char)
  extension : List Pair

inductive Stage
  | header
  | headerEscape
  | extension
  | extensionEscape

structure Reader where
  stage : Stage
  /-- What has been read behind the last mark. -/
  text : List Char
  header : List (List Char)
  pairs : List Pair
  key : Option (List Char)
  lines : List Line

/-- The text before the last blank, and the text behind it. -/
def cutKey : List Char → Option Pair
  | [] => none
  | c :: rest =>
    match cutKey rest with
    | some (value, key) => some (c :: value, key)
    | none => if c = ' ' then some ([], rest) else none

/-- The first field of a header names the format. -/
def opens (header : List (List Char)) (field : List Char) : Bool :=
  !header.isEmpty || ['C', 'E', 'F', ':'].isPrefixOf field

namespace Reader

def start (lines : List Line) : Reader := ⟨.header, [], [], [], none, lines⟩

def empty : Reader := start []

def turn (reader : Reader) (stage : Stage) : Reader := { reader with stage }

def push (reader : Reader) (stage : Stage) (c : Char) : Reader :=
  { reader with stage, text := reader.text ++ [c] }

def endField (reader : Reader) : Reader :=
  { reader with
    stage := if reader.header.length + 1 = 7 then .extension else .header
    text := []
    header := reader.header ++ [reader.text] }

def endKey (reader : Reader) : Option Reader :=
  match reader.key with
  | none =>
    if reader.text.isEmpty || reader.text.contains ' ' then none
    else some { reader with key := some reader.text, text := [] }
  | some key =>
    match cutKey reader.text with
    | none => none
    | some (value, next) =>
      if next.isEmpty then none
      else some { reader with
        text := [], pairs := reader.pairs ++ [(key, value)], key := some next }

def endLine (reader : Reader) : Option Reader :=
  match reader.key with
  | none =>
    if reader.text.isEmpty then some (start (reader.lines ++ [⟨reader.header, reader.pairs⟩]))
    else none
  | some key =>
    some (start (reader.lines ++ [⟨reader.header, reader.pairs ++ [(key, reader.text)]⟩]))

def step (reader : Reader) (c : Char) : Option Reader :=
  match reader.stage with
  | .header =>
    if c = '|' then if opens reader.header reader.text then some reader.endField else none
    else if c = '\\' then some (reader.turn .headerEscape)
    else if c = '\n' ∨ c = '\r' then none
    else some (reader.push .header c)
  | .headerEscape => if c = '|' ∨ c = '\\' then some (reader.push .header c) else none
  | .extension =>
    if c = '=' then reader.endKey
    else if c = '\\' then some (reader.turn .extensionEscape)
    else if c = '\n' then reader.endLine
    else if c = '\r' then none
    else some (reader.push .extension c)
  | .extensionEscape =>
    if c = '=' ∨ c = '\\' then some (reader.push .extension c)
    else if c = 'n' then some (reader.push .extension '\n')
    else if c = 'r' then some (reader.push .extension '\r')
    else none

def finish (reader : Reader) : Option (List Line) :=
  match reader.stage with
  | .header => if reader.header.isEmpty && reader.text.isEmpty then some reader.lines else none
  | .extension => reader.endLine.map lines
  | .headerEscape | .extensionEscape => none

end Reader

def read (text : List Char) : Option (List Line) :=
  (text.foldlM Reader.step .empty).bind Reader.finish

/-- The pairs behind the first one, as they are written without escapes. -/
def further : List Pair → List Char
  | [] => ['\n']
  | (key, value) :: rest => ' ' :: (key ++ '=' :: (value ++ further rest))

def pairsText : List Pair → List Char
  | [] => ['\n']
  | (key, value) :: rest => key ++ '=' :: (value ++ further rest)

/-- A line as it is written without escapes. -/
def Line.text (line : Line) : List Char :=
  line.header.flatMap (fun field => field ++ ['|']) ++ pairsText line.extension

/-- What a line of the format has whatever its texts are. -/
structure Line.Formed (line : Line) : Prop where
  seven : line.header.length = 7
  opens : ∀ field ∈ line.header.head?, opens [] field = true
  nonempty : line.extension ≠ []
  keys : ∀ pair ∈ line.extension, pair.1 ≠ [] ∧ ' ' ∉ pair.1

def isHeaderPlain (c : Char) : Bool := c ≠ '|' && c ≠ '\\' && c ≠ '\n' && c ≠ '\r'

def isValuePlain (c : Char) : Bool := c ≠ '=' && c ≠ '\\' && c ≠ '\n' && c ≠ '\r'

/-- The header field needs no escapes. -/
def HeaderPlain (field : List Char) : Prop := ∀ c ∈ field, isHeaderPlain c = true

/-- The text of an extension needs no escapes. -/
def ValuePlain (text : List Char) : Prop := ∀ c ∈ text, isValuePlain c = true

instance (field : List Char) : Decidable (HeaderPlain field) :=
  List.decidableBAll _ field

instance (text : List Char) : Decidable (ValuePlain text) :=
  List.decidableBAll _ text

def PairPlain (pair : Pair) : Prop := ValuePlain pair.1 ∧ ValuePlain pair.2

structure Line.Plain (line : Line) : Prop where
  header : ∀ field ∈ line.header, HeaderPlain field
  extension : ∀ pair ∈ line.extension, PairPlain pair

theorem isHeaderPlain_iff {c : Char} :
    isHeaderPlain c = true ↔ c ≠ '|' ∧ c ≠ '\\' ∧ ¬ (c = '\n' ∨ c = '\r') := by
  simp [isHeaderPlain, and_assoc]

theorem isValuePlain_iff {c : Char} :
    isValuePlain c = true ↔ c ≠ '=' ∧ c ≠ '\\' ∧ c ≠ '\n' ∧ c ≠ '\r' := by
  simp [isValuePlain, and_assoc]

theorem ValuePlain.parts {x y : List Char} (plain : ValuePlain (x ++ ' ' :: y)) :
    ValuePlain x ∧ ValuePlain y :=
  ⟨fun c member => plain c (List.mem_append_left _ member),
    fun c member => plain c (List.mem_append_right x (List.mem_cons_of_mem _ member))⟩

theorem cutKey_eq_none {text : List Char} : cutKey text = none ↔ ' ' ∉ text := by
  induction text with
  | nil => simp [cutKey]
  | cons c rest ih =>
    rw [cutKey]
    cases cut : cutKey rest with
    | some pair =>
      have inside : ' ' ∈ rest := by
        by_contra absent
        rw [ih.mpr absent] at cut
        cases cut
      simp [inside]
    | none =>
      have absent := ih.mp cut
      by_cases blank : c = ' '
      · simp [blank]
      · simp [blank, absent, Ne.symm blank]

theorem cutKey_append {key : List Char} (free : ' ' ∉ key) (value : List Char) :
    cutKey (value ++ ' ' :: key) = some (value, key) := by
  induction value with
  | nil => rw [List.nil_append, cutKey, cutKey_eq_none.mpr free, if_pos rfl]
  | cons c value ih => rw [List.cons_append, cutKey, ih]

theorem eq_of_cutKey {text value key : List Char} (cut : cutKey text = some (value, key)) :
    text = value ++ ' ' :: key := by
  induction text generalizing value with
  | nil => cases cut
  | cons c rest ih =>
    rw [cutKey] at cut
    cases later : cutKey rest with
    | some pair =>
      rw [later] at cut
      cases cut
      rw [ih later, List.cons_append]
    | none =>
      rw [later] at cut
      dsimp only at cut
      split at cut
      · next blank =>
          cases cut
          rw [blank, List.nil_append]
      · cases cut

/-! ## How much is read out of a text -/

def headerSize (header : List (List Char)) : Nat :=
  (header.map fun field => field.length + 1).sum

def pairsSize (pairs : List Pair) : Nat :=
  (pairs.map fun pair => pair.1.length + pair.2.length + 2).sum

/-- The length of a line that is written without escapes. -/
def Line.size (line : Line) : Nat := headerSize line.header + pairsSize line.extension

def sizes (lines : List Line) : Nat := (lines.map Line.size).sum

theorem headerSize_concat (header : List (List Char)) (field : List Char) :
    headerSize (header ++ [field]) = headerSize header + (field.length + 1) := by
  rw [headerSize, List.map_append, List.sum_append, List.map_singleton, List.sum_singleton,
    headerSize]

theorem pairsSize_concat (pairs : List Pair) (key value : List Char) :
    pairsSize (pairs ++ [(key, value)]) = pairsSize pairs + (key.length + value.length + 2) := by
  rw [pairsSize, List.map_append, List.sum_append, List.map_singleton, List.sum_singleton,
    pairsSize]

theorem pairsSize_cons (key value : List Char) (rest : List Pair) :
    pairsSize ((key, value) :: rest) = key.length + value.length + 2 + pairsSize rest := by
  rw [pairsSize, List.map_cons, List.sum_cons, pairsSize]

theorem sizes_concat (lines : List Line) (line : Line) :
    sizes (lines ++ [line]) = sizes lines + line.size := by
  rw [sizes, List.map_append, List.sum_append, List.map_singleton, List.sum_singleton, sizes]

theorem length_header (header : List (List Char)) :
    (header.flatMap fun field => field ++ ['|']).length = headerSize header := by
  induction header with
  | nil => rfl
  | cons field header ih =>
    rw [List.flatMap_cons, List.length_append, ih, List.length_append, List.length_singleton,
      headerSize, headerSize, List.map_cons, List.sum_cons]

theorem length_further (pairs : List Pair) : (further pairs).length = pairsSize pairs + 1 := by
  induction pairs with
  | nil => rfl
  | cons pair rest ih =>
    obtain ⟨key, value⟩ := pair
    rw [further, List.length_cons, List.length_append, List.length_cons, List.length_append, ih,
      pairsSize_cons]
    omega

theorem length_pairsText {pairs : List Pair} (nonempty : pairs ≠ []) :
    (pairsText pairs).length = pairsSize pairs := by
  cases pairs with
  | nil => exact absurd rfl nonempty
  | cons pair rest =>
    obtain ⟨key, value⟩ := pair
    rw [pairsText, List.length_append, List.length_cons, List.length_append, length_further,
      pairsSize_cons]
    omega

theorem length_texts {lines : List Line} (formed : ∀ line ∈ lines, line.Formed) :
    (lines.flatMap Line.text).length = sizes lines := by
  induction lines with
  | nil => rfl
  | cons line lines ih =>
    have first := formed line List.mem_cons_self
    rw [List.flatMap_cons, List.length_append, Line.text, List.length_append, length_header,
      length_pairsText first.nonempty,
      ih fun later member => formed later (List.mem_cons_of_mem line member), sizes, sizes,
      List.map_cons, List.sum_cons, Line.size]

theorem exists_further (pairs : List Pair) : ∃ front, further pairs = front ++ ['\n'] := by
  induction pairs with
  | nil => exact ⟨[], rfl⟩
  | cons pair rest ih =>
    obtain ⟨key, value⟩ := pair
    obtain ⟨front, same⟩ := ih
    exact ⟨' ' :: (key ++ '=' :: (value ++ front)), by rw [further, same]; simp⟩

theorem exists_text (line : Line) : ∃ front, line.text = front ++ ['\n'] := by
  have ends : ∃ front, pairsText line.extension = front ++ ['\n'] := by
    cases line.extension with
    | nil => exact ⟨[], rfl⟩
    | cons pair rest =>
      obtain ⟨key, value⟩ := pair
      obtain ⟨front, same⟩ := exists_further rest
      exact ⟨key ++ '=' :: (value ++ front), by rw [pairsText, same]; simp⟩
  obtain ⟨front, same⟩ := ends
  exact ⟨line.header.flatMap (fun field => field ++ ['|']) ++ front, by
    rw [Line.text, same, List.append_assoc]⟩

namespace Reader

def keySize : Option (List Char) → Nat
  | none => 0
  | some key => key.length + 1

def weight (reader : Reader) : Nat :=
  sizes reader.lines + headerSize reader.header + pairsSize reader.pairs + keySize reader.key +
    reader.text.length

/-- Nothing that was read came out of an escape. -/
structure Clean (reader : Reader) : Prop where
  text : (reader.stage = .header ∧ HeaderPlain reader.text) ∨
    (reader.stage = .extension ∧ ValuePlain reader.text)
  header : ∀ field ∈ reader.header, HeaderPlain field
  pairs : ∀ pair ∈ reader.pairs, PairPlain pair
  key : ∀ key ∈ reader.key, ValuePlain key
  lines : ∀ line ∈ reader.lines, line.Plain

variable {reader next : Reader} {c : Char}

theorem weight_start (lines : List Line) : (start lines).weight = sizes lines := rfl

theorem weight_turn (reader : Reader) (stage : Stage) :
    (reader.turn stage).weight = reader.weight := rfl

theorem weight_push (reader : Reader) (stage : Stage) (c : Char) :
    (reader.push stage c).weight = reader.weight + 1 := by
  rw [weight, push, List.length_append, List.length_singleton, ← Nat.add_assoc, weight]

theorem weight_endField (reader : Reader) : reader.endField.weight = reader.weight + 1 := by
  rw [weight, endField, headerSize_concat, weight]
  dsimp only [List.length_nil]
  omega

/-- What the end of a key does: the text is the first key, or a value with the next key. -/
theorem endKey_cases (ends : reader.endKey = some next) :
    (reader.key = none ∧ next = { reader with key := some reader.text, text := [] }) ∨
      ∃ key value name, reader.key = some key ∧ reader.text = value ++ ' ' :: name ∧
        next = { reader with
          text := [], pairs := reader.pairs ++ [(key, value)], key := some name } := by
  unfold endKey at ends
  split at ends
  · next keyless =>
      split at ends
      · cases ends
      · exact .inl ⟨keyless, (Option.some.inj ends).symm⟩
  · next key found =>
      split at ends
      · cases ends
      · next value name cut =>
          split at ends
          · cases ends
          · exact .inr ⟨key, value, name, found, eq_of_cutKey cut, (Option.some.inj ends).symm⟩

theorem endLine_cases (ends : reader.endLine = some next) :
    (reader.key = none ∧ next = start (reader.lines ++ [⟨reader.header, reader.pairs⟩])) ∨
      ∃ key, reader.key = some key ∧
        next = start (reader.lines ++ [⟨reader.header, reader.pairs ++ [(key, reader.text)]⟩]) := by
  unfold endLine at ends
  split at ends
  · next keyless =>
      split at ends
      · exact .inl ⟨keyless, (Option.some.inj ends).symm⟩
      · cases ends
  · next key found => exact .inr ⟨key, found, (Option.some.inj ends).symm⟩

/-- What a step can do. Outside of escapes, only plain characters are added to a text. -/
theorem step_cases (takes : reader.step c = some next) :
    (∃ stage, next = reader.turn stage) ∨
      (∃ stage d, next = reader.push stage d ∧
        (reader.stage = .header → stage = .header ∧ isHeaderPlain d = true) ∧
        (reader.stage = .extension → stage = .extension ∧ isValuePlain d = true)) ∨
      (reader.stage = .header ∧ next = reader.endField) ∨
      (reader.stage = .extension ∧ reader.endKey = some next) ∨
      (reader.stage = .extension ∧ reader.endLine = some next) := by
  unfold step at takes
  split at takes
  · next here =>
      split at takes
      · split at takes
        · exact .inr (.inr (.inl ⟨here, (Option.some.inj takes).symm⟩))
        · cases takes
      · next bar =>
          split at takes
          · exact .inl ⟨_, (Option.some.inj takes).symm⟩
          · next backslash =>
              split at takes
              · cases takes
              · next breaks =>
                  refine .inr (.inl ⟨_, c, (Option.some.inj takes).symm, fun _ => ⟨rfl,
                    isHeaderPlain_iff.mpr ⟨bar, backslash, breaks⟩⟩, fun other => ?_⟩)
                  rw [here] at other
                  cases other
  · next here =>
      split at takes
      · refine .inr (.inl ⟨_, _, (Option.some.inj takes).symm, fun other => ?_, fun other => ?_⟩)
        · rw [here] at other
          cases other
        · rw [here] at other
          cases other
      · cases takes
  · next here =>
      split at takes
      · exact .inr (.inr (.inr (.inl ⟨here, takes⟩)))
      · next equals =>
          split at takes
          · exact .inl ⟨_, (Option.some.inj takes).symm⟩
          · next backslash =>
              split at takes
              · exact .inr (.inr (.inr (.inr ⟨here, takes⟩)))
              · next feed =>
                  split at takes
                  · cases takes
                  · next ret =>
                      refine .inr (.inl ⟨_, c, (Option.some.inj takes).symm, fun other => ?_,
                        fun _ => ⟨rfl, isValuePlain_iff.mpr ⟨equals, backslash, feed, ret⟩⟩⟩)
                      rw [here] at other
                      cases other
  · next here =>
      have pushed : ∃ d, next = reader.push .extension d := by
        split at takes
        · exact ⟨_, (Option.some.inj takes).symm⟩
        · split at takes
          · exact ⟨_, (Option.some.inj takes).symm⟩
          · split at takes
            · exact ⟨_, (Option.some.inj takes).symm⟩
            · cases takes
      obtain ⟨d, same⟩ := pushed
      refine .inr (.inl ⟨_, d, same, fun other => ?_, fun other => ?_⟩) <;>
        rw [here] at other <;> cases other

theorem weight_endKey (ends : reader.endKey = some next) : next.weight = reader.weight + 1 := by
  rcases endKey_cases ends with ⟨keyless, rfl⟩ | ⟨key, value, name, found, text, rfl⟩
  · rw [weight, weight, keyless]
    dsimp only [keySize, List.length_nil]
    omega
  · rw [weight, weight, found, text, pairsSize_concat]
    simp only [keySize, List.length_nil, List.length_append, List.length_cons]
    omega

theorem weight_endLine (ends : reader.endLine = some next) : next.weight ≤ reader.weight + 1 := by
  rcases endLine_cases ends with ⟨keyless, rfl⟩ | ⟨key, found, rfl⟩
  · rw [weight_start, sizes_concat, Line.size, weight]
    dsimp only
    omega
  · rw [weight_start, sizes_concat, Line.size, pairsSize_concat, weight, found]
    dsimp only [keySize]
    omega

theorem Clean.value (clean : reader.Clean) (here : reader.stage = .extension) :
    ValuePlain reader.text := by
  rcases clean.text with ⟨other, -⟩ | ⟨-, plain⟩
  · rw [here] at other
    cases other
  · exact plain

theorem Clean.field (clean : reader.Clean) (here : reader.stage = .header) :
    HeaderPlain reader.text := by
  rcases clean.text with ⟨-, plain⟩ | ⟨other, -⟩
  · exact plain
  · rw [here] at other
    cases other

theorem clean_start {lines : List Line} (plain : ∀ line ∈ lines, line.Plain) :
    (start lines).Clean where
  text := .inl ⟨rfl, fun _ member => absurd member List.not_mem_nil⟩
  header _ member := absurd member List.not_mem_nil
  pairs _ member := absurd member List.not_mem_nil
  key _ found := by cases found
  lines := plain

theorem Clean.push {stage : Stage} (clean : reader.Clean)
    (inHeader : reader.stage = .header → stage = .header ∧ isHeaderPlain c = true)
    (inValue : reader.stage = .extension → stage = .extension ∧ isValuePlain c = true) :
    (reader.push stage c).Clean where
  text := by
    rcases clean.text with ⟨here, plain⟩ | ⟨here, plain⟩
    · obtain ⟨rfl, isPlain⟩ := inHeader here
      refine .inl ⟨rfl, fun d member => ?_⟩
      rcases List.mem_append.mp member with before | last
      · exact plain d before
      · exact List.mem_singleton.mp last ▸ isPlain
    · obtain ⟨rfl, isPlain⟩ := inValue here
      refine .inr ⟨rfl, fun d member => ?_⟩
      rcases List.mem_append.mp member with before | last
      · exact plain d before
      · exact List.mem_singleton.mp last ▸ isPlain
  header := clean.header
  pairs := clean.pairs
  key := clean.key
  lines := clean.lines

theorem Clean.endField (clean : reader.Clean) (here : reader.stage = .header) :
    reader.endField.Clean where
  text := by
    have nothing : HeaderPlain [] := fun _ member => absurd member List.not_mem_nil
    have nothing' : ValuePlain [] := fun _ member => absurd member List.not_mem_nil
    rw [Reader.endField]
    dsimp only
    split
    · exact .inr ⟨rfl, nothing'⟩
    · exact .inl ⟨rfl, nothing⟩
  header field member := by
    rcases List.mem_append.mp member with before | last
    · exact clean.header field before
    · rw [List.mem_singleton.mp last]
      exact clean.field here
  pairs := clean.pairs
  key := clean.key
  lines := clean.lines

theorem Clean.endKey (clean : reader.Clean) (here : reader.stage = .extension)
    (ends : reader.endKey = some next) : next.Clean := by
  have plain := clean.value here
  have nothing : ValuePlain [] := fun _ member => absurd member List.not_mem_nil
  rcases endKey_cases ends with ⟨-, rfl⟩ | ⟨key, value, name, found, text, rfl⟩
  · exact ⟨.inr ⟨here, nothing⟩, clean.header, clean.pairs,
      fun key same => Option.some.inj same ▸ plain, clean.lines⟩
  · rw [text] at plain
    refine ⟨.inr ⟨here, nothing⟩, clean.header, fun pair member => ?_,
      fun _ same => Option.some.inj same ▸ plain.parts.2, clean.lines⟩
    rcases List.mem_append.mp member with before | last
    · exact clean.pairs pair before
    · rw [List.mem_singleton.mp last]
      exact ⟨clean.key key found, plain.parts.1⟩

theorem Clean.endLine (clean : reader.Clean) (here : reader.stage = .extension)
    (ends : reader.endLine = some next) : next.Clean := by
  rcases endLine_cases ends with ⟨-, rfl⟩ | ⟨key, found, rfl⟩
  · refine clean_start fun line member => ?_
    rcases List.mem_append.mp member with before | last
    · exact clean.lines line before
    · rw [List.mem_singleton.mp last]
      exact ⟨clean.header, clean.pairs⟩
  · refine clean_start fun line member => ?_
    rcases List.mem_append.mp member with before | last
    · exact clean.lines line before
    · rw [List.mem_singleton.mp last]
      refine ⟨clean.header, fun pair inside => ?_⟩
      rcases List.mem_append.mp inside with earlier | final
      · exact clean.pairs pair earlier
      · rw [List.mem_singleton.mp final]
        exact ⟨clean.key key found, clean.value here⟩

theorem weighed : Weighed step weight Clean where
  bounded takes := by
    rcases step_cases takes with ⟨stage, rfl⟩ | ⟨stage, d, rfl, -⟩ | ⟨-, rfl⟩ | ⟨-, ends⟩ |
      ⟨-, ends⟩
    · rw [weight_turn]
      exact Nat.le_succ _
    · exact Nat.le_of_eq (weight_push _ _ _)
    · exact Nat.le_of_eq (weight_endField _)
    · exact Nat.le_of_eq (weight_endKey ends)
    · exact weight_endLine ends
  kept takes counts clean := by
    rcases step_cases takes with ⟨stage, rfl⟩ | ⟨stage, d, rfl, inHeader, inValue⟩ | ⟨here, rfl⟩ |
      ⟨here, ends⟩ | ⟨here, ends⟩
    · rw [weight_turn] at counts
      omega
    · exact clean.push inHeader inValue
    · exact clean.endField here
    · exact clean.endKey here ends
    · exact clean.endLine here ends

/-- If the lines have the size of the text, then no character was spent on escapes. -/
theorem clean_of_sizes {text : List Char} (reads : text.foldlM step empty = some reader)
    (full : text.length ≤ sizes reader.lines) : reader.Clean := by
  refine weighed.kept_run reads ?_ (clean_start fun _ member => absurd member List.not_mem_nil)
  have nothing : empty.weight = 0 := rfl
  rw [nothing, weight]
  omega

theorem lines_of_finish {lines : List Line} (takes : reader.step '\n' = some next)
    (finishes : next.finish = some lines) : next.lines = lines := by
  have ends : reader.endLine = some next := by
    unfold step at takes
    split at takes
    · cases takes
    · cases takes
    · exact takes
    · cases takes
  rcases endLine_cases ends with ⟨-, rfl⟩ | ⟨key, -, rfl⟩
  · exact Option.some.inj finishes
  · exact Option.some.inj finishes

/-! ## Reading plain lines -/

variable {header : List (List Char)} {lines : List Line} {pairs : List Pair}

theorem step_header {front : List Char} (plain : isHeaderPlain c = true) :
    step ⟨.header, front, header, [], none, lines⟩ c =
      some ⟨.header, front ++ [c], header, [], none, lines⟩ := by
  obtain ⟨bar, backslash, breaks⟩ := isHeaderPlain_iff.mp plain
  rw [step]
  dsimp only
  rw [if_neg bar, if_neg backslash, if_neg breaks, push]

theorem step_extension {front : List Char} {key : Option (List Char)}
    (plain : isValuePlain c = true) :
    step ⟨.extension, front, header, pairs, key, lines⟩ c =
      some ⟨.extension, front ++ [c], header, pairs, key, lines⟩ := by
  obtain ⟨equals, backslash, feed, ret⟩ := isValuePlain_iff.mp plain
  rw [step]
  dsimp only
  rw [if_neg equals, if_neg backslash, if_neg feed, if_neg ret, push]

theorem read_field {field : List Char} (plain : HeaderPlain field) :
    field.foldlM step ⟨.header, [], header, [], none, lines⟩ =
      some ⟨.header, field, header, [], none, lines⟩ :=
  foldlM_of_taken (fun front => Reader.mk .header front header [] none lines)
    (fun _ _ taken => step_header taken) plain []

theorem read_value {value : List Char} {key : Option (List Char)} (plain : ValuePlain value) :
    value.foldlM step ⟨.extension, [], header, pairs, key, lines⟩ =
      some ⟨.extension, value, header, pairs, key, lines⟩ :=
  foldlM_of_taken (fun front => Reader.mk .extension front header pairs key lines)
    (fun _ _ taken => step_extension taken) plain []

theorem read_header {fields : List (List Char)} (nonempty : fields ≠ [])
    (seven : header.length + fields.length = 7)
    (first : ∀ field ∈ fields.head?, opens header field = true)
    (plain : ∀ field ∈ fields, HeaderPlain field) :
    (fields.flatMap fun field => field ++ ['|']).foldlM step
        ⟨.header, [], header, [], none, lines⟩ =
      some ⟨.extension, [], header ++ fields, [], none, lines⟩ := by
  induction fields generalizing header with
  | nil => exact absurd rfl nonempty
  | cons field fields ih =>
    have bar : step ⟨.header, field, header, [], none, lines⟩ '|' =
        some (endField ⟨.header, field, header, [], none, lines⟩) := by
      rw [step]
      dsimp only
      rw [if_pos rfl, if_pos (first field rfl)]
    rw [List.flatMap_cons, List.foldlM_append, List.foldlM_append,
      read_field (plain field List.mem_cons_self)]
    refine Option.bind_eq_some_iff.mpr
      ⟨_, foldlM_cons_eq_some.mpr ⟨_, bar, List.foldlM_nil⟩, ?_⟩
    cases fields with
    | nil =>
      rw [List.length_singleton] at seven
      rw [endField, if_pos seven]
      rfl
    | cons other fields =>
      rw [List.length_cons, List.length_cons] at seven
      rw [endField, if_neg (by dsimp only; omega)]
      refine (ih (List.cons_ne_nil other fields) ?_ (fun _ _ => ?_)
        fun later member => plain later (List.mem_cons_of_mem field member)).trans ?_
      · dsimp only
        rw [List.length_append, List.length_singleton, List.length_cons]
        omega
      · simp [opens]
      · rw [List.append_assoc, List.singleton_append]

/-- Reading from a value on, with its key and the pairs before it known. -/
theorem read_further {rest : List Pair} {key value : List Char} (valuePlain : ValuePlain value)
    (keys : ∀ pair ∈ rest, pair.1 ≠ [] ∧ ' ' ∉ pair.1) (plain : ∀ pair ∈ rest, PairPlain pair) :
    (value ++ further rest).foldlM step ⟨.extension, [], header, pairs, some key, lines⟩ =
      some (start (lines ++ [⟨header, pairs ++ (key, value) :: rest⟩])) := by
  induction rest generalizing pairs key value with
  | nil =>
    rw [List.foldlM_append, read_value valuePlain]
    rfl
  | cons pair rest ih =>
    obtain ⟨name, next⟩ := pair
    obtain ⟨named, free⟩ := keys (name, next) List.mem_cons_self
    obtain ⟨namePlain, nextPlain⟩ := plain (name, next) List.mem_cons_self
    have both : ValuePlain (value ++ ' ' :: name) := by
      intro c member
      rcases List.mem_append.mp member with left | right
      · exact valuePlain c left
      · rcases List.mem_cons.mp right with rfl | inside
        · rfl
        · exact namePlain c inside
    have equals : step ⟨.extension, value ++ ' ' :: name, header, pairs, some key, lines⟩ '=' =
        some ⟨.extension, [], header, pairs ++ [(key, value)], some name, lines⟩ := by
      rw [step]
      dsimp only
      rw [if_pos rfl, endKey]
      dsimp only
      rw [cutKey_append free]
      dsimp only
      rw [if_neg (by rw [List.isEmpty_iff]; exact named)]
    have text : value ++ further ((name, next) :: rest) =
        (value ++ ' ' :: name) ++ '=' :: (next ++ further rest) := by
      rw [further, List.append_assoc, List.cons_append]
    rw [text, List.foldlM_append, read_value both]
    refine foldlM_cons_eq_some.mpr ⟨_, equals, ?_⟩
    rw [ih nextPlain (fun other member => keys other (List.mem_cons_of_mem _ member))
      fun other member => plain other (List.mem_cons_of_mem _ member), List.append_assoc,
      List.singleton_append]

theorem read_pairs {all : List Pair} (nonempty : all ≠ [])
    (keys : ∀ pair ∈ all, pair.1 ≠ [] ∧ ' ' ∉ pair.1) (plain : ∀ pair ∈ all, PairPlain pair) :
    (pairsText all).foldlM step ⟨.extension, [], header, [], none, lines⟩ =
      some (start (lines ++ [⟨header, all⟩])) := by
  cases all with
  | nil => exact absurd rfl nonempty
  | cons pair rest =>
    obtain ⟨key, value⟩ := pair
    obtain ⟨named, free⟩ := keys (key, value) List.mem_cons_self
    obtain ⟨keyPlain, valuePlain⟩ := plain (key, value) List.mem_cons_self
    have equals : step ⟨.extension, key, header, [], none, lines⟩ '=' =
        some ⟨.extension, [], header, [], some key, lines⟩ := by
      rw [step]
      dsimp only
      rw [if_pos rfl, endKey]
      dsimp only
      rw [if_neg (by simp [named, free])]
    rw [pairsText, List.foldlM_append, read_value keyPlain]
    refine foldlM_cons_eq_some.mpr ⟨_, equals, ?_⟩
    rw [read_further valuePlain (fun other member => keys other (List.mem_cons_of_mem _ member))
      fun other member => plain other (List.mem_cons_of_mem _ member), List.nil_append]

theorem read_line {line : Line} (formed : line.Formed) (plain : line.Plain) :
    line.text.foldlM step (start lines) = some (start (lines ++ [line])) := by
  have nonempty : line.header ≠ [] := by
    intro none
    have seven := formed.seven
    rw [none] at seven
    cases seven
  have count : ([] : List (List Char)).length + line.header.length = 7 := by rw [formed.seven]; rfl
  rw [Line.text, List.foldlM_append, start, read_header nonempty count formed.opens plain.header,
    List.nil_append]
  exact read_pairs formed.nonempty formed.keys plain.extension

theorem read_texts {more : List Line} (formed : ∀ line ∈ more, line.Formed)
    (plain : ∀ line ∈ more, line.Plain) :
    (more.flatMap Line.text).foldlM step (start lines) = some (start (lines ++ more)) := by
  induction more generalizing lines with
  | nil => rw [List.append_nil]; rfl
  | cons first more ih =>
    rw [List.flatMap_cons, List.foldlM_append,
      read_line (formed first List.mem_cons_self) (plain first List.mem_cons_self)]
    refine (ih (fun line member => formed line (List.mem_cons_of_mem first member))
      fun line member => plain line (List.mem_cons_of_mem first member)).trans ?_
    rw [List.append_assoc, List.singleton_append]

end Reader

/-- Lines that are written without escapes come back just if their texts need none. -/
theorem read_texts_iff {lines : List Line} (formed : ∀ line ∈ lines, line.Formed) :
    read (lines.flatMap Line.text) = some lines ↔ ∀ line ∈ lines, line.Plain := by
  constructor
  · intro reads
    rcases List.eq_nil_or_concat' lines with rfl | ⟨before, last, rfl⟩
    · exact fun _ member => absurd member List.not_mem_nil
    · obtain ⟨reader, scanned, finishes⟩ := Option.bind_eq_some_iff.mp reads
      have full := length_texts formed
      obtain ⟨front, ends⟩ := exists_text last
      have text : (before ++ [last]).flatMap Line.text =
          (before.flatMap Line.text ++ front) ++ ['\n'] := by
        rw [List.flatMap_append, List.flatMap_singleton, ends, List.append_assoc]
      have whole := scanned
      rw [text, List.foldlM_append] at scanned
      obtain ⟨middle, -, lastStep⟩ := Option.bind_eq_some_iff.mp scanned
      obtain ⟨_, takes, same⟩ := foldlM_cons_eq_some.mp lastStep
      cases same
      have found := Reader.lines_of_finish takes finishes
      have clean := Reader.clean_of_sizes whole (Nat.le_of_eq (by rw [full, found]))
      rw [← found]
      exact clean.lines
  · intro plain
    rw [read]
    exact Option.bind_eq_some_iff.mpr ⟨_, Reader.read_texts formed plain, rfl⟩

end UHorse.Lib.Cef
