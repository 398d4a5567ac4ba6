import Mathlib.Algebra.BigOperators.Group.List.Basic
import Mathlib.Algebra.GroupWithZero.Nat
import UHorse.Lib.Scanning

/-!
# Comma-separated values

A reader of the format of RFC 4180: fields with commas between them, records that end with a line
break, and fields in quotes, in which commas and line breaks stand for themselves and two quotes
for one. A quote inside a field that did not begin with one is malformed, and so is a carriage
return that no line feed follows. The last line break may be missing.

Fields that are written as they are come back just if none holds a comma, a quote or a break.
-/

namespace UHorse.Lib.Csv

abbrev Record := List (List Char)

inductive Stage
  | start
  | plain
  | quoted
  | closing
  | returned

structure Reader where
  stage : Stage
  field : List Char
  record : Record
  records : List Record

namespace Reader

def empty : Reader := ⟨.start, [], [], []⟩

def turn (reader : Reader) (stage : Stage) : Reader := { reader with stage }

def push (reader : Reader) (stage : Stage) (c : Char) : Reader :=
  { reader with stage, field := reader.field ++ [c] }

def endField (reader : Reader) : Reader :=
  { reader with stage := .start, field := [], record := reader.record ++ [reader.field] }

def endRecord (reader : Reader) : Reader :=
  ⟨.start, [], [], reader.records ++ [reader.record ++ [reader.field]]⟩

/-- What may follow a field, and what to do with another character. -/
def separated (reader : Reader) (c : Char) (otherwise : Option Reader) : Option Reader :=
  if c = ',' then some reader.endField
  else if c = '\n' then some reader.endRecord
  else if c = '\r' then some (reader.turn .returned)
  else otherwise

def step (reader : Reader) (c : Char) : Option Reader :=
  match reader.stage with
  | .start =>
    if c = '"' then some (reader.turn .quoted)
    else reader.separated c (some (reader.push .plain c))
  | .plain => reader.separated c (if c = '"' then none else some (reader.push .plain c))
  | .quoted => if c = '"' then some (reader.turn .closing) else some (reader.push .quoted c)
  | .closing => reader.separated c (if c = '"' then some (reader.push .quoted c) else none)
  | .returned => if c = '\n' then some reader.endRecord else none

def finish (reader : Reader) : Option (List Record) :=
  match reader.stage with
  | .start => some (if reader.record.isEmpty then reader.records else reader.endRecord.records)
  | .plain | .closing => some reader.endRecord.records
  | .quoted | .returned => none

end Reader

def read (text : List Char) : Option (List Record) :=
  (text.foldlM Reader.step .empty).bind Reader.finish

/-- A record as it is written without quotes. -/
def line : Record → List Char
  | [] => ['\n']
  | [field] => field ++ ['\n']
  | field :: next :: rest => field ++ ',' :: line (next :: rest)

def isPlain (c : Char) : Bool := c ≠ ',' && c ≠ '"' && c ≠ '\n' && c ≠ '\r'

/-- The field holds no mark of the format. -/
def Plain (field : List Char) : Prop := ∀ c ∈ field, isPlain c = true

instance (field : List Char) : Decidable (Plain field) :=
  List.decidableBAll _ field

theorem isPlain_iff {c : Char} : isPlain c = true ↔ c ≠ ',' ∧ c ≠ '"' ∧ c ≠ '\n' ∧ c ≠ '\r' := by
  simp [isPlain, and_assoc]

theorem Plain.append {x y : List Char} (first : Plain x) (second : Plain y) : Plain (x ++ y) := by
  intro c member
  rcases List.mem_append.mp member with left | right
  · exact first c left
  · exact second c right

theorem Plain.singleton {c : Char} (plain : isPlain c = true) : Plain [c] := by
  intro d member
  rw [List.mem_singleton.mp member]
  exact plain

/-! ## How much is read out of a text -/

/-- The length of a record that is written without quotes. -/
def size (record : Record) : Nat := (record.map fun field => field.length + 1).sum

def sizes (records : List Record) : Nat := (records.map size).sum

@[simp] theorem size_nil : size [] = 0 := rfl

theorem size_cons (field : List Char) (rest : Record) :
    size (field :: rest) = field.length + 1 + size rest := by
  rw [size, List.map_cons, List.sum_cons, size]

theorem size_append (front back : Record) : size (front ++ back) = size front + size back := by
  rw [size, List.map_append, List.sum_append, size, size]

theorem size_singleton (field : List Char) : size [field] = field.length + 1 := by
  rw [size, List.map_singleton, List.sum_singleton]

theorem sizes_append (front back : List Record) :
    sizes (front ++ back) = sizes front + sizes back := by
  rw [sizes, List.map_append, List.sum_append, sizes, sizes]

theorem sizes_singleton (record : Record) : sizes [record] = size record := by
  rw [sizes, List.map_singleton, List.sum_singleton]

theorem length_line {record : Record} (nonempty : record ≠ []) :
    (line record).length = size record := by
  induction record with
  | nil => exact absurd rfl nonempty
  | cons field rest ih =>
    cases rest with
    | nil => rw [line, List.length_append, List.length_singleton, size_singleton]
    | cons next rest =>
      rw [line, List.length_append, List.length_cons, ih (List.cons_ne_nil next rest),
        size_cons field]
      omega

theorem length_lines {records : List Record} (nonempty : ∀ record ∈ records, record ≠ []) :
    (records.flatMap line).length = sizes records := by
  induction records with
  | nil => rfl
  | cons record records ih =>
    rw [List.flatMap_cons, List.length_append, length_line (nonempty record List.mem_cons_self),
      ih fun later member => nonempty later (List.mem_cons_of_mem record member),
      ← List.singleton_append, sizes_append, sizes_singleton]

theorem exists_line (record : Record) : ∃ front, line record = front ++ ['\n'] := by
  induction record with
  | nil => exact ⟨[], rfl⟩
  | cons field rest ih =>
    cases rest with
    | nil => exact ⟨field, rfl⟩
    | cons next rest =>
      obtain ⟨front, same⟩ := ih
      refine ⟨field ++ ',' :: front, ?_⟩
      rw [line, same, List.append_assoc, List.cons_append]

namespace Reader

def weight (reader : Reader) : Nat :=
  sizes reader.records + size reader.record + reader.field.length

/-- Nothing that was read came out of quotes. -/
structure Clean (reader : Reader) : Prop where
  unquoted : reader.stage = .start ∨ reader.stage = .plain
  field : Plain reader.field
  record : ∀ field ∈ reader.record, Plain field
  records : ∀ record ∈ reader.records, ∀ field ∈ record, Plain field

variable {reader next : Reader} {c : Char}

@[simp] theorem weight_turn (reader : Reader) (stage : Stage) :
    (reader.turn stage).weight = reader.weight := rfl

@[simp] theorem weight_push (reader : Reader) (stage : Stage) (c : Char) :
    (reader.push stage c).weight = reader.weight + 1 := by
  rw [weight, push, List.length_append, List.length_singleton, ← Nat.add_assoc, weight]

@[simp] theorem weight_endField (reader : Reader) : reader.endField.weight = reader.weight + 1 := by
  rw [weight, endField, size_append, size_singleton, weight]
  dsimp only [List.length_nil]
  omega

@[simp] theorem weight_endRecord (reader : Reader) :
    reader.endRecord.weight = reader.weight + 1 := by
  rw [weight, endRecord, sizes_append, sizes_singleton, size_append, size_singleton, weight]
  dsimp only [size_nil, List.length_nil]
  omega

theorem Clean.push (clean : reader.Clean) (plain : isPlain c = true) :
    (reader.push .plain c).Clean :=
  ⟨.inr rfl, clean.field.append (.singleton plain), clean.record, clean.records⟩

theorem Clean.fields (clean : reader.Clean) :
    ∀ field ∈ reader.record ++ [reader.field], Plain field := by
  intro field member
  rcases List.mem_append.mp member with before | last
  · exact clean.record field before
  · rw [List.mem_singleton.mp last]
    exact clean.field

theorem Clean.endField (clean : reader.Clean) : reader.endField.Clean :=
  ⟨.inl rfl, fun _ member => absurd member List.not_mem_nil, clean.fields, clean.records⟩

theorem Clean.endRecord (clean : reader.Clean) : reader.endRecord.Clean := by
  refine ⟨.inl rfl, fun _ member => absurd member List.not_mem_nil,
    fun _ member => absurd member List.not_mem_nil, fun record member => ?_⟩
  rcases List.mem_append.mp member with before | last
  · exact clean.records record before
  · rw [List.mem_singleton.mp last]
    exact clean.fields

theorem separated_cases {otherwise : Option Reader}
    (takes : reader.separated c otherwise = some next) :
    (∃ stage, next = reader.turn stage) ∨ next = reader.endField ∨ next = reader.endRecord ∨
      (c ≠ ',' ∧ c ≠ '\n' ∧ c ≠ '\r') ∧ otherwise = some next := by
  rw [separated] at takes
  split at takes
  · exact .inr (.inl (Option.some.inj takes).symm)
  · next notComma =>
      split at takes
      · exact .inr (.inr (.inl (Option.some.inj takes).symm))
      · next notBreak =>
          split at takes
          · exact .inl ⟨_, (Option.some.inj takes).symm⟩
          · next notReturn => exact .inr (.inr (.inr ⟨⟨notComma, notBreak, notReturn⟩, takes⟩))

/-- What a step can do. Outside of quotes, only plain characters are added to a field. -/
theorem step_cases (takes : reader.step c = some next) :
    (∃ stage, next = reader.turn stage) ∨ next = reader.endField ∨ next = reader.endRecord ∨
      ∃ stage, next = reader.push stage c ∧
        (reader.stage = .start ∨ reader.stage = .plain → stage = .plain ∧ isPlain c = true) := by
  unfold step at takes
  split at takes
  · split at takes
    · exact .inl ⟨_, (Option.some.inj takes).symm⟩
    · next notQuote =>
        rcases separated_cases takes with mark | field | record | ⟨⟨comma, feed, ret⟩, pushed⟩
        · exact .inl mark
        · exact .inr (.inl field)
        · exact .inr (.inr (.inl record))
        · exact .inr (.inr (.inr ⟨_, (Option.some.inj pushed).symm, fun _ =>
            ⟨rfl, isPlain_iff.mpr ⟨comma, notQuote, feed, ret⟩⟩⟩))
  · rcases separated_cases takes with mark | field | record | ⟨⟨comma, feed, ret⟩, pushed⟩
    · exact .inl mark
    · exact .inr (.inl field)
    · exact .inr (.inr (.inl record))
    · split at pushed
      · cases pushed
      · next notQuote =>
          exact .inr (.inr (.inr ⟨_, (Option.some.inj pushed).symm, fun _ =>
            ⟨rfl, isPlain_iff.mpr ⟨comma, notQuote, feed, ret⟩⟩⟩))
  · next quoted =>
      split at takes
      · exact .inl ⟨_, (Option.some.inj takes).symm⟩
      · refine .inr (.inr (.inr ⟨_, (Option.some.inj takes).symm, fun outside => ?_⟩))
        rw [quoted] at outside
        rcases outside with here | here <;> cases here
  · next closing =>
      rcases separated_cases takes with mark | field | record | ⟨-, pushed⟩
      · exact .inl mark
      · exact .inr (.inl field)
      · exact .inr (.inr (.inl record))
      · split at pushed
        · refine .inr (.inr (.inr ⟨_, (Option.some.inj pushed).symm, fun outside => ?_⟩))
          rw [closing] at outside
          rcases outside with here | here <;> cases here
        · cases pushed
  · split at takes
    · exact .inr (.inr (.inl (Option.some.inj takes).symm))
    · cases takes

theorem weighed : Weighed step weight Clean where
  bounded takes := by
    rcases step_cases takes with ⟨stage, rfl⟩ | rfl | rfl | ⟨stage, rfl, -⟩
    · rw [weight_turn]
      exact Nat.le_succ _
    · exact Nat.le_of_eq (weight_endField _)
    · exact Nat.le_of_eq (weight_endRecord _)
    · exact Nat.le_of_eq (weight_push _ _ _)
  kept takes counts clean := by
    rcases step_cases takes with ⟨stage, rfl⟩ | rfl | rfl | ⟨stage, rfl, plain⟩
    · rw [weight_turn] at counts
      omega
    · exact clean.endField
    · exact clean.endRecord
    · obtain ⟨rfl, isPlain⟩ := plain clean.unquoted
      exact clean.push isPlain

theorem clean_empty : empty.Clean :=
  ⟨.inl rfl, fun _ member => absurd member List.not_mem_nil,
    fun _ member => absurd member List.not_mem_nil, fun _ member => absurd member List.not_mem_nil⟩

/-- If the records have the size of the text, then no character was spent on quotes. -/
theorem clean_of_sizes {text : List Char} (reads : text.foldlM step empty = some reader)
    (full : text.length ≤ sizes reader.records) : reader.Clean := by
  refine weighed.kept_run reads ?_ clean_empty
  have nothing : empty.weight = 0 := rfl
  rw [nothing, weight]
  omega

/-- Behind a line feed a reader is inside of quotes or behind a record. -/
theorem step_lineFeed (takes : reader.step '\n' = some next) :
    next.stage = .quoted ∨ next = reader.endRecord := by
  unfold step separated at takes
  split at takes
  · exact .inr (Option.some.inj takes).symm
  · exact .inr (Option.some.inj takes).symm
  · exact .inl (Option.some.inj takes ▸ rfl)
  · exact .inr (Option.some.inj takes).symm
  · exact .inr (Option.some.inj takes).symm

theorem records_of_finish {records : List Record} (takes : reader.step '\n' = some next)
    (finishes : next.finish = some records) : next.records = records := by
  rcases step_lineFeed takes with quoted | rfl
  · rw [finish, quoted] at finishes
    cases finishes
  · exact Option.some.inj finishes

/-! ## Reading plain fields -/

/-- A reader behind a part of a field that needs no quotes. -/
def within (record : Record) (records : List Record) (front : List Char) : Reader :=
  ⟨if front.isEmpty then .start else .plain, front, record, records⟩

variable {record : Record} {records : List Record}

theorem step_within {front : List Char} (plain : isPlain c = true) :
    (within record records front).step c = some (within record records (front ++ [c])) := by
  obtain ⟨comma, quote, feed, ret⟩ := isPlain_iff.mp plain
  cases front with
  | nil =>
    rw [within, List.isEmpty_nil, if_pos rfl]
    simp [step, separated, comma, quote, feed, ret, push, within]
  | cons first front =>
    simp [step, separated, comma, quote, feed, ret, push, within]

theorem step_within_comma (front : List Char) :
    (within record records front).step ',' = some (within (record ++ [front]) records []) := by
  cases front <;> rfl

theorem step_within_lineFeed (front : List Char) :
    (within record records front).step '\n' =
      some (within [] (records ++ [record ++ [front]]) []) := by
  cases front <;> rfl

theorem read_field {field : List Char} (plain : Plain field) :
    field.foldlM step (within record records []) = some (within record records field) :=
  foldlM_of_taken _ (fun _ _ isPlain => step_within isPlain) plain []

theorem read_line {rest : Record} (nonempty : rest ≠ []) (plain : ∀ field ∈ rest, Plain field) :
    (line rest).foldlM step (within record records []) =
      some (within [] (records ++ [record ++ rest]) []) := by
  induction rest generalizing record with
  | nil => exact absurd rfl nonempty
  | cons field rest ih =>
    have reads : field.foldlM step (within record records []) =
        some (within record records field) := read_field (plain field List.mem_cons_self)
    cases rest with
    | nil =>
      rw [line, List.foldlM_append, reads]
      exact foldlM_cons_eq_some.mpr ⟨_, step_within_lineFeed field, rfl⟩
    | cons next rest =>
      rw [line, List.foldlM_append, reads]
      refine foldlM_cons_eq_some.mpr ⟨_, step_within_comma field, ?_⟩
      rw [ih (List.cons_ne_nil next rest)
        fun other member => plain other (List.mem_cons_of_mem field member),
        List.append_assoc, List.singleton_append]

theorem read_lines {more : List Record} (nonempty : ∀ record ∈ more, record ≠ [])
    (plain : ∀ record ∈ more, ∀ field ∈ record, Plain field) :
    (more.flatMap line).foldlM step (within [] records []) =
      some (within [] (records ++ more) []) := by
  induction more generalizing records with
  | nil => rw [List.append_nil]; rfl
  | cons first more ih =>
    rw [List.flatMap_cons, List.foldlM_append,
      read_line (nonempty first List.mem_cons_self) (plain first List.mem_cons_self)]
    refine (ih (fun record member => nonempty record (List.mem_cons_of_mem first member))
      fun record member => plain record (List.mem_cons_of_mem first member)).trans ?_
    rw [List.append_assoc, List.nil_append, List.singleton_append]

end Reader

/-- Records that are written without quotes come back just if their fields need none. -/
theorem read_lines_iff {records : List Record} (nonempty : ∀ record ∈ records, record ≠ []) :
    read (records.flatMap line) = some records ↔
      ∀ record ∈ records, ∀ field ∈ record, Plain field := by
  constructor
  · intro reads
    rcases List.eq_nil_or_concat' records with rfl | ⟨before, last, rfl⟩
    · exact fun _ member => absurd member List.not_mem_nil
    · obtain ⟨reader, scanned, finishes⟩ := Option.bind_eq_some_iff.mp reads
      have full := length_lines nonempty
      obtain ⟨front, ends⟩ := exists_line last
      have text : (before ++ [last]).flatMap line = (before.flatMap line ++ front) ++ ['\n'] := by
        rw [List.flatMap_append, List.flatMap_singleton, ends, List.append_assoc]
      have whole := scanned
      rw [text, List.foldlM_append] at scanned
      obtain ⟨middle, -, lastStep⟩ := Option.bind_eq_some_iff.mp scanned
      obtain ⟨_, takes, same⟩ := foldlM_cons_eq_some.mp lastStep
      cases same
      have found := Reader.records_of_finish takes finishes
      have clean := Reader.clean_of_sizes whole (Nat.le_of_eq (by rw [full, found]))
      rw [← found]
      exact clean.records
  · intro plain
    rw [read]
    exact Option.bind_eq_some_iff.mpr ⟨_, Reader.read_lines nonempty plain, rfl⟩

example : read "id,name\n1,\"a,b\"\n".toList =
    some [["id".toList, "name".toList], ["1".toList, "a,b".toList]] := by decide

end UHorse.Lib.Csv
