import Mathlib.Data.Finset.Basic
import Mathlib.Order.Interval.Finset.Nat
import UHorse.Lib.Numerals
import UHorse.Lib.Text

/-!
# The fields of a cron expression

A field is a list of items, each `*`, a number or a range, with a positive step or without one. The
parser looks for a slash, a dash and commas in the whole field, in this order, so a list is read
only if it is one of plain numbers; and it takes ranges and steps as they come, whatever their order
and their size.
-/

namespace UHorse.Scheduler

open Lib.Numerals Lib.Text

/-- The first and the last value of a field. -/
structure FieldBounds where
  min : Nat
  max : Nat
  ordered : min ≤ max
  small : max < 2 ^ 32

def FieldBounds.Inside (bounds : FieldBounds) (value : Nat) : Prop :=
  bounds.min ≤ value ∧ value ≤ bounds.max

instance (bounds : FieldBounds) (value : Nat) : Decidable (bounds.Inside value) :=
  inferInstanceAs (Decidable (_ ∧ _))

/-- `UHorseError::ScheduleConflict`. -/
structure ScheduleConflict where
  message : List Char
deriving DecidableEq

structure CronField where
  values : Finset Nat
  isWildcard : Bool
  step : Option Nat
deriving DecidableEq

namespace CronParser

/-- `(start..=stop).step_by(step)`; `none` is the panic on the step 0. -/
def stepBy (start stop step : Nat) : Option (List Nat) :=
  if step = 0 then none
  else some (if start ≤ stop then List.range' start ((stop - start) / step + 1) step else [])

def conflict (message : String) (about : List Char) : ScheduleConflict :=
  ⟨message.toList ++ about⟩

/-- The two ends of a range; a text is cut around its first dash, which takes one byte. -/
def rangeEnds (startError endError : String) (about start stop : List Char) :
    Except ScheduleConflict (Nat × Nat) :=
  match uint32? start with
  | none => .error (conflict startError about)
  | some start =>
    match uint32? stop with
    | none => .error (conflict endError about)
    | some stop => .ok (start, stop)

/-- The values of a range that are within the bounds. -/
def within (bounds : FieldBounds) (values : List Nat) : Finset Nat :=
  (values.filter fun value => bounds.Inside value).toFinset

/-- The loop over the parts of a list. -/
def parseParts (bounds : FieldBounds) (values : Finset Nat) :
    List (List Char) → Except ScheduleConflict (Finset Nat)
  | [] => .ok values
  | part :: parts =>
    match splitOnce ['-'] part with
    | some (first, last) =>
      match rangeEnds "Invalid list range start: " "Invalid list range end: " part first
        last with
      | .error error => .error error
      | .ok (start, stop) =>
        parseParts bounds
          (values ∪ within bounds (List.range' start (stop + 1 - start))) parts
    | none =>
      match uint32? part with
      | none => .error (conflict "Invalid value: " part)
      | some value =>
        if bounds.Inside value then parseParts bounds (insert value values) parts
        else .error (conflict "Value " (value.repr.toList ++ " out of range (".toList ++
          bounds.min.repr.toList ++ "-".toList ++ bounds.max.repr.toList ++ ")".toList))

/-- The part of `parse_field` behind the steps, which reads the whole text again. -/
def parseUnstepped (expr : List Char) (bounds : FieldBounds) (step : Option Nat) :
    Except ScheduleConflict CronField :=
  match splitOnce ['-'] expr with
  | some (first, last) =>
    match rangeEnds "Invalid range start: " "Invalid range end: " expr first last with
    | .error error => .error error
    | .ok (start, stop) =>
      .ok ⟨within bounds (List.range' start (stop + 1 - start)), false, step⟩
  | none =>
    match parseParts bounds ∅ (expr.splitOn ',') with
    | .error error => .error error
    | .ok values => .ok ⟨values, false, step⟩

/-- `none` is a panic. -/
def parseField (expr : List Char) (bounds : FieldBounds) :
    Option (Except ScheduleConflict CronField) :=
  if expr = ['*'] then some (.ok ⟨Finset.Icc bounds.min bounds.max, true, none⟩)
  else
    match splitOnce ['/'] expr with
    | none => some (parseUnstepped expr bounds none)
    | some (base, stepText) =>
      match uint32? stepText with
      | none => some (.error (conflict "Invalid step value: " expr))
      | some step =>
        if base = ['*'] then
          (stepBy bounds.min bounds.max step).map fun values =>
            .ok ⟨values.toFinset, true, some step⟩
        else
          match splitOnce ['-'] base with
          | none => some (parseUnstepped expr bounds (some step))
          | some (first, last) =>
            match rangeEnds "Invalid range start: " "Invalid range end: " base first last with
            | .error error => some (.error error)
            | .ok (start, stop) =>
              (stepBy start stop step).map fun values =>
                .ok ⟨within bounds values, false, some step⟩

end CronParser

/-! ## The grammar -/

inductive CronBase
  | all
  | single (number : List Char)
  | range (first last : List Char)

structure CronItem where
  base : CronBase
  step : Option (List Char)

def CronBase.text : CronBase → List Char
  | all => ['*']
  | single number => number
  | range first last => first ++ '-' :: last

def CronItem.text (item : CronItem) : List Char :=
  item.base.text ++ item.step.elim [] fun step => '/' :: step

/-- The first and the last value of an item without its step, if its numbers are numbers within the
bounds and in their order. -/
def CronBase.ends (bounds : FieldBounds) : CronBase → Option (Nat × Nat)
  | all => some (bounds.min, bounds.max)
  | single number =>
    (natural? number).bind fun value => if bounds.Inside value then some (value, value) else none
  | range first last =>
    (natural? first).bind fun start => (natural? last).bind fun stop =>
      if bounds.min ≤ start ∧ start ≤ stop ∧ stop ≤ bounds.max then some (start, stop) else none

/-- How far an item with a step goes: a number begins a range up to the bound. -/
def CronBase.reach (bounds : FieldBounds) (last : Nat) : CronBase → Nat
  | single _ => bounds.max
  | _ => last

/-- The values of an item that is formed as it should be. -/
def CronItem.values (bounds : FieldBounds) (item : CronItem) : Option (Finset Nat) :=
  (item.base.ends bounds).bind fun ends =>
    match item.step with
    | none => some (Finset.Icc ends.1 ends.2)
    | some step =>
      (natural? step).bind fun step =>
        if step = 0 then none
        else some ((Finset.Icc ends.1 (item.base.reach bounds ends.2)).filter fun value =>
          step ∣ value - ends.1)

/-- The items make up the field. -/
structure Writes (bounds : FieldBounds) (items : List CronItem) (text : List Char) : Prop where
  nonempty : items ≠ []
  joined : text = [','].intercalate (items.map CronItem.text)
  formed : ∀ item ∈ items, (item.values bounds).isSome

/-- The union of what the items mean. -/
def Means (bounds : FieldBounds) (items : List CronItem) (values : Finset Nat) : Prop :=
  ∀ value, value ∈ values ↔ ∃ item ∈ items, ∃ among ∈ item.values bounds, value ∈ among

/-! ## Which texts are refused -/

/-- The field is anything but a plain star. -/
def CronField.restricted (field : CronField) : Bool := !(field.isWildcard && field.step.isNone)

/-- The values are within the bounds, and all of them are there without a restriction. -/
structure CronField.Within (field : CronField) (bounds : FieldBounds) : Prop where
  inside : ∀ value ∈ field.values, bounds.Inside value
  star : field.isWildcard = true → bounds.min ∈ field.values
  full : field.restricted = false → ∀ value, bounds.Inside value → value ∈ field.values

/-- A field that is no star is restricted. -/
theorem CronField.Within.of_not_isWildcard {field : CronField} {bounds : FieldBounds}
    (other : field.isWildcard = false) (inside : ∀ value ∈ field.values, bounds.Inside value) :
    field.Within bounds := by
  refine ⟨inside, fun marked => ?_, fun free => ?_⟩
  · rw [other] at marked
    cases marked
  · rw [restricted, other] at free
    cases free

namespace CronParser

/-- The shapes that are read as they come. -/
inductive Taken (bounds : FieldBounds) : List Char → Prop
  | stepped {step : List Char} (numeral : (uint32? step).isSome) : Taken bounds ('*' :: '/' :: step)
  | range {first last : List Char} (start : (uint32? first).isSome)
      (stop : (uint32? last).isSome) : Taken bounds (first ++ '-' :: last)
  | steppedRange {first last step : List Char} (start : (uint32? first).isSome)
      (stop : (uint32? last).isSome) (numeral : (uint32? step).isSome) :
      Taken bounds (first ++ '-' :: last ++ '/' :: step)
  | list {text : List Char}
      (each : ∀ part ∈ text.splitOn ',', ∃ value ∈ uint32? part, bounds.Inside value) :
      Taken bounds text

def Refused (bounds : FieldBounds) (text : List Char) : Prop :=
  ∃ error, parseField text bounds = some (.error error)

variable {bounds : FieldBounds} {text part : List Char} {values : Finset Nat}

/-- No numeral holds a letter other than digits and the plus sign. -/
theorem notMem_of_uint32? {c : Char} {value : Nat} (read : uint32? text = some value)
    (sign : c ≠ '+') (digit : c.isDigit = false) : c ∉ text := by
  intro member
  obtain same | isDigit := (digits_of_uint32? read).2.1 c member
  · exact sign same
  · rw [digit] at isDigit
    cases isDigit

theorem rangeEnds_eq_ok {startError endError : String} {about first last : List Char}
    {ends : Nat × Nat} : rangeEnds startError endError about first last = .ok ends ↔
      uint32? first = some ends.1 ∧ uint32? last = some ends.2 := by
  rw [rangeEnds]
  cases uint32? first with
  | none => simp
  | some start =>
    cases uint32? last with
    | none => simp
    | some stop => simp [Prod.ext_iff]

/-- A list of numerals within the bounds is read, and its values are theirs. -/
theorem parseParts_of_each (values : Finset Nat) {parts : List (List Char)}
    (each : ∀ part ∈ parts, ∃ value ∈ uint32? part, bounds.Inside value) :
    ∃ found, parseParts bounds values parts = .ok found ∧
      ∀ value, value ∈ found ↔ value ∈ values ∨ ∃ part ∈ parts, uint32? part = some value := by
  induction parts generalizing values with
  | nil => exact ⟨values, rfl, by simp⟩
  | cons part parts ih =>
    obtain ⟨value, read, inside⟩ := each part List.mem_cons_self
    have dashless : splitOnce ['-'] part = none :=
      splitOnce_singleton_eq_none.mpr (notMem_of_uint32? read (by decide) rfl)
    obtain ⟨found, rest, members⟩ := ih (insert value values)
      fun part member => each part (List.mem_cons_of_mem _ member)
    refine ⟨found, ?_, fun other => ?_⟩
    · rw [parseParts, dashless]
      simp only [Option.mem_def.mp read, if_pos inside, rest]
    · rw [members, Finset.mem_insert, List.exists_mem_cons_iff, Option.mem_def.mp read,
        Option.some.injEq, @eq_comm _ other, or_assoc, or_left_comm]

/-- A part that is no numeral within the bounds ends the loop, if no part is a range. -/
theorem parseParts_of_not_each (values : Finset Nat) {parts : List (List Char)}
    (dashless : ∀ part ∈ parts, '-' ∉ part)
    (other : ¬ ∀ part ∈ parts, ∃ value ∈ uint32? part, bounds.Inside value) :
    ∃ error, parseParts bounds values parts = .error error := by
  induction parts generalizing values with
  | nil => exact absurd (by simp) other
  | cons part parts ih =>
    have plain := splitOnce_singleton_eq_none.mpr (dashless part List.mem_cons_self)
    rw [parseParts, plain]
    cases read : uint32? part with
    | none => exact ⟨_, rfl⟩
    | some value =>
      by_cases inside : bounds.Inside value
      · simp only [if_pos inside]
        refine ih _ (fun part member => dashless part (List.mem_cons_of_mem _ member)) ?_
        intro each
        exact other (List.forall_mem_cons.mpr ⟨⟨value, read, inside⟩, each⟩)
      · simp only [if_neg inside]
        exact ⟨_, rfl⟩

/-- A whole text that is read without a step is a range or a list of numerals. -/
theorem taken_of_parseUnstepped {step : Option Nat} {field : CronField}
    (read : parseUnstepped text bounds step = .ok field) : Taken bounds text := by
  rw [parseUnstepped] at read
  cases cut : splitOnce ['-'] text with
  | some sides =>
    obtain ⟨rfl, -⟩ := splitOnce_singleton_eq_some.mp cut
    simp only [cut] at read
    cases ends : rangeEnds "Invalid range start: " "Invalid range end: "
        (sides.1 ++ '-' :: sides.2) sides.1 sides.2 with
    | error error => simp [ends] at read
    | ok found =>
      obtain ⟨start, stop⟩ := rangeEnds_eq_ok.mp ends
      exact .range (by simp [start]) (by simp [stop])
  | none =>
    simp only [cut] at read
    refine .list (Classical.not_not.mp fun other => ?_)
    have dashless : ∀ part ∈ text.splitOn ',', '-' ∉ part := fun part member dash =>
      splitOnce_singleton_eq_none.mp cut (exists_mem_splitOn.mp ⟨part, member, dash⟩).1
    obtain ⟨error, failed⟩ := parseParts_of_not_each ∅ dashless other
    simp [failed] at read

/-! What is read from each of the shapes. -/

theorem parseField_stepped (bounds : FieldBounds) {step : List Char} {k : Nat}
    (read : uint32? step = some k) :
    parseField ('*' :: '/' :: step) bounds =
      (stepBy bounds.min bounds.max k).map fun values => .ok ⟨values.toFinset, true, some k⟩ := by
  have cut : splitOnce ['/'] ('*' :: '/' :: step) = some (['*'], step) :=
    splitOnce_singleton_eq_some.mpr ⟨rfl, by decide⟩
  rw [parseField, if_neg (by simp), cut]
  simp only [read, if_true]

theorem ne_star_of_mem {c : Char} (member : c ∈ text) (other : c ≠ '*') : text ≠ ['*'] := by
  rintro rfl
  exact other (List.mem_singleton.mp member)

theorem parseField_range {first last : List Char} {start stop : Nat}
    (readFirst : uint32? first = some start) (readLast : uint32? last = some stop) :
    parseField (first ++ '-' :: last) bounds =
      some (.ok ⟨within bounds (List.range' start (stop + 1 - start)), false, none⟩) := by
  have other : first ++ '-' :: last ≠ ['*'] := ne_star_of_mem (c := '-') (by simp) (by decide)
  have slashless : splitOnce ['/'] (first ++ '-' :: last) = none := by
    refine splitOnce_singleton_eq_none.mpr ?_
    simp [notMem_of_uint32? readFirst (c := '/') (by decide) rfl,
      notMem_of_uint32? readLast (c := '/') (by decide) rfl]
  have dash : splitOnce ['-'] (first ++ '-' :: last) = some (first, last) :=
    splitOnce_singleton_eq_some.mpr ⟨rfl, notMem_of_uint32? readFirst (by decide) rfl⟩
  have ends : rangeEnds "Invalid range start: " "Invalid range end: " (first ++ '-' :: last)
      first last = .ok (start, stop) := rangeEnds_eq_ok.mpr ⟨readFirst, readLast⟩
  rw [parseField, if_neg other, slashless]
  simp only [parseUnstepped, dash, ends]

theorem parseField_steppedRange (bounds : FieldBounds) {first last step : List Char}
    {start stop k : Nat}
    (readFirst : uint32? first = some start) (readLast : uint32? last = some stop)
    (read : uint32? step = some k) :
    parseField (first ++ '-' :: last ++ '/' :: step) bounds =
      (stepBy start stop k).map fun values => .ok ⟨within bounds values, false, some k⟩ := by
  have other : first ++ '-' :: last ++ '/' :: step ≠ ['*'] :=
    ne_star_of_mem (c := '-') (by simp) (by decide)
  have base : first ++ '-' :: last ≠ ['*'] := ne_star_of_mem (c := '-') (by simp) (by decide)
  have cut : splitOnce ['/'] (first ++ '-' :: last ++ '/' :: step) =
      some (first ++ '-' :: last, step) := by
    refine splitOnce_singleton_eq_some.mpr ⟨rfl, ?_⟩
    simp [notMem_of_uint32? readFirst (c := '/') (by decide) rfl,
      notMem_of_uint32? readLast (c := '/') (by decide) rfl]
  have dash : splitOnce ['-'] (first ++ '-' :: last) = some (first, last) :=
    splitOnce_singleton_eq_some.mpr ⟨rfl, notMem_of_uint32? readFirst (by decide) rfl⟩
  have ends : rangeEnds "Invalid range start: " "Invalid range end: " (first ++ '-' :: last)
      first last = .ok (start, stop) := rangeEnds_eq_ok.mpr ⟨readFirst, readLast⟩
  rw [parseField, if_neg other, cut]
  simp only [read, if_neg base, dash, ends]

theorem notMem_of_each {c : Char} (sign : c ≠ '+') (digit : c.isDigit = false) (comma : c ≠ ',')
    (each : ∀ part ∈ text.splitOn ',', ∃ value ∈ uint32? part, bounds.Inside value) : c ∉ text := by
  intro member
  obtain ⟨part, inside, member⟩ := exists_mem_splitOn.mpr ⟨member, comma⟩
  obtain ⟨value, read, -⟩ := each part inside
  exact notMem_of_uint32? read sign digit member

theorem parseField_list
    (each : ∀ part ∈ text.splitOn ',', ∃ value ∈ uint32? part, bounds.Inside value) :
    ∃ found, parseField text bounds = some (.ok ⟨found, false, none⟩) ∧
      ∀ value, value ∈ found ↔ ∃ part ∈ text.splitOn ',', uint32? part = some value := by
  have other : text ≠ ['*'] := by
    rintro rfl
    exact notMem_of_each (c := '*') (by decide) rfl (by decide) each (by simp)
  have slashless : splitOnce ['/'] text = none :=
    splitOnce_singleton_eq_none.mpr (notMem_of_each (by decide) rfl (by decide) each)
  have dashless : splitOnce ['-'] text = none :=
    splitOnce_singleton_eq_none.mpr (notMem_of_each (by decide) rfl (by decide) each)
  obtain ⟨found, parts, members⟩ := parseParts_of_each ∅ each
  refine ⟨found, ?_, fun value => ?_⟩
  · rw [parseField, if_neg other, slashless]
    simp only [parseUnstepped, dashless, parts]
  · rw [members, or_iff_right (Finset.notMem_empty value)]

theorem mem_stepBy (start stop : Nat) {step : Nat} (positive : step ≠ 0) :
    ∃ values, stepBy start stop step = some values ∧
      ∀ value, value ∈ values ↔ start ≤ value ∧ value ≤ stop ∧ step ∣ value - start := by
  refine ⟨_, if_neg positive, fun value => ?_⟩
  by_cases ordered : start ≤ stop
  · rw [if_pos ordered, List.mem_range']
    constructor
    · rintro ⟨i, few, rfl⟩
      have most := Nat.mul_le_of_le_div step i (stop - start) (by omega)
      rw [Nat.mul_comm] at most
      refine ⟨Nat.le_add_right _ _, by omega, ?_⟩
      rw [Nat.add_sub_cancel_left]
      exact Nat.dvd_mul_right step i
    · rintro ⟨low, high, i, multiple⟩
      refine ⟨i, ?_, by omega⟩
      rw [Nat.lt_succ_iff, Nat.le_div_iff_mul_le (Nat.pos_of_ne_zero positive), Nat.mul_comm,
        ← multiple]
      omega
  · rw [if_neg ordered]
    constructor
    · intro none_
      cases none_
    · rintro ⟨low, high, -⟩
      omega

theorem inside_of_mem_within {values : List Nat} {value : Nat}
    (member : value ∈ within bounds values) : bounds.Inside value := by
  rw [within, List.mem_toFinset, List.mem_filter] at member
  exact of_decide_eq_true member.2

/-- A text of one of the shapes is read within the bounds, or its step is 0. -/
theorem outcome_of_taken (taken : Taken bounds text) : parseField text bounds = none ∨
    ∃ field, parseField text bounds = some (.ok field) ∧ field.Within bounds := by
  cases taken with
  | @stepped step numeral =>
    obtain ⟨k, numeral⟩ := Option.isSome_iff_exists.mp numeral
    rw [parseField_stepped bounds numeral]
    by_cases zero : k = 0
    · left
      rw [zero]
      rfl
    · obtain ⟨values, listed, members⟩ := mem_stepBy bounds.min bounds.max zero
      rw [listed]
      refine .inr ⟨_, rfl, fun value member => ?_, fun _ => ?_, fun free => by cases free⟩
      · obtain ⟨low, high, -⟩ := (members value).mp (List.mem_toFinset.mp member)
        exact ⟨low, high⟩
      · exact List.mem_toFinset.mpr ((members _).mpr ⟨Nat.le_refl _, bounds.ordered, by simp⟩)
  | range start stop =>
    obtain ⟨a, readA⟩ := Option.isSome_iff_exists.mp start
    obtain ⟨b, readB⟩ := Option.isSome_iff_exists.mp stop
    refine .inr ⟨_, parseField_range readA readB, ?_⟩
    exact .of_not_isWildcard rfl fun value => inside_of_mem_within
  | steppedRange start stop numeral =>
    obtain ⟨a, readA⟩ := Option.isSome_iff_exists.mp start
    obtain ⟨b, readB⟩ := Option.isSome_iff_exists.mp stop
    obtain ⟨k, numeral⟩ := Option.isSome_iff_exists.mp numeral
    rw [parseField_steppedRange bounds readA readB numeral]
    cases stepBy a b k with
    | none => exact .inl rfl
    | some values =>
      exact .inr ⟨_, rfl, .of_not_isWildcard rfl fun value => inside_of_mem_within⟩
  | list each =>
    obtain ⟨found, read, members⟩ := parseField_list each
    refine .inr ⟨_, read, .of_not_isWildcard rfl fun value member => ?_⟩
    obtain ⟨part, inside, numeral⟩ := (members value).mp member
    obtain ⟨value', numeral', within⟩ := each part inside
    obtain rfl := Option.some.inj (numeral.symm.trans numeral')
    exact within

theorem not_refused_of_taken (taken : Taken bounds text) : ¬ Refused bounds text := by
  rintro ⟨error, refused⟩
  obtain panics | ⟨field, read, -⟩ := outcome_of_taken taken
  · cases panics.symm.trans refused
  · cases read.symm.trans refused

/-- Every other text is refused, but for the star alone. -/
theorem refused_of_not_taken (other : text ≠ ['*']) (strange : ¬ Taken bounds text) :
    Refused bounds text := by
  rw [Refused]
  rw [parseField, if_neg other]
  have unstepped : ∀ step, ∃ error, parseUnstepped text bounds step = .error error := by
    intro step
    cases read : parseUnstepped text bounds step with
    | error error => exact ⟨error, rfl⟩
    | ok field => exact absurd (taken_of_parseUnstepped read) strange
  cases cut : splitOnce ['/'] text with
  | none =>
    obtain ⟨error, failed⟩ := unstepped none
    exact ⟨error, congrArg some failed⟩
  | some sides =>
    obtain ⟨rfl, -⟩ := splitOnce_singleton_eq_some.mp cut
    cases numeral : uint32? sides.2 with
    | none =>
      refine ⟨conflict "Invalid step value: " (sides.1 ++ '/' :: sides.2), ?_⟩
      simp only [numeral]
    | some step =>
      simp only [numeral]
      by_cases star : sides.1 = ['*']
      · rw [star] at strange
        exact absurd (.stepped (by simp [numeral])) strange
      · simp only [if_neg star]
        cases dash : splitOnce ['-'] sides.1 with
        | none =>
          obtain ⟨error, failed⟩ := unstepped (some step)
          exact ⟨error, congrArg some failed⟩
        | some ends =>
          cases read : rangeEnds "Invalid range start: " "Invalid range end: " sides.1
              ends.1 ends.2 with
          | error error => exact ⟨error, by simp only [read]⟩
          | ok found =>
            obtain ⟨start, stop⟩ := rangeEnds_eq_ok.mp read
            rw [(splitOnce_singleton_eq_some.mp dash).1] at strange
            exact absurd (.steppedRange (by simp [start]) (by simp [stop])
              (by simp [numeral])) strange

end CronParser

/-! ## What is written and what is read -/

/-- A list of plain numbers, or one item that is no number and whose step fits into 32 bits. -/
def Told (items : List CronItem) : Prop :=
  (∀ item ∈ items, ∃ number, item = ⟨.single number, none⟩) ∨
    ∃ item, items = [item] ∧ (∀ number, item.base ≠ .single number) ∧
      ∀ step ∈ item.step, ∀ k ∈ natural? step, k < 2 ^ 32

/-- The items of a field are read with their values, and a text without items is refused. -/
def ReadAsWritten (bounds : FieldBounds) (text : List Char) : Prop :=
  (∀ items, Writes bounds items text → ∃ field,
    CronParser.parseField text bounds = some (.ok field) ∧ Means bounds items field.values) ∧
  ((∀ items, ¬ Writes bounds items text) → CronParser.Refused bounds text)

namespace CronItem

variable {bounds : FieldBounds} {item : CronItem} {text : List Char}

theorem notMem_of_natural? {c : Char} {value : Nat} (read : natural? text = some value)
    (digit : c.isDigit = false) : c ∉ text := by
  intro member
  rw [(digits_of_natural? read).2 c member] at digit
  cases digit

/-- What the numbers of a formed item are. -/
theorem formed_iff : (item.values bounds).isSome ↔
    (item.base.ends bounds).isSome ∧ ∀ step ∈ item.step, ∃ k ∈ natural? step, k ≠ 0 := by
  rw [values]
  cases item.base.ends bounds with
  | none => simp
  | some ends =>
    cases item.step with
    | none => simp
    | some step =>
      cases read : natural? step with
      | none => simp [read]
      | some k => by_cases zero : k = 0 <;> simp [read, zero]

theorem number_of_single {number : List Char}
    (formed : ((CronBase.single number).ends bounds).isSome) :
    ∃ value, natural? number = some value ∧ bounds.Inside value := by
  rw [CronBase.ends] at formed
  cases read : natural? number with
  | none => simp [read] at formed
  | some value =>
    by_cases inside : bounds.Inside value
    · exact ⟨value, rfl, inside⟩
    · simp [read, inside] at formed

theorem numbers_of_range {first last : List Char}
    (formed : ((CronBase.range first last).ends bounds).isSome) :
    ∃ start stop, natural? first = some start ∧ natural? last = some stop ∧
      bounds.min ≤ start ∧ start ≤ stop ∧ stop ≤ bounds.max := by
  rw [CronBase.ends] at formed
  cases readFirst : natural? first with
  | none => simp [readFirst] at formed
  | some start =>
    cases readLast : natural? last with
    | none => simp [readFirst, readLast] at formed
    | some stop =>
      by_cases inside : bounds.min ≤ start ∧ start ≤ stop ∧ stop ≤ bounds.max
      · exact ⟨start, stop, rfl, rfl, inside⟩
      · simp [readFirst, readLast, inside] at formed

/-- Only the three marks and digits stand in an item. -/
theorem notMem_base {base : CronBase} (formed : (base.ends bounds).isSome) {c : Char}
    (digit : c.isDigit = false) (star : c ≠ '*') (dash : c ≠ '-') : c ∉ base.text := by
  cases base with
  | all => simpa [CronBase.text] using star
  | single number =>
    obtain ⟨value, read, -⟩ := number_of_single formed
    exact notMem_of_natural? read digit
  | range first last =>
    obtain ⟨start, stop, readFirst, readLast, -⟩ := numbers_of_range formed
    simp [CronBase.text, dash, notMem_of_natural? readFirst digit,
      notMem_of_natural? readLast digit]

theorem comma_notMem_text (formed : (item.values bounds).isSome) : ',' ∉ item.text := by
  obtain ⟨base, step⟩ := item
  obtain ⟨formed, steps⟩ := formed_iff.mp formed
  have plain : ',' ∉ base.text := notMem_base formed rfl (by decide) (by decide)
  cases step with
  | none => simpa [text] using plain
  | some step =>
    obtain ⟨k, read, -⟩ := steps step rfl
    simp [text, plain, notMem_of_natural? read (c := ',') rfl]

/-- The slash of an item is the one before its step. -/
theorem splitOnce_text (formed : (item.values bounds).isSome) :
    splitOnce ['/'] item.text = item.step.map fun step => (item.base.text, step) := by
  obtain ⟨base, step⟩ := item
  have plain : '/' ∉ base.text :=
    notMem_base (formed_iff.mp formed).1 rfl (by decide) (by decide)
  cases step with
  | none => exact splitOnce_singleton_eq_none.mpr (by simpa [text] using plain)
  | some step => exact splitOnce_singleton_eq_some.mpr ⟨rfl, plain⟩

theorem base_ne_single (formed : (item.values bounds).isSome) {c : Char} (digit : c.isDigit = false)
    (member : c ∈ item.base.text) (number : List Char) : item.base ≠ .single number := by
  intro single
  have ends := (formed_iff.mp formed).1
  rw [single] at ends member
  obtain ⟨value, read, -⟩ := number_of_single ends
  exact notMem_of_natural? read digit member

end CronItem

namespace Writes

variable {bounds : FieldBounds} {items : List CronItem} {text : List Char}

theorem splitOn_eq (writes : Writes bounds items text) :
    text.splitOn ',' = items.map CronItem.text := by
  rw [writes.joined, List.splitOn_intercalate]
  · intro piece member
    obtain ⟨item, inside, rfl⟩ := List.mem_map.mp member
    exact CronItem.comma_notMem_text (writes.formed item inside)
  · simpa using writes.nonempty

/-- Without a comma there is one item. -/
theorem exists_single (writes : Writes bounds items text) (single : ',' ∉ text) :
    ∃ item, items = [item] ∧ item.text = text ∧ (item.values bounds).isSome := by
  have pieces := writes.splitOn_eq
  rw [List.splitOn_eq_singleton single] at pieces
  obtain ⟨item, rfl, same⟩ := List.map_eq_singleton_iff.mp pieces.symm
  exact ⟨item, rfl, same, writes.formed item List.mem_cons_self⟩

/-- One item with a mark and a step that is read is told apart. -/
theorem told_of_mark {item : CronItem} (formed : (item.values bounds).isSome) {c : Char}
    (digit : c.isDigit = false) (mark : c ∈ item.base.text)
    (steps : ∀ step ∈ item.step, (uint32? step).isSome) : Told [item] := by
  refine .inr ⟨item, rfl, item.base_ne_single formed digit mark, fun step stepped k read => ?_⟩
  have numeral := steps step stepped
  by_contra large
  rw [uint32?_of_natural? read, if_neg large] at numeral
  cases numeral

/-- A field without a comma, cut at its slash, is an item with the step behind the slash. -/
theorem told_of_cut (front : List Char) (step : Option (List Char))
    (writes : Writes bounds items (front ++ step.elim [] fun step => '/' :: step))
    (single : ',' ∉ front ++ step.elim [] fun step => '/' :: step) (slashless : '/' ∉ front)
    {c : Char} (digit : c.isDigit = false) (mark : c ∈ front)
    (steps : ∀ digits ∈ step, (uint32? digits).isSome) : Told items := by
  obtain ⟨item, rfl, same, formed⟩ := writes.exists_single single
  have cut := item.splitOnce_text formed
  rw [same] at cut
  cases step with
  | none =>
    simp only [Option.elim_none, List.append_nil] at same cut
    rw [splitOnce_singleton_eq_none.mpr slashless] at cut
    have unstepped : item.step = none := Option.map_eq_none_iff.mp cut.symm
    have base : item.base.text = front := by simpa [CronItem.text, unstepped] using same
    exact told_of_mark formed digit (base ▸ mark) (by simp [unstepped])
  | some step =>
    have whole : splitOnce ['/'] (front ++ '/' :: step) = some (front, step) :=
      splitOnce_singleton_eq_some.mpr ⟨rfl, slashless⟩
    rw [Option.elim_some, whole] at cut
    obtain ⟨step', stepped, sides⟩ := Option.map_eq_some_iff.mp cut.symm
    obtain ⟨rfl, rfl⟩ := Prod.mk.inj sides
    exact told_of_mark formed digit mark (by simpa [stepped] using steps)

theorem range_plain {first last : List Char} (start : (uint32? first).isSome)
    (stop : (uint32? last).isSome) : ∀ c ∈ [',', '/'], c ∉ first ++ '-' :: last := by
  obtain ⟨a, readA⟩ := Option.isSome_iff_exists.mp start
  obtain ⟨b, readB⟩ := Option.isSome_iff_exists.mp stop
  intro c member
  obtain ⟨dash, sign, digit⟩ : c ≠ '-' ∧ c ≠ '+' ∧ c.isDigit = false := by
    simp only [List.mem_cons, List.not_mem_nil, or_false] at member
    rcases member with rfl | rfl <;> exact ⟨by decide, by decide, rfl⟩
  simp [dash, CronParser.notMem_of_uint32? readA sign digit,
    CronParser.notMem_of_uint32? readB sign digit]

theorem step_plain {step : List Char} (numeral : (uint32? step).isSome) : ',' ∉ '/' :: step := by
  obtain ⟨k, read⟩ := Option.isSome_iff_exists.mp numeral
  simp [CronParser.notMem_of_uint32? read (c := ',') (by decide) rfl]

/-- What the parser does not refuse it tells apart. -/
theorem told_of_taken (writes : Writes bounds items text)
    (taken : text = ['*'] ∨ CronParser.Taken bounds text) : Told items := by
  obtain rfl | taken := taken
  · exact told_of_cut ['*'] none writes (by decide) (by decide) (c := '*') rfl
      (by simp) (by simp)
  · cases taken with
    | @stepped step numeral =>
      refine told_of_cut ['*'] (some step) writes ?_ (by decide) (c := '*') rfl
        (by simp) (by simpa using numeral)
      simpa using step_plain numeral
    | @range first last start stop =>
      have plain := range_plain start stop
      refine told_of_cut (first ++ '-' :: last) none (by simpa using writes) ?_
        (plain '/' (by simp)) (c := '-') rfl (by simp) (by simp)
      simpa using plain ',' (by simp)
    | @steppedRange first last step start stop numeral =>
      have plain := range_plain start stop
      refine told_of_cut (first ++ '-' :: last) (some step) writes ?_
        (plain '/' (by simp)) (c := '-') rfl (by simp) (by simpa using numeral)
      rw [Option.elim_some, List.mem_append, not_or]
      exact ⟨plain ',' (by simp), step_plain numeral⟩
    | list each =>
      refine .inl fun item member => ?_
      have piece : item.text ∈ text.splitOn ',' := by
        rw [writes.splitOn_eq]
        exact List.mem_map_of_mem member
      obtain ⟨value, read, -⟩ := each item.text piece
      obtain ⟨base, step⟩ := item
      have markless : ∀ c ∈ ['*', '-', '/'], c ∉ CronItem.text ⟨base, step⟩ := by
        intro c mark
        obtain ⟨sign, digit⟩ : c ≠ '+' ∧ c.isDigit = false := by
          simp only [List.mem_cons, List.not_mem_nil, or_false] at mark
          rcases mark with rfl | rfl | rfl <;> exact ⟨by decide, rfl⟩
        exact CronParser.notMem_of_uint32? read sign digit
      cases step with
      | some step => exact absurd (by simp [CronItem.text]) (markless '/' (by simp))
      | none =>
        cases base with
        | all =>
          exact absurd (by simp [CronItem.text, CronBase.text]) (markless '*' (by simp))
        | single number => exact ⟨number, rfl⟩
        | range first last =>
          exact absurd (by simp [CronItem.text, CronBase.text]) (markless '-' (by simp))

end Writes

namespace CronParser

variable {bounds : FieldBounds} {items : List CronItem} {text : List Char}

theorem means_single {item : CronItem} {among values : Finset Nat}
    (meaning : item.values bounds = some among) (same : ∀ value, value ∈ values ↔ value ∈ among) :
    Means bounds [item] values := by
  intro value
  simp [same, meaning]

theorem uint32?_of_le {digits : List Char} {value : Nat} (read : natural? digits = some value)
    (small : value < 2 ^ 32) : uint32? digits = some value := by
  rw [uint32?_of_natural? read, if_pos small]

/-- A list of plain numbers is read with its numbers. -/
theorem reads_list (writes : Writes bounds items text)
    (plain : ∀ item ∈ items, ∃ number, item = ⟨.single number, none⟩) :
    ∃ field, parseField text bounds = some (.ok field) ∧ Means bounds items field.values := by
  have numbers : ∀ item ∈ items, ∃ value, uint32? item.text = some value ∧
      bounds.Inside value ∧ item.values bounds = some {value} := by
    intro item member
    have formed := writes.formed item member
    obtain ⟨number, rfl⟩ := plain item member
    obtain ⟨value, read, inside⟩ := CronItem.number_of_single (CronItem.formed_iff.mp formed).1
    have small : value < 2 ^ 32 := inside.2.trans_lt bounds.small
    have text : CronItem.text ⟨.single number, none⟩ = number := List.append_nil number
    refine ⟨value, by rw [text]; exact uint32?_of_le read small, inside, ?_⟩
    simp [CronItem.values, CronBase.ends, read, inside]
  have each : ∀ part ∈ text.splitOn ',', ∃ value ∈ uint32? part, bounds.Inside value := by
    rw [writes.splitOn_eq]
    intro part member
    obtain ⟨item, inside, rfl⟩ := List.mem_map.mp member
    obtain ⟨value, read, fits, -⟩ := numbers item inside
    exact ⟨value, read, fits⟩
  obtain ⟨found, read, members⟩ := parseField_list each
  refine ⟨_, read, fun value => ?_⟩
  rw [members, writes.splitOn_eq]
  constructor
  · rintro ⟨part, member, read⟩
    obtain ⟨item, inside, rfl⟩ := List.mem_map.mp member
    obtain ⟨value', read', -, meaning⟩ := numbers item inside
    obtain rfl := Option.some.inj (read.symm.trans read')
    exact ⟨item, inside, _, meaning, Finset.mem_singleton_self value⟩
  · rintro ⟨item, inside, among, meaning, member⟩
    obtain ⟨value', read', -, meaning'⟩ := numbers item inside
    obtain rfl := Option.some.inj (meaning'.symm.trans meaning)
    rw [Finset.mem_singleton.mp member]
    exact ⟨item.text, List.mem_map_of_mem inside, read'⟩

/-- A star is read with its values, and so is a star with a step. -/
theorem reads_all {step : Option (List Char)}
    (steps : ∀ digits ∈ step, ∃ k ∈ natural? digits, k ≠ 0)
    (small : ∀ digits ∈ step, ∀ k ∈ natural? digits, k < 2 ^ 32) :
    ∃ field, parseField (CronItem.text ⟨.all, step⟩) bounds = some (.ok field) ∧
      Means bounds [⟨.all, step⟩] field.values := by
  cases step with
  | none =>
    have meaning : CronItem.values bounds ⟨.all, none⟩ =
        some (Finset.Icc bounds.min bounds.max) := rfl
    exact ⟨_, rfl, means_single meaning fun _ => Iff.rfl⟩
  | some step =>
    obtain ⟨k, read, positive⟩ := steps step rfl
    obtain ⟨values, listed, members⟩ := mem_stepBy bounds.min bounds.max positive
    have parsed := parseField_stepped bounds
      (uint32?_of_le read (small step rfl k read))
    rw [listed] at parsed
    have meaning : CronItem.values bounds ⟨.all, some step⟩ = some
        ((Finset.Icc bounds.min bounds.max).filter fun value => k ∣ value - bounds.min) := by
      simp [CronItem.values, CronBase.ends, CronBase.reach, Option.mem_def.mp read, positive]
    refine ⟨_, parsed, means_single meaning fun value => ?_⟩
    rw [List.mem_toFinset, members, Finset.mem_filter, Finset.mem_Icc, and_assoc]

theorem reads_range {first last : List Char} {step : Option (List Char)}
    (ends : ((CronBase.range first last).ends bounds).isSome)
    (steps : ∀ digits ∈ step, ∃ k ∈ natural? digits, k ≠ 0)
    (small : ∀ digits ∈ step, ∀ k ∈ natural? digits, k < 2 ^ 32) :
    ∃ field, parseField (CronItem.text ⟨.range first last, step⟩) bounds = some (.ok field) ∧
      Means bounds [⟨.range first last, step⟩] field.values := by
  obtain ⟨start, stop, readFirst, readLast, low, ordered, high⟩ :=
    CronItem.numbers_of_range ends
  have largest := bounds.small
  have readFirst' := uint32?_of_le readFirst (by omega)
  have readLast' := uint32?_of_le readLast (by omega)
  have inside : bounds.min ≤ start ∧ start ≤ stop ∧ stop ≤ bounds.max := ⟨low, ordered, high⟩
  cases step with
  | none =>
    have meaning : CronItem.values bounds ⟨.range first last, none⟩ =
        some (Finset.Icc start stop) := by
      simp [CronItem.values, CronBase.ends, readFirst, readLast, inside]
    have text : CronItem.text ⟨.range first last, none⟩ = first ++ '-' :: last :=
      List.append_nil _
    refine ⟨_, text ▸ parseField_range readFirst' readLast', means_single meaning ?_⟩
    intro value
    rw [within, List.mem_toFinset, List.mem_filter, List.mem_range'_1, Finset.mem_Icc,
      decide_eq_true_eq, FieldBounds.Inside]
    omega
  | some step =>
    obtain ⟨k, read, positive⟩ := steps step rfl
    obtain ⟨values, listed, members⟩ := mem_stepBy start stop positive
    have parsed := parseField_steppedRange bounds readFirst' readLast'
      (uint32?_of_le read (small step rfl k read))
    rw [listed] at parsed
    have meaning : CronItem.values bounds ⟨.range first last, some step⟩ = some
        ((Finset.Icc start stop).filter fun value => k ∣ value - start) := by
      simp [CronItem.values, CronBase.ends, CronBase.reach, readFirst, readLast, inside,
        Option.mem_def.mp read, positive]
    refine ⟨_, parsed, means_single meaning fun value => ?_⟩
    rw [within, List.mem_toFinset, List.mem_filter, members, Finset.mem_filter,
      Finset.mem_Icc, decide_eq_true_eq, FieldBounds.Inside]
    constructor
    · rintro ⟨⟨above, below, multiple⟩, -⟩
      exact ⟨⟨above, below⟩, multiple⟩
    · rintro ⟨⟨above, below⟩, multiple⟩
      exact ⟨⟨above, below, multiple⟩, low.trans above, below.trans high⟩

/-- One item that is no number is read with its values. -/
theorem reads_single {item : CronItem} (formed : (item.values bounds).isSome)
    (marked : ∀ number, item.base ≠ .single number)
    (small : ∀ step ∈ item.step, ∀ k ∈ natural? step, k < 2 ^ 32) :
    ∃ field, parseField item.text bounds = some (.ok field) ∧ Means bounds [item] field.values := by
  obtain ⟨base, step⟩ := item
  obtain ⟨ends, steps⟩ := CronItem.formed_iff.mp formed
  cases base with
  | single number => exact absurd rfl (marked number)
  | all => exact reads_all steps small
  | range first last => exact reads_range ends steps small

theorem reads_of_told (writes : Writes bounds items text) (told : Told items) :
    ∃ field, parseField text bounds = some (.ok field) ∧ Means bounds items field.values := by
  obtain plain | ⟨item, rfl, marked, small⟩ := told
  · exact reads_list writes plain
  · have text : text = item.text := by simpa using writes.joined
    rw [text]
    exact reads_single (writes.formed item List.mem_cons_self) marked small

theorem writes_star (bounds : FieldBounds) : Writes bounds [⟨.all, none⟩] ['*'] :=
  ⟨by simp, rfl, by simp [CronItem.values, CronBase.ends]⟩

/-- A field that is written with items is read with their values just when it is a list of plain
numbers, or one star or range whose step fits into 32 bits; and a text that is not written with
items is refused just when it has none of the shapes that are taken as they come. -/
theorem readAsWritten_iff (bounds : FieldBounds) (text : List Char) :
    ReadAsWritten bounds text ↔
      (∀ items, Writes bounds items text → Told items) ∧
        ((∀ items, ¬ Writes bounds items text) → ¬ Taken bounds text) := by
  constructor
  · rintro ⟨reads, refuses⟩
    refine ⟨fun items writes => ?_, fun strange taken => ?_⟩
    · obtain ⟨field, read, -⟩ := reads items writes
      refine writes.told_of_taken ?_
      by_contra neither
      rw [not_or] at neither
      obtain ⟨error, refused⟩ := refused_of_not_taken neither.1 neither.2
      rw [read] at refused
      cases refused
    · exact not_refused_of_taken taken (refuses strange)
  · rintro ⟨told, untaken⟩
    refine ⟨fun items writes => reads_of_told writes (told items writes), fun strange => ?_⟩
    refine refused_of_not_taken ?_ (untaken strange)
    rintro rfl
    exact strange _ (writes_star bounds)

def minuteBounds : FieldBounds := ⟨0, 59, by decide, by decide⟩

/-- A list with a range is refused, the step 0 panics, and a range from the larger number to the
smaller is read as no value at all. -/
theorem not_readAsWritten :
    ¬ ReadAsWritten minuteBounds "1-5,7".toList ∧
      ¬ ReadAsWritten minuteBounds "*/0".toList ∧
        parseField "*/0".toList minuteBounds = none ∧
          parseField "5-1".toList minuteBounds = some (.ok ⟨∅, false, none⟩) := by
  have refused : parseField "1-5,7".toList minuteBounds =
      some (.error (conflict "Invalid range end: " "1-5,7".toList)) := by decide
  have panics : parseField "*/0".toList minuteBounds = none := by decide
  have empty : parseField "5-1".toList minuteBounds = some (.ok ⟨∅, false, none⟩) := by decide
  have writes : Writes minuteBounds [⟨.range ['1'] ['5'], none⟩, ⟨.single ['7'], none⟩]
      "1-5,7".toList := ⟨by simp, by decide, by decide⟩
  refine ⟨fun holds => ?_, fun holds => ?_, panics, empty⟩
  · obtain ⟨field, read, -⟩ := holds.1 _ writes
    rw [refused] at read
    cases read
  · by_cases written : ∃ items, Writes minuteBounds items "*/0".toList
    · obtain ⟨items, writes⟩ := written
      obtain ⟨field, read, -⟩ := holds.1 items writes
      rw [panics] at read
      cases read
    · obtain ⟨error, failed⟩ := holds.2 (not_exists.mp written)
      rw [panics] at failed
      cases failed

end CronParser

end UHorse.Scheduler
