import Mathlib.Data.Int.LeastGreatest
import UHorse.Agent.SessionKey
import UHorse.Lib.Gregorian
import UHorse.Protocol.Types
import UHorse.Scheduler.CronField

/-!
# When a cron schedule is due

The next run is searched in steps of a minute from the second after the given time on, so a due
instant is found only if it lies on that grid; a schedule of five fields looks at no second at all.
The test of the days takes either field when one of the two is a plain star, which always matches,
and counts the days of the week from Monday.
-/

namespace UHorse.Scheduler

open Agent (isWhitespace)
open Lib.Gregorian Protocol

structure CronSchedule where
  expression : List Char
  includeSeconds : Bool
  seconds : Option CronField
  minutes : CronField
  hours : CronField
  daysOfMonth : CronField
  months : CronField
  daysOfWeek : CronField
deriving DecidableEq

def hourBounds : FieldBounds := ⟨0, 23, by decide, by decide⟩

def dayBounds : FieldBounds := ⟨1, 31, by decide, by decide⟩

def monthBounds : FieldBounds := ⟨1, 12, by decide, by decide⟩

def weekdayBounds : FieldBounds := ⟨0, 6, by decide, by decide⟩

/-! ## Parsing an expression -/

structure CronParser where
  includeSeconds : Bool

namespace CronParser

def new : CronParser := ⟨false⟩

def withSeconds : CronParser := ⟨true⟩

/-- `?` on a result, or on a panic. -/
def andThen {α β : Type} (result : Option (Except ScheduleConflict α))
    (next : α → Option (Except ScheduleConflict β)) : Option (Except ScheduleConflict β) :=
  match result with
  | none => none
  | some (.error error) => some (.error error)
  | some (.ok value) => next value

def splitWhitespace (text : List Char) : List (List Char) :=
  (text.splitOnP isWhitespace).filter fun part => part ≠ []

/-- The five fields that both formats have. -/
def parseDate (expression : List Char) (includeSeconds : Bool) (seconds : Option CronField)
    (minutes hours daysOfMonth months daysOfWeek : List Char) :
    Option (Except ScheduleConflict CronSchedule) :=
  andThen (parseField minutes CronParser.minuteBounds) fun minutes =>
    andThen (parseField hours hourBounds) fun hours =>
      andThen (parseField daysOfMonth dayBounds) fun daysOfMonth =>
        andThen (parseField months monthBounds) fun months =>
          andThen (parseField daysOfWeek weekdayBounds) fun daysOfWeek =>
            some (.ok ⟨expression, includeSeconds, seconds, minutes, hours, daysOfMonth, months,
              daysOfWeek⟩)

/-- `none` is a panic. -/
def parse (parser : CronParser) (expression : List Char) :
    Option (Except ScheduleConflict CronSchedule) :=
  match parser.includeSeconds, splitWhitespace expression with
  | true, [seconds, minutes, hours, daysOfMonth, months, daysOfWeek] =>
    andThen (parseField seconds CronParser.minuteBounds) fun seconds =>
      parseDate expression true (some seconds) minutes hours daysOfMonth months daysOfWeek
  | false, [minutes, hours, daysOfMonth, months, daysOfWeek] =>
    parseDate expression false none minutes hours daysOfMonth months daysOfWeek
  | includeSeconds, parts =>
    some (.error (conflict "Invalid cron expression: expected "
      ((if includeSeconds then "6".toList else "5".toList) ++ " fields, got ".toList ++
        parts.length.repr.toList)))

end CronParser

/-! ## The parts of an instant -/

def secondOf (dt : DateTime) : Nat := (dt / seconds 1 % 60).toNat

def minuteOf (dt : DateTime) : Nat := (dt / seconds 60 % 60).toNat

def hourOf (dt : DateTime) : Nat := (dt / seconds 3600 % 24).toNat

/-- The days since the first of January 1970. -/
def dayNumber (dt : DateTime) : Int := dt / seconds 86400

/-- The epoch began 10957 days before the year 2000. -/
def dateOf (dt : DateTime) : MonthDay := monthDay (dayNumber dt - 10957)

/-- The epoch began on a Thursday. -/
def numDaysFromMonday (dt : DateTime) : Nat := ((dayNumber dt + 3) % 7).toNat

def numDaysFromSunday (dt : DateTime) : Nat := ((dayNumber dt + 4) % 7).toNat

namespace CronSchedule

def matchesDay (schedule : CronSchedule) (dt : DateTime) : Bool :=
  let dayMatches := decide ((dateOf dt).day ∈ schedule.daysOfMonth.values)
  let weekdayMatches := decide (numDaysFromMonday dt ∈ schedule.daysOfWeek.values)
  let allWildcard := schedule.daysOfMonth.isWildcard && schedule.daysOfWeek.isWildcard
  !(!allWildcard && !dayMatches && !weekdayMatches)

/-- `matches`. -/
def matchesTime (schedule : CronSchedule) (dt : DateTime) : Bool :=
  if schedule.seconds.any fun field => secondOf dt ∉ field.values then false
  else if minuteOf dt ∉ schedule.minutes.values then false
  else if hourOf dt ∉ schedule.hours.values then false
  else if (dateOf dt).month ∉ schedule.months.values then false
  else schedule.matchesDay dt

/-- The loop, which may take so many steps of a minute. -/
def search (schedule : CronSchedule) : Nat → DateTime → Option DateTime
  | 0, _ => none
  | steps + 1, current =>
    if schedule.matchesTime current then some current
    else search schedule steps (current + Protocol.seconds 60)

def searchSteps : Nat := 365 * 4 * 24 * 60

def nextAfter (schedule : CronSchedule) (after : DateTime) : DateTime :=
  (schedule.search searchSteps (after + Protocol.seconds 1)).getD
    (after + Protocol.seconds (365 * 4 * 86400))

/-! ## What the search finds -/

/-- The instants the search looks at. -/
def grid (after : Int) (step : Nat) : Int := after + Protocol.seconds (1 + 60 * step)

variable {schedule : CronSchedule}

theorem search_spec (schedule : CronSchedule) (steps : Nat) (after : Int) (taken : Nat) :
    (∃ k < steps, schedule.search steps (grid after taken) = some (grid after (taken + k)) ∧
        schedule.matchesTime (grid after (taken + k)) = true ∧
          ∀ j < k, schedule.matchesTime (grid after (taken + j)) = false) ∨
      schedule.search steps (grid after taken) = none ∧
        ∀ k < steps, schedule.matchesTime (grid after (taken + k)) = false := by
  induction steps generalizing taken with
  | zero => exact .inr ⟨rfl, by simp⟩
  | succ steps ih =>
    have next : grid after taken + Protocol.seconds 60 = grid after (taken + 1) := by
      unfold grid Protocol.seconds
      omega
    rw [search, next]
    cases now : schedule.matchesTime (grid after taken) with
    | true => exact .inl ⟨0, by omega, rfl, now, by simp⟩
    | false =>
      simp only [Bool.false_eq_true, if_false]
      have shift : ∀ k, taken + 1 + k = taken + (k + 1) := fun k => by omega
      have upTo : ∀ bound, (∀ j < bound,
          schedule.matchesTime (grid after (taken + 1 + j)) = false) → ∀ j < bound + 1,
            schedule.matchesTime (grid after (taken + j)) = false := by
        intro bound later j few
        cases j with
        | zero => exact now
        | succ j => exact shift j ▸ later j (by omega)
      obtain ⟨k, few, found, due, earlier⟩ | ⟨absent, never⟩ := ih (taken + 1)
      · refine .inl ⟨k + 1, by omega, ?_, ?_, upTo k earlier⟩
        · rw [found, shift]
        · rw [← shift]
          exact due
      · exact .inr ⟨absent, upTo steps never⟩

/-- The next run is the first instant on the grid that matches, or 1460 days later if none does. -/
theorem nextAfter_spec (schedule : CronSchedule) (after : Int) :
    (∃ k < searchSteps, schedule.nextAfter after = grid after k ∧
        schedule.matchesTime (grid after k) = true ∧
          ∀ j < k, schedule.matchesTime (grid after j) = false) ∨
      schedule.nextAfter after = after + Protocol.seconds (365 * 4 * 86400) ∧
        ∀ k < searchSteps, schedule.matchesTime (grid after k) = false := by
  have spec := search_spec schedule searchSteps after 0
  have start : grid after 0 = after + Protocol.seconds 1 := rfl
  simp only [Nat.zero_add, start] at spec
  rw [nextAfter]
  obtain ⟨k, few, found, due, earlier⟩ | ⟨absent, never⟩ := spec
  · exact .inl ⟨k, few, by rw [found, Option.getD_some], due, earlier⟩
  · exact .inr ⟨by rw [absent, Option.getD_none], never⟩

/-! ## When the next run is the next due instant -/

/-- A whole second behind the given time that matches; a schedule without seconds means the first
of the minute. -/
structure Due (schedule : CronSchedule) (after u : Int) : Prop where
  later : after < u
  whole : u % Protocol.seconds 1 = 0
  due : schedule.matchesTime u = true
  second : schedule.seconds = none → secondOf u = 0

/-- The least due instant. -/
def IsNext (schedule : CronSchedule) (after u : Int) : Prop :=
  schedule.Due after u ∧ ∀ v, schedule.Due after v → u ≤ v

def FindsNext (schedule : CronSchedule) (after : Int) : Prop :=
  (∃ u, schedule.Due after u) → schedule.IsNext after (schedule.nextAfter after)

/-- The given time is a whole second, and the instant is one that the search looks at, or the one
that is taken when nothing is found. -/
def OnGrid (schedule : CronSchedule) (after u : Int) : Prop :=
  after % Protocol.seconds 1 = 0 ∧ ((∃ k < searchSteps, u = grid after k) ∨
    u = after + Protocol.seconds (365 * 4 * 86400) ∧ schedule.matchesTime (grid after 0) = false)

theorem seconds_one : Protocol.seconds 1 = 1000000000 := rfl

theorem seconds_sixty : Protocol.seconds 60 = 60000000000 := rfl

theorem grid_eq (after : Int) (step : Nat) :
    grid after step = after + 1000000000 + 60000000000 * step := by
  rw [grid, Protocol.seconds]
  omega

theorem IsNext.unique {after u v : Int} (first : schedule.IsNext after u)
    (second : schedule.IsNext after v) : u = v :=
  le_antisymm (first.2 v second.1) (second.2 u first.1)

variable {after u : Int} {j : Nat}

theorem exists_isNext (due : ∃ u, schedule.Due after u) : ∃ u, schedule.IsNext after u :=
  Int.exists_least_of_bdd ⟨after, fun _ due => due.later.le⟩ due

/-- Within a minute a schedule without seconds does not tell instants apart. -/
theorem matchesTime_congr (unseconded : schedule.seconds = none) {t : Int}
    (same : t / 60000000000 = u / 60000000000) :
    schedule.matchesTime t = schedule.matchesTime u := by
  have minute : minuteOf t = minuteOf u := by
    rw [minuteOf, minuteOf, seconds_sixty, same]
  have hour : hourOf t = hourOf u := by
    have hours : t / Protocol.seconds 3600 = u / Protocol.seconds 3600 := by
      show t / 3600000000000 = u / 3600000000000
      omega
    rw [hourOf, hourOf, hours]
  have day : dayNumber t = dayNumber u := by
    show t / 86400000000000 = u / 86400000000000
    omega
  have date : dateOf t = dateOf u := by rw [dateOf, dateOf, day]
  have weekday : numDaysFromMonday t = numDaysFromMonday u := by
    rw [numDaysFromMonday, numDaysFromMonday, day]
  simp only [matchesTime, unseconded, Option.any_none, Bool.false_eq_true, if_false, minute, hour,
    date, matchesDay, weekday]

theorem secondOf_eq_zero (whole : u % 1000000000 = 0) : secondOf u = 0 ↔ u % 60000000000 = 0 := by
  rw [secondOf, seconds_one]
  omega

/-- An instant on the grid that matches is due, if the grid has the seconds that are meant. -/
theorem due_grid (whole : after % 1000000000 = 0)
    (found : schedule.matchesTime (grid after j) = true)
    (second : schedule.seconds = none → (after + 1000000000) % 60000000000 = 0) :
    schedule.Due after (grid after j) := by
  have place := grid_eq after j
  have wholeGrid : grid after j % 1000000000 = 0 := by omega
  refine ⟨by omega, by rw [seconds_one]; exact wholeGrid, found, fun unseconded => ?_⟩
  rw [secondOf_eq_zero wholeGrid]
  have minute := second unseconded
  omega

/-- Nothing on the grid matches before a least due instant that is on it. -/
theorem IsNext.not_grid_lt (whole : after % 1000000000 = 0) {k : Nat}
    (next : schedule.IsNext after (grid after k)) (earlier : j < k) :
    schedule.matchesTime (grid after j) ≠ true := by
  intro found
  have here := grid_eq after k
  have there := grid_eq after j
  have wholeGrid : grid after k % 1000000000 = 0 := by omega
  have due := due_grid whole found fun unseconded => by
    have second := (secondOf_eq_zero wholeGrid).mp (next.1.second unseconded)
    omega
  have least := next.2 _ due
  omega

/-- Nor does any of them before the instant 1460 days later, if that is the least due one and the
first of them does not match. -/
theorem IsNext.not_grid_fallback (whole : after % 1000000000 = 0)
    (next : schedule.IsNext after (after + 126144000000000000))
    (first : schedule.matchesTime (grid after 0) = false) (few : j < searchSteps) :
    schedule.matchesTime (grid after j) ≠ true := by
  intro found
  have place := grid_eq after j
  have bound : j < 2102400 := few
  have wholeEnd : (after + 126144000000000000) % 1000000000 = 0 := by omega
  cases seconded : schedule.seconds with
  | some field =>
    have least := next.2 _ (due_grid whole found fun unseconded => by
      rw [seconded] at unseconded
      cases unseconded)
    omega
  | none =>
    -- the search looks at the first second of each minute, and the minute begins with it
    have minute := (secondOf_eq_zero wholeEnd).mp (next.1.second seconded)
    have positive : j ≠ 0 := by
      rintro rfl
      rw [first] at found
      cases found
    have begins : (grid after j - 1000000000) % 60000000000 = 0 := by omega
    have wholeBegin : (grid after j - 1000000000) % 1000000000 = 0 := by omega
    have same := matchesTime_congr seconded
      (show (grid after j - 1000000000) / 60000000000 = grid after j / 60000000000 by omega)
    have least := next.2 (grid after j - 1000000000) ⟨by omega, by
      rw [seconds_one]
      exact wholeBegin, same.trans found, fun _ => (secondOf_eq_zero wholeBegin).mpr begins⟩
    omega

/-- The next run is the next due instant just when that lies on the grid, for as long as there is
one. -/
theorem findsNext_iff (schedule : CronSchedule) (after : Int) :
    schedule.FindsNext after ↔ ∀ u, schedule.IsNext after u → schedule.OnGrid after u := by
  constructor
  · intro finds u next
    have same : schedule.nextAfter after = u := (finds ⟨u, next.1⟩).unique next
    have whole : u % 1000000000 = 0 := next.1.whole
    obtain ⟨k, few, found, -⟩ | ⟨given, never⟩ := schedule.nextAfter_spec after
    · have reached : u = grid after k := same.symm.trans found
      have place := grid_eq after k
      have wholeAfter : after % 1000000000 = 0 := by omega
      exact ⟨wholeAfter, .inl ⟨k, few, reached⟩⟩
    · rw [same] at given
      have far : u = after + 126144000000000000 := given
      have wholeAfter : after % 1000000000 = 0 := by omega
      exact ⟨wholeAfter, .inr ⟨given, never 0 (by decide)⟩⟩
  · intro onGrid due
    obtain ⟨u, next⟩ := exists_isNext due
    have reached := onGrid u next
    have whole : after % 1000000000 = 0 := reached.1
    suffices same : schedule.nextAfter after = u by rwa [same]
    obtain ⟨k, few, rfl⟩ | ⟨rfl, first⟩ := reached.2
    · obtain ⟨j, -, found, matched, earlier⟩ | ⟨-, never⟩ := schedule.nextAfter_spec after
      · obtain before | rfl | behind := Nat.lt_trichotomy j k
        · exact absurd matched (next.not_grid_lt whole before)
        · exact found
        · have unmatched := earlier k behind
          rw [next.1.due] at unmatched
          cases unmatched
      · have unmatched := never k few
        rw [next.1.due] at unmatched
        cases unmatched
    · obtain ⟨j, few, -, matched, -⟩ | ⟨given, -⟩ := schedule.nextAfter_spec after
      · exact absurd matched (next.not_grid_fallback whole first few)
      · exact given

end CronSchedule

/-! ## What a parsed schedule holds -/

namespace CronParser

theorem parseField_within {text : List Char} {bounds : FieldBounds} {field : CronField}
    (read : parseField text bounds = some (.ok field)) : field.Within bounds := by
  by_cases star : text = ['*']
  · subst star
    cases read
    have members : ∀ value, value ∈ Finset.Icc bounds.min bounds.max ↔ bounds.Inside value :=
      fun value => Finset.mem_Icc
    exact ⟨fun value => (members value).mp,
      fun _ => (members _).mpr ⟨Nat.le_refl _, bounds.ordered⟩, fun _ value => (members value).mpr⟩
  · by_cases taken : Taken bounds text
    · obtain panics | ⟨field, found, within⟩ := outcome_of_taken taken
      · cases panics.symm.trans read
      · cases found.symm.trans read
        exact within
    · obtain ⟨error, refused⟩ := refused_of_not_taken star taken
      cases refused.symm.trans read

theorem andThen_eq_ok {α β : Type} {result : Option (Except ScheduleConflict α)}
    {next : α → Option (Except ScheduleConflict β)} {value : β} :
    andThen result next = some (.ok value) ↔
      ∃ first, result = some (.ok first) ∧ next first = some (.ok value) := by
  unfold andThen
  split <;> simp

end CronParser

/-- What the parser gives. -/
structure CronSchedule.Parsed (schedule : CronSchedule) : Prop where
  seconds : ∀ field ∈ schedule.seconds, field.Within CronParser.minuteBounds
  minutes : schedule.minutes.Within CronParser.minuteBounds
  hours : schedule.hours.Within hourBounds
  daysOfMonth : schedule.daysOfMonth.Within dayBounds
  months : schedule.months.Within monthBounds
  daysOfWeek : schedule.daysOfWeek.Within weekdayBounds

namespace CronParser

theorem parseDate_parsed {expression : List Char} {includeSeconds : Bool}
    {seconds : Option CronField} {minutes hours daysOfMonth months daysOfWeek : List Char}
    {schedule : CronSchedule} (checked : ∀ field ∈ seconds, field.Within minuteBounds)
    (read : parseDate expression includeSeconds seconds minutes hours daysOfMonth months
      daysOfWeek = some (.ok schedule)) : schedule.Parsed := by
  obtain ⟨_, minutes, read⟩ := andThen_eq_ok.mp read
  obtain ⟨_, hours, read⟩ := andThen_eq_ok.mp read
  obtain ⟨_, daysOfMonth, read⟩ := andThen_eq_ok.mp read
  obtain ⟨_, months, read⟩ := andThen_eq_ok.mp read
  obtain ⟨_, daysOfWeek, read⟩ := andThen_eq_ok.mp read
  cases read
  exact ⟨checked, parseField_within minutes, parseField_within hours,
    parseField_within daysOfMonth, parseField_within months, parseField_within daysOfWeek⟩

theorem parse_parsed {parser : CronParser} {expression : List Char} {schedule : CronSchedule}
    (read : parser.parse expression = some (.ok schedule)) : schedule.Parsed := by
  rw [parse] at read
  split at read
  · obtain ⟨seconds, found, read⟩ := andThen_eq_ok.mp read
    refine parseDate_parsed ?_ read
    intro field member
    obtain rfl := Option.mem_some_iff.mp member
    exact parseField_within found
  · exact parseDate_parsed (by simp) read
  · cases read

end CronParser

/-! ## The days on which a schedule is due -/

/-- An instant has every time of day, and every weekday for each day of a month. -/
theorem exists_instant {second minute hour month day weekday : Nat} (secondFits : second < 60)
    (minuteFits : minute < 60) (hourFits : hour < 24) (first : 1 ≤ month) (last : month ≤ 12)
    (positive : 1 ≤ day) (fits : day ≤ longest month) (weekdayFits : weekday < 7) :
    ∃ dt : Int, secondOf dt = second ∧ minuteOf dt = minute ∧ hourOf dt = hour ∧
      dateOf dt = ⟨month, day⟩ ∧ numDaysFromSunday dt = weekday := by
  obtain ⟨days, found, falls⟩ := exists_monthDay first last positive fits ((weekday + 1) % 7)
    (Nat.mod_lt _ (by decide))
  obtain ⟨dt, place⟩ : ∃ dt : Int, dt = (days + 10957) * 86400000000000 +
      hour * 3600000000000 + minute * 60000000000 + second * 1000000000 := ⟨_, rfl⟩
  have number : dayNumber dt = days + 10957 := by
    show dt / 86400000000000 = days + 10957
    omega
  refine ⟨dt, ?_, ?_, ?_, ?_, ?_⟩
  · show (dt / 1000000000 % 60).toNat = second
    omega
  · show (dt / 60000000000 % 60).toNat = minute
    omega
  · show (dt / 3600000000000 % 24).toNat = hour
    omega
  · rw [dateOf, number, Int.add_sub_cancel, found]
  · rw [numDaysFromSunday, number]
    omega

theorem numDaysFromMonday_eq (dt : DateTime) :
    numDaysFromMonday dt = (numDaysFromSunday dt + 6) % 7 := by
  rw [numDaysFromMonday, numDaysFromSunday]
  omega

theorem numDaysFromSunday_lt (dt : DateTime) : numDaysFromSunday dt < 7 := by
  rw [numDaysFromSunday]
  omega

/-- What holds of a weekday just when it holds of the day before holds of all or of none. -/
theorem weekday_const {holds : Nat → Prop}
    (same : ∀ weekday < 7, holds ((weekday + 6) % 7) ↔ holds weekday) {weekday : Nat}
    (fits : weekday < 7) : holds weekday ↔ holds 0 := by
  induction weekday with
  | zero => exact Iff.rfl
  | succ weekday ih =>
    have before : (weekday + 1 + 6) % 7 = weekday := by omega
    rw [← same (weekday + 1) fits, before]
    exact ih (by omega)

namespace CronSchedule

variable {schedule : CronSchedule}

/-- The fields other than those of the day. -/
structure TimeMatches (schedule : CronSchedule) (dt : DateTime) : Prop where
  second : ∀ field ∈ schedule.seconds, secondOf dt ∈ field.values
  minute : minuteOf dt ∈ schedule.minutes.values
  hour : hourOf dt ∈ schedule.hours.values
  month : (dateOf dt).month ∈ schedule.months.values

/-- The rule of cron for a day of the month and a day of the week, counted from Sunday. -/
def DayRule (schedule : CronSchedule) (day weekday : Nat) : Prop :=
  match schedule.daysOfMonth.restricted, schedule.daysOfWeek.restricted with
  | true, true => day ∈ schedule.daysOfMonth.values ∨ weekday ∈ schedule.daysOfWeek.values
  | true, false => day ∈ schedule.daysOfMonth.values
  | false, true => weekday ∈ schedule.daysOfWeek.values
  | false, false => True

def FollowsCron (schedule : CronSchedule) : Prop :=
  ∀ dt, schedule.matchesTime dt = true ↔
    schedule.TimeMatches dt ∧ schedule.DayRule (dateOf dt).day (numDaysFromSunday dt)

/-- The rule of the code. -/
def DayTest (schedule : CronSchedule) (day weekday : Nat) : Prop :=
  day ∈ schedule.daysOfMonth.values ∨ (weekday + 6) % 7 ∈ schedule.daysOfWeek.values ∨
    schedule.daysOfMonth.isWildcard = true ∧ schedule.daysOfWeek.isWildcard = true

/-- Some field other than those of the day has no value. -/
def Vacant (schedule : CronSchedule) : Prop :=
  (∃ field ∈ schedule.seconds, field.values = ∅) ∨ schedule.minutes.values = ∅ ∨
    schedule.hours.values = ∅ ∨ schedule.months.values = ∅

/-- Each day that a month of the schedule can have. -/
def AllDays (schedule : CronSchedule) : Prop :=
  ∀ month ∈ schedule.months.values, ∀ day, 1 ≤ day → day ≤ longest month →
    day ∈ schedule.daysOfMonth.values

def AllWeekdays (schedule : CronSchedule) : Prop :=
  ∀ weekday < 7, weekday ∈ schedule.daysOfWeek.values

/-- The restrictions of the days that the code does not get wrong. -/
def DaysHarmless (schedule : CronSchedule) : Prop :=
  match schedule.daysOfMonth.restricted, schedule.daysOfWeek.restricted with
  | true, true =>
    schedule.AllDays ∨ schedule.AllWeekdays ∨ schedule.daysOfWeek.values = ∅
  | true, false => schedule.AllDays
  | false, true => schedule.AllWeekdays
  | false, false => True

theorem matchesDay_iff (dt : DateTime) : schedule.matchesDay dt = true ↔
    schedule.DayTest (dateOf dt).day (numDaysFromSunday dt) := by
  rw [DayTest, ← numDaysFromMonday_eq, matchesDay]
  simp only [Bool.not_eq_true', Bool.and_eq_false_iff, Bool.not_eq_false', decide_eq_true_eq,
    Bool.and_eq_true]
  tauto

theorem matchesTime_iff (dt : DateTime) : schedule.matchesTime dt = true ↔
    schedule.TimeMatches dt ∧ schedule.DayTest (dateOf dt).day (numDaysFromSunday dt) := by
  have seconds : (¬ schedule.seconds.any (fun field => secondOf dt ∉ field.values) = true) ↔
      ∀ field ∈ schedule.seconds, secondOf dt ∈ field.values := by
    cases schedule.seconds <;> simp
  rw [← matchesDay_iff, matchesTime]
  simp only [Bool.if_false_left, Bool.and_eq_true, Bool.not_eq_true', decide_eq_false_iff_not,
    not_not, seconds]
  constructor
  · rintro ⟨second, minute, hour, month, day⟩
    exact ⟨⟨second, minute, hour, month⟩, day⟩
  · rintro ⟨⟨second, minute, hour, month⟩, day⟩
    exact ⟨second, minute, hour, month, day⟩

/-- A schedule that is not vacant has a time of day in each month it has. -/
theorem exists_timeMatches (parsed : schedule.Parsed) (occupied : ¬ schedule.Vacant)
    {month day weekday : Nat} (inYear : month ∈ schedule.months.values) (positive : 1 ≤ day)
    (fits : day ≤ longest month) (weekdayFits : weekday < 7) :
    ∃ dt, schedule.TimeMatches dt ∧ dateOf dt = ⟨month, day⟩ ∧ numDaysFromSunday dt = weekday := by
  obtain ⟨noSecond, noMinute, noHour, -⟩ :
      (¬ ∃ field ∈ schedule.seconds, field.values = ∅) ∧ schedule.minutes.values ≠ ∅ ∧
        schedule.hours.values ≠ ∅ ∧ schedule.months.values ≠ ∅ := by
    simpa only [Vacant, not_or] using occupied
  obtain ⟨second, secondFits, seconds⟩ :
      ∃ second < 60, ∀ field ∈ schedule.seconds, second ∈ field.values := by
    cases given : schedule.seconds with
    | none => exact ⟨0, by decide, by simp⟩
    | some field =>
      have present : field ∈ schedule.seconds := given
      obtain ⟨second, member⟩ := Finset.nonempty_iff_ne_empty.mpr
        fun empty => noSecond ⟨field, present, empty⟩
      have inside := (parsed.seconds field present).inside second member
      refine ⟨second, Nat.lt_succ_of_le inside.2, fun other same => ?_⟩
      obtain rfl := Option.mem_some_iff.mp same
      exact member
  obtain ⟨minute, minuteMember⟩ := Finset.nonempty_iff_ne_empty.mpr noMinute
  obtain ⟨hour, hourMember⟩ := Finset.nonempty_iff_ne_empty.mpr noHour
  have minuteFits := (parsed.minutes.inside minute minuteMember).2
  have hourFits := (parsed.hours.inside hour hourMember).2
  have monthFits := parsed.months.inside month inYear
  obtain ⟨dt, secondOfDt, minuteOfDt, hourOfDt, date, falls⟩ := exists_instant secondFits
    (Nat.lt_succ_of_le minuteFits) (Nat.lt_succ_of_le hourFits) monthFits.1 monthFits.2 positive
    fits weekdayFits
  refine ⟨dt, ⟨?_, ?_, ?_, ?_⟩, date, falls⟩
  · rw [secondOfDt]
    exact seconds
  · rw [minuteOfDt]
    exact minuteMember
  · rw [hourOfDt]
    exact hourMember
  · rw [date]
    exact inYear

theorem Vacant.not_timeMatches (vacant : schedule.Vacant) (dt : DateTime) :
    ¬ schedule.TimeMatches dt := by
  rintro ⟨second, minute, hour, month⟩
  obtain ⟨field, present, empty⟩ | empty | empty | empty := vacant
  · have member := second field present
    simp [empty] at member
  · simp [empty] at minute
  · simp [empty] at hour
  · simp [empty] at month

/-- The two rules are compared day by day. -/
theorem followsCron_iff_days (parsed : schedule.Parsed) : schedule.FollowsCron ↔
    schedule.Vacant ∨ ∀ month ∈ schedule.months.values, ∀ day, 1 ≤ day → day ≤ longest month →
      ∀ weekday < 7, schedule.DayTest day weekday ↔ schedule.DayRule day weekday := by
  constructor
  · intro follows
    by_cases vacant : schedule.Vacant
    · exact .inl vacant
    · refine .inr fun month inYear day positive fits weekday weekdayFits => ?_
      obtain ⟨dt, time, date, falls⟩ :=
        exists_timeMatches parsed vacant inYear positive fits weekdayFits
      have agree := (matchesTime_iff dt).symm.trans (follows dt)
      rwa [and_iff_right time, and_iff_right time, date, falls] at agree
  · rintro (vacant | agree) dt
    · have never := vacant.not_timeMatches dt
      rw [matchesTime_iff]
      exact ⟨fun both => absurd both.1 never, fun both => absurd both.1 never⟩
    · rw [matchesTime_iff]
      refine and_congr_right fun time => ?_
      obtain ⟨-, -, positive, fits⟩ := monthDay_spec (dayNumber dt - 10957)
      exact agree _ time.month _ positive fits _ (numDaysFromSunday_lt dt)

/-- Days of the week that the code gets wrong by a day do no harm if they are all there, or none
is. -/
theorem weekdays_harmless (parsed : schedule.Parsed)
    (same : ∀ weekday < 7, ((weekday + 6) % 7 ∈ schedule.daysOfWeek.values ∨
      schedule.daysOfMonth.isWildcard = true ∧ schedule.daysOfWeek.isWildcard = true) ↔
        weekday ∈ schedule.daysOfWeek.values) :
    schedule.AllWeekdays ∨ schedule.daysOfWeek.values = ∅ := by
  by_cases wild : schedule.daysOfMonth.isWildcard = true ∧ schedule.daysOfWeek.isWildcard = true
  · exact .inl fun weekday fits => (same weekday fits).mp (.inr wild)
  · simp only [or_iff_left wild] at same
    by_cases first : 0 ∈ schedule.daysOfWeek.values
    · exact .inl fun weekday fits => (weekday_const same fits).mpr first
    · refine .inr (Finset.eq_empty_of_forall_notMem fun weekday member => first ?_)
      have fits := (parsed.daysOfWeek.inside weekday member).2
      exact (weekday_const same (Nat.lt_succ_of_le fits)).mp member

/-- With both fields restricted the code is wrong about a day that is not in its field, unless it is
not wrong about any weekday. -/
theorem bothRestricted_iff (parsed : schedule.Parsed) :
    (∀ month ∈ schedule.months.values, ∀ day, 1 ≤ day → day ≤ longest month → ∀ weekday < 7,
      (day ∈ schedule.daysOfMonth.values ∨ (weekday + 6) % 7 ∈ schedule.daysOfWeek.values ∨
        schedule.daysOfMonth.isWildcard = true ∧ schedule.daysOfWeek.isWildcard = true) ↔
      (day ∈ schedule.daysOfMonth.values ∨ weekday ∈ schedule.daysOfWeek.values)) ↔
    schedule.AllDays ∨ schedule.AllWeekdays ∨ schedule.daysOfWeek.values = ∅ := by
  constructor
  · intro agree
    by_cases all : schedule.AllDays
    · exact .inl all
    · simp only [AllDays, not_forall] at all
      obtain ⟨month, inYear, day, positive, fits, other⟩ := all
      refine .inr (weekdays_harmless parsed fun weekday weekdayFits => ?_)
      have same := agree month inYear day positive fits weekday weekdayFits
      rwa [or_iff_right other, or_iff_right other] at same
  · intro harmless month inYear day positive fits weekday weekdayFits
    obtain all | every | empty := harmless
    · have member := all month inYear day positive fits
      exact iff_of_true (.inl member) (.inl member)
    · exact iff_of_true (.inr (.inl (every _ (Nat.mod_lt _ (by decide)))))
        (.inr (every _ weekdayFits))
    · have marked : ¬ schedule.daysOfWeek.isWildcard = true := fun wild => by
        have zero := parsed.daysOfWeek.star wild
        simp [empty] at zero
      simp [empty, marked]

theorem daysHarmless_iff (parsed : schedule.Parsed) (occupied : schedule.months.values ≠ ∅) :
    (∀ month ∈ schedule.months.values, ∀ day, 1 ≤ day → day ≤ longest month →
      ∀ weekday < 7, schedule.DayTest day weekday ↔ schedule.DayRule day weekday) ↔
        schedule.DaysHarmless := by
  obtain ⟨january, present⟩ := Finset.nonempty_iff_ne_empty.mpr occupied
  have januaryFits := parsed.months.inside january present
  have januaryDays := longest_bounds januaryFits.1 januaryFits.2
  cases byDay : schedule.daysOfMonth.restricted with
  | true =>
    cases byWeekday : schedule.daysOfWeek.restricted with
    | true =>
      simp only [DayRule, DaysHarmless, byDay, byWeekday, DayTest]
      exact bothRestricted_iff parsed
    | false =>
      have every : ∀ day weekday, schedule.DayTest day weekday := fun day weekday =>
        .inr (.inl (parsed.daysOfWeek.full byWeekday _ ⟨Nat.zero_le _, by
          have fits := Nat.mod_lt (weekday + 6) (by decide : 0 < 7)
          exact Nat.le_of_lt_succ fits⟩))
      simp only [DayRule, DaysHarmless, byDay, byWeekday, every, true_iff]
      constructor
      · intro agree month inYear day positive fits
        exact agree month inYear day positive fits 0 (by decide)
      · intro all month inYear day positive fits _ _
        exact all month inYear day positive fits
  | false =>
    have all : schedule.AllDays := fun month inYear day positive fits => by
      have monthFits := parsed.months.inside month inYear
      have most := (longest_bounds monthFits.1 monthFits.2).2
      exact parsed.daysOfMonth.full byDay day ⟨positive, fits.trans most⟩
    cases byWeekday : schedule.daysOfWeek.restricted with
    | true =>
      simp only [DayRule, DaysHarmless, byDay, byWeekday]
      constructor
      · intro agree weekday fits
        exact (agree january present 1 (Nat.le_refl 1) januaryDays.1 weekday fits).mp
          (.inl (all january present 1 (Nat.le_refl 1) januaryDays.1))
      · intro every month inYear day positive fits weekday weekdayFits
        exact ⟨fun _ => every weekday weekdayFits,
          fun _ => .inl (all month inYear day positive fits)⟩
    | false =>
      simp only [DayRule, DaysHarmless, byDay, byWeekday]
      refine iff_of_true (fun month inYear day positive fits weekday _ => ?_) trivial
      exact iff_of_true (.inl (all month inYear day positive fits)) trivial

/-- The next run is the next due instant just when that lies on the grid, and the days of a schedule
are those of cron just when no instant can tell them apart. -/
theorem findsNext_and_followsCron_iff {parser : CronParser} {expression : List Char}
    (read : parser.parse expression = some (.ok schedule)) :
    (∀ after, schedule.FindsNext after ↔
      ∀ u, schedule.IsNext after u → schedule.OnGrid after u) ∧
      (schedule.FollowsCron ↔ schedule.Vacant ∨ schedule.DaysHarmless) := by
  have parsed := CronParser.parse_parsed read
  refine ⟨schedule.findsNext_iff, ?_⟩
  rw [followsCron_iff_days parsed]
  by_cases occupied : schedule.months.values = ∅
  · have vacant : schedule.Vacant := .inr (.inr (.inr occupied))
    exact iff_of_true (.inl vacant) (.inl vacant)
  · rw [daysHarmless_iff parsed occupied]

end CronSchedule

namespace Presets

def everyMinute : List Char := "* * * * *".toList

def weeklyMonday9am : List Char := "0 9 * * 1".toList

end Presets

namespace CronSchedule

/-- The schedule of every minute follows the rule for the days. -/
theorem followsCron_everyMinute : ∃ schedule,
    CronParser.new.parse Presets.everyMinute = some (.ok schedule) ∧
      (∀ after, schedule.FindsNext after ↔
        ∀ u, schedule.IsNext after u → schedule.OnGrid after u) ∧ schedule.FollowsCron := by
  refine ⟨_, rfl, ?_⟩
  have both := findsNext_and_followsCron_iff
    (rfl : CronParser.new.parse Presets.everyMinute = some (.ok _))
  exact ⟨both.1, both.2.mpr (.inr trivial)⟩

theorem nextAfter_of_matchesTime {schedule : CronSchedule} {after : Int}
    (found : schedule.matchesTime (grid after 0) = true) :
    schedule.nextAfter after = grid after 0 := by
  obtain ⟨k, -, same, -, earlier⟩ | ⟨-, never⟩ := schedule.nextAfter_spec after
  · cases k with
    | zero => exact same
    | succ k =>
      have unmatched := earlier 0 (Nat.succ_pos k)
      rw [found] at unmatched
      cases unmatched
  · have unmatched := never 0 (by decide)
    rw [found] at unmatched
    cases unmatched

/-- Nine o'clock on the fourth of January 2000. -/
def tuesday : DateTime := Protocol.seconds (10960 * 86400 + 32400)

/-- From the first second of the year 2000 every minute comes next in a second; and the schedule of
Mondays holds on the Tuesday of that week, for its star at the days of the month, and on a Tuesday
also with another day there. -/
theorem not_findsNext_and_not_followsCron :
    (∃ schedule, CronParser.new.parse Presets.everyMinute = some (.ok schedule) ∧
      ¬ schedule.FindsNext (Protocol.seconds (10957 * 86400))) ∧
    (∃ schedule, CronParser.new.parse Presets.weeklyMonday9am = some (.ok schedule) ∧
      ¬ schedule.FollowsCron) ∧
    ∃ schedule, CronParser.new.parse "0 9 2 * 1".toList = some (.ok schedule) ∧
      ¬ schedule.FollowsCron := by
  refine ⟨⟨_, rfl, fun finds => ?_⟩, ⟨_, rfl, fun follows => ?_⟩, ⟨_, rfl, fun follows => ?_⟩⟩
  · have next := finds ⟨Protocol.seconds (10957 * 86400 + 60), by decide, by decide, by decide,
      fun _ => by decide⟩
    rw [nextAfter_of_matchesTime (by decide)] at next
    have second := next.1.second rfl
    revert second
    decide
  · have rule : numDaysFromSunday tuesday ∈ ({1} : Finset Nat) :=
      ((follows tuesday).mp (by decide)).2
    revert rule
    decide
  · have rule : (dateOf tuesday).day ∈ ({2} : Finset Nat) ∨
        numDaysFromSunday tuesday ∈ ({1} : Finset Nat) := ((follows tuesday).mp (by decide)).2
    revert rule
    decide

end CronSchedule

end UHorse.Scheduler
