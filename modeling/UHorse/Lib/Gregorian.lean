import Mathlib.Algebra.Ring.Nat
import Mathlib.Data.List.Basic

/-!
# The Gregorian calendar by counting days

Days are counted from the first of January 2000, the beginning of a cycle of 400 years in which the
calendar repeats itself. A day of the cycle is found year by year and then month by month. Every day
of a month, the last of February in a leap year included, falls on every day of the week.
-/

namespace UHorse.Lib.Gregorian

/-- Years are counted from 2000 on. -/
def isLeap (year : Nat) : Bool := year % 4 = 0 && (year % 100 ≠ 0 || year % 400 = 0)

def yearLength (year : Nat) : Nat := if isLeap year then 366 else 365

def cycleLength : Nat := 146097

/-- The lengths of the months. -/
def monthLengths (year : Nat) : List Nat :=
  [31, if isLeap year then 29 else 28, 31, 30, 31, 30, 31, 31, 30, 31, 30, 31]

/-- The year of a day and the days of it before that, counted from the beginning of a year. -/
def findYear : Nat → Nat → Nat → Nat × Nat
  | 0, year, days => (year, days)
  | fuel + 1, year, days =>
    if days < yearLength year then (year, days)
    else findYear fuel (year + 1) (days - yearLength year)

/-- The month of a day, counted from 1 on, and the day of the month. -/
def findMonth : Nat → List Nat → Nat → Nat × Nat
  | month, [], days => (month, days + 1)
  | month, length :: lengths, days =>
    if days < length then (month, days + 1) else findMonth (month + 1) lengths (days - length)

structure MonthDay where
  month : Nat
  day : Nat
deriving DecidableEq

/-- The month and the day of a day that is counted from the first of January 2000. -/
def monthDay (days : Int) : MonthDay :=
  let found := findYear 400 0 (days % cycleLength).toNat
  let place := findMonth 1 (monthLengths found.1) found.2
  ⟨place.1, place.2⟩

/-- The most days a month has. -/
def longest (month : Nat) : Nat := ((monthLengths 0)[month - 1]?).getD 0

example : monthDay 59 = ⟨2, 29⟩ := by decide

/-! ## A day that is found is one of its month -/

variable {days year month day : Nat}

theorem findYear_lt (fuel year : Nat) (few : days < ((List.range' year fuel).map yearLength).sum) :
    (findYear fuel year days).2 < yearLength (findYear fuel year days).1 := by
  induction fuel generalizing year days with
  | zero => simp at few
  | succ fuel ih =>
    rw [findYear]
    by_cases within : days < yearLength year
    · rw [if_pos within]
      exact within
    · rw [if_neg within]
      rw [List.range'_succ, List.map_cons, List.sum_cons] at few
      exact ih (year + 1) (by omega)

theorem findMonth_spec (month : Nat) {lengths : List Nat} (few : days < lengths.sum) :
    ∃ length ∈ lengths[(findMonth month lengths days).1 - month]?,
      month ≤ (findMonth month lengths days).1 ∧ 1 ≤ (findMonth month lengths days).2 ∧
        (findMonth month lengths days).2 ≤ length := by
  induction lengths generalizing month days with
  | nil => simp at few
  | cons length lengths ih =>
    rw [findMonth]
    by_cases within : days < length
    · rw [if_pos within]
      exact ⟨length, by simp, Nat.le_refl month, by omega, within⟩
    · rw [if_neg within]
      rw [List.sum_cons] at few
      have fewer : days - length < lengths.sum := by omega
      obtain ⟨longer, present, later, first, last⟩ := ih (month + 1) fewer
      refine ⟨longer, ?_, by omega, first, last⟩
      have place : (findMonth (month + 1) lengths (days - length)).1 - month =
          (findMonth (month + 1) lengths (days - length)).1 - (month + 1) + 1 := by omega
      rw [place, List.getElem?_cons_succ]
      exact present

theorem sum_monthLengths (year : Nat) : (monthLengths year).sum = yearLength year := by
  rw [monthLengths, yearLength]
  cases isLeap year <;> rfl

set_option maxRecDepth 4000 in
theorem sum_yearLengths : ((List.range' 0 400).map yearLength).sum = cycleLength := by decide

/-- No month has more days than in a leap year. -/
theorem le_longest {length : Nat} (present : length ∈ (monthLengths year)[month - 1]?) :
    month ≤ 12 ∧ length ≤ longest month := by
  have within : month - 1 < (monthLengths year).length :=
    (List.getElem?_eq_some_iff.mp (Option.mem_def.mp present)).1
  have twelve : (monthLengths year).length = 12 := rfl
  have shorter : ∀ i < 12, ((monthLengths year)[i]?).getD 0 ≤ ((monthLengths 0)[i]?).getD 0 := by
    rw [monthLengths]
    cases isLeap year <;> decide
  have most := shorter (month - 1) (by omega)
  rw [Option.mem_def.mp present, Option.getD_some] at most
  exact ⟨by omega, most⟩

theorem longest_bounds (first : 1 ≤ month) (last : month ≤ 12) :
    1 ≤ longest month ∧ longest month ≤ 31 := by
  have each : ∀ month < 13, 1 ≤ month → 1 ≤ longest month ∧ longest month ≤ 31 := by decide
  exact each month (by omega) first

/-- The day of a month that is found is one that the month has in a leap year. -/
theorem monthDay_spec (days : Int) : 1 ≤ (monthDay days).month ∧ (monthDay days).month ≤ 12 ∧
    1 ≤ (monthDay days).day ∧ (monthDay days).day ≤ longest (monthDay days).month := by
  have few : (days % cycleLength).toNat < ((List.range' 0 400).map yearLength).sum := by
    rw [sum_yearLengths]
    rw [cycleLength]
    omega
  have within := findYear_lt 400 0 few
  rw [← sum_monthLengths] at within
  obtain ⟨length, present, first, positive, last⟩ := findMonth_spec 1 within
  obtain ⟨inYear, most⟩ := le_longest present
  exact ⟨first, inYear, positive, Nat.le_trans last most⟩

/-! ## Every day of a month falls on every day of the week -/

theorem isLeap_of_lt (early : year < 100) : isLeap year = decide (year % 4 = 0) := by
  rw [isLeap]
  by_cases zero : year % 4 = 0
  · by_cases century : year % 100 = 0
    · have first : year % 400 = 0 := by omega
      simp [zero, first]
    · simp [zero, century]
  · simp [zero]

theorem yearLength_of_lt (early : year < 100) :
    yearLength year = if year % 4 = 0 then 366 else 365 := by
  rw [yearLength, isLeap_of_lt early]
  simp

/-- Four years before 2100 from a leap year on have 1461 days. -/
theorem findYear_block (leap : year % 4 = 0) (early : year + 4 ≤ 100) (fuel days : Nat) :
    findYear (fuel + 4) year (1461 + days) = findYear fuel (year + 4) days := by
  have lengths : yearLength year = 366 ∧ yearLength (year + 1) = 365 ∧
      yearLength (year + 2) = 365 ∧ yearLength (year + 3) = 365 := by
    rw [yearLength_of_lt (by omega), yearLength_of_lt (by omega), yearLength_of_lt (by omega),
      yearLength_of_lt (by omega), if_pos leap, if_neg (by omega), if_neg (by omega),
      if_neg (by omega)]
    exact ⟨rfl, rfl, rfl, rfl⟩
  obtain ⟨first, second, third, fourth⟩ := lengths
  rw [findYear, first, if_neg (by omega), findYear, second, if_neg (by omega), findYear, third,
    if_neg (by omega), findYear, fourth, if_neg (by omega)]
  have left : 1461 + days - 366 - 365 - 365 - 365 = days := by omega
  rw [left]

theorem findYear_blocks (leap : year % 4 = 0) (fuel : Nat) (within : days < 366) (blocks : Nat)
    (early : year + 4 * blocks < 97) :
    findYear (fuel + 1 + 4 * blocks) year (1461 * blocks + days) = (year + 4 * blocks, days) := by
  induction blocks generalizing year with
  | zero =>
    have length : yearLength year = 366 := by rw [yearLength_of_lt (by omega), if_pos leap]
    simp only [Nat.mul_zero, Nat.zero_add, Nat.add_zero]
    rw [findYear, length, if_pos within]
  | succ blocks ih =>
    have shape : 1461 * (blocks + 1) + days = 1461 + (1461 * blocks + days) := by omega
    have steps : fuel + 1 + 4 * (blocks + 1) = fuel + 1 + 4 * blocks + 4 := by omega
    rw [shape, steps, findYear_block leap (by omega), ih (by omega) (by omega)]
    have later : year + 4 + 4 * blocks = year + 4 * (blocks + 1) := by omega
    rw [later]

theorem findMonth_append {length day : Nat} (fits : day < length) (front rest : List Nat)
    (month : Nat) :
    findMonth month (front ++ length :: rest) (front.sum + day) =
      (month + front.length, day + 1) := by
  induction front generalizing month with
  | nil =>
    simp only [List.nil_append, List.sum_nil, Nat.zero_add]
    rw [findMonth, if_pos fits]
    rfl
  | cons first front ih =>
    have left : (first :: front).sum + day - first = front.sum + day := by
      rw [List.sum_cons]
      omega
    have later : ¬ (first :: front).sum + day < first := by
      rw [List.sum_cons]
      omega
    rw [List.cons_append, findMonth, if_neg later, left, ih, List.length_cons]
    congr 1
    omega

/-- The days of a leap year are found month by month. -/
theorem findMonth_leap (first : 1 ≤ month) (last : month ≤ 12) (positive : 1 ≤ day)
    (fits : day ≤ longest month) :
    ∃ days < 366, findMonth 1 (monthLengths 0) days = (month, day) := by
  have inside : month - 1 < (monthLengths 0).length := by
    have length : (monthLengths 0).length = 12 := rfl
    omega
  have cut : monthLengths 0 = (monthLengths 0).take (month - 1) ++
      (monthLengths 0)[month - 1] :: (monthLengths 0).drop (month - 1 + 1) := by
    rw [List.getElem_cons_drop, List.take_append_drop]
  have length : longest month = (monthLengths 0)[month - 1] := by
    rw [longest, List.getElem?_eq_getElem inside, Option.getD_some]
  have total : (monthLengths 0).sum = 366 := by decide
  rw [length] at fits
  refine ⟨((monthLengths 0).take (month - 1)).sum + (day - 1), ?_, ?_⟩
  · rw [cut, List.sum_append, List.sum_cons] at total
    omega
  · have short : day - 1 < (monthLengths 0)[month - 1] := by omega
    have found := findMonth_append short ((monthLengths 0).take (month - 1))
      ((monthLengths 0).drop (month - 1 + 1)) 1
    rw [← cut] at found
    rw [found, List.length_take, Nat.min_eq_left (Nat.le_of_lt inside)]
    congr 1 <;> omega

theorem monthLengths_of_isLeap (leap : isLeap year = true) :
    monthLengths year = monthLengths 0 := by
  rw [monthLengths, leap]
  rfl

/-- Every day that a month has in a leap year falls on every day of the week. -/
theorem exists_monthDay (first : 1 ≤ month) (last : month ≤ 12) (positive : 1 ≤ day)
    (fits : day ≤ longest month) (weekday : Nat) (small : weekday < 7) :
    ∃ days : Nat, monthDay days = ⟨month, day⟩ ∧ days % 7 = weekday := by
  obtain ⟨within, few, found⟩ := findMonth_leap first last positive fits
  have shifts : ∀ rest < 7, ∀ weekday < 7, ∃ blocks < 7, (1461 * blocks + rest) % 7 = weekday := by
    decide
  obtain ⟨blocks, early, falls⟩ := shifts (within % 7) (Nat.mod_lt _ (by decide)) weekday small
  refine ⟨1461 * blocks + within, ?_, by omega⟩
  have year : findYear 400 0 (1461 * blocks + within) = (4 * blocks, within) := by
    have walked := findYear_blocks (Nat.zero_mod 4) (400 - 1 - 4 * blocks) few blocks (by omega)
    have fuel : 400 - 1 - 4 * blocks + 1 + 4 * blocks = 400 := by omega
    rw [fuel, Nat.zero_add] at walked
    exact walked
  have leap : isLeap (4 * blocks) = true := by
    rw [isLeap_of_lt (by omega)]
    simp
  have day : ((1461 * blocks + within : Nat) : Int) % cycleLength =
      ((1461 * blocks + within : Nat) : Int) := by
    refine Int.emod_eq_of_lt (Int.natCast_nonneg _) ?_
    rw [cycleLength]
    omega
  simp only [monthDay]
  rw [day, Int.toNat_natCast, year]
  simp only [monthLengths_of_isLeap leap, found]

end UHorse.Lib.Gregorian
