import Mathlib.Data.List.Basic
import Mathlib.Tactic.IntervalCases

/-!
# Civil dates and times

The proleptic Gregorian calendar: the number of a day, and the moment of a date and
time of day on an unbounded axis of nanoseconds without leap seconds.
-/
namespace Civil

def isLeapYear (year : Int) : Bool := year % 4 = 0 ∧ (year % 100 ≠ 0 ∨ year % 400 = 0)

def daysInMonth (year : Int) (month : Nat) : Nat :=
  if month = 2 then if isLeapYear year then 29 else 28
  else if month ∈ [4, 6, 9, 11] then 30 else 31

def daysInYear (year : Int) : Nat := if isLeapYear year then 366 else 365

/-- Days from the first of January of the year 1 to that of the given year. -/
def daysBeforeYear (year : Int) : Int :=
  365 * (year - 1) + (year - 1) / 4 - (year - 1) / 100 + (year - 1) / 400

/-- Days of the year before the given month. -/
def daysBeforeMonth (year : Int) (month : Nat) : Nat :=
  ((List.range' 1 (month - 1)).map (daysInMonth year)).sum

structure DateTime where
  year : Int
  month : Nat
  day : Nat
  hour : Nat
  minute : Nat
  second : Nat
  nanosecond : Nat
  deriving DecidableEq, Repr

/-- The fields name a day of the calendar and a time of the day. -/
structure DateTime.Valid (d : DateTime) : Prop where
  month : 1 ≤ d.month ∧ d.month ≤ 12
  day : 1 ≤ d.day ∧ d.day ≤ daysInMonth d.year d.month
  hour : d.hour < 24
  minute : d.minute < 60
  second : d.second < 60
  nanosecond : d.nanosecond < 10 ^ 9

def DateTime.dayNumber (d : DateTime) : Int :=
  daysBeforeYear d.year + daysBeforeMonth d.year d.month + d.day - 1

def nanosPerDay : Int := 86400 * 10 ^ 9

/-- Nanoseconds since the beginning of the year 1. -/
def DateTime.nanos (d : DateTime) : Int :=
  d.dayNumber * nanosPerDay + (d.hour * 3600 + d.minute * 60 + d.second) * 10 ^ 9 + d.nanosecond

/-- The beginning of a year. -/
def yearStart (year : Int) : DateTime := ⟨year, 1, 1, 0, 0, 0, 0⟩

theorem nanos_yearStart (year : Int) :
    (yearStart year).nanos = daysBeforeYear year * nanosPerDay := by
  have hday : (yearStart year).dayNumber = daysBeforeYear year := by
    simp [DateTime.dayNumber, yearStart, daysBeforeMonth]
  rw [DateTime.nanos, hday]
  simp [yearStart]

theorem daysBeforeYear_succ (year : Int) :
    daysBeforeYear (year + 1) = daysBeforeYear year + daysInYear year := by
  rw [daysBeforeYear, daysBeforeYear, daysInYear]
  by_cases hleap : isLeapYear year = true
  · rw [if_pos hleap]
    simp only [isLeapYear, decide_eq_true_eq] at hleap
    omega
  · rw [if_neg hleap]
    simp only [isLeapYear, decide_eq_true_eq] at hleap
    omega

theorem daysBeforeYear_le {year year' : Int} (h : year ≤ year') :
    daysBeforeYear year ≤ daysBeforeYear year' := by
  rw [daysBeforeYear, daysBeforeYear]
  omega

/-- The months of a year make up the year. -/
theorem daysBeforeMonth_add_le (year : Int) {month : Nat} (hlow : 1 ≤ month) (hhigh : month ≤ 12) :
    daysBeforeMonth year month + daysInMonth year month ≤ daysInYear year := by
  cases hleap : isLeapYear year <;> interval_cases month <;>
    simp [daysBeforeMonth, daysInMonth, daysInYear, hleap, List.range']

variable {d : DateTime}

theorem DateTime.Valid.dayNumber (h : d.Valid) :
    daysBeforeYear d.year ≤ d.dayNumber ∧ d.dayNumber < daysBeforeYear (d.year + 1) := by
  have hmonths := daysBeforeMonth_add_le d.year h.month.1 h.month.2
  have hday := h.day
  rw [daysBeforeYear_succ, DateTime.dayNumber]
  omega

/-- A date and time lies in its year. -/
theorem DateTime.Valid.nanos (h : d.Valid) :
    (yearStart d.year).nanos ≤ d.nanos ∧ d.nanos < (yearStart (d.year + 1)).nanos := by
  obtain ⟨hlow, hhigh⟩ := h.dayNumber
  have hour := h.hour
  have hminute := h.minute
  have hsecond := h.second
  have hnano := h.nanosecond
  rw [nanos_yearStart, nanos_yearStart, DateTime.nanos, nanosPerDay]
  omega

/-- The year of a date and time tells on which side of the beginning of a year it is. -/
theorem DateTime.Valid.le_year_iff (h : d.Valid) (year : Int) :
    year ≤ d.year ↔ (yearStart year).nanos ≤ d.nanos := by
  obtain ⟨hlow, hhigh⟩ := h.nanos
  rw [nanos_yearStart] at hlow hhigh ⊢
  rw [nanosPerDay] at hlow hhigh ⊢
  constructor
  · intro hle
    have := daysBeforeYear_le hle
    omega
  · intro hle
    by_contra hlt
    have := daysBeforeYear_le (show d.year + 1 ≤ year by omega)
    omega

end Civil
