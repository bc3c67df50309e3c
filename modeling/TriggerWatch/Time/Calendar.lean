/-!
# The calendar

Dates of the Gregorian calendar, extended to all years, and their numbering by days. Day `0` is the
first of January of the year 1970.

## Main definitions

- `Calendar.isLeap`, `Calendar.monthLength` — the lengths of years and months
- `Calendar.daysBeforeYear` — the day number of the first of January
- `Calendar.Date` — a year, a month and a day
- `Calendar.Date.toDay`, `Calendar.dateOf` — between dates and day numbers

## Main statements

- `Calendar.daysBeforeYear_yearOf_le`, `Calendar.lt_daysBeforeYear_yearOf` — a day lies in its year
-/

namespace TriggerWatch.Calendar

/-- Every fourth year is a leap year, except that of the full centuries every fourth is. -/
def isLeap (year : Int) : Bool := year % 4 = 0 && (year % 100 ≠ 0 || year % 400 = 0)

/-- The day number of the first of January of a year. -/
def daysBeforeYear (year : Int) : Int :=
  let past := year - 1
  365 * past + past / 4 - past / 100 + past / 400 - 719162

/-- The number of days of a year. -/
def yearLength (year : Int) : Int := if isLeap year then 366 else 365

theorem daysBeforeYear_succ (year : Int) :
    daysBeforeYear (year + 1) = daysBeforeYear year + yearLength year := by
  simp only [daysBeforeYear, yearLength, isLeap, Bool.and_eq_true, Bool.or_eq_true,
    decide_eq_true_eq]
  split <;> omega

/-- The year that contains a day. The mean length of a year gives it up to one. -/
def yearOf (day : Int) : Int :=
  let guess := 400 * (day + 719162) / 146097 + 1
  if day < daysBeforeYear guess then guess - 1
  else if daysBeforeYear (guess + 1) ≤ day then guess + 1
  else guess

/-- A day does not lie before its year. -/
theorem daysBeforeYear_yearOf_le (day : Int) : daysBeforeYear (yearOf day) ≤ day := by
  simp only [yearOf]
  split
  · simp only [daysBeforeYear] at *
    omega
  · split
    · assumption
    · omega

/-- A day lies before the year after its year. -/
theorem lt_daysBeforeYear_yearOf (day : Int) : day < daysBeforeYear (yearOf day + 1) := by
  simp only [yearOf]
  split
  · simpa using by assumption
  · split
    · simp only [daysBeforeYear] at *
      omega
    · omega

/-- The number of days of the months of a year. -/
def monthLengths (leap : Bool) : List Nat :=
  [31, if leap then 29 else 28, 31, 30, 31, 30, 31, 31, 30, 31, 30, 31]

/-- The number of days of a month counted from one; other numbers name no month. -/
def monthLength (year : Int) (month : Nat) : Nat :=
  if month = 0 then 0 else (monthLengths (isLeap year)).getD (month - 1) 0

/-- The number of days of a year before a month counted from one. -/
def daysBeforeMonth (year : Int) (month : Nat) : Nat :=
  ((monthLengths (isLeap year)).take (month - 1)).foldr (· + ·) 0

/-- A date of the calendar. -/
structure Date where
  /-- The year; the year before the year 1 is the year 0. -/
  year : Int
  /-- The month from 1 to 12. -/
  month : Nat
  /-- The day of the month, from 1. -/
  day : Nat
deriving DecidableEq, Repr

/-- Whether the month and the day exist. -/
def Date.isValid (d : Date) : Bool :=
  1 ≤ d.month && d.month ≤ 12 && 1 ≤ d.day && d.day ≤ monthLength d.year d.month

/-- The number of a day. -/
def Date.toDay (d : Date) : Int :=
  daysBeforeYear d.year + daysBeforeMonth d.year d.month + d.day - 1

/-- The month and the day of the month of a day of the year, counted from zero. -/
def monthAndDay : List Nat → Nat → Nat × Nat
  | [], day => (1, day + 1)
  | length :: rest, day =>
    if day < length then (1, day + 1)
    else
      let (month, day) := monthAndDay rest (day - length)
      (month + 1, day)

/-- The date of a day. -/
def dateOf (day : Int) : Date :=
  let year := yearOf day
  let (month, dayOfMonth) := monthAndDay (monthLengths (isLeap year)) (day - daysBeforeYear year).toNat
  { year, month, day := dayOfMonth }

end TriggerWatch.Calendar
