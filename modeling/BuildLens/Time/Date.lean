/-
Calendar dates.

Dates are those of the Gregorian calendar, extended to all years.  A date is valid by its
type, and it knows the next and the previous day, which is all that a change of the time
zone needs.  Distances between dates go through the day number.
-/
namespace BuildLens

/-- Whether a year has a 29th of February. -/
def isLeapYear (year : Int) : Bool :=
  year % 4 == 0 && (year % 100 != 0 || year % 400 == 0)

/-- The number of days of a month. -/
def daysInMonth (year : Int) (month : Nat) : Nat :=
  if month = 2 then (if isLeapYear year then 29 else 28)
  else if month = 4 ∨ month = 6 ∨ month = 9 ∨ month = 11 then 30
  else 31

theorem one_le_daysInMonth (year : Int) (month : Nat) : 1 ≤ daysInMonth year month := by
  unfold daysInMonth
  split
  · split <;> omega
  · split <;> omega

/-- A date of the Gregorian calendar. -/
structure Date where
  /-- The year; the year before year 1 is year 0. -/
  year : Int
  /-- The month, from 1 to 12. -/
  month : Nat
  /-- The day of the month. -/
  day : Nat
  /-- The month is one of twelve. -/
  month_mem : 1 ≤ month ∧ month ≤ 12
  /-- The day is one of the month. -/
  day_mem : 1 ≤ day ∧ day ≤ daysInMonth year month
  deriving DecidableEq

namespace Date

/-- The date with given numbers, if there is one. -/
def of? (year : Int) (month day : Nat) : Option Date :=
  if hm : 1 ≤ month ∧ month ≤ 12 then
    if hd : 1 ≤ day ∧ day ≤ daysInMonth year month then some ⟨year, month, day, hm, hd⟩
    else none
  else none

/-- The first day of the next month. -/
def nextMonth (d : Date) : Date :=
  if h : d.month < 12 then
    ⟨d.year, d.month + 1, 1, ⟨by omega, by omega⟩, ⟨by omega, one_le_daysInMonth _ _⟩⟩
  else ⟨d.year + 1, 1, 1, ⟨by omega, by omega⟩, ⟨by omega, one_le_daysInMonth _ _⟩⟩

/-- The last day of the previous month. -/
def previousMonth (d : Date) : Date :=
  if h : 1 < d.month then
    ⟨d.year, d.month - 1, daysInMonth d.year (d.month - 1),
      ⟨by omega, by have := d.month_mem; omega⟩, ⟨one_le_daysInMonth _ _, Nat.le_refl _⟩⟩
  else
    ⟨d.year - 1, 12, daysInMonth (d.year - 1) 12, ⟨by omega, by omega⟩,
      ⟨one_le_daysInMonth _ _, Nat.le_refl _⟩⟩

/-- The day after a date. -/
def next (d : Date) : Date :=
  if h : d.day < daysInMonth d.year d.month then
    ⟨d.year, d.month, d.day + 1, d.month_mem, ⟨by omega, by omega⟩⟩
  else d.nextMonth

/-- The day before a date. -/
def previous (d : Date) : Date :=
  if h : 1 < d.day then
    ⟨d.year, d.month, d.day - 1, d.month_mem, ⟨by omega, by have := d.day_mem; omega⟩⟩
  else d.previousMonth

/-- The date some days after a date. -/
def after (d : Date) (days : Nat) : Date :=
  Nat.repeat next days d

/-- The number of days of the months before a month. -/
def daysBeforeMonth (year : Int) (month : Nat) : Nat :=
  (List.range (month - 1)).foldl (fun days m => days + daysInMonth year (m + 1)) 0

/-- The number of days of the years before a year, counted from year 1; negative before
year 1. -/
def daysBeforeYear (year : Int) : Int :=
  let y := year - 1
  365 * y + y / 4 - y / 100 + y / 400

/-- The number of a date: each day has the number after that of the previous day. -/
def dayNumber (d : Date) : Int :=
  daysBeforeYear d.year + daysBeforeMonth d.year d.month + d.day

end Date

end BuildLens
