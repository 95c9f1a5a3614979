/-!
# Dates and moments

A date of the Gregorian calendar with a year from 1 to 9999, and a moment of such a date to the
microsecond, with the distance from universal time where it is known. `Date.of?` and `Moment.of?`
refuse what the calendar and the clock do not have.
-/

namespace TemplateTree

/-- A date of the calendar. -/
structure Date where
  year : Nat
  month : Nat
  day : Nat
deriving DecidableEq, Repr

namespace Date

/-- Whether a year has a leap day. -/
def isLeap (year : Nat) : Bool := year % 4 = 0 && (year % 100 != 0 || year % 400 = 0)

/-- The number of days of a month. -/
def daysIn (year month : Nat) : Nat :=
  if month = 2 then (if isLeap year then 29 else 28)
  else if month = 4 || month = 6 || month = 9 || month = 11 then 30
  else 31

/-- The date with a given year, month and day, if there is one. -/
def of? (year month day : Nat) : Option Date :=
  if 1 ≤ year ∧ year ≤ 9999 ∧ 1 ≤ month ∧ month ≤ 12 ∧ 1 ≤ day ∧ day ≤ daysIn year month then
    some ⟨year, month, day⟩
  else
    none

/-- The number of days before a date, counted from the first day of year one. -/
def dayNumber (d : Date) : Nat :=
  let y := d.year - 1
  let months := (List.range (d.month - 1)).map fun m => daysIn d.year (m + 1)
  y * 365 + y / 4 - y / 100 + y / 400 + months.foldl Nat.add 0 + (d.day - 1)

end Date

/-- A moment of a day. The distance from universal time is in minutes. -/
structure Moment where
  date : Date
  hour : Nat
  minute : Nat
  second : Nat
  microsecond : Nat
  offset : Option Int
deriving DecidableEq, Repr

namespace Moment

/-- The moment of a date at a given time of day. The distance from universal time is less than a
    day. -/
def of? (date : Date) (hour minute second microsecond : Nat) (offset : Option Int) :
    Option Moment :=
  if hour < 24 ∧ minute < 60 ∧ second < 60 ∧ microsecond < 1000000
      ∧ (offset.getD 0).natAbs < 24 * 60 then
    some ⟨date, hour, minute, second, microsecond, offset⟩
  else
    none

/-- The microseconds of a moment since the first day of year one, in universal time where the
    distance is known. -/
def instant (m : Moment) : Int :=
  let minutes : Int := ((m.date.dayNumber * 24 + m.hour) * 60 + m.minute : Nat) - m.offset.getD 0
  (minutes * 60 + m.second) * 1000000 + m.microsecond

/-- Whether two moments are the same instant; one with a known distance from universal time and one
    without are never the same. -/
def sameInstant (a b : Moment) : Bool :=
  a.offset.isSome == b.offset.isSome && a.instant == b.instant

end Moment

end TemplateTree
