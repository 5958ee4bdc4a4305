import Outbox.Time.Instant

/-! # The Gregorian calendar

Days are numbered from 1970-01-01 and the calendar is extended to all years. A year is counted from
March here, so that the leap day is its last day: four hundred such years have 146097 days, a
hundred 36524, four 1461, and from March on the months follow the pattern of (153 m + 2) / 5.
-/

namespace Outbox

/-- A calendar date. Months and days count from 1. -/
structure Date where
  year : Int
  month : Nat
  day : Nat
  deriving DecidableEq, Repr

namespace Date

/-- Days from 0000-03-01 to 1970-01-01. -/
def epochOffset : Int := 719468

def isLeapYear (year : Int) : Bool := year % 4 == 0 && (year % 100 != 0 || year % 400 == 0)

def daysInMonth (year : Int) (month : Nat) : Nat :=
  match month with
  | 4 | 6 | 9 | 11 => 30
  | 2 => if isLeapYear year then 29 else 28
  | _ => 31

/-- The date exists in the calendar. -/
def Exists (d : Date) : Prop :=
  1 ≤ d.month ∧ d.month ≤ 12 ∧ 1 ≤ d.day ∧ d.day ≤ daysInMonth d.year d.month

instance (d : Date) : Decidable d.Exists :=
  inferInstanceAs (Decidable (1 ≤ d.month ∧ d.month ≤ 12 ∧ 1 ≤ d.day ∧
    d.day ≤ daysInMonth d.year d.month))

/-- Day `dayOfEra` of an era of 400 years that begins in March: the year of the era and the day of
that year, both counted from 0. The last century of an era and the last year of four are a day
longer, hence the bounds of 3. -/
def yearOfEra (dayOfEra : Nat) : Nat × Nat :=
  let century := min (dayOfEra / 36524) 3
  let dayOfCentury := dayOfEra - century * 36524
  let cycle := dayOfCentury / 1461
  let dayOfCycle := dayOfCentury % 1461
  let year := min (dayOfCycle / 365) 3
  (century * 100 + cycle * 4 + year, dayOfCycle - year * 365)

/-- The date of a day number. -/
def ofDayNumber (number : Int) : Date :=
  let shifted := number + epochOffset
  let (yearInEra, dayOfYear) := yearOfEra (shifted % 146097).toNat
  let monthFromMarch := (5 * dayOfYear + 2) / 153
  let day := dayOfYear - (153 * monthFromMarch + 2) / 5 + 1
  let year := shifted / 146097 * 400 + yearInEra
  if monthFromMarch < 10 then ⟨year, monthFromMarch + 3, day⟩
  else ⟨year + 1, monthFromMarch - 9, day⟩

/-- The day number of a date. -/
def dayNumber (d : Date) : Int :=
  let year := if d.month ≤ 2 then d.year - 1 else d.year
  let monthFromMarch := if d.month ≤ 2 then d.month + 9 else d.month - 3
  let yearInEra := year % 400
  let dayOfYear := (153 * monthFromMarch + 2) / 5 + d.day - 1
  year / 400 * 146097 +
    (yearInEra * 365 + yearInEra / 4 - yearInEra / 100 + dayOfYear) - epochOffset

end Date

end Outbox
