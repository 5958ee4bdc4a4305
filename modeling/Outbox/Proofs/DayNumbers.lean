import Outbox.Time.Calendar
import Mathlib.Tactic.IntervalCases

/-! # Dates and day numbers

The date of a day number exists in the calendar and has that number. Both ways go by the year and
the month that are counted from March on, so the proofs take a number apart into an era, a year of
it and a day of that year, and put the same three parts together again.
-/

namespace Outbox.Date

/-- A day of an era, by its century, by four years of that and by the year of these. -/
theorem yearOfEra_parts {day : Nat} (hday : day < 146097) :
    ∃ century cycle year, century ≤ 3 ∧ cycle ≤ 24 ∧ year ≤ 3 ∧
      (yearOfEra day).1 = century * 100 + cycle * 4 + year ∧
      century * 36524 + cycle * 1461 + year * 365 + (yearOfEra day).2 = day ∧
      (yearOfEra day).2 ≤ 365 ∧
      ((yearOfEra day).2 = 365 → year = 3 ∧ (cycle = 24 → century = 3)) := by
  refine ⟨min (day / 36524) 3, (day - min (day / 36524) 3 * 36524) / 1461,
    min ((day - min (day / 36524) 3 * 36524) % 1461 / 365) 3, ?_, ?_, ?_, rfl, ?_, ?_, ?_⟩
  · omega
  · omega
  · omega
  · simp only [yearOfEra]; omega
  · simp only [yearOfEra]; omega
  · simp only [yearOfEra]; omega

/-- The years before and the day of the year make up the day of the era. Only a year that ends with
a leap day has a day 365. -/
theorem yearOfEra_spec {day : Nat} (hday : day < 146097) :
    (yearOfEra day).1 < 400 ∧ (yearOfEra day).2 ≤ 365 ∧
      (yearOfEra day).1 * 365 + (yearOfEra day).1 / 4 - (yearOfEra day).1 / 100 +
        (yearOfEra day).2 = day ∧
      ((yearOfEra day).2 = 365 → (yearOfEra day).1 % 4 = 3 ∧
        ((yearOfEra day).1 % 100 = 99 → (yearOfEra day).1 = 399)) := by
  obtain ⟨century, cycle, year, hcentury, hcycle, hyear, heq, hday, hshort, hlong⟩ :=
    yearOfEra_parts hday
  have hcycles : (yearOfEra day).1 / 4 = century * 25 + cycle := by omega
  have hcenturies : (yearOfEra day).1 / 100 = century := by omega
  refine ⟨?_, hshort, ?_, ?_⟩
  · omega
  · omega
  · intro hlast
    obtain ⟨hyear, hfull⟩ := hlong hlast
    omega

/-- The date of a day and month, both as they are counted from March on. -/
def fromMarch (year : Int) (month day : Nat) : Date :=
  if month < 10 then ⟨year, month + 3, day⟩ else ⟨year + 1, month - 9, day⟩

/-- The number of a day, counted in years that begin in March. -/
theorem dayNumber_fromMarch (era : Int) {year month : Nat} (hyear : year < 400)
    (hmonth : month ≤ 11) (day : Nat) :
    (fromMarch (era * 400 + year) month day).dayNumber =
      era * 146097 + (year * 365 + year / 4 - year / 100 +
        ((153 * month + 2) / 5 + day - 1 : Nat)) - epochOffset := by
  have hera : (era * 400 + year) / 400 = era := by omega
  have hrest : (era * 400 + year) % 400 = year := by omega
  rw [fromMarch]
  split
  next hearly =>
    have hlate : ¬ month + 3 ≤ 2 := by omega
    simp only [dayNumber, hlate, if_false, hera, hrest, Nat.add_sub_cancel]
  next hlate =>
    have hearly : month - 9 ≤ 2 := by omega
    have hback : month - 9 + 9 = month := by omega
    simp only [dayNumber, hearly, if_true, Int.add_sub_cancel, hera, hrest, hback]

/-- From March on, months follow one another at these days of the year. -/
theorem daysInMonth_fromMarch (year : Int) {month : Nat} (hmonth : month < 11) (day : Nat) :
    daysInMonth (fromMarch year month day).year (fromMarch year month day).month =
      (153 * (month + 1) + 2) / 5 - (153 * month + 2) / 5 := by
  interval_cases month <;> rfl

/-- A day number is an era, a year of it and a day of that, in which the month follows the
pattern. -/
theorem ofDayNumber_parts (number : Int) :
    ∃ era : Int, ∃ year dayOfYear month : Nat, year < 400 ∧ dayOfYear ≤ 365 ∧
      number + epochOffset = era * 146097 + (year * 365 + year / 4 - year / 100 + dayOfYear) ∧
      (dayOfYear = 365 → year % 4 = 3 ∧ (year % 100 = 99 → year = 399)) ∧
      month = (5 * dayOfYear + 2) / 153 ∧
      ofDayNumber number =
        fromMarch (era * 400 + year) month (dayOfYear - (153 * month + 2) / 5 + 1) := by
  have hbound : ((number + epochOffset) % 146097).toNat < 146097 := by omega
  obtain ⟨hyear, hday, hera, hlong⟩ := yearOfEra_spec hbound
  refine ⟨(number + epochOffset) / 146097, _, _, _, hyear, hday, ?_, hlong, rfl, rfl⟩
  omega

/-- The months from March on follow the pattern. -/
theorem month_fromMarch {dayOfYear month : Nat} (hday : dayOfYear ≤ 365)
    (hmonth : month = (5 * dayOfYear + 2) / 153) :
    month ≤ 11 ∧ (153 * month + 2) / 5 ≤ dayOfYear ∧
      dayOfYear < (153 * (month + 1) + 2) / 5 := by
  omega

/-- The date of a number has this number. -/
theorem dayNumber_ofDayNumber (number : Int) : (ofDayNumber number).dayNumber = number := by
  obtain ⟨era, year, dayOfYear, month, hyear, hday, hnumber, _, hmonth, hdate⟩ :=
    ofDayNumber_parts number
  obtain ⟨hlast, hfirst, _⟩ := month_fromMarch hday hmonth
  rw [hdate, dayNumber_fromMarch era hyear hlast]
  omega

theorem day_fromMarch (year : Int) (month day : Nat) : (fromMarch year month day).day = day := by
  unfold fromMarch
  split <;> rfl

theorem exists_fromMarch {year : Int} {month day : Nat} (hmonth : month ≤ 11) (hday : 1 ≤ day)
    (hlength : day ≤ daysInMonth (fromMarch year month day).year (fromMarch year month day).month) :
    (fromMarch year month day).Exists := by
  refine ⟨?_, ?_, ?_, ?_⟩
  · unfold fromMarch
    split
    · exact Nat.le_add_left 1 (month + 2)
    · change 1 ≤ month - 9
      omega
  · unfold fromMarch
    split
    · change month + 3 ≤ 12
      omega
    · change month - 9 ≤ 12
      omega
  · rwa [day_fromMarch]
  · rwa [day_fromMarch]

/-- Of the years that begin in March every fourth ends with a leap day, but of those that end a
century only the last in an era. -/
theorem isLeapYear_fromMarch (era : Int) {year : Nat} (hfour : year % 4 = 3)
    (hcentury : year % 100 = 99 → year = 399) : isLeapYear (era * 400 + year + 1) := by
  simp only [isLeapYear, Bool.and_eq_true, Bool.or_eq_true, beq_iff_eq, bne_iff_ne]
  omega

theorem daysInMonth_le (year : Int) (month : Nat) : daysInMonth year month ≤ 31 := by
  unfold daysInMonth
  split
  · decide
  · decide
  · decide
  · decide
  · split <;> decide
  · decide

/-- The date of a number is one of the calendar. -/
theorem exists_ofDayNumber (number : Int) : (ofDayNumber number).Exists := by
  obtain ⟨era, year, dayOfYear, month, hyear, hday, _, hlong, hmonth, hdate⟩ :=
    ofDayNumber_parts number
  obtain ⟨hlast, hfirst, hnext⟩ := month_fromMarch hday hmonth
  rw [hdate]
  apply exists_fromMarch hlast (Nat.le_add_left 1 _)
  by_cases hfebruary : month = 11
  · subst hfebruary
    change dayOfYear - 337 + 1 ≤ if isLeapYear (era * 400 + year + 1) then 29 else 28
    by_cases hleap : dayOfYear = 365
    · obtain ⟨hfour, hcentury⟩ := hlong hleap
      rw [if_pos (isLeapYear_fromMarch era hfour hcentury)]
      omega
    · split <;> omega
  · rw [daysInMonth_fromMarch _ (by omega)]
    omega

/-- A year is far less than the days up to it. -/
theorem year_ofDayNumber {number : Int} (hlow : -100000000 ≤ number) (hhigh : number ≤ 100000000) :
    -300000 ≤ (ofDayNumber number).year ∧ (ofDayNumber number).year ≤ 300000 := by
  obtain ⟨era, year, dayOfYear, month, hyear, hday, hnumber, _, _, hdate⟩ :=
    ofDayNumber_parts number
  have hera : number + 719468 = era * 146097 + (year * 365 + year / 4 - year / 100 + dayOfYear) :=
    hnumber
  rw [hdate, fromMarch]
  split
  · change -300000 ≤ era * 400 + year ∧ era * 400 + year ≤ 300000
    omega
  · change -300000 ≤ era * 400 + year + 1 ∧ era * 400 + year + 1 ≤ 300000
    omega

end Outbox.Date
