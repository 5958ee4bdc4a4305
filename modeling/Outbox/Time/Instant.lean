/-! # Instants and durations

An instant is a second since 1970-01-01T00:00:00Z and a fraction of it, and lies in the range of
years -262143 to 262142 of the Gregorian calendar. A day has 86400 seconds; a leap second has no
number of its own but is the fraction from one whole second on of the last second of a minute. So
instants are ordered by their seconds, and by the fraction within one.

A duration is a length of time that cannot be negative. Moving an instant is partial: it answers
nothing where the sum leaves the range, and never wraps or clips.
-/

namespace Outbox

/-- The first second of the year -262143. -/
def Instant.firstSecond : Int := -8334601228800

/-- The last second of the year 262142. -/
def Instant.lastSecond : Int := 8210266876799

/-- A point in time, to the nanosecond. -/
structure Instant where
  /-- The whole seconds since 1970 began. -/
  second : Int
  /-- The nanoseconds past them. -/
  fraction : Nat
  inRange : Instant.firstSecond ≤ second ∧ second ≤ Instant.lastSecond
  fits : fraction < 1000000000 ∨ second % 60 = 59 ∧ fraction < 2000000000
  deriving DecidableEq

/-- A length of time, to the nanosecond. -/
structure Duration where
  nanos : Nat
  deriving DecidableEq, Repr

namespace Duration

def zero : Duration := ⟨0⟩

def ofSeconds (seconds : Nat) : Duration := ⟨seconds * 1000000000⟩

def ofMillis (millis : Nat) : Duration := ⟨millis * 1000000⟩

/-- Whole seconds, the rest cut off. -/
def seconds (d : Duration) : Nat := d.nanos / 1000000000

/-- The nanoseconds past the last whole second. -/
def subsecNanos (d : Duration) : Nat := d.nanos % 1000000000

/-- Whole milliseconds, rounded up. -/
def ceilMillis (d : Duration) : Nat := (d.nanos + 999999) / 1000000

def isZero (d : Duration) : Bool := d.nanos == 0

instance : LE Duration := ⟨fun a b => a.nanos ≤ b.nanos⟩
instance : LT Duration := ⟨fun a b => a.nanos < b.nanos⟩
instance (a b : Duration) : Decidable (a ≤ b) := inferInstanceAs (Decidable (a.nanos ≤ b.nanos))
instance (a b : Duration) : Decidable (a < b) := inferInstanceAs (Decidable (a.nanos < b.nanos))
instance : Max Duration := maxOfLe

end Duration

namespace Instant

/-- A number in the order of instants. Every second has room for a leap second in it. -/
def rank (i : Instant) : Int := i.second * 2000000000 + i.fraction

instance : LE Instant := ⟨fun a b => a.rank ≤ b.rank⟩
instance : LT Instant := ⟨fun a b => a.rank < b.rank⟩
instance (a b : Instant) : Decidable (a ≤ b) := inferInstanceAs (Decidable (a.rank ≤ b.rank))
instance (a b : Instant) : Decidable (a < b) := inferInstanceAs (Decidable (a.rank < b.rank))
instance : Max Instant := maxOfLe
instance : Ord Instant := ⟨fun a b => compare a.rank b.rank⟩

theorem le_iff {a b : Instant} : a ≤ b ↔ a.rank ≤ b.rank := Iff.rfl

theorem lt_iff {a b : Instant} : a < b ↔ a.rank < b.rank := Iff.rfl

theorem fraction_lt (i : Instant) : i.fraction < 2000000000 := by
  have := i.fits
  omega

/-- Different instants have different places in the order. -/
theorem rank_inj {a b : Instant} : a.rank = b.rank ↔ a = b := by
  constructor
  · intro hrank
    have ha := a.fraction_lt
    have hb := b.fraction_lt
    obtain ⟨_, _, _, _⟩ := a
    obtain ⟨_, _, _, _⟩ := b
    simp only [rank, mk.injEq] at *
    omega
  · rintro rfl
    rfl

/-- The instant falls into a leap second. -/
def isLeap (i : Instant) : Bool := 1000000000 ≤ i.fraction

/-- Nanoseconds since 1970 began, leap seconds not counted: one of them has the numbers of the
second that follows. -/
def nanos (i : Instant) : Int := i.second * 1000000000 + i.fraction

/-- The instant of a second and a fraction of it, if there is one. -/
def ofSecond? (second : Int) (fraction : Nat) : Option Instant :=
  if inRange : firstSecond ≤ second ∧ second ≤ lastSecond then
    if fits : fraction < 1000000000 ∨ second % 60 = 59 ∧ fraction < 2000000000 then
      some ⟨second, fraction, inRange, fits⟩
    else none
  else none

/-- The instant of a second and a fraction has just these. -/
theorem ofSecond?_eq_some {second : Int} {fraction : Nat} {i : Instant} :
    ofSecond? second fraction = some i ↔ i.second = second ∧ i.fraction = fraction := by
  obtain ⟨_, _, hrange, hfits⟩ := i
  simp only [ofSecond?]
  split
  next =>
    split
    next => simp [eq_comm]
    next hunfit =>
      constructor
      · intro absurd; cases absurd
      · rintro ⟨rfl, rfl⟩; exact absurd hfits hunfit
  next houtside =>
    constructor
    · intro absurd; cases absurd
    · rintro ⟨rfl, rfl⟩; exact absurd hrange houtside

/-- The instant this many nanoseconds after 1970 began, if it is in range. It is in no leap
second. -/
def ofNanos? (nanos : Int) : Option Instant :=
  ofSecond? (nanos / 1000000000) (nanos % 1000000000).toNat

/-- Counting nanoseconds leads to no instant within a leap second. -/
theorem ofNanos?_eq_some {nanos : Int} {i : Instant} :
    ofNanos? nanos = some i ↔ i.nanos = nanos ∧ i.isLeap = false := by
  rw [ofNanos?, ofSecond?_eq_some]
  simp only [Instant.nanos, isLeap, decide_eq_false_iff_not]
  omega

theorem ofNanos?_nanos {i : Instant} (hplain : i.isLeap = false) : ofNanos? i.nanos = some i :=
  ofNanos?_eq_some.mpr ⟨rfl, hplain⟩

def ofMillis? (millis : Int) : Option Instant := ofNanos? (millis * 1000000)

/-- 1970-01-01T00:00:00Z. -/
def epoch : Instant := ⟨0, 0, by decide, by decide⟩

/-- The instant moved by a signed number of nanoseconds, if the result is in range. Only a leap
second that one is in takes up time, so that going on from it leads to the beginning of the next
second; those that are passed are not known here. -/
def shift? (i : Instant) (nanos : Int) : Option Instant :=
  let moved := i.fraction + nanos
  if i.isLeap ∧ 1000000000 ≤ moved then
    if moved < 2000000000 then ofSecond? i.second moved.toNat
    else ofNanos? (i.nanos + nanos - 1000000000)
  else ofNanos? (i.nanos + nanos)

/-- The instant a duration later, if that is in range. -/
def plus? (i : Instant) (d : Duration) : Option Instant := i.shift? d.nanos

/-- The instant a duration later, or the instant itself where the sum is out of range. -/
def plusOrSelf (i : Instant) (d : Duration) : Instant := (i.plus? d).getD i

/-- Whole milliseconds since 1970 began, rounded down. -/
def millis (i : Instant) : Int := i.nanos / 1000000

end Instant

end Outbox
