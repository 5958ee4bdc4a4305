import Outbox.Decimal.Numeral
import Outbox.Text.Blank
import Outbox.Time.Calendar

/-! # Instants as text

An instant is written as `YYYY-MM-DDTHH:MM:SS`, a fraction of 0, 3, 6 or 9 digits, the fewest that
are exact, and `Z`. Years outside 0 to 9999 carry a sign and at least four digits. A leap second is
the second 60 of its minute.

Reading goes from left to right and stops at the first thing that does not fit. It is more lenient
than writing: fields may be short and have blanks before them, the date and the time may be parted
by `T`, `t` or a space, and any offset from UTC is taken into account.
-/

namespace Outbox

namespace Date

/-- The year as written: four digits, or a sign and at least four. -/
def yearText (year : Int) : List Char :=
  if 0 ≤ year ∧ year ≤ 9999 then Decimal.padded 4 year.toNat
  else if 0 ≤ year then '+' :: Decimal.atLeast 4 year.toNat
  else '-' :: Decimal.atLeast 4 (-year).toNat

def text (d : Date) : List Char :=
  yearText d.year ++ '-' :: Decimal.padded 2 d.month ++ '-' :: Decimal.padded 2 d.day

end Date

namespace Instant

/-- The day number of an instant. -/
def day (i : Instant) : Int := i.second / 86400

/-- Whole seconds since midnight. -/
def secondOfDay (i : Instant) : Nat := (i.second % 86400).toNat

/-- A fraction of a second with the fewest groups of three digits that are exact. -/
def fractionText (nanos : Nat) : List Char :=
  if nanos = 0 then []
  else if nanos % 1000000 = 0 then '.' :: Decimal.padded 3 (nanos / 1000000)
  else if nanos % 1000 = 0 then '.' :: Decimal.padded 6 (nanos / 1000)
  else '.' :: Decimal.padded 9 nanos

/-- The time of day: whole seconds since midnight and the nanoseconds past them. -/
def clockText (second nanos : Nat) : List Char :=
  Decimal.padded 2 (second / 3600) ++ ':' :: Decimal.padded 2 (second / 60 % 60) ++
    ':' :: Decimal.padded 2 (second % 60 + nanos / 1000000000) ++
    fractionText (nanos % 1000000000)

def chars (i : Instant) : List Char :=
  (Date.ofDayNumber i.day).text ++ 'T' :: clockText i.secondOfDay i.fraction ++ ['Z']

def toText (i : Instant) : String := String.ofList i.chars

/-- Why a text is no instant. -/
inductive ReadError
  | tooShort
  | invalid
  | outOfRange
  | impossible
  | trailing
  deriving DecidableEq, Repr

def ReadError.message : ReadError → String
  | tooShort => "premature end of input"
  | invalid => "input contains invalid characters"
  | outOfRange => "input is out of range"
  | impossible => "no possible date and time matching input"
  | trailing => "trailing input"

namespace Reading

/-- At least one digit and at most `most`. -/
def digits (most : Nat) (cs : List Char) : Except ReadError (List Char × List Char) :=
  match (cs.take most).takeWhile Char.isDigit with
  | [] => throw (if cs.isEmpty then .tooShort else .invalid)
  | ds => pure (ds, cs.drop ds.length)

/-- One expected character, blanks before it skipped. -/
def literal (expected : Char) (cs : List Char) : Except ReadError (Unit × List Char) :=
  match Text.trimStart cs with
  | [] => throw .tooShort
  | c :: rest => if c = expected then pure ((), rest) else throw .invalid

/-- A field of one or two digits between two bounds, blanks before it skipped. -/
def field (low high : Nat) (cs : List Char) : Except ReadError (Nat × List Char) := do
  let (ds, rest) ← digits 2 (Text.trimStart cs)
  let n := Decimal.value ds
  if low ≤ n ∧ n ≤ high then pure (n, rest) else throw .outOfRange

/-- A year: up to four digits, or a sign and any number of digits that fit 32 bits. -/
def year (cs : List Char) : Except ReadError (Int × List Char) :=
  match Text.trimStart cs with
  | '-' :: rest => do
      let (ds, rest) ← digits rest.length rest
      if Decimal.value ds ≤ 2147483648 then pure (-(Decimal.value ds : Int), rest)
      else throw .outOfRange
  | '+' :: rest => do
      let (ds, rest) ← digits rest.length rest
      if Decimal.value ds ≤ 2147483647 then pure ((Decimal.value ds : Int), rest)
      else throw .outOfRange
  | cs => do
      let (ds, rest) ← digits 4 cs
      pure ((Decimal.value ds : Int), rest)

/-- An optional point and the digits after it, in nanoseconds. Digits past the ninth are cut off. -/
def decimals (cs : List Char) : Except ReadError (Nat × List Char) :=
  match cs with
  | '.' :: cs => do
      let (ds, rest) ← digits 9 cs
      pure (Decimal.value ds * Nat.pow 10 (9 - ds.length), rest.dropWhile Char.isDigit)
  | cs => pure (0, cs)

/-- Two digits of an offset. A pair is cut off in bytes, so one wide character is a pair. -/
def pair (cs : List Char) : Except ReadError ((Char × Char) × List Char) :=
  match cs with
  | [] => throw .tooShort
  | [c] => throw (if c.utf8Size < 2 then .tooShort else .invalid)
  | a :: b :: rest => if a.isDigit ∧ b.isDigit then pure ((a, b), rest) else throw .invalid

/-- A signed offset in seconds: hours, then minutes below 60, parted by any colons and blanks. -/
def signedOffset (sign : Int) (cs : List Char) : Except ReadError (Int × List Char) := do
  let ((h1, h2), rest) ← pair cs
  let rest := rest.dropWhile fun c => c == ':' || Text.isBlank c
  let ((m1, m2), rest) ← pair rest
  if '6' ≤ m1 then throw .outOfRange
  pure (sign * (Decimal.value [h1, h2] * 3600 + Decimal.value [m1, m2] * 60 : Nat), rest)

def offset (cs : List Char) : Except ReadError (Int × List Char) :=
  match cs with
  | [] => throw .tooShort
  | 'Z' :: rest | 'z' :: rest => pure (0, rest)
  | '+' :: rest => signedOffset 1 rest
  | '-' :: rest | '−' :: rest => signedOffset (-1) rest
  | u :: t :: c :: rest =>
      if u.toUpper = 'U' ∧ t.toUpper = 'T' ∧ c.toUpper = 'C' then pure (0, rest) else throw .invalid
  | _ => throw .invalid

/-- The separator of date and time. -/
def separator (cs : List Char) : Except ReadError (Unit × List Char) :=
  match cs with
  | [] => throw .tooShort
  | c :: rest => if c = 'T' ∨ c = 't' ∨ c = ' ' then pure ((), rest) else throw .invalid

end Reading

open Reading in
/-- Reads an instant. A sixtieth second is a leap second of its minute. -/
def ofChars (cs : List Char) : Except ReadError Instant := do
  let (year, cs) ← year cs
  let ((), cs) ← literal '-' cs
  let (month, cs) ← field 1 12 cs
  let ((), cs) ← literal '-' cs
  let (day, cs) ← field 1 31 cs
  let ((), cs) ← separator cs
  let (hour, cs) ← field 0 23 cs
  let ((), cs) ← literal ':' cs
  let (minute, cs) ← field 0 59 cs
  let ((), cs) ← literal ':' cs
  let (second, cs) ← field 0 60 cs
  let (nanos, cs) ← decimals cs
  let (offset, cs) ← offset (Text.trimStart cs)
  if ¬ (Text.trimStart cs).isEmpty then throw .trailing
  let date : Date := ⟨year, month, day⟩
  if ¬ date.Exists then throw .outOfRange
  let here := date.dayNumber * 86400 + ((hour * 60 + minute) * 60 + min second 59 : Nat)
  if ¬ (firstSecond ≤ here ∧ here ≤ lastSecond) ∨ 86400 ≤ offset.natAbs then throw .outOfRange
  match ofSecond? (here - offset) (second / 60 * 1000000000 + nanos) with
  | none => throw .impossible
  | some i => pure i

def ofText (text : String) : Except ReadError Instant := ofChars text.toList

end Instant

end Outbox
