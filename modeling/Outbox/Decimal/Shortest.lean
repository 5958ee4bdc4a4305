import Outbox.Decimal.Binary64
import Outbox.Decimal.Numeral

/-! # The fewest digits that read back

Reading a decimal number gives the nearest float, and of two equally near ones the one with the even
mantissa. The decimals that read back as a given float therefore form an interval around it, which
includes its ends when the mantissa is even. On the grid of all decimals with a given number of
digits, a point lies in that interval only if one of the two grid points next to the float does. So
the grids of 1, 2, ... digits are tried in turn, and of two points that qualify the nearer is taken.
-/

namespace Outbox.Decimal

/-- `digits * 10 ^ exponent`. -/
structure Scientific where
  digits : Nat
  exponent : Int
  deriving DecidableEq, Repr

/-- Which way the choice falls between two decimals equally near to the float. -/
inductive Tie
  | even
  | up
  deriving DecidableEq, Repr

/-- A float and the ends of the interval that reads back as it, all times the same power of two. -/
structure Interval where
  low : Nat
  center : Nat
  high : Nat
  closed : Bool
  exponent : Int

/-- The interval of a float. Below a power of two the next float is only half as far away. -/
def Interval.of (mantissa : Nat) (exponent : Int) : Interval where
  low := if mantissa = leadingBit ∧ leastExponent < exponent then 4 * mantissa - 1
    else 4 * mantissa - 2
  center := 4 * mantissa
  high := 4 * mantissa + 2
  closed := mantissa % 2 == 0
  exponent := exponent - 2

namespace Interval

/-- `n * 2 ^ i.exponent / 10 ^ grid` as a numerator over `i.denominator grid`. -/
def numerator (i : Interval) (grid : Int) (n : Nat) : Nat :=
  n * Nat.pow 2 i.exponent.toNat * Nat.pow 10 (-grid).toNat

def denominator (i : Interval) (grid : Int) : Nat :=
  Nat.pow 2 (-i.exponent).toNat * Nat.pow 10 grid.toNat

/-- The grid point lies in the interval. -/
def includes (i : Interval) (grid : Int) (point : Nat) : Bool :=
  let here := point * i.denominator grid
  let low := i.numerator grid i.low
  let high := i.numerator grid i.high
  if i.closed then low ≤ here && here ≤ high else low < here && here < high

/-- The point of the grid that reads back, if there is one. -/
def onGrid? (i : Interval) (tie : Tie) (grid : Int) : Option Nat :=
  let center := i.numerator grid i.center
  let den := i.denominator grid
  let below := center / den
  let above := below + 1
  match i.includes grid below, i.includes grid above with
  | false, false => none
  | true, false => some below
  | false, true => some above
  | true, true =>
      let toBelow := center - below * den
      let toAbove := above * den - center
      if toBelow < toAbove then some below
      else if toAbove < toBelow then some above
      else match tie with
        | .up => some above
        | .even => some (if below % 2 = 0 then below else above)

/-- The power of ten of the leading digit. Every positive float exceeds `10 ^ (-400)`. -/
def leadingPower (i : Interval) : Int :=
  (numeral (i.numerator (-400) i.center / i.denominator (-400))).length - 401

/-- The first grid with a point, trying from `from` digits on. -/
def search (i : Interval) (tie : Tie) (power : Int) (count : Nat) : Nat → Scientific
  | 0 => ⟨i.numerator (power - 16) i.center / i.denominator (power - 16), power - 16⟩
  | fuel + 1 =>
      let grid := power + 1 - count
      match i.onGrid? tie grid with
      | some digits => ⟨digits, grid⟩
      | none => search i tie power (count + 1) fuel

end Interval

/-- The number without zeros at its end, zero apart. -/
def Scientific.strip (s : Scientific) : Scientific :=
  if s.digits = 0 then s
  else
    let zeros := ((numeral s.digits).reverse.takeWhile (· == '0')).length
    ⟨s.digits / Nat.pow 10 zeros, s.exponent + zeros⟩

/-- The shortest decimal that reads back as `mantissa * 2 ^ exponent`. Seventeen digits always
do. -/
def shortest (tie : Tie) (mantissa : Nat) (exponent : Int) : Scientific :=
  if mantissa = 0 then ⟨0, 0⟩
  else
    let i := Interval.of mantissa exponent
    (i.search tie i.leadingPower 1 17).strip

end Outbox.Decimal
