/-! # Binary floating point as exact numbers

A finite float is an integer times a power of two. Everything that has to be exact about floats,
such as their digits, is computed on that pair in whole numbers.
-/

namespace Outbox.Decimal

/-- The absolute value of a float. -/
inductive Magnitude
  /-- `mantissa * 2 ^ exponent`, with the exponent that the format stores. -/
  | finite (mantissa : Nat) (exponent : Int)
  | infinite
  | nan
  deriving DecidableEq, Repr

/-- The least exponent of a finite float. -/
def leastExponent : Int := -1074

/-- The mantissa bit that all but the smallest floats have. -/
def leadingBit : Nat := 0x10000000000000

def isNegative (x : Float) : Bool := x.toBits.toNat / 0x8000000000000000 % 2 == 1

def magnitude (x : Float) : Magnitude :=
  let bits := x.toBits.toNat
  let fraction := bits % leadingBit
  let biased := bits / leadingBit % 2048
  if biased = 2047 then if fraction = 0 then .infinite else .nan
  else if biased = 0 then .finite fraction leastExponent
  else .finite (leadingBit + fraction) (biased - 1 + leastExponent)

/-- The quotient rounded to the nearest integer, a half going to the even one. -/
def roundDiv (num den : Nat) : Nat :=
  let quotient := num / den
  let rest := 2 * (num % den)
  if rest < den ∨ rest = den ∧ quotient % 2 = 0 then quotient else quotient + 1

/-- `mantissa * 2 ^ exponent * scale` rounded to the nearest integer, a half going to the even
one. -/
def roundScaled (mantissa : Nat) (exponent : Int) (scale : Nat) : Nat :=
  roundDiv (mantissa * scale * Nat.pow 2 exponent.toNat) (Nat.pow 2 (-exponent).toNat)

end Outbox.Decimal
