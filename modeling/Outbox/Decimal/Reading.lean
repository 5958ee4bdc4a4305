import Outbox.Decimal.Numeral

/-! # Reading numbers

Natural numbers up to a bound, and floats. A float is digits with an optional point and exponent, or
a name of infinity or of no number in any case, and reads as the nearest double.
-/

namespace Outbox.Decimal

/-- A natural number of at most `most`: digits, with an optional plus sign. -/
def natural? (most : Nat) (cs : List Char) : Option Nat :=
  let digits := match cs with
    | '+' :: rest => rest
    | _ => cs
  if digits.isEmpty || !digits.all Char.isDigit then none
  else if value digits ≤ most then some (value digits) else none

/-- The double nearest to `mantissa * 10 ^ exponent`. Outside the powers tried here every double
is infinite or zero. -/
def nearest (mantissa : Nat) (exponent : Int) : Float :=
  let power := (numeral mantissa).length + exponent
  if mantissa = 0 then 0
  else if 400 < power then 1.0 / 0.0
  else if power < -400 then 0
  else if 0 ≤ exponent then Float.ofScientific mantissa false exponent.toNat
  else Float.ofScientific mantissa true (-exponent).toNat

/-- An exponent after its mark: an optional sign and at least one digit. -/
def exponent? (cs : List Char) : Option Int :=
  let (sign, digits) : Int × List Char := match cs with
    | '+' :: rest => (1, rest)
    | '-' :: rest => (-1, rest)
    | _ => (1, cs)
  if digits.isEmpty || !digits.all Char.isDigit then none else some (sign * value digits)

def unsignedFloat? (cs : List Char) : Option Float :=
  let name := String.ofList (cs.map Char.toLower)
  if name = "inf" || name = "infinity" then some (1.0 / 0.0)
  else if name = "nan" then some (0.0 / 0.0)
  else
    let whole := cs.takeWhile Char.isDigit
    let rest := cs.drop whole.length
    let (fraction, rest) := match rest with
      | '.' :: rest =>
          let fraction := rest.takeWhile Char.isDigit
          (fraction, rest.drop fraction.length)
      | _ => ([], rest)
    if whole.isEmpty && fraction.isEmpty then none
    else
      let exponent := match rest with
        | [] => some 0
        | mark :: rest => if mark = 'e' || mark = 'E' then exponent? rest else none
      exponent.map fun e => nearest (value (whole ++ fraction)) (e - fraction.length)

def float? (cs : List Char) : Option Float :=
  match cs with
  | '-' :: rest => (unsignedFloat? rest).map (-·)
  | '+' :: rest => unsignedFloat? rest
  | _ => unsignedFloat? cs

end Outbox.Decimal
