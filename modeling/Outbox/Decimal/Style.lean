import Outbox.Decimal.Shortest

/-! # Ways to write a float

A style fixes what the shortest digits leave open: which exponents are written out positionally,
whether a whole number ends in `.0`, and which way a tie goes.
-/

namespace Outbox.Decimal

structure Style where
  /-- The leading digit's power of ten is written out rather than as an exponent. -/
  positional : Int → Bool
  /-- A whole number written positionally ends in `.0`. -/
  pointZero : Bool
  tie : Tie

/-- Every float in full, as messages to people show it. -/
def Style.plain : Style := ⟨fun _ => true, false, .up⟩

/-- JSON: powers from -5 to 15 positionally, others with a signed exponent. -/
def Style.json : Style := ⟨fun power => -5 ≤ power && power < 16, true, .even⟩

namespace Style

/-- Digits with a point after the first `whole` of them, zeros filled in on either side. -/
def positionalText (style : Style) (digits : List Char) (whole : Int) : List Char :=
  if whole ≤ 0 then '0' :: '.' :: List.replicate (-whole).toNat '0' ++ digits
  else
    let front := digits.take whole.toNat
    let rest := digits.drop whole.toNat
    let padding := List.replicate (whole.toNat - front.length) '0'
    let tail := if rest.isEmpty then if style.pointZero then ['.', '0'] else [] else '.' :: rest
    front ++ padding ++ tail

/-- Digits with a point after the first, and a signed exponent. -/
def exponentText (digits : List Char) (power : Int) : List Char :=
  let sign := if power < 0 then '-' else '+'
  let tail := match digits.drop 1 with
    | [] => []
    | rest => '.' :: rest
  digits.take 1 ++ tail ++ 'e' :: sign :: numeral power.natAbs

def magnitudeText (style : Style) : Magnitude → List Char
  | .nan => "NaN".toList
  | .infinite => "inf".toList
  | .finite mantissa exponent =>
      let s := shortest style.tie mantissa exponent
      let digits := numeral s.digits
      let power := digits.length - 1 + s.exponent
      if style.positional power then style.positionalText digits (power + 1)
      else exponentText digits power

def chars (style : Style) (x : Float) : List Char :=
  let text := style.magnitudeText (magnitude x)
  if isNegative x && !x.isNaN then '-' :: text else text

def text (style : Style) (x : Float) : String := String.ofList (style.chars x)

end Style

end Outbox.Decimal
