import Outbox.Json.Basic
import Outbox.Json.Cursor

/-! # Reading JSON names, strings and numbers

A string may hold any character but the controls below the space; escapes of UTF-16 surrogates have
to come in pairs. A number without point and exponent is an integer if it fits 64 bits. Any other is
a float made from the digits that fit 64 bits and a power of ten.
-/

namespace Outbox.Json

/-- The letters of a name after its first one. -/
def ident : List Char → Cursor → Except Fault Cursor
  | [], c => .ok c
  | expected :: more, c =>
      match c.rest with
      | [] => .error (c.faultHere .endInValue)
      | ch :: _ =>
          if ch = expected then ident more (c.skip 1) else .error (c.faultAhead .identExpected)

/-- The place as many bytes later, which may be inside a character. -/
def Position.afterBytes (p : Position) : Nat → List Char → Position
  | _, [] => p
  | bytes, ch :: rest =>
      if bytes < ch.utf8Size then ⟨p.line, p.column + bytes⟩
      else afterBytes (p.after ch) (bytes - ch.utf8Size) rest

def hexValue? (ch : Char) : Option Nat :=
  if ch.isDigit then some (ch.toNat - 48)
  else if 'a' ≤ ch ∧ ch ≤ 'f' then some (ch.toNat - 87)
  else if 'A' ≤ ch ∧ ch ≤ 'F' then some (ch.toNat - 55)
  else none

/-- Four digits of base 16. Where they are not, four bytes are taken all the same. -/
def hexUnit (c : Cursor) : Except Fault (Nat × Cursor) :=
  if (String.ofList (c.rest.take 4)).utf8ByteSize < 4 then
    .error ⟨⟨.endInString, some (c.position.afterAll c.rest)⟩, c⟩
  else
    match (c.rest.take 4).mapM hexValue? with
    | some digits => .ok (digits.foldl (fun n d => 16 * n + d) 0, c.skip 4)
    | none => .error ⟨⟨.invalidEscape, some (c.position.afterBytes 4 c.rest)⟩, c⟩

/-- The second half of a surrogate pair has to follow. -/
def pairMark (expected : Char) (c : Cursor) : Except Fault Cursor :=
  match c.rest with
  | [] => .error (c.faultHere .endInString)
  | ch :: _ => if ch = expected then .ok (c.skip 1) else .error (c.faultAhead .unfinishedSurrogate)

/-- The character of an escape by code, after its `u`. -/
def unicodeEscape (c : Cursor) : Except Fault (Char × Cursor) := do
  let (high, c) ← hexUnit c
  if 0xDC00 ≤ high ∧ high ≤ 0xDFFF then throw (c.faultHere .loneSurrogate)
  if high < 0xD800 ∨ 0xDBFF < high then return (Char.ofNat high, c)
  let c ← pairMark '\\' c
  let c ← pairMark 'u' c
  let (low, c) ← hexUnit c
  if low < 0xDC00 ∨ 0xDFFF < low then throw (c.faultHere .loneSurrogate)
  return (Char.ofNat ((high - 0xD800) * 0x400 + (low - 0xDC00) + 0x10000), c)

/-- The character of an escape, after its backslash. -/
def escaped (c : Cursor) : Except Fault (Char × Cursor) :=
  match c.rest with
  | [] => .error (c.faultHere .endInString)
  | '"' :: _ => .ok ('"', c.skip 1)
  | '\\' :: _ => .ok ('\\', c.skip 1)
  | '/' :: _ => .ok ('/', c.skip 1)
  | 'b' :: _ => .ok ('\x08', c.skip 1)
  | 'f' :: _ => .ok ('\x0c', c.skip 1)
  | 'n' :: _ => .ok ('\n', c.skip 1)
  | 'r' :: _ => .ok ('\r', c.skip 1)
  | 't' :: _ => .ok ('\t', c.skip 1)
  | 'u' :: _ => unicodeEscape (c.skip 1)
  | _ :: _ => .error (c.faultAhead .invalidEscape)

/-- The characters of a string up to its closing quote, of which at most `fuel` are read. -/
def stringBody : Nat → Reader (List Char)
  | 0, c => .error (c.faultHere .endInString)
  | fuel + 1, c =>
      match c.rest with
      | [] => .error (c.faultHere .endInString)
      | '"' :: _ => .ok ([], c.skip 1)
      | '\\' :: _ => do
          let (ch, c) ← escaped (c.skip 1)
          let (body, c) ← stringBody fuel c
          return (ch :: body, c)
      | ch :: _ =>
          if ch.toNat < 32 then .error (c.faultAhead .controlCharacter)
          else do
            let (body, c) ← stringBody fuel (c.skip 1)
            return (ch :: body, c)

/-- A string, after its opening quote. -/
def string (c : Cursor) : Except Fault (List Char × Cursor) := stringBody c.rest.length c

/-- Digits as far as their number fits 64 bits, and how many were left over. -/
def significand (start : Nat) : List Char → Nat × Nat
  | [] => (start, 0)
  | ch :: rest =>
      let next := 10 * start + Decimal.digitValue ch
      if next < 0x10000000000000000 then significand next rest else (start, rest.length + 1)

/-- A power of ten that a double can hold. -/
def powerOfTen (n : Nat) : Float := Float.ofScientific 1 false n

/-- Divides by the power of ten `10 ^ exponent`, in steps that a double can hold. -/
def divideByPower (x : Float) (exponent : Nat) : Float :=
  if exponent ≤ 308 then x / powerOfTen exponent
  else if x == 0 then x
  else divideByPower (x / powerOfTen 308) (exponent - 308)
termination_by exponent

/-- `digits * 10 ^ exponent` in the arithmetic of doubles, unless it is infinite. -/
def scaled? (digits : Nat) (exponent : Int) : Option Float :=
  let x := digits.toUInt64.toFloat
  if exponent < 0 then some (divideByPower x (-exponent).toNat)
  else if 308 < exponent then if digits = 0 then some x else none
  else
    let product := x * powerOfTen exponent.toNat
    if product.isInf then none else some product

def floatFrom (negative : Bool) (digits : Nat) (exponent : Int) (c : Cursor) :
    Except Fault (Number × Cursor) :=
  match scaled? digits exponent with
  | none => .error (c.faultHere .numberOutOfRange)
  | some x => .ok (.float (if negative then -x else x), c)

/-- How many digits of an exponent are read before it exceeds 32 bits, if it does. -/
def exponentExcess? (exponent count : Nat) : List Char → Option Nat
  | [] => none
  | ch :: rest =>
      let next := 10 * exponent + Decimal.digitValue ch
      if next < 0x80000000 then exponentExcess? next (count + 1) rest else some (count + 1)

/-- A float from the mark of its exponent on. -/
def exponentPart (negative : Bool) (digits : Nat) (scale : Int) (c : Cursor) :
    Except Fault (Number × Cursor) :=
  let afterMark := c.skip 1
  let (down, c) : Bool × Cursor := match afterMark.rest with
    | '+' :: _ => (false, afterMark.skip 1)
    | '-' :: _ => (true, afterMark.skip 1)
    | _ => (false, afterMark)
  match c.rest with
  | [] => .error (c.faultHere .endInValue)
  | ch :: _ =>
      if !ch.isDigit then .error (c.faultAhead .invalidNumber)
      else
        let (ds, after) := c.span Char.isDigit
        match exponentExcess? 0 0 ds with
        | some count =>
            if digits ≠ 0 ∧ !down then .error ((c.skip count).faultHere .numberOutOfRange)
            else .ok (.float (if negative then -0.0 else 0.0), after)
        | none =>
            let exponent : Int := Decimal.value ds
            floatFrom negative digits (if down then scale - exponent else scale + exponent) after

/-- A float from its point on. Digits that no longer fit 64 bits are skipped. -/
def fractionPart (negative : Bool) (digits : Nat) (scale : Int) (c : Cursor) :
    Except Fault (Number × Cursor) :=
  let (ds, after) := (c.skip 1).span Char.isDigit
  if ds.isEmpty then
    .error (after.faultAhead (if after.rest.isEmpty then .endInValue else .invalidNumber))
  else
    let (digits, dropped) := significand digits ds
    let scale := scale - (ds.length - dropped : Nat)
    match after.rest with
    | 'e' :: _ | 'E' :: _ => exponentPart negative digits scale after
    | _ => floatFrom negative digits scale after

/-- A number from its first digit on. -/
def numberFrom (negative : Bool) (c : Cursor) : Except Fault (Number × Cursor) :=
  match c.rest with
  | [] => .error (c.faultHere .endInValue)
  | ch :: more =>
      if !ch.isDigit then .error (c.faultAhead .invalidNumber)
      else if ch = '0' && (more.head?.map Char.isDigit).getD false then
        .error ((c.skip 1).faultAhead .invalidNumber)
      else
        let (ds, after) := c.span Char.isDigit
        let (digits, dropped) := significand 0 ds
        match after.rest with
        | '.' :: _ => fractionPart negative digits dropped after
        | 'e' :: _ | 'E' :: _ => exponentPart negative digits dropped after
        | _ =>
            if dropped ≠ 0 then floatFrom negative digits dropped after
            else if !negative then .ok (.integer digits, after)
            else if digits = 0 ∨ 0x8000000000000000 < digits then
              .ok (.float (-digits.toUInt64.toFloat), after)
            else .ok (.integer (-digits), after)

end Outbox.Json
