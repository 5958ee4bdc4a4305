import Outbox.Decimal.Numeral
import Outbox.Json.Scalar
import Outbox.Text.Utf8

/-! # Hosts

A host is a name or a number. In brackets stands an IPv6 address. The schemes of the web read names
as domains, in which percent signs stand for bytes, and a domain whose last part is a number as an
IPv4 address; other schemes leave names as they are.
-/

namespace Outbox

/-- What is wrong with a URL. -/
inductive UrlError
  /-- There is no scheme. -/
  | noScheme
  | emptyHost
  | badHost
  | badDomain
  | badIpv4
  | badIpv6
  | badPort
  deriving DecidableEq, Repr

def UrlError.message : UrlError → String
  | noScheme => "relative URL without a base"
  | emptyHost => "empty host"
  | badHost => "invalid domain character"
  | badDomain => "invalid international domain name"
  | badIpv4 => "invalid IPv4 address"
  | badIpv6 => "invalid IPv6 address"
  | badPort => "invalid port number"

namespace Url

/-- The parts between marks, of which there is one more than marks. -/
def splitAt (mark : Char) : List Char → List (List Char)
  | [] => [[]]
  | c :: rest =>
      if c = mark then [] :: splitAt mark rest
      else match splitAt mark rest with
        | part :: parts => (c :: part) :: parts
        | [] => [[c]]

/-- The bytes of a text in which a percent sign before two digits of base 16 stands for a byte. -/
def percentBytes : List Char → List UInt8
  | '%' :: a :: b :: rest =>
      match Json.hexValue? a, Json.hexValue? b with
      | some high, some low => UInt8.ofNat (16 * high + low) :: percentBytes rest
      | _, _ => '%'.toString.toUTF8.toList ++ percentBytes (a :: b :: rest)
  | c :: rest => c.toString.toUTF8.toList ++ percentBytes rest
  | [] => []

/-- Four numbers below 256 with points between them. -/
def isIpv4 (cs : List Char) : Bool :=
  let parts := splitAt '.' cs
  parts.length == 4 && parts.all fun part =>
    !part.isEmpty && part.length ≤ 3 && part.all Char.isDigit && Decimal.value part < 256 &&
      (part.length == 1 || part.head? != some '0')

def isIpv6Group (cs : List Char) : Bool :=
  !cs.isEmpty && cs.length ≤ 4 && cs.all fun c => (Json.hexValue? c).isSome

/-- How many groups of 16 bits a row of groups with colons between them is. The last one may be an
IPv4 address, which counts for two. -/
def countGroups? : List (List Char) → Option Nat
  | [] => some 0
  | [last] => if isIpv6Group last then some 1 else if isIpv4 last then some 2 else none
  | group :: rest => if isIpv6Group group then (countGroups? rest).map (· + 1) else none

/-- The text before and behind the first pair of colons. -/
def splitAtGap? : List Char → Option (List Char × List Char)
  | ':' :: ':' :: rest => some ([], rest)
  | c :: rest => (splitAtGap? rest).map fun (before, behind) => (c :: before, behind)
  | [] => none

/-- Eight groups, or fewer with a gap that stands for the others. -/
def isIpv6 (cs : List Char) : Bool :=
  let groups (part : List Char) : List (List Char) := if part.isEmpty then [] else splitAt ':' part
  match splitAtGap? cs with
  | none => countGroups? (groups cs) == some 8
  | some (before, behind) =>
      (groups before).all isIpv6Group &&
        match countGroups? (groups behind) with
        | some count => (groups before).length + count ≤ 7
        | none => false

/-- Digits of a base, of which none is zero. -/
def inBase? (base : Nat) (cs : List Char) : Option Nat :=
  cs.foldlM (fun n c => do
    let digit ← Json.hexValue? c
    if digit < base then some (base * n + digit) else none) 0

/-- A number as the parts of a domain are read: in base 16 behind `0x`, in base 8 behind another
zero. -/
def number? : List Char → Option Nat
  | [] => none
  | '0' :: 'x' :: digits => inBase? 16 digits
  | '0' :: 'X' :: digits => inBase? 16 digits
  | '0' :: c :: digits => inBase? 8 (c :: digits)
  | digits => inBase? 10 digits

/-- The last of the numbers takes the place of all bytes that the others leave. -/
def fitIpv4 (most : Nat) : List Nat → Bool
  | [] => false
  | [last] => last ≤ most
  | first :: rest => first ≤ 255 && fitIpv4 (most / 256) rest

/-- The parts of a domain, but for an empty one at its end. -/
def labels (domain : List Char) : List (List Char) :=
  let parts := splitAt '.' domain
  if 1 < parts.length && parts.getLast? == some [] then parts.dropLast else parts

/-- A domain that would have to be an IPv4 address. -/
def endsInNumber (domain : List Char) : Bool :=
  match (labels domain).getLast? with
  | none => false
  | some last => !last.isEmpty && (last.all Char.isDigit || (number? last).isSome)

/-- One to four numbers that make up four bytes. -/
def isNumericDomain (domain : List Char) : Bool :=
  (labels domain).length ≤ 4 &&
    match (labels domain).mapM number? with
    | some numbers => fitIpv4 0xFFFFFFFF numbers
    | none => false

/-- ASCII characters that have no place in a host. -/
def isForbidden (c : Char) : Bool :=
  c == '\x00' || "\t\n\r #/:<>?@[\\]^|".toList.contains c

def isForbiddenInDomain (c : Char) : Bool :=
  c.toNat < 0x20 || c == '\x7f' || c == '%' || isForbidden c

/-- A host that is not read as a domain. -/
def checkHost (host : List Char) : Except UrlError Unit :=
  match host with
  | '[' :: inner =>
      if inner.getLast? = some ']' && isIpv6 inner.dropLast then .ok () else .error .badIpv6
  | _ => if host.any isForbidden then .error .badHost else .ok ()

/-- A host that is read as a domain. -/
def checkDomain (host : List Char) : Except UrlError Unit :=
  match host with
  | [] => .error .emptyHost
  | '[' :: _ => checkHost host
  | _ =>
      match Text.Utf8.decode (percentBytes host) with
      | .error _ => .error .badDomain
      | .ok domain =>
          let domain := domain.toList
          if domain.any isForbiddenInDomain then .error .badDomain
          else if endsInNumber domain && !isNumericDomain domain then .error .badIpv4
          else .ok ()

end Url

end Outbox
