import Outbox.Decimal.Style
import Outbox.Json.Basic

/-! # Writing JSON

The compact form has no blanks. In strings only the quote, the backslash and the characters below
the space are escaped. A float that is no number or infinite is written as `null`. The spread form
puts each item on a line of its own, two spaces deeper than what holds it; empty lists and objects
stay closed.
-/

namespace Outbox.Json

/-- A digit of base 16 in lower case. -/
def hexDigit (n : Nat) : Char := "0123456789abcdef".toList.getD (n % 16) '0'

/-- The written form of a character inside a string. -/
def escape (c : Char) : List Char :=
  match c with
  | '"' => ['\\', '"']
  | '\\' => ['\\', '\\']
  | '\x08' => ['\\', 'b']
  | '\x0c' => ['\\', 'f']
  | '\n' => ['\\', 'n']
  | '\r' => ['\\', 'r']
  | '\t' => ['\\', 't']
  | c =>
      if c.toNat < 32 then ['\\', 'u', '0', '0', hexDigit (c.toNat / 16), hexDigit c.toNat]
      else [c]

def quoted (cs : List Char) : List Char := '"' :: cs.flatMap escape ++ ['"']

def Number.chars : Number → List Char
  | .integer n => Decimal.signed n
  | .float x => if x.isFinite then Decimal.Style.json.chars x else "null".toList

/-- Texts with a comma between them. -/
def commaSeparated : List (List Char) → List Char
  | [] => []
  | [only] => only
  | first :: rest => first ++ ',' :: commaSeparated rest

mutual

/-- The compact form. -/
def chars : Json → List Char
  | .null => "null".toList
  | .bool true => "true".toList
  | .bool false => "false".toList
  | .number n => n.chars
  | .text s => quoted s.toList
  | .list items => '[' :: commaSeparated (itemTexts items) ++ [']']
  | .object members => '{' :: commaSeparated (memberTexts members) ++ ['}']

def itemTexts : List Json → List (List Char)
  | [] => []
  | item :: rest => chars item :: itemTexts rest

def memberTexts : List (String × Json) → List (List Char)
  | [] => []
  | (key, value) :: rest => (quoted key.toList ++ ':' :: chars value) :: memberTexts rest

end

def toText (j : Json) : String := String.ofList j.chars

/-- A line break and two spaces for each level. -/
def newLine (level : Nat) : List Char := '\n' :: List.replicate (2 * level) ' '

mutual

/-- The spread form, inside as many levels. -/
def spreadChars (level : Nat) : Json → List Char
  | .null => "null".toList
  | .bool true => "true".toList
  | .bool false => "false".toList
  | .number n => n.chars
  | .text s => quoted s.toList
  | .list [] => ['[', ']']
  | .list items => '[' :: commaSeparated (spreadItems (level + 1) items) ++ newLine level ++ [']']
  | .object [] => ['{', '}']
  | .object members =>
      '{' :: commaSeparated (spreadMembers (level + 1) members) ++ newLine level ++ ['}']

def spreadItems (level : Nat) : List Json → List (List Char)
  | [] => []
  | item :: rest => (newLine level ++ spreadChars level item) :: spreadItems level rest

def spreadMembers (level : Nat) : List (String × Json) → List (List Char)
  | [] => []
  | (key, value) :: rest =>
      (newLine level ++ quoted key.toList ++ ':' :: ' ' :: spreadChars level value) ::
        spreadMembers level rest

end

def toSpreadText (j : Json) : String := String.ofList (j.spreadChars 0)

end Outbox.Json
