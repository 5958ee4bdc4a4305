import Outbox.Text.Hidden

/-! # Text quoted for diagnosis

A quoted form in which every character can be told apart: quotes and backslashes are escaped, the
usual control characters have short escapes, and other characters that do not show are written by
their code point in base 16.
-/

namespace Outbox.Text

/-- The code point in base 16, lower case, without leading zeros. -/
def codePoint (c : Char) : List Char := Nat.toDigits 16 c.toNat

def debugEscape (c : Char) : List Char :=
  match c with
  | '"' => ['\\', '"']
  | '\\' => ['\\', '\\']
  | '\n' => ['\\', 'n']
  | '\r' => ['\\', 'r']
  | '\t' => ['\\', 't']
  | '\x00' => ['\\', '0']
  | c => if isHidden c then "\\u\x7b".toList ++ codePoint c ++ ['\x7d'] else [c]

def debugQuoted (text : String) : String :=
  String.ofList ('"' :: text.toList.flatMap debugEscape ++ ['"'])

end Outbox.Text
