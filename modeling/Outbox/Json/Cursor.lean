import Outbox.Decimal.Style
import Outbox.Text.Debug

/-! # Places in a JSON text, and what can be wrong there

Lines count from 1 and columns count the bytes since the last line break. A fault is reported either
at the place where reading stopped, or one byte further, at the byte that was looked at but not
taken. A value that reads well but does not suit its type has no place of its own: the list or
object around it supplies one when it closes.
-/

namespace Outbox.Json

structure Position where
  line : Nat
  column : Nat
  deriving DecidableEq, Repr

namespace Position

def start : Position := ⟨1, 0⟩

def after (p : Position) (c : Char) : Position :=
  if c = '\n' then ⟨p.line + 1, 0⟩ else ⟨p.line, p.column + c.utf8Size⟩

/-- One byte into a character. -/
def into (p : Position) (c : Char) : Position :=
  if c = '\n' then ⟨p.line + 1, 0⟩ else ⟨p.line, p.column + 1⟩

/-- The place after a text. -/
def afterAll (p : Position) (cs : List Char) : Position := cs.foldl after p

end Position

/-- The text still to be read and the place where it begins. -/
structure Cursor where
  rest : List Char
  position : Position
  deriving DecidableEq

namespace Cursor

def ofText (text : String) : Cursor := ⟨text.toList, .start⟩

/-- The cursor after as many characters. -/
def skip : Nat → Cursor → Cursor
  | 0, c => c
  | n + 1, c =>
      match c.rest with
      | [] => c
      | ch :: rest => skip n ⟨rest, c.position.after ch⟩

/-- The characters up to the first one that fails the test, and the cursor there. -/
def span (p : Char → Bool) (c : Cursor) : List Char × Cursor :=
  let taken := c.rest.takeWhile p
  (taken, ⟨c.rest.drop taken.length, c.position.afterAll taken⟩)

def isBlank (ch : Char) : Bool := ch == ' ' || ch == '\t' || ch == '\n' || ch == '\r'

/-- The cursor at the next token. -/
def skipBlank (c : Cursor) : Cursor := (c.span isBlank).2

/-- The place of a byte that was looked at but not taken. -/
def peeked (c : Cursor) : Position :=
  match c.rest with
  | [] => c.position
  | ch :: _ => c.position.into ch

end Cursor

/-- What stands where something else is due. -/
inductive Found
  | null
  | bool (b : Bool)
  | integer (n : Int)
  | float (x : Float)
  | text (s : String)
  | list
  | object

def Found.describe : Found → String
  | null => "null"
  | bool b => "boolean `" ++ (if b then "true" else "false") ++ "`"
  | integer n => "integer `" ++ toString n ++ "`"
  | float x => "floating point `" ++ Decimal.Style.json.text x ++ "`"
  | text s => "string " ++ Text.debugQuoted s
  | list => "sequence"
  | object => "map"

/-- What is wrong with a text. -/
inductive Cause
  | endInValue
  | endInString
  | endInList
  | endInObject
  | valueExpected
  | identExpected
  | invalidNumber
  | numberOutOfRange
  | controlCharacter
  | invalidEscape
  | loneSurrogate
  | unfinishedSurrogate
  | listCommaExpected
  | objectCommaExpected
  | colonExpected
  | trailingComma
  | keyNotText
  | tooDeep
  | trailingCharacters
  | wrongType (found : Found) (expected : String)
  | wrongValue (n : Int) (expected : String)
  | wrongLength (length : Nat) (expected : String)
  | duplicateField (name : String)
  | missingField (name : String)
  | unknownVariant (name : String) (known : List String)
  /-- A string that its type cannot read, with that type's own complaint. -/
  | unreadable (complaint : String)

/-- The name between back quotes. -/
private def ticked (name : String) : String := "`" ++ name ++ "`"

def Cause.message : Cause → String
  | endInValue => "EOF while parsing a value"
  | endInString => "EOF while parsing a string"
  | endInList => "EOF while parsing a list"
  | endInObject => "EOF while parsing an object"
  | valueExpected => "expected value"
  | identExpected => "expected ident"
  | invalidNumber => "invalid number"
  | numberOutOfRange => "number out of range"
  | controlCharacter => "control character (\\u0000-\\u001F) found while parsing a string"
  | invalidEscape => "invalid escape"
  | loneSurrogate => "lone leading surrogate in hex escape"
  | unfinishedSurrogate => "unexpected end of hex escape"
  | listCommaExpected => "expected `,` or `]`"
  | objectCommaExpected => "expected `,` or `\x7d`"
  | colonExpected => "expected `:`"
  | trailingComma => "trailing comma"
  | keyNotText => "key must be a string"
  | tooDeep => "recursion limit exceeded"
  | trailingCharacters => "trailing characters"
  | wrongType found expected => "invalid type: " ++ found.describe ++ ", expected " ++ expected
  | wrongValue n expected =>
      "invalid value: integer " ++ ticked (toString n) ++ ", expected " ++ expected
  | wrongLength length expected => "invalid length " ++ toString length ++ ", expected " ++ expected
  | duplicateField name => "duplicate field " ++ ticked name
  | missingField name => "missing field " ++ ticked name
  | unknownVariant name known =>
      "unknown variant " ++ ticked name ++ ", expected one of " ++
        String.intercalate ", " (known.map ticked)
  | unreadable complaint => complaint

/-- Why a text could not be read, and where, if that is known. -/
structure ReadError where
  cause : Cause
  position : Option Position

def ReadError.message (e : ReadError) : String :=
  match e.position with
  | none => e.cause.message
  | some p => e.cause.message ++ " at line " ++ toString p.line ++ " column " ++ toString p.column

/-- A fault, and the cursor where reading stopped. -/
structure Fault where
  error : ReadError
  stopped : Cursor

/-- Reads a value off the front of a text. -/
abbrev Reader (α : Type) := Cursor → Except Fault (α × Cursor)

namespace Cursor

/-- A fault at the place of the cursor. -/
def faultHere (c : Cursor) (cause : Cause) : Fault := ⟨⟨cause, some c.position⟩, c⟩

/-- A fault at the byte after the cursor. -/
def faultAhead (c : Cursor) (cause : Cause) : Fault := ⟨⟨cause, some c.peeked⟩, c⟩

/-- A fault whose place is still to be supplied. -/
def faultSomewhere (c : Cursor) (cause : Cause) : Fault := ⟨⟨cause, none⟩, c⟩

end Cursor

end Outbox.Json
