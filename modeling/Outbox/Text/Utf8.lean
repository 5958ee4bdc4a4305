/-! # Bytes as text

Which characters a row of bytes stands for in UTF-8. A byte that cannot follow what was begun ends
it; what was begun then stands for no character, and the byte may begin the next one. Reading
either stops at the first such place, or puts a mark there.
-/

namespace Outbox.Text.Utf8

/-- A part of a row of bytes. -/
inductive Piece
  | char (c : Char)
  /-- So many bytes that begin a character which is not brought to its end. -/
  | broken (length : Nat)
  /-- A character that the end of the row cuts off. -/
  | cut
  deriving DecidableEq, Repr

/-- A character that was begun: the bytes taken of it, the number made up of them, the bytes that it
lacks, and the bounds of the next one. -/
structure Begun where
  taken : Nat
  code : Nat
  lacking : Nat
  least : Nat
  most : Nat

/-- What a byte from 128 on can begin. The bounds rule out longer forms than necessary, surrogates
and what is above the last code point. -/
def begun? (byte : Nat) : Option Begun :=
  if 0xC2 ≤ byte && byte ≤ 0xDF then some ⟨1, byte - 0xC0, 1, 0x80, 0xBF⟩
  else if byte == 0xE0 then some ⟨1, 0, 2, 0xA0, 0xBF⟩
  else if byte == 0xED then some ⟨1, 0xD, 2, 0x80, 0x9F⟩
  else if 0xE1 ≤ byte && byte ≤ 0xEF then some ⟨1, byte - 0xE0, 2, 0x80, 0xBF⟩
  else if byte == 0xF0 then some ⟨1, 0, 3, 0x90, 0xBF⟩
  else if byte == 0xF4 then some ⟨1, 4, 3, 0x80, 0x8F⟩
  else if 0xF1 ≤ byte && byte ≤ 0xF3 then some ⟨1, byte - 0xF0, 3, 0x80, 0xBF⟩
  else none

/-- A byte where nothing is begun. -/
def first (byte : Nat) : List Piece × Option Begun :=
  if byte < 0x80 then ([.char (Char.ofNat byte)], none)
  else match begun? byte with
    | some begun => ([], some begun)
    | none => ([.broken 1], none)

/-- The pieces that end with or before a byte, and what is begun after it. -/
def next : Option Begun → Nat → List Piece × Option Begun
  | none, byte => first byte
  | some b, byte =>
      if b.least ≤ byte && byte ≤ b.most then
        let code := 64 * b.code + (byte - 0x80)
        if b.lacking = 1 then ([.char (Char.ofNat code)], none)
        else ([], some ⟨b.taken + 1, code, b.lacking - 1, 0x80, 0xBF⟩)
      else
        let (pieces, begun) := first byte
        (.broken b.taken :: pieces, begun)

def piecesAfter : Option Begun → List UInt8 → List Piece
  | none, [] => []
  | some _, [] => [.cut]
  | begun, byte :: rest =>
      let (pieces, begun) := next begun byte.toNat
      pieces ++ piecesAfter begun rest

def pieces (bytes : List UInt8) : List Piece := piecesAfter none bytes

/-- The place where bytes stop to be text. Where the row ends too early there is no length. -/
structure Fault where
  index : Nat
  length : Option Nat
  deriving DecidableEq, Repr

def Fault.message (f : Fault) : String :=
  match f.length with
  | some length =>
      "invalid utf-8 sequence of " ++ toString length ++ " bytes from index " ++ toString f.index
  | none => "incomplete utf-8 byte sequence from index " ++ toString f.index

/-- The characters of pieces, of which the first begins at an index. -/
def characters : Nat → List Piece → Except Fault (List Char)
  | _, [] => .ok []
  | index, .char c :: rest => (characters (index + c.utf8Size) rest).map (c :: ·)
  | index, .broken length :: _ => .error ⟨index, some length⟩
  | index, .cut :: _ => .error ⟨index, none⟩

/-- The text that bytes stand for, if all of them are text. -/
def decode (bytes : List UInt8) : Except Fault String :=
  (characters 0 (pieces bytes)).map String.ofList

/-- The text that bytes stand for, with a mark for everything that is no character. -/
def decodeMarking (bytes : List UInt8) : String :=
  String.ofList ((pieces bytes).map fun
    | .char c => c
    | _ => '\ufffd')

end Outbox.Text.Utf8
