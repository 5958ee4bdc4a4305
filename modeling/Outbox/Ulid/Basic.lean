/-! # ULIDs

A ULID is a number of 128 bits: 48 bits of milliseconds above 80 random bits. As text it is 26
digits of base 32, most significant first, so that the order of texts is the order of numbers. The
alphabet leaves out `I`, `L`, `O` and `U`. Reading ignores case, and drops the bits that 26 digits
have over 128.
-/

namespace Outbox

structure Ulid where
  value : Nat
  isLt : value < 0x100000000000000000000000000000000
  deriving DecidableEq

namespace Ulid

instance : LE Ulid := ⟨fun a b => a.value ≤ b.value⟩
instance : LT Ulid := ⟨fun a b => a.value < b.value⟩
instance (a b : Ulid) : Decidable (a ≤ b) := inferInstanceAs (Decidable (a.value ≤ b.value))
instance (a b : Ulid) : Decidable (a < b) := inferInstanceAs (Decidable (a.value < b.value))

theorem value_inj {a b : Ulid} : a.value = b.value ↔ a = b := by
  cases a; cases b; simp

/-- The ULID of a number, bits over 128 dropped. -/
def ofNat (n : Nat) : Ulid :=
  ⟨n % 0x100000000000000000000000000000000, Nat.mod_lt _ (by decide)⟩

/-- The ULID of a time and random bits, cut to 48 and 80 bits. -/
def ofParts (millis random : Nat) : Ulid :=
  ⟨millis % 0x1000000000000 * 0x100000000000000000000 + random % 0x100000000000000000000, by omega⟩

/-- The milliseconds since 1970 began. -/
def millis (u : Ulid) : Nat := u.value / 0x100000000000000000000

def random (u : Ulid) : Nat := u.value % 0x100000000000000000000

theorem millis_lt (u : Ulid) : u.millis < 0x1000000000000 := by
  have := u.isLt
  unfold millis
  omega

@[simp] theorem millis_ofParts (millis random : Nat) :
    (ofParts millis random).millis = millis % 0x1000000000000 := by
  simp only [ofParts, Ulid.millis]; omega

@[simp] theorem random_ofParts (millis random : Nat) :
    (ofParts millis random).random = random % 0x100000000000000000000 := by
  simp only [ofParts, Ulid.random]; omega

def alphabet : List Char := "0123456789ABCDEFGHJKMNPQRSTVWXYZ".toList

/-- The digit of a value below 32. -/
def symbol (n : Nat) : Char := alphabet.getD (n % 32) '0'

/-- The value of a digit in either case. -/
def symbolValue? (c : Char) : Option Nat := alphabet.idxOf? c.toUpper

/-- The last `places` digits of a number. -/
def symbols : Nat → Nat → List Char
  | 0, _ => []
  | places + 1, n => symbols places (n / 32) ++ [symbol n]

def chars (u : Ulid) : List Char := symbols 26 u.value

def toText (u : Ulid) : String := String.ofList u.chars

/-- Why a text is no ULID. -/
inductive ReadError
  | invalidLength
  | invalidChar
  deriving DecidableEq, Repr

def ReadError.message : ReadError → String
  | invalidLength => "invalid length"
  | invalidChar => "invalid character"

/-- The number that a row of digits stands for. -/
def symbolsValue? (cs : List Char) : Option Nat :=
  cs.foldlM (fun n c => (symbolValue? c).map (32 * n + ·)) 0

/-- Reads a ULID. The length is counted in bytes and judged before the digits are. -/
def ofText (text : String) : Except ReadError Ulid :=
  if text.utf8ByteSize ≠ 26 then .error .invalidLength
  else match symbolsValue? text.toList with
    | none => .error .invalidChar
    | some n => .ok (ofNat n)

end Ulid

/-- Names a message. -/
structure MessageId where
  ulid : Ulid
  deriving DecidableEq

namespace MessageId

instance : LE MessageId := ⟨fun a b => a.ulid ≤ b.ulid⟩
instance : LT MessageId := ⟨fun a b => a.ulid < b.ulid⟩
instance (a b : MessageId) : Decidable (a ≤ b) := inferInstanceAs (Decidable (a.ulid ≤ b.ulid))
instance (a b : MessageId) : Decidable (a < b) := inferInstanceAs (Decidable (a.ulid < b.ulid))

def toText (id : MessageId) : String := id.ulid.toText

def ofText (text : String) : Except Ulid.ReadError MessageId := (Ulid.ofText text).map MessageId.mk

end MessageId

/-- Names one cycle of a processor as the holder of the messages it claimed. -/
structure ClaimToken where
  ulid : Ulid
  deriving DecidableEq

namespace ClaimToken

def toText (claim : ClaimToken) : String := claim.ulid.toText

def ofText (text : String) : Except Ulid.ReadError ClaimToken :=
  (Ulid.ofText text).map ClaimToken.mk

end ClaimToken

end Outbox
