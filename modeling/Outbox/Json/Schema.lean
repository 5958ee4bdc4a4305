import Outbox.Json.Reader
import Outbox.Json.Writer
import Outbox.Message
import Outbox.Time.Text

/-! # Types of JSON values

A schema says what a JSON text has to hold, and which values it stands for. Values of a schema are
written as JSON and read back from text. A record is read from an object, in which other members are
passed over, or from a list of its fields in order; an optional field may be left out of the object.
-/

namespace Outbox.Json

/-- The integer types besides those of 32 and 64 bits that records are made of. -/
inductive IntegerType
  | i8
  | i16
  | i32
  | i128
  | isize
  | u8
  | u16
  | u128
  | usize
  deriving DecidableEq, Repr

namespace IntegerType

def name : IntegerType → String
  | i8 => "i8"
  | i16 => "i16"
  | i32 => "i32"
  | i128 => "i128"
  | isize => "isize"
  | u8 => "u8"
  | u16 => "u16"
  | u128 => "u128"
  | usize => "usize"

def low : IntegerType → Int
  | i8 => -0x80
  | i16 => -0x8000
  | i32 => -0x80000000
  | i128 => -0x80000000000000000000000000000000
  | isize => -0x8000000000000000
  | u8 | u16 | u128 | usize => 0

def high : IntegerType → Int
  | i8 => 0x7F
  | i16 => 0x7FFF
  | i32 => 0x7FFFFFFF
  | i128 => 0x7FFFFFFFFFFFFFFFFFFFFFFFFFFFFFFF
  | isize => 0x7FFFFFFFFFFFFFFF
  | u8 => 0xFF
  | u16 => 0xFFFF
  | u128 => 0xFFFFFFFFFFFFFFFFFFFFFFFFFFFFFFFF
  | usize => 0xFFFFFFFFFFFFFFFF

/-- Wider than the numbers that are read without being told their type. -/
def isWide : IntegerType → Bool
  | i128 | u128 => true
  | _ => false

/-- The integers of the type. -/
def Val (t : IntegerType) : Type := { n : Int // t.low ≤ n ∧ n ≤ t.high }

def ofInt? (t : IntegerType) (n : Int) : Option t.Val :=
  if h : t.low ≤ n ∧ n ≤ t.high then some ⟨n, h⟩ else none

def accept (t : IntegerType) : Number → Option t.Val
  | .integer n => t.ofInt? n
  | .float _ => none

end IntegerType

mutual

inductive Schema
  | text
  | flag
  | u32
  | u64
  | i64
  | integer (t : IntegerType)
  | float
  | id
  | instant
  | state
  | any
  | optional (s : Schema)
  | list (s : Schema)
  | map (s : Schema)
  | record (name : String) (fields : Fields)

/-- The fields of a record, in order. -/
inductive Fields
  | done
  | field (name : String) (s : Schema) (rest : Fields)

end

mutual

/-- The values that a schema stands for. A map is a list of entries in the order of their keys. -/
def Schema.Val : Schema → Type
  | .text => String
  | .flag => Bool
  | .u32 => UInt32
  | .u64 => UInt64
  | .i64 => Int64
  | .integer t => t.Val
  | .float => Float
  | .id => MessageId
  | .instant => Instant
  | .state => MessageState
  | .any => Json
  | .optional s => Option s.Val
  | .list s => List s.Val
  | .map s => List (String × s.Val)
  | .record _ fields => fields.Val

def Fields.Val : Fields → Type
  | .done => Unit
  | .field _ s rest => s.Val × rest.Val

end

mutual

/-- A value as JSON. -/
def Schema.toJson : (s : Schema) → s.Val → Json
  | .text, v => Json.text v
  | .flag, v => .bool v
  | .u32, v => natural (UInt32.toNat v)
  | .u64, v => natural (UInt64.toNat v)
  | .i64, v => integer (Int64.toInt v)
  | .integer t, v => Json.integer (v : t.Val).1
  | .float, v => .number (.float v)
  | .id, v => Json.text (MessageId.toText v)
  | .instant, v => Json.text (Instant.toText v)
  | .state, v => Json.text (MessageState.name v)
  | .any, v => v
  | .optional s, v => match v with
      | Option.none => .null
      | Option.some v => s.toJson v
  | .list s, v => .list (List.map s.toJson v)
  | .map s, v => .object (List.map (fun (entry : String × s.Val) => (entry.1, s.toJson entry.2)) v)
  | .record _ fields, v => .object (fields.toMembers v)

def Fields.toMembers : (fields : Fields) → fields.Val → List (String × Json)
  | .done, _ => []
  | .field name s rest, v => (name, s.toJson v.1) :: rest.toMembers v.2

end

namespace Fields

def count : Fields → Nat
  | .done => 0
  | .field _ _ rest => rest.count + 1

/-- The fields found so far in an object. -/
def Found : Fields → Type
  | .done => Unit
  | .field _ s rest => Option s.Val × rest.Found

def noneFound : (fields : Fields) → fields.Found
  | .done => ()
  | .field _ _ rest => (Option.none, rest.noneFound)

end Fields

/-- What a field that is left out stands for, if it may be. -/
def Schema.absent? : (s : Schema) → Option s.Val
  | .optional _ => Option.some Option.none
  | _ => Option.none

/-- The record of the fields found, or the name of the first one missing. -/
def Fields.complete : (fields : Fields) → fields.Found → Except String fields.Val
  | .done, _ => .ok ()
  | .field name s rest, found =>
      match found.1.or s.absent? with
      | Option.none => .error name
      | Option.some v => do return (v, ← rest.complete found.2)

/-- What is said to be due where a record is. -/
def recordDescription (name : String) : String := "struct " ++ name

/-- What is said to be due where a record stands as a list of too few items. -/
def lengthDescription (name : String) (count : Nat) : String :=
  recordDescription name ++ " with " ++ toString count ++
    (if count = 1 then " element" else " elements")

/-- A fault for a value of another form than the one due. The value is read if it is a scalar. -/
def mismatch (expected : String) (c : Cursor) : Fault :=
  let wrong (found : Found) (c : Cursor) : Fault := c.faultHere (.wrongType found expected)
  let named (letters : List Char) (found : Found) : Fault :=
    match ident letters (c.skip 1) with
    | .error fault => fault
    | .ok c => wrong found c
  let numeric (result : Except Fault (Number × Cursor)) : Fault :=
    match result with
    | .error fault => fault
    | .ok (.integer n, c) => wrong (.integer n) c
    | .ok (.float x, c) => wrong (.float x) c
  match c.rest with
  | [] => c.faultAhead .endInValue
  | 'n' :: _ => named ['u', 'l', 'l'] .null
  | 't' :: _ => named ['r', 'u', 'e'] (.bool true)
  | 'f' :: _ => named ['a', 'l', 's', 'e'] (.bool false)
  | '-' :: _ => numeric (numberFrom true (c.skip 1))
  | '"' :: _ =>
      match string (c.skip 1) with
      | .error fault => fault
      | .ok (s, c) => wrong (.text (String.ofList s)) c
  | '[' :: _ => wrong .list c
  | '\x7b' :: _ => wrong .object c
  | ch :: _ => if ch.isDigit then numeric (numberFrom false c) else c.faultAhead .valueExpected

/-- A string. -/
def stringAs (expected : String) : Reader String := fun c =>
  let c := c.skipBlank
  match c.rest with
  | '"' :: _ => do
      let (s, c) ← string (c.skip 1)
      return (String.ofList s, c)
  | _ => .error (mismatch expected c)

/-- A number that is `accepted` for its type. -/
def numberAs {α : Type} (expected : String) (accepted : Number → Option α) : Reader α := fun c =>
  let c := c.skipBlank
  let judge (result : Except Fault (Number × Cursor)) : Except Fault (α × Cursor) := do
    let (n, c) ← result
    match accepted n, n with
    | Option.some a, _ => return (a, c)
    | Option.none, .integer i => throw (c.faultHere (.wrongValue i expected))
    | Option.none, .float x => throw (c.faultHere (.wrongType (.float x) expected))
  match c.rest with
  | '-' :: _ => judge (numberFrom true (c.skip 1))
  | ch :: _ => if ch.isDigit then judge (numberFrom false c) else .error (mismatch expected c)
  | [] => .error (mismatch expected c)

/-- An integer between two bounds. -/
def integerWithin {α : Type} (low high : Int) (f : Int → α) : Number → Option α
  | .integer n => if low ≤ n ∧ n ≤ high then Option.some (f n) else Option.none
  | .float _ => Option.none

/-- The digits of an integer that may be too wide for a number. -/
def wideDigits (t : IntegerType) (negative : Bool) : Reader t.Val := fun c =>
  match c.rest with
  | [] => .error (c.faultHere .invalidNumber)
  | ch :: more =>
      if !ch.isDigit then .error (c.faultAhead .invalidNumber)
      else if ch = '0' && (more.head?.map Char.isDigit).getD false then
        .error ((c.skip 1).faultAhead .invalidNumber)
      else
        let (ds, after) := c.span Char.isDigit
        let n : Int := if negative then -Decimal.value ds else Decimal.value ds
        match t.ofInt? n with
        | Option.some v => .ok (v, after)
        | Option.none => .error (after.faultHere .numberOutOfRange)

/-- An integer that may be too wide for a number. -/
def wideInteger (t : IntegerType) : Reader t.Val := fun c =>
  let c := c.skipBlank
  match c.rest with
  | [] => .error (c.faultAhead .endInValue)
  | '-' :: _ =>
      if t.low = 0 then .error (c.faultAhead .numberOutOfRange) else wideDigits t true (c.skip 1)
  | _ => wideDigits t false c

/-- Any number as a float. -/
def Number.toFloat : Number → Float
  | .float x => x
  | .integer n => if n < 0 then -n.natAbs.toUInt64.toFloat else n.natAbs.toUInt64.toFloat

def boolean : Reader Bool := fun c =>
  let c := c.skipBlank
  match c.rest with
  | 't' :: _ => do return (true, ← ident ['r', 'u', 'e'] (c.skip 1))
  | 'f' :: _ => do return (false, ← ident ['a', 'l', 's', 'e'] (c.skip 1))
  | _ => .error (mismatch "a boolean" c)

/-- The name of a state. -/
def stateName : Reader MessageState := fun c => do
  let (name, c) ← stringAs "variant identifier" c
  match MessageState.ofName? name with
  | Option.some s => return (s, c)
  | Option.none =>
      throw (c.faultHere (.unknownVariant name (MessageState.all.map MessageState.name)))

/-- The value `null`. -/
def unit : Reader Unit := fun c =>
  let c := c.skipBlank
  match c.rest with
  | 'n' :: _ => do return ((), ← ident ['u', 'l', 'l'] (c.skip 1))
  | _ => .error (mismatch "unit" c)

/-- A state: its name, or an object whose only member has the name as key and `null` as value. -/
def stateReader (depth : Nat) : Reader MessageState := fun c =>
  let c := c.skipBlank
  match c.rest with
  | [] => .error (c.faultAhead .endInValue)
  | '"' :: _ => stateName c
  | '\x7b' :: _ =>
      if depth = 0 then .error (c.faultAhead .tooDeep)
      else do
        let (s, c) ← stateName (c.skip 1)
        let ((), c) ← unit (← colon c)
        let c := c.skipBlank
        match c.rest with
        | [] => throw (c.faultHere .endInObject)
        | '\x7d' :: _ => return (s, c.skip 1)
        | _ => throw (c.faultHere .valueExpected)
  | _ => .error (c.faultAhead .valueExpected)

/-- An instant in a string. -/
def instantReader : Reader Instant := fun c => do
  let (s, c) ← stringAs "an RFC 3339 formatted date and time string" c
  match Instant.ofText s with
  | .ok i => return (i, c)
  | .error e => throw (c.faultHere (.unreadable e.message))

/-- An id in a string. What is wrong with the id has no place of its own. -/
def idReader : Reader MessageId := fun c => do
  let (s, c) ← stringAs "a string" c
  match MessageId.ofText s with
  | .ok id => return (id, c)
  | .error e => throw (c.faultSomewhere (.unreadable e.message))

/-- Opens a list or object unless it is nested too deep. -/
def descend {α : Type} (depth : Nat) (c : Cursor)
    (body : Nat → Cursor → Except Fault (α × Cursor)) : Except Fault (α × Cursor) :=
  match depth with
  | 0 => .error (c.faultAhead .tooDeep)
  | depth + 1 => body depth (c.skip 1)

/-- Puts an entry where its key belongs, over one of the same key. -/
def putEntry {α : Type} (key : String) (v : α) : List (String × α) → List (String × α)
  | [] => [(key, v)]
  | first :: rest =>
      if key < first.1 then (key, v) :: first :: rest
      else if key = first.1 then (key, v) :: rest
      else first :: putEntry key v rest

mutual

/-- Reads a value of a schema, nested at most so deep. -/
def Schema.read : (s : Schema) → Nat → Reader s.Val
  | .text, _, c => stringAs "a string" c
  | .flag, _, c => boolean c
  | .u32, _, c => numberAs "u32" (integerWithin 0 0xFFFFFFFF fun n => UInt32.ofNat n.toNat) c
  | .u64, _, c =>
      numberAs "u64" (integerWithin 0 0xFFFFFFFFFFFFFFFF fun n => UInt64.ofNat n.toNat) c
  | .i64, _, c =>
      numberAs "i64" (integerWithin (-0x8000000000000000) 0x7FFFFFFFFFFFFFFF Int64.ofInt) c
  | .integer t, _, c => if t.isWide then wideInteger t c else numberAs t.name t.accept c
  | .float, _, c => numberAs "f64" (fun n => Option.some n.toFloat) c
  | .id, _, c => idReader c
  | .instant, _, c => instantReader c
  | .state, depth, c => stateReader depth c
  | .any, depth, c => value depth c
  | .optional s, depth, c =>
      let c := c.skipBlank
      match c.rest with
      | 'n' :: _ => do return (Option.none, ← ident ['u', 'l', 'l'] (c.skip 1))
      | _ => do
          let (v, c) ← s.read depth c
          return (Option.some v, c)
  | .list s, depth, c =>
      let c := c.skipBlank
      match c.rest with
      | '[' :: _ => descend depth c fun depth inside =>
          closing closeList (items (s.read depth) c.rest.length true inside)
      | _ => .error (mismatch "a sequence" c)
  | .map s, depth, c =>
      let c := c.skipBlank
      match c.rest with
      | '\x7b' :: _ => descend depth c fun depth inside =>
          let member (key : String) (known : List (String × s.Val)) (c : Cursor) := do
            let (v, c) ← s.read depth (← colon c)
            return (putEntry key v known, c)
          closing closeObject (members member c.rest.length true [] inside)
      | _ => .error (mismatch "a map" c)
  | .record name fields, depth, c =>
      let c := c.skipBlank
      match c.rest with
      | '[' :: _ => descend depth c fun depth inside =>
          closing closeList
            (fields.readInOrder depth (lengthDescription name fields.count) 0 inside)
      | '\x7b' :: _ => descend depth c fun depth inside =>
          let member (key : String) (found : fields.Found) (c : Cursor) :=
            match fields.readMember depth key found c with
            | Option.some result => result
            | Option.none => do return (found, ← Skip.value (← colon c))
          closing closeObject do
            let (found, c) ← members member c.rest.length true fields.noneFound inside
            match fields.complete found with
            | .ok v => return (v, c)
            | .error missing => throw (c.faultSomewhere (.missingField missing))
      | _ => .error (mismatch (recordDescription name) c)

/-- Reads the fields from a list, of which `found` are read already. -/
def Fields.readInOrder :
    (fields : Fields) → Nat → String → Nat → Cursor → Except Fault (fields.Val × Cursor)
  | .done, _, _, _, c => .ok ((), c)
  | .field _ s rest, depth, expected, found, c => do
      let (more, c) ← nextItem (found == 0) c
      if more then
        let (v, c) ← s.read depth c
        let (others, c) ← rest.readInOrder depth expected (found + 1) c
        return ((v, others), c)
      else throw (c.faultSomewhere (.wrongLength found expected))

/-- Reads the member of an object with this key, if the record has such a field. -/
def Fields.readMember :
    (fields : Fields) → Nat → String → fields.Found → Cursor →
      Option (Except Fault (fields.Found × Cursor))
  | .done, _, _, _, _ => Option.none
  | .field name s rest, depth, key, found, c =>
      if key = name then Option.some do
        if found.1.isSome then throw (c.faultSomewhere (.duplicateField name))
        let (v, c) ← s.read depth (← colon c)
        return ((Option.some v, found.2), c)
      else
        (rest.readMember depth key found.2 c).map fun result => do
          let (others, c) ← result
          return ((found.1, others), c)

end

/-- A value as compact text. -/
def Schema.write (s : Schema) (v : s.Val) : String := (s.toJson v).toText

/-- Reads a whole text as a value of a schema. -/
def Schema.ofText (s : Schema) (text : String) : Except ReadError s.Val :=
  whole (s.read depthLimit) text

end Outbox.Json
