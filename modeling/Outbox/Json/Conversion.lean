import Outbox.Json.Schema

/-! # JSON values as values of a schema

The same reading as from text, for JSON that is at hand as a value, so that nothing that is wrong
has a place in a text. The members of an object are taken in the order of their keys. A record that
stands as a list must have an item for each field and no more.
-/

namespace Outbox.Json

/-- What a value is, where another one is due. -/
def found : Json → Found
  | .null => .null
  | .bool b => .bool b
  | .number (.integer n) => .integer n
  | .number (.float x) => .float x
  | .text s => .text s
  | .list _ => .list
  | .object _ => .object

def wrongType {α : Type} (expected : String) (j : Json) : Except Cause α :=
  .error (.wrongType j.found expected)

/-- A number that is `accepted` for its type. -/
def acceptNumber {α : Type} (expected : String) (accepted : Number → Option α) :
    Json → Except Cause α
  | .number n =>
      match accepted n, n with
      | some a, _ => .ok a
      | none, .integer i => .error (.wrongValue i expected)
      | none, .float x => .error (.wrongType (.float x) expected)
  | j => wrongType expected j

mutual

def Schema.ofJson : (s : Schema) → Json → Except Cause s.Val
  | .text, .text v => .ok v
  | .text, j => wrongType "a string" j
  | .flag, .bool v => .ok v
  | .flag, j => wrongType "a boolean" j
  | .u32, j => acceptNumber "u32" (integerWithin 0 0xFFFFFFFF fun n => UInt32.ofNat n.toNat) j
  | .u64, j =>
      acceptNumber "u64" (integerWithin 0 0xFFFFFFFFFFFFFFFF fun n => UInt64.ofNat n.toNat) j
  | .i64, j =>
      acceptNumber "i64" (integerWithin (-0x8000000000000000) 0x7FFFFFFFFFFFFFFF Int64.ofInt) j
  | .integer t, j => acceptNumber t.name t.accept j
  | .float, j => acceptNumber "f64" (fun n => some n.toFloat) j
  | .id, .text v => (MessageId.ofText v).mapError fun e => .unreadable e.message
  | .id, j => wrongType "a string" j
  | .instant, .text v => (Instant.ofText v).mapError fun e => .unreadable e.message
  | .instant, j => wrongType "an RFC 3339 formatted date and time string" j
  | .state, .text v =>
      match MessageState.ofName? v with
      | some s => .ok s
      | none => .error (.unknownVariant v (MessageState.all.map MessageState.name))
  | .state, j => wrongType "string or map" j
  | .any, v => .ok v
  | .optional _, .null => .ok none
  | .optional s, v => (s.ofJson v).map some
  | .list s, .list items => items.mapM s.ofJson
  | .list _, j => wrongType "a sequence" j
  | .map s, .object members =>
      (sortMembers members).mapM fun (entry : String × Json) =>
        (s.ofJson entry.2).map fun v => (entry.1, v)
  | .map _, j => wrongType "a map" j
  | .record name fields, .list items => do
      let v ← fields.ofItems (lengthDescription name fields.count) 0 items
      if fields.count < items.length then
        .error (.wrongLength items.length "fewer elements in array")
      return v
  | .record _ fields, .object members => do
      let found ← (sortMembers members).foldlM
        (fun found (entry : String × Json) => fields.takeMember entry.1 entry.2 found)
        fields.noneFound
      (fields.complete found).mapError .missingField
  | .record name _, j => wrongType (recordDescription name) j

/-- The fields from a list, of which `taken` items are taken already. -/
def Fields.ofItems : (fields : Fields) → String → Nat → List Json → Except Cause fields.Val
  | .done, _, _, _ => .ok ()
  | .field .., expected, taken, [] => .error (.wrongLength taken expected)
  | .field _ s rest, expected, taken, item :: items => do
      return (← s.ofJson item, ← rest.ofItems expected (taken + 1) items)

/-- Takes the member of an object with this key, if the record has such a field. -/
def Fields.takeMember :
    (fields : Fields) → String → Json → fields.Found → Except Cause fields.Found
  | .done, _, _, _ => .ok ()
  | .field name s rest, key, j, found =>
      if key = name then do return (some (← s.ofJson j), found.2)
      else do return (found.1, ← rest.takeMember key j found.2)

end

end Outbox.Json
