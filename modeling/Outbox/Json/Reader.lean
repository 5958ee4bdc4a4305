import Outbox.Json.Skip

/-! # Reading JSON values

Lists and objects are read by loops over their items and members that do not know what an item or
member is; the reader of those is handed in. Values of every form are nested at most as deep as a
reader is told.
-/

namespace Outbox.Json

/-- How deep a text may be nested. -/
def depthLimit : Nat := 127

/-- Moves to the next item of a list, if one follows. -/
def nextItem (first : Bool) (c : Cursor) : Except Fault (Bool × Cursor) :=
  let c := c.skipBlank
  match c.rest with
  | [] => .error (c.faultAhead .endInList)
  | ']' :: _ => .ok (false, c)
  | ch :: _ =>
      if first then .ok (true, c)
      else if ch = ',' then
        let c := (c.skip 1).skipBlank
        match c.rest with
        | [] => .error (c.faultAhead .endInValue)
        | ']' :: _ => .error (c.faultAhead .trailingComma)
        | _ => .ok (true, c)
      else .error (c.faultAhead .listCommaExpected)

/-- The items of a list, up to its bracket. Each takes at least a character of the `fuel`. -/
def items {α : Type} (item : Reader α) : Nat → Bool → Reader (List α)
  | 0, _, c => .error (c.faultAhead .endInList)
  | fuel + 1, first, c => do
      let (more, c) ← nextItem first c
      if more then
        let (a, c) ← item c
        let (rest, c) ← items item fuel false c
        return (a :: rest, c)
      else return ([], c)

/-- Takes the bracket of a list. -/
def closeList (c : Cursor) : Except Fault Cursor :=
  let c := c.skipBlank
  match c.rest with
  | [] => .error (c.faultAhead .endInList)
  | ']' :: _ => .ok (c.skip 1)
  | ',' :: _ =>
      let c := (c.skip 1).skipBlank
      match c.rest with
      | ']' :: _ => .error (c.faultAhead .trailingComma)
      | _ => .error (c.faultAhead .trailingCharacters)
  | _ => .error (c.faultAhead .trailingCharacters)

/-- Moves to the next key of an object, if one follows. -/
def nextKey (first : Bool) (c : Cursor) : Except Fault (Bool × Cursor) :=
  let c := c.skipBlank
  match c.rest with
  | [] => .error (c.faultAhead .endInObject)
  | '\x7d' :: _ => .ok (false, c)
  | ch :: _ =>
      if first then if ch = '"' then .ok (true, c) else .error (c.faultAhead .keyNotText)
      else if ch = ',' then
        let c := (c.skip 1).skipBlank
        match c.rest with
        | [] => .error (c.faultAhead .endInValue)
        | '\x7d' :: _ => .error (c.faultAhead .trailingComma)
        | '"' :: _ => .ok (true, c)
        | _ => .error (c.faultAhead .keyNotText)
      else .error (c.faultAhead .objectCommaExpected)

/-- Takes the colon after a key. -/
def colon (c : Cursor) : Except Fault Cursor :=
  let c := c.skipBlank
  match c.rest with
  | [] => .error (c.faultAhead .endInObject)
  | ':' :: _ => .ok (c.skip 1)
  | _ => .error (c.faultAhead .colonExpected)

/-- The members of an object, up to its brace. What is known so far is passed from one to the next;
a member's reader starts before the colon. -/
def members {σ : Type} (member : String → σ → Reader σ) : Nat → Bool → σ → Reader σ
  | 0, _, _, c => .error (c.faultAhead .endInObject)
  | fuel + 1, first, known, c => do
      let (more, c) ← nextKey first c
      if more then
        let (key, c) ← string (c.skip 1)
        let (known, c) ← member (String.ofList key) known c
        members member fuel false known c
      else return (known, c)

/-- Takes the brace of an object. -/
def closeObject (c : Cursor) : Except Fault Cursor :=
  let c := c.skipBlank
  match c.rest with
  | [] => .error (c.faultAhead .endInObject)
  | '\x7d' :: _ => .ok (c.skip 1)
  | ',' :: _ => .error (c.faultAhead .trailingComma)
  | _ => .error (c.faultAhead .trailingCharacters)

/-- What was read of a list or object, once that is closed. A fault without a place gets the one
where closing stopped. -/
def closing {α : Type} (close : Cursor → Except Fault Cursor)
    (body : Except Fault (α × Cursor)) : Except Fault (α × Cursor) :=
  match body with
  | .ok (a, c) => do return (a, ← close c)
  | .error fault =>
      match fault.error.position with
      | some _ => .error fault
      | none =>
          let stopped := match close fault.stopped with
            | .ok c => c
            | .error f => f.stopped
          .error (stopped.faultHere fault.error.cause)

/-- A value of any form. Lists and objects need a reader for what is in them. -/
def valueWith (inner : Option (Reader Json)) : Reader Json := fun c =>
  let c := c.skipBlank
  match c.rest with
  | [] => .error (c.faultAhead .endInValue)
  | 'n' :: _ => do return (.null, ← ident ['u', 'l', 'l'] (c.skip 1))
  | 't' :: _ => do return (.bool true, ← ident ['r', 'u', 'e'] (c.skip 1))
  | 'f' :: _ => do return (.bool false, ← ident ['a', 'l', 's', 'e'] (c.skip 1))
  | '"' :: _ => do
      let (s, c) ← string (c.skip 1)
      return (.text (String.ofList s), c)
  | '-' :: _ => do
      let (n, c) ← numberFrom true (c.skip 1)
      return (.number n, c)
  | '[' :: _ =>
      match inner with
      | none => .error (c.faultAhead .tooDeep)
      | some value => do
          let (found, c) ← closing closeList (items value c.rest.length true (c.skip 1))
          return (.list found, c)
  | '\x7b' :: _ =>
      match inner with
      | none => .error (c.faultAhead .tooDeep)
      | some value => do
          let member (key : String) (known : List (String × Json)) (c : Cursor) := do
            let (v, c) ← value (← colon c)
            return ((key, v) :: known, c)
          let (known, c) ← closing closeObject (members member c.rest.length true [] (c.skip 1))
          return (.object (sortMembers known.reverse), c)
  | ch :: _ =>
      if ch.isDigit then do
        let (n, c) ← numberFrom false c
        return (.number n, c)
      else .error (c.faultAhead .valueExpected)

/-- A value of any form, nested at most so deep. -/
def value : Nat → Reader Json
  | 0 => valueWith none
  | depth + 1 => valueWith (some (value depth))

/-- A whole text: one value and nothing after it but blanks. -/
def whole {α : Type} (reader : Reader α) (text : String) : Except ReadError α :=
  match reader (Cursor.ofText text) with
  | .error fault => .error fault.error
  | .ok (a, c) =>
      let c := c.skipBlank
      if c.rest.isEmpty then .ok a else .error (c.faultAhead .trailingCharacters).error

def ofText (text : String) : Except ReadError Json := whole (value depthLimit) text

end Outbox.Json
