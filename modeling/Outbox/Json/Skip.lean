import Outbox.Json.Scalar

/-! # Passing over a JSON value

A value nobody asked for is only checked for its form, and may be nested to any depth. What is open
is kept on a stack; each step takes one token. The checks are a little laxer than those of reading:
escapes by code need not make sense, and a number only has to look like one.
-/

namespace Outbox.Json.Skip

inductive Frame
  | list
  | object
  deriving DecidableEq

def Frame.closer : Frame → Char
  | list => ']'
  | object => '\x7d'

def Frame.endCause : Frame → Cause
  | list => .endInList
  | object => .endInObject

def Frame.commaCause : Frame → Cause
  | list => .listCommaExpected
  | object => .objectCommaExpected

/-- The rest of a string, of which at most `fuel` characters are passed. -/
def stringBody : Nat → Cursor → Except Fault Cursor
  | 0, c => .error (c.faultHere .endInString)
  | fuel + 1, c =>
      match c.rest with
      | [] => .error (c.faultHere .endInString)
      | '"' :: _ => .ok (c.skip 1)
      | '\\' :: 'u' :: _ => do
          let (_, c) ← hexUnit (c.skip 2)
          stringBody fuel c
      | '\\' :: _ => do
          let (_, c) ← escaped (c.skip 1)
          stringBody fuel c
      | ch :: _ =>
          if ch.toNat < 32 then .error (c.faultHere .controlCharacter)
          else stringBody fuel (c.skip 1)

def string (c : Cursor) : Except Fault Cursor := stringBody c.rest.length c

/-- The exponent of a number, from its mark on. -/
def exponentPart (c : Cursor) : Except Fault Cursor :=
  let c := c.skip 1
  let c := match c.rest with
    | '+' :: _ | '-' :: _ => c.skip 1
    | _ => c
  let (digits, after) := c.span Char.isDigit
  if digits.isEmpty then .error (c.faultAhead .invalidNumber) else .ok after

/-- A number from its first digit on. -/
def number (c : Cursor) : Except Fault Cursor :=
  let (whole, after) := c.span Char.isDigit
  match whole with
  | [] => .error (c.faultAhead .invalidNumber)
  | '0' :: _ :: _ => .error ((c.skip 1).faultAhead .invalidNumber)
  | _ =>
      match after.rest with
      | '.' :: _ =>
          let (digits, after) := (after.skip 1).span Char.isDigit
          if digits.isEmpty then .error (after.faultAhead .invalidNumber)
          else match after.rest with
            | 'e' :: _ | 'E' :: _ => exponentPart after
            | _ => .ok after
      | 'e' :: _ | 'E' :: _ => exponentPart after
      | _ => .ok after

/-- What the next token is taken for. -/
inductive State
  /-- The start of a value. -/
  | value
  /-- The first thing in a list or object, or its end. -/
  | opened
  /-- The key of a member. -/
  | key
  /-- What follows a value. -/
  | ended

/-- A key, its colon included. -/
def key (c : Cursor) : Except Fault Cursor := do
  let c := c.skipBlank
  let c ← match c.rest with
    | '"' :: _ => string (c.skip 1)
    | [] => throw (c.faultAhead .endInObject)
    | _ => throw (c.faultAhead .keyNotText)
  let c := c.skipBlank
  match c.rest with
  | ':' :: _ => return c.skip 1
  | [] => throw (c.faultAhead .endInObject)
  | _ => throw (c.faultAhead .colonExpected)

/-- Passes tokens until nothing is open. Each takes a character, except that a list or object just
opened is looked into once more. -/
def run : Nat → List Frame → State → Cursor → Except Fault Cursor
  | 0, _, _, c => .error (c.faultAhead .endInValue)
  | fuel + 1, open_, .value, c =>
      let c := c.skipBlank
      match c.rest with
      | [] => .error (c.faultAhead .endInValue)
      | 'n' :: _ => do run fuel open_ .ended (← ident ['u', 'l', 'l'] (c.skip 1))
      | 't' :: _ => do run fuel open_ .ended (← ident ['r', 'u', 'e'] (c.skip 1))
      | 'f' :: _ => do run fuel open_ .ended (← ident ['a', 'l', 's', 'e'] (c.skip 1))
      | '-' :: _ => do run fuel open_ .ended (← number (c.skip 1))
      | '"' :: _ => do run fuel open_ .ended (← string (c.skip 1))
      | '[' :: _ => run fuel (.list :: open_) .opened (c.skip 1)
      | '\x7b' :: _ => run fuel (.object :: open_) .opened (c.skip 1)
      | ch :: _ =>
          if ch.isDigit then do run fuel open_ .ended (← number c)
          else .error (c.faultAhead .valueExpected)
  | fuel + 1, open_, .key, c => do run fuel open_ .value (← key c)
  | _ + 1, [], .opened, c | _ + 1, [], .ended, c => .ok c
  | fuel + 1, frame :: open_, .opened, c =>
      let c := c.skipBlank
      match c.rest with
      | [] => .error (c.faultAhead frame.endCause)
      | ch :: _ =>
          if ch = frame.closer then run fuel open_ .ended (c.skip 1)
          else run fuel (frame :: open_) (if frame = .object then .key else .value) c
  | fuel + 1, frame :: open_, .ended, c =>
      let c := c.skipBlank
      match c.rest with
      | [] => .error (c.faultAhead frame.endCause)
      | ch :: _ =>
          if ch = frame.closer then run fuel open_ .ended (c.skip 1)
          else if ch = ',' then
            run fuel (frame :: open_) (if frame = .object then .key else .value) (c.skip 1)
          else .error (c.faultAhead frame.commaCause)

/-- Passes over one value. -/
def value (c : Cursor) : Except Fault Cursor := run (2 * c.rest.length + 2) [] .value c

end Outbox.Json.Skip
