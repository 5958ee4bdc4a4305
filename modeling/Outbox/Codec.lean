import Outbox.Failure
import Outbox.Json.Schema

/-! # Payloads as content

The content of a message is its payload as compact JSON. Stores do not look into it; only the codec
and the consumers do.
-/

namespace Outbox

/-- What a producer hands over to be encoded. -/
inductive Payload
  | json (value : Json)
  /-- A map with keys of any form. Only strings and integers can be written as keys. -/
  | keyed (entries : List (Json × Json))

namespace Payload

/-- A value of a schema. -/
def typed (s : Json.Schema) (v : s.Val) : Payload := json (s.toJson v)

/-- A map from integers, in their order, the last of several entries with one key kept. -/
def integerMap (entries : List (Int × Json)) : Payload :=
  keyed ((entries.foldl insert []).map fun (key, value) => (Json.integer key, value))
where
  insert (sorted : List (Int × Json)) (entry : Int × Json) : List (Int × Json) :=
    match sorted with
    | [] => [entry]
    | first :: rest =>
        if entry.1 < first.1 then entry :: first :: rest
        else if entry.1 = first.1 then entry :: rest
        else first :: insert rest entry

/-- The text of a key, if it can be one. -/
def keyText? : Json → Option String
  | .text key => some key
  | .number (.integer n) => some (toString n)
  | _ => none

def toJson? : Payload → Option Json
  | json value => some value
  | keyed entries =>
      let members := entries.mapM fun (entry : Json × Json) =>
        (keyText? entry.1).map fun key => (key, entry.2)
      members.map Json.object

end Payload

namespace Codec

/-- The content for a payload. -/
def encode (tag : MessageType) (payload : Payload) : Except Failure String :=
  match payload.toJson? with
  | some value => .ok value.toText
  | none => .error (.codec tag ⟨.keyNotText, none⟩)

/-- Reads content as a value of a schema. -/
def decode (tag : MessageType) (s : Json.Schema) (content : String) : Except Failure s.Val :=
  (s.ofText content).mapError (Failure.codec tag)

/-- Reads content for a consumer of its own, who reports all of a complaint as its own. -/
def decodeRaw (tag : MessageType) (s : Json.Schema) (content : String) :
    Except ConsumerError s.Val :=
  (decode tag s content).mapError ConsumerError.ofFailure

end Codec

end Outbox
