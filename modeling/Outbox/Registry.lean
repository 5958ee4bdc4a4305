import Outbox.MessageType

/-! # Who consumes what

Consumers are registered under a tag and called in the order of their registration. Under one tag no
two consumers have the same name; a second one is refused and changes nothing.
-/

namespace Outbox

/-- Things with a name. -/
class Named (κ : Type) where
  name : κ → String

/-- A consumer of that name is registered for the tag already. -/
structure RegistryError where
  tag : MessageType
  consumer : String
  deriving DecidableEq

def RegistryError.message (e : RegistryError) : String :=
  "consumer '" ++ e.consumer ++ "' is already registered for message_type '" ++ e.tag.tag ++ "'"

/-- Consumers with their tags, in the order of registration. -/
structure Registry (κ : Type) where
  entries : List (MessageType × κ)

namespace Registry

variable {κ : Type}

def empty : Registry κ := ⟨[]⟩

/-- The consumers of a tag, in the order of registration. -/
def consumersFor (r : Registry κ) (tag : MessageType) : List κ :=
  (r.entries.filter (·.1 == tag)).map (·.2)

def isRegistered (r : Registry κ) (tag : MessageType) : Bool := !(r.consumersFor tag).isEmpty

/-- Adds a consumer behind the others of its tag. -/
def register [Named κ] (r : Registry κ) (tag : MessageType) (k : κ) :
    Except RegistryError (Registry κ) :=
  if (r.consumersFor tag).any fun other => Named.name other == Named.name k then
    .error ⟨tag, Named.name k⟩
  else .ok ⟨r.entries ++ [(tag, k)]⟩

/-- A list in ascending order without repetitions. -/
def insertType (tag : MessageType) : List MessageType → List MessageType
  | [] => [tag]
  | first :: rest =>
      if tag.tag < first.tag then tag :: first :: rest
      else if tag = first then first :: rest
      else first :: insertType tag rest

/-- The tags that have a consumer, in ascending order. -/
def registeredTypes (r : Registry κ) : List MessageType :=
  r.entries.foldr (fun entry types => insertType entry.1 types) []

def size (r : Registry κ) : Nat := r.entries.length

/-- Those of the tags that have no consumer, in the order given. -/
def missing (r : Registry κ) (expected : List MessageType) : List MessageType :=
  expected.filter fun tag => !r.isRegistered tag

end Registry

end Outbox
