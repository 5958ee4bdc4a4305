import Outbox.Json.Cursor
import Outbox.MessageType
import Outbox.Postgres.Error
import Outbox.Ulid.Basic

/-! # Failures

What can go wrong when messages are stored, encoded or delivered. Operations answer with one of
these causes; the wording is fixed here.
-/

namespace Outbox

inductive Failure
  | database (cause : Postgres.ClientError)
  | migration (cause : Postgres.MigrationError)
  /-- A payload could not be written, or content could not be read. -/
  | codec (tag : MessageType) (cause : Json.ReadError)
  /-- Consumers of the tag failed. -/
  | dispatch (tag : MessageType) (reason : String)
  | notFound (id : MessageId)
  /-- The message is claimed by another cycle, or by none. -/
  | claimLost (id : MessageId)
  | duplicateId (id : MessageId)
  | corruptRow (defect : String)
  | unavailable (reason : String)

namespace Failure

/-- The complaint, then what it comes from. -/
def chain : Failure → List String
  | database cause => ("database error: " ++ cause.message) :: cause.chain
  | migration cause => ("migration error: " ++ cause.message) :: cause.chain
  | codec tag cause =>
      ["payload codec error for message_type=" ++ tag.tag ++ ": " ++ cause.message, cause.message]
  | dispatch tag reason => ["dispatch failed for message_type=" ++ tag.tag ++ ": " ++ reason]
  | notFound id => ["message not found: " ++ id.toText]
  | claimLost id => ["claim on message " ++ id.toText ++ " is held by another processor"]
  | duplicateId id => ["duplicate message id: " ++ id.toText]
  | corruptRow defect => ["corrupt outbox row: " ++ defect]
  | unavailable reason => ["store unavailable: " ++ reason]

def message (f : Failure) : String := f.chain.headD ""

/-- The reason to give where the tag is known already. -/
def reason : Failure → String
  | dispatch _ reason => reason
  | other => other.message

end Failure

/-- A consumer's own complaint. -/
structure ConsumerError where
  reason : String
  deriving DecidableEq, Repr

def ConsumerError.ofFailure (f : Failure) : ConsumerError := ⟨f.message⟩

end Outbox
