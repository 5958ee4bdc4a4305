import Outbox.Codec

/-! # Consumers

A consumer has a name, takes content in one of two ways, and handles what it took. A raw consumer
gets the content as it is stored; a typed one gets the decoded payload, and is not bothered with
content that cannot be decoded. What handling amounts to is left open: a consumer may answer at
once, or with a script to be run.
-/

namespace Outbox

/-- How a consumer takes content. -/
inductive Intake
  | raw
  | typed (s : Json.Schema)

namespace Intake

/-- What the consumer gets to see. -/
def Seen : Intake → Type
  | raw => String
  | typed s => s.Val

/-- The content as the consumer takes it. -/
def take (tag : MessageType) (content : String) : (i : Intake) → Except Failure i.Seen
  | raw => .ok content
  | typed s => Codec.decode tag s content

/-- What is seen, as JSON. -/
def toJson : (i : Intake) → i.Seen → Json
  | raw, content => Json.text content
  | typed s, v => s.toJson v

end Intake

structure Consumer (R : Type) where
  name : String
  intake : Intake
  handle : intake.Seen → R

namespace Consumer

/-- Hands content to the consumer. -/
def consume {R : Type} (k : Consumer R) (tag : MessageType) (content : String) : Except Failure R :=
  (k.intake.take tag content).map k.handle

end Consumer

/-- What a call of a consumer came to. -/
inductive CallOutcome
  | succeeded
  | failed (failure : Failure)
  /-- The call broke off, with a text to show for it or with something else. -/
  | panicked (payload : Option String)
  /-- The call was ended from outside, as the report says. -/
  | ended (report : String)

namespace CallOutcome

/-- An outcome that a handler reports of itself. -/
def ofReport (tag : MessageType) : Except ConsumerError Unit → CallOutcome
  | .ok () => succeeded
  | .error e => failed (.dispatch tag e.reason)

/-- What is reported of a call that did not succeed. -/
def complaint? : CallOutcome → Option String
  | succeeded => none
  | failed failure => some failure.reason
  | panicked payload => some ("consumer panicked: " ++ payload.getD "non-string payload")
  | ended report => some ("consumer task ended: " ++ report)

end CallOutcome

/-- A consumer that answers at once, for the tag it is called under. -/
abbrev PromptConsumer := Consumer (MessageType → CallOutcome)

/-- Calls the consumer. Content that it cannot take fails the call. -/
def PromptConsumer.call (k : PromptConsumer) (tag : MessageType) (content : String) : CallOutcome :=
  match k.consume tag content with
  | .ok outcome => outcome tag
  | .error failure => .failed failure

end Outbox
