/-! # Message types

The tag under which a message is stored decides which consumers get it. Tags of domain events are
the event's name behind a fixed mark, whatever wrapped the event.
-/

namespace Outbox

structure MessageType where
  tag : String
  deriving DecidableEq

namespace MessageType

def eventMark : String := "Event:"

/-- The tag of a domain event. -/
def event (name : String) : MessageType := ⟨eventMark ++ name⟩

/-- The event's name, if the tag is one of a domain event. -/
def eventName? (t : MessageType) : Option String :=
  (eventMark.toList.isPrefixOf? t.tag.toList).map String.ofList

def isEvent (t : MessageType) : Bool := t.eventName?.isSome

/-- Tags are ordered by their characters, which is the order of their UTF-8 bytes. -/
def le (a b : MessageType) : Bool := a.tag ≤ b.tag

end MessageType

end Outbox
