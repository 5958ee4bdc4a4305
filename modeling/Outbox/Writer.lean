import Outbox.Handover

/-! # Writing messages

A message is written through a transaction that its producer has open. The payload is encoded before
an id is drawn, so one that cannot be encoded uses up no id; a message that cannot be inserted does.
-/

universe u

namespace Outbox.Writer

variable {m : Type → Type u} [Monad m] (draw : m MessageId) (clock : m Instant)
  (insert : Message → m (Except Failure Unit))

/-- Encodes a payload and inserts the message, created now, under a new id. -/
def enqueue (tag : MessageType) (payload : Payload) (scheduledAt : Option Instant) :
    m (Except Failure MessageId) := do
  match Codec.encode tag payload with
  | .error failure => return .error failure
  | .ok content =>
      let id ← draw
      let now ← clock
      let inserted ← insert (.create id tag content now scheduledAt)
      return inserted.map fun _ => id

def enqueueMessage (kind : MessageKind) (v : kind.schema.Val) (scheduledAt : Option Instant) :
    m (Except Failure MessageId) :=
  enqueue draw clock insert kind.tag (.typed kind.schema v) scheduledAt

/-- Enqueues a domain event under the tag of its name. -/
def enqueueEvent (e : EventKind) (v : e.schema.Val) (scheduledAt : Option Instant) :
    m (Except Failure MessageId) :=
  enqueue draw clock insert e.tag (.typed e.schema v) scheduledAt

/-- Enqueues what a producer hands over. -/
def handOver : Handover → Option Instant → m (Except Failure MessageId)
  | .raw tag s v, scheduledAt => enqueue draw clock insert tag (.typed s v) scheduledAt
  | .message kind v, scheduledAt => enqueueMessage draw clock insert kind v scheduledAt
  | .event e v, scheduledAt => enqueueEvent draw clock insert e v scheduledAt
  | .notification (e := e) n, scheduledAt =>
      enqueueMessage draw clock insert e.notifications n.payload scheduledAt

end Outbox.Writer
