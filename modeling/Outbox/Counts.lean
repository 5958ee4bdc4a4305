import Outbox.Message

/-! # Message counts -/

namespace Outbox

/-- How many messages are in each state. -/
structure Counts where
  pending : Nat
  failing : Nat
  processed : Nat
  deriving DecidableEq, Repr

namespace Counts

def zero : Counts := ⟨0, 0, 0⟩

/-- One message more in a state. -/
def add (c : Counts) : MessageState → Counts
  | .pending => { c with pending := c.pending + 1 }
  | .failing => { c with failing := c.failing + 1 }
  | .processed => { c with processed := c.processed + 1 }

/-- Counts of a list of messages. -/
def ofMessages (messages : List Message) : Counts :=
  messages.foldl (fun c m => c.add m.state) zero

/-- The messages that are not processed, unless their number exceeds 64 bits. -/
def unprocessed? (c : Counts) : Option Nat :=
  if c.pending + c.failing < 0x10000000000000000 then some (c.pending + c.failing) else none

end Counts

end Outbox
