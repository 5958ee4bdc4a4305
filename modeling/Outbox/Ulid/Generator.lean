import Outbox.Time.Instant
import Outbox.Ulid.Basic

/-! # Minting ids in increasing order

The generator remembers the last id it made. While the clock shows no later millisecond than that
id, the next one is its successor, so ids keep growing when the clock stands still or goes back.
-/

namespace Outbox.Ulid

/-- The next number, within the same millisecond. -/
def successor? (u : Ulid) : Option Ulid :=
  if h : u.random < 0xFFFFFFFFFFFFFFFFFFFF then
    some ⟨u.value + 1, by have := u.isLt; unfold random at h; omega⟩
  else none

structure Generator where
  previous : Ulid

namespace Generator

def start : Generator := ⟨ofParts 0 0⟩

/-- The id for a clock reading. `fresh` are the random bits of a new millisecond. Where the random
bits of the current one are used up, the answer has the clock's own milliseconds with new random
bits, and the generator stays where it was. -/
def next (g : Generator) (now : Instant) (fresh : Nat) : Ulid × Generator :=
  let millis := now.millis.toNat
  if millis ≤ g.previous.millis then
    match g.previous.successor? with
    | some id => (id, ⟨id⟩)
    | none => (ofParts millis fresh, g)
  else
    let id := ofParts millis fresh
    (id, ⟨id⟩)

end Generator

end Outbox.Ulid
