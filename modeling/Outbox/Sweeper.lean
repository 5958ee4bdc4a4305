import Outbox.Processor

/-! # The sweeper

Deletes messages that were processed longer ago than the retention time. Where that point in time is
out of range, the current time takes its place.
-/

namespace Outbox

structure Sweeper where
  /-- How long processed messages are kept, in nanoseconds. -/
  retention : Int
  interval : Duration

namespace Sweeper

def ofConfig (c : Config) : Sweeper := ⟨c.retention.nanos, c.sweepInterval⟩

/-- Messages processed before this time are deleted. -/
def cutoff (s : Sweeper) (now : Instant) : Instant := (now.shift? (-s.retention)).getD now

/-- One sweep, answered with the number of messages deleted. -/
def sweep (s : Sweeper) : Routine (Except Failure Nat) := do
  let now ← Routine.now
  Routine.store (.deleteProcessed (s.cutoff now))

/-- One round of the sweeper's loop. Failures do not end it. -/
def round (s : Sweeper) : Routine Next := do
  if ← Routine.stopRequested then return .stop
  else
    let _ ← s.sweep
    return .pause s.interval

end Sweeper

end Outbox
