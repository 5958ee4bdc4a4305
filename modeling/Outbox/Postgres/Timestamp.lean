import Outbox.Time.Instant

/-! # Times as PostgreSQL keeps them

PostgreSQL counts whole microseconds from the beginning of 2000. What is finer is cut off, toward
that point in time: times before it are rounded up, times after it down.
-/

namespace Outbox.Postgres

/-- 2000-01-01T00:00:00Z, in nanoseconds since 1970 began. -/
def originNanos : Int := 946684800000000000

/-- A distance cut to whole microseconds, toward zero. -/
def wholeMicros (nanos : Int) : Int :=
  if 0 ≤ nanos then nanos / 1000 * 1000 else -(-nanos / 1000 * 1000)

/-- Cutting leads nowhere but toward zero, by less than a microsecond. -/
theorem wholeMicros_bounds (nanos : Int) :
    (0 ≤ nanos → nanos - 1000 < wholeMicros nanos ∧ wholeMicros nanos ≤ nanos) ∧
      (nanos < 0 → nanos ≤ wholeMicros nanos ∧ wholeMicros nanos < nanos + 1000) := by
  unfold wholeMicros
  split
  · omega
  · omega

/-- The instant that is kept for an instant. Leap seconds are not kept apart from the seconds that
follow them; where none follows in range, the last second stays. -/
def kept (i : Instant) : Instant :=
  (Instant.ofNanos? (originNanos + wholeMicros (i.nanos - originNanos))).getD i

end Outbox.Postgres
