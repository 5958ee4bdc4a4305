import Outbox.Decimal.Binary64
import Outbox.Time.Instant

/-! # When a failed message is tried again

Either in the next cycle, or after a delay that grows by a factor with each failure up to a limit.
Delays are computed in doubles, as seconds, and rounded to the nanosecond.
-/

namespace Outbox

structure RetryPolicy where
  baseDelay : Duration
  multiplier : Float
  maxDelay : Duration
  deriving BEq

/-- The duration in seconds as a double. -/
def Duration.toSeconds (d : Duration) : Float :=
  d.seconds.toUInt64.toFloat + d.subsecNanos.toUInt64.toFloat / 1000000000.0

/-- The nearest whole number of nanoseconds, a half going to the even one. Negative numbers and
those that are not finite give none. -/
def Duration.ofFloatSeconds (x : Float) : Duration :=
  match Decimal.magnitude x with
  | .finite mantissa exponent =>
      if Decimal.isNegative x then zero else ⟨Decimal.roundScaled mantissa exponent 1000000000⟩
  | _ => zero

namespace RetryPolicy

/-- No waiting. -/
def immediate : RetryPolicy := ⟨.zero, 1.0, .zero⟩

/-- Waiting that grows. -/
def exponential (baseDelay : Duration) (multiplier : Float) (maxDelay : Duration) : RetryPolicy :=
  ⟨baseDelay, multiplier, maxDelay⟩

def isImmediate (p : RetryPolicy) : Bool := p.baseDelay.isZero

/-- `product * base ^ exponent` by repeated squaring, in the arithmetic of doubles. -/
def powerFrom (product base : Float) (exponent : Nat) : Float :=
  let product := if exponent % 2 = 1 then product * base else product
  if exponent / 2 = 0 then product else powerFrom product (base * base) (exponent / 2)
termination_by exponent
decreasing_by omega

def power (base : Float) (exponent : Nat) : Float := powerFrom 1.0 base exponent

/-- The delay after so many failures. -/
def nextDelay (p : RetryPolicy) (retryCount : UInt32) : Duration :=
  if p.isImmediate then .zero
  else
    let exponent := min (retryCount.toNat - 1) 0x7FFFFFFF
    let delay := p.baseDelay.toSeconds * power p.multiplier exponent
    if !delay.isFinite || p.maxDelay.toSeconds ≤ delay then p.maxDelay
    else .ofFloatSeconds delay

/-- When the message is due again. None means at once, and stands also for a time out of range. -/
def nextRunAt (p : RetryPolicy) (retryCount : UInt32) (now : Instant) : Option Instant :=
  if p.isImmediate then none else now.plus? (p.nextDelay retryCount)

end RetryPolicy

end Outbox
