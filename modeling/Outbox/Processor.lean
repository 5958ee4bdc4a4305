import Outbox.Config
import Outbox.Routine

/-! # The processor

A cycle claims a batch of due messages and attempts them one by one. Before each attempt the claim
is renewed on everything still held; a message that somebody else took over meanwhile is passed
over. After the attempt its outcome is recorded. When a stop is requested, what has not been
attempted is given back, and likewise when the store fails.
-/

namespace Outbox

/-- What became of the messages of one cycle. -/
structure BatchReport where
  fetched : Nat := 0
  /-- Delivered to all consumers, of which there was at least one. -/
  processed : Nat := 0
  /-- Processed without a consumer. -/
  unhandled : Nat := 0
  failed : Nat := 0
  /-- Given back unattempted because a stop was requested. -/
  released : Nat := 0
  /-- Taken over by another cycle before the outcome was recorded. -/
  lost : Nat := 0
  deriving DecidableEq, Repr

/-- How an attempt ended. -/
inductive Attempt
  | delivered
  | unhandled
  | failed
  | lost
  deriving DecidableEq, Repr

def DispatchOutcome.attempt : DispatchOutcome → Attempt
  | delivered _ => .delivered
  | unhandled => .unhandled

namespace BatchReport

def add (r : BatchReport) : Attempt → BatchReport
  | .delivered => { r with processed := r.processed + 1 }
  | .unhandled => { r with unhandled := r.unhandled + 1 }
  | .failed => { r with failed := r.failed + 1 }
  | .lost => { r with lost := r.lost + 1 }

/-- The batch was full and all of it was processed, so there may be more. -/
def isFullAndClean (r : BatchReport) (batchSize : Nat) : Bool :=
  batchSize ≤ r.fetched && r.failed == 0 && r.released == 0 && r.lost == 0

end BatchReport

structure Processor where
  retryPolicy : RetryPolicy
  batchSize : Nat
  pollInterval : Duration
  lease : Duration

/-- What a loop does after one round. -/
inductive Next
  | again
  | pause (length : Duration)
  | stop
  deriving DecidableEq, Repr

namespace Processor

/-- A processor takes at least one message at a time. -/
def ofConfig (c : Config) : Processor where
  retryPolicy := c.retryPolicy
  batchSize := max c.batchSize 1
  pollInterval := c.pollInterval
  lease := c.lease

/-- Records what a dispatch came to. -/
def record (p : Processor) (claim : ClaimToken) (message : Message) :
    Except Failure DispatchOutcome → Routine (Except Failure Attempt)
  | .ok outcome => do
      let now ← Routine.now
      let recorded ← Routine.store (.markProcessed claim message.id now)
      return recorded.map fun _ => outcome.attempt
  | .error failure => do
      let now ← Routine.now
      let nextRun := p.retryPolicy.nextRunAt (incrementCapped message.retryCount) now
      let recorded ← Routine.store (.markFailed claim message.id failure.message nextRun)
      return recorded.map fun _ => Attempt.failed

/-- An outcome that could not be recorded because the claim is gone is left to the new holder. -/
def settle : Except Failure Attempt → Except Failure Attempt
  | .error (.claimLost _) => .ok .lost
  | recorded => recorded

/-- Dispatches a message and records the outcome. Only failures of the store come back. -/
def attempt (p : Processor) (claim : ClaimToken) (message : Message) (held : List MessageId) :
    Routine (Except Failure Attempt) := do
  let outcome ← Routine.dispatch message ⟨claim, held, p.lease⟩
  let recorded ← p.record claim message outcome
  return settle recorded

/-- Gives up the claim on messages. Should that fail, their lease will run out. -/
def giveBack (claim : ClaimToken) (held : List MessageId) : Routine Unit := do
  let _ ← Routine.store (.release claim held)
  return ()

/-- Attempts the messages that are left of a batch. `held` are those still claimed. -/
def work (p : Processor) (claim : ClaimToken) :
    List Message → List MessageId → BatchReport → Routine (Except Failure BatchReport)
  | [], _, report => return .ok report
  | message :: rest, held, report => do
      if ← Routine.stopRequested then
        let released ← Routine.store (.release claim held)
        return released.map fun _ => { report with released := held.length }
      else
        let now ← Routine.now
        match ← Routine.store (.renew claim held now p.lease) with
        | .error failure =>
            giveBack claim held
            return .error failure
        | .ok renewed =>
            let held := held.filter renewed.contains
            if held.contains message.id then
              let others := held.filter (· != message.id)
              match ← p.attempt claim message held with
              | .error failure =>
                  giveBack claim others
                  return .error failure
              | .ok attempt => p.work claim rest others (report.add attempt)
            else p.work claim rest held (report.add .lost)

/-- One batch, under a claim of its own. -/
def cycle (p : Processor) (claim : ClaimToken) : Routine (Except Failure BatchReport) := do
  let now ← Routine.now
  match ← Routine.store (.fetch claim p.batchSize now p.lease) with
  | .error failure => return .error failure
  | .ok batch => p.work claim batch (batch.map Message.id) { fetched := batch.length }

/-- One round of the processor's loop. After a full and clean batch the next one follows at once.
Failures do not end the loop. -/
def round (p : Processor) (claim : ClaimToken) : Routine Next := do
  if ← Routine.stopRequested then return .stop
  else
    match ← p.cycle claim with
    | .ok report =>
        return if report.isFullAndClean p.batchSize then .again else .pause p.pollInterval
    | .error _ => return .pause p.pollInterval

end Processor

end Outbox
