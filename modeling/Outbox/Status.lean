import Outbox.Records
import Outbox.Routine

/-! # Taking the status -/

namespace Outbox

/-- A failing message as operators see it. -/
def StuckMessage.ofMessage {κ : Type} (registry : Registry κ) (m : Message) : StuckMessage where
  id := m.id
  tag := m.tag
  retryCount := m.retryCount
  error := m.error
  hasConsumer := registry.isRegistered m.tag

/-- Counts the messages, then lists those that failed most often. -/
def Status.collect {κ : Type} (registry : Registry κ) (minRetryCount : UInt32) (limit : Nat) :
    Routine (Except Failure Status) := do
  match ← Routine.store .counts with
  | .error failure => return .error failure
  | .ok counts =>
      match ← Routine.store (.failing minRetryCount limit) with
      | .error failure => return .error failure
      | .ok failing =>
          return .ok ⟨counts, registry.registeredTypes, failing.map (.ofMessage registry)⟩

end Outbox
