import Outbox.Consumer
import Outbox.Registry

/-! # Dispatch

A message goes to every consumer of its tag, in the order of registration, whatever the earlier ones
did. It counts as delivered if all of them succeeded; otherwise the reasons of those that failed are
put together. A tag without consumers is no failure.
-/

universe u

namespace Outbox

instance {R : Type} : Named (Consumer R) := ⟨Consumer.name⟩

inductive DispatchOutcome
  /-- All consumers of the tag succeeded. -/
  | delivered (consumers : Nat)
  /-- The tag has no consumer. -/
  | unhandled
  deriving DecidableEq, Repr

namespace Dispatch

/-- The reasons of the calls that failed, each behind the consumer's name. -/
def complaints (calls : List (String × CallOutcome)) : List String :=
  calls.filterMap fun (name, outcome) => outcome.complaint?.map fun reason => name ++ ": " ++ reason

/-- What the calls of all consumers of a tag amount to. -/
def verdict (tag : MessageType) (calls : List (String × CallOutcome)) :
    Except Failure DispatchOutcome :=
  if calls.isEmpty then .ok .unhandled
  else if (complaints calls).isEmpty then .ok (.delivered calls.length)
  else .error (.dispatch tag (String.intercalate "; " (complaints calls)))

end Dispatch

/-- Calls every consumer of the tag, one after the other. -/
def Registry.dispatch {κ : Type} {m : Type → Type u} [Monad m] [Named κ]
    (r : Registry κ) (call : κ → MessageType → String → m CallOutcome)
    (tag : MessageType) (content : String) : m (Except Failure DispatchOutcome) := do
  let calls ← (r.consumersFor tag).mapM fun k => do
    return (Named.name k, ← call k tag content)
  return Dispatch.verdict tag calls

end Outbox
