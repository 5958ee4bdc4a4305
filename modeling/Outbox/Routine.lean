import Outbox.Dispatch
import Outbox.Store

/-! # Routines

What a processor or a sweeper does is a tree of requests: each asks its surroundings for one thing
and goes on with the answer. A routine says nothing about who answers. The same routine can be run
against a table, against a database or in a simulation, and between two of its requests anything may
happen.
-/

universe u

namespace Outbox

/-- The claim to be kept up while a message is being dispatched. -/
structure Heartbeat where
  claim : ClaimToken
  /-- The messages of the batch that are still held, the one being dispatched included. -/
  held : List MessageId
  lease : Duration
  deriving DecidableEq

namespace Heartbeat

/-- The time between two renewals: a third of the lease, but at least ten milliseconds. -/
def period (h : Heartbeat) : Duration := max ⟨h.lease.nanos / 3⟩ (.ofMillis 10)

/-- The renewal at a beat. Its answer is not waited upon. -/
def renewal (h : Heartbeat) (now : Instant) : StoreCall := .renew h.claim h.held now h.lease

end Heartbeat

inductive Request
  /-- What time is it? -/
  | now
  /-- Make a call of the store. -/
  | store (call : StoreCall)
  /-- Has somebody asked to stop? -/
  | stopRequested
  /-- Have a message dispatched, and the claim renewed as long as that takes. -/
  | dispatch (message : Message) (heartbeat : Heartbeat)
  deriving DecidableEq

@[reducible] def Request.Answer : Request → Type
  | now => Instant
  | store call => Except Failure call.Reply
  | stopRequested => Bool
  | dispatch .. => Except Failure DispatchOutcome

inductive Routine (α : Type)
  | done (a : α)
  | ask (q : Request) (resume : q.Answer → Routine α)

namespace Routine

variable {α β : Type}

def bind : Routine α → (α → Routine β) → Routine β
  | done a, next => next a
  | ask q resume, next => ask q fun answer => (resume answer).bind next

instance : Monad Routine where
  pure := done
  bind := bind

@[simp] theorem pure_eq (a : α) : (pure a : Routine α) = done a := rfl

@[simp] theorem done_bind (a : α) (next : α → Routine β) : done a >>= next = next a := rfl

@[simp] theorem ask_bind (q : Request) (resume : q.Answer → Routine α) (next : α → Routine β) :
    ask q resume >>= next = ask q fun answer => resume answer >>= next := rfl

def now : Routine Instant := ask .now done

def store (call : StoreCall) : Routine (Except Failure call.Reply) := ask (.store call) done

def stopRequested : Routine Bool := ask .stopRequested done

def dispatch (message : Message) (heartbeat : Heartbeat) :
    Routine (Except Failure DispatchOutcome) := ask (.dispatch message heartbeat) done

/-- Runs a routine to its end. -/
def run {m : Type → Type u} [Monad m] (answer : (q : Request) → m q.Answer) : Routine α → m α
  | done a => pure a
  | ask q resume => do run answer (resume (← answer q))

/-- What is asked for first is answered first. -/
theorem run_ask {σ : Type} (answer : (q : Request) → StateM σ q.Answer) (q : Request)
    (resume : q.Answer → Routine α) (s : σ) :
    (ask q resume).run answer s = (resume (answer q s).1).run answer (answer q s).2 := rfl

end Routine

end Outbox
