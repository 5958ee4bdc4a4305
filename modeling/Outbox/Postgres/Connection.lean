import Outbox.Postgres.Statement

/-! # Connections and transactions

A connection is whatever takes statements to a database and brings back their answers. Statements of
one transaction go over one connection. If a transaction cannot be begun or ended, or is given up,
the connection is rolled back before it is used for anything else, whatever comes of that.
-/

universe u

namespace Outbox.Postgres

abbrev Connection (m : Type → Type u) := (s : Statement) → m (Except ClientError s.Answer)

namespace Connection

variable {m : Type → Type u} [Monad m]

/-- Leaves a transaction behind without an outcome. -/
def abandon (send : Connection m) : m Unit := do
  let _ ← send .rollback
  return ()

/-- Sends a statement, and gives the transaction up if it fails. -/
def sendOrAbandon (send : Connection m) (s : Statement) : m (Except ClientError s.Answer) := do
  let answer ← send s
  if answer matches .error _ then abandon send
  return answer

def begin (send : Connection m) : m (Except ClientError Unit) := sendOrAbandon send .begin

def commit (send : Connection m) : m (Except ClientError Unit) := sendOrAbandon send .commit

def rollback (send : Connection m) : m (Except ClientError Unit) := sendOrAbandon send .rollback

/-- Inserts a message in a transaction. -/
def insert (send : Connection m) (message : Message) : m (Except Failure Unit) := do
  let inserted ← send (.insert (.ofMessage message))
  return inserted.mapError .database

end Connection

end Outbox.Postgres
