import Outbox.Postgres.SchemaUpdate
import Outbox.Postgres.Store

/-! # A database that answers from a script

The script says for each kind of statement what the next statements of that kind are answered with.
The last answer of a kind serves all further statements of it. Nothing that is sent is carried out,
only written down, except that migrations are remembered.
-/

namespace Outbox.Simulation

open Postgres (ClientError History Statement)

/-- The answers to come, for each kind of statement. An error is given by its text. -/
abbrev Script := (k : Statement.Kind) → List (Except String k.Answer)

namespace Script

def empty : Script := fun _ => []

/-- The words for the kinds of statements that a script can say something of. -/
def kinds : List (String × Statement.Kind) :=
  [("fetch", .fetch), ("renew", .renew), ("mark_processed", .markProcessed),
    ("mark_failed", .markFailed), ("release", .release), ("delete", .deleteProcessed),
    ("get", .get), ("state", .isProcessed), ("failing", .failing), ("counts", .counts),
    ("insert", .insert), ("BEGIN", .begin), ("COMMIT", .commit), ("ROLLBACK", .rollback),
    ("other", .apply)]

def kind? (word : String) : Option Statement.Kind := kinds.lookup word

/-- Replaces the answers for a kind of statement. -/
def put (script : Script) (k : Statement.Kind) (answers : List (Except String k.Answer)) : Script :=
  fun other => if hsame : k = other then hsame ▸ answers else script other

/-- The answer where the script says nothing. -/
def silence : (k : Statement.Kind) → k.Answer
  | .fetch | .get | .failing => ([] : List Postgres.RecordCells)
  | .renew => ([] : List (Option String))
  | .isProcessed => ([] : List (Option Bool))
  | .counts => ([] : List Postgres.CountCells)
  | .markProcessed | .markFailed | .deleteProcessed => (0 : Nat)
  | .release | .insert | .begin | .commit | .rollback | .apply | .record => ()
  | .history => (⟨none, []⟩ : History)

/-- The answer to the next statement of a kind. -/
def take (script : Script) (k : Statement.Kind) : Except String k.Answer × Script :=
  match script k with
  | [] => (.ok (silence k), script)
  | [last] => (last, script)
  | first :: rest => (first, script.put k rest)

end Script

structure Server where
  script : Script
  history : History
  /-- No connection is handed out any more. -/
  closed : Bool
  /-- The statements received, the latest first. -/
  received : List Statement

namespace Server

def start (script : Script) (history : History) : Server := ⟨script, history, false, []⟩

/-- Answers a statement. Questions about the history are not written down. -/
def send : Postgres.Connection (StateM Server)
  | .history => fun server => (.ok server.history, server)
  | .record migration => fun server =>
      (.ok (), { server with
        history := server.history.record migration
        received := .record migration :: server.received })
  | s => fun server =>
      let (answer, script) := server.script.take s.kind
      (answer.mapError .reported,
        { server with script := script, received := s :: server.received })

/-- Answers a statement for which a connection has to be handed out first. -/
def sendFresh : Postgres.Connection (StateM Server) := fun s server =>
  if server.closed then (.error .closed, server) else send s server

/-- The records that were to be inserted, in order. -/
def inserts (server : Server) : List Postgres.Record :=
  server.received.reverse.filterMap fun
    | .insert row => some row
    | _ => none

end Server

end Outbox.Simulation
