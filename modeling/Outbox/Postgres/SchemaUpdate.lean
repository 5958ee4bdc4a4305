import Outbox.Postgres.Connection

/-! # Bringing the schema up to date

The history of the database is checked first: a migration that was left half done, or one that is
not known here, stops the update before it begins. Then each migration that is missing is applied in
a transaction of its own, together with its record. Migrations that were applied are not applied
again.
-/

universe u

namespace Outbox.Postgres

variable {m : Type → Type u} [Monad m]

/-- Applies a migration and records it. -/
def Migration.run (send : Connection m) (migration : Migration) : m (Except ClientError Unit) := do
  match ← send.begin with
  | .error error => return .error error
  | .ok () =>
      match ← send.sendOrAbandon (.apply migration) with
      | .error error => return .error error
      | .ok () =>
          match ← send.sendOrAbandon (.record migration) with
          | .error error => return .error error
          | .ok () => send.commit

namespace SchemaUpdate

/-- Applies those of the migrations that the history does not have. -/
def applyMissing (send : Connection m) (history : History) :
    List Migration → m (Except MigrationError Unit)
  | [] => return .ok ()
  | migration :: rest =>
      match history.applied.lookup migration.version with
      | some true => applyMissing send history rest
      | some false => return .error (.modified migration.version)
      | none => do
          match ← migration.run send with
          | .error error => return .error (.failed error)
          | .ok () => applyMissing send history rest

/-- Updates a schema of that history. -/
def proceed (send : Connection m) (history : History) : m (Except MigrationError Unit) :=
  match history.halfDone, history.leastUnknown? with
  | some version, _ => return .error (.halfDone version)
  | none, some version => return .error (.unknown version)
  | none, none => applyMissing send history Migration.all

def run (send : Connection m) : m (Except MigrationError Unit) := do
  match ← send .history with
  | .error error => return .error (.failed error)
  | .ok history => proceed send history

end SchemaUpdate

end Outbox.Postgres
