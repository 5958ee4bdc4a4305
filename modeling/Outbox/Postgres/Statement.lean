import Outbox.Postgres.Migration
import Outbox.Postgres.Record
import Outbox.Postgres.Timestamp
import Outbox.Store

/-! # Statements

Everything that is ever sent to the database is one of these statements. Each has a text with
numbered places, the values for the places, and a form in which it is answered.
-/

namespace Outbox.Postgres

/-- A value for a place in a statement. -/
inductive Parameter
  | text (value : String)
  | texts (values : List String)
  | integer (value : Int)
  | time (value : Instant)
  | null
  deriving DecidableEq

namespace Parameter

def ofOption {α : Type} (f : α → Parameter) : Option α → Parameter
  | some value => f value
  | none => null

/-- A time is sent as far as it is kept. -/
def ofInstant (i : Instant) : Parameter := time (kept i)

def ofIds (ids : List MessageId) : Parameter := texts (ids.map MessageId.toText)

/-- A limit, as far as 64 bits with a sign go. -/
def ofLimit (limit : Nat) : Parameter := integer (min limit 0x7FFFFFFFFFFFFFFF : Nat)

end Parameter

inductive Statement
  /-- Claims due messages and answers them. -/
  | fetch (now lockedUntil : Instant) (limit : Nat) (claim : ClaimToken)
  /-- Prolongs a claim and answers the ids on which it is still held. -/
  | renew (ids : List MessageId) (claim : ClaimToken) (lockedUntil : Instant)
  | markProcessed (id : MessageId) (time : Instant) (claim : ClaimToken)
  | markFailed (id : MessageId) (error : String) (nextRun : Option Instant) (claim : ClaimToken)
  | release (ids : List MessageId) (claim : ClaimToken)
  | deleteProcessed (cutoff : Instant)
  | get (id : MessageId)
  /-- Asks whether a message is processed. -/
  | isProcessed (id : MessageId)
  | failing (minRetryCount : UInt32) (limit : Nat)
  | counts
  | insert (row : Record)
  | begin
  | commit
  | rollback
  /-- Runs the script of a migration. -/
  | apply (migration : Migration)
  /-- Notes that a migration was applied. -/
  | record (migration : Migration)
  /-- Asks which migrations were applied. -/
  | history
  deriving DecidableEq

namespace Statement

/-- The kinds of statements, told apart by what answers them. -/
inductive Kind
  | fetch
  | renew
  | markProcessed
  | markFailed
  | release
  | deleteProcessed
  | get
  | isProcessed
  | failing
  | counts
  | insert
  | begin
  | commit
  | rollback
  | apply
  | record
  | history
  deriving DecidableEq, Repr

/-- The answer to a statement of a kind: rows, or the number of rows that were changed. -/
@[reducible] def Kind.Answer : Kind → Type
  | fetch => List RecordCells
  | renew => List (Option String)
  | markProcessed => Nat
  | markFailed => Nat
  | release => Unit
  | deleteProcessed => Nat
  | get => List RecordCells
  | isProcessed => List (Option Bool)
  | failing => List RecordCells
  | counts => List CountCells
  | insert => Unit
  | begin => Unit
  | commit => Unit
  | rollback => Unit
  | apply => Unit
  | record => Unit
  | history => History

@[reducible] def kind : Statement → Kind
  | fetch .. => .fetch
  | renew .. => .renew
  | markProcessed .. => .markProcessed
  | markFailed .. => .markFailed
  | release .. => .release
  | deleteProcessed .. => .deleteProcessed
  | get .. => .get
  | isProcessed .. => .isProcessed
  | failing .. => .failing
  | counts => .counts
  | insert .. => .insert
  | begin => .begin
  | commit => .commit
  | rollback => .rollback
  | apply .. => .apply
  | record .. => .record
  | history => .history

@[reducible] def Answer (s : Statement) : Type := s.kind.Answer

/-- The text that is sent. -/
def text : Statement → String
  | fetch .. =>
      "UPDATE outbox_messages SET locked_until = $2, claimed_by = $4 WHERE id IN ( " ++
        "SELECT id FROM outbox_messages " ++
        "WHERE processed_at IS NULL AND scheduled_at <= $1 " ++
        "AND (locked_until IS NULL OR locked_until <= $1) " ++
        "ORDER BY scheduled_at, created_at, id " ++
        "LIMIT $3 FOR UPDATE SKIP LOCKED ) " ++
        "RETURNING " ++ columns
  | renew .. =>
      "UPDATE outbox_messages SET locked_until = $3 " ++
        "WHERE id = ANY($1) AND claimed_by = $2 AND processed_at IS NULL RETURNING id"
  | markProcessed .. =>
      "UPDATE outbox_messages " ++
        "SET processed_at = $2, error = NULL, locked_until = NULL, claimed_by = NULL " ++
        "WHERE id = $1 AND processed_at IS NULL AND claimed_by = $3"
  | markFailed .. =>
      "UPDATE outbox_messages SET retry_count = retry_count + 1, error = $2, " ++
        "scheduled_at = GREATEST(scheduled_at, COALESCE($3, scheduled_at)), " ++
        "locked_until = NULL, claimed_by = NULL " ++
        "WHERE id = $1 AND processed_at IS NULL AND claimed_by = $4"
  | release .. =>
      "UPDATE outbox_messages SET locked_until = NULL, claimed_by = NULL " ++
        "WHERE id = ANY($1) AND claimed_by = $2"
  | deleteProcessed .. =>
      "DELETE FROM outbox_messages WHERE processed_at IS NOT NULL AND processed_at < $1"
  | get .. => "SELECT " ++ columns ++ " FROM outbox_messages WHERE id = $1"
  | isProcessed .. => "SELECT processed_at IS NOT NULL FROM outbox_messages WHERE id = $1"
  | failing .. =>
      "SELECT " ++ columns ++ " FROM outbox_messages " ++
        "WHERE processed_at IS NULL AND retry_count > 0 AND retry_count >= $1 " ++
        "ORDER BY retry_count DESC, scheduled_at LIMIT $2"
  | counts =>
      "SELECT COUNT(*) FILTER (WHERE processed_at IS NULL AND retry_count = 0) AS pending, " ++
        "COUNT(*) FILTER (WHERE processed_at IS NULL AND retry_count > 0) AS failing, " ++
        "COUNT(*) FILTER (WHERE processed_at IS NOT NULL) AS processed FROM outbox_messages"
  | insert .. =>
      "INSERT INTO outbox_messages ( " ++ columns ++ " ) VALUES ($1, $2, $3, $4, $5, $6, $7, $8)"
  | begin => "BEGIN"
  | commit => "COMMIT"
  | rollback => "ROLLBACK"
  | apply migration => migration.script
  | record _ =>
      "INSERT INTO " ++ historyTable ++ " ( version, description, success ) VALUES ($1, $2, TRUE)"
  | history => "SELECT version, success FROM " ++ historyTable ++ " ORDER BY version"

/-- The values for the places of the text, in their order. -/
def parameters : Statement → List Parameter
  | fetch now lockedUntil limit claim =>
      [.ofInstant now, .ofInstant lockedUntil, .ofLimit limit, .text claim.toText]
  | renew ids claim lockedUntil => [.ofIds ids, .text claim.toText, .ofInstant lockedUntil]
  | markProcessed id time claim => [.text id.toText, .ofInstant time, .text claim.toText]
  | markFailed id error nextRun claim =>
      [.text id.toText, .text error, .ofOption .ofInstant nextRun, .text claim.toText]
  | release ids claim => [.ofIds ids, .text claim.toText]
  | deleteProcessed cutoff => [.ofInstant cutoff]
  | get id => [.text id.toText]
  | isProcessed id => [.text id.toText]
  | failing minRetryCount limit =>
      [.integer (countColumn minRetryCount).toInt, .ofLimit limit]
  | counts => []
  | insert row =>
      [.text row.id, .text row.messageType, .text row.content,
        .ofInstant row.createdAt, .ofInstant row.scheduledAt,
        .ofOption .ofInstant row.processedAt, .ofOption .text row.error,
        .integer row.retryCount.toInt]
  | begin => []
  | commit => []
  | rollback => []
  | apply _ => []
  | record migration => [.integer migration.version, .text migration.description]
  | history => []

end Statement

end Outbox.Postgres
