/-! # Migrations

The scripts that bring the schema up to date, and what the database remembers of them.
-/

namespace Outbox.Postgres

structure Migration where
  version : Int
  description : String
  script : String
  deriving DecidableEq, Repr

namespace Migration

/-- The table of messages with the indexes that cycles and sweeps go by. -/
def messages : Migration where
  version := 1
  description := "outbox messages"
  script :=
    "CREATE TABLE IF NOT EXISTS outbox_messages ( " ++
      "id TEXT PRIMARY KEY, " ++
      "message_type TEXT NOT NULL, " ++
      "content TEXT NOT NULL, " ++
      "created_at TIMESTAMPTZ NOT NULL, " ++
      "scheduled_at TIMESTAMPTZ NOT NULL, " ++
      "processed_at TIMESTAMPTZ NULL, " ++
      "error TEXT NULL, " ++
      "retry_count INTEGER NOT NULL DEFAULT 0, " ++
      "locked_until TIMESTAMPTZ NULL, " ++
      "CONSTRAINT outbox_messages_schedule_after_creation CHECK (scheduled_at >= created_at), " ++
      "CONSTRAINT outbox_messages_retry_count_non_negative CHECK (retry_count >= 0) ); " ++
    "CREATE INDEX IF NOT EXISTS outbox_messages_due_idx " ++
      "ON outbox_messages (scheduled_at, created_at, id) " ++
      "WHERE processed_at IS NULL; " ++
    "CREATE INDEX IF NOT EXISTS outbox_messages_processed_idx " ++
      "ON outbox_messages (processed_at) " ++
      "WHERE processed_at IS NOT NULL;"

/-- The column that names the holder of a lease. -/
def claims : Migration where
  version := 2
  description := "outbox claims"
  script := "ALTER TABLE outbox_messages ADD COLUMN IF NOT EXISTS claimed_by TEXT NULL;"

/-- All migrations, in the order in which they are applied. -/
def all : List Migration := [messages, claims]

end Migration

/-- What the database remembers of the migrations that were applied to it. -/
structure History where
  /-- The first migration that was begun and not finished. -/
  halfDone : Option Int
  /-- The versions that were applied, and whether their script was the one known here. -/
  applied : List (Int × Bool)
  deriving DecidableEq, Repr

namespace History

/-- The versions that were applied but are not known here. -/
def unknown (h : History) : List Int :=
  (h.applied.map (·.1)).filter fun version => !(Migration.all.any fun m => m.version == version)

/-- The least of the unknown versions. -/
def leastUnknown? (h : History) : Option Int := h.unknown.min?

/-- Notes that a migration was applied as it is. -/
def record (h : History) (m : Migration) : History :=
  { h with applied := h.applied ++ [(m.version, true)] }

end History

end Outbox.Postgres
