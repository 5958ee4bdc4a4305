/-! # What goes wrong between the store and PostgreSQL -/

namespace Outbox.Postgres

/-- A column that could not be read: by its name, or by its place in a row of one. -/
inductive Column
  | named (name : String)
  | first
  deriving DecidableEq, Repr

def Column.describe : Column → String
  | named name => "\"" ++ name ++ "\""
  | first => "0"

/-- Why a statement or a connection failed. -/
inductive ClientError
  /-- The address does not make sense. -/
  | configuration (reasons : List String)
  /-- The server cannot be reached. -/
  | unreachable (reason : String)
  /-- The server answered with an error. -/
  | reported (text : String)
  /-- A column is NULL where a value has to be. -/
  | unexpectedNull (column : Column)
  /-- A statement that answers one row answered none. -/
  | noRow
  /-- The connections are closed. -/
  | closed
  deriving DecidableEq, Repr

namespace ClientError

def nullComplaint : String := "unexpected null; try decoding as an `Option`"

/-- The complaint, then what it comes from, each complaint including the next. -/
def chain : ClientError → List String
  | configuration reasons => ("error with configuration: " ++ reasons.headD "") :: reasons
  | unreachable reason => ["error communicating with database: " ++ reason, reason]
  | reported text => ["error returned from database: " ++ text, text]
  | unexpectedNull column =>
      ["error occurred while decoding column " ++ column.describe ++ ": " ++ nullComplaint,
        nullComplaint]
  | noRow => ["no rows returned by a query that expected to return at least one row"]
  | closed => ["attempted to acquire a connection on a closed pool"]

def message (e : ClientError) : String := e.chain.headD ""

end ClientError

/-- The table in which the database remembers migrations. -/
def historyTable : String := "_sqlx_migrations"

/-- Why the schema could not be brought up to date. -/
inductive MigrationError
  | halfDone (version : Int)
  | unknown (version : Int)
  | modified (version : Int)
  | failed (cause : ClientError)
  deriving DecidableEq, Repr

namespace MigrationError

def chain : MigrationError → List String
  | halfDone version =>
      ["migration " ++ toString version ++
        " is partially applied; fix and remove row from `" ++ historyTable ++ "` table"]
  | unknown version =>
      ["migration " ++ toString version ++
        " was previously applied but is missing in the resolved migrations"]
  | modified version =>
      ["migration " ++ toString version ++ " was previously applied but has been modified"]
  | failed cause => ("while executing migrations: " ++ cause.message) :: cause.chain

def message (e : MigrationError) : String := e.chain.headD ""

end MigrationError

end Outbox.Postgres
