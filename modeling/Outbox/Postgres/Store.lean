import Outbox.Postgres.Connection

/-! # The store in PostgreSQL

Each call of the store is answered with at most two statements. Which messages are due, and whose
claim holds, is decided in the database; a mark that changed no row is explained by a second
statement. Rows come back in any order, and all of them are read before the first of them is taken
for a message.
-/

universe u

namespace Outbox.Postgres.Store

variable {m : Type → Type u} [Monad m]

/-- The messages in rows, in the order of the rows. -/
def messagesOf (rows : List RecordCells) : Except Failure (List Message) := do
  let records ← (rows.mapM RecordCells.read).mapError Failure.database
  records.mapM Record.toMessage

/-- The message in the first row. -/
def firstMessageOf (rows : List RecordCells) : Except Failure (Option Message) := do
  match rows with
  | [] => return none
  | row :: _ =>
      let record ← row.read.mapError Failure.database
      return some (← record.toMessage)

/-- The ids in rows of one column. -/
def idsOf (rows : List (Option String)) : Except Failure (List MessageId) := do
  let texts ← (rows.mapM (required .first)).mapError Failure.database
  texts.mapM idOfColumn

/-- The numbers in the first row. There has to be one. -/
def countsOf : List CountCells → Except ClientError Counts
  | [] => .error .noRow
  | row :: _ => row.read

/-- The flag in the first row, if there is a row. -/
def flagOf : List (Option Bool) → Except ClientError (Option Bool)
  | [] => .ok none
  | row :: _ => (required .first row).map some

/-- Claims due messages. They are put into the order of delivery here. -/
def fetch (send : Connection m) (claim : ClaimToken) (limit : Nat) (now : Instant)
    (lease : Duration) : m (Except Failure (List Message)) := do
  let answer ← send (.fetch now (now.plusOrSelf lease) limit claim)
  return do
    let messages ← messagesOf (← answer.mapError Failure.database)
    return messages.mergeSort Message.scheduledBefore

/-- Prolongs a claim. Without messages there is nothing to ask. -/
def renew (send : Connection m) (claim : ClaimToken) (ids : List MessageId) (now : Instant)
    (lease : Duration) : m (Except Failure (List MessageId)) := do
  if ids.isEmpty then return .ok []
  let answer ← send (.renew ids claim (now.plusOrSelf lease))
  return do idsOf (← answer.mapError Failure.database)

/-- Why a mark changed no row: the message is processed already, is claimed by another, or is not
there. -/
def explainUnmarked (send : Connection m) (id : MessageId) : m (Except Failure Unit) := do
  let answer ← send (.isProcessed id)
  return do
    let rows ← answer.mapError Failure.database
    match ← (flagOf rows).mapError Failure.database with
    | none => throw (.notFound id)
    | some true => return ()
    | some false => throw (.claimLost id)

/-- What a mark came to, by the number of rows that it changed. -/
def concludeMark (send : Connection m) (id : MessageId) :
    Except ClientError Nat → m (Except Failure Unit)
  | .error error => return .error (.database error)
  | .ok 0 => explainUnmarked send id
  | .ok _ => return .ok ()

def markProcessed (send : Connection m) (claim : ClaimToken) (id : MessageId) (time : Instant) :
    m (Except Failure Unit) := do
  concludeMark send id (← send (.markProcessed id time claim))

def markFailed (send : Connection m) (claim : ClaimToken) (id : MessageId) (error : String)
    (nextRun : Option Instant) : m (Except Failure Unit) := do
  concludeMark send id (← send (.markFailed id error nextRun claim))

/-- Gives up a claim. Without messages there is nothing to ask. -/
def release (send : Connection m) (claim : ClaimToken) (ids : List MessageId) :
    m (Except Failure Unit) := do
  if ids.isEmpty then return .ok ()
  let answer ← send (.release ids claim)
  return answer.mapError .database

def deleteProcessed (send : Connection m) (cutoff : Instant) : m (Except Failure Nat) := do
  let answer ← send (.deleteProcessed cutoff)
  return answer.mapError .database

def get (send : Connection m) (id : MessageId) : m (Except Failure (Option Message)) := do
  let answer ← send (.get id)
  return do firstMessageOf (← answer.mapError Failure.database)

def failing (send : Connection m) (minRetryCount : UInt32) (limit : Nat) :
    m (Except Failure (List Message)) := do
  let answer ← send (.failing minRetryCount limit)
  return do messagesOf (← answer.mapError Failure.database)

def counts (send : Connection m) : m (Except Failure Counts) := do
  let answer ← send .counts
  return (answer.bind countsOf).mapError .database

/-- The answer to a call. -/
def answer (send : Connection m) : (call : StoreCall) → m (Except Failure call.Reply)
  | .fetch claim limit now lease => fetch send claim limit now lease
  | .renew claim ids now lease => renew send claim ids now lease
  | .markProcessed claim id time => markProcessed send claim id time
  | .markFailed claim id error nextRun => markFailed send claim id error nextRun
  | .release claim ids => release send claim ids
  | .deleteProcessed cutoff => deleteProcessed send cutoff
  | .get id => get send id
  | .failing minRetryCount limit => failing send minRetryCount limit
  | .counts => counts send

end Outbox.Postgres.Store
