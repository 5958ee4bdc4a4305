import Outbox.Counts
import Outbox.Failure

/-! # Records

A record holds a message in the columns of its table: the id is text there, and the retry count is a
signed number. Every message has a record. A record has a message only if its id is a ULID and its
retry count is not negative.
-/

namespace Outbox.Postgres

structure Record where
  id : String
  messageType : String
  content : String
  createdAt : Instant
  scheduledAt : Instant
  processedAt : Option Instant
  error : Option String
  retryCount : Int32
  deriving DecidableEq

/-- The columns in their order. -/
def columns : String :=
  "id, message_type, content, created_at, scheduled_at, processed_at, error, retry_count"

/-- The retry count as far as its column goes. -/
def countColumn (count : UInt32) : Int32 :=
  if count.toNat < 0x80000000 then Int32.ofInt count.toNat else Int32.maxValue

/-- The id that a text column holds. -/
def idOfColumn (text : String) : Except Failure MessageId :=
  (MessageId.ofText text).mapError fun error =>
    .corruptRow ("id '" ++ text ++ "': " ++ error.message)

namespace Record

def ofMessage (m : Message) : Record where
  id := m.id.toText
  messageType := m.tag.tag
  content := m.content
  createdAt := m.createdAt
  scheduledAt := m.scheduledAt
  processedAt := m.processedAt
  error := m.error
  retryCount := countColumn m.retryCount

/-- The message of a record. A defect of the id is reported before one of the retry count. -/
def toMessage (r : Record) : Except Failure Message := do
  let id ← idOfColumn r.id
  if r.retryCount < 0 then
    throw (.corruptRow
      ("retry_count " ++ toString r.retryCount.toInt ++ " for message " ++ id.toText))
  return {
    id := id
    tag := ⟨r.messageType⟩
    content := r.content
    createdAt := r.createdAt
    scheduledAt := r.scheduledAt
    processedAt := r.processedAt
    error := r.error
    retryCount := UInt32.ofNat r.retryCount.toInt.toNat }

end Record

/-- A record as it comes from the server. Any column may be NULL. -/
structure RecordCells where
  id : Option String
  messageType : Option String
  content : Option String
  createdAt : Option Instant
  scheduledAt : Option Instant
  processedAt : Option Instant
  error : Option String
  retryCount : Option Int32
  deriving DecidableEq

/-- The value of a column that must not be NULL. -/
def required {α : Type} (column : Column) : Option α → Except ClientError α
  | some value => .ok value
  | none => .error (.unexpectedNull column)

/-- Reads the columns in their order. -/
def RecordCells.read (c : RecordCells) : Except ClientError Record := do
  return {
    id := ← required (.named "id") c.id
    messageType := ← required (.named "message_type") c.messageType
    content := ← required (.named "content") c.content
    createdAt := ← required (.named "created_at") c.createdAt
    scheduledAt := ← required (.named "scheduled_at") c.scheduledAt
    processedAt := c.processedAt
    error := c.error
    retryCount := ← required (.named "retry_count") c.retryCount }

/-- The numbers of messages as they come from the server. -/
structure CountCells where
  pending : Option Int64
  failing : Option Int64
  processed : Option Int64
  deriving DecidableEq

/-- Reads the numbers in their order. A negative one counts as zero. -/
def CountCells.read (c : CountCells) : Except ClientError Counts := do
  return {
    pending := (← required (.named "pending") c.pending).toInt.toNat
    failing := (← required (.named "failing") c.failing).toInt.toNat
    processed := (← required (.named "processed") c.processed).toInt.toNat }

end Outbox.Postgres
