import Outbox.Store
import Outbox.Json.Basic

/-! # The table of messages

A store in memory. Each row holds a message and, while a cycle has claimed it, the lease of that
claim. Ids are unique in the table. Beside the messages the table keeps the entities that units of
work write.

A row may be claimed when its message is due and no lease protects it any more; the end of a lease
protects no longer. Marks and renewals count only from the holder of the lease, even after it has
run out, as long as nobody else has claimed the row.
-/

namespace Outbox

/-- A claim on a row. Its holder and its end come and go together. -/
structure Lease where
  holder : ClaimToken
  expires : Instant
  deriving DecidableEq

structure Row where
  message : Message
  lease : Option Lease
  deriving DecidableEq

namespace Row

def id (r : Row) : MessageId := r.message.id

def claimedBy (r : Row) : Option ClaimToken := r.lease.map (·.holder)

def lockedUntil (r : Row) : Option Instant := r.lease.map (·.expires)

def isClaimable (r : Row) (now : Instant) : Bool :=
  r.message.isDue now && r.lease.all fun l => l.expires ≤ now

def isHeldBy (r : Row) (claim : ClaimToken) : Bool :=
  !r.message.isProcessed && r.lease.any fun l => l.holder == claim

def claimFor (r : Row) (claim : ClaimToken) (expires : Instant) : Row :=
  { r with lease := some ⟨claim, expires⟩ }

/-- Moves the end of the lease. -/
def extend (r : Row) (expires : Instant) : Row :=
  { r with lease := r.lease.map fun l => { l with expires := expires } }

def unclaim (r : Row) : Row := { r with lease := none }

end Row

structure Table where
  rows : List Row
  /-- The entities, the latest write of each first. -/
  entities : List (String × Json)
  distinctIds : (rows.map Row.id).Nodup

namespace Table

def empty : Table := ⟨[], [], List.nodup_nil⟩

def messages (t : Table) : List Message := t.rows.map Row.message

def row? (t : Table) (id : MessageId) : Option Row := t.rows.find? fun r => r.id == id

def get (t : Table) (id : MessageId) : Option Message := (t.row? id).map Row.message

def entity? (t : Table) (key : String) : Option Json := t.entities.lookup key

/-- Changes rows, but not their ids. -/
def mapRows (t : Table) (f : Row → Row) (keepsId : ∀ r, (f r).id = r.id) : Table where
  rows := t.rows.map f
  entities := t.entities
  distinctIds := by
    rw [List.map_map, show Row.id ∘ f = Row.id from funext keepsId]
    exact t.distinctIds

/-- Changes the rows that pass a test, but not their ids. -/
def mapRowsWhere (t : Table) (p : Row → Bool) (f : Row → Row) (keepsId : ∀ r, (f r).id = r.id) :
    Table :=
  t.mapRows (fun r => if p r then f r else r) fun r => by
    cases p r <;> simp [keepsId]

/-- Keeps the rows that pass a test. -/
def filterRows (t : Table) (p : Row → Bool) : Table where
  rows := t.rows.filter p
  entities := t.entities
  distinctIds := t.distinctIds.sublist (List.filter_sublist.map Row.id)

/-- All messages in the order of delivery. -/
def schedule (t : Table) : List Message := t.messages.mergeSort Message.scheduledBefore

/-- The messages that can be claimed, in the order of delivery. -/
def claimable (t : Table) (now : Instant) : List Message :=
  ((t.rows.filter (·.isClaimable now)).map Row.message).mergeSort Message.scheduledBefore

/-- Claims the first messages that can be claimed. -/
def fetch (t : Table) (claim : ClaimToken) (limit : Nat) (now : Instant) (lease : Duration) :
    List Message × Table :=
  let batch := (t.claimable now).take limit
  (batch, t.mapRowsWhere (fun r => batch.any fun m => m.id == r.id)
    (fun r => r.claimFor claim (now.plusOrSelf lease)) fun _ => rfl)

/-- Prolongs the claim on the rows that are held, and tells which of them are. -/
def renew (t : Table) (claim : ClaimToken) (ids : List MessageId) (now : Instant)
    (lease : Duration) : List MessageId × Table :=
  (ids.filter fun id => (t.row? id).any (·.isHeldBy claim),
    t.mapRowsWhere (fun r => ids.contains r.id && r.isHeldBy claim)
      (fun r => r.extend (now.plusOrSelf lease)) fun _ => rfl)

/-- Records the outcome of an attempt, which ends the claim. On a processed message there is nothing
to record, and that is no failure. -/
def mark (t : Table) (claim : ClaimToken) (id : MessageId) (record : Message → Message)
    (keepsId : ∀ m, (record m).id = m.id) : Except Failure Unit × Table :=
  match t.row? id with
  | none => (.error (.notFound id), t)
  | some row =>
      if row.message.isProcessed then (.ok (), t)
      else if row.isHeldBy claim then
        (.ok (), t.mapRowsWhere (fun r => r.id == id) (fun r => ⟨record r.message, none⟩)
          fun r => keepsId r.message)
      else (.error (.claimLost id), t)

def markProcessed (t : Table) (claim : ClaimToken) (id : MessageId) (time : Instant) :
    Except Failure Unit × Table :=
  t.mark claim id (·.markProcessed time) fun m => m.id_markProcessed time

def markFailed (t : Table) (claim : ClaimToken) (id : MessageId) (error : String)
    (nextRun : Option Instant) : Except Failure Unit × Table :=
  t.mark claim id (·.markFailed error nextRun) fun m => m.id_markFailed error nextRun

/-- Gives up the claim on the rows that are held. -/
def release (t : Table) (claim : ClaimToken) (ids : List MessageId) : Table :=
  t.mapRowsWhere (fun r => ids.contains r.id && r.isHeldBy claim) Row.unclaim fun _ => rfl

/-- Deletes the messages that were processed before the cutoff, and tells how many. -/
def deleteProcessed (t : Table) (cutoff : Instant) : Nat × Table :=
  let kept := t.filterRows fun r => r.message.processedAt.all fun time => cutoff ≤ time
  (t.rows.length - kept.rows.length, kept)

/-- The messages that failed at least so often and at least once, the worst first. -/
def failing (t : Table) (minRetryCount : UInt32) (limit : Nat) : List Message :=
  ((t.messages.filter fun m =>
    !m.isProcessed && 0 < m.retryCount && minRetryCount ≤ m.retryCount).mergeSort
      Message.worseThan).take limit

def counts (t : Table) : Counts := .ofMessages t.messages

/-- The answer to a call, and the table after it. -/
def answer (t : Table) : (call : StoreCall) → Except Failure call.Reply × Table
  | .fetch claim limit now lease =>
      let (batch, t) := t.fetch claim limit now lease
      (.ok batch, t)
  | .renew claim ids now lease =>
      let (renewed, t) := t.renew claim ids now lease
      (.ok renewed, t)
  | .markProcessed claim id time => t.markProcessed claim id time
  | .markFailed claim id error nextRun => t.markFailed claim id error nextRun
  | .release claim ids => (.ok (), t.release claim ids)
  | .deleteProcessed cutoff =>
      let (count, t) := t.deleteProcessed cutoff
      (.ok count, t)
  | .get id => (.ok (t.get id), t)
  | .failing minRetryCount limit => (.ok (t.failing minRetryCount limit), t)
  | .counts => (.ok t.counts, t)

end Table

end Outbox
