import Outbox.Counts
import Outbox.Failure

/-! # What a store is asked to do

Each call of a store is a value, and so is its reply. A store is anything that answers calls.
-/

namespace Outbox

inductive StoreCall
  /-- Claim the first messages that are due, for the length of a lease. -/
  | fetch (claim : ClaimToken) (limit : Nat) (now : Instant) (lease : Duration)
  /-- Prolong the claim on those of the messages that are still held. -/
  | renew (claim : ClaimToken) (ids : List MessageId) (now : Instant) (lease : Duration)
  | markProcessed (claim : ClaimToken) (id : MessageId) (time : Instant)
  | markFailed (claim : ClaimToken) (id : MessageId) (error : String) (nextRun : Option Instant)
  /-- Give up the claim on those of the messages that are still held. -/
  | release (claim : ClaimToken) (ids : List MessageId)
  /-- Delete messages processed before the cutoff. -/
  | deleteProcessed (cutoff : Instant)
  | get (id : MessageId)
  /-- The messages that failed most often, but at least so often. -/
  | failing (minRetryCount : UInt32) (limit : Nat)
  | counts
  deriving DecidableEq

/-- What a call is answered with when it succeeds. -/
@[reducible] def StoreCall.Reply : StoreCall → Type
  | fetch .. => List Message
  | renew .. => List MessageId
  | markProcessed .. => Unit
  | markFailed .. => Unit
  | release .. => Unit
  | deleteProcessed .. => Nat
  | get .. => Option Message
  | failing .. => List Message
  | counts => Counts

/-- The claim that a call is made under, if it is made under one. -/
def StoreCall.claim? : StoreCall → Option ClaimToken
  | fetch claim .. | renew claim .. | markProcessed claim .. | markFailed claim ..
  | release claim .. => some claim
  | _ => none

/-- The kinds of calls. -/
inductive StoreMethod
  | fetch
  | renew
  | markProcessed
  | markFailed
  | release
  | deleteProcessed
  | get
  | failing
  | counts
  deriving DecidableEq, Repr

namespace StoreMethod

def name : StoreMethod → String
  | fetch => "fetch"
  | renew => "renew"
  | markProcessed => "mark_processed"
  | markFailed => "mark_failed"
  | release => "release"
  | deleteProcessed => "delete"
  | get => "get"
  | failing => "failing"
  | counts => "counts"

def all : List StoreMethod :=
  [fetch, renew, markProcessed, markFailed, release, deleteProcessed, get, failing, counts]

def ofName? (name : String) : Option StoreMethod := all.find? (·.name == name)

end StoreMethod

def StoreCall.method : StoreCall → StoreMethod
  | fetch .. => .fetch
  | renew .. => .renew
  | markProcessed .. => .markProcessed
  | markFailed .. => .markFailed
  | release .. => .release
  | deleteProcessed .. => .deleteProcessed
  | get .. => .get
  | failing .. => .failing
  | counts => .counts

end Outbox
