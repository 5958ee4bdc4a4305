import Outbox.MessageType
import Outbox.Time.Instant
import Outbox.Ulid.Basic

/-! # Messages

A message is created pending. Each failed attempt adds to its retry count and keeps the error;
success is final. Its schedule starts no earlier than its creation and is never moved back.
-/

namespace Outbox

inductive MessageState
  | pending
  | failing
  | processed
  deriving DecidableEq, Repr

namespace MessageState

def name : MessageState → String
  | pending => "Pending"
  | failing => "Failing"
  | processed => "Processed"

def all : List MessageState := [pending, failing, processed]

def ofName? (name : String) : Option MessageState := all.find? (·.name == name)

/-- No event leads out of the state. -/
def isTerminal : MessageState → Bool
  | processed => true
  | _ => false

end MessageState

structure Message where
  id : MessageId
  tag : MessageType
  /-- The encoded payload. Only consumers look into it. -/
  content : String
  createdAt : Instant
  scheduledAt : Instant
  processedAt : Option Instant
  /-- What the last attempt failed with. -/
  error : Option String
  retryCount : UInt32
  deriving DecidableEq

/-- One more, as far as 32 bits go. -/
def incrementCapped (count : UInt32) : UInt32 := if count = 0xFFFFFFFF then count else count + 1

/-- The count of failures stays at the largest number of 32 bits. -/
theorem toNat_incrementCapped (count : UInt32) :
    (incrementCapped count).toNat = min (count.toNat + 1) 0xFFFFFFFF := by
  unfold incrementCapped
  have hbound := count.toNat_lt
  split
  next hmax => subst hmax; decide
  next hless =>
    have hne : count.toNat ≠ 4294967295 := fun heq => hless (UInt32.toNat_inj.mp heq)
    rw [UInt32.toNat_add]
    have : (1 : UInt32).toNat = 1 := rfl
    omega

namespace Message

/-- A message as it is first stored. A schedule before the creation counts as none. -/
def create (id : MessageId) (tag : MessageType) (content : String) (createdAt : Instant)
    (scheduledAt : Option Instant) : Message where
  id := id
  tag := tag
  content := content
  createdAt := createdAt
  scheduledAt := match scheduledAt with
    | some at_ => max at_ createdAt
    | none => createdAt
  processedAt := none
  error := none
  retryCount := 0

def isProcessed (m : Message) : Bool := m.processedAt.isSome

/-- The message may be attempted at this time. -/
def isDue (m : Message) (now : Instant) : Bool := !m.isProcessed && m.scheduledAt ≤ now

def state (m : Message) : MessageState :=
  if m.isProcessed then .processed else if 0 < m.retryCount then .failing else .pending

/-- Records success, unless the message is processed already. -/
def markProcessed (m : Message) (now : Instant) : Message :=
  if m.isProcessed then m else { m with processedAt := some now, error := none }

/-- Records a failed attempt, unless the message is processed already. The schedule moves to the
next run if that is later. -/
def markFailed (m : Message) (error : String) (nextRun : Option Instant) : Message :=
  if m.isProcessed then m
  else { m with
    retryCount := incrementCapped m.retryCount
    error := some error
    scheduledAt := match nextRun with
      | some next => max m.scheduledAt next
      | none => m.scheduledAt }

@[simp] theorem id_markProcessed (m : Message) (now : Instant) :
    (m.markProcessed now).id = m.id := by
  unfold markProcessed
  split <;> rfl

@[simp] theorem id_markFailed (m : Message) (error : String) (nextRun : Option Instant) :
    (m.markFailed error nextRun).id = m.id := by
  unfold markFailed
  split <;> rfl

/-- Messages are delivered in the order of schedule, then creation, then id. -/
def scheduledBefore (a b : Message) : Bool :=
  a.scheduledAt < b.scheduledAt || a.scheduledAt = b.scheduledAt &&
    (a.createdAt < b.createdAt || a.createdAt = b.createdAt && a.id ≤ b.id)

/-- Messages that failed more often come first, then those scheduled earlier, then by id. -/
def worseThan (a b : Message) : Bool :=
  b.retryCount < a.retryCount || a.retryCount = b.retryCount &&
    (a.scheduledAt < b.scheduledAt || a.scheduledAt = b.scheduledAt && a.id ≤ b.id)

end Message

end Outbox
