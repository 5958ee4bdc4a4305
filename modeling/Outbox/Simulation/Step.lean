import Outbox.Deployment
import Outbox.Status
import Outbox.Table.UnitOfWork
import Outbox.Writer

/-! # Scenarios

A scenario is a list of steps that are taken one after the other against one table and one clock:
units of work, calls of the store, and whatever deployments can be told to do. Consumers in a
scenario follow scripts, and a script may contain steps as well, taken in the midst of a delivery.
-/

namespace Outbox.Simulation

mutual

inductive Step
  /-- A step that could not be understood, with the reason. -/
  | refused (kind message : String)
  /-- Assembles a deployment and puts it in the place of one of the same name. -/
  | build (outbox : String) (config : Config) (consumers : List Registration)
      (expected : Option (List MessageType))
  | consumersFor (outbox : String) (tag : MessageType)
  /-- Lets the next calls of a method fail, except where the plan has an empty text. -/
  | fault (method : StoreMethod) (plan : List String)
  /-- Moves the clock by a signed number of nanoseconds. -/
  | advance (nanos : Int)
  | set (time : Instant)
  | now
  | sleep (millis : Nat)
  | begin (unit : String)
  | putEntity (unit key : String) (value : Json)
  | insertInto (unit : String) (message : Message)
  | commit (unit : String)
  /-- Ends a unit of work without committing it. -/
  | rollback (unit : String)
  /-- Enqueues a payload, in an open unit of work or in one of its own. -/
  | enqueue (outbox : String) (unit : Option String) (tag : MessageType) (payload : Payload)
      (scheduledAt : Option Instant)
  | insert (messages : List Message)
  | entity (key : String)
  /-- A call of the store itself, made at the current time. -/
  | call (at_ : Instant → StoreCall)
  | dump
  /-- One cycle. -/
  | process (outbox : String)
  /-- One cycle in the background. -/
  | processTask (outbox task : String)
  /-- Waits for a cycle in the background, which is known by its name until then. -/
  | joinTask (task : String)
  | dispatch (outbox : String) (tag : MessageType) (content : String)
  | sweep (outbox : String)
  /-- One sweep with a retention of its own, in nanoseconds. -/
  | sweepWith (retention : Int)
  | status (outbox : String) (minRetryCount : UInt32) (limit : Nat)
  /-- Looks a message up through the deployment's own store. -/
  | storeGet (id : MessageId)
  | start (outbox : String)
  | requestShutdown (outbox : String)
  | isShutdownRequested (outbox : String)
  | shutdown (outbox : String)
  | dropService (outbox : String)

/-- What a consumer does in the course of a call. -/
inductive Action
  | fail (error : ConsumerError)
  /-- Fails if the text occurs in what is seen. -/
  | failIfSeen (text : String)
  | panic (payload : Option String)
  /-- Takes a step and notes its outcome under a name. -/
  | take (name : String) (step : Step)

/-- A consumer to be registered: its tag, its names, how it takes content, and a list of actions for
each of its calls, the last of which serves all further calls. -/
inductive Registration
  | mk (tag : MessageType) (name label : String) (intake : Intake) (script : List (List Action))

end

/-- A registered consumer. -/
structure ScriptedConsumer where
  name : String
  label : String
  intake : Intake
  script : List (List Action)
  /-- Tells apart the consumers of a scenario. -/
  number : Nat

instance : Named ScriptedConsumer := ⟨ScriptedConsumer.name⟩

/-- The consumer by itself. What it gets to see it shows as JSON. -/
def ScriptedConsumer.consumer (k : ScriptedConsumer) : Consumer Json where
  name := k.name
  intake := k.intake
  handle := k.intake.toJson

/-- What a step answers. -/
inductive Outcome
  | nothing
  | refused (kind message : String)
  /-- The step needs something that is not there. -/
  | lacking (what : String)
  | failed (failure : Failure)
  | notRegistered (error : RegistryError)
  | notAssembled (error : AssemblyError)
  /-- The clock cannot go there. -/
  | clockOverflow
  | built (types : List MessageType) (consumers batchSize : Nat) (lease : Duration)
  | names (names : List String)
  | time (now : Instant)
  | id (id : MessageId)
  | entity (value : Option Json)
  | reply (call : StoreCall) (answer : Except Failure call.Reply)
  | messages (messages : List Message)
  | report (report : BatchReport)
  | dispatched (outcome : DispatchOutcome)
  | count (n : Nat)
  | status (status : Status)
  | message (message : Option Message)
  | flag (b : Bool)

/-- What is said when the clock cannot go somewhere. -/
def clockComplaint : String := "`DateTime + TimeDelta` overflowed"

namespace Outcome

def ofResult {α : Type} (f : α → Outcome) : Except Failure α → Outcome
  | .ok a => f a
  | .error failure => failed failure

end Outcome

/-- What is noted in the course of a scenario. -/
inductive LogEntry
  /-- A call of the store. Claims are numbered in the order in which they are first noted. -/
  | call (call : StoreCall) (claim : Option Nat)
  | consumer (label : String) (number : Nat) (time : Instant) (seen : Json)
  | action (label name : String) (outcome : Outcome)

/-- Where message ids come from. -/
inductive IdPlan
  /-- The given ids first, after them one for each number of a draw. -/
  | scripted (ids : List MessageId)
  /-- A generator for each deployment. -/
  | generated

structure Scenario where
  start : Instant
  ids : IdPlan
  /-- The clock moves along with virtual time. -/
  ticking : Bool
  traced : StoreMethod → Bool
  steps : List Step

/-- What is known after a step. -/
structure StepReport where
  outcome : Outcome
  counts : Counts
  log : List LogEntry

end Outbox.Simulation
