import Outbox.Simulation.Server
import Outbox.Simulation.World

/-! # Sessions with a database

A session is a list of steps that are taken one after the other over one database that answers from
a script, at one time. What counts is which statements each step sends, and what it makes of the
answers.
-/

namespace Outbox.Simulation

open Postgres (Connection Parameter Statement)

/-- A step of a session. -/
inductive Errand
  /-- A step that could not be understood, with the reason. -/
  | refused (kind message : String)
  | migrate
  | begin (transaction : String)
  | insert (transaction : String) (message : Message)
  | enqueue (transaction : String) (tag : MessageType) (payload : Payload)
      (scheduledAt : Option Instant)
  | commit (transaction : String)
  | rollback (transaction : String)
  /-- Leaves a transaction without ending it. -/
  | abandon (transaction : String)
  /-- A call of the store, made at the time of the session. -/
  | call (at_ : Instant → StoreCall)
  /-- One cycle of a deployment. -/
  | process (config : Config) (consumers : List (MessageType × PromptConsumer))
  | sweep (config : Config)
  | status (consumers : List (MessageType × PromptConsumer)) (minRetryCount : UInt32) (limit : Nat)
  /-- Ends the use of connections. -/
  | close

/-- Answers to come for a kind of statement. -/
structure Announcement where
  kind : Statement.Kind
  answers : List (Except String kind.Answer)

/-- A step together with the answers that it changes first. -/
structure Turn where
  announced : List Announcement
  errand : Errand

/-- What a step came to, and what it sent, in order. -/
structure TurnReport where
  outcome : Outcome
  sent : List (Statement × List Parameter)

structure Session where
  server : Server
  now : Instant
  /-- The transactions that are open. -/
  transactions : List String
  /-- How many ids were drawn. -/
  drawn : Nat
  /-- The claims that cycles made and sent, in order. -/
  claims : List ClaimToken

namespace Session

def start (server : Server) (now : Instant) : Session := ⟨server, now, [], 0, []⟩

def onServer {α : Type} (f : StateM Server α) : StateM Session α := fun s =>
  let (a, server) := f s.server
  (a, { s with server := server })

/-- The connection that is handed out for single statements. -/
def fresh : Connection (StateM Session) := fun statement => onServer (Server.sendFresh statement)

/-- The connection of an open transaction. -/
def held : Connection (StateM Session) := fun statement => onServer (Server.send statement)

def drawId : StateM Session MessageId := fun s =>
  (⟨.ofParts 0 (s.drawn + 1)⟩, { s with drawn := s.drawn + 1 })

def readNow : StateM Session Instant := fun s => (s.now, s)

/-- The next claim for a cycle. -/
def nextClaim (s : Session) : ClaimToken := ⟨.ofParts 0xC1A1C1A1C1A1 s.claims.length⟩

/-- Runs a routine. Nobody asks it to stop, and consumers answer at once. -/
def run {α : Type} (registry : Registry PromptConsumer) (routine : Routine α) : StateM Session α :=
  routine.run fun q => match q with
    | .now => readNow
    | .store call => Postgres.Store.answer fresh call
    | .stopRequested => return false
    | .dispatch message _ =>
        registry.dispatch (fun k tag content => return k.call tag content)
          message.tag message.content

/-- Forgets a transaction and ends it in some way. -/
def ending (transaction : String) (finish : StateM Session (Except Postgres.ClientError Unit)) :
    StateM Session Outcome := do
  let s ← get
  if s.transactions.contains transaction then
    set { s with transactions := s.transactions.filter (· != transaction) }
    return .ofResult (fun _ => .nothing) ((← finish).mapError .database)
  else return .lacking "no such tx"

/-- Does something with an open transaction. -/
def within (transaction : String) (f : StateM Session Outcome) : StateM Session Outcome := do
  if (← get).transactions.contains transaction then f else return .lacking "no such tx"

/-- Opens a transaction. One of the same name that is open is left behind. -/
def begin (transaction : String) : StateM Session Outcome := do
  match ← fresh.begin with
  | .error error => return .failed (.database error)
  | .ok () =>
      if (← get).transactions.contains transaction then held.abandon
      else modify fun s => { s with transactions := transaction :: s.transactions }
      return .nothing

/-- Assembles a deployment and does something with it. -/
def withDeployment (config : Config) (consumers : List (MessageType × PromptConsumer))
    (f : Deployment PromptConsumer → StateM Session Outcome) : StateM Session Outcome :=
  let blueprint : Except RegistryError (Blueprint PromptConsumer) :=
    consumers.foldlM (fun b (tag, k) => b.register tag k) { Blueprint.empty with config := config }
  match blueprint with
  | .error error => return .notRegistered error
  | .ok blueprint =>
      match blueprint.build with
      | .error error => return .notAssembled error
      | .ok deployment => f deployment

/-- Takes a step. -/
def take : Errand → StateM Session Outcome
  | .refused kind message => return .refused kind message
  | .migrate => do
      return .ofResult (fun _ => .nothing) ((← Postgres.SchemaUpdate.run fresh).mapError .migration)
  | .begin transaction => begin transaction
  | .insert transaction message => within transaction do
      return .ofResult (fun _ => .nothing) (← held.insert message)
  | .enqueue transaction tag payload scheduledAt => within transaction do
      return .ofResult .id (← Writer.enqueue drawId readNow held.insert tag payload scheduledAt)
  | .commit transaction => ending transaction held.commit
  | .rollback transaction => ending transaction held.rollback
  | .abandon transaction => ending transaction do
      held.abandon
      return .ok ()
  | .call at_ => do
      let call := at_ (← readNow)
      return .reply call (← Postgres.Store.answer fresh call)
  | .process config consumers => withDeployment config consumers fun d => do
      let claim := (← get).nextClaim
      return .ofResult .report (← run d.registry (d.processor.cycle claim))
  | .sweep config => withDeployment config [] fun d => do
      return .ofResult .count (← run d.registry d.sweeper.sweep)
  | .status consumers minRetryCount limit => withDeployment .default consumers fun d => do
      return .ofResult .status (← run d.registry (Status.collect d.registry minRetryCount limit))
  | .close => do
      modify fun s => { s with server := { s.server with closed := true } }
      return .nothing

/-- A claim that a cycle made is shown by its number. -/
def showClaim (claims : List ClaimToken) : Parameter → Parameter
  | .text value =>
      match (claims.map ClaimToken.toText).idxOf? value with
      | some number => .text ("claim:" ++ toString number)
      | none => .text value
  | other => other

/-- Takes a step after its announcements, and reports it. -/
def turn (t : Turn) (s : Session) : TurnReport × Session :=
  let script := t.announced.foldl (fun script a => script.put a.kind a.answers) s.server.script
  let claim := s.nextClaim
  let (outcome, s) := (take t.errand).run
    { s with server := { s.server with script := script, received := [] } }
  let sent := s.server.received.reverse
  let isUsed := sent.any fun statement => statement.parameters.contains (.text claim.toText)
  let claims := if isUsed then s.claims ++ [claim] else s.claims
  (⟨outcome, sent.map fun statement => (statement, statement.parameters.map (showClaim claims))⟩,
    { s with claims := claims })

/-- Takes all steps of a session. -/
def runAll (s : Session) : List Turn → List TurnReport
  | [] => []
  | t :: rest =>
      let (report, s) := s.turn t
      report :: s.runAll rest

end Session

end Outbox.Simulation
