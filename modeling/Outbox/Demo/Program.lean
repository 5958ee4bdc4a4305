import Outbox.Demo.Complaint
import Outbox.Demo.Site
import Outbox.Json.Writer
import Outbox.Postgres.Address
import Outbox.Postgres.SchemaUpdate
import Outbox.Postgres.Store
import Outbox.Table.UnitOfWork

/-! # The demonstration

Reads the configuration, cancels one order and runs the shop's deployment until every message is
processed. Messages are kept in memory, or in the database that a variable names. The status at the
end is the output; whatever goes wrong on the way is a complaint.
-/

namespace Outbox.Demo

open Postgres (ClientError Connection)

/-- How databases are reached. -/
structure Network (σ : Type) where
  /-- Connects to the database at an address. -/
  dial : String → Except ClientError σ
  /-- Sends a statement over any connection. -/
  fresh : Connection (StateM σ)
  /-- Sends a statement over the connection of the open transaction. -/
  held : Connection (StateM σ)

/-- The network without any database. -/
def Network.deserted : Network Empty where
  dial := fun address => .error (Postgres.Address.silenceAt address)
  fresh := fun _ impossible => nomatch impossible
  held := fun _ impossible => nomatch impossible

/-- How the program ends. -/
structure Ending where
  code : Nat
  output : String
  complaint : String
  deriving DecidableEq, Repr

namespace Ending

def ofStatus (status : Status) : Ending := ⟨0, status.toJson.toSpreadText ++ "\n", ""⟩

def ofComplaint (complaint : Complaint) : Ending := ⟨1, "", complaint.text⟩

def ofResult : Except Complaint Status → Ending
  | .ok status => ofStatus status
  | .error complaint => ofComplaint complaint

end Ending

/-- The order that is cancelled. -/
def order : String := "o-1001"

/-- Stages the messages of the cancelled order, beside the order itself. -/
def stageOrder : StateT UnitOfWork (StateM (Site Table)) (Except Failure Unit) := do
  modify fun unit => unit.putEntity ("order:" ++ order) (.object [("status", .text "cancelled")])
  let insert (message : Message) : StateT UnitOfWork (StateM (Site Table)) (Except Failure Unit) :=
    fun unit => match unit.insert message with
      | .ok unit => return (.ok (), unit)
      | .error failure => return (.error failure, unit)
  enqueueAll (liftM (Site.drawId (σ := Table))) (liftM (Site.readNow (σ := Table))) insert
    (cancellation order)

/-- Cancels the order in a table. -/
def cancelInTable : StateM (Site Table) (Except Failure Unit) := do
  match ← stageOrder.run .empty with
  | (.error failure, _) => return .error failure
  | (.ok (), unit) => Site.onStore fun table =>
      match unit.commit table with
      | .ok table => (.ok (), table)
      | .error failure => (.error failure, table)

/-- The run with messages in memory. -/
def runInMemory (d : Deployment ShopConsumer) (patience : Nat) :
    StateM (Site Table) (Except Complaint Status) := do
  match ← cancelInTable with
  | .error failure => return .error failure.chain
  | .ok () =>
      let answer : Answering Table := fun call table => table.answer call
      return (← Site.runDrained answer d patience).mapError Failure.chain

variable {σ : Type}

/-- Cancels the order in a transaction of a database. -/
def cancelInDatabase (net : Network σ) : StateM (Site σ) (Except Complaint Unit) := do
  match ← Site.onStore net.fresh.begin with
  | .error error => return .error (Failure.database error).chain
  | .ok () =>
      let insert (message : Message) : StateM (Site σ) (Except Failure Unit) :=
        Site.onStore (net.held.insert message)
      match ← enqueueAll Site.drawId Site.readNow insert (cancellation order) with
      | .error failure =>
          Site.onStore net.held.abandon
          return .error failure.chain
      | .ok () =>
          let committed ← Site.onStore net.held.commit
          return committed.mapError fun error => "commit order cancellation" :: error.chain

/-- The run with messages in a database, whose schema is brought up to date first. -/
def runInDatabase (net : Network σ) (d : Deployment ShopConsumer) (patience : Nat) :
    StateM (Site σ) (Except Complaint Status) := do
  match ← Site.onStore (Postgres.SchemaUpdate.run net.fresh) with
  | .error error => return .error ("apply outbox migrations" :: (Failure.migration error).chain)
  | .ok () =>
      match ← cancelInDatabase net with
      | .error complaint => return .error complaint
      | .ok () =>
          return (← Site.runDrained (Postgres.Store.answer net.fresh) d patience).mapError
            Failure.chain

/-- The whole program: how it ends, and the state of the database if there is one. The variables say
how it is configured, and whether there is a database to be used. -/
def program (lookup : String → Option String) (net : Network σ) (patience : Nat) :
    Ending × Option σ :=
  match Config.ofLookup lookup with
  | .error error => (.ofComplaint ["read outbox configuration", error.message], none)
  | .ok config =>
      match lookup "DATABASE_URL", deployment config with
      | _, .error reason => (.ofComplaint [reason], none)
      | none, .ok d =>
          let (result, _) := (runInMemory d patience).run (.start .empty)
          (.ofResult result, none)
      | some address, .ok d =>
          match net.dial address with
          | .error error =>
              (.ofComplaint ("connect to DATABASE_URL" :: (Failure.database error).chain), none)
          | .ok database =>
              let (result, site) := (runInDatabase net d patience).run (.start database)
              (.ofResult result, some site.store)

end Outbox.Demo
