import Outbox.Demo.Shop
import Outbox.Status
import Outbox.Ulid.Generator
import Outbox.Writer

/-! # Running a deployment until it is drained

A site is a store together with what a run keeps beside it: virtual time, the source of ids and
claims, and the temper of the mail gateway. The processor and the sweeper take their rounds when
they are due; every now and then somebody looks whether everything is processed, and ends the run if
so.
-/

namespace Outbox.Demo

structure Site (σ : Type) where
  store : σ
  /-- Milliseconds since the run began. -/
  elapsed : Nat
  ids : Ulid.Generator
  /-- How many claims were made. -/
  claims : Nat
  /-- How often the mail gateway will still time out. -/
  timeouts : Nat

/-- How calls of a store are answered. -/
abbrev Answering (σ : Type) := (call : StoreCall) → StateM σ (Except Failure call.Reply)

/-- When the next rounds are due, and the next look at the status. -/
structure Timetable where
  processor : Nat
  sweeper : Nat
  look : Nat

namespace Site

variable {σ α : Type}

def start (store : σ) : Site σ := ⟨store, 0, .start, 0, firstTimeouts⟩

def onStore (f : StateM σ α) : StateM (Site σ) α := fun site =>
  let (a, store) := f site.store
  (a, { site with store := store })

def onMailGateway (f : StateM Nat α) : StateM (Site σ) α := fun site =>
  let (a, timeouts) := f site.timeouts
  (a, { site with timeouts := timeouts })

def now (site : Site σ) : Instant := Instant.epoch.plusOrSelf (.ofMillis site.elapsed)

def readNow : StateM (Site σ) Instant := fun site => (site.now, site)

def drawId : StateM (Site σ) MessageId := fun site =>
  let (id, ids) := site.ids.next site.now 0
  (⟨id⟩, { site with ids := ids })

def newClaim : StateM (Site σ) ClaimToken := fun site =>
  (⟨.ofParts site.elapsed site.claims⟩, { site with claims := site.claims + 1 })

def callConsumer (k : ShopConsumer) (tag : MessageType) (content : String) :
    StateM (Site σ) CallOutcome :=
  match k.consume tag content with
  | .ok act => onMailGateway act
  | .error failure => return .failed failure

/-- Runs a routine of a deployment. -/
def run (answer : Answering σ) (d : Deployment ShopConsumer) (routine : Routine α) :
    StateM (Site σ) α :=
  routine.run fun q => match q with
    | .now => readNow
    | .store call => onStore (answer call)
    | .stopRequested => return false
    | .dispatch message _ => d.registry.dispatch callConsumer message.tag message.content

/-- The status as it is shown: with up to ten messages that failed. -/
def status (answer : Answering σ) (d : Deployment ShopConsumer) :
    StateM (Site σ) (Except Failure Status) :=
  run answer d (Status.collect d.registry 1 10)

/-- The time between two looks, in milliseconds. -/
def lookInterval : Nat := 200

/-- How long a loop waits after a round, in milliseconds. No round takes less than one. -/
def pause : Next → Nat
  | .pause length => max length.ceilMillis 1
  | .again => 1
  | .stop => 1

/-- Does what is due first, over and over, until a look finds everything processed. The run ends as
well when it has done as many things as `patience` allows. -/
def drive (answer : Answering σ) (d : Deployment ShopConsumer) :
    Nat → Timetable → StateM (Site σ) (Except Failure Unit)
  | 0, _ => return .ok ()
  | patience + 1, t => do
      let due := min t.processor (min t.sweeper t.look)
      modify fun site => { site with elapsed := due }
      if t.processor = due then
        let claim ← newClaim
        let next ← run answer d (d.processor.round claim)
        drive answer d patience { t with processor := due + pause next }
      else if t.sweeper = due then
        let next ← run answer d d.sweeper.round
        drive answer d patience { t with sweeper := due + pause next }
      else
        match ← status answer d with
        | .error failure => return .error failure
        | .ok status =>
            if status.isDrained? = some true then return .ok ()
            else drive answer d patience { t with look := due + lookInterval }

/-- Runs a deployment until it is drained, and takes its status then. -/
def runDrained (answer : Answering σ) (d : Deployment ShopConsumer) (patience : Nat) :
    StateM (Site σ) (Except Failure Status) := do
  match ← drive answer d patience ⟨0, 0, lookInterval⟩ with
  | .error failure => return .error failure
  | .ok () => status answer d

end Site

/-- Enqueues what is handed over, one after the other, up to the first that fails. -/
def enqueueAll {m : Type → Type} [Monad m] (draw : m MessageId) (clock : m Instant)
    (insert : Message → m (Except Failure Unit)) :
    List Handover → m (Except Failure Unit)
  | [] => return .ok ()
  | handover :: rest => do
      match ← Writer.handOver draw clock insert handover none with
      | .error failure => return .error failure
      | .ok _ => enqueueAll draw clock insert rest

end Outbox.Demo
