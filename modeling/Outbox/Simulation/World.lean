import Outbox.Simulation.Step
import Outbox.Ulid.Generator

/-! # The state of a scenario

Everything the steps of a scenario read and write, apart from the tasks that are under way.
Deployments see the table through a front that lets calls fail as planned and notes the calls that
are traced.
-/

namespace Outbox.Simulation

/-- A deployment that was built, with the consumers' numbers and the ids it makes itself. -/
structure Build where
  deployment : Deployment ScriptedConsumer
  generator : Ulid.Generator

/-- Whether the loops of a deployment are to go on. -/
structure Service where
  stopRequested : Bool
  /-- Nobody is left who could ask the loops to stop. -/
  abandoned : Bool
  /-- The tasks of the processor's loop and of the sweeper's. -/
  processor : Nat
  sweeper : Nat

structure World where
  /-- The clock, without the virtual time that it may move along with. -/
  clock : Instant
  ticking : Bool
  /-- Milliseconds of virtual time since the scenario began. -/
  elapsed : Nat
  table : Table
  units : List (String × UnitOfWork)
  ids : IdPlan
  /-- How many ids were drawn from the plan. -/
  drawn : Nat
  /-- How many claims cycles have made for themselves. -/
  claims : Nat
  builds : Array Build
  /-- The builds in use, by name. -/
  outboxes : List (String × Nat)
  services : Array Service
  /-- The services that can be told to stop, by name of their deployment. -/
  running : List (String × Nat)
  tasks : List (String × Nat)
  /-- How often each consumer was called. -/
  calls : Array Nat
  faults : List (StoreMethod × List String)
  traced : StoreMethod → Bool
  /-- The claims noted so far, in order. -/
  noted : List ClaimToken
  /-- What was noted during the step, the latest first. -/
  log : List LogEntry

/-- The value under a key replaced, or added. -/
def put {α β : Type} [BEq α] (key : α) (value : β) (entries : List (α × β)) : List (α × β) :=
  (key, value) :: entries.filter fun entry => !(entry.1 == key)

/-- The entries without those of a key. -/
def remove {α β : Type} [BEq α] (key : α) (entries : List (α × β)) : List (α × β) :=
  entries.filter fun entry => !(entry.1 == key)

namespace World

def initial (s : Scenario) : World where
  clock := s.start
  ticking := s.ticking
  elapsed := 0
  table := .empty
  units := []
  ids := s.ids
  drawn := 0
  claims := 0
  builds := #[]
  outboxes := []
  services := #[]
  running := []
  tasks := []
  calls := #[]
  faults := []
  traced := s.traced
  noted := []
  log := []

def now (w : World) : Instant :=
  if w.ticking then w.clock.plusOrSelf (.ofMillis w.elapsed) else w.clock

def note (w : World) (entry : LogEntry) : World := { w with log := entry :: w.log }

/-- Notes a call of the store, with the number of its claim. -/
def noteCall (w : World) (call : StoreCall) : World :=
  match call.claim? with
  | none => w.note (.call call none)
  | some claim =>
      let noted := if w.noted.contains claim then w.noted else w.noted ++ [claim]
      { w with noted := noted }.note (.call call (noted.idxOf? claim))

/-- The next entry of a method's plan of faults. -/
def takeFault (w : World) (method : StoreMethod) : Option String × World :=
  match w.faults.lookup method with
  | some (text :: rest) =>
      (if text.isEmpty then none else some text, { w with faults := put method rest w.faults })
  | _ => (none, w)

/-- A call of the store itself. -/
def ask (w : World) (call : StoreCall) : Except Failure call.Reply × World :=
  let (answer, table) := w.table.answer call
  (answer, { w with table := table })

/-- Lets a deployment's call of the store pass, or not: with the text of a planned fault. -/
def letPass (w : World) (call : StoreCall) : Option String × World :=
  (if w.traced call.method then w.noteCall call else w).takeFault call.method

/-- A claim that no step of the scenario names. -/
def freshClaim (w : World) : ClaimToken × World :=
  (⟨.ofParts 0xC1A1C1A1C1A1 w.claims⟩, { w with claims := w.claims + 1 })

def build? (w : World) (outbox : String) : Option (Nat × Build) := do
  let index ← w.outboxes.lookup outbox
  let build ← w.builds[index]?
  return (index, build)

/-- Draws an id for a message of a deployment. -/
def drawId (w : World) (index : Nat) : MessageId × World :=
  let drawn := w.drawn + 1
  match w.ids, w.builds[index]? with
  | .generated, some build =>
      let (id, generator) := build.generator.next w.now 0
      (⟨id⟩, { w with
        drawn := drawn
        builds := w.builds.setIfInBounds index { build with generator := generator } })
  | .scripted ids, _ => (ids[w.drawn]?.getD ⟨.ofParts 0 drawn⟩, { w with drawn := drawn })
  | .generated, none => (⟨.ofParts 0 drawn⟩, { w with drawn := drawn })

/-- Changes the service of that number. -/
def changeService (w : World) (number : Nat) (f : Service → Service) : World :=
  { w with services := w.services.modify number f }

end World

end Outbox.Simulation
