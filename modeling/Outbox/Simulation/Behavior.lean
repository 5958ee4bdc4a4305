import Outbox.Simulation.Activity

/-! # What steps and tasks do

Routines are run by answering their requests from the state of the scenario. A dispatch starts a
task for each consumer's call and waits for its end, and renews the claim every now and then
meanwhile.
-/

namespace Outbox.Simulation

namespace Activity

/-- Calls a consumer in a task of its own. -/
def call (k : ScriptedConsumer) (tag : MessageType) (content : String) : Activity CallOutcome := do
  let task ← start (.call k tag content)
  match ← waitFor [.ended task] with
  | .ended (.called outcome) => return outcome
  | _ => return .panicked none

/-- A call of the store itself. -/
def askStore (call : StoreCall) : Activity (Except Failure call.Reply) :=
  withTable fun w => w.ask call

/-- A call of the store as deployments see it. -/
def askGuarded (call : StoreCall) : Activity (Except Failure call.Reply) := do
  match ← doing fun w => w.letPass call with
  | some text => return .error (.unavailable text)
  | none => askStore call

/-- Calls a consumer in the course of a dispatch that began at a virtual time, and renews the claim
at each beat until the call has ended. The next beat is kept in the state. -/
def callKeeping (heartbeat : Heartbeat) (began : Nat) (k : ScriptedConsumer) (tag : MessageType)
    (content : String) : StateT Nat Activity CallOutcome := fun beat => do
  let task ← start (.call k tag content)
  repeating beat fun beat => do
    let due := began + (Duration.mk (beat * heartbeat.period.nanos)).ceilMillis
    match ← waitFor [.ended task, .time due] with
    | .ended (.called outcome) => return .inr (outcome, beat)
    | .elapsed => do
        let now ← reading World.now
        let _ ← askGuarded (heartbeat.renewal now)
        checkIn
        return .inl (beat + 1)
    | _ => return .inr (.panicked none, beat)

/-- Has a message dispatched to the consumers of a deployment, and its claim renewed meanwhile. -/
def dispatchKeeping (registry : Registry ScriptedConsumer) (message : Message)
    (heartbeat : Heartbeat) : Activity (Except Failure DispatchOutcome) := do
  checkIn
  let began ← reading World.elapsed
  let dispatched := registry.dispatch (callKeeping heartbeat began) message.tag message.content
  return (← dispatched.run 1).1

/-- Runs a routine of a deployment, whose loops a service can stop. -/
def running {α : Type} (registry : Registry ScriptedConsumer) (service : Option Nat)
    (routine : Routine α) : Activity α :=
  routine.run fun q => match q with
    | .now => reading World.now
    | .store call => askGuarded call
    | .stopRequested => reading fun w =>
        ((service.bind (w.services[·]?)).map Service.stopRequested).getD false
    | .dispatch message heartbeat => dispatchKeeping registry message heartbeat

/-- Runs something with the deployment of that name. -/
def withBuild (outbox : String) (f : Nat → Build → Activity Outcome) : Activity Outcome := do
  match ← reading (·.build? outbox) with
  | none => return .lacking ("no outbox " ++ outbox)
  | some (index, build) => f index build

/-- Runs something with the open unit of work of that name. -/
def withUnit (unit : String) (f : UnitOfWork → Activity Outcome) : Activity Outcome := do
  match ← reading (·.units.lookup unit) with
  | none => return .lacking "no such tx"
  | some u => f u

def withService (outbox : String) (f : Nat → Service → Activity Outcome) : Activity Outcome := do
  let found ← reading fun w => do
    let number ← w.running.lookup outbox
    return (number, ← w.services[number]?)
  match found with
  | none => return .lacking "no service"
  | some (number, service) => f number service

def time : Activity Outcome := do return .time (← reading World.now)

/-- Commits a unit of work to the table. -/
def commit (u : UnitOfWork) : Activity (Except Failure Unit) :=
  withTable fun w => match u.commit w.table with
    | .error failure => (.error failure, w)
    | .ok table => (.ok (), { w with table := table })

/-- One cycle of a deployment, under a new claim. -/
def cycle (build : Build) (service : Option Nat) : Activity (Except Failure BatchReport) := do
  let claim ← doing World.freshClaim
  running build.deployment.registry service (build.deployment.processor.cycle claim)

/-- Enqueues a payload in a unit of work, which is left as it was if that fails. -/
def enqueue (index : Nat) (u : UnitOfWork) (tag : MessageType) (payload : Payload)
    (scheduledAt : Option Instant) : Activity (Except Failure (MessageId × UnitOfWork)) :=
  doing fun w =>
    let draw : StateM (World × UnitOfWork) MessageId := fun (w, u) =>
      let (id, w) := w.drawId index
      (id, (w, u))
    let clock : StateM (World × UnitOfWork) Instant := fun (w, u) => (w.now, (w, u))
    let insert (m : Message) : StateM (World × UnitOfWork) (Except Failure Unit) := fun (w, u) =>
      match u.insert m with
      | .ok u => (.ok (), (w, u))
      | .error failure => (.error failure, (w, u))
    let (id, (w, u)) := (Writer.enqueue draw clock insert tag payload scheduledAt) (w, u)
    (id.map fun id => (id, u), w)

/-- Registers consumers one after the other, numbered from the first free number on. -/
def register (first : Nat) (blueprint : Blueprint ScriptedConsumer) :
    List Registration → Except RegistryError (Blueprint ScriptedConsumer)
  | [] => .ok blueprint
  | ⟨tag, name, label, intake, script⟩ :: rest => do
      let blueprint ← blueprint.register tag ⟨name, label, intake, script, first⟩
      register (first + 1) blueprint rest

def build (outbox : String) (config : Config) (consumers : List Registration)
    (expected : Option (List MessageType)) (w : World) : Outcome × World :=
  let first := w.calls.size
  match register first { Blueprint.empty with config := config } consumers with
  | .error error => (.notRegistered error, w)
  | .ok blueprint =>
      match (blueprint.expect (expected.getD [])).build with
      | .error error => (.notAssembled error, w)
      | .ok deployment =>
          let registry := deployment.registry
          (.built registry.registeredTypes registry.size config.batchSize config.lease,
            { w with
              builds := w.builds.push ⟨deployment, .start⟩
              outboxes := put outbox w.builds.size w.outboxes
              calls := w.calls ++ Array.replicate consumers.length 0 })

/-- The loops of a deployment, in place of those under way. -/
def startService (outbox : String) (index : Nat) : Activity Outcome := do
  let number ← reading fun w => w.services.size
  let processor ← start (.processor index number)
  let sweeper ← start (.sweeper index number)
  changing fun w =>
    let w := match w.running.lookup outbox with
      | some old => w.changeService old fun s => { s with abandoned := true }
      | none => w
    { w with
      services := w.services.push ⟨false, false, processor, sweeper⟩
      running := put outbox number w.running }
  return .nothing

/-- Inserts messages in a unit of work of their own. -/
def insertAll (messages : List Message) : Activity Outcome := do
  match messages.foldlM UnitOfWork.insert UnitOfWork.empty with
  | .error failure => return .failed failure
  | .ok u => return .ofResult (fun _ => .nothing) (← commit u)

def requestStop (number : Nat) : Activity Unit :=
  changing fun w => w.changeService number fun s => { s with stopRequested := true }

/-- Takes a step. -/
def taking : Step → Activity Outcome
  | .refused kind message => return .refused kind message
  | .build outbox config consumers expected => doing (build outbox config consumers expected)
  | .consumersFor outbox tag => withBuild outbox fun _ b =>
      return .names ((b.deployment.registry.consumersFor tag).map ScriptedConsumer.name)
  | .fault method plan => do
      changing fun w => { w with faults := put method plan w.faults }
      return .nothing
  | .advance nanos => doing fun w =>
      match w.clock.shift? nanos with
      | none => (.clockOverflow, w)
      | some clock =>
          let w := { w with clock := clock }
          (.time w.now, w)
  | .set clock => do
      changing fun w => { w with clock := clock }
      time
  | .now => time
  | .sleep millis => do
      sleep millis
      time
  | .begin unit => do
      changing fun w => { w with units := put unit .empty w.units }
      return .nothing
  | .putEntity unit key value => withUnit unit fun u => do
      changing fun w => { w with units := put unit (u.putEntity key value) w.units }
      return .nothing
  | .insertInto unit message => withUnit unit fun u => do
      match u.insert message with
      | .error failure => return .failed failure
      | .ok u =>
          changing fun w => { w with units := put unit u w.units }
          return .nothing
  | .commit unit => withUnit unit fun u => do
      changing fun w => { w with units := remove unit w.units }
      return .ofResult (fun _ => .nothing) (← commit u)
  | .rollback unit => withUnit unit fun _ => do
      changing fun w => { w with units := remove unit w.units }
      return .nothing
  | .enqueue outbox unit tag payload scheduledAt => withBuild outbox fun index _ => do
      match unit with
      | some unit => withUnit unit fun u => do
          match ← enqueue index u tag payload scheduledAt with
          | .error failure => return .failed failure
          | .ok (id, u) =>
              changing fun w => { w with units := put unit u w.units }
              return .id id
      | none =>
          match ← enqueue index .empty tag payload scheduledAt with
          | .error failure => return .failed failure
          | .ok (id, u) => return .ofResult (fun _ => .id id) (← commit u)
  | .insert messages => insertAll messages
  | .entity key => withTable fun w => (.entity (w.table.entity? key), w)
  | .call at_ => do
      let call := at_ (← reading World.now)
      return .reply call (← askStore call)
  | .dump => withTable fun w => (.messages w.table.schedule, w)
  | .process outbox => withBuild outbox fun _ b => do
      return .ofResult .report (← cycle b none)
  | .processTask outbox task => withBuild outbox fun index _ => do
      let number ← start (.batch index)
      changing fun w => { w with tasks := put task number w.tasks }
      return .nothing
  | .joinTask task => do
      match ← reading (·.tasks.lookup task) with
      | none => return .lacking "no such task"
      | some number =>
          changing fun w => { w with tasks := remove task w.tasks }
          match ← waitFor [.ended number] with
          | .ended (.batch report) => return .ofResult .report report
          | _ => return .nothing
  | .dispatch outbox tag content => withBuild outbox fun _ b => do
      return .ofResult .dispatched (← b.deployment.registry.dispatch call tag content)
  | .sweep outbox => withBuild outbox fun _ b => do
      return .ofResult .count (← running b.deployment.registry none b.deployment.sweeper.sweep)
  | .sweepWith retention => do
      return .ofResult .count (← running .empty none (Sweeper.mk retention .zero).sweep)
  | .status outbox minRetryCount limit => withBuild outbox fun _ b => do
      let registry := b.deployment.registry
      return .ofResult .status
        (← running registry none (Status.collect registry minRetryCount limit))
  | .storeGet id => do
      return .ofResult .message (← running .empty none (Routine.store (.get id)))
  | .start outbox => withBuild outbox fun index _ => startService outbox index
  | .requestShutdown outbox => withService outbox fun number _ => do
      requestStop number
      return .flag true
  | .isShutdownRequested outbox => withService outbox fun _ s => return .flag s.stopRequested
  | .shutdown outbox => withService outbox fun number s => do
      changing fun w => { w with running := remove outbox w.running }
      requestStop number
      let _ ← waitFor [.ended s.processor]
      let _ ← waitFor [.ended s.sweeper]
      time
  | .dropService outbox => do
      match ← reading (·.running.lookup outbox) with
      | none => return .flag false
      | some number =>
          changing fun w => { w.changeService number (fun s => { s with abandoned := true }) with
            running := remove outbox w.running }
          return .flag true

/-- The text occurs in another one. -/
def occurs (part whole : List Char) : Bool :=
  match whole with
  | [] => part.isEmpty
  | _ :: rest => part.isPrefixOf whole || occurs part rest

/-- Does what a script says of one call. An action that the clock cannot follow breaks it off. -/
def following (k : ScriptedConsumer) (tag : MessageType) (seen : Json) :
    List Action → Activity CallOutcome
  | [] => return .succeeded
  | .fail error :: _ => return .ofReport tag (.error error)
  | .failIfSeen text :: rest =>
      if occurs text.toList seen.toText.toList then
        return .ofReport tag (.error ⟨"saw " ++ text⟩)
      else following k tag seen rest
  | .panic payload :: _ => return .panicked payload
  | .take name step :: rest => do
      match ← taking step with
      | .clockOverflow => return .panicked (some clockComplaint)
      | outcome =>
          changing fun w => w.note (.action k.label name outcome)
          following k tag seen rest

/-- A consumer's call. -/
def calling (k : ScriptedConsumer) (tag : MessageType) (content : String) :
    Activity CallOutcome := do
  match k.consumer.consume tag content with
  | .error failure => return .failed failure
  | .ok shown =>
      let number ← doing fun w =>
        let number := w.calls[k.number]?.getD 0
        let w := { w with calls := w.calls.modify k.number (· + 1) }
        (number, w.note (.consumer k.label number w.now shown))
      following k tag shown.sorted ((k.script[number]?.or k.script.getLast?).getD [])

/-- Rounds of a loop that a service can stop, until one of them is the last. -/
def rounds (service : Nat) (round : Activity Next) : Activity Result :=
  repeating () fun () => do
    match ← round with
    | .stop => return .inr .finished
    | .again => return .inl ()
    | .pause length => do
        checkIn
        let began ← reading World.elapsed
        match ← waitFor [.time (began + length.ceilMillis), .stopSignal service] with
        | .abandoned => return .inr .finished
        | _ => return .inl ()

/-- What a task does for its job. -/
def working : Job → Activity Result
  | .call k tag content => do return .called (← calling k tag content)
  | .batch index => do
      match ← reading fun w => w.builds[index]? with
      | none => return .finished
      | some b => return .batch (← cycle b none)
  | .processor index service => do
      match ← reading fun w => w.builds[index]? with
      | none => return .finished
      | some b => rounds service do
          let claim ← doing World.freshClaim
          running b.deployment.registry (some service) (b.deployment.processor.round claim)
  | .sweeper index service => do
      match ← reading fun w => w.builds[index]? with
      | none => return .finished
      | some b => rounds service do
          running b.deployment.registry (some service) b.deployment.sweeper.round

/-- Takes a step and reports what is known after it. -/
def reporting (s : Step) : Activity StepReport := do
  let outcome ← taking s
  withTable fun w => (⟨outcome, w.table.counts, w.log.reverse⟩, { w with log := [] })

end Activity

end Outbox.Simulation
