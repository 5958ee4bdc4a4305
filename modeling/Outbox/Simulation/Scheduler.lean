import Outbox.Simulation.Behavior

/-! # Taking turns in virtual time

The steps of a scenario are taken by the main line. While it waits, the tasks that can go on do so
in the order in which they became able to; the main line goes on when none of them can, or after it
has let enough of them pass. What may be done in one turn is limited: a task that has used up its
allowance lets the others of the round go first. Virtual time stands still as long as anything can
be done, and then jumps to the next time that anybody waits for.
-/

namespace Outbox.Simulation

/-- How far an activity came in one turn. -/
inductive Progress (α : Type) : Type 1
  | finished (a : α)
  /-- The allowance is used up. -/
  | passing (rest : Activity α)
  /-- Nothing of what it waits for has come to pass. -/
  | waiting (rest : Activity α)

inductive TaskState : Type 1
  | underWay (rest : Activity Result)
  | ended (result : Result)

structure Engine : Type 1 where
  world : World
  tasks : Array TaskState
  /-- The tasks that can go on, in order. -/
  queue : List Nat
  /-- The tasks that wait for something, the longest waiting first. -/
  idle : List Nat
  /-- The tasks that let others go first, the latest of them first. -/
  passing : List Nat
  /-- What the main line may still do before it lets others go first. -/
  allowance : Nat

/-- What an activity waits for before all else. -/
def Activity.wakes {α : Type} : Activity α → List Wake
  | await wakes _ => wakes
  | _ => []

namespace Engine

/-- How many turns of tasks make a round, after which the main line is looked at. -/
def roundLength : Nat := 61

/-- How many units an activity may use up in one turn. -/
def fullAllowance : Nat := 128

/-- How many things can be done in one turn, whether they use up anything or not. -/
def turnLength : Nat := 1000000

def start (s : Scenario) : Engine := ⟨World.initial s, #[], [], [], [], fullAllowance⟩

/-- The signal of a wake that has come to pass. -/
def signal? (e : Engine) : Wake → Option Signal
  | .time millis => if millis ≤ e.world.elapsed then some .elapsed else none
  | .ended task =>
      match e.tasks[task]? with
      | some (.ended result) => some (.ended result)
      | _ => none
  | .stopSignal number =>
      match e.world.services[number]? with
      | none => some .abandoned
      | some s =>
          if s.stopRequested then some .stopRequested
          else if s.abandoned then some .abandoned
          else none

/-- What a task waits for. -/
def wakesOf (e : Engine) (number : Nat) : List Wake :=
  match e.tasks[number]? with
  | some (.underWay rest) => rest.wakes
  | _ => []

/-- One of these wakes has come to pass. -/
def isWoken (e : Engine) (wakes : List Wake) : Bool := (wakes.findSome? e.signal?).isSome

/-- Puts the idle tasks into the queue that can go on by now. -/
def awaken (e : Engine) : Engine :=
  let (ready, idle) := e.idle.partition fun number => e.isWoken (e.wakesOf number)
  { e with queue := e.queue ++ ready, idle := idle }

/-- Does what can be done in one turn with what is left of the allowance. -/
def poll {α : Type} : Nat → Nat → Activity α → Engine → Progress α × Nat × Engine
  | 0, left, rest, e => (.passing rest, left, e)
  | length + 1, left, activity, e =>
      match activity with
      | .done a => (.finished a, left, e)
      | .act f resume =>
          let (b, world) := f e.world
          poll length left (resume b) { e with world := world }.awaken
      | .spawn job resume =>
          let number := e.tasks.size
          poll length left (resume number) { e with
            tasks := e.tasks.push (.underWay (.working job))
            queue := e.queue ++ [number] }
      | .spend units rest =>
          if left = 0 then (.passing (.spend units rest), left, e)
          else poll length (left - units) rest e
      | .await wakes resume =>
          if left = 0 then (.passing (.await wakes resume), left, e)
          else match wakes.findSome? e.signal? with
            | some signal => poll length (left - 1) (resume signal) e
            | none => (.waiting (.await wakes resume), left, e)
      | .loop state body resume =>
          let round := (body state).bind fun
            | .inl state => .loop state body resume
            | .inr b => resume b
          poll length left round e

/-- Gives a task its turn. -/
def turn (e : Engine) (number : Nat) : Engine :=
  match e.tasks[number]? with
  | some (.underWay rest) =>
      match poll turnLength fullAllowance rest e with
      | (.finished result, _, e) =>
          { e with tasks := e.tasks.setIfInBounds number (.ended result) }.awaken
      | (.passing rest, _, e) =>
          { e with
            tasks := e.tasks.setIfInBounds number (.underWay rest)
            passing := number :: e.passing }
      | (.waiting rest, _, e) =>
          { e with
            tasks := e.tasks.setIfInBounds number (.underWay rest)
            idle := e.idle ++ [number] }
  | _ => e

/-- Lets the main line do what it can with an allowance. -/
def turnOfMain {α : Type} (e : Engine) (allowance : Nat) (activity : Activity α) :
    Progress α × Engine :=
  let (progress, left, e) := poll turnLength allowance activity e
  (progress, { e with allowance := left })

/-- Ends a round: the tasks that let others go first can go on. -/
def nextRound (e : Engine) : Engine := { e with queue := e.queue ++ e.passing, passing := [] }

/-- The next virtual time that is waited for. -/
def deadline? (e : Engine) (main : List Wake) : Option Nat :=
  let times := (main ++ e.idle.flatMap e.wakesOf).filterMap fun
    | .time millis => some millis
    | _ => none
  times.min?

/-- Moves virtual time forward. -/
def moveTo (e : Engine) (millis : Nat) : Engine :=
  { e with world := { e.world with elapsed := max e.world.elapsed millis } }.awaken

/-- Carries the main line through to the end of an activity. Each turn takes one of the `fuel`, and
the round has as many turns to go as it says. -/
def complete {α : Type} : Nat → Nat → Progress α → Engine → Option α × Engine
  | _, _, .finished a, e => (some a, e)
  | 0, _, _, e => (none, e)
  | fuel + 1, toGo, progress, e =>
      match e.queue, toGo with
      | number :: rest, toGo + 1 =>
          complete fuel toGo progress ({ e with queue := rest }.turn number)
      | _, _ =>
          let e := e.nextRound
          let goOn (rest : Activity α) : Option α × Engine :=
            let (progress, e) := e.turnOfMain fullAllowance rest
            complete fuel roundLength progress e
          match progress with
          | .finished a => (some a, e)
          | .passing rest => goOn rest
          | .waiting rest =>
              if e.isWoken rest.wakes then goOn rest
              else if e.queue.isEmpty then
                match e.deadline? rest.wakes with
                | none => (none, e)
                | some millis => complete fuel 0 (.waiting rest) (e.moveTo millis)
              else complete fuel roundLength (.waiting rest) e

/-- Takes a step and reports what is known after it. -/
def step (fuel : Nat) (e : Engine) (s : Step) : StepReport × Engine :=
  let (progress, e) := e.turnOfMain e.allowance (.reporting s)
  let (report, e) := complete fuel roundLength progress e
  (report.getD ⟨.nothing, e.world.table.counts, e.world.log.reverse⟩, e)

end Engine

/-- Takes all steps of a scenario. A step that takes more than `fuel` turns answers nothing. -/
def Scenario.run (s : Scenario) (fuel : Nat) : List StepReport :=
  go s.steps (.start s)
where
  go : List Step → Engine → List StepReport
    | [], _ => []
    | step :: rest, e =>
        let (report, e) := e.step fuel step
        report :: go rest e

end Outbox.Simulation
