import Outbox.Simulation.World

/-! # Activities

What a task of a scenario does: it reads and changes the state, starts other tasks and waits. An
activity runs without interruption until it has to wait or has used up what it may do in one turn;
only then do other tasks get theirs.
-/

namespace Outbox.Simulation

/-- What a task is started for. -/
inductive Job
  /-- A consumer's call. -/
  | call (consumer : ScriptedConsumer) (tag : MessageType) (content : String)
  /-- A cycle in the background. -/
  | batch (build : Nat)
  /-- A processor's loop. -/
  | processor (build service : Nat)
  /-- A sweeper's loop. -/
  | sweeper (build service : Nat)

/-- How a task ends. -/
inductive Result
  | called (outcome : CallOutcome)
  | batch (report : Except Failure BatchReport)
  | finished

/-- What an activity can wait for. -/
inductive Wake
  /-- A virtual time in milliseconds. -/
  | time (millis : Nat)
  /-- The end of a task. -/
  | ended (task : Nat)
  /-- That a service is to stop. -/
  | stopSignal (service : Nat)

/-- What ended the waiting. -/
inductive Signal
  | elapsed
  | ended (result : Result)
  | stopRequested
  | abandoned

inductive Activity : Type → Type 1
  | done {α : Type} (a : α) : Activity α
  | act {α β : Type} (f : World → β × World) (resume : β → Activity α) : Activity α
  | spawn {α : Type} (job : Job) (resume : Nat → Activity α) : Activity α
  /-- Uses up some of what may be done in one turn. If nothing is left of that, the activity goes on
  in its next turn. -/
  | spend {α : Type} (units : Nat) (rest : Activity α) : Activity α
  /-- Waits for the first of several things. -/
  | await {α : Type} (wakes : List Wake) (resume : Signal → Activity α) : Activity α
  /-- Repeats a body until it answers something else than the state for its next round. -/
  | loop {α β σ : Type} (state : σ) (body : σ → Activity (σ ⊕ β)) (resume : β → Activity α) :
      Activity α

namespace Activity

variable {α β : Type}

def bind : Activity α → (α → Activity β) → Activity β
  | done a, next => next a
  | act f resume, next => act f fun b => (resume b).bind next
  | spawn job resume, next => spawn job fun task => (resume task).bind next
  | spend units rest, next => spend units (rest.bind next)
  | await wakes resume, next => await wakes fun signal => (resume signal).bind next
  | loop state body resume, next => loop state body fun b => (resume b).bind next

instance : Monad Activity where
  pure := done
  bind := bind

def doing (f : World → α × World) : Activity α := act f done

def reading (f : World → α) : Activity α := act (fun w => (f w, w)) done

def changing (f : World → World) : Activity Unit := act (fun w => ((), f w)) done

def start (job : Job) : Activity Nat := spawn job done

def waitFor (wakes : List Wake) : Activity Signal := await wakes done

/-- Goes on in the next turn if nothing more may be done in this one. -/
def checkIn : Activity Unit := spend 0 (done ())

/-- Does something with the table, which takes one unit of what may be done in one turn. -/
def withTable (f : World → α × World) : Activity α := spend 1 (doing f)

/-- Repeats a body, from a state on. -/
def repeating {σ : Type} (state : σ) (body : σ → Activity (σ ⊕ α)) : Activity α :=
  loop state body done

/-- Waits until as many milliseconds have passed. -/
def sleep (millis : Nat) : Activity Unit := do
  let began ← reading World.elapsed
  let _ ← waitFor [.time (began + millis)]
  return ()

end Activity

end Outbox.Simulation
