import Outbox.Proofs.Phases
import Outbox.Proofs.Rows
import Mathlib.Logic.Function.Basic

/-! # Cycles side by side

Any number of cycles work on one table, each under a claim of its own. Their steps are as small as
they can be told apart: a cycle reads the clock, a call takes effect, a consumer has answered.
Between two steps of a cycle anything may happen: steps of other cycles and of its own heartbeat,
calls made by others, commits. A call may fail before or after it took effect. A cycle that is
given no further step has crashed.
-/

namespace Outbox

/-- What becomes of a call of the store. -/
inductive Fate
  | served
  /-- The call takes effect, but its reply is lost. -/
  | cutOff (failure : Failure)
  | refused (failure : Failure)

namespace Fate

def reaches : Fate → Bool
  | refused _ => false
  | _ => true

def reply (fate : Fate) (t : Table) (call : StoreCall) : Except Failure call.Reply :=
  match fate with
  | served => (t.answer call).1
  | cutOff failure | refused failure => .error failure

def table (fate : Fate) (t : Table) (call : StoreCall) : Table :=
  if fate.reaches then (t.answer call).2 else t

end Fate

structure Worker where
  processor : Processor
  rest : Routine (Except Failure BatchReport)
  /-- The time read at a heartbeat, as long as the renewal at it has not been made. -/
  beat : Option Instant

/-- The cycles that have been begun, by their claims, and the table they share. -/
structure Fleet where
  table : Table
  workers : ClaimToken → Option Worker

inductive Event
  | idle
  /-- A processor begins a cycle, under a claim that no cycle has had before. -/
  | begin (claim : ClaimToken) (processor : Processor)
  | time (claim : ClaimToken) (now : Instant)
  | stopFlag (claim : ClaimToken) (requested : Bool)
  | store (claim : ClaimToken) (fate : Fate)
  | delivery (claim : ClaimToken) (outcome : Except Failure DispatchOutcome)
  /-- A heartbeat in the course of the cycle's dispatch reads the clock. -/
  | beat (claim : ClaimToken) (now : Instant)
  /-- The renewal at that heartbeat is made. -/
  | renewal (claim : ClaimToken) (fate : Fate)
  /-- Somebody else, such as a sweeper, calls the store. -/
  | outside (call : StoreCall)
  | commit (unit : UnitOfWork)

def Event.claim? : Event → Option ClaimToken
  | begin claim _ | time claim _ | stopFlag claim _ | store claim _ | delivery claim _
  | beat claim _ | renewal claim _ => some claim
  | _ => none

/-- What the clock shows in the event, if it is read. -/
def Event.reading? : Event → Option Instant
  | time _ now | beat _ now => some now
  | _ => none

def Event.outside? : Event → Option StoreCall
  | outside call => some call
  | _ => none

def Event.commit? : Event → Option UnitOfWork
  | commit u => some u
  | _ => none

namespace Fleet

def put (s : Fleet) (claim : ClaimToken) (w : Worker) : Fleet :=
  { s with workers := Function.update s.workers claim (some w) }

/-- The state after an event, if that can happen. -/
def step (s : Fleet) : Event → Option Fleet
  | .idle => some s
  | .begin claim p =>
      match s.workers claim with
      | none => some (s.put claim ⟨p, p.cycle claim, none⟩)
      | some _ => none
  | .time claim now =>
      match s.workers claim with
      | some ⟨p, .ask .now goOn, none⟩ => some (s.put claim ⟨p, goOn now, none⟩)
      | _ => none
  | .stopFlag claim requested =>
      match s.workers claim with
      | some ⟨p, .ask .stopRequested goOn, none⟩ => some (s.put claim ⟨p, goOn requested, none⟩)
      | _ => none
  | .store claim fate =>
      match s.workers claim with
      | some ⟨p, .ask (.store call) goOn, none⟩ =>
          some (put { s with table := fate.table s.table call } claim
            ⟨p, goOn (fate.reply s.table call), none⟩)
      | _ => none
  | .delivery claim outcome =>
      match s.workers claim with
      | some ⟨p, .ask (.dispatch _ _) goOn, none⟩ => some (s.put claim ⟨p, goOn outcome, none⟩)
      | _ => none
  | .beat claim now =>
      match s.workers claim with
      | some ⟨p, .ask (.dispatch message heartbeat) goOn, none⟩ =>
          some (s.put claim ⟨p, .ask (.dispatch message heartbeat) goOn, some now⟩)
      | _ => none
  | .renewal claim fate =>
      match s.workers claim with
      | some ⟨p, .ask (.dispatch message heartbeat) goOn, some now⟩ =>
          some (put { s with table := fate.table s.table (heartbeat.renewal now) } claim
            ⟨p, .ask (.dispatch message heartbeat) goOn, none⟩)
      | _ => none
  | .outside call => some { s with table := (s.table.answer call).2 }
  | .commit u =>
      match u.commit s.table with
      | .ok table => some { s with table := table }
      | .error _ => some s

def request? (s : Fleet) (claim : ClaimToken) : Option Request :=
  (s.workers claim).bind fun w => w.rest.request?

/-- What the cycle of the claim has come to, once it has ended. -/
def result? (s : Fleet) (claim : ClaimToken) : Option (Except Failure BatchReport) :=
  (s.workers claim).bind fun w => w.rest.result?

/-- The events that can happen, each with what it takes and what it leads to. -/
inductive Move (s : Fleet) : Event → Fleet → Prop
  | idle : Move s .idle s
  | begin {claim : ClaimToken} {p : Processor} (hfresh : s.workers claim = none) :
      Move s (.begin claim p) (s.put claim ⟨p, p.cycle claim, none⟩)
  | time {claim : ClaimToken} {now : Instant} {p : Processor}
      {goOn : Instant → Routine (Except Failure BatchReport)}
      (hat : s.workers claim = some ⟨p, .ask .now goOn, none⟩) :
      Move s (.time claim now) (s.put claim ⟨p, goOn now, none⟩)
  | stopFlag {claim : ClaimToken} {requested : Bool} {p : Processor}
      {goOn : Bool → Routine (Except Failure BatchReport)}
      (hat : s.workers claim = some ⟨p, .ask .stopRequested goOn, none⟩) :
      Move s (.stopFlag claim requested) (s.put claim ⟨p, goOn requested, none⟩)
  | store {claim : ClaimToken} {fate : Fate} {p : Processor} {call : StoreCall}
      {goOn : Except Failure call.Reply → Routine (Except Failure BatchReport)}
      (hat : s.workers claim = some ⟨p, .ask (.store call) goOn, none⟩) :
      Move s (.store claim fate) (put { s with table := fate.table s.table call } claim
        ⟨p, goOn (fate.reply s.table call), none⟩)
  | delivery {claim : ClaimToken} {outcome : Except Failure DispatchOutcome} {p : Processor}
      {message : Message} {heartbeat : Heartbeat}
      {goOn : Except Failure DispatchOutcome → Routine (Except Failure BatchReport)}
      (hat : s.workers claim = some ⟨p, .ask (.dispatch message heartbeat) goOn, none⟩) :
      Move s (.delivery claim outcome) (s.put claim ⟨p, goOn outcome, none⟩)
  | beat {claim : ClaimToken} {now : Instant} {p : Processor}
      {message : Message} {heartbeat : Heartbeat}
      {goOn : Except Failure DispatchOutcome → Routine (Except Failure BatchReport)}
      (hat : s.workers claim = some ⟨p, .ask (.dispatch message heartbeat) goOn, none⟩) :
      Move s (.beat claim now)
        (s.put claim ⟨p, .ask (.dispatch message heartbeat) goOn, some now⟩)
  | renewal {claim : ClaimToken} {fate : Fate} {now : Instant} {p : Processor}
      {message : Message} {heartbeat : Heartbeat}
      {goOn : Except Failure DispatchOutcome → Routine (Except Failure BatchReport)}
      (hat : s.workers claim = some ⟨p, .ask (.dispatch message heartbeat) goOn, some now⟩) :
      Move s (.renewal claim fate)
        (put { s with table := fate.table s.table (heartbeat.renewal now) } claim
          ⟨p, .ask (.dispatch message heartbeat) goOn, none⟩)
  | outside {call : StoreCall} : Move s (.outside call) { s with table := (s.table.answer call).2 }
  | committed {u : UnitOfWork} {t : Table} (hcommit : u.commit s.table = .ok t) :
      Move s (.commit u) { s with table := t }
  | rejected {u : UnitOfWork} {failure : Failure} (hcommit : u.commit s.table = .error failure) :
      Move s (.commit u) s

theorem move_of_step {s s' : Fleet} {e : Event} (hstep : s.step e = some s') : s.Move e s' := by
  cases e with
  | idle => cases hstep; exact .idle
  | begin claim p =>
      simp only [step] at hstep
      split at hstep
      next hfresh => cases hstep; exact .begin hfresh
      next => cases hstep
  | time claim now =>
      simp only [step] at hstep
      split at hstep
      next hat => cases hstep; exact .time hat
      next => cases hstep
  | stopFlag claim requested =>
      simp only [step] at hstep
      split at hstep
      next hat => cases hstep; exact .stopFlag hat
      next => cases hstep
  | store claim fate =>
      simp only [step] at hstep
      split at hstep
      next hat => cases hstep; exact .store hat
      next => cases hstep
  | delivery claim outcome =>
      simp only [step] at hstep
      split at hstep
      next hat => cases hstep; exact .delivery hat
      next => cases hstep
  | beat claim now =>
      simp only [step] at hstep
      split at hstep
      next hat => cases hstep; exact .beat hat
      next => cases hstep
  | renewal claim fate =>
      simp only [step] at hstep
      split at hstep
      next hat => cases hstep; exact .renewal hat
      next => cases hstep
  | outside call => cases hstep; exact .outside
  | commit u =>
      simp only [step] at hstep
      split at hstep
      next hcommit => cases hstep; exact .committed hcommit
      next hcommit => cases hstep; exact .rejected hcommit

/-! ### What a step does to a cycle -/

/-- How an event answers the request that the cycle waits with. -/
inductive Answers (s : Fleet) (claim : ClaimToken) : Event → (q : Request) → q.Answer → Prop
  | time (now : Instant) : Answers s claim (.time claim now) .now now
  | stopFlag (requested : Bool) :
      Answers s claim (.stopFlag claim requested) .stopRequested requested
  | store (fate : Fate) (call : StoreCall) :
      Answers s claim (.store claim fate) (.store call) (fate.reply s.table call)
  | delivery (outcome : Except Failure DispatchOutcome) (message : Message)
      (heartbeat : Heartbeat) :
      Answers s claim (.delivery claim outcome) (.dispatch message heartbeat) outcome

/-- What an event does to a cycle under way. -/
inductive Turn (s : Fleet) (claim : ClaimToken) (e : Event) : Worker → Worker → Prop
  | stays (w : Worker) (hother : e.claim? ≠ some claim) : Turn s claim e w w
  | goesOn {p : Processor} {q : Request}
      {goOn : q.Answer → Routine (Except Failure BatchReport)} {answer : q.Answer}
      (hanswer : s.Answers claim e q answer) :
      Turn s claim e ⟨p, .ask q goOn, none⟩ ⟨p, goOn answer, none⟩
  | beats {p : Processor} {message : Message} {heartbeat : Heartbeat} {now : Instant}
      {goOn : Except Failure DispatchOutcome → Routine (Except Failure BatchReport)}
      (hevent : e = .beat claim now) :
      Turn s claim e ⟨p, .ask (.dispatch message heartbeat) goOn, none⟩
        ⟨p, .ask (.dispatch message heartbeat) goOn, some now⟩
  | renews {p : Processor} {message : Message} {heartbeat : Heartbeat} {now : Instant}
      {fate : Fate} {goOn : Except Failure DispatchOutcome → Routine (Except Failure BatchReport)}
      (hevent : e = .renewal claim fate) :
      Turn s claim e ⟨p, .ask (.dispatch message heartbeat) goOn, some now⟩
        ⟨p, .ask (.dispatch message heartbeat) goOn, none⟩

section Steps

variable {s s' : Fleet} {e : Event} {claim : ClaimToken}

@[simp] theorem put_workers_self (s : Fleet) (claim : ClaimToken) (w : Worker) :
    (s.put claim w).workers claim = some w := Function.update_self ..

theorem put_workers_of_ne (s : Fleet) {claim other : ClaimToken} (hne : other ≠ claim)
    (w : Worker) : (s.put claim w).workers other = s.workers other :=
  Function.update_of_ne hne ..

/-- A step of one cycle leaves the others where they are. -/
theorem Move.frame (hmove : s.Move e s') (hother : e.claim? ≠ some claim) :
    s'.workers claim = s.workers claim := by
  cases hmove with
  | idle | outside | committed | rejected => rfl
  | begin | time | stopFlag | store | delivery | beat | renewal =>
      exact put_workers_of_ne _ (fun heq => hother (congrArg some heq.symm)) _

/-- A cycle that was not there before has just begun. -/
theorem Move.begun {w : Worker} (hmove : s.Move e s') (hnone : s.workers claim = none)
    (hw : s'.workers claim = some w) :
    e = .begin claim w.processor ∧ w = ⟨w.processor, w.processor.cycle claim, none⟩ := by
  by_cases hown : e.claim? = some claim
  · cases hmove with
    | begin =>
        cases hown
        rw [put_workers_self] at hw
        cases hw
        exact ⟨rfl, rfl⟩
    | time hat | stopFlag hat | store hat | delivery hat | beat hat | renewal hat =>
        cases hown
        cases hnone.symm.trans hat
    | idle | outside | committed | rejected => cases hown
  · rw [hmove.frame hown, hnone] at hw
    cases hw

/-- A cycle that is there takes part in the move, or stays as it is. -/
theorem Move.turn {w : Worker} (hmove : s.Move e s') (hw : s.workers claim = some w) :
    ∃ w', s'.workers claim = some w' ∧ s.Turn claim e w w' := by
  by_cases hown : e.claim? = some claim
  · cases hmove with
    | begin hfresh =>
        cases hown
        cases hfresh.symm.trans hw
    | time hat =>
        cases hown
        cases hat.symm.trans hw
        exact ⟨_, put_workers_self .., .goesOn (.time _)⟩
    | stopFlag hat =>
        cases hown
        cases hat.symm.trans hw
        exact ⟨_, put_workers_self .., .goesOn (.stopFlag _)⟩
    | store hat =>
        cases hown
        cases hat.symm.trans hw
        exact ⟨_, put_workers_self .., .goesOn (.store ..)⟩
    | delivery hat =>
        cases hown
        cases hat.symm.trans hw
        exact ⟨_, put_workers_self .., .goesOn (.delivery ..)⟩
    | beat hat =>
        cases hown
        cases hat.symm.trans hw
        exact ⟨_, put_workers_self .., .beats rfl⟩
    | renewal hat =>
        cases hown
        cases hat.symm.trans hw
        exact ⟨_, put_workers_self .., .renews rfl⟩
    | idle | outside | committed | rejected => cases hown
  · exact ⟨w, (hmove.frame hown).trans hw, .stays w hown⟩

end Steps

/-! ### What a step does to the table -/

/-- The call that takes effect in an event, and who makes it. -/
inductive Calls (s : Fleet) : Event → StoreCall → Prop
  | cycle {claim : ClaimToken} {fate : Fate} {p : Processor} {call : StoreCall}
      {goOn : Except Failure call.Reply → Routine (Except Failure BatchReport)}
      (hat : s.workers claim = some ⟨p, .ask (.store call) goOn, none⟩)
      (hreaches : fate.reaches) : Calls s (.store claim fate) call
  | heartbeat {claim : ClaimToken} {fate : Fate} {now : Instant} {p : Processor}
      {message : Message} {heartbeat : Heartbeat}
      {goOn : Except Failure DispatchOutcome → Routine (Except Failure BatchReport)}
      (hat : s.workers claim = some ⟨p, .ask (.dispatch message heartbeat) goOn, some now⟩)
      (hreaches : fate.reaches) : Calls s (.renewal claim fate) (heartbeat.renewal now)
  | outside (call : StoreCall) : Calls s (.outside call) call

/-- The table changes by a call or a commit, or not at all. -/
theorem Move.table {s s' : Fleet} {e : Event} (hmove : s.Move e s') :
    s'.table = s.table ∨ (∃ call, s.Calls e call ∧ s'.table = (s.table.answer call).2) ∨
      ∃ u, e = .commit u ∧ u.commit s.table = .ok s'.table := by
  cases hmove with
  | @store claim fate p call goOn hat =>
      by_cases hreaches : fate.reaches
      · exact .inr (.inl ⟨call, .cycle hat hreaches, if_pos hreaches⟩)
      · exact .inl (if_neg hreaches)
  | @renewal claim fate now p message heartbeat goOn hat =>
      by_cases hreaches : fate.reaches
      · exact .inr (.inl ⟨heartbeat.renewal now, .heartbeat hat hreaches, if_pos hreaches⟩)
      · exact .inl (if_neg hreaches)
  | outside => exact .inr (.inl ⟨_, .outside _, rfl⟩)
  | committed hcommit => exact .inr (.inr ⟨_, rfl, hcommit⟩)
  | idle | begin | time | stopFlag | delivery | beat | rejected => exact .inl rfl

/-- A move in which a call takes effect changes the table as that call does. -/
theorem Move.table_of_calls {s s' : Fleet} {e : Event} {call : StoreCall} (hmove : s.Move e s')
    (hcalls : s.Calls e call) : s'.table = (s.table.answer call).2 := by
  cases hcalls with
  | cycle hat hreaches =>
      cases hmove with
      | store hat' =>
          cases hat.symm.trans hat'
          exact if_pos hreaches
  | heartbeat hat hreaches =>
      cases hmove with
      | renewal hat' =>
          cases hat.symm.trans hat'
          exact if_pos hreaches
  | outside => cases hmove; rfl

/-- At most one call takes effect in a step. -/
theorem Calls.unique {s : Fleet} {e : Event} {call call' : StoreCall} (hcalls : s.Calls e call)
    (hcalls' : s.Calls e call') : call = call' := by
  cases hcalls with
  | cycle hat =>
      cases hcalls' with
      | cycle hat' => cases hat.symm.trans hat'; rfl
  | heartbeat hat =>
      cases hcalls' with
      | heartbeat hat' => cases hat.symm.trans hat'; rfl
  | outside => cases hcalls'; rfl

theorem Move.table_store {s s' : Fleet} {claim : ClaimToken} {fate : Fate} {call : StoreCall}
    (hmove : s.Move (.store claim fate) s')
    (hrequest : s.request? claim = some (.store call)) : s'.table = fate.table s.table call := by
  cases hmove with
  | store hat =>
      rw [request?, hat] at hrequest
      cases hrequest
      rfl

end Fleet

end Outbox
