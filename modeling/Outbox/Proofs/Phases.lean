import Outbox.Processor

/-! # The phases of a cycle

A cycle is a tree of requests. Its nodes are of eleven kinds, the phases, each with the data that
the cycle carries there. In each phase the cycle asks one thing, and every answer leads to another
phase. Properties of all nodes of the tree are proved by cases on the phase.
-/

namespace Outbox

def Routine.request? {α : Type} : Routine α → Option Request
  | done _ => none
  | ask q _ => some q

def Routine.result? {α : Type} : Routine α → Option α
  | done a => some a
  | ask _ _ => none

namespace Processor

inductive Phase
  /-- About to read the time for the fetch. -/
  | starting
  | fetching (now : Instant)
  /-- Messages are left, of which those in `held` are still claimed. -/
  | working (left : List Message) (held : List MessageId) (report : BatchReport)
  /-- Giving back what is held because a stop was requested. -/
  | leaving (held : List MessageId) (report : BatchReport)
  /-- About to read the time for the renewal before a dispatch. -/
  | preparing (message : Message) (rest : List Message) (held : List MessageId)
      (report : BatchReport)
  | renewing (message : Message) (rest : List Message) (held : List MessageId)
      (report : BatchReport) (now : Instant)
  | dispatching (message : Message) (rest : List Message) (held : List MessageId)
      (report : BatchReport)
  /-- About to read the time for the record of an outcome. -/
  | concluding (message : Message) (rest : List Message) (held : List MessageId)
      (report : BatchReport) (outcome : Except Failure DispatchOutcome)
  | recording (message : Message) (rest : List Message) (held : List MessageId)
      (report : BatchReport) (outcome : Except Failure DispatchOutcome) (now : Instant)
  /-- Giving back what is held because the store failed. -/
  | givingBack (held : List MessageId) (failure : Failure)
  | ended (result : Except Failure BatchReport)

variable (p : Processor) (claim : ClaimToken)

def resume (message : Message) (rest : List Message) (held : List MessageId)
    (report : BatchReport) : Except Failure Attempt → Routine (Except Failure BatchReport)
  | .error failure => do
      giveBack claim (held.filter (· != message.id))
      return .error failure
  | .ok attempt => p.work claim rest (held.filter (· != message.id)) (report.add attempt)

def proceed (message : Message) (rest : List Message) (held : List MessageId)
    (report : BatchReport) :
    Except Failure (List MessageId) → Routine (Except Failure BatchReport)
  | .error failure => do
      giveBack claim held
      return .error failure
  | .ok renewed =>
      let held := held.filter renewed.contains
      if held.contains message.id then do
        p.resume claim message rest held report (← p.attempt claim message held)
      else p.work claim rest held (report.add .lost)

namespace Phase

/-- What a cycle in this phase has still to do. -/
def routine : Phase → Routine (Except Failure BatchReport)
  | starting => p.cycle claim
  | fetching now => do
      match ← Routine.store (.fetch claim p.batchSize now p.lease) with
      | .error failure => return .error failure
      | .ok batch => p.work claim batch (batch.map Message.id) { fetched := batch.length }
  | working left held report => p.work claim left held report
  | leaving held report => do
      let released ← Routine.store (.release claim held)
      return released.map fun _ => { report with released := held.length }
  | preparing message rest held report => do
      let now ← Routine.now
      p.proceed claim message rest held report (← Routine.store (.renew claim held now p.lease))
  | renewing message rest held report now => do
      p.proceed claim message rest held report (← Routine.store (.renew claim held now p.lease))
  | dispatching message rest held report => do
      p.resume claim message rest held report (← p.attempt claim message held)
  | concluding message rest held report outcome => do
      p.resume claim message rest held report (settle (← p.record claim message outcome))
  | recording message rest held report (.ok outcome) now => do
      let recorded ← Routine.store (.markProcessed claim message.id now)
      p.resume claim message rest held report (settle (recorded.map fun _ => outcome.attempt))
  | recording message rest held report (.error failure) now => do
      let nextRun := p.retryPolicy.nextRunAt (incrementCapped message.retryCount) now
      let recorded ← Routine.store (.markFailed claim message.id failure.message nextRun)
      p.resume claim message rest held report (settle (recorded.map fun _ => Attempt.failed))
  | givingBack held failure => do
      giveBack claim held
      return .error failure
  | ended result => return result

/-- Where a cycle gets with the reply to its fetch. -/
def afterFetch : Except Failure (List Message) → Phase
  | .error failure => ended (.error failure)
  | .ok batch => working batch (batch.map Message.id) { fetched := batch.length }

def afterRenewal (message : Message) (rest : List Message) (held : List MessageId)
    (report : BatchReport) : Except Failure (List MessageId) → Phase
  | .error failure => givingBack held failure
  | .ok renewed =>
      let held := held.filter renewed.contains
      if held.contains message.id then dispatching message rest held report
      else working rest held (report.add .lost)

def afterAttempt (message : Message) (rest : List Message) (held : List MessageId)
    (report : BatchReport) : Except Failure Attempt → Phase
  | .error failure => givingBack (held.filter (· != message.id)) failure
  | .ok attempt => working rest (held.filter (· != message.id)) (report.add attempt)

/-- What a cycle asks in a phase, and where the answers lead. -/
inductive Asks : Phase → (q : Request) → (q.Answer → Phase) → Prop
  | starting : Asks starting .now fetching
  | fetching (now : Instant) :
      Asks (fetching now) (.store (.fetch claim p.batchSize now p.lease)) afterFetch
  | working (message : Message) (rest : List Message) (held : List MessageId)
      (report : BatchReport) :
      Asks (working (message :: rest) held report) .stopRequested fun requested =>
        if requested then leaving held report else preparing message rest held report
  | leaving (held : List MessageId) (report : BatchReport) :
      Asks (leaving held report) (.store (.release claim held)) fun released =>
        ended (released.map fun _ => { report with released := held.length })
  | preparing (message : Message) (rest : List Message) (held : List MessageId)
      (report : BatchReport) :
      Asks (preparing message rest held report) .now (renewing message rest held report)
  | renewing (message : Message) (rest : List Message) (held : List MessageId)
      (report : BatchReport) (now : Instant) :
      Asks (renewing message rest held report now) (.store (.renew claim held now p.lease))
        (afterRenewal message rest held report)
  | dispatching (message : Message) (rest : List Message) (held : List MessageId)
      (report : BatchReport) :
      Asks (dispatching message rest held report) (.dispatch message ⟨claim, held, p.lease⟩)
        (concluding message rest held report)
  | concluding (message : Message) (rest : List Message) (held : List MessageId)
      (report : BatchReport) (outcome : Except Failure DispatchOutcome) :
      Asks (concluding message rest held report outcome) .now
        (recording message rest held report outcome)
  | recordingSuccess (message : Message) (rest : List Message) (held : List MessageId)
      (report : BatchReport) (outcome : DispatchOutcome) (now : Instant) :
      Asks (recording message rest held report (.ok outcome) now)
        (.store (.markProcessed claim message.id now)) fun recorded =>
          afterAttempt message rest held report (settle (recorded.map fun _ => outcome.attempt))
  | recordingFailure (message : Message) (rest : List Message) (held : List MessageId)
      (report : BatchReport) (failure : Failure) (now : Instant) :
      Asks (recording message rest held report (.error failure) now)
        (.store (.markFailed claim message.id failure.message
          (p.retryPolicy.nextRunAt (incrementCapped message.retryCount) now))) fun recorded =>
          afterAttempt message rest held report (settle (recorded.map fun _ => Attempt.failed))
  | givingBack (held : List MessageId) (failure : Failure) :
      Asks (givingBack held failure) (.store (.release claim held)) fun _ =>
        ended (.error failure)

variable {p : Processor} {claim : ClaimToken}

theorem routine_afterRenewal (message : Message) (rest : List Message) (held : List MessageId)
    (report : BatchReport) (renewed : Except Failure (List MessageId)) :
    (afterRenewal message rest held report renewed).routine p claim =
      p.proceed claim message rest held report renewed := by
  cases renewed with
  | error failure => rfl
  | ok renewed =>
      simp only [afterRenewal, proceed]
      split <;> rfl

theorem routine_afterAttempt (message : Message) (rest : List Message) (held : List MessageId)
    (report : BatchReport) (attempt : Except Failure Attempt) :
    (afterAttempt message rest held report attempt).routine p claim =
      p.resume claim message rest held report attempt := by
  cases attempt <;> rfl

/-- What is asked in a phase is what the cycle's routine asks, and it goes on as said. -/
theorem Asks.routine_eq {φ : Phase} {q : Request} {next : q.Answer → Phase}
    (hasks : Asks p claim φ q next) :
    φ.routine p claim = .ask q fun answer => (next answer).routine p claim := by
  cases hasks with
  | starting => rfl
  | fetching now =>
      refine congrArg (Routine.ask _) (funext fun batch => ?_)
      cases batch <;> rfl
  | working message rest held report =>
      refine congrArg (Routine.ask _) (funext fun requested => ?_)
      cases requested with
      | true => rfl
      | false =>
          -- the next two requests are spelled out, since the phases after them are named
          refine congrArg (Routine.ask _) (funext fun now => ?_)
          refine congrArg (Routine.ask _) (funext fun renewed => ?_)
          cases renewed with
          | error failure => rfl
          | ok renewed => rfl
  | leaving => rfl
  | preparing => rfl
  | renewing message rest held report now =>
      refine congrArg (Routine.ask _) (funext fun renewed => ?_)
      exact (routine_afterRenewal message rest held report renewed).symm
  | dispatching message rest held report =>
      refine congrArg (Routine.ask _) (funext fun outcome => ?_)
      cases outcome <;> rfl
  | concluding message rest held report outcome => cases outcome <;> rfl
  | recordingSuccess message rest held report outcome now =>
      exact congrArg (Routine.ask _) (funext fun recorded =>
        (routine_afterAttempt message rest held report _).symm)
  | recordingFailure message rest held report failure now =>
      exact congrArg (Routine.ask _) (funext fun recorded =>
        (routine_afterAttempt message rest held report _).symm)
  | givingBack => rfl

/-- In every phase a cycle has ended or asks one thing. -/
theorem done_or_asks (p : Processor) (claim : ClaimToken) (φ : Phase) :
    (∃ result, φ.routine p claim = .done result) ∨ ∃ q next, Asks p claim φ q next := by
  cases φ with
  | working left held report =>
      cases left with
      | nil => exact .inl ⟨_, rfl⟩
      | cons message rest => exact .inr ⟨_, _, .working message rest held report⟩
  | recording message rest held report outcome now =>
      cases outcome with
      | ok outcome => exact .inr ⟨_, _, .recordingSuccess message rest held report outcome now⟩
      | error failure => exact .inr ⟨_, _, .recordingFailure message rest held report failure now⟩
  | ended result => exact .inl ⟨result, rfl⟩
  | starting => exact .inr ⟨_, _, .starting⟩
  | fetching now => exact .inr ⟨_, _, .fetching now⟩
  | leaving held report => exact .inr ⟨_, _, .leaving held report⟩
  | preparing message rest held report => exact .inr ⟨_, _, .preparing message rest held report⟩
  | renewing message rest held report now =>
      exact .inr ⟨_, _, .renewing message rest held report now⟩
  | dispatching message rest held report =>
      exact .inr ⟨_, _, .dispatching message rest held report⟩
  | concluding message rest held report outcome =>
      exact .inr ⟨_, _, .concluding message rest held report outcome⟩
  | givingBack held failure => exact .inr ⟨_, _, .givingBack held failure⟩

/-- A cycle that asks something goes on, with any answer, in the phase that the answer leads to. -/
theorem asks_of_routine_eq {φ : Phase} {q : Request}
    {goOn : q.Answer → Routine (Except Failure BatchReport)}
    (hroutine : φ.routine p claim = .ask q goOn) :
    ∃ next, Asks p claim φ q next ∧ ∀ answer, goOn answer = (next answer).routine p claim := by
  rcases done_or_asks p claim φ with ⟨result, hdone⟩ | ⟨q', next, hasks⟩
  · rw [hdone] at hroutine
    cases hroutine
  · have heq := hasks.routine_eq
    rw [hroutine] at heq
    cases heq
    exact ⟨next, hasks, fun _ => rfl⟩

/-- What a cycle requests is what it asks in its phase. -/
theorem asks_of_request? {φ : Phase} {q : Request}
    (hrequest : (φ.routine p claim).request? = some q) : ∃ next, Asks p claim φ q next := by
  cases hroutine : φ.routine p claim with
  | done result => rw [hroutine] at hrequest; cases hrequest
  | ask q' goOn =>
      rw [hroutine] at hrequest
      cases hrequest
      obtain ⟨next, hasks, _⟩ := asks_of_routine_eq hroutine
      exact ⟨next, hasks⟩

/-- Where a cycle can get without a reply to a call. -/
inductive Idles (p : Processor) (claim : ClaimToken) (φ : Phase) : Phase → Prop
  | stays : Idles p claim φ φ
  | goesOn {q : Request} {next : q.Answer → Phase} (hasks : Asks p claim φ q next)
      (hcall : ∀ call, q ≠ .store call) (answer : q.Answer) : Idles p claim φ (next answer)

/-! ### What is asked for in which phase -/

/-- A cycle calls the store under its own claim. -/
theorem Asks.claim?_eq {φ : Phase} {call : StoreCall} {next : Except Failure call.Reply → Phase}
    (hasks : Asks p claim φ (.store call) next) : call.claim? = some claim := by
  cases hasks <;> rfl

theorem Asks.eq_fetching {φ : Phase} {c : ClaimToken} {limit : Nat} {now : Instant}
    {lease : Duration} {next : Except Failure (List Message) → Phase}
    (hasks : Asks p claim φ (.store (.fetch c limit now lease)) next) : φ = .fetching now := by
  cases hasks
  rfl

/-- A cycle renews its claim in one phase only, for what it holds, and for the lease of its
processor. -/
theorem Asks.eq_renewing {φ : Phase} {c : ClaimToken} {ids : List MessageId} {now : Instant}
    {lease : Duration} {next : Except Failure (List MessageId) → Phase}
    (hasks : Asks p claim φ (.store (.renew c ids now lease)) next) :
    lease = p.lease ∧ ∃ message rest report, φ = .renewing message rest ids report now := by
  cases hasks
  exact ⟨rfl, _, _, _, rfl⟩

/-- A cycle dispatches in one phase only, and its heartbeat is for what it holds. -/
theorem Asks.eq_dispatching {φ : Phase} {message : Message} {heartbeat : Heartbeat}
    {next : Except Failure DispatchOutcome → Phase}
    (hasks : Asks p claim φ (.dispatch message heartbeat) next) :
    ∃ rest held report, heartbeat = ⟨claim, held, p.lease⟩ ∧
      φ = .dispatching message rest held report := by
  cases hasks
  exact ⟨_, _, _, rfl, rfl⟩

def time? : Phase → Option Instant
  | fetching now | renewing _ _ _ _ now | recording _ _ _ _ _ now => some now
  | _ => none

@[simp] theorem time?_afterFetch (reply : Except Failure (List Message)) :
    (afterFetch reply).time? = none := by
  cases reply <;> rfl

@[simp] theorem time?_afterRenewal (message : Message) (rest : List Message)
    (held : List MessageId) (report : BatchReport) (renewed : Except Failure (List MessageId)) :
    (afterRenewal message rest held report renewed).time? = none := by
  cases renewed with
  | error failure => rfl
  | ok renewed => simp only [afterRenewal]; split <;> rfl

@[simp] theorem time?_afterAttempt (message : Message) (rest : List Message)
    (held : List MessageId) (report : BatchReport) (attempt : Except Failure Attempt) :
    (afterAttempt message rest held report attempt).time? = none := by
  cases attempt <;> rfl

/-! ### What is held in which phase -/

/-- The messages whose claim the cycle still answers for. -/
def held : Phase → List MessageId
  | starting | fetching _ | ended _ => []
  | working _ held _ | leaving held _ | preparing _ _ held _ | renewing _ _ held _ _
  | dispatching _ _ held _ | concluding _ _ held _ _ | recording _ _ held _ _ _
  | givingBack held _ => held

/-- What is held is still to be attempted. -/
def HeldIsLeft : Phase → Prop
  | working left held _ => held.Sublist (left.map Message.id)
  | preparing message rest held _ | renewing message rest held _ _
  | dispatching message rest held _ | concluding message rest held _ _
  | recording message rest held _ _ _ => held.Sublist ((message :: rest).map Message.id)
  | starting | fetching _ | leaving _ _ | givingBack _ _ | ended _ => True

/-- Only the replies to calls change what is held. -/
theorem Asks.held_eq {φ : Phase} {q : Request} {next : q.Answer → Phase}
    (hasks : Asks p claim φ q next) (hcall : ∀ call, q ≠ .store call) (answer : q.Answer) :
    (next answer).held = φ.held := by
  cases hasks with
  | starting | preparing | dispatching | concluding => rfl
  | working => cases answer <;> rfl
  | fetching | leaving | renewing | recordingSuccess | recordingFailure | givingBack =>
      exact (hcall _ rfl).elim

section Held

variable {message : Message} {rest : List Message} {held : List MessageId} {report : BatchReport}

theorem held_afterRenewal (renewed : List MessageId) :
    (afterRenewal message rest held report (.ok renewed)).held = held.filter renewed.contains := by
  simp only [afterRenewal]
  split <;> rfl

theorem held_afterAttempt (attempt : Except Failure Attempt) :
    (afterAttempt message rest held report attempt).held = held.filter (· != message.id) := by
  cases attempt <;> rfl

theorem sublist_rest (hsub : held.Sublist ((message :: rest).map Message.id))
    (hnot : message.id ∉ held) : held.Sublist (rest.map Message.id) := by
  rw [List.map_cons] at hsub
  cases hsub with
  | cons _ hsub => exact hsub
  | cons_cons _ _ => exact (hnot List.mem_cons_self).elim

theorem heldIsLeft_afterRenewal (hsub : held.Sublist ((message :: rest).map Message.id))
    (renewed : Except Failure (List MessageId)) :
    (afterRenewal message rest held report renewed).HeldIsLeft := by
  cases renewed with
  | error failure => trivial
  | ok renewed =>
      have hkept : (held.filter renewed.contains).Sublist ((message :: rest).map Message.id) :=
        List.filter_sublist.trans hsub
      simp only [afterRenewal]
      split
      · exact hkept
      next hgone => exact sublist_rest hkept fun hmem => hgone (List.contains_iff_mem.mpr hmem)

theorem heldIsLeft_afterAttempt (hsub : held.Sublist ((message :: rest).map Message.id))
    (attempt : Except Failure Attempt) :
    (afterAttempt message rest held report attempt).HeldIsLeft := by
  cases attempt with
  | error failure => trivial
  | ok attempt => exact sublist_rest (List.filter_sublist.trans hsub) fun hmem => by simp at hmem

end Held

/-- Whatever is answered, a cycle holds only what it has still to attempt. -/
theorem Asks.heldIsLeft {φ : Phase} {q : Request} {next : q.Answer → Phase}
    (hasks : Asks p claim φ q next) (hleft : φ.HeldIsLeft) (answer : q.Answer) :
    (next answer).HeldIsLeft := by
  cases hasks with
  | starting => trivial
  | fetching =>
      cases answer with
      | error failure => trivial
      | ok batch => exact List.Sublist.refl _
  | working =>
      cases answer with
      | true => trivial
      | false => exact hleft
  | leaving => trivial
  | preparing => exact hleft
  | renewing => exact heldIsLeft_afterRenewal hleft answer
  | dispatching => exact hleft
  | concluding => exact hleft
  | recordingSuccess => exact heldIsLeft_afterAttempt hleft _
  | recordingFailure => exact heldIsLeft_afterAttempt hleft _
  | givingBack => trivial

/-- A cycle that has ended holds nothing more. -/
theorem held_of_result? {φ : Phase} {result : Except Failure BatchReport}
    (hleft : φ.HeldIsLeft) (hresult : (φ.routine p claim).result? = some result) :
    φ.held = [] := by
  cases φ with
  | working left held report =>
      cases left with
      | nil => exact List.sublist_nil.mp hleft
      | cons message rest => cases hresult
  | ended result => rfl
  | concluding message rest held report outcome => cases outcome <;> cases hresult
  | recording message rest held report outcome now => cases outcome <;> cases hresult
  | starting => cases hresult
  | fetching => cases hresult
  | leaving => cases hresult
  | preparing => cases hresult
  | renewing => cases hresult
  | dispatching => cases hresult
  | givingBack => cases hresult

theorem afterAttempt_ne_dispatching (message : Message) (rest : List Message)
    (held : List MessageId) (report : BatchReport) (attempt : Except Failure Attempt)
    (message' : Message) (rest' : List Message) (held' : List MessageId) (report' : BatchReport) :
    afterAttempt message rest held report attempt ≠ .dispatching message' rest' held' report' := by
  cases attempt <;> exact fun heq => by cases heq

/-- The cycle will neither attempt the message any more nor give it back. It may be at it. -/
def IsPast (id : MessageId) : Phase → Prop
  | starting | fetching _ => False
  | working _ held _ | leaving held _ | preparing _ _ held _ | renewing _ _ held _ _
  | givingBack held _ => id ∉ held
  | dispatching message _ held _ | concluding message _ held _ _
  | recording message _ held _ _ _ => id ∉ held.filter (· != message.id)
  | ended _ => True

/-- Once past a message, a cycle stays past it. -/
theorem Asks.isPast {φ : Phase} {q : Request} {next : q.Answer → Phase} {id : MessageId}
    (hasks : Asks p claim φ q next) (hpast : φ.IsPast id) (answer : q.Answer) :
    (next answer).IsPast id := by
  cases hasks with
  | starting => exact hpast.elim
  | fetching => exact hpast.elim
  | working message rest held report => cases answer <;> exact hpast
  | leaving => trivial
  | preparing => exact hpast
  | renewing message rest held report now =>
      cases answer with
      | error failure => exact hpast
      | ok renewed =>
          -- a renewal can only shorten the list of what is held
          have hgone : id ∉ held.filter renewed.contains := fun hmem =>
            hpast (List.mem_filter.mp hmem).1
          simp only [afterRenewal]
          split
          · exact fun hmem => hgone (List.mem_filter.mp hmem).1
          · exact hgone
  | dispatching => exact hpast
  | concluding => exact hpast
  | recordingSuccess message rest held report outcome now =>
      change (afterAttempt message rest held report _).IsPast id
      cases settle (answer.map fun _ => outcome.attempt) <;> exact hpast
  | recordingFailure message rest held report failure now =>
      change (afterAttempt message rest held report _).IsPast id
      cases settle (answer.map fun _ => Attempt.failed) <;> exact hpast
  | givingBack => trivial

end Phase

end Processor

end Outbox
