import Outbox.Proofs.Accounting

/-! # The course of a cycle

Between its fetch and its end a cycle goes through the messages of its batch. Each of them has a
turn, in which it is dispatched and the outcome recorded, or is passed over. The cycle ends with the
batch, at a request to stop, or at a failure of the store. What is to be seen of it are its own
exchanges and, while a message is being dispatched, calls of consumers and renewals at heartbeats.
The courses below are all that this can be, with any answers at all. What is true of every cycle is
proved by induction on them.
-/

namespace Outbox

/-- A renewal at a heartbeat. -/
structure Beat where
  now : Instant
  reply : Except Failure (List MessageId)

/-- What is done while a message is being dispatched. -/
inductive Interlude (κ : Type)
  | call (consumer : κ) (tag : MessageType) (content : String)
  | beat (b : Beat)

/-- What is to be seen of a cycle. -/
inductive Occurrence (κ : Type)
  /-- Of a dispatch this is the beginning. What is done meanwhile follows. -/
  | exchanged (x : Exchange)
  | meanwhile (interlude : Interlude κ)

def Occurrence.exchange? {κ : Type} : Occurrence κ → Option Exchange
  | exchanged x => some x
  | meanwhile _ => none

/-- The cycle's own exchanges. -/
def exchangesOf {κ : Type} (seen : List (Occurrence κ)) : List Exchange :=
  seen.filterMap Occurrence.exchange?

def Interlude.call? {κ : Type} : Interlude κ → Option (κ × MessageType × String)
  | call consumer tag content => some (consumer, tag, content)
  | beat _ => none

/-- What may be done in a dispatch, and what it may come to then. -/
def Dispatching (κ : Type) : Type :=
  Message → Heartbeat → List (Interlude κ) → Except Failure DispatchOutcome → Prop

variable {κ : Type} {D : Dispatching κ}

theorem exchangesOf_append (seen later : List (Occurrence κ)) :
    exchangesOf (seen ++ later) = exchangesOf seen ++ exchangesOf later := List.filterMap_append

theorem exchangesOf_meanwhile (interludes : List (Interlude κ)) :
    exchangesOf (interludes.map Occurrence.meanwhile) = [] := by
  rw [exchangesOf, List.filterMap_map]
  exact List.filterMap_eq_nil_iff.mpr fun _ _ => rfl

/-- All requests but those for a dispatch are answered at once. -/
def Dispatching.Allows (D : Dispatching κ) : (q : Request) → q.Answer → List (Interlude κ) → Prop
  | .dispatch message heartbeat, outcome, interludes => D message heartbeat interludes outcome
  | .now, _, interludes | .store _, _, interludes | .stopRequested, _, interludes => interludes = []

/-- When this is to be seen of it, the routine comes to this result. -/
inductive Routine.Shows (D : Dispatching κ) {α : Type} : Routine α → List (Occurrence κ) → α → Prop
  | done (a : α) : Shows D (.done a) [] a
  | ask {q : Request} {resume : q.Answer → Routine α} {seen : List (Occurrence κ)} {a : α}
      (answer : q.Answer) (interludes : List (Interlude κ))
      (hallowed : D.Allows q answer interludes) (hrest : Shows D (resume answer) seen a) :
      Shows D (.ask q resume) (.exchanged ⟨q, answer⟩ :: interludes.map .meanwhile ++ seen) a

namespace Processor

/-- The record of an outcome, and what the store replied to it. -/
def recording (p : Processor) (claim : ClaimToken) (message : Message) (time : Instant)
    (reply : Except Failure Unit) : Except Failure DispatchOutcome → Exchange
  | .ok _ => ⟨.store (.markProcessed claim message.id time), reply⟩
  | .error failure => ⟨.store (.markFailed claim message.id failure.message
      (p.retryPolicy.nextRunAt (incrementCapped message.retryCount) time)), reply⟩

/-- The reply to the record of an outcome ends the cycle. -/
def breaksOff : Except Failure Unit → Bool
  | .ok _ | .error (.claimLost _) => false
  | .error _ => true

/-- The turn of a message that is dispatched. -/
structure Turn (κ : Type) where
  message : Message
  held : List MessageId
  now : Instant
  renewed : List MessageId
  interludes : List (Interlude κ)
  outcome : Except Failure DispatchOutcome
  time : Instant
  reply : Except Failure Unit

namespace Turn

/-- What is still held at the dispatch. -/
def kept (t : Turn κ) : List MessageId := t.held.filter t.renewed.contains

/-- What is left of it after the turn. -/
def others (t : Turn κ) : List MessageId := t.kept.filter (· != t.message.id)

def heartbeat (t : Turn κ) (p : Processor) (claim : ClaimToken) : Heartbeat :=
  ⟨claim, t.kept, p.lease⟩

/-- The exchanges up to the dispatch. -/
def opening (t : Turn κ) (p : Processor) (claim : ClaimToken) : List Exchange :=
  [⟨.stopRequested, false⟩, ⟨.now, t.now⟩,
    ⟨.store (.renew claim t.held t.now p.lease), .ok t.renewed⟩,
    ⟨.dispatch t.message (t.heartbeat p claim), t.outcome⟩]

/-- The exchanges after it. -/
def closing (t : Turn κ) (p : Processor) (claim : ClaimToken) : List Exchange :=
  [⟨.now, t.time⟩, p.recording claim t.message t.time t.reply t.outcome]

/-- What is done during the dispatch stands between its beginning and the record. -/
def seen (t : Turn κ) (p : Processor) (claim : ClaimToken) : List (Occurrence κ) :=
  (t.opening p claim).map .exchanged ++ t.interludes.map .meanwhile ++
    (t.closing p claim).map .exchanged

/-- The exchanges of a turn. -/
def exchanges (t : Turn κ) (p : Processor) (claim : ClaimToken) : List Exchange :=
  t.opening p claim ++ t.closing p claim

theorem exchangesOf_seen_append (t : Turn κ) (p : Processor) (claim : ClaimToken)
    (later : List (Occurrence κ)) :
    exchangesOf (t.seen p claim ++ later) = t.exchanges p claim ++ exchangesOf later := by
  rw [seen, exchangesOf_append, exchangesOf_append, exchangesOf_append, exchangesOf_meanwhile]
  rfl

end Turn

/-- With these messages left of the batch and these ids held, this may be seen of a cycle. -/
inductive Course (D : Dispatching κ) (p : Processor) (claim : ClaimToken) :
    List Message → List MessageId → List (Occurrence κ) → Prop
  | finished (held : List MessageId) : Course D p claim [] held []
  | stopped (message : Message) (rest : List Message) (held : List MessageId)
      (released : Except Failure Unit) :
      Course D p claim (message :: rest) held
        [.exchanged ⟨.stopRequested, true⟩, .exchanged ⟨.store (.release claim held), released⟩]
  /-- The renewal before a dispatch fails. -/
  | cutOff (message : Message) (rest : List Message) (held : List MessageId) (now : Instant)
      (failure : Failure) (released : Except Failure Unit) :
      Course D p claim (message :: rest) held
        [.exchanged ⟨.stopRequested, false⟩, .exchanged ⟨.now, now⟩,
          .exchanged ⟨.store (.renew claim held now p.lease), .error failure⟩,
          .exchanged ⟨.store (.release claim held), released⟩]
  | passedOver {message : Message} {rest : List Message} {held : List MessageId}
      {seen : List (Occurrence κ)} (now : Instant) (renewed : List MessageId)
      (hgone : message.id ∉ held.filter renewed.contains)
      (hrest : Course D p claim rest (held.filter renewed.contains) seen) :
      Course D p claim (message :: rest) held
        (.exchanged ⟨.stopRequested, false⟩ :: .exchanged ⟨.now, now⟩ ::
          .exchanged ⟨.store (.renew claim held now p.lease), .ok renewed⟩ :: seen)
  | attempted {rest : List Message} {seen : List (Occurrence κ)} (t : Turn κ)
      (hheld : t.message.id ∈ t.kept)
      (hdispatch : D t.message (t.heartbeat p claim) t.interludes t.outcome)
      (hgoesOn : breaksOff t.reply = false) (hrest : Course D p claim rest t.others seen) :
      Course D p claim (t.message :: rest) t.held (t.seen p claim ++ seen)
  /-- The record of an outcome fails, other than for a lost claim. -/
  | brokenOff (rest : List Message) (t : Turn κ) (released : Except Failure Unit)
      (hheld : t.message.id ∈ t.kept)
      (hdispatch : D t.message (t.heartbeat p claim) t.interludes t.outcome)
      (hbreaks : breaksOff t.reply) :
      Course D p claim (t.message :: rest) t.held
        (t.seen p claim ++ [.exchanged ⟨.store (.release claim t.others), released⟩])

open Phase

variable {p : Processor} {claim : ClaimToken} {message : Message} {rest left : List Message}
  {held : List MessageId} {report : BatchReport} {seen : List (Occurrence κ)}
  {result : Except Failure BatchReport}

/-- What a cycle shows first is what it asks in its phase, with what happens meanwhile, and then
that of the phase that the answer leads to. -/
theorem Phase.Asks.shows {φ : Phase} {q : Request} {next : q.Answer → Phase}
    (hasks : Asks p claim φ q next) (hshows : (φ.routine p claim).Shows D seen result) :
    ∃ answer interludes seen', D.Allows q answer interludes ∧
      seen = .exchanged ⟨q, answer⟩ :: interludes.map .meanwhile ++ seen' ∧
      ((next answer).routine p claim).Shows D seen' result := by
  rw [hasks.routine_eq] at hshows
  cases hshows with
  | ask answer interludes hallowed hrest => exact ⟨answer, interludes, _, hallowed, rfl, hrest⟩

/-- A clock reading is there at once. -/
theorem Phase.Asks.shows_now {φ : Phase} {next : Instant → Phase}
    (hasks : Asks p claim φ .now next) (hshows : (φ.routine p claim).Shows D seen result) :
    ∃ now seen', seen = .exchanged ⟨.now, now⟩ :: seen' ∧
      ((next now).routine p claim).Shows D seen' result := by
  obtain ⟨now, _, seen', rfl, hseen, hrest⟩ := hasks.shows hshows
  exact ⟨now, seen', hseen, hrest⟩

/-- The store replies at once. -/
theorem Phase.Asks.shows_store {φ : Phase} {call : StoreCall}
    {next : Except Failure call.Reply → Phase} (hasks : Asks p claim φ (.store call) next)
    (hshows : (φ.routine p claim).Shows D seen result) :
    ∃ reply seen', seen = .exchanged ⟨.store call, reply⟩ :: seen' ∧
      ((next reply).routine p claim).Shows D seen' result := by
  obtain ⟨reply, _, seen', rfl, hseen, hrest⟩ := hasks.shows hshows
  exact ⟨reply, seen', hseen, hrest⟩

/-- The reply to a mark breaks a cycle off, or the message has had its attempt. -/
theorem settle_cases (reply : Except Failure Unit) (attempt : Attempt) :
    (breaksOff reply = false ∧ ∃ attempt', settle (reply.map fun _ => attempt) = .ok attempt') ∨
      (breaksOff reply ∧ ∃ failure, settle (reply.map fun _ => attempt) = .error failure) := by
  cases reply with
  | ok => exact .inl ⟨rfl, _, rfl⟩
  | error failure =>
      cases failure with
      | claimLost id => exact .inl ⟨rfl, _, rfl⟩
      | _ => exact .inr ⟨rfl, _, rfl⟩

/-- After a failure a cycle gives back what it holds, and does nothing else. -/
theorem shows_givingBack {failure : Failure}
    (hshows : ((givingBack held failure).routine p claim).Shows D seen result) :
    ∃ released, seen = [.exchanged ⟨.store (.release claim held), released⟩] := by
  obtain ⟨released, seen', rfl, hended⟩ := (Asks.givingBack held failure).shows_store hshows
  cases hended
  exact ⟨released, rfl⟩

/-- After a reply to the record of an outcome a cycle goes on with the others or gives them back. -/
theorem shows_afterAttempt {reply : Except Failure Unit} {attempt : Attempt}
    (hshows : ((afterAttempt message rest held report
      (settle (reply.map fun _ => attempt))).routine p claim).Shows D seen result) :
    (breaksOff reply = false ∧ ∃ report', ((working rest (held.filter (· != message.id))
        report').routine p claim).Shows D seen result) ∨
      (breaksOff reply ∧ ∃ released, seen =
        [.exchanged ⟨.store (.release claim (held.filter (· != message.id))), released⟩]) := by
  rcases settle_cases reply attempt with ⟨hgoesOn, attempt', heq⟩ | ⟨hbreaks, failure, heq⟩
  · rw [heq] at hshows
    exact .inl ⟨hgoesOn, _, hshows⟩
  · rw [heq] at hshows
    exact .inr ⟨hbreaks, shows_givingBack hshows⟩

/-- From the dispatch on a turn goes as turns do, and then the cycle goes on or breaks off. -/
theorem shows_dispatching
    (hshows : ((dispatching message rest held report).routine p claim).Shows D seen result) :
    ∃ interludes outcome time reply seen', D message ⟨claim, held, p.lease⟩ interludes outcome ∧
      seen = .exchanged ⟨.dispatch message ⟨claim, held, p.lease⟩, outcome⟩ ::
        interludes.map .meanwhile ++ .exchanged ⟨.now, time⟩ ::
        .exchanged (p.recording claim message time reply outcome) :: seen' ∧
      ((breaksOff reply = false ∧ ∃ report', ((working rest (held.filter (· != message.id))
          report').routine p claim).Shows D seen' result) ∨
        (breaksOff reply ∧ ∃ released, seen' =
          [.exchanged ⟨.store (.release claim (held.filter (· != message.id))), released⟩])) := by
  obtain ⟨outcome, interludes, seen₁, hdispatch, rfl, hconcluding⟩ :=
    (Asks.dispatching message rest held report).shows hshows
  obtain ⟨time, seen₂, rfl, hrecording⟩ :=
    (Asks.concluding message rest held report outcome).shows_now hconcluding
  cases outcome with
  | ok outcome =>
      obtain ⟨reply, seen', rfl, hafter⟩ :=
        (Asks.recordingSuccess message rest held report outcome time).shows_store hrecording
      exact ⟨interludes, _, time, reply, seen', hdispatch, rfl, shows_afterAttempt hafter⟩
  | error failure =>
      obtain ⟨reply, seen', rfl, hafter⟩ :=
        (Asks.recordingFailure message rest held report failure time).shows_store hrecording
      exact ⟨interludes, _, time, reply, seen', hdispatch, rfl, shows_afterAttempt hafter⟩

/-- What is to be seen of a cycle after its fetch is a course. -/
theorem course_of_shows
    (hshows : ((working left held report).routine p claim).Shows D seen result) :
    Course D p claim left held seen := by
  induction left generalizing held report seen with
  | nil =>
      cases hshows
      exact .finished held
  | cons message rest ih =>
      obtain ⟨requested, _, seen₁, rfl, rfl, hgoesOn⟩ :=
        (Asks.working message rest held report).shows hshows
      cases requested with
      | true =>
          obtain ⟨released, seen₂, rfl, hended⟩ := (Asks.leaving held report).shows_store hgoesOn
          cases hended
          exact .stopped message rest held released
      | false =>
          obtain ⟨now, seen₂, rfl, hrenewing⟩ :=
            (Asks.preparing message rest held report).shows_now hgoesOn
          obtain ⟨renewed, seen₃, rfl, hafter⟩ :=
            (Asks.renewing message rest held report now).shows_store hrenewing
          cases renewed with
          | error failure =>
              obtain ⟨released, rfl⟩ := shows_givingBack hafter
              exact .cutOff message rest held now failure released
          | ok renewed =>
              simp only [afterRenewal] at hafter
              split at hafter
              next hmem =>
                rw [List.contains_iff_mem] at hmem
                obtain ⟨interludes, outcome, time, reply, seen', hdispatch, rfl,
                  hgoesOn | hbreaks⟩ := shows_dispatching hafter
                · obtain ⟨hsettled, report', hrest⟩ := hgoesOn
                  have hcourse := Course.attempted
                    ⟨message, held, now, renewed, interludes, outcome, time, reply⟩ hmem hdispatch
                    hsettled (ih hrest)
                  rwa [Turn.seen, List.append_assoc, List.append_assoc] at hcourse
                · obtain ⟨hbreaks, released, rfl⟩ := hbreaks
                  have hcourse := Course.brokenOff rest
                    ⟨message, held, now, renewed, interludes, outcome, time, reply⟩ released hmem
                    hdispatch hbreaks
                  rwa [Turn.seen, List.append_assoc, List.append_assoc] at hcourse
              next hgone =>
                rw [List.contains_iff_mem] at hgone
                exact .passedOver now renewed hgone (ih hafter)

/-- What a fetch has brought, if it came to anything. -/
def batchOf : Except Failure (List Message) → List Message
  | .ok batch => batch
  | .error _ => []

/-- A cycle reads the clock and fetches, and goes through what it fetched. -/
theorem course_of_cycle (hshows : (p.cycle claim).Shows D seen result) :
    ∃ now reply later, seen = .exchanged ⟨.now, now⟩ ::
        .exchanged ⟨.store (.fetch claim p.batchSize now p.lease), reply⟩ :: later ∧
      Course D p claim (batchOf reply) ((batchOf reply).map Message.id) later := by
  obtain ⟨now, seen₁, rfl, hfetching⟩ := Asks.starting.shows_now (φ := .starting) hshows
  obtain ⟨reply, later, rfl, hworking⟩ := (Asks.fetching now).shows_store hfetching
  refine ⟨now, reply, later, rfl, ?_⟩
  cases reply with
  | error failure =>
      cases hworking
      exact .finished []
  | ok batch => exact course_of_shows hworking

end Processor

end Outbox
