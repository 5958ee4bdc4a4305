import Outbox.Proofs.Scripts

/-! # Whether a report adds up

A cycle visits the messages of its batch one after the other and counts each of them once. When it
is asked to stop, it gives back what it still holds and counts that. A message that a renewal has
found to be held by others before its turn is in neither count. So the counts of a report add up to
what was fetched unless the cycle stops before it gets to such a message, whatever the store, the
consumers and the clock answer.
-/

namespace Outbox

/-- A request, and what was answered to it. -/
structure Exchange where
  request : Request
  answer : request.Answer

namespace Exchange

/-- The messages that a renewal found to be held. -/
def renewed? : Exchange → Option (List MessageId)
  | ⟨.store (.renew ..), .ok renewed⟩ => some renewed
  | _ => none

/-- A request to stop is seen. -/
def stops : Exchange → Bool
  | ⟨.stopRequested, requested⟩ => requested
  | _ => false

end Exchange

/-- With these exchanges the routine comes to this result. -/
inductive Routine.Yields {α : Type} : Routine α → List Exchange → α → Prop
  | done (a : α) : Yields (.done a) [] a
  | ask {q : Request} {resume : q.Answer → Routine α} {log : List Exchange} {a : α}
      (answer : q.Answer) (hrest : Yields (resume answer) log a) :
      Yields (.ask q resume) (⟨q, answer⟩ :: log) a

namespace BatchReport

/-- How many messages have had their turn. -/
def visited (r : BatchReport) : Nat := r.processed + r.unhandled + r.failed + r.lost

theorem visited_add (r : BatchReport) (attempt : Attempt) :
    (r.add attempt).visited = r.visited + 1 := by
  cases attempt <;> simp only [add, visited] <;> omega

theorem fetched_add (r : BatchReport) (attempt : Attempt) :
    (r.add attempt).fetched = r.fetched := by
  cases attempt <;> rfl

theorem released_add (r : BatchReport) (attempt : Attempt) :
    (r.add attempt).released = r.released := by
  cases attempt <;> rfl

end BatchReport

namespace Processor

open Phase

variable {p : Processor} {claim : ClaimToken} {message : Message} {rest : List Message}
  {held : List MessageId} {report final : BatchReport} {log : List Exchange}

/-- Of these ids, those of no message that has had its turn, and which all renewals returned. -/
def stillHeld (ids : List MessageId) (visited : List Message) (renewals : List (List MessageId)) :
    List MessageId :=
  ids.filter fun id =>
    !(visited.map Message.id).contains id && renewals.all fun renewed => renewed.contains id

/-- The first exchange of a cycle in a phase is what it asks there, and the others are those of the
phase that the answer leads to. -/
theorem Phase.Asks.yields {φ : Phase} {q : Request} {next : q.Answer → Phase}
    {result : Except Failure BatchReport} (hasks : Asks p claim φ q next)
    (hyields : (φ.routine p claim).Yields log result) :
    ∃ answer log', log = ⟨q, answer⟩ :: log' ∧
      ((next answer).routine p claim).Yields log' result := by
  rw [hasks.routine_eq] at hyields
  cases hyields with
  | ask answer hrest => exact ⟨answer, _, rfl, hrest⟩

/-- After a failure of the store there is no report. -/
theorem not_yields_givingBack {failure : Failure} :
    ¬ ((givingBack held failure).routine p claim).Yields log (.ok final) := by
  intro hyields
  obtain ⟨_, _, _, hended⟩ := (Asks.givingBack held failure).yields hyields
  cases hended

/-- A cycle that ends well has gone on after every attempt. -/
theorem yields_afterAttempt {attempt : Except Failure Attempt}
    (hyields : ((afterAttempt message rest held report attempt).routine p claim).Yields log
      (.ok final)) :
    ∃ attempt, ((working rest (held.filter (· != message.id)) (report.add attempt)).routine
      p claim).Yields log (.ok final) := by
  cases attempt with
  | error failure => exact (not_yields_givingBack hyields).elim
  | ok attempt => exact ⟨attempt, hyields⟩

/-- From a dispatch to the next turn nothing is renewed and nobody is asked for a stop. -/
theorem yields_dispatching
    (hyields : ((dispatching message rest held report).routine p claim).Yields log (.ok final)) :
    ∃ attempt tail log', log = tail ++ log' ∧ tail.filterMap Exchange.renewed? = [] ∧
      (∀ x ∈ tail, x.stops = false) ∧
      ((working rest (held.filter (· != message.id)) (report.add attempt)).routine
        p claim).Yields log' (.ok final) := by
  obtain ⟨outcome, log₁, rfl, hconcluding⟩ :=
    (Asks.dispatching message rest held report).yields hyields
  obtain ⟨now, log₂, rfl, hrecording⟩ :=
    (Asks.concluding message rest held report outcome).yields hconcluding
  cases outcome with
  | ok outcome =>
      obtain ⟨recorded, log₃, rfl, hafter⟩ :=
        (Asks.recordingSuccess message rest held report outcome now).yields hrecording
      obtain ⟨attempt, hworking⟩ := yields_afterAttempt hafter
      exact ⟨attempt, [_, _, _], log₃, rfl, rfl, by simp [Exchange.stops], hworking⟩
  | error failure =>
      obtain ⟨recorded, log₃, rfl, hafter⟩ :=
        (Asks.recordingFailure message rest held report failure now).yields hrecording
      obtain ⟨attempt, hworking⟩ := yields_afterAttempt hafter
      exact ⟨attempt, [_, _, _], log₃, rfl, rfl, by simp [Exchange.stops], hworking⟩

/-- In a round a cycle either gives back what it holds, or a message has its turn. -/
theorem yields_working_cons
    (hyields : ((working (message :: rest) held report).routine p claim).Yields log (.ok final)) :
    (log = [⟨.stopRequested, true⟩, ⟨.store (.release claim held), .ok ()⟩] ∧
      final = { report with released := held.length }) ∨
    ∃ renewed attempt round log', log = round ++ log' ∧
      round.filterMap Exchange.renewed? = [renewed] ∧ (∀ x ∈ round, x.stops = false) ∧
      ((working rest ((held.filter renewed.contains).filter (· != message.id))
        (report.add attempt)).routine p claim).Yields log' (.ok final) := by
  obtain ⟨requested, log₁, rfl, hgoesOn⟩ :=
    (Asks.working message rest held report).yields hyields
  cases requested with
  | true =>
      left
      obtain ⟨released, log₂, rfl, hended⟩ := (Asks.leaving held report).yields hgoesOn
      cases released with
      | error failure => cases hended
      | ok released =>
          cases hended
          exact ⟨rfl, rfl⟩
  | false =>
      right
      obtain ⟨now, log₂, rfl, hrenewing⟩ :=
        (Asks.preparing message rest held report).yields hgoesOn
      obtain ⟨renewed, log₃, rfl, hafter⟩ :=
        (Asks.renewing message rest held report now).yields hrenewing
      cases renewed with
      | error failure => exact (not_yields_givingBack hafter).elim
      | ok renewed =>
          refine ⟨renewed, ?_⟩
          simp only [afterRenewal] at hafter
          split at hafter
          next hmem =>
            obtain ⟨attempt, tail, log', rfl, hquiet, hgoing, hworking⟩ :=
              yields_dispatching hafter
            refine ⟨attempt, _ :: _ :: _ :: tail, log', rfl, ?_, ?_, hworking⟩
            · exact congrArg (renewed :: ·) hquiet
            · simpa [Exchange.stops] using hgoing
          next hgone =>
            -- the message is not held any more, so that nothing is left to be taken off the list
            have hothers : (held.filter renewed.contains).filter (· != message.id) =
                held.filter renewed.contains := by
              refine List.filter_eq_self.mpr fun id hid => ?_
              rw [bne_iff_ne]
              rintro rfl
              exact hgone (List.contains_iff_mem.mpr hid)
            rw [hothers]
            exact ⟨.lost, [_, _, _], log₃, rfl, rfl, by simp [Exchange.stops], hafter⟩

/-- A turn takes from what is held what its renewal did not return and its own message. -/
theorem stillHeld_cons (ids renewed : List MessageId) (message : Message)
    (visited : List Message) (renewals : List (List MessageId)) :
    stillHeld ((ids.filter renewed.contains).filter (· != message.id)) visited renewals =
      stillHeld ids (message :: visited) (renewed :: renewals) := by
  simp only [stillHeld, List.filter_filter]
  refine List.filter_congr fun id _ => ?_
  rw [List.map_cons, List.contains_cons, List.all_cons, bne, Bool.not_or]
  ac_rfl

/-- The messages before the stop have their turn. The others get none and are given back as far as
they are held. -/
theorem yields_working {left : List Message}
    (hyields : ((working left held report).routine p claim).Yields log (.ok final)) :
    ∃ visited unvisited, left = visited ++ unvisited ∧ final.fetched = report.fetched ∧
      final.visited = report.visited + visited.length ∧
      ((unvisited = [] ∧ (∀ x ∈ log, x.stops = false) ∧ final.released = report.released) ∨
        let kept := stillHeld held visited (log.filterMap Exchange.renewed?)
        unvisited ≠ [] ∧ final.released = kept.length ∧ ∃ earlier, log = earlier ++
          [⟨.stopRequested, true⟩, ⟨.store (.release claim kept), .ok ()⟩]) := by
  induction left generalizing held report log with
  | nil =>
      cases hyields
      exact ⟨[], [], rfl, rfl, rfl, .inl ⟨rfl, by simp, rfl⟩⟩
  | cons message rest ih =>
      rcases yields_working_cons hyields with ⟨rfl, rfl⟩ | ⟨renewed, attempt, round, log', rfl,
        hrenewed, hgoing, hworking⟩
      · have hkept : stillHeld held [] [] = held :=
          List.filter_eq_self.mpr fun _ _ => rfl
        refine ⟨[], message :: rest, rfl, rfl, rfl, .inr ⟨List.cons_ne_nil _ _, ?_, [], ?_⟩⟩
        · exact congrArg List.length hkept.symm
        · change _ = [_, Exchange.mk (.store (.release claim (stillHeld held [] []))) (.ok ())]
          rw [hkept]
      · obtain ⟨visited, unvisited, rfl, hfetched, hvisited, hend⟩ := ih hworking
        refine ⟨message :: visited, unvisited, rfl, ?_, ?_, ?_⟩
        · rw [hfetched, BatchReport.fetched_add]
        · rw [hvisited, BatchReport.visited_add, List.length_cons]
          omega
        · rcases hend with ⟨hnil, hgoing', hreleased⟩ | ⟨hsome, hreleased, earlier, hlog⟩
          · left
            refine ⟨hnil, fun x hx => ?_, hreleased.trans (report.released_add attempt)⟩
            exact (List.mem_append.mp hx).elim (hgoing x) (hgoing' x)
          · right
            rw [stillHeld_cons] at hreleased hlog
            rw [List.filterMap_append, hrenewed, List.singleton_append]
            refine ⟨hsome, hreleased, round ++ earlier, ?_⟩
            rw [List.append_assoc, ← hlog]

/-- Messages that had their turn are not held afterwards. -/
theorem stillHeld_batch (visited left : List Message) (renewals : List (List MessageId)) :
    stillHeld ((visited ++ left).map Message.id) visited renewals =
      stillHeld (left.map Message.id) visited renewals := by
  have hgone : stillHeld (visited.map Message.id) visited renewals = [] := by
    refine List.filter_eq_nil_iff.mpr fun id hid => ?_
    rw [List.contains_iff_mem.mpr hid]
    exact Bool.false_ne_true
  rw [List.map_append, stillHeld, List.filter_append]
  exact congrArg (· ++ _) hgone

/-- All are still held if none of them had its turn and every renewal returned them. -/
theorem length_stillHeld_eq_iff {ids : List MessageId} {visited : List Message}
    {renewals : List (List MessageId)} :
    (stillHeld ids visited renewals).length = ids.length ↔
      ∀ id ∈ ids, id ∉ visited.map Message.id ∧ ∀ renewed ∈ renewals, id ∈ renewed := by
  rw [stillHeld, List.length_filter_eq_length_iff]
  simp [-List.mem_map]

/-- Whatever is answered to it, a cycle that comes to a report has counted each message that had its
turn, and has given back and counted those of the others that all its renewals returned. So what it
reports adds up to what it fetched just when no message without its turn is missing from a renewal.
It always does if the cycle has not seen a request to stop, since then all messages had their turn.
-/
theorem report_adds_up_iff (hyields : (p.cycle claim).Yields log (.ok report)) :
    ∃ now visited left later, log = ⟨.now, now⟩ ::
        ⟨.store (.fetch claim p.batchSize now p.lease), .ok (visited ++ left)⟩ :: later ∧
      let renewals := later.filterMap Exchange.renewed?
      let kept := stillHeld (left.map Message.id) visited renewals
      report.fetched = visited.length + left.length ∧
      report.processed + report.unhandled + report.failed + report.lost = visited.length ∧
      report.released = kept.length ∧
      (left = [] ∧ (∀ x ∈ later, x.stops = false) ∨
        left ≠ [] ∧ ∃ earlier, later = earlier ++
          [⟨.stopRequested, true⟩, ⟨.store (.release claim kept), .ok ()⟩]) ∧
      (report.fetched =
          report.processed + report.unhandled + report.failed + report.released + report.lost ↔
        ∀ m ∈ left, m.id ∉ visited.map Message.id ∧ ∀ renewed ∈ renewals, m.id ∈ renewed) := by
  obtain ⟨now, log₁, rfl, hfetching⟩ := Asks.starting.yields (φ := .starting) hyields
  obtain ⟨reply, later, rfl, hworking⟩ := (Asks.fetching now).yields hfetching
  cases reply with
  | error failure => cases hworking
  | ok batch =>
      obtain ⟨visited, left, rfl, hfetched, hvisited, hend⟩ := yields_working hworking
      refine ⟨now, visited, left, later, rfl, ?_⟩
      intro renewals kept
      rw [stillHeld_batch] at hend
      have hfetched' : report.fetched = visited.length + left.length :=
        hfetched.trans List.length_append
      have hturns : report.processed + report.unhandled + report.failed + report.lost =
          visited.length := hvisited.trans (Nat.zero_add _)
      have hreleased : report.released = kept.length := by
        rcases hend with ⟨rfl, _, hnone⟩ | ⟨_, hkept, _⟩
        · exact hnone
        · exact hkept
      have hall : kept.length = left.length ↔
          ∀ m ∈ left, m.id ∉ visited.map Message.id ∧ ∀ renewed ∈ renewals, m.id ∈ renewed := by
        have hlength : (left.map Message.id).length = left.length := List.length_map ..
        rw [← hlength, length_stillHeld_eq_iff, List.forall_mem_map]
      refine ⟨hfetched', hturns, hreleased, ?_, ?_⟩
      · rcases hend with ⟨hnil, hgoing, _⟩ | ⟨hsome, _, hstop⟩
        · exact .inl ⟨hnil, hgoing⟩
        · exact .inr ⟨hsome, hstop⟩
      · rw [← hall]
        omega

/-- The renewal before the first of two messages finds that the second has been taken over. The
first is delivered, and then the cycle is asked to stop. -/
def pruned (p : Processor) (claim : ClaimToken) : List Exchange :=
  let first := Message.numbered 1 "order" .epoch
  let second := Message.numbered 2 "order" .epoch
  [⟨.now, .epoch⟩, ⟨.store (.fetch claim p.batchSize .epoch p.lease), .ok [first, second]⟩,
    ⟨.stopRequested, false⟩, ⟨.now, .epoch⟩,
    ⟨.store (.renew claim [first.id, second.id] .epoch p.lease), .ok [first.id]⟩,
    ⟨.dispatch first ⟨claim, [first.id], p.lease⟩, .ok (.delivered 1)⟩, ⟨.now, .epoch⟩,
    ⟨.store (.markProcessed claim first.id .epoch), .ok ()⟩, ⟨.stopRequested, true⟩,
    ⟨.store (.release claim []), .ok ()⟩]

theorem pruned_yields (p : Processor) (claim : ClaimToken) :
    (p.cycle claim).Yields (pruned p claim) (.ok { fetched := 2, processed := 1 }) :=
  .ask _ (.ask _ (.ask _ (.ask _ (.ask _ (.ask _ (.ask _ (.ask _ (.ask _ (.ask _ (.done _))))))))))

/-- The second message is not accounted for: it had no turn, and it is not given back. -/
theorem pruned_does_not_add_up :
    let p : Processor := ⟨.immediate, 2, .ofSeconds 5, .ofSeconds 30⟩
    let report : BatchReport := { fetched := 2, processed := 1 }
    let first := Message.numbered 1 "order" .epoch
    (p.cycle (.numbered 1)).Yields (pruned p (.numbered 1)) (.ok report) ∧
      report.fetched ≠
        report.processed + report.unhandled + report.failed + report.released + report.lost ∧
      ∃ visited left, visited ++ left = [first, .numbered 2 "order" .epoch] ∧
        visited.length = report.processed ∧
        ¬ ∀ m ∈ left, m.id ∉ visited.map Message.id ∧ m.id ∈ [first.id] := by
  intro p report first
  have hyields := pruned_yields p (.numbered 1)
  obtain ⟨now, visited, left, later, hlog, _, hturns, _, _, hiff⟩ := report_adds_up_iff hyields
  have hrenewed : later.filterMap Exchange.renewed? = [[first.id]] :=
    (congrArg (List.filterMap Exchange.renewed?) hlog).symm
  injection hlog with hnow hlog
  injection hlog with hfetch _
  cases hnow
  injection hfetch with _ hreply
  have hbatch : [first, .numbered 2 "order" .epoch] = visited ++ left :=
    Except.ok.inj hreply
  refine ⟨hyields, by decide, visited, left, hbatch.symm, hturns.symm, fun hall => ?_⟩
  rw [hrenewed] at hiff
  have hsum := hiff.mpr (by simpa using hall)
  cases hsum

end Processor

end Outbox
