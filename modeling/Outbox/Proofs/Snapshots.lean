import Outbox.Proofs.Fencing

/-! # Outcomes are worked out from what is stored

A cycle works with the messages as it fetched them, however long ago that was. While it still holds
a row, nobody has changed the message in it; so the retry count and the schedule that the cycle
works out from its own copy are those that the table works out from the row.
-/

namespace Outbox

namespace Row.Change

variable {row after : Row} {call : StoreCall}

/-- A change that leaves a claim on the row leaves the message as it is. -/
theorem message_eq_of_leased (hchange : row.Change call (some after))
    (hleased : after.lease.isSome) : after.message = row.message := by
  generalize hafter : some after = result at hchange
  cases hchange with
  | kept | claimed | extended => cases hafter; rfl
  | processed | failed | released => cases hafter; cases hleased
  | deleted => cases hafter

end Row.Change

theorem Row.isSome_lease_of_isHeldBy {row : Row} {claim : ClaimToken}
    (hheld : row.isHeldBy claim) : row.lease.isSome := by
  obtain ⟨_, lease, hlease, _⟩ := isHeldBy_iff.mp hheld
  exact Option.isSome_of_mem hlease

/-- A mark under the claim that holds the row records the outcome, and drops the lease. -/
theorem Table.row?_mark_of_held {t : Table} {claim : ClaimToken} {id : MessageId} {row : Row}
    (hrow : t.row? id = some row) (hheld : row.isHeldBy claim) (record : Message → Message)
    (keepsId : ∀ m, (record m).id = m.id) :
    (t.mark claim id record keepsId).2.row? id = some ⟨record row.message, none⟩ := by
  rw [row?_mark, hrow, Option.map_some, if_pos ⟨rfl, hheld⟩]

namespace Processor.Phase

/-- The messages of the batch that the cycle is at or has still before it. -/
def inHand : Phase → List Message
  | starting | fetching _ | leaving _ _ | givingBack _ _ | ended _ => []
  | working left _ _ => left
  | preparing message rest _ _ | renewing message rest _ _ _ | dispatching message rest _ _
  | concluding message rest _ _ _ | recording message rest _ _ _ _ => message :: rest

section

variable {p : Processor} {claim : ClaimToken} {message : Message} {rest : List Message}
  {held : List MessageId} {report : BatchReport}

/-- A renewal puts nothing new into the cycle's hands. -/
theorem inHand_afterRenewal_subset (renewed : Except Failure (List MessageId)) :
    (afterRenewal message rest held report renewed).inHand ⊆ message :: rest := by
  cases renewed with
  | error failure => exact List.nil_subset _
  | ok renewed =>
      simp only [afterRenewal]
      split
      · exact List.Subset.refl _
      · exact List.subset_cons_self _ _

/-- An attempt puts nothing new into the cycle's hands. -/
theorem inHand_afterAttempt_subset (attempt : Except Failure Attempt) :
    (afterAttempt message rest held report attempt).inHand ⊆ message :: rest := by
  cases attempt with
  | error failure => exact List.nil_subset _
  | ok attempt => exact List.subset_cons_self _ _

/-- Only a fetch brings messages into hand. -/
theorem Asks.inHand_subset {φ : Phase} {q : Request} {next : q.Answer → Phase}
    (hasks : Asks p claim φ q next) (hstarted : ∀ now, φ ≠ .fetching now) (answer : q.Answer) :
    (next answer).inHand ⊆ φ.inHand := by
  cases hasks with
  | fetching now => exact (hstarted now rfl).elim
  | working => cases answer <;> first | exact List.nil_subset _ | exact List.Subset.refl _
  | renewing => exact inHand_afterRenewal_subset answer
  | recordingSuccess => exact inHand_afterAttempt_subset _
  | recordingFailure => exact inHand_afterAttempt_subset _
  | starting | leaving | givingBack => exact List.nil_subset _
  | preparing | dispatching | concluding => exact List.Subset.refl _

end

end Processor.Phase

/-- The message of this id is marked. -/
def StoreCall.marked? : StoreCall → Option MessageId
  | markProcessed _ id _ | markFailed _ id _ _ => some id
  | _ => none

/-- The processor records an outcome of the message by this call. -/
inductive Processor.Records (p : Processor) (claim : ClaimToken) (m : Message) : StoreCall → Prop
  | processed (time : Instant) : Records p claim m (.markProcessed claim m.id time)
  | failed (failure : Failure) (time : Instant) : Records p claim m
      (.markFailed claim m.id failure.message
        (p.retryPolicy.nextRunAt (incrementCapped m.retryCount) time))

/-- What a cycle marks it has in hand, and it records what has become of that very message. -/
theorem Processor.Phase.Asks.records {p : Processor} {claim : ClaimToken} {φ : Phase}
    {call : StoreCall} {next : Except Failure call.Reply → Phase} {id : MessageId}
    (hasks : Asks p claim φ (.store call) next) (hmarked : call.marked? = some id) :
    ∃ m ∈ φ.inHand, m.id = id ∧ p.Records claim m call := by
  cases hasks with
  | recordingSuccess message rest held report outcome now =>
      exact ⟨message, List.mem_cons_self, Option.some.inj hmarked, .processed now⟩
  | recordingFailure message rest held report failure now =>
      exact ⟨message, List.mem_cons_self, Option.some.inj hmarked, .failed failure now⟩
  | fetching | leaving | renewing | givingBack => cases hmarked

theorem Fleet.Move.calls_of_request {s s' : Fleet} {claim : ClaimToken} {fate : Fate}
    {call : StoreCall} (hmove : s.Move (.store claim fate) s') (hreaches : fate.reaches)
    (hrequest : s.request? claim = some (.store call)) : s.Calls (.store claim fate) call := by
  cases hmove with
  | store hat =>
      rw [request?, hat] at hrequest
      cases hrequest
      exact .cycle hat hreaches

namespace Run

open Processor Phase

variable {r : Run} {n f : Nat} {claim : ClaimToken} {id : MessageId} {m : Message}

/-- Nobody but its cycle makes calls under the claim. -/
def IsOwn (r : Run) (claim : ClaimToken) : Prop :=
  ∀ n, ∀ call ∈ (r.event n).outside?, call.claim? ≠ some claim

/-- In step `n` the cycle of the claim is handed the message by its fetch. -/
def Hands (r : Run) (n : Nat) (claim : ClaimToken) (m : Message) : Prop :=
  ∃ limit now lease, r.event n = .store claim .served ∧
    r.Calls n (.fetch claim limit now lease) ∧
    m ∈ ((r.table n).fetch claim limit now lease).1

/-- The cycle has fetched the message, and the row is as fetched if it is still held. -/
structure Matches (r : Run) (n : Nat) (claim : ClaimToken) (m : Message) : Prop where
  handed : ∃ f, f < n ∧ r.Hands f claim m
  held : ∀ row, (r.table n).row? m.id = some row → row.isHeldBy claim → row.message = m

theorem IsOwn.maker (hown : r.IsOwn claim) {call : StoreCall} (hcalls : r.Calls n call)
    (hclaim : call.claim? = some claim) :
    ∃ w, (r.state n).workers claim = some w ∧ w.Makes claim (r.event n) call := by
  rcases made_by_cycle hcalls hclaim with houtside | hmaker
  · exact (hown n call (houtside ▸ rfl) hclaim).elim
  · exact hmaker

/-- A cycle that is not fetching has nothing returned to it. -/
theorem IsOwn.not_returns (hown : r.IsOwn claim) {w : Worker} {φ : Phase}
    (hw : (r.state n).workers claim = some w) (hφ : w.At claim φ)
    (hstarted : ∀ now, φ ≠ .fetching now) : ¬ r.Returns n claim id := by
  rintro ⟨now, limit, lease, hcalls, _⟩
  obtain ⟨w', hw', hmakes⟩ := hown.maker hcalls rfl
  obtain rfl := Option.some.inj (hw.symm.trans hw')
  obtain ⟨_, hrequest⟩ := hmakes.of_fetch
  rw [hφ] at hrequest
  obtain ⟨next, hasks⟩ := asks_of_request? hrequest
  exact hstarted now hasks.eq_fetching

/-- A row stays as fetched, if it is held at all, until the cycle fetches it once more. -/
theorem Matches.succ (hmatches : r.Matches n claim m) (hnot : ¬ r.Returns n claim m.id) :
    r.Matches (n + 1) claim m := by
  obtain ⟨f, hlt, hhands⟩ := hmatches.handed
  refine ⟨⟨f, by omega, hhands⟩, fun after hafter hheld => ?_⟩
  have hholder := Table.holder?_eq_some.mpr ⟨after, hafter, hheld⟩
  obtain ⟨row, hrow, hbefore⟩ :=
    Table.holder?_eq_some.mp ((holder?_succ.mp hholder).resolve_left hnot).1
  rw [← hmatches.held row hrow hbefore]
  rcases row_step hrow with hsame | ⟨call, _, hchange⟩
  · rw [Option.some.inj (hsame.symm.trans hafter)]
  · rw [hafter] at hchange
    exact hchange.message_eq_of_leased (Row.isSome_lease_of_isHeldBy hheld)

/-- What a fetch hands over is as the row is. -/
theorem Hands.matches (hhands : r.Hands n claim m) : r.Matches (n + 1) claim m := by
  refine ⟨⟨n, Nat.lt_succ_self n, hhands⟩, fun after hafter _ => ?_⟩
  obtain ⟨limit, now, lease, _, hcalls, hmem⟩ := hhands
  obtain ⟨row, hrow, rfl, _⟩ := Table.exists_row_of_mem_fetched hmem
  have hchange := Table.change_of_answer hrow (.fetch claim limit now lease)
  rw [← Calls.table hcalls, hafter] at hchange
  generalize hresult : some after = result at hchange
  cases hchange with
  | kept | claimed => cases hresult; rfl

/-- What an answer leaves in hand was in hand before, or the answer is the batch. -/
theorem inHand_or_hands_of_answer {p : Processor} {φ : Phase} {q : Request}
    {next : q.Answer → Phase} {answer : q.Answer} (hasks : Asks p claim φ q next)
    (hw : (r.state n).workers claim = some ⟨p, φ.routine p claim, none⟩)
    (hanswer : (r.state n).Answers claim (r.event n) q answer) (hm : m ∈ (next answer).inHand) :
    m ∈ φ.inHand ∨ r.Hands n claim m := by
  by_cases hfetching : ∃ now, φ = .fetching now
  · obtain ⟨now, rfl⟩ := hfetching
    rw [hasks.routine_eq] at hw
    cases hasks
    generalize he : r.event n = e at hanswer
    cases hanswer with
    | store fate =>
        cases fate with
        | served =>
            have hcalls : r.Calls n (.fetch claim p.batchSize now p.lease) := by
              rw [Calls, he]
              exact .cycle hw rfl
            exact .inr ⟨_, _, _, he, hcalls, hm⟩
        | cutOff | refused => cases hm
  · exact .inl (hasks.inHand_subset (fun now heq => hfetching ⟨now, heq⟩) answer hm)

/-- What holds of all messages in hand: it holds of those that a fetch brings, and every step keeps
it. -/
theorem forall_inHand {P : Nat → Message → Prop}
    (hhands : ∀ {n m}, r.Hands n claim m → P (n + 1) m)
    (hkeep : ∀ {n w φ m}, (r.state n).workers claim = some w → w.At claim φ → m ∈ φ.inHand →
      P n m → P (n + 1) m)
    {w : Worker} (hw : (r.state n).workers claim = some w) :
    ∃ φ, w.At claim φ ∧ ∀ m ∈ φ.inHand, P n m := by
  refine forall_phase_at (P := fun n φ => ∀ m ∈ φ.inHand, P n m) ?_ ?_ ?_ hw
  · intro n _ m hm
    cases hm
  · exact fun hw hφ _ hinHand m hm => hkeep hw hφ hm (hinHand m hm)
  · intro n p φ q next answer hasks hw _ hanswer hinHand m hm
    rcases inHand_or_hands_of_answer hasks hw hanswer hm with hm | hnew
    · exact hkeep hw rfl hm (hinHand m hm)
    · exact hhands hnew

/-- Nothing is returned to a cycle that has a message in hand. -/
theorem Matches.succ_of_inHand (hown : r.IsOwn claim) {w : Worker} {φ : Phase}
    (hw : (r.state n).workers claim = some w) (hφ : w.At claim φ) (hm : m ∈ φ.inHand)
    (hmatches : r.Matches n claim m) : r.Matches (n + 1) claim m := by
  refine hmatches.succ (hown.not_returns hw hφ fun now hfetching => ?_)
  rw [hfetching] at hm
  cases hm

/-- Whatever happens at the table, what the cycle has in hand matches the rows that it holds. -/
theorem matches_of_inHand (hown : r.IsOwn claim) {w : Worker}
    (hw : (r.state n).workers claim = some w) :
    ∃ φ, w.At claim φ ∧ ∀ m ∈ φ.inHand, r.Matches n claim m :=
  forall_inHand Hands.matches (Matches.succ_of_inHand hown) hw

/-- A message that is dispatched has been handed to its cycle by the fetch. -/
theorem handed_of_begins (hbegins : r.Begins n claim m) : ∃ f, f < n + 1 ∧ r.Hands f claim m := by
  obtain ⟨heartbeat, hafter, _⟩ := hbegins
  obtain ⟨w, hw, hrequest⟩ := Fleet.request?_eq_some.mp hafter
  obtain ⟨φ, hφ, hinHand⟩ := forall_inHand (P := fun n m => ∃ f, f < n ∧ r.Hands f claim m)
    (fun hhands => ⟨_, Nat.lt_succ_self _, hhands⟩)
    (fun _ _ _ ⟨f, hlt, hhands⟩ => ⟨f, Nat.lt_succ_of_lt hlt, hhands⟩) hw
  rw [hφ] at hrequest
  obtain ⟨next, hasks⟩ := asks_of_request? hrequest
  obtain ⟨rest, held, report, _, rfl⟩ := hasks.eq_dispatching
  exact hinHand m List.mem_cons_self

/-- The cycle itself makes the call by which it records an outcome. -/
theorem IsOwn.call_of_marks (hown : r.IsOwn claim) (hmarks : r.Marks n claim id) :
    ∃ w call fate, (r.state n).workers claim = some w ∧ r.event n = .store claim fate ∧
      w.rest.request? = some (.store call) ∧ r.Calls n call ∧ call.marked? = some id := by
  obtain ⟨call, hcalls, hclaim, hmarked⟩ : ∃ call, r.Calls n call ∧ call.claim? = some claim ∧
      call.marked? = some id := by
    rcases hmarks with ⟨time, hcalls⟩ | ⟨error, nextRun, hcalls⟩
    · exact ⟨_, hcalls, rfl, rfl⟩
    · exact ⟨_, hcalls, rfl, rfl⟩
  obtain ⟨w, hw, hmakes⟩ := hown.maker hcalls hclaim
  generalize hevent : r.event n = e at hmakes
  cases hmakes with
  | itself fate hrequest => exact ⟨w, call, fate, hw, rfl, hrequest, hcalls, hmarked⟩
  | heartbeat => cases hmarked

/-- An outcome that the cycle records is that of a message in hand. -/
theorem recorded_of_marks (hown : r.IsOwn claim) (hmarks : r.Marks n claim id) :
    ∃ w m, (r.state n).workers claim = some w ∧ r.Matches n claim m ∧ m.id = id ∧
      ∃ call, r.Calls n call ∧ w.processor.Records claim m call := by
  obtain ⟨w, call, _, hw, _, hrequest, hcalls, hmarked⟩ := hown.call_of_marks hmarks
  obtain ⟨φ, hφ, hmatches⟩ := matches_of_inHand hown hw
  rw [hφ] at hrequest
  obtain ⟨next, hasks⟩ := asks_of_request? hrequest
  obtain ⟨m, hm, hid, hcall⟩ := hasks.records hmarked
  exact ⟨w, m, hw, hmatches m hm, hid, call, hcalls, hcall⟩

/-- A mark of a cycle that changes a row finds there the message as the cycle fetched it. So a
failure is counted, and the next run computed, from the retry count that the row gets by it, and the
schedule becomes the later one of that which was fetched and the next run. -/
theorem outcomes_fit_snapshots (hown : r.IsOwn claim) (hrecords : r.Records n claim id) :
    ∃ w m f lease, (r.state n).workers claim = some w ∧ f < n ∧ r.Hands f claim m ∧
      (r.table n).row? id = some ⟨m, some lease⟩ ∧
      ((∃ time, r.Calls n (.markProcessed claim id time) ∧
          (r.table (n + 1)).row? id = some ⟨m.markProcessed time, none⟩) ∨
        ∃ (failure : Failure) (time : Instant) (after : Message),
          let count := incrementCapped m.retryCount
          let nextRun := w.processor.retryPolicy.nextRunAt count time
          r.Calls n (.markFailed claim id failure.message nextRun) ∧
            (r.table (n + 1)).row? id = some ⟨after, none⟩ ∧
            after.retryCount = count ∧
            after.scheduledAt = match nextRun with
              | some next => max m.scheduledAt next
              | none => m.scheduledAt) := by
  obtain ⟨hmarks, hholder⟩ := records_iff.mp hrecords
  obtain ⟨w, m, hw, hmatches, rfl, call, hcalls, hcall⟩ := recorded_of_marks hown hmarks
  obtain ⟨row, hrow, hheld⟩ := Table.holder?_eq_some.mp hholder
  obtain ⟨f, hlt, hhands⟩ := hmatches.handed
  obtain rfl := hmatches.held row hrow hheld
  obtain ⟨hopen, lease, hlease, _⟩ := Row.isHeldBy_iff.mp hheld
  have hmarked {record : Message → Message} (keepsId : ∀ m, (record m).id = m.id) :=
    Table.row?_mark_of_held hrow hheld record keepsId
  refine ⟨w, row.message, f, lease, hw, hlt, hhands, hlease ▸ hrow, ?_⟩
  cases hcall with
  | processed time =>
      exact .inl ⟨time, hcalls, (congrArg (·.row? row.message.id) (Calls.table hcalls)).trans
        (hmarked _)⟩
  | failed failure time =>
      have hafter := (congrArg (·.row? row.message.id) (Calls.table hcalls)).trans (hmarked _)
      rw [Message.markFailed_eq hopen] at hafter
      exact .inr ⟨failure, time, _, hcalls, hafter, rfl, rfl⟩

/-- A script leaves a claim to its cycle when nobody else in it makes a call under it. -/
theorem isOwn_ofScript {t : Table} {script : List Event}
    {hpossible : ((Fleet.initial t).after script).isSome}
    (hown : ∀ n (hlt : n < script.length), ∀ call ∈ script[n].outside?,
      call.claim? ≠ some claim) : (ofScript t script hpossible).IsOwn claim :=
  forall_event_ofScript (P := fun _ e => ∀ call ∈ e.outside?, call.claim? ≠ some claim)
    (fun n call hmem => by cases hmem) hown

/-- A message that has failed before is fetched, and while it is being dispatched another cycle
looks for messages. Then the dispatch fails. -/
def failsAgain : List Event :=
  let claim := ClaimToken.numbered 1
  let early := ClaimToken.numbered 2
  let other := ClaimToken.numbered 3
  let m := Message.numbered 1 "order" .epoch
  let p : Processor :=
    ⟨.exponential (.ofSeconds 1) 2.0 (.ofSeconds 8), 1, .ofSeconds 5, .ofSeconds 3⟩
  [.commit (.single m),
    .outside (.fetch early 1 .epoch (.ofSeconds 1)), .outside (.markFailed early m.id "down" none),
    .begin claim p, .time claim .epoch, .store claim .served, .stopFlag claim false,
    .time claim .epoch, .store claim .served,
    .begin other p, .time other (.numbered 1), .store other .served,
    .delivery claim (.error (.unavailable "down")), .time claim (.numbered 1),
    .store claim .served]

def failsAgainRun : Run := ofScript .empty failsAgain (by decide +kernel)

/-- The row when the second failure is recorded. -/
def failsAgainRow : Row :=
  ⟨(Message.numbered 1 "order" .epoch).markFailed "down" none, some ⟨.numbered 1, .numbered 3⟩⟩

def failedAgainRow : Row :=
  ⟨failsAgainRow.message.markFailed "store unavailable: down" (some (.numbered 3)), none⟩

theorem failsAgainRun_isOwn : failsAgainRun.IsOwn (.numbered 1) :=
  isOwn_ofScript (by decide +kernel)

/-- The second failure is counted on top of the one that was fetched, and puts the message off by
two seconds. -/
theorem second_failure_fits_snapshot :
    let id := failsAgainRow.id
    failsAgainRun.IsOwn (.numbered 1) ∧ failsAgainRun.Records 14 (.numbered 1) id ∧
      ∃ f < 14, failsAgainRun.Hands f (.numbered 1) failsAgainRow.message ∧
        ∃ after, (failsAgainRun.table 15).row? id = some ⟨after, none⟩ ∧
          after.retryCount = incrementCapped failsAgainRow.message.retryCount ∧
          after.retryCount = 2 ∧ after.scheduledAt = .numbered 3 := by
  intro id
  have hbefore : (failsAgainRun.table 14).row? id = some failsAgainRow := by decide +kernel
  have hafter : (failsAgainRun.table 15).row? id = some failedAgainRow := by decide +kernel
  have hrequest : (failsAgainRun.state 14).request? (.numbered 1) = some (.store (.markFailed
      (.numbered 1) id "store unavailable: down" (some (.numbered 3)))) := by decide +kernel
  have hrecords : failsAgainRun.Records 14 (.numbered 1) id := by
    refine ⟨.inr ⟨_, _, (failsAgainRun.move 14).calls_of_request rfl hrequest⟩, fun hsame => ?_⟩
    rw [hsame, hbefore] at hafter
    revert hafter
    decide
  obtain ⟨w, m, f, lease, _, hlt, hhands, hrow, hcases⟩ :=
    outcomes_fit_snapshots failsAgainRun_isOwn hrecords
  obtain rfl : failsAgainRow.message = m :=
    congrArg Row.message (Option.some.inj (hbefore.symm.trans hrow))
  refine ⟨failsAgainRun_isOwn, hrecords, f, hlt, hhands, ?_⟩
  rcases hcases with ⟨time, _, hmarked⟩ | ⟨failure, time, after, _, hmarked, hcount, _⟩
  · have hprocessed : false = true := congrArg (·.message.isProcessed)
      (Option.some.inj (hafter.symm.trans hmarked))
    cases hprocessed
  · obtain rfl : failedAgainRow.message = after :=
      congrArg Row.message (Option.some.inj (hafter.symm.trans hmarked))
    exact ⟨_, hmarked, hcount, by decide, by decide⟩

end Run

end Outbox
