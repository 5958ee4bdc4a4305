import Outbox.Proofs.Fencing

/-! # Nothing stays claimed

A cycle gets to the end of its batch, or it is asked to stop before, or the store fails it. In the
course of the batch messages drop out of what it holds, since others take them over or since their
attempts are settled. All the same the cycle knows at any time of every row that is held under its
claim, and at its end there is none.
-/

namespace Outbox

theorem Row.isHeldBy_of_claimedBy {row : Row} {claim : ClaimToken}
    (hfree : row.message.isProcessed → row.lease = none) (hclaimed : row.claimedBy = some claim) :
    row.isHeldBy claim := by
  obtain ⟨lease, hlease, hholder⟩ := Option.map_eq_some_iff.mp hclaimed
  refine isHeldBy_iff.mpr ⟨?_, lease, hlease, hholder⟩
  by_contra hprocessed
  rw [hfree (by simpa using hprocessed)] at hlease
  cases hlease

/-- If the event is a call of a cycle, the call is answered. -/
def Event.isAnswered : Event → Bool
  | store _ (.cutOff _) | store _ (.refused _) => false
  | _ => true

namespace Run

open Processor Phase

variable {r : Run} {n : Nat} {claim : ClaimToken} {id : MessageId}

/-- Nobody but its cycle makes calls under the claim, and the store answers the cycle's calls. What
becomes of the renewals at its heartbeats is left open. -/
structure Serves (r : Run) (claim : ClaimToken) : Prop where
  own : ∀ {n call}, r.event n = .outside call → call.claim? ≠ some claim
  served : ∀ {n fate}, r.event n = .store claim fate → fate = .served

/-- The cycle knows of everything that is held under its claim. -/
inductive Knows (r : Run) (n : Nat) (claim : ClaimToken) : Prop
  | notBegun (hnone : (r.state n).workers claim = none)
      (hfree : ∀ id, (r.table n).holder? id ≠ some claim)
  | begun {w : Worker} {φ : Phase} (hw : (r.state n).workers claim = some w) (hφ : w.At claim φ)
      (hleft : φ.HeldIsLeft) (hknown : ∀ id, (r.table n).holder? id = some claim → id ∈ φ.held)

/-- It is a call of the cycle itself that returns messages to it. -/
theorem Serves.of_returns (hserves : r.Serves claim) (hreturns : r.Returns n claim id) :
    (∃ w, (r.state n).workers claim = some w) ∧ ∃ fate, r.event n = .store claim fate := by
  obtain ⟨now, limit, lease, hcalls, _⟩ := hreturns
  rcases made_by_cycle hcalls rfl with houtside | ⟨w, hw, hmakes⟩
  · exact (hserves.own houtside rfl).elim
  · exact ⟨⟨w, hw⟩, hmakes.of_fetch.1⟩

/-- A claim gets hold of a message only by a call of its own cycle. -/
theorem Serves.holder?_of_succ (hserves : r.Serves claim)
    (hcall : ∀ fate, r.event n ≠ .store claim fate)
    (hholder : (r.table (n + 1)).holder? id = some claim) :
    (r.table n).holder? id = some claim := by
  rcases holder?_succ.mp hholder with hreturns | ⟨hbefore, _⟩
  · obtain ⟨_, fate, hevent⟩ := hserves.of_returns hreturns
    exact (hcall fate hevent).elim
  · exact hbefore

theorem mem_others {marked : MessageId} {held : List MessageId} (hmem : id ∈ held)
    (hunmarked : ¬ r.Marks n claim id) (hmarks : r.Marks n claim marked) :
    id ∈ held.filter (· != marked) := by
  have hother : id ≠ marked := by
    rintro rfl
    exact hunmarked hmarks
  exact List.mem_filter.mpr ⟨hmem, by simpa using hother⟩

/-- With a call that is answered, what is held changes as the cycle takes it to change. -/
theorem known_of_call {p : Processor} {φ : Phase} {call : StoreCall}
    {next : Except Failure call.Reply → Phase} (hasks : Asks p claim φ (.store call) next)
    (hcalls : r.Calls n call) (hknown : ∀ id, (r.table n).holder? id = some claim → id ∈ φ.held)
    (hholder : (r.table (n + 1)).holder? id = some claim) :
    id ∈ (next ((r.table n).answer call).1).held := by
  rcases holder?_succ.mp hholder with hreturns | ⟨hbefore, _, hkept, hunmarked⟩
  · obtain ⟨limit, now, lease, rfl, hmem⟩ := (Calls.returns_iff hcalls).mp hreturns
    cases hasks
    exact hmem
  · have hmem := hknown id hbefore
    cases hasks with
    | fetching now => cases hmem
    | leaving held report =>
        exact (hkept ((Calls.releases_iff hcalls).mpr ⟨held, rfl, hmem⟩)).elim
    | givingBack held failure =>
        exact (hkept ((Calls.releases_iff hcalls).mpr ⟨held, rfl, hmem⟩)).elim
    | renewing message rest held report now =>
        have hrenewed : id ∈ ((r.table n).renew claim held now p.lease).1 :=
          Table.mem_renewed.mpr ⟨hmem, Table.holder?_eq_some.mp hbefore⟩
        change id ∈ (afterRenewal message rest held report (.ok _)).held
        rw [held_afterRenewal]
        exact List.mem_filter.mpr ⟨hmem, List.contains_iff_mem.mpr hrenewed⟩
    | recordingSuccess message rest held report outcome now =>
        rw [held_afterAttempt]
        exact mem_others hmem hunmarked (.inl ⟨now, hcalls⟩)
    | recordingFailure message rest held report failure now =>
        rw [held_afterAttempt]
        exact mem_others hmem hunmarked (.inr ⟨_, _, hcalls⟩)

/-- With an answer a cycle gets to know of what it holds by it, and forgets only what it has let go
of. -/
theorem known_of_answer {p : Processor} {φ : Phase} {q : Request} {next : q.Answer → Phase}
    {goOn : q.Answer → Routine (Except Failure BatchReport)} {answer : q.Answer}
    (hserves : r.Serves claim) (hasks : Asks p claim φ q next)
    (hw : (r.state n).workers claim = some ⟨p, .ask q goOn, none⟩)
    (hanswer : (r.state n).Answers claim (r.event n) q answer)
    (hknown : ∀ id, (r.table n).holder? id = some claim → id ∈ φ.held)
    (hholder : (r.table (n + 1)).holder? id = some claim) : id ∈ (next answer).held := by
  cases q with
  | store call =>
      generalize he : r.event n = e at hanswer
      cases hanswer with
      | store fate =>
          obtain rfl := hserves.served he
          have hcalls : r.Calls n call := by
            rw [Calls, he]
            exact .cycle hw rfl
          exact known_of_call hasks hcalls hknown hholder
  | now | stopRequested | dispatch =>
      have hcall : ∀ fate, r.event n ≠ .store claim fate := by
        intro fate he
        rw [he] at hanswer
        cases hanswer
      have hbefore := hserves.holder?_of_succ hcall hholder
      rw [hasks.held_eq (fun call heq => by cases heq) answer]
      exact hknown id hbefore

theorem Knows.step (hserves : r.Serves claim) (hknows : r.Knows n claim) :
    r.Knows (n + 1) claim := by
  cases hknows with
  | notBegun hnone hfree =>
      have hfree' : ∀ id, (r.table (n + 1)).holder? id ≠ some claim := by
        intro id hholder
        rcases holder?_succ.mp hholder with hreturns | ⟨hbefore, _⟩
        · obtain ⟨⟨w, hw⟩, _⟩ := hserves.of_returns hreturns
          cases hnone.symm.trans hw
        · exact hfree id hbefore
      cases hw : (r.state (n + 1)).workers claim with
      | none => exact .notBegun hw hfree'
      | some w =>
          obtain ⟨_, hstart⟩ := (r.move n).begun hnone hw
          have hφ : w.At claim .starting := by
            rw [hstart]
            rfl
          exact .begun hw hφ trivial fun id hholder => (hfree' id hholder).elim
  | @begun w φ hw hφ hleft hknown =>
      obtain ⟨w', hw', hturn⟩ := (r.move n).turn hw
      have hquiet (hcall : ∀ fate, r.event n ≠ .store claim fate) (id : MessageId)
          (hholder : (r.table (n + 1)).holder? id = some claim) : id ∈ φ.held :=
        hknown id (hserves.holder?_of_succ hcall hholder)
      cases hturn with
      | stays _ hother =>
          exact .begun hw' hφ hleft (hquiet fun fate he => hother (congrArg Event.claim? he))
      | beats hevent =>
          exact .begun hw' hφ hleft (hquiet fun fate he => by cases hevent.symm.trans he)
      | renews hevent =>
          exact .begun hw' hφ hleft (hquiet fun fate he => by cases hevent.symm.trans he)
      | goesOn hanswer =>
          obtain ⟨next, hasks, hgoOn⟩ := asks_of_routine_eq hφ.symm
          exact .begun hw' (hgoOn _) (hasks.heldIsLeft hleft _) fun id hholder =>
            known_of_answer hserves hasks hw hanswer hknown hholder

/-- From the empty table on, a cycle knows of all that it holds. -/
theorem knows (hserves : r.Serves claim) (hempty : r.table 0 = .empty) (n : Nat) :
    r.Knows n claim := by
  induction n with
  | zero =>
      refine .notBegun (r.fresh claim) fun id hholder => ?_
      rw [hempty] at hholder
      cases hholder
  | succ n ih => exact ih.step hserves

/-- A table that has been filled from nothing has no claims on processed messages. -/
theorem free_of_processed {row : Row} (hempty : r.table 0 = .empty)
    (hrow : (r.table n).row? id = some row) : row.message.isProcessed → row.lease = none := by
  refine forall_row (P := fun _ row => row.message.isProcessed → row.lease = none) ?_ ?_
    (fun hfree => hfree) (fun _ hchange hfree => hchange.free hfree) hrow
  · intro id row hrow
    rw [hempty] at hrow
    cases hrow
  · intro n m _ _
    rfl

/-- When a cycle has ended, no row is claimed by it any more. Until then other claims may have been
at the table, with whatever calls and at whatever times, and the cycle may have been asked to stop
at any message of its batch. -/
theorem nothing_stays_claimed {result : Except Failure BatchReport} (hempty : r.table 0 = .empty)
    (hserves : r.Serves claim) (hended : (r.state n).result? claim = some result) :
    ∀ row ∈ (r.table n).rows, row.claimedBy ≠ some claim := by
  intro row hrow hclaimed
  have hrow? : (r.table n).row? row.id = some row := Table.row?_eq_some.mpr ⟨hrow, rfl⟩
  have hheld : row.isHeldBy claim :=
    Row.isHeldBy_of_claimedBy (free_of_processed hempty hrow?) hclaimed
  obtain ⟨w, hw, hresult⟩ := Option.bind_eq_some_iff.mp hended
  cases knows hserves hempty n with
  | notBegun hnone => cases hnone.symm.trans hw
  | begun hw' hφ hleft hknown =>
      obtain rfl := Option.some.inj (hw.symm.trans hw')
      rw [hφ] at hresult
      have hmem := hknown row.id (Table.holder?_eq_some.mpr ⟨row, hrow?, hheld⟩)
      rw [held_of_result? hleft hresult] at hmem
      cases hmem

/-- A script serves a claim when its events do. -/
theorem serves_ofScript {t : Table} {script : List Event}
    {hpossible : ((Fleet.initial t).after script).isSome}
    (hown : ∀ n (hlt : n < script.length), ∀ call ∈ script[n].outside?, call.claim? ≠ some claim)
    (hanswered : ∀ n (hlt : n < script.length), script[n].isAnswered) :
    (ofScript t script hpossible).Serves claim := by
  constructor
  · intro n call hevent
    exact forall_event_ofScript (P := fun _ e => ∀ call ∈ e.outside?, call.claim? ≠ some claim)
      (fun n call hmem => by cases hmem) hown n call (congrArg Event.outside? hevent)
  · intro n fate hevent
    have hanswer : ((ofScript t script hpossible).event n).isAnswered :=
      forall_event_ofScript (P := fun _ e => e.isAnswered) (fun _ => rfl) hanswered n
    rw [hevent] at hanswer
    cases fate with
    | served => rfl
    | cutOff | refused => cases hanswer

/-- The lease of a message runs out while it is being dispatched, and another claim takes it over.
Then a heartbeat comes too late, and so does the outcome. -/
def interrupted : List Event :=
  let claim := ClaimToken.numbered 1
  let later := Instant.numbered 2
  [.commit (.single (.numbered 1 "order" .epoch)),
    .begin claim ⟨.immediate, 2, .ofSeconds 5, .ofSeconds 1⟩, .time claim .epoch,
    .store claim .served, .stopFlag claim false, .time claim .epoch, .store claim .served,
    .outside (.fetch (.numbered 2) 1 later (.ofSeconds 1)),
    .beat claim later, .renewal claim .served,
    .delivery claim (.error (.unavailable "down")), .time claim later, .store claim .served]

def interruptedRun : Run := ofScript .empty interrupted (by decide +kernel)

theorem interruptedRun_serves : interruptedRun.Serves (.numbered 1) :=
  serves_ofScript (by decide +kernel) (by decide +kernel)

/-- The message was claimed by the cycle, which reports it as lost and leaves nothing claimed. -/
theorem interrupted_leaves_nothing :
    (interruptedRun.table 7).rows.map Row.claimedBy = [some (.numbered 1)] ∧
      interruptedRun.Serves (.numbered 1) ∧
      ((interruptedRun.state 13).result? (.numbered 1)).bind Except.toOption =
        some { fetched := 1, lost := 1 } ∧
      ∀ row ∈ (interruptedRun.table 13).rows, row.claimedBy ≠ some (.numbered 1) := by
  have hreport : ((interruptedRun.state 13).result? (.numbered 1)).bind Except.toOption =
      some { fetched := 1, lost := 1 } := by decide +kernel
  obtain ⟨result, hended, _⟩ := Option.bind_eq_some_iff.mp hreport
  exact ⟨by decide +kernel, interruptedRun_serves, hreport,
    nothing_stays_claimed rfl interruptedRun_serves hended⟩

end Run

end Outbox
