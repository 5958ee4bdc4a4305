import Outbox.Proofs.Finality
import Outbox.Proofs.Release
import Outbox.Proofs.Snapshots
import Mathlib.Data.Nat.Find

/-! # Cycles and swept rows

While a cycle dispatches a message, its lease may run out, another claim may take the message over
and complete it, and a sweep may delete it. When the cycle then records its outcome there is no row
for it. This is a failure of the store to the cycle, unlike a row that is merely processed or held
by another claim. It is also the only one there can be as long as the store answers.
-/

namespace Outbox

namespace Table

variable {t : Table} {claim : ClaimToken} {id : MessageId}

theorem mark_fst_of_absent (hnone : t.row? id = none) (record : Message → Message)
    (keepsId : ∀ m, (record m).id = m.id) :
    (t.mark claim id record keepsId).1 = .error (.notFound id) := by
  simp [mark, hnone]

/-- A mark of what has a row succeeds, or fails for the lost claim. -/
theorem mark_fst_of_row {row : Row} (hrow : t.row? id = some row) (record : Message → Message)
    (keepsId : ∀ m, (record m).id = m.id) :
    (t.mark claim id record keepsId).1 = .ok () ∨
      (t.mark claim id record keepsId).1 = .error (.claimLost id) := by
  by_cases hprocessed : row.message.isProcessed
  · simp [mark, hrow, hprocessed]
  · by_cases hheld : row.isHeldBy claim
    · simp [mark, hrow, hprocessed, hheld]
    · simp [mark, hrow, hprocessed, hheld]

end Table

/-! ### What a cycle fails with -/

namespace Processor.Phase

/-- What the cycle is about to fail with, or has failed with. -/
def failure? : Phase → Option Failure
  | givingBack _ failure | ended (.error failure) => some failure
  | _ => none

section

variable {p : Processor} {claim : ClaimToken} {φ : Phase} {message : Message}
  {rest : List Message} {held : List MessageId} {report : BatchReport}

theorem failure?_afterRenewal (renewed : List MessageId) :
    (afterRenewal message rest held report (.ok renewed)).failure? = none := by
  simp only [afterRenewal]
  split <;> rfl

/-- A mark makes the cycle fail only if the row is gone. -/
theorem failure?_afterMark (t : Table) (record : Message → Message)
    (keepsId : ∀ m, (record m).id = m.id) (attempt : Attempt) :
    (afterAttempt message rest held report (settle
      ((t.mark claim message.id record keepsId).1.map fun _ => attempt))).failure? =
        if (t.row? message.id).isSome then none else some (.notFound message.id) := by
  cases hrow : t.row? message.id with
  | none =>
      rw [Table.mark_fst_of_absent hrow]
      rfl
  | some row =>
      rcases Table.mark_fst_of_row hrow record keepsId with hverdict | hverdict
      · rw [hverdict]
        rfl
      · rw [hverdict]
        rfl

/-- What becomes of a cycle with the reply of the store to a call. -/
theorem Asks.failure?_reply {call : StoreCall} {next : Except Failure call.Reply → Phase}
    (hasks : Asks p claim φ (.store call) next) (t : Table) :
    (next (t.answer call).1).failure? = match call.marked? with
      | some id => if (t.row? id).isSome then none else some (.notFound id)
      | none => φ.failure? := by
  cases hasks with
  | fetching | leaving | givingBack => rfl
  | renewing => exact failure?_afterRenewal _
  | recordingSuccess => exact failure?_afterMark t _ _ _
  | recordingFailure => exact failure?_afterMark t _ _ _

theorem Idles.failure?_eq {φ' : Phase} (hidles : Idles p claim φ φ') :
    φ'.failure? = φ.failure? := by
  cases hidles with
  | stays => rfl
  | goesOn hasks hcall answer =>
      cases hasks with
      | starting | preparing | dispatching | concluding => rfl
      | working => cases answer <;> rfl
      | fetching | leaving | renewing | recordingSuccess | recordingFailure | givingBack =>
          exact (hcall _ rfl).elim

/-- A cycle that is about to fail marks nothing any more. -/
theorem Asks.failure?_of_marked {call : StoreCall} {next : Except Failure call.Reply → Phase}
    {id : MessageId} (hasks : Asks p claim φ (.store call) next)
    (hmarked : call.marked? = some id) : φ.failure? = none := by
  cases hasks with
  | recordingSuccess | recordingFailure => rfl
  | fetching | leaving | renewing | givingBack => cases hmarked

/-- What a cycle ends with is the failure that it has come to. -/
theorem failure?_of_result? {result : Except Failure BatchReport}
    (hresult : (φ.routine p claim).result? = some result) (failure : Failure) :
    φ.failure? = some failure ↔ result = .error failure := by
  cases φ with
  | working left held report =>
      cases left with
      | nil =>
          cases hresult
          exact iff_of_false (fun hsome => by cases hsome) fun herror => by cases herror
      | cons message rest => cases hresult
  | ended result' =>
      obtain rfl : result' = result := Option.some.inj hresult
      cases result' with
      | ok report => exact iff_of_false (fun hsome => by cases hsome) fun herror => by cases herror
      | error failure' => simp [failure?]
  | concluding message rest held report outcome => cases outcome <;> cases hresult
  | recording message rest held report outcome now => cases outcome <;> cases hresult
  | starting | fetching | leaving | preparing | renewing | dispatching | givingBack =>
      cases hresult

/-! ### What a cycle is at -/

/-- The message whose dispatch has begun and whose outcome has not been recorded. -/
def attempted? : Phase → Option Message
  | dispatching message _ _ _ | concluding message _ _ _ _ | recording message _ _ _ _ _ =>
      some message
  | _ => none

theorem Idles.attempted?_eq {φ' : Phase} (hidles : Idles p claim φ φ') :
    φ'.attempted? = φ.attempted? := by
  cases hidles with
  | stays => rfl
  | goesOn hasks hcall answer =>
      cases hasks with
      | starting | preparing | dispatching | concluding => rfl
      | working => cases answer <;> rfl
      | fetching | leaving | renewing | recordingSuccess | recordingFailure | givingBack =>
          exact (hcall _ rfl).elim

theorem attempted?_afterAttempt (attempt : Except Failure Attempt) :
    (afterAttempt message rest held report attempt).attempted? = none := by
  cases attempt <;> rfl

/-- No other phase follows a call in which a message is attempted than that in which it begins. -/
theorem Asks.dispatching_of_attempted? {call : StoreCall}
    {next : Except Failure call.Reply → Phase} (hasks : Asks p claim φ (.store call) next)
    {reply : Except Failure call.Reply} (hattempted : (next reply).attempted? = some message) :
    ∃ rest kept report, next reply = .dispatching message rest kept report := by
  cases hasks with
  | renewing other rest held report now =>
      cases reply with
      | error failure => cases hattempted
      | ok renewed =>
          simp only [afterRenewal] at hattempted ⊢
          split at hattempted
          next hheld =>
            obtain rfl : other = message := Option.some.inj hattempted
            exact ⟨rest, _, report, if_pos hheld⟩
          next => cases hattempted
  | fetching => cases reply <;> cases hattempted
  | leaving => cases hattempted
  | recordingSuccess => cases (attempted?_afterAttempt _).symm.trans hattempted
  | recordingFailure => cases (attempted?_afterAttempt _).symm.trans hattempted
  | givingBack => cases hattempted

/-- What a cycle marks it has attempted. -/
theorem Asks.attempted?_of_marked {call : StoreCall} {next : Except Failure call.Reply → Phase}
    {id : MessageId} (hasks : Asks p claim φ (.store call) next)
    (hmarked : call.marked? = some id) : ∃ m, φ.attempted? = some m ∧ m.id = id := by
  cases hasks with
  | recordingSuccess message => exact ⟨message, rfl, Option.some.inj hmarked⟩
  | recordingFailure message => exact ⟨message, rfl, Option.some.inj hmarked⟩
  | fetching | leaving | renewing | givingBack => cases hmarked

end

end Processor.Phase

/-! ### What becomes of the row -/

/-- A row becomes processed only by a success that is recorded. -/
theorem Row.Change.processed_by {row after : Row} {call : StoreCall}
    (hchange : row.Change call (some after)) (hopen : row.message.isProcessed = false)
    (hprocessed : after.message.isProcessed) :
    ∃ claim time, call = .markProcessed claim row.id time := by
  generalize hafter : some after = result at hchange
  cases hchange with
  | processed => exact ⟨_, _, rfl⟩
  | kept | claimed | extended | released =>
      cases hafter
      cases hopen.symm.trans hprocessed
  | failed =>
      cases hafter
      cases (Message.markFailed_of_open hopen _ _).1.symm.trans hprocessed
  | deleted => cases hafter

namespace Run

open Processor Phase

variable {r : Run} {n : Nat} {claim : ClaimToken} {id : MessageId}

/-- Between a point where a message is to be delivered and one where its row is gone, it was
completed and then swept. -/
theorem completed_then_swept {j : Nat} {row : Row} (hrow : (r.table j).row? id = some row)
    (hopen : row.message.isProcessed = false) (hle : j ≤ n) (hgone : (r.table n).row? id = none) :
    ∃ c i claim time, j ≤ c ∧ c < i ∧ i < n ∧ r.Calls c (.markProcessed claim id time) ∧
      r.Sweeps i id := by
  suffices hstages : (∃ row, (r.table n).row? id = some row ∧ row.message.isProcessed = false) ∨
      (∃ c claim time, j ≤ c ∧ c < n ∧ r.Calls c (.markProcessed claim id time) ∧
        ∃ row, (r.table n).row? id = some row ∧ row.message.isProcessed) ∨
      ∃ c i claim time, j ≤ c ∧ c < i ∧ i < n ∧ r.Calls c (.markProcessed claim id time) ∧
        r.Sweeps i id by
    rcases hstages with ⟨row', hrow', _⟩ | ⟨_, _, _, _, _, _, row', hrow', _⟩ | hswept
    · cases hgone.symm.trans hrow'
    · cases hgone.symm.trans hrow'
    · exact hswept
  clear hgone
  induction hle with
  | refl => exact .inl ⟨row, hrow, hopen⟩
  | @step n hle ih =>
      rcases ih with ⟨before, hbefore, hopen'⟩ | ⟨c, other, time, hjc, hcn, hcalls, before, hbefore,
        hprocessed⟩ | ⟨c, i, other, time, hjc, hci, hin, hcalls, hsweeps⟩
      · rcases row_step hbefore with hsame | ⟨call, hcalls, hchange⟩
        · exact .inl ⟨before, hsame, hopen'⟩
        · cases hafter : (r.table (n + 1)).row? id with
          | none =>
              rw [hafter] at hchange
              cases hopen'.symm.trans hchange.deletes.1
          | some after =>
              rw [hafter] at hchange
              by_cases hprocessed : after.message.isProcessed
              · obtain ⟨other, time, rfl⟩ := hchange.processed_by hopen' hprocessed
                rw [Table.row?_id hbefore] at hcalls
                exact .inr (.inl ⟨n, other, time, hle, Nat.lt_succ_self n, hcalls, after, rfl,
                  hprocessed⟩)
              · exact .inl ⟨after, rfl, by simpa using hprocessed⟩
      · rcases processed_step hbefore hprocessed with hsame | hsweeps
        · exact .inr (.inl ⟨c, other, time, hjc, by omega, hcalls, before, hsame, hprocessed⟩)
        · exact .inr (.inr ⟨c, n, other, time, hjc, hcn, Nat.lt_succ_self n, hcalls, hsweeps⟩)
      · exact .inr (.inr ⟨c, i, other, time, hjc, hci, by omega, hcalls, hsweeps⟩)

/-! ### What becomes of the cycle -/

/-- In step `n` the cycle records an outcome for which there is no row any more. -/
def Misses (r : Run) (n : Nat) (claim : ClaimToken) (id : MessageId) : Prop :=
  r.Marks n claim id ∧ (r.table n).row? id = none

theorem Serves.isOwn (hserves : r.Serves claim) : r.IsOwn claim := by
  intro n call hmem
  generalize hevent : r.event n = e at hmem
  cases e with
  | outside other =>
      obtain rfl : other = call := Option.some.inj hmem
      exact hserves.own hevent
  | _ => cases hmem

/-- The cycle fails with what it has missed, and does not fail otherwise. -/
def FailsByMisses (r : Run) (n : Nat) (claim : ClaimToken) (φ : Phase) : Prop :=
  ∀ failure, φ.failure? = some failure ↔
    ∃ k id, k < n ∧ r.Misses k claim id ∧ failure = .notFound id

/-- In a step in which nothing is missed the cycle does not come to fail. -/
theorem FailsByMisses.succ {φ φ' : Phase} (hfails : r.FailsByMisses n claim φ)
    (hnone : ∀ id, ¬ r.Misses n claim id) (hsame : φ'.failure? = φ.failure?) :
    r.FailsByMisses (n + 1) claim φ' := by
  intro failure
  rw [hsame, hfails failure]
  constructor
  · rintro ⟨k, id, hlt, hmisses⟩
    exact ⟨k, id, Nat.lt_succ_of_lt hlt, hmisses⟩
  · rintro ⟨k, id, hlt, hmisses, hfailure⟩
    rcases Nat.lt_succ_iff_lt_or_eq.mp hlt with hlt | rfl
    · exact ⟨k, id, hlt, hmisses, hfailure⟩
    · exact (hnone id hmisses).elim

/-- A cycle that has missed nothing so far and marks a row misses it just when it is gone. -/
theorem FailsByMisses.mark {φ φ' : Phase} (hfails : r.FailsByMisses n claim φ)
    (hunfailed : φ.failure? = none)
    (hmisses : ∀ other, r.Misses n claim other ↔ other = id ∧ (r.table n).row? id = none)
    (hfailure : φ'.failure? =
      if ((r.table n).row? id).isSome then none else some (.notFound id)) :
    r.FailsByMisses (n + 1) claim φ' := by
  have hearlier : ∀ k other, k < n → ¬ r.Misses k claim other := by
    intro k other hlt hmissed
    have hfailed := (hfails (.notFound other)).mpr ⟨k, other, hlt, hmissed, rfl⟩
    cases hunfailed.symm.trans hfailed
  intro failure
  rw [hfailure]
  constructor
  · intro hfailed
    cases hrow : (r.table n).row? id with
    | some row => rw [hrow] at hfailed; cases hfailed
    | none =>
        rw [hrow] at hfailed
        cases hfailed
        exact ⟨n, id, Nat.lt_succ_self n, (hmisses id).mpr ⟨rfl, hrow⟩, rfl⟩
  · rintro ⟨k, other, hlt, hmissed, rfl⟩
    rcases Nat.lt_succ_iff_lt_or_eq.mp hlt with hlt | rfl
    · exact (hearlier k other hlt hmissed).elim
    · obtain ⟨rfl, hnone⟩ := (hmisses other).mp hmissed
      rw [hnone]
      rfl

theorem Calls.marks_iff_marked? {call : StoreCall} (hcalls : r.Calls n call)
    (hclaim : call.claim? = some claim) (id : MessageId) :
    r.Marks n claim id ↔ call.marked? = some id := by
  rw [Calls.marks_iff hcalls]
  cases call with
  | markProcessed c marked time =>
      obtain rfl : c = claim := Option.some.inj hclaim
      simp [StoreCall.marked?]
  | markFailed c marked error nextRun =>
      obtain rfl : c = claim := Option.some.inj hclaim
      simp [StoreCall.marked?]
  | fetch | renew | release | deleteProcessed | get | failing | counts => simp [StoreCall.marked?]

/-- With the reply to a call the cycle fails by what it has missed in it. -/
theorem FailsByMisses.call {p : Processor} {φ : Phase} {call : StoreCall}
    {next : Except Failure call.Reply → Phase} (hfails : r.FailsByMisses n claim φ)
    (hasks : Asks p claim φ (.store call) next) (hcalls : r.Calls n call) :
    r.FailsByMisses (n + 1) claim (next ((r.table n).answer call).1) := by
  have hreply := hasks.failure?_reply (r.table n)
  have hmarks := Calls.marks_iff_marked? hcalls hasks.claim?_eq
  cases hmarked : call.marked? with
  | none =>
      rw [hmarked] at hreply
      refine hfails.succ (fun other hmisses => ?_) hreply
      cases hmarked.symm.trans ((hmarks other).mp hmisses.1)
  | some id =>
      rw [hmarked] at hreply
      refine hfails.mark (hasks.failure?_of_marked hmarked) (fun other => ?_) hreply
      rw [Misses, hmarks, hmarked, Option.some.injEq, eq_comm]
      exact and_congr_right fun heq => by rw [heq]

theorem exists_worker_of_le {k : Nat} {w : Worker} (hw : (r.state k).workers claim = some w)
    (hle : k ≤ n) : ∃ w', (r.state n).workers claim = some w' := by
  induction hle with
  | refl => exact ⟨w, hw⟩
  | @step n _ ih =>
      obtain ⟨w', hw'⟩ := ih
      obtain ⟨w'', hw'', _⟩ := (r.move n).turn hw'
      exact ⟨w'', hw''⟩

/-- At any time a cycle fails with what it has missed, and does not fail otherwise. -/
theorem failsByMisses (hserves : r.Serves claim) {w : Worker}
    (hw : (r.state n).workers claim = some w) :
    ∃ φ, w.At claim φ ∧ r.FailsByMisses n claim φ := by
  have hown := hserves.isOwn
  refine forall_phase (P := fun n φ => r.FailsByMisses n claim φ) ?_ ?_ ?_ hw
  · intro n hnone failure
    refine iff_of_false (fun hsome => by cases hsome) ?_
    rintro ⟨k, id, hlt, ⟨hmarks, _⟩, _⟩
    obtain ⟨w', _, _, hw', _⟩ := hown.call_of_marks hmarks
    obtain ⟨w'', hw''⟩ := exists_worker_of_le hw' (Nat.lt_succ_iff.mp hlt)
    cases hnone.symm.trans hw''
  · intro n p φ φ' hcall hidles hfails
    refine hfails.succ (fun id hmisses => ?_) hidles.failure?_eq
    obtain ⟨_, _, fate, _, hevent, _⟩ := hown.call_of_marks hmisses.1
    exact hcall fate hevent
  · intro n p φ call next fate hasks hevent hrequest _ hfails
    obtain rfl := hserves.served hevent
    have hmove := r.move n
    rw [hevent] at hmove
    have hcalls := hmove.calls_of_request rfl hrequest
    rw [← hevent] at hcalls
    exact hfails.call hasks hcalls

/-- Since the dispatch of the message at hand began, the cycle has not made a call. -/
theorem attempted_since {w : Worker} (hw : (r.state n).workers claim = some w) :
    ∃ φ, w.At claim φ ∧ ∀ m, φ.attempted? = some m → ∃ j, j < n ∧ r.Begins j claim m ∧
      ∀ l, j < l → l < n → ∀ fate, r.event l ≠ .store claim fate := by
  refine forall_phase (P := fun n φ => ∀ m, φ.attempted? = some m →
    ∃ j, j < n ∧ r.Begins j claim m ∧
      ∀ l, j < l → l < n → ∀ fate, r.event l ≠ .store claim fate) ?_ ?_ ?_ hw
  · exact fun _ m hattempted => by cases hattempted
  · intro n p φ φ' hcall hidles hsince m hattempted
    rw [hidles.attempted?_eq] at hattempted
    obtain ⟨j, hlt, hbegins, hquiet⟩ := hsince m hattempted
    refine ⟨j, Nat.lt_succ_of_lt hlt, hbegins, fun l hjl hln => ?_⟩
    rcases Nat.lt_succ_iff_lt_or_eq.mp hln with hln | rfl
    · exact hquiet l hjl hln
    · exact hcall
  · intro n p φ call next fate hasks _ hrequest hafter _ m hattempted
    obtain ⟨rest, kept, report, hnext⟩ := hasks.dispatching_of_attempted? hattempted
    rw [hnext] at hafter
    refine ⟨n, Nat.lt_succ_self n, ⟨⟨claim, kept, p.lease⟩, hafter, fun heq => ?_⟩,
      fun l _ _ => by omega⟩
    cases hrequest.symm.trans heq

theorem renews_of_begins {m : Message} (hbegins : r.Begins n claim m) :
    ∃ ids now lease, r.Calls n (.renew claim ids now lease) := by
  obtain ⟨w, rest, held, report, now, _, hw, hφ, hevent, _⟩ := renewing_of_begins hbegins
  have hmove := r.move n
  rw [hevent] at hmove
  refine ⟨held, now, w.processor.lease, ?_⟩
  rw [Calls, hevent]
  refine hmove.calls_of_request rfl (Fleet.request?_eq_some.mpr ⟨w, hw, ?_⟩)
  rw [hφ, (Asks.renewing m rest held report now).routine_eq]
  rfl

/-- What a cycle misses it was dispatching when another claim completed it and a sweep deleted it.
-/
theorem Misses.swept (hown : r.IsOwn claim) (hmisses : r.Misses n claim id) :
    ∃ j c i m other time, m.id = id ∧ other ≠ claim ∧ j < c ∧ c < i ∧ i < n ∧
      r.Begins j claim m ∧ r.Calls c (.markProcessed other id time) ∧ r.Sweeps i id := by
  obtain ⟨hmarks, hgone⟩ := hmisses
  obtain ⟨w, call, _, hw, _, hrequest, _, hmarked⟩ := hown.call_of_marks hmarks
  obtain ⟨φ, hφ, hsince⟩ := attempted_since hw
  rw [hφ] at hrequest
  obtain ⟨next, hasks⟩ := asks_of_request? hrequest
  obtain ⟨m, hattempted, rfl⟩ := hasks.attempted?_of_marked hmarked
  obtain ⟨j, hlt, hbegins, hquiet⟩ := hsince m hattempted
  obtain ⟨row, hrow, hheld⟩ := held_of_begins hbegins
  obtain ⟨c, i, other, time, hjc, hci, hin, hcalls, hsweeps⟩ := completed_then_swept hrow
    (Row.isHeldBy_iff.mp hheld).1 (Nat.le_of_lt hlt) hgone
  have hlater : j < c := by
    refine Nat.lt_of_le_of_ne hjc ?_
    rintro rfl
    obtain ⟨ids, now, lease, hrenews⟩ := renews_of_begins hbegins
    cases hrenews.unique hcalls
  refine ⟨j, c, i, m, other, time, rfl, ?_, hlater, hci, hin, hbegins, hcalls, hsweeps⟩
  rintro rfl
  obtain ⟨_, _, fate, _, hevent, _⟩ := hown.call_of_marks (.inl ⟨time, hcalls⟩)
  exact hquiet c hlater (hci.trans hin) fate hevent

/-- After a miss no dispatch begins any more. -/
theorem Misses.not_begins (hserves : r.Serves claim) (hmisses : r.Misses n claim id) {l : Nat}
    (hlt : n < l) (m : Message) : ¬ r.Begins l claim m := by
  intro hbegins
  obtain ⟨w, rest, held, report, now, _, hw, hφ, _⟩ := renewing_of_begins hbegins
  obtain ⟨φ, hφ', hfails⟩ := failsByMisses hserves hw
  have hfailed := (hfails (.notFound id)).mpr ⟨n, id, hlt, hmisses, rfl⟩
  have hrequest : (φ.routine w.processor claim).request? =
      some (.store (.renew claim held now w.processor.lease)) := by
    rw [← hφ', hφ, (Asks.renewing m rest held report now).routine_eq]
    rfl
  obtain ⟨next, hasks⟩ := asks_of_request? hrequest
  obtain ⟨_, _, _, _, rfl⟩ := hasks.eq_renewing
  cases hfailed

end Run

/-! ### Whether a cycle ends -/

namespace Event

/-- The event answers what the cycle of the claim waits for. -/
def repliesTo (claim : ClaimToken) : Event → Bool
  | time c _ | stopFlag c _ | store c _ | delivery c _ => c == claim
  | _ => false

end Event

theorem Fleet.Turn.of_reply {s : Fleet} {claim : ClaimToken} {e : Event} {w w' : Worker}
    (hturn : s.Turn claim e w w') (hreplies : e.repliesTo claim) :
    ∃ q goOn, ∃ answer : q.Answer, w.rest = .ask q goOn ∧ w'.rest = goOn answer := by
  cases hturn with
  | stays _ hother =>
      cases e with
      | time | stopFlag | store | delivery =>
          exact (hother (congrArg some (beq_iff_eq.mp hreplies))).elim
      | _ => cases hreplies
  | goesOn => exact ⟨_, _, _, rfl, rfl⟩
  | beats hevent => rw [hevent] at hreplies; cases hreplies
  | renews hevent => rw [hevent] at hreplies; cases hreplies

theorem Fleet.Turn.rest_eq {s : Fleet} {claim : ClaimToken} {e : Event} {w w' : Worker}
    (hturn : s.Turn claim e w w') (hwaits : e.repliesTo claim = false) : w'.rest = w.rest := by
  cases hturn with
  | stays | beats | renews => rfl
  | goesOn hanswer => cases hanswer <;> simp [Event.repliesTo] at hwaits

namespace Run

open Processor Phase

variable {r : Run} {n : Nat} {claim : ClaimToken} {id : MessageId}

/-- Until it gets a reply a cycle waits. -/
theorem rest_until_reply {w : Worker} (hw : (r.state n).workers claim = some w) {l : Nat}
    (hle : n ≤ l) (hwaits : ∀ k, n ≤ k → k < l → (r.event k).repliesTo claim = false) :
    ∃ w', (r.state l).workers claim = some w' ∧ w'.rest = w.rest := by
  induction hle with
  | refl => exact ⟨w, hw, rfl⟩
  | @step l hle ih =>
      obtain ⟨w', hw', hrest⟩ := ih fun k hnk hkl => hwaits k hnk (Nat.lt_succ_of_lt hkl)
      obtain ⟨w'', hw'', hturn⟩ := (r.move l).turn hw'
      exact ⟨w'', hw'', (hturn.rest_eq (hwaits l hle (Nat.lt_succ_self l))).trans hrest⟩

/-- A cycle that is told anything more goes on with the first that it is told. -/
theorem goes_on_at_reply {w : Worker} (hw : (r.state n).workers claim = some w)
    (hreplies : ∃ l, n ≤ l ∧ (r.event l).repliesTo claim) :
    ∃ l q goOn, ∃ answer : q.Answer, ∃ w', n ≤ l ∧ w.rest = .ask q goOn ∧
      (r.state (l + 1)).workers claim = some w' ∧ w'.rest = goOn answer := by
  obtain ⟨hle, hreply⟩ := Nat.find_spec hreplies
  obtain ⟨w', hw', hrest⟩ := rest_until_reply hw hle fun k hnk hkl => by
    simpa [hnk] using Nat.find_min hreplies hkl
  obtain ⟨w'', hw'', hturn⟩ := (r.move _).turn hw'
  obtain ⟨q, goOn, answer, hask, hgoOn⟩ := hturn.of_reply hreply
  exact ⟨_, q, goOn, answer, w'', hle, hrest.symm.trans hask, hw'', hgoOn⟩

/-- A cycle ends unless it is left waiting for good. -/
theorem ends_or_waits {w : Worker} (hw : (r.state n).workers claim = some w) :
    (∃ m result, n ≤ m ∧ (r.state m).result? claim = some result) ∨
      ∃ m, n ≤ m ∧ ∀ k, m ≤ k → (r.event k).repliesTo claim = false := by
  generalize hrest : w.rest = routine
  induction routine generalizing n w with
  | done result =>
      refine .inl ⟨n, result, Nat.le_refl n, ?_⟩
      rw [Fleet.result?, hw, Option.bind_some, hrest]
      rfl
  | ask q goOn ih =>
      by_cases hreplies : ∃ l, n ≤ l ∧ (r.event l).repliesTo claim
      · obtain ⟨l, q', goOn', answer, w', hle, hask, hw', hrest'⟩ := goes_on_at_reply hw hreplies
        cases hrest.symm.trans hask
        rcases ih answer hw' hrest' with ⟨m, result, hlm, hresult⟩ | ⟨m, hlm, hwaits⟩
        · exact .inl ⟨m, result, by omega, hresult⟩
        · exact .inr ⟨m, by omega, hwaits⟩
      · refine .inr ⟨n, Nat.le_refl n, fun k hnk => ?_⟩
        by_contra hreply
        exact hreplies ⟨k, hnk, by simpa using hreply⟩

/-- A cycle ends unless it is left waiting for good, and it comes to a report just when none of the
outcomes that it records has lost its row. A row is lost in one way only: while the message is being
dispatched, another claim completes it and then a sweep deletes it. The cycle then fails with the
message's id, and begins no dispatch any more. -/
theorem cycle_reports_iff_nothing_swept (hserves : r.Serves claim) :
    (∀ n w, (r.state n).workers claim = some w →
      (∃ m result, n ≤ m ∧ (r.state m).result? claim = some result) ∨
        ∃ m, n ≤ m ∧ ∀ k, m ≤ k → (r.event k).repliesTo claim = false) ∧
      (∀ n result, (r.state n).result? claim = some result →
        ((∃ report, result = .ok report) ↔ ∀ k id, k < n → ¬ r.Misses k claim id)) ∧
      ∀ k id, r.Misses k claim id →
        (∃ j c i m other time, m.id = id ∧ other ≠ claim ∧ j < c ∧ c < i ∧ i < k ∧
          r.Begins j claim m ∧ r.Calls c (.markProcessed other id time) ∧ r.Sweeps i id) ∧
        (∀ l m, k < l → ¬ r.Begins l claim m) ∧
        ∀ n result, k < n → (r.state n).result? claim = some result →
          result = .error (.notFound id) := by
  have hfails {n : Nat} {result : Except Failure BatchReport}
      (hended : (r.state n).result? claim = some result) (failure : Failure) :
      result = .error failure ↔ ∃ k id, k < n ∧ r.Misses k claim id ∧ failure = .notFound id := by
    obtain ⟨w, hw, hresult⟩ := Option.bind_eq_some_iff.mp hended
    obtain ⟨φ, hφ, hfails⟩ := failsByMisses hserves hw
    rw [hφ] at hresult
    rw [← failure?_of_result? hresult, hfails]
  refine ⟨fun n w hw => ends_or_waits hw, fun n result hended => ?_, fun k id hmisses => ?_⟩
  · constructor
    · rintro ⟨report, rfl⟩ k id hlt hmisses
      cases (hfails hended (.notFound id)).mpr ⟨k, id, hlt, hmisses, rfl⟩
    · intro hnone
      cases result with
      | ok report => exact ⟨report, rfl⟩
      | error failure =>
          obtain ⟨k, id, hlt, hmisses, _⟩ := (hfails hended failure).mp rfl
          exact (hnone k id hlt hmisses).elim
  · refine ⟨hmisses.swept hserves.isOwn, fun l m hlt => hmisses.not_begins hserves hlt m, ?_⟩
    intro n result hlt hended
    exact (hfails hended _).mpr ⟨k, id, hlt, hmisses, rfl⟩

/-- While a message is being dispatched, another claim completes it and a sweep deletes it. Then the
dispatch ends well. -/
def outlived : List Event :=
  let claim := ClaimToken.numbered 1
  let other := ClaimToken.numbered 2
  let m := Message.numbered 1 "order" .epoch
  [.commit (.single m), .begin claim ⟨.immediate, 2, .ofSeconds 5, .ofSeconds 1⟩,
    .time claim .epoch, .store claim .served, .stopFlag claim false, .time claim .epoch,
    .store claim .served, .outside (.fetch other 1 (.numbered 2) (.ofSeconds 1)),
    .outside (.markProcessed other m.id (.numbered 2)), .outside (.deleteProcessed (.numbered 3)),
    .delivery claim (.ok (.delivered 1)), .time claim (.numbered 3), .store claim .served,
    .store claim .served]

def outlivedRun : Run := ofScript .empty outlived (by decide +kernel)

/-- The outcome has no row any more, and the cycle fails for that. -/
theorem outlived_fails :
    let id := (Message.numbered 1 "order" .epoch).id
    outlivedRun.Serves (.numbered 1) ∧ outlivedRun.Misses 12 (.numbered 1) id ∧
      (outlivedRun.state 14).result? (.numbered 1) = some (.error (.notFound id)) := by
  intro id
  have hserves : outlivedRun.Serves (.numbered 1) :=
    serves_ofScript (by decide +kernel) (by decide +kernel)
  have hrequest : (outlivedRun.state 12).request? (.numbered 1) =
      some (.store (.markProcessed (.numbered 1) id (.numbered 3))) := by decide +kernel
  have hmisses : outlivedRun.Misses 12 (.numbered 1) id :=
    ⟨.inl ⟨_, (outlivedRun.move 12).calls_of_request rfl hrequest⟩, by decide +kernel⟩
  have hended : ((outlivedRun.state 14).result? (.numbered 1)).isSome := by decide +kernel
  obtain ⟨result, hresult⟩ := Option.isSome_iff_exists.mp hended
  obtain ⟨_, _, hswept⟩ := cycle_reports_iff_nothing_swept hserves
  obtain ⟨_, _, hfails⟩ := hswept 12 id hmisses
  rw [hresult, hfails 14 result (by decide) hresult]
  exact ⟨hserves, hmisses, rfl⟩

end Run

end Outbox
