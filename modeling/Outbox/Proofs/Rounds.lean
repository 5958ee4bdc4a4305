import Outbox.Proofs.Accounting
import Outbox.Proofs.Finality
import Outbox.Proofs.Fleet
import Outbox.Proofs.Schedule

/-! # Rounds without a pause

A processor goes on at once only after a full batch of which it reports no message as failed, given
back or lost. All of them have been marked as processed then, so there are fewer unprocessed
messages than before, by the whole batch. Whatever others do, short of adding messages, there are
never more again. So the loop goes on at once no more often than there are full batches.

A request to stop is the exception: the report may be clean though part of the batch has had no
turn, but then the loop ends.
-/

namespace Outbox

namespace Table

variable {t : Table} {id : MessageId}

/-- No call of the store opens a message. -/
theorem openIds_answer_subset (t : Table) (call : StoreCall) :
    (t.answer call).2.openIds ⊆ t.openIds := by
  intro id hmem
  obtain ⟨row, hrow, hopen⟩ := mem_openIds.mp hmem
  cases hbefore : t.row? id with
  | none =>
      rw [row?_answer_eq_none hbefore] at hrow
      cases hrow
  | some r =>
      refine mem_openIds.mpr ⟨r, hbefore, Bool.eq_false_iff.mpr fun hprocessed => ?_⟩
      have hchange := change_of_answer hbefore call
      rw [hrow] at hchange
      rcases hchange.of_processed hprocessed with hsame | ⟨_, _, hgone⟩
      · cases hsame
        exact Bool.false_ne_true (hopen.symm.trans hprocessed)
      · cases hgone

/-- A fetch returns open messages only. -/
theorem fetched_subset_openIds (t : Table) (limit : Nat) (now : Instant) :
    (t.fetched limit now).map Message.id ⊆ t.openIds := by
  intro id hmem
  obtain ⟨m, hm, rfl⟩ := List.mem_map.mp hmem
  obtain ⟨row, hrow, _, hclaimable⟩ := exists_row_of_mem_fetched hm
  exact mem_openIds.mpr ⟨row, hrow, (Row.isClaimable_iff.mp hclaimable).1⟩

/-- A message is not open after a mark as processed that the store has accepted, whether that was
the first one or not. -/
theorem not_mem_openIds_of_marked {claim : ClaimToken} {time : Instant}
    (haccepted : (t.markProcessed claim id time).1 = .ok ()) :
    id ∉ (t.markProcessed claim id time).2.openIds := by
  intro hmem
  obtain ⟨after, hafter, hopen⟩ := mem_openIds.mp hmem
  rw [markProcessed, row?_mark] at hafter
  simp only [markProcessed, mark] at haccepted
  cases hrow : t.row? id with
  | none =>
      rw [hrow] at hafter
      cases hafter
  | some row =>
      simp only [hrow, Option.map_some, Option.some.injEq, true_and] at hafter haccepted
      subst hafter
      split at hopen
      next hheld =>
        rw [Message.isProcessed_markProcessed] at hopen
        cases hopen
      next hfree => simp [hopen, hfree] at haccepted

/-- What is fetched and not open later is missing among what is open then. -/
theorem length_openIds_add_le {t' : Table} {ids : List MessageId} (hdistinct : ids.Nodup)
    (hopen : ids ⊆ t.openIds) (hsubset : t'.openIds ⊆ t.openIds)
    (hclosed : ∀ id ∈ ids, id ∉ t'.openIds) :
    t'.openIds.length + ids.length ≤ t.openIds.length := by
  have hnodup : (t'.openIds ++ ids).Nodup :=
    List.nodup_append'.mpr ⟨t'.openIds_nodup, hdistinct, fun id hmem hid => hclosed id hid hmem⟩
  have hall : t'.openIds ++ ids ⊆ t.openIds := List.append_subset.mpr ⟨hsubset, hopen⟩
  rw [← List.length_append]
  exact hnodup.length_le_of_subset hall

end Table

/-! ### What a clean report says -/

/-- The exchanges of two routines in a row are those of the first, and then those of the second. -/
theorem Routine.Yields.of_bind {α β : Type} {r : Routine α} {f : α → Routine β}
    {log : List Exchange} {b : β} (hyields : (r >>= f).Yields log b) :
    ∃ log₁ log₂ a, log = log₁ ++ log₂ ∧ r.Yields log₁ a ∧ (f a).Yields log₂ b := by
  induction r generalizing log with
  | done a => exact ⟨[], log, a, rfl, .done a, hyields⟩
  | ask q resume ih =>
      cases hyields with
      | ask answer hrest =>
          obtain ⟨log₁, log₂, a, rfl, hfirst, hsecond⟩ := ih answer hrest
          exact ⟨_, log₂, a, rfl, .ask answer hfirst, hsecond⟩

/-- The message that the store has accepted as processed. -/
def Exchange.completed? : Exchange → Option MessageId
  | ⟨.store (.markProcessed _ id _), .ok _⟩ => some id
  | _ => none

/-- No message has failed or been lost. -/
def BatchReport.IsClean (r : BatchReport) : Prop := r.failed = 0 ∧ r.lost = 0

/-- Neither a failure nor a loss. -/
def Attempt.succeeds : Attempt → Bool
  | .delivered | .unhandled => true
  | .failed | .lost => false

theorem BatchReport.isClean_add {r : BatchReport} {attempt : Attempt} :
    (r.add attempt).IsClean ↔ r.IsClean ∧ attempt.succeeds := by
  cases attempt <;> simp [IsClean, add, Attempt.succeeds]

namespace Processor

open Phase

variable {p : Processor} {claim : ClaimToken} {message : Message} {rest left : List Message}
  {held : List MessageId} {report final : BatchReport} {log : List Exchange}

/-- A record that the store does not accept is no success, or it leads to no report. -/
theorem yields_afterRecord {reply : Except Failure Unit} {attempt : Attempt}
    (hyields : ((afterAttempt message rest held report
      (settle (reply.map fun _ => attempt))).routine p claim).Yields log (.ok final)) :
    ∃ attempt', ((working rest (held.filter (· != message.id)) (report.add attempt')).routine
        p claim).Yields log (.ok final) ∧
      (attempt'.succeeds → reply = .ok () ∧ attempt.succeeds) := by
  cases reply with
  | ok => exact ⟨attempt, hyields, fun hsucceeds => ⟨rfl, hsucceeds⟩⟩
  | error failure =>
      cases failure with
      | claimLost id => exact ⟨.lost, hyields, fun hlost => absurd hlost Bool.false_ne_true⟩
      | _ => exact (not_yields_givingBack hyields).elim

/-- What is dispatched counts as a success only if the store accepts it as processed. -/
theorem completed_of_dispatching
    (hyields : ((dispatching message rest held report).routine p claim).Yields log (.ok final)) :
    ∃ attempt held' tail log', log = tail ++ log' ∧
      ((working rest held' (report.add attempt)).routine p claim).Yields log' (.ok final) ∧
      (attempt.succeeds → message.id ∈ tail.filterMap Exchange.completed?) := by
  obtain ⟨outcome, log₁, rfl, hconcluding⟩ :=
    (Asks.dispatching message rest held report).yields hyields
  obtain ⟨now, log₂, rfl, hrecording⟩ :=
    (Asks.concluding message rest held report outcome).yields hconcluding
  cases outcome with
  | ok outcome =>
      obtain ⟨reply, log₃, rfl, hafter⟩ :=
        (Asks.recordingSuccess message rest held report outcome now).yields hrecording
      obtain ⟨attempt, hworking, hrecorded⟩ := yields_afterRecord hafter
      refine ⟨attempt, _, [_, _, _], log₃, rfl, hworking, fun hsucceeds => ?_⟩
      obtain ⟨rfl, _⟩ := hrecorded hsucceeds
      exact List.mem_singleton_self _
  | error failure =>
      obtain ⟨reply, log₃, rfl, hafter⟩ :=
        (Asks.recordingFailure message rest held report failure now).yields hrecording
      obtain ⟨attempt, hworking, hrecorded⟩ := yields_afterRecord hafter
      exact ⟨attempt, _, [_, _, _], log₃, rfl, hworking,
        fun hsucceeds => absurd (hrecorded hsucceeds).2 Bool.false_ne_true⟩

/-- As long as no stop is seen, the next message has its turn, and is dispatched or lost. -/
theorem completed_of_working_cons
    (hyields : ((working (message :: rest) held report).routine p claim).Yields log (.ok final))
    (hgoing : ∀ x ∈ log, x.stops = false) :
    ∃ attempt held' tail log', log = tail ++ log' ∧
      ((working rest held' (report.add attempt)).routine p claim).Yields log' (.ok final) ∧
      (attempt.succeeds → message.id ∈ tail.filterMap Exchange.completed?) := by
  obtain ⟨requested, log₁, rfl, hgoesOn⟩ :=
    (Asks.working message rest held report).yields hyields
  obtain rfl : requested = false := hgoing _ List.mem_cons_self
  obtain ⟨now, log₂, rfl, hrenewing⟩ := (Asks.preparing message rest held report).yields hgoesOn
  obtain ⟨renewed, log₃, rfl, hafter⟩ :=
    (Asks.renewing message rest held report now).yields hrenewing
  cases renewed with
  | error failure => exact (not_yields_givingBack hafter).elim
  | ok renewed =>
      simp only [afterRenewal] at hafter
      split at hafter
      next =>
        obtain ⟨attempt, held', tail, log', rfl, hworking, hcompleted⟩ :=
          completed_of_dispatching hafter
        exact ⟨attempt, held', _ :: _ :: _ :: tail, log', rfl, hworking, hcompleted⟩
      next => exact ⟨.lost, _, [_, _, _], log₃, rfl, hafter, fun hlost => absurd hlost Bool.false_ne_true⟩

/-- Unless a stop is seen, a clean report says that the store has accepted all messages as
processed. -/
theorem completed_of_working
    (hyields : ((working left held report).routine p claim).Yields log (.ok final))
    (hgoing : ∀ x ∈ log, x.stops = false) (hclean : final.IsClean) :
    report.IsClean ∧ ∀ m ∈ left, m.id ∈ log.filterMap Exchange.completed? := by
  induction left generalizing held report log with
  | nil =>
      cases hyields
      exact ⟨hclean, fun m hmem => absurd hmem List.not_mem_nil⟩
  | cons message rest ih =>
      obtain ⟨attempt, held', tail, log', rfl, hworking, hcompleted⟩ :=
        completed_of_working_cons hyields hgoing
      obtain ⟨hadded, hrest⟩ := ih hworking fun x hx => hgoing x (List.mem_append_right _ hx)
      obtain ⟨hreport, hsucceeds⟩ := BatchReport.isClean_add.mp hadded
      refine ⟨hreport, fun m hmem => ?_⟩
      rw [List.filterMap_append]
      rcases List.mem_cons.mp hmem with rfl | hmem
      · exact List.mem_append_left _ (hcompleted hsucceeds)
      · exact List.mem_append_right _ (hrest m hmem)

end Processor

/-! ### What others do -/

/-- The table that all share, and whether a stop has been requested by now. -/
structure Setting where
  table : Table
  stopping : Bool

namespace Setting

/-- Others call the store, under any claim, or request a stop, which nobody takes back. They commit
nothing. A renewal at a heartbeat is such a call too, since the cycle does not look at its reply. -/
inductive Drift : Setting → Setting → Prop
  | call (s : Setting) (call : StoreCall) : Drift s { s with table := (s.table.answer call).2 }
  | stop (s : Setting) : Drift s { s with stopping := true }

/-- What a request is answered with, and what comes of it. The clock shows anything, a dispatch
comes to anything, and calls of the store may fail. -/
inductive Gives (s : Setting) : Exchange → Setting → Prop
  | now (now : Instant) : Gives s ⟨.now, now⟩ s
  | stopRequested {requested : Bool} (hflag : s.stopping = requested) :
      Gives s ⟨.stopRequested, requested⟩ s
  | dispatch (message : Message) (heartbeat : Heartbeat)
      (outcome : Except Failure DispatchOutcome) :
      Gives s ⟨.dispatch message heartbeat, outcome⟩ s
  | store {call : StoreCall} (fate : Fate) {reply : Except Failure call.Reply}
      (hreply : fate.reply s.table call = reply) :
      Gives s ⟨.store call, reply⟩ { s with table := fate.table s.table call }

/-- With these exchanges one setting leads to another. In between others do what they like. -/
inductive Plays : Setting → List Exchange → Setting → Prop
  | nil (s : Setting) : Plays s [] s
  | drift {s s₁ s' : Setting} {log : List Exchange} (hdrift : s.Drift s₁)
      (hrest : Plays s₁ log s') : Plays s log s'
  | answer {s s₁ s' : Setting} {x : Exchange} {log : List Exchange} (hgives : s.Gives x s₁)
      (hrest : Plays s₁ log s') : Plays s (x :: log) s'

variable {s s₁ s' : Setting} {x : Exchange} {log : List Exchange}

/-- Others open no message. -/
theorem Drift.openIds_subset (hdrift : s.Drift s₁) : s₁.table.openIds ⊆ s.table.openIds := by
  cases hdrift with
  | call call => exact s.table.openIds_answer_subset call
  | stop => exact List.Subset.refl _

theorem Drift.stopping (hdrift : s.Drift s₁) (hstopping : s.stopping) : s₁.stopping := by
  cases hdrift with
  | call => exact hstopping
  | stop => rfl

/-- An exchange opens no message. -/
theorem Gives.openIds_subset (hgives : s.Gives x s₁) : s₁.table.openIds ⊆ s.table.openIds := by
  cases hgives with
  | now | stopRequested | dispatch => exact List.Subset.refl _
  | @store call fate =>
      cases fate with
      | served | cutOff => exact s.table.openIds_answer_subset call
      | refused => exact List.Subset.refl _

theorem Gives.stopping_eq (hgives : s.Gives x s₁) : s₁.stopping = s.stopping := by
  cases hgives <;> rfl

theorem Gives.stopping_of_stops (hgives : s.Gives x s₁) (hstops : x.stops) : s.stopping := by
  cases hgives with
  | stopRequested hflag => exact hflag.trans hstops
  | now | dispatch | store => cases hstops

/-- A call that is answered has been served. -/
theorem Gives.answer_eq {call : StoreCall} {reply : call.Reply}
    (hgives : s.Gives ⟨.store call, .ok reply⟩ s₁) :
    (s.table.answer call).1 = .ok reply ∧ s₁.table = (s.table.answer call).2 := by
  cases hgives with
  | store fate hreply =>
      cases fate with
      | served => exact ⟨hreply, rfl⟩
      | cutOff | refused => cases hreply

/-- What an exchange completes is open no more. -/
theorem Gives.not_mem_openIds {id : MessageId} (hgives : s.Gives x s₁)
    (hcompleted : x.completed? = some id) : id ∉ s₁.table.openIds := by
  unfold Exchange.completed? at hcompleted
  split at hcompleted
  next claim marked time reply =>
    cases hcompleted
    obtain ⟨hreply, htable⟩ := hgives.answer_eq
    rw [htable]
    exact Table.not_mem_openIds_of_marked hreply
  next => cases hcompleted

namespace Plays

/-- In the course of a log no message is opened. -/
theorem openIds_subset (hplays : s.Plays log s') : s'.table.openIds ⊆ s.table.openIds := by
  induction hplays with
  | nil => exact List.Subset.refl _
  | drift hdrift _ ih => exact List.Subset.trans ih hdrift.openIds_subset
  | answer hgives _ ih => exact List.Subset.trans ih hgives.openIds_subset

theorem stopping (hplays : s.Plays log s') (hstopping : s.stopping) : s'.stopping := by
  induction hplays with
  | nil => exact hstopping
  | drift hdrift _ ih => exact ih (hdrift.stopping hstopping)
  | answer hgives _ ih => exact ih (hgives.stopping_eq.trans hstopping)

/-- A stop that has been seen is not taken back. -/
theorem stopping_of_stops (hplays : s.Plays log s') (hmem : x ∈ log) (hstops : x.stops) :
    s'.stopping := by
  induction hplays with
  | nil => cases hmem
  | drift _ _ ih => exact ih hmem
  | answer hgives hrest ih =>
      rcases List.mem_cons.mp hmem with rfl | hmem
      · exact hrest.stopping (hgives.stopping_eq.trans (hgives.stopping_of_stops hstops))
      · exact ih hmem

/-- What the store has accepted as processed does not open again. -/
theorem not_mem_openIds {id : MessageId} (hplays : s.Plays log s')
    (hcompleted : id ∈ log.filterMap Exchange.completed?) : id ∉ s'.table.openIds := by
  induction hplays with
  | nil => cases hcompleted
  | drift _ _ ih => exact ih hcompleted
  | @answer s s₁ s' x log hgives hrest ih =>
      rw [List.mem_filterMap] at hcompleted
      obtain ⟨y, hmem, hy⟩ := hcompleted
      rcases List.mem_cons.mp hmem with rfl | hmem
      · exact fun hopen => hgives.not_mem_openIds hy (hrest.openIds_subset hopen)
      · exact ih (List.mem_filterMap.mpr ⟨y, hmem, hy⟩)

/-- Others come first, and then the request is answered. -/
theorem of_cons (hplays : s.Plays (x :: log) s') :
    ∃ s₁ s₂, s.Plays [] s₁ ∧ s₁.Gives x s₂ ∧ s₂.Plays log s' := by
  generalize hlog : x :: log = whole at hplays
  induction hplays with
  | nil => cases hlog
  | drift hdrift _ ih =>
      obtain ⟨s₁, s₂, hbefore, hgives, hrest⟩ := ih hlog
      exact ⟨s₁, s₂, .drift hdrift hbefore, hgives, hrest⟩
  | answer hgives hrest =>
      cases hlog
      exact ⟨_, _, .nil _, hgives, hrest⟩

end Plays

end Setting

namespace Processor

open Setting

variable {p : Processor} {claim : ClaimToken} {report : BatchReport} {log : List Exchange}
  {s s₁ s' : Setting} {next : Next} {nexts : List Next}

/-- A cycle that comes to a report has fetched distinct open messages, and unless it has seen a stop
or something went wrong, none of them is open afterwards. -/
theorem exists_fetched_of_cycle (hyields : (p.cycle claim).Yields log (.ok report))
    (hplays : s.Plays log s') :
    ∃ ids : List MessageId, ids.length = report.fetched ∧ ids.Nodup ∧ ids ⊆ s.table.openIds ∧
      ((∀ x ∈ log, x.stops = false) → report.IsClean → ∀ id ∈ ids, id ∉ s'.table.openIds) := by
  obtain ⟨now, log₁, rfl, hfetching⟩ := Phase.Asks.starting.yields (φ := .starting) hyields
  obtain ⟨reply, later, rfl, hworking⟩ := (Phase.Asks.fetching now).yields hfetching
  cases reply with
  | error failure => cases hworking
  | ok batch =>
      obtain ⟨s₁, s₂, hbefore, hnow, hfetch⟩ := hplays.of_cons
      obtain ⟨s₃, s₄, hbetween, hgives, hlater⟩ := hfetch.of_cons
      have hopen : s₃.table.openIds ⊆ s.table.openIds :=
        List.Subset.trans hbetween.openIds_subset
          (List.Subset.trans hnow.openIds_subset hbefore.openIds_subset)
      obtain rfl : s₃.table.fetched p.batchSize now = batch := Except.ok.inj hgives.answer_eq.1
      obtain ⟨_, _, _, hfetched, _⟩ := yields_working hworking
      refine ⟨_, (List.length_map _).trans hfetched.symm, s₃.table.fetched_nodup p.batchSize now,
        List.Subset.trans (s₃.table.fetched_subset_openIds p.batchSize now) hopen, ?_⟩
      intro hgoing hclean id hid
      obtain ⟨m, hm, rfl⟩ := List.mem_map.mp hid
      have hquiet : ∀ x ∈ later, x.stops = false := fun x hx =>
        hgoing x (List.mem_cons_of_mem _ (List.mem_cons_of_mem _ hx))
      exact hlater.not_mem_openIds ((completed_of_working hworking hquiet hclean).2 m hm)

theorem isFullAndClean_iff : report.isFullAndClean p.batchSize ↔
    p.batchSize ≤ report.fetched ∧ report.released = 0 ∧ report.IsClean := by
  simp only [BatchReport.isFullAndClean, BatchReport.IsClean, Bool.and_eq_true, decide_eq_true_eq,
    beq_iff_eq]
  tauto

/-- A full batch takes as many open messages. -/
theorem batchSize_le_of_fullAndClean (hyields : (p.cycle claim).Yields log (.ok report))
    (hfull : report.isFullAndClean p.batchSize) (hplays : s.Plays log s') :
    p.batchSize ≤ s.table.openIds.length := by
  obtain ⟨ids, hlength, hdistinct, hopen, _⟩ := exists_fetched_of_cycle hyields hplays
  calc p.batchSize ≤ report.fetched := (isFullAndClean_iff.mp hfull).1
    _ = ids.length := hlength.symm
    _ ≤ s.table.openIds.length := hdistinct.length_le_of_subset hopen

/-- A full and clean cycle that sees no stop leaves fewer messages open, by a full batch. -/
theorem openIds_add_le_of_fullAndClean (hyields : (p.cycle claim).Yields log (.ok report))
    (hfull : report.isFullAndClean p.batchSize) (hgoing : ∀ x ∈ log, x.stops = false)
    (hplays : s.Plays log s') :
    s'.table.openIds.length + p.batchSize ≤ s.table.openIds.length := by
  obtain ⟨ids, hlength, hdistinct, hopen, hclosed⟩ := exists_fetched_of_cycle hyields hplays
  obtain ⟨hsize, _, hclean⟩ := isFullAndClean_iff.mp hfull
  calc s'.table.openIds.length + p.batchSize
      ≤ s'.table.openIds.length + ids.length := Nat.add_le_add_left (hlength ▸ hsize) _
    _ ≤ s.table.openIds.length :=
        Table.length_openIds_add_le hdistinct hopen hplays.openIds_subset (hclosed hgoing hclean)

/-! ### The loop -/

/-- A round first looks whether a stop is requested, and goes on at once only after a full and clean
cycle. -/
theorem yields_round (hround : (p.round claim).Yields log next) :
    ∃ requested later, log = ⟨.stopRequested, requested⟩ :: later ∧
      (requested → next = .stop) ∧ (next = .again → ∃ report,
        (p.cycle claim).Yields later (.ok report) ∧ report.isFullAndClean p.batchSize) := by
  cases hround with
  | ask requested hrest =>
      refine ⟨requested, _, rfl, ?_, ?_⟩
      · rintro rfl
        cases hrest
        rfl
      · rintro rfl
        cases requested with
        | true => cases hrest
        | false =>
            change (p.cycle claim >>= _).Yields _ _ at hrest
            obtain ⟨log₁, log₂, result, rfl, hcycle, hnext⟩ := hrest.of_bind
            cases result with
            | error failure => cases hnext
            | ok report =>
                by_cases hfull : report.isFullAndClean p.batchSize
                · simp only [hfull, if_true] at hnext
                  cases hnext
                  exact ⟨report, by rwa [List.append_nil], hfull⟩
                · simp only [hfull] at hnext
                  cases hnext

/-- What the loop does after one round after the other, and where that leads. After the round that
says so it is over. What others do in a pause comes first in the round after it. -/
inductive Loop (p : Processor) : Setting → List Next → Setting → Prop
  | nil (s : Setting) : Loop p s [] s
  | round {s s₁ s' : Setting} {claim : ClaimToken} {log : List Exchange} {next : Next}
      {nexts : List Next} (hround : (p.round claim).Yields log next) (hplays : s.Plays log s₁)
      (hends : next = .stop → nexts = []) (hrest : Loop p s₁ nexts s') : Loop p s (next :: nexts) s'

namespace Loop

theorem of_append {before after : List Next} (hloop : p.Loop s (before ++ after) s') :
    ∃ s₁, p.Loop s before s₁ ∧ p.Loop s₁ after s' := by
  induction before generalizing s with
  | nil => exact ⟨s, .nil s, hloop⟩
  | cons next before ih =>
      cases hloop with
      | round hround hplays hends hrest =>
          obtain ⟨s₁, hbefore, hafter⟩ := ih hrest
          exact ⟨s₁, .round hround hplays (fun hstop => (List.append_eq_nil_iff.mp (hends hstop)).1)
            hbefore, hafter⟩

/-- Once a stop is requested, the loop does not go on at once any more. -/
theorem count_again_of_stopping (hloop : p.Loop s nexts s') (hstopping : s.stopping) :
    nexts.count .again = 0 := by
  cases hloop with
  | nil => rfl
  | round hround hplays hends hrest =>
      obtain ⟨requested, later, rfl, hstop, _⟩ := yields_round hround
      obtain ⟨s₁, s₂, hbefore, hgives, _⟩ := hplays.of_cons
      cases hgives with
      | stopRequested hflag =>
          obtain rfl := hstop (hflag.symm.trans (hbefore.stopping hstopping))
          rw [hends rfl]
          rfl

/-- Each round that is followed by the next at once takes a full batch off what is open. The last
one need not, if a stop has been requested, but it has found a full batch open. Pauses in between
make no difference. -/
theorem count_again_mul_le (hloop : p.Loop s nexts s') :
    nexts.count .again * p.batchSize ≤ s.table.openIds.length := by
  induction hloop with
  | nil => simp
  | @round s s₁ s' claim log next nexts hround hplays _ hrest ih =>
      by_cases hagain : next = .again
      · subst hagain
        obtain ⟨requested, later, rfl, _, hcycle⟩ := yields_round hround
        obtain ⟨report, hreport, hfull⟩ := hcycle rfl
        obtain ⟨s₂, s₃, hbefore, hgives, hlater⟩ := hplays.of_cons
        have hopen : s₃.table.openIds.length ≤ s.table.openIds.length :=
          s₃.table.openIds_nodup.length_le_of_subset
            (List.Subset.trans hgives.openIds_subset hbefore.openIds_subset)
        rw [List.count_cons_self, Nat.succ_mul]
        by_cases hgoing : ∀ x ∈ later, x.stops = false
        · have hfewer := openIds_add_le_of_fullAndClean hreport hfull hgoing hlater
          omega
        · simp only [not_forall, Bool.not_eq_false] at hgoing
          obtain ⟨x, hx, hstops⟩ := hgoing
          have hover := hrest.count_again_of_stopping (hlater.stopping_of_stops hx hstops)
          rw [hover, Nat.zero_mul, Nat.zero_add]
          exact Nat.le_trans (batchSize_le_of_fullAndClean hreport hfull hlater) hopen
      · rw [List.count_cons_of_ne hagain]
        exact Nat.le_trans ih (s₁.table.openIds_nodup.length_le_of_subset hplays.openIds_subset)

end Loop

/-- Whatever the consumers and the clock do, and whatever others do short of adding messages, a full
and clean cycle that sees no stop leaves fewer messages unprocessed, by at least the size of a
batch. So wherever the loop is, it goes on at once no more often than there are full batches of
unprocessed messages at that point, and then pauses or ends. -/
theorem drain_is_bounded (c : Config) :
    let p := ofConfig c
    (∀ claim log report s s', (p.cycle claim).Yields log (.ok report) →
      report.isFullAndClean p.batchSize → (∀ x ∈ log, x.stops = false) → Plays s log s' →
      s'.table.openIds.length + p.batchSize ≤ s.table.openIds.length) ∧
    ∀ s nexts s', p.Loop s nexts s' →
      ∀ before count after, nexts = before ++ (List.replicate count .again ++ after) →
        ∃ s₁, p.Loop s before s₁ ∧ p.Loop s₁ (List.replicate count .again ++ after) s' ∧
          count ≤ s₁.table.openIds.length / p.batchSize := by
  intro p
  refine ⟨fun claim log report s s' hyields hfull hgoing hplays =>
    openIds_add_le_of_fullAndClean hyields hfull hgoing hplays, ?_⟩
  rintro s nexts s' hloop before count after rfl
  obtain ⟨s₁, hbefore, hafter⟩ := hloop.of_append
  have hpositive : 0 < p.batchSize := Nat.lt_of_lt_of_le Nat.one_pos (Nat.le_max_right _ _)
  have hcount : count ≤ (List.replicate count Next.again ++ after).count .again := by
    rw [List.count_append, List.count_replicate_self]
    exact Nat.le_add_right _ _
  refine ⟨s₁, hbefore, hafter, (Nat.le_div_iff_mul_le hpositive).mpr ?_⟩
  exact Nat.le_trans (Nat.mul_le_mul_right _ hcount) hafter.count_again_mul_le

/-- A message is fetched alone, and delivered. -/
def alone (p : Processor) (claim : ClaimToken) : List Exchange :=
  let m := Message.numbered 1 "order" .epoch
  [⟨.now, .epoch⟩, ⟨.store (.fetch claim p.batchSize .epoch p.lease), .ok [m]⟩,
    ⟨.stopRequested, false⟩, ⟨.now, .epoch⟩,
    ⟨.store (.renew claim [m.id] .epoch p.lease), .ok [m.id]⟩,
    ⟨.dispatch m ⟨claim, [m.id], p.lease⟩, .ok (.delivered 1)⟩, ⟨.now, .epoch⟩,
    ⟨.store (.markProcessed claim m.id .epoch), .ok ()⟩]

theorem alone_yields (p : Processor) (claim : ClaimToken) :
    (p.cycle claim).Yields (alone p claim) (.ok { fetched := 1, processed := 1 }) :=
  .ask _ (.ask _ (.ask _ (.ask _ (.ask _ (.ask _ (.ask _ (.ask _ (.done _))))))))

/-- With one message left, and batches of one, the loop goes on at once a single time. -/
theorem drain_is_bounded_lastMessage :
    let p := ofConfig { Config.default with batchSize := 0 }
    let claim := ClaimToken.numbered 1
    let m := Message.numbered 1 "order" .epoch
    let s : Setting := ⟨.single ⟨m, none⟩, false⟩
    ∃ s' s'', s.Plays (alone p claim) s' ∧
      s'.table.openIds.length + p.batchSize ≤ s.table.openIds.length ∧
      p.Loop s [.again, .pause p.pollInterval] s'' ∧ 1 ≤ s.table.openIds.length / p.batchSize := by
  intro p claim m s
  have hyields := alone_yields p claim
  let fetch := s.table.fetch claim p.batchSize .epoch p.lease
  let renewal := fetch.2.renew claim [m.id] .epoch p.lease
  let mark := renewal.2.markProcessed claim m.id .epoch
  have hfetched : fetch.1 = [m] := by decide +kernel
  have hrenewed : renewal.1 = [m.id] := by decide +kernel
  have hmarked : mark.1 = .ok () := by
    have hok : mark.1.isOk := by decide +kernel
    cases hreply : mark.1 with
    | ok => rfl
    | error => rw [hreply] at hok; cases hok
  have hplays : s.Plays (alone p claim) ⟨mark.2, false⟩ :=
    .answer (.now _) (.answer (.store .served (congrArg Except.ok hfetched))
      (.answer (.stopRequested rfl) (.answer (.now _)
        (.answer (.store .served (congrArg Except.ok hrenewed)) (.answer (.dispatch _ _ _)
          (.answer (.now _) (.answer (.store .served hmarked) (.nil _))))))))
  have hempty : (mark.2.fetch (.numbered 2) p.batchSize .epoch p.lease).1 = [] := by decide +kernel
  have hfirst : (p.round claim).Yields (⟨.stopRequested, false⟩ :: alone p claim) .again :=
    .ask _ (.ask _ (.ask _ (.ask _ (.ask _ (.ask _ (.ask _ (.ask _ (.ask _ (.done _)))))))))
  have hsecond : (p.round (.numbered 2)).Yields [⟨.stopRequested, false⟩, ⟨.now, .epoch⟩,
      ⟨.store (.fetch (.numbered 2) p.batchSize .epoch p.lease), .ok []⟩] (.pause p.pollInterval) :=
    .ask _ (.ask _ (.ask _ (.done _)))
  have hloop : p.Loop s [.again, .pause p.pollInterval] _ :=
    .round hfirst (.answer (.stopRequested rfl) hplays) nofun
      (.round hsecond (.answer (.stopRequested rfl) (.answer (.now _)
        (.answer (.store .served (congrArg Except.ok hempty)) (.nil _)))) nofun (.nil _))
  obtain ⟨hfewer, hbounded⟩ := drain_is_bounded { Config.default with batchSize := 0 }
  obtain ⟨s₁, hbefore, _, hcount⟩ := hbounded s _ _ hloop [] 1 [.pause p.pollInterval] rfl
  cases hbefore
  exact ⟨_, _, hplays, hfewer claim _ _ s _ hyields rfl (by simp [alone, Exchange.stops]) hplays,
    hloop, hcount⟩

end Processor

end Outbox
