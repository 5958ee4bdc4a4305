import Outbox.Proofs.Draining
import Outbox.Proofs.Retention
import Outbox.Status
import Mathlib.Algebra.BigOperators.Intervals

/-! # No message is lost or doubled

Messages come into the table by commits and leave it by sweeps. All else that happens moves them at
most from one state to another. So from the empty table on the counts come to what commits have
added less what sweeps have reported as deleted.
-/

namespace Outbox

namespace Message

variable {m : Message}

theorem state_eq_processed_iff : m.state = .processed ↔ m.isProcessed := by
  unfold state
  split
  next hprocessed => simp [hprocessed]
  next hopen =>
    have hstate : (if 0 < m.retryCount then MessageState.failing else .pending) ≠ .processed := by
      split
      · decide
      · decide
    exact iff_of_false hstate hopen

end Message

namespace Counts

def inState (c : Counts) : MessageState → Nat
  | .pending => c.pending
  | .failing => c.failing
  | .processed => c.processed

def total (c : Counts) : Nat := c.pending + c.failing + c.processed

theorem inState_add (c : Counts) (added state : MessageState) :
    (c.add added).inState state = c.inState state + if added = state then 1 else 0 := by
  cases added <;> cases state <;> rfl

theorem total_add (c : Counts) (added : MessageState) : (c.add added).total = c.total + 1 := by
  cases added <;> simp only [add, total] <;> omega

/-- The count of a state is that of the messages in it. -/
theorem inState_ofMessages (messages : List Message) (state : MessageState) :
    (ofMessages messages).inState state = messages.countP (·.state = state) := by
  suffices hall : ∀ c : Counts, (messages.foldl (fun c m => c.add m.state) c).inState state =
      c.inState state + messages.countP (·.state = state) by
    refine (hall zero).trans ?_
    cases state <;> exact Nat.zero_add _
  intro c
  induction messages generalizing c with
  | nil => rfl
  | cons m messages ih =>
      rw [List.foldl_cons, ih, inState_add, List.countP_cons]
      simp only [decide_eq_true_eq]
      omega

theorem total_ofMessages (messages : List Message) :
    (ofMessages messages).total = messages.length := by
  suffices hall : ∀ c : Counts, (messages.foldl (fun c m => c.add m.state) c).total =
      c.total + messages.length by
    exact (hall zero).trans (Nat.zero_add _)
  intro c
  induction messages generalizing c with
  | nil => rfl
  | cons m messages ih =>
      rw [List.foldl_cons, ih, total_add, List.length_cons]
      omega

end Counts

namespace Table

variable {t : Table} {cutoff : Instant}

theorem inState_counts (t : Table) (state : MessageState) :
    t.counts.inState state = t.rows.countP (·.message.state = state) := by
  rw [counts, Counts.inState_ofMessages, messages, List.countP_map]
  rfl

theorem total_counts (t : Table) : t.counts.total = t.rows.length := by
  rw [counts, Counts.total_ofMessages, messages, List.length_map]

/-- Nothing is to be delivered just when nothing is counted as pending or failing. -/
theorem unprocessed?_counts_eq_zero :
    t.counts.unprocessed? = some 0 ↔ ∀ row ∈ t.rows, row.message.state = .processed := by
  have hsum : t.counts.unprocessed? = some 0 ↔
      t.counts.inState .pending = 0 ∧ t.counts.inState .failing = 0 := by
    simp only [Counts.unprocessed?, Counts.inState]
    split
    · rw [Option.some.injEq, Nat.add_eq_zero_iff]
    · refine iff_of_false (by simp) ?_
      omega
  rw [hsum, inState_counts, inState_counts, List.countP_eq_zero, List.countP_eq_zero,
    ← forall₂_and]
  refine forall₂_congr fun row _ => ?_
  cases row.message.state <;> simp

/-! ### What a sweep takes away -/

/-- What a sweep deletes is processed. -/
theorem processed_of_swept {row : Row} (hmem : row ∈ t.rows)
    (hgone : row ∉ (t.deleteProcessed cutoff).2.rows) : row.message.state = .processed := by
  refine Message.state_eq_processed_iff.mpr ?_
  by_contra hopen
  refine hgone (List.mem_filter.mpr ⟨hmem, ?_⟩)
  have hnone : row.message.processedAt = none := by simpa [Message.isProcessed] using hopen
  simp [hnone]

/-- A sweep leaves the counts of unprocessed messages as they are. -/
theorem inState_sweep {state : MessageState} (hopen : state ≠ .processed) :
    (t.deleteProcessed cutoff).2.counts.inState state = t.counts.inState state := by
  rw [inState_counts, inState_counts]
  refine (List.countP_filter ..).trans (List.countP_congr fun row hmem => ?_)
  rw [Bool.and_eq_true, and_iff_left_iff_imp]
  intro hstate
  by_contra hswept
  have hgone : row ∉ (t.deleteProcessed cutoff).2.rows := fun hkept =>
    hswept (List.mem_filter.mp hkept).2
  rw [decide_eq_true_eq] at hstate
  exact hopen (hstate ▸ processed_of_swept hmem hgone)

end Table

/-! ### What comes and goes in a run -/

namespace Event

/-- How many messages the event adds to the table. -/
def committed (t : Table) : Event → Nat
  | commit u =>
      match u.commit t with
      | .ok _ => u.messages.length
      | .error _ => 0
  | _ => 0

/-- How many messages the event deletes, as it reports itself. -/
def swept (t : Table) : Event → Nat
  | outside (.deleteProcessed cutoff) => (t.deleteProcessed cutoff).1
  | _ => 0

end Event

/-- What is called under a claim neither adds a row nor deletes one. -/
theorem Table.length_answer_of_claim (t : Table) {call : StoreCall} {claim : ClaimToken}
    (hclaim : call.claim? = some claim) : (t.answer call).2.rows.length = t.rows.length := by
  simpa using congrArg List.length (t.ids_answer hclaim)

theorem Fate.length_table (fate : Fate) (t : Table) (call : StoreCall) {claim : ClaimToken}
    (hclaim : call.claim? = some claim) : (fate.table t call).rows.length = t.rows.length := by
  unfold table
  split
  · exact t.length_answer_of_claim hclaim
  · rfl

/-- A commit adds one row for each message. -/
theorem UnitOfWork.length_of_commit {u : UnitOfWork} {t t' : Table}
    (hcommit : u.commit t = .ok t') :
    t'.rows.length = t.rows.length + u.messages.length := by
  unfold commit at hcommit
  split at hcommit
  next => cases hcommit
  next =>
    cases hcommit
    simp

namespace Run

variable {r : Run} {n : Nat}

def committed (r : Run) (n : Nat) : Nat := (r.event n).committed (r.table n)

def swept (r : Run) (n : Nat) : Nat := (r.event n).swept (r.table n)

/-- What cycles call the store for they do under their claims. -/
theorem claim?_of_call {claim : ClaimToken} {p : Processor} {call : StoreCall}
    {goOn : Except Failure call.Reply → Routine (Except Failure BatchReport)}
    (hat : (r.state n).workers claim = some ⟨p, .ask (.store call) goOn, none⟩) :
    call.claim? = some claim := by
  obtain ⟨φ, hφ, _⟩ := exists_phase hat
  obtain ⟨next, hasks, _⟩ := Processor.Phase.asks_of_routine_eq hφ.symm
  exact hasks.claim?_eq

/-- No cycle sweeps. -/
theorem event_of_sweep {cutoff : Instant} (hcalls : r.Calls n (.deleteProcessed cutoff)) :
    r.event n = .outside (.deleteProcessed cutoff) := by
  generalize hcall : StoreCall.deleteProcessed cutoff = call at hcalls
  generalize hevent : r.event n = e
  unfold Calls at hcalls
  rw [hevent] at hcalls
  cases hcalls with
  | cycle hat =>
      have hclaim := claim?_of_call hat
      rw [← hcall] at hclaim
      cases hclaim
  | heartbeat => cases hcall
  | outside => rfl

/-- In one step the rows that are deleted and those that are left make up for those that were there
and those that are added. -/
theorem length_step (r : Run) (n : Nat) :
    (r.table (n + 1)).rows.length + r.swept n = (r.table n).rows.length + r.committed n := by
  have hmove := r.move n
  unfold table swept committed table
  generalize hevent : r.event n = e at hmove
  generalize hafter : r.state (n + 1) = s' at hmove
  cases hmove with
  | @store claim fate p call goOn hat => exact fate.length_table _ call (claim?_of_call hat)
  | @renewal claim fate now p message heartbeat goOn hat =>
      exact fate.length_table _ (heartbeat.renewal now) rfl
  | @outside call =>
      cases hclaim : call.claim? with
      | some claim =>
          have hlength := (r.state n).table.length_answer_of_claim hclaim
          cases call with
          | deleteProcessed => cases hclaim
          | _ => exact hlength
      | none =>
          cases call with
          | deleteProcessed cutoff => exact (r.state n).table.length_deleteProcessed cutoff
          | get | failing | counts => rfl
          | fetch | renew | release | markProcessed | markFailed => cases hclaim
  | committed hcommit =>
      simp only [Event.swept, Event.committed, hcommit]
      exact UnitOfWork.length_of_commit hcommit
  | rejected hcommit => simp only [Event.swept, Event.committed, hcommit]
  | idle | begin | time | stopFlag | delivery | beat => rfl

/-- From the empty table on, the rows and all that were deleted are as many as were committed. -/
theorem length_conserved (hempty : r.table 0 = .empty) (n : Nat) :
    (r.table n).rows.length + ∑ k ∈ Finset.range n, r.swept k =
      ∑ k ∈ Finset.range n, r.committed k := by
  induction n with
  | zero => rw [hempty]; rfl
  | succ n ih =>
      rw [Finset.sum_range_succ, Finset.sum_range_succ, ← ih]
      have hstep := r.length_step n
      omega

/-- As many messages are in the table as have been committed and not been swept, where a commit that
fails counts for nothing and a sweep for what it returns. They are the messages that are counted as
pending, failing or processed, each in the state that it is in, and a status reports the table as
drained just when all of them are processed. A sweep takes away processed messages only. -/
theorem messages_conserved (hempty : r.table 0 = .empty) (n : Nat) :
    let before := (r.table n).counts
    let after := (r.table (n + 1)).counts
    before.pending + before.failing + before.processed + ∑ k ∈ Finset.range n, r.swept k =
        ∑ k ∈ Finset.range n, r.committed k ∧
      (∀ state, before.inState state = (r.table n).rows.countP (·.message.state = state)) ∧
      (∀ {σ κ : Type} (world : Surroundings σ) (registry : Registry κ) (minRetryCount : UInt32)
        (limit : Nat) (scene : Scene σ), scene.table = r.table n →
        ∃ status, ((Status.collect registry minRetryCount limit).run world.answer scene).1 =
            .ok status ∧ status.counts = before ∧
          (status.isDrained? = some true ↔
            ∀ row ∈ (r.table n).rows, row.message.state = .processed)) ∧
      ∀ cutoff, r.Calls n (.deleteProcessed cutoff) →
        ((r.table n).answer (.deleteProcessed cutoff)).1 = .ok (r.swept n) ∧
        (r.table (n + 1)).rows.Sublist (r.table n).rows ∧
        (∀ row ∈ (r.table n).rows, row ∉ (r.table (n + 1)).rows →
          row.message.state = .processed) ∧
        after.pending = before.pending ∧ after.failing = before.failing ∧
        after.processed + r.swept n = before.processed := by
  intro before after
  refine ⟨?_, (r.table n).inState_counts, ?_, ?_⟩
  · rw [← length_conserved hempty n, ← Table.total_counts]
    rfl
  · intro σ κ world registry minRetryCount limit scene hscene
    refine ⟨_, rfl, congrArg Table.counts hscene, ?_⟩
    rw [← Table.unprocessed?_counts_eq_zero, ← hscene]
    simp [Status.isDrained?, Option.map_eq_some_iff]
  · intro cutoff hcalls
    have hevent := event_of_sweep hcalls
    have htable : r.table (n + 1) = ((r.table n).deleteProcessed cutoff).2 :=
      (r.move n).table_of_calls hcalls
    have hswept : r.swept n = ((r.table n).deleteProcessed cutoff).1 := by
      rw [swept, hevent]
      rfl
    have hpending : after.inState .pending = before.inState .pending := by
      simp only [after, htable]
      exact Table.inState_sweep (by decide)
    have hfailing : after.inState .failing = before.inState .failing := by
      simp only [after, htable]
      exact Table.inState_sweep (by decide)
    have htotal : after.total + r.swept n = before.total := by
      simp only [after, before, Table.total_counts, htable, hswept]
      exact (r.table n).length_deleteProcessed cutoff
    refine ⟨congrArg Except.ok hswept.symm, ?_, ?_, hpending, hfailing, ?_⟩
    · rw [htable]
      exact List.filter_sublist
    · rw [htable]
      exact fun row hmem hgone => Table.processed_of_swept hmem hgone
    · simp only [Counts.total] at htotal
      simp only [Counts.inState] at hpending hfailing
      omega

/-- A message is committed twice, which fails the second time, and then delivered. Another one is
committed and fails, and the first one is swept. -/
def turnover : List Event :=
  let claim := ClaimToken.numbered 1
  let first := Message.numbered 1 "order" .epoch
  let second := Message.numbered 2 "order" .epoch
  [.commit (.single first), .commit (.single first),
    .outside (.fetch claim 5 .epoch (.ofSeconds 1)),
    .outside (.markProcessed claim first.id .epoch), .commit (.single second),
    .outside (.fetch claim 5 .epoch (.ofSeconds 1)),
    .outside (.markFailed claim second.id "refused" none),
    .outside (.deleteProcessed (.numbered 1))]

def turnoverRun : Run := ofScript .empty turnover (by decide +kernel)

/-- Two messages have been committed, one of them is left, and so one was swept. -/
theorem turnover_conserves :
    turnoverRun.table 0 = .empty ∧ (turnoverRun.table 8).counts = ⟨0, 1, 0⟩ ∧
      ∑ k ∈ Finset.range 8, turnoverRun.committed k = 2 ∧
      ∑ k ∈ Finset.range 8, turnoverRun.swept k = 1 := by
  have hcounts : (turnoverRun.table 8).counts = ⟨0, 1, 0⟩ := by decide +kernel
  have hcommitted : ∑ k ∈ Finset.range 8, turnoverRun.committed k = 2 := by decide +kernel
  obtain ⟨hbalance, _⟩ := messages_conserved (r := turnoverRun) rfl 8
  rw [hcounts, hcommitted] at hbalance
  have hswept : 0 + 1 + 0 + ∑ k ∈ Finset.range 8, turnoverRun.swept k = 2 := hbalance
  exact ⟨rfl, hcounts, hcommitted, by omega⟩

end Run

end Outbox
