import Outbox.Proofs.ClaimFields
import Outbox.Proofs.Messages
import Outbox.Proofs.Scripts

/-! # From commit to deletion

A row begins with a new message and without a claim. What calls then make of it, in whatever order
and under whatever claims, keeps its fields in keeping with each other and moves its message
forward. This holds of everything that can be done to an empty store, also of calls that no cycle
would make.
-/

namespace Outbox

/-- A message is in keeping with itself, and claimed only as long as it is to be delivered. -/
structure Row.Sound (row : Row) : Prop where
  message : row.message.Sound
  free : row.message.isProcessed → row.lease = none

namespace Row.Change

variable {row after : Row} {call : StoreCall}

/-- A call that leaves a row moves its message forward, or not at all. -/
theorem advances (hchange : row.Change call (some after)) :
    row.message.Advances after.message := by
  generalize hafter : some after = result at hchange
  cases hchange with
  | kept | claimed | extended | released => cases hafter; exact .refl _
  | processed => cases hafter; exact Message.advances_markProcessed ..
  | failed => cases hafter; exact Message.advances_markFailed ..
  | deleted => cases hafter

/-- Nobody gets a claim on a processed message. -/
theorem free (hchange : row.Change call (some after))
    (hfree : row.message.isProcessed → row.lease = none) :
    after.message.isProcessed → after.lease = none := by
  intro hprocessed
  generalize hafter : some after = result at hchange
  cases hchange with
  | kept => cases hafter; exact hfree hprocessed
  | claimed hclaimable =>
      cases hafter
      exact (row.not_isClaimable_of_processed hprocessed _ hclaimable).elim
  | extended _ hheld =>
      cases hafter
      exact (row.not_isHeldBy_of_processed hprocessed _ hheld).elim
  | processed | failed | released => cases hafter; rfl
  | deleted => cases hafter

/-- A call that leaves a sound row leaves it sound. -/
theorem sound (hchange : row.Change call (some after)) (hsound : row.Sound) : after.Sound := by
  refine ⟨?_, hchange.free hsound.free⟩
  generalize hafter : some after = result at hchange
  cases hchange with
  | kept | claimed | extended | released => cases hafter; exact hsound.message
  | processed => cases hafter; exact hsound.message.markProcessed _
  | failed => cases hafter; exact hsound.message.markFailed _ _
  | deleted => cases hafter

end Row.Change

theorem Message.IsNew.row_sound {m : Message} (hnew : m.IsNew) : Row.Sound ⟨m, none⟩ :=
  ⟨hnew.sound, fun _ => rfl⟩

/-! ### Sequences of operations -/

/-- Messages that the operation commits are new. -/
def Operation.BringsNew : Operation → Prop
  | commit u => ∀ m ∈ u.messages, m.IsNew
  | call _ => True

instance : (op : Operation) → Decidable op.BringsNew
  | .commit u => inferInstanceAs (Decidable (∀ m ∈ u.messages, m.IsNew))
  | .call _ => inferInstanceAs (Decidable True)

/-- The operation as an event that no cycle has a part in. -/
def Operation.event : Operation → Event
  | commit u => .commit u
  | call c => .outside c

namespace Table

variable {t : Table} {id : MessageId} {row : Row} {op : Operation}

/-- What an operation can make of the row of an id: it is changed as by a call, or left as it is, or
it is newly committed. -/
theorem row?_perform_cases (t : Table) (op : Operation) (id : MessageId) :
    (∃ row call, t.row? id = some row ∧ row.Change call ((t.perform op).row? id)) ∨
      (t.row? id = none ∧ ∀ row, (t.perform op).row? id = some row →
        ∃ u m, op = .commit u ∧ m ∈ u.messages ∧ row = ⟨m, none⟩) := by
  cases hrow : t.row? id with
  | some row =>
      refine .inl ⟨row, ?_⟩
      cases op with
      | call c => exact ⟨c, rfl, change_of_answer hrow c⟩
      | commit u =>
          have hsame : (t.perform (.commit u)).row? id = some row := by
            rw [perform]
            cases hcommit : u.commit t with
            | error failure => exact hrow
            | ok after => exact row?_commit_of_some hcommit hrow
          exact ⟨.counts, rfl, hsame ▸ .kept _⟩
  | none =>
      refine .inr ⟨rfl, fun row hafter => ?_⟩
      cases op with
      | call c =>
          rw [perform, row?_answer_eq_none hrow] at hafter
          cases hafter
      | commit u =>
          rw [perform] at hafter
          cases hcommit : u.commit t with
          | error failure =>
              rw [hcommit] at hafter
              cases hrow.symm.trans hafter
          | ok after =>
              rw [hcommit] at hafter
              change after.row? id = some row at hafter
              rw [row?_commit hcommit, hrow, Option.none_or] at hafter
              obtain ⟨m, hfind, rfl⟩ := Option.map_eq_some_iff.mp hafter
              exact ⟨u, m, rfl, List.mem_of_find?_eq_some hfind, rfl⟩

/-- An operation on sound rows leaves and adds only sound rows. -/
theorem sound_perform (hsound : ∀ id row, t.row? id = some row → row.Sound)
    (hnew : op.BringsNew) (hrow : (t.perform op).row? id = some row) : row.Sound := by
  rcases t.row?_perform_cases op id with ⟨before, call, hbefore, hchange⟩ | ⟨_, hcommitted⟩
  · rw [hrow] at hchange
    exact hchange.sound (hsound id before hbefore)
  · obtain ⟨u, m, rfl, hmem, rfl⟩ := hcommitted row hrow
    exact (hnew m hmem).row_sound

/-- So do any number of operations. -/
theorem sound_foldl_perform {ops : List Operation} (hnew : ∀ op ∈ ops, op.BringsNew)
    (hsound : ∀ id row, t.row? id = some row → row.Sound)
    (hrow : (ops.foldl perform t).row? id = some row) : row.Sound := by
  induction ops generalizing t with
  | nil => exact hsound id row hrow
  | cons op ops ih =>
      obtain ⟨hfirst, hrest⟩ := List.forall_mem_cons.mp hnew
      exact ih hrest (fun id row => sound_perform hsound hfirst) hrow

/-- An operation that leaves a row moves its message forward, or not at all. -/
theorem advances_perform {after : Row} (op : Operation) (hrow : t.row? id = some row)
    (hafter : (t.perform op).row? id = some after) : row.message.Advances after.message := by
  rcases t.row?_perform_cases op id with ⟨before, call, hbefore, hchange⟩ | ⟨hnone, _⟩
  · obtain rfl := Option.some.inj (hrow.symm.trans hbefore)
    rw [hafter] at hchange
    exact hchange.advances
  · cases hnone.symm.trans hrow

end Table

namespace Cells

/-- Whatever has been done to an empty store, by commits of new messages and by calls, every row is
under its own id, is scheduled no earlier than it was created, has a holder of its claim and an end
of it or neither, has no error and no claim when it is processed, and until then an error just when
it has been retried. An operation that leaves the row there keeps what was written, moves neither
schedule nor retry count back, and keeps the time of success. -/
theorem rows_stay_sound {ops : List Operation} (hnew : ∀ op ∈ ops, op.BringsNew) {key : MessageId}
    {c : Cell} (hcell : (ops.foldl perform .empty).find? key = some c) :
    c.message.id = key ∧
      c.message.createdAt ≤ c.message.scheduledAt ∧
      (c.claimedBy.isSome ↔ c.lockedUntil.isSome) ∧
      (c.message.isProcessed →
        c.message.error = none ∧ c.claimedBy = none ∧ c.lockedUntil = none) ∧
      (c.message.isProcessed = false → (c.message.error.isSome ↔ 0 < c.message.retryCount)) ∧
      ∀ op after, ((ops.foldl perform .empty).perform op).find? key = some after →
        c.message.Advances after.message := by
  rw [foldl_perform_empty, find?_ofTable] at hcell
  obtain ⟨row, hrow, rfl⟩ := Option.map_eq_some_iff.mp hcell
  have hsound : row.Sound :=
    Table.sound_foldl_perform hnew (fun id row hrow => by cases hrow) hrow
  refine ⟨Table.row?_id hrow, hsound.message.scheduled, ?_, fun hprocessed => ?_,
    hsound.message.unprocessed, fun op after hafter => ?_⟩
  · simp [Row.cell, Row.claimedBy, Row.lockedUntil]
  · have hfree := hsound.free hprocessed
    exact ⟨hsound.message.processed hprocessed, congrArg (Option.map Lease.holder) hfree,
      congrArg (Option.map Lease.expires) hfree⟩
  · rw [foldl_perform_empty, perform_ofTable, find?_ofTable] at hafter
    obtain ⟨row', hrow', rfl⟩ := Option.map_eq_some_iff.mp hafter
    exact Table.advances_perform op hrow hrow'

/-- A message is fetched, and when its lease has run out it is fetched under another claim and
fails. The first claim comes too late with a success. Then the message is fetched once more and
delivered. -/
def overtaken : List Operation :=
  let first := ClaimToken.numbered 1
  let second := ClaimToken.numbered 2
  let m := Message.numbered 1 "order" .epoch
  let later := Instant.numbered 2
  [.commit (.single m),
    .call (.fetch first 1 .epoch (.ofSeconds 1)),
    .call (.fetch second 1 later (.ofSeconds 1)),
    .call (.markFailed second m.id "down" none),
    .call (.markProcessed first m.id later),
    .call (.fetch second 1 later (.ofSeconds 1)),
    .call (.markProcessed second m.id later)]

/-- The row while it is claimed a second time, when it has failed, and in the end. -/
theorem overtaken_row_stays_sound :
    let m := Message.numbered 1 "order" .epoch
    let failed := m.markFailed "down" none
    let fails := Operation.call (.markFailed (.numbered 2) m.id "down" none)
    let claimed : Cell := ⟨m, some (.numbered 2), some (.numbered 3)⟩
    let delivered : Cell := ⟨failed.markProcessed (.numbered 2), none, none⟩
    ((overtaken.take 3).foldl perform .empty).find? m.id = some claimed ∧
      (claimed.claimedBy.isSome ↔ claimed.lockedUntil.isSome) ∧
      (((overtaken.take 3).foldl perform .empty).perform fails).find? m.id =
        some ⟨failed, none, none⟩ ∧ m.Advances failed ∧
      ((overtaken.take 5).foldl perform .empty).find? m.id = some ⟨failed, none, none⟩ ∧
      (failed.error.isSome ↔ 0 < failed.retryCount) ∧
      (overtaken.foldl perform .empty).find? m.id = some delivered ∧
      delivered.message.error = none ∧ delivered.claimedBy = none ∧
      delivered.lockedUntil = none := by
  intro m failed fails claimed delivered
  have hnew : ∀ op ∈ overtaken, op.BringsNew := by decide +kernel
  have hclaimed : ((overtaken.take 3).foldl perform .empty).find? m.id = some claimed := by
    decide +kernel
  have hfails : (((overtaken.take 3).foldl perform .empty).perform fails).find? m.id =
      some ⟨failed, none, none⟩ := by decide +kernel
  have hfailed : ((overtaken.take 5).foldl perform .empty).find? m.id =
      some ⟨failed, none, none⟩ := by decide +kernel
  have hdelivered : (overtaken.foldl perform .empty).find? m.id = some delivered := by
    decide +kernel
  obtain ⟨_, _, htogether, _, _, hadvances⟩ :=
    rows_stay_sound (fun op hop => hnew op (List.mem_of_mem_take hop)) hclaimed
  obtain ⟨_, _, _, _, herror, _⟩ :=
    rows_stay_sound (fun op hop => hnew op (List.mem_of_mem_take hop)) hfailed
  obtain ⟨_, _, _, hfree, _, _⟩ := rows_stay_sound hnew hdelivered
  obtain ⟨hcured, hunclaimed, hunlocked⟩ := hfree (by decide)
  exact ⟨hclaimed, htogether, hfails, hadvances fails _ hfails, hfailed, herror (by decide),
    hdelivered, hcured, hunclaimed, hunlocked⟩

end Cells

namespace Run

variable {r : Run} {n : Nat} {id : MessageId} {row : Row}

/-- The table begins empty, and units of work bring new messages. -/
structure FromEmpty (r : Run) : Prop where
  empty : r.table 0 = .empty
  isNew : ∀ {n u}, r.event n = .commit u → ∀ m ∈ u.messages, m.IsNew

/-- What holds of all rows: it holds at the beginning and of what is committed, it is not lost with
time, and changes keep it. -/
theorem forall_row {P : Nat → Row → Prop}
    (hstart : ∀ {id row}, (r.table 0).row? id = some row → P 0 row)
    (hcommit : ∀ {n m}, r.Commits n m → P (n + 1) ⟨m, none⟩)
    (hlater : ∀ {n row}, P n row → P (n + 1) row)
    (hchange : ∀ {n call row after}, r.Calls n call → row.Change call (some after) → P n row →
      P (n + 1) after)
    (hrow : (r.table n).row? id = some row) : P n row := by
  induction n generalizing row with
  | zero => exact hstart hrow
  | succ n ih =>
      -- a row is as it was before the step, or changed by a call, or newly committed
      rcases row_origin hrow with ⟨before, hbefore⟩ | ⟨m, hcommits, _, rfl⟩
      · rcases row_step hbefore with hsame | ⟨call, hcalls, hchanges⟩
        · obtain rfl := Option.some.inj (hsame.symm.trans hrow)
          exact hlater (ih hbefore)
        · rw [hrow] at hchanges
          exact hchange hcalls hchanges (ih hbefore)
      · exact hcommit hcommits

theorem advances_step {after : Row} (hrow : (r.table n).row? id = some row)
    (hafter : (r.table (n + 1)).row? id = some after) : row.message.Advances after.message := by
  rcases row_step hrow with hsame | ⟨call, _, hchange⟩
  · obtain rfl := Option.some.inj (hsame.symm.trans hafter)
    exact .refl _
  · rw [hafter] at hchange
    exact hchange.advances

/-- A claim that has been overtaken comes too late with a success. -/
def overtakenRun : Run :=
  ofScript .empty (Cells.overtaken.map Operation.event) (by decide +kernel)

/-- The row when the first claim comes too late. -/
def overtakenRow : Row := ⟨(Message.numbered 1 "order" .epoch).markFailed "down" none, none⟩

theorem overtakenRun_fromEmpty : overtakenRun.FromEmpty where
  empty := rfl
  isNew {n u} hevent :=
    forall_event_ofScript (P := fun _ e => ∀ u ∈ e.commit?, ∀ m ∈ u.messages, m.IsNew)
      (fun n u hmem => by cases hmem) (by decide +kernel) n u (congrArg Event.commit? hevent)

end Run

end Outbox
