import Outbox.Proofs.Scripts

/-! # A processed message is final

Whatever is called, by whoever and under whatever claim, the row of a processed message stays as it
is until a sweep deletes it. No fetch or renewal returns its id, and a cycle begins a dispatch only
with what a renewal has just returned, never with what it remembers of the batch.
-/

namespace Outbox

/-- A call leaves a processed row as it is, or sweeps it. -/
theorem Row.Change.of_processed {row : Row} {call : StoreCall} {after : Option Row}
    (hchange : row.Change call after) (hprocessed : row.message.isProcessed) :
    after = some row ∨ ∃ cutoff, call = .deleteProcessed cutoff ∧ after = none := by
  cases hchange with
  | kept => exact .inl rfl
  | claimed hclaimable => exact (Row.not_isClaimable_of_processed hprocessed _ hclaimable).elim
  | extended _ hheld | processed hheld | failed hheld | released _ hheld =>
      exact (Row.not_isHeldBy_of_processed hprocessed _ hheld).elim
  | deleted => exact .inr ⟨_, rfl, rfl⟩

namespace Table

variable {t : Table} {id : MessageId} {row : Row}

theorem not_mem_fetched_of_processed (hrow : t.row? id = some row)
    (hprocessed : row.message.isProcessed) (limit : Nat) (now : Instant) :
    id ∉ (t.fetched limit now).map Message.id := by
  intro hmem
  obtain ⟨m, hm, rfl⟩ := List.mem_map.mp hmem
  obtain ⟨row', hrow', _, hclaimable⟩ := exists_row_of_mem_fetched hm
  obtain rfl := Option.some.inj (hrow.symm.trans hrow')
  exact Row.not_isClaimable_of_processed hprocessed now hclaimable

theorem not_mem_renewed_of_processed (hrow : t.row? id = some row)
    (hprocessed : row.message.isProcessed) (claim : ClaimToken) (ids : List MessageId)
    (now : Instant) (lease : Duration) : id ∉ (t.renew claim ids now lease).1 := by
  intro hmem
  obtain ⟨_, row', hrow', hheld⟩ := mem_renewed.mp hmem
  obtain rfl := Option.some.inj (hrow.symm.trans hrow')
  exact Row.not_isHeldBy_of_processed hprocessed claim hheld

end Table

namespace Run

variable {r : Run} {n : Nat} {id : MessageId} {row : Row}

/-- In step `n` a sweep deletes the row. -/
def Sweeps (r : Run) (n : Nat) (id : MessageId) : Prop :=
  (∃ cutoff, r.Calls n (.deleteProcessed cutoff)) ∧ (r.table (n + 1)).row? id = none

/-- In step `n` a message is added, of an id that the table does not have. -/
def Adds (r : Run) (n : Nat) (id : MessageId) : Prop :=
  (r.table n).row? id = none ∧ ∃ u, r.event n = .commit u ∧ id ∈ u.messages.map Message.id

/-- In one step a processed row stays as it is or is swept. -/
theorem processed_step (hrow : (r.table n).row? id = some row)
    (hprocessed : row.message.isProcessed) :
    (r.table (n + 1)).row? id = some row ∨ r.Sweeps n id := by
  rcases row_step hrow with hsame | ⟨call, hcalls, hchange⟩
  · exact .inl hsame
  · rcases hchange.of_processed hprocessed with hsame | ⟨cutoff, rfl, hgone⟩
    · exact .inl hsame
    · exact .inr ⟨⟨cutoff, hcalls⟩, hgone⟩

/-- In one step an id without a row stays without one or is added. -/
theorem absent_step (hnone : (r.table n).row? id = none) :
    (r.table (n + 1)).row? id = none ∨ r.Adds n id := by
  cases hafter : (r.table (n + 1)).row? id with
  | none => exact .inl rfl
  | some after =>
      rcases row_origin hafter with ⟨before, hbefore⟩ | ⟨m, ⟨u, hevent, _, hmem⟩, rfl, _⟩
      · cases hnone.symm.trans hbefore
      · exact .inr ⟨hnone, u, hevent, List.mem_map_of_mem hmem⟩

/-- Until a message of the id is added anew, what the table has of it is processed. -/
theorem processed_until_added (hrow : (r.table n).row? id = some row)
    (hprocessed : row.message.isProcessed) {j : Nat} (hle : n ≤ j) :
    (∀ row', (r.table j).row? id = some row' → row'.message.isProcessed) ∨
      ∃ k, n ≤ k ∧ k < j ∧ r.Adds k id := by
  induction hle with
  | refl =>
      refine .inl fun row' hrow' => ?_
      obtain rfl := Option.some.inj (hrow.symm.trans hrow')
      exact hprocessed
  | @step j hle ih =>
      rcases ih with hall | ⟨k, hnk, hkj, hadds⟩
      · -- while there is a row it stands or is swept, and while there is none it stays so
        cases hbefore : (r.table j).row? id with
        | some row₀ =>
            refine .inl fun row' hrow' => ?_
            rcases processed_step hbefore (hall row₀ hbefore) with hsame | ⟨_, hgone⟩
            · obtain rfl := Option.some.inj (hsame.symm.trans hrow')
              exact hall _ hbefore
            · cases hgone.symm.trans hrow'
        | none =>
            rcases absent_step hbefore with hnone | hadds
            · exact .inl fun row' hrow' => by cases hnone.symm.trans hrow'
            · exact .inr ⟨j, hle, Nat.lt_succ_self j, hadds⟩
      · exact .inr ⟨k, hnk, Nat.lt_succ_of_lt hkj, hadds⟩

/-- A processed row stays as it is until it is swept. -/
theorem stands_or_swept (hrow : (r.table n).row? id = some row)
    (hprocessed : row.message.isProcessed) {j : Nat} (hle : n ≤ j) :
    (r.table j).row? id = some row ∨
      ∃ k, n ≤ k ∧ k < j ∧ (r.table k).row? id = some row ∧ r.Sweeps k id := by
  induction hle with
  | refl => exact .inl hrow
  | @step j hle ih =>
      rcases ih with hstands | ⟨k, hnk, hkj, hswept⟩
      · rcases processed_step hstands hprocessed with hsame | hsweeps
        · exact .inl hsame
        · exact .inr ⟨j, hle, Nat.lt_succ_self j, hstands, hsweeps⟩
      · exact .inr ⟨k, hnk, Nat.lt_succ_of_lt hkj, hswept⟩

/-- Once a message is processed, its row stays as it is until a sweep deletes it. As long as it is
there no fetch and no renewal, under any claim, returns its id, and no dispatch of it begins unless
it has been swept and added anew: a dispatch begins only with what the renewal just before it
returned. -/
theorem processed_is_final (hrow : (r.table n).row? id = some row)
    (hprocessed : row.message.isProcessed) :
    (∀ j, n ≤ j → (r.table j).row? id = some row ∨
        ∃ k, n ≤ k ∧ k < j ∧ (r.table k).row? id = some row ∧ r.Sweeps k id) ∧
      (∀ j, n ≤ j → (r.table j).row? id = some row →
        (∀ claim limit now lease,
          id ∉ ((r.table j).fetch claim limit now lease).1.map Message.id) ∧
        ∀ claim ids now lease, id ∉ ((r.table j).renew claim ids now lease).1) ∧
      (∀ j, n ≤ j → ∀ claim m, m.id = id → r.Begins j claim m →
        ∃ k, n ≤ k ∧ k < j ∧ r.Adds k id) ∧
      ∀ j claim m, r.Begins j claim m → ∃ ids now lease,
        (r.state j).request? claim = some (.store (.renew claim ids now lease)) ∧
          r.event j = .store claim .served ∧
          m.id ∈ ((r.table j).renew claim ids now lease).1 := by
  refine ⟨fun j hle => stands_or_swept hrow hprocessed hle, fun j _ hstands => ?_, ?_, ?_⟩
  · exact ⟨fun _ limit now _ => Table.not_mem_fetched_of_processed hstands hprocessed limit now,
      Table.not_mem_renewed_of_processed hstands hprocessed⟩
  · rintro j hle claim m rfl hbegins
    obtain ⟨row', hrow', hheld⟩ := held_of_begins hbegins
    rcases processed_until_added hrow hprocessed hle with hall | hadds
    · exact (Row.not_isHeldBy_of_processed (hall row' hrow') claim hheld).elim
    · exact hadds
  · intro j claim m hbegins
    obtain ⟨w, rest, held, report, now, _, hw, hφ, hevent, hmem, _⟩ := renewing_of_begins hbegins
    refine ⟨held, now, w.processor.lease, Fleet.request?_eq_some.mpr ⟨w, hw, ?_⟩, hevent, hmem⟩
    rw [hφ, (Processor.Phase.Asks.renewing m rest held report now).routine_eq]
    rfl

/-- A message is delivered. Then its former holder calls once more, to record a failure, and others
try to fetch the message and to hold it. -/
def delivery : List Event :=
  let claim := ClaimToken.numbered 1
  let other := ClaimToken.numbered 2
  let id := (Message.numbered 1 "order" .epoch).id
  [.begin claim ⟨.immediate, 1, .ofSeconds 5, .ofSeconds 1⟩, .time claim .epoch,
    .store claim .served, .stopFlag claim false, .time claim .epoch, .store claim .served,
    .delivery claim (.ok (.delivered 1)), .time claim .epoch, .store claim .served,
    .outside (.markFailed claim id "late" none),
    .outside (.fetch other 1 .epoch (.ofSeconds 1)),
    .outside (.renew other [id] .epoch (.ofSeconds 1))]

def deliveryRun : Run :=
  ofScript (.single ⟨.numbered 1 "order" .epoch, none⟩) delivery (by decide +kernel)

def deliveredRow : Row := ⟨(Message.numbered 1 "order" .epoch).markProcessed .epoch, none⟩

/-- Neither the late record nor what others try changes the row that was delivered. -/
theorem delivered_is_final :
    (deliveryRun.table 9).row? deliveredRow.id = some deliveredRow ∧
      ∀ j, 9 ≤ j → (deliveryRun.table j).row? deliveredRow.id = some deliveredRow ∨
        ∃ k, 9 ≤ k ∧ k < j ∧ (deliveryRun.table k).row? deliveredRow.id = some deliveredRow ∧
          deliveryRun.Sweeps k deliveredRow.id := by
  have hrow : (deliveryRun.table 9).row? deliveredRow.id = some deliveredRow := by decide +kernel
  exact ⟨hrow, (processed_is_final hrow (by decide)).1⟩

end Run

end Outbox
