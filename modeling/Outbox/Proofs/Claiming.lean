import Outbox.Proofs.Schedule

/-! # What a fetch claims

The rows that can be claimed form a queue in the order of delivery, and a fetch takes the head of
it. What it returns are the messages as they stand in the table, and the rows of these are all that
it changes: they are under one lease then, and nothing else about them is different.
-/

namespace Outbox

/-- The message is delivered before the other one: for its schedule, among those of one schedule for
its creation, and then for its id. -/
def Message.DeliveredBefore (a b : Message) : Prop :=
  a.scheduledAt < b.scheduledAt ∨ a.scheduledAt = b.scheduledAt ∧
    (a.createdAt < b.createdAt ∨ a.createdAt = b.createdAt ∧ a.id < b.id)

theorem Message.deliveredBefore_of_ne {a b : Message} (hbefore : a.scheduledBefore b)
    (hne : a.id ≠ b.id) : a.DeliveredBefore b := by
  have hnot : ¬ b.scheduledBefore a := fun hafter => hne (scheduledBefore_antisymm hbefore hafter)
  rw [scheduledBefore_iff] at hbefore hnot
  rw [DeliveredBefore, Instant.lt_iff, Instant.lt_iff, ← Instant.rank_inj, ← Instant.rank_inj]
  change _ ∨ _ ∧ (_ ∨ _ ∧ a.id.ulid.value < b.id.ulid.value)
  omega

namespace Table

variable {t : Table} {limit : Nat} {now : Instant}

theorem length_fetched (t : Table) (limit : Nat) (now : Instant) :
    (t.fetched limit now).length = min limit (t.rows.countP (·.isClaimable now)) := by
  rw [fetched, List.length_take, claimable, List.length_mergeSort, List.length_map,
    List.countP_eq_length_filter]

/-- What is fetched stands in a strict order, in which nothing is before itself. -/
theorem fetched_pairwise (t : Table) (limit : Nat) (now : Instant) :
    (t.fetched limit now).Pairwise Message.DeliveredBefore := by
  have hsorted : (t.fetched limit now).Pairwise fun a b => a.scheduledBefore b :=
    (t.claimable_pairwise now).sublist (List.take_sublist limit _)
  have hdistinct : (t.fetched limit now).Pairwise fun a b => a.id ≠ b.id :=
    List.pairwise_map.mp (t.fetched_nodup limit now)
  exact (hsorted.and hdistinct).imp fun ⟨hbefore, hne⟩ => Message.deliveredBefore_of_ne hbefore hne

/-- What a fetch leaves behind comes after all that it returns. -/
theorem deliveredBefore_of_not_mem_fetched {r : Row} (hrow : r ∈ t.rows)
    (hclaimable : r.isClaimable now) (hnot : r.message ∉ t.fetched limit now) {m : Message}
    (hmem : m ∈ t.fetched limit now) : m.DeliveredBefore r.message := by
  have hqueued : r.message ∈ t.claimable now :=
    mem_claimable.mpr ⟨r, row?_eq_some.mpr ⟨hrow, rfl⟩, rfl, hclaimable⟩
  apply Message.deliveredBefore_of_ne ((full_of_not_mem_fetched hqueued hnot).2 m hmem)
  intro hid
  -- with the id of a row that is left out, what is fetched would be the message of that row
  obtain ⟨r', hrow', rfl, _⟩ := exists_row_of_mem_fetched hmem
  have hsame := row?_eq_some.mpr ⟨hrow, rfl⟩
  rw [show r.id = r'.message.id from hid.symm, hrow'] at hsame
  exact hnot (Option.some.inj hsame ▸ hmem)

theorem any_id_fetched {r : Row} (hrow : r ∈ t.rows) :
    ((t.fetched limit now).any fun m => m.id == r.id) ↔ r.message ∈ t.fetched limit now := by
  rw [List.any_eq_true]
  constructor
  · rintro ⟨m, hmem, hid⟩
    obtain ⟨r', hrow', rfl, _⟩ := exists_row_of_mem_fetched hmem
    have hsame := row?_eq_some.mpr ⟨hrow, rfl⟩
    rw [← beq_iff_eq.mp hid, hrow'] at hsame
    exact Option.some.inj hsame ▸ hmem
  · exact fun hmem => ⟨r.message, hmem, beq_self_eq_true r.id⟩

/-- The rows of the messages that are fetched come under one lease, and stay where they are. -/
theorem rows_fetch (t : Table) (claim : ClaimToken) (limit : Nat) (now : Instant)
    (lease : Duration) :
    (t.fetch claim limit now lease).2.rows = t.rows.map fun r =>
      if r.message ∈ t.fetched limit now then
        ⟨r.message, some ⟨claim, now.plusOrSelf lease⟩⟩ else r :=
  List.map_congr_left fun _ hrow => if_congr (any_id_fetched hrow) rfl rfl

/-- A fetch always succeeds. It returns as many messages as there is room for and can be claimed,
the first of these in the order of delivery, each once and as it stands in the table. A row can be
claimed if its message is not processed, its schedule has come, and no lease on it goes on. All
rows of what is returned get the same lease. All else in the table stays as it was. -/
theorem fetch_claims_head (t : Table) (claim : ClaimToken) (limit : Nat) (now : Instant)
    (lease : Duration) :
    (∀ r : Row, r.isClaimable now ↔ r.message.processedAt = none ∧ r.message.scheduledAt ≤ now ∧
      ∀ ends ∈ r.lockedUntil, ends ≤ now) ∧
    ∃ batch after, t.answer (.fetch claim limit now lease) = (.ok batch, after) ∧
      batch.length = min limit (t.rows.countP (·.isClaimable now)) ∧
      batch.Pairwise Message.DeliveredBefore ∧
      (batch.map Message.id).Nodup ∧
      (∀ m ∈ batch, ∃ r ∈ t.rows, r.message = m ∧ r.isClaimable now) ∧
      (∀ r ∈ t.rows, r.isClaimable now → r.message ∉ batch →
        ∀ m ∈ batch, m.DeliveredBefore r.message) ∧
      after.rows = t.rows.map (fun r =>
        if r.message ∈ batch then ⟨r.message, some ⟨claim, now.plusOrSelf lease⟩⟩ else r) ∧
      after.entities = t.entities := by
  refine ⟨fun r => ?_, t.fetched limit now, (t.fetch claim limit now lease).2, rfl,
    t.length_fetched limit now, t.fetched_pairwise limit now, t.fetched_nodup limit now,
    fun m hmem => ?_, fun r hrow hclaimable hnot m hmem => ?_,
    t.rows_fetch claim limit now lease, rfl⟩
  · rw [Row.isClaimable_iff]
    simp [Message.isProcessed, Row.lockedUntil]
  · obtain ⟨r, hrow, hmessage, hclaimable⟩ := exists_row_of_mem_fetched hmem
    exact ⟨r, (row?_eq_some.mp hrow).1, hmessage, hclaimable⟩
  · exact deliveredBefore_of_not_mem_fetched hrow hclaimable hnot hmem

end Table

end Outbox
