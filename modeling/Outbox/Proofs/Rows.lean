import Outbox.Proofs.Instants
import Outbox.Table.UnitOfWork
import Mathlib.Data.List.Nodup

/-! # The row of an id under each operation

A table is looked at through its rows by id. Each operation is one equation on that view: which rows
it changes, which it removes and which it adds. Everything else about rows is derived from these.
-/

namespace Outbox

namespace Row

/-- A row is held by the claim that its lease names, as long as it is open. -/
theorem isHeldBy_iff {r : Row} {claim : ClaimToken} :
    r.isHeldBy claim ↔
      r.message.isProcessed = false ∧ ∃ l, r.lease = some l ∧ l.holder = claim := by
  simp [isHeldBy, Option.any_eq_true]

theorem not_isHeldBy_of_processed {r : Row} (hprocessed : r.message.isProcessed)
    (claim : ClaimToken) : ¬ r.isHeldBy claim := by
  rw [isHeldBy_iff, hprocessed]
  rintro ⟨hopen, _⟩
  cases hopen

/-- A row can be claimed if it is open and due, and if its lease, should it have one, has ended. -/
theorem isClaimable_iff {r : Row} {now : Instant} :
    r.isClaimable now ↔ r.message.isProcessed = false ∧ r.message.scheduledAt ≤ now ∧
      ∀ l ∈ r.lease, l.expires ≤ now := by
  simp [isClaimable, Message.isDue, Option.all_eq_true, and_assoc]

theorem not_isClaimable_of_processed {r : Row} (hprocessed : r.message.isProcessed)
    (now : Instant) : ¬ r.isClaimable now := by
  rw [isClaimable_iff, hprocessed]
  rintro ⟨hopen, _⟩
  cases hopen

theorem holder_unique {r : Row} {a b : ClaimToken} (ha : r.isHeldBy a) (hb : r.isHeldBy b) :
    a = b := by
  obtain ⟨_, l, hl, rfl⟩ := isHeldBy_iff.mp ha
  obtain ⟨_, l', hl', rfl⟩ := isHeldBy_iff.mp hb
  rw [Option.some.inj (hl.symm.trans hl')]

end Row

namespace Table

theorem row?_eq_some {t : Table} {id : MessageId} {r : Row} :
    t.row? id = some r ↔ r ∈ t.rows ∧ r.id = id := by
  constructor
  · intro hrow
    exact ⟨List.mem_of_find?_eq_some hrow, by simpa using List.find?_some hrow⟩
  · rintro ⟨hmem, rfl⟩
    cases hfind : t.row? r.id with
    | none =>
        have hnone := List.find?_eq_none.mp hfind r hmem
        simp at hnone
    | some other =>
        -- ids are distinct, so what is found is the row itself
        have hother := List.mem_of_find?_eq_some hfind
        have hsame : other.id = r.id := by simpa using List.find?_some hfind
        rw [List.inj_on_of_nodup_map t.distinctIds hother hmem hsame]

theorem row?_eq_none {t : Table} {id : MessageId} :
    t.row? id = none ↔ id ∉ t.rows.map Row.id := by
  simp [row?, List.find?_eq_none]

theorem row?_id {t : Table} {id : MessageId} {r : Row} (hrow : t.row? id = some r) : r.id = id :=
  (row?_eq_some.mp hrow).2

theorem row?_mapRowsWhere (t : Table) (p : Row → Bool) (f : Row → Row)
    (keepsId : ∀ r, (f r).id = r.id) (id : MessageId) :
    (t.mapRowsWhere p f keepsId).row? id = (t.row? id).map fun r => if p r then f r else r := by
  have hkeeps : ∀ r, (if p r then f r else r).id = r.id := by
    intro r
    cases p r <;> simp [keepsId]
  simp only [row?, mapRowsWhere, mapRows, List.find?_map, Function.comp_def, hkeeps]

theorem row?_filterRows (t : Table) (p : Row → Bool) (id : MessageId) :
    (t.filterRows p).row? id = (t.row? id).filter p := by
  ext r
  rw [Option.filter_eq_some_iff, row?_eq_some, row?_eq_some]
  simp only [filterRows, List.mem_filter]
  tauto

/-- The messages that a fetch returns. -/
def fetched (t : Table) (limit : Nat) (now : Instant) : List Message :=
  (t.claimable now).take limit

/-- The claimable messages are those whose rows can be claimed. -/
theorem mem_claimable {t : Table} {now : Instant} {m : Message} :
    m ∈ t.claimable now ↔ ∃ r, t.row? m.id = some r ∧ r.message = m ∧ r.isClaimable now := by
  simp only [claimable, List.mem_mergeSort, List.mem_map, List.mem_filter, row?_eq_some]
  constructor
  · rintro ⟨r, ⟨hmem, hclaimable⟩, rfl⟩
    exact ⟨r, ⟨hmem, rfl⟩, rfl, hclaimable⟩
  · rintro ⟨r, ⟨hmem, _⟩, rfl, hclaimable⟩
    exact ⟨r, ⟨hmem, hclaimable⟩, rfl⟩

theorem mem_claimable_of_unclaimed {t : Table} {now : Instant} {m : Message}
    (hrow : t.row? m.id = some ⟨m, none⟩) (hopen : m.isProcessed = false)
    (hdue : m.scheduledAt ≤ now) : m ∈ t.claimable now :=
  mem_claimable.mpr ⟨_, hrow, rfl, Row.isClaimable_iff.mpr ⟨hopen, hdue, fun _ hl => by cases hl⟩⟩

/-- What a fetch returns is the message of a row that can be claimed. -/
theorem exists_row_of_mem_fetched {t : Table} {limit : Nat} {now : Instant} {m : Message}
    (hmem : m ∈ t.fetched limit now) :
    ∃ r, t.row? m.id = some r ∧ r.message = m ∧ r.isClaimable now :=
  mem_claimable.mp (List.mem_of_mem_take hmem)

/-- The ids of the unprocessed messages. -/
def openIds (t : Table) : List MessageId :=
  (t.rows.filter fun r => !r.message.isProcessed).map Row.id

theorem mem_openIds {t : Table} {id : MessageId} :
    id ∈ t.openIds ↔ ∃ row, t.row? id = some row ∧ row.message.isProcessed = false := by
  simp only [openIds, List.mem_map, List.mem_filter, row?_eq_some, Bool.not_eq_true']
  constructor
  · rintro ⟨row, ⟨hmem, hopen⟩, hid⟩
    exact ⟨row, ⟨hmem, hid⟩, hopen⟩
  · rintro ⟨row, ⟨hmem, hid⟩, hopen⟩
    exact ⟨row, ⟨hmem, hopen⟩, hid⟩

theorem openIds_nodup (t : Table) : t.openIds.Nodup :=
  t.distinctIds.sublist (List.filter_sublist.map Row.id)

/-- A fetch claims the rows of the messages it returns, and no others. -/
theorem row?_fetch (t : Table) (claim : ClaimToken) (limit : Nat) (now : Instant)
    (lease : Duration) (id : MessageId) :
    (t.fetch claim limit now lease).2.row? id = (t.row? id).map fun r =>
      if id ∈ (t.fetched limit now).map Message.id then r.claimFor claim (now.plusOrSelf lease)
      else r := by
  refine (row?_mapRowsWhere t _ (fun r => r.claimFor claim (now.plusOrSelf lease))
    (fun _ => rfl) id).trans ?_
  cases hrow : t.row? id with
  | none => rfl
  | some r =>
      have hid := row?_id hrow
      simp [hid, fetched, -List.map_take]

/-- A renewal moves the end of the lease for what its claim holds among the ids. -/
theorem row?_renew (t : Table) (claim : ClaimToken) (ids : List MessageId) (now : Instant)
    (lease : Duration) (id : MessageId) :
    (t.renew claim ids now lease).2.row? id = (t.row? id).map fun r =>
      if id ∈ ids ∧ r.isHeldBy claim then r.extend (now.plusOrSelf lease) else r := by
  refine (row?_mapRowsWhere t _ (fun r => r.extend (now.plusOrSelf lease))
    (fun _ => rfl) id).trans ?_
  cases hrow : t.row? id with
  | none => rfl
  | some r =>
      have hid := row?_id hrow
      simp [hid]

theorem mem_renewed {t : Table} {claim : ClaimToken} {ids : List MessageId} {now : Instant}
    {lease : Duration} {id : MessageId} :
    id ∈ (t.renew claim ids now lease).1 ↔
      id ∈ ids ∧ ∃ r, t.row? id = some r ∧ r.isHeldBy claim := by
  simp [renew, Option.any_eq_true]

/-- What a renewal returns is held from then on for the length of the lease. -/
theorem row?_renew_of_mem {t : Table} {claim : ClaimToken} {ids : List MessageId} {now : Instant}
    {lease : Duration} {id : MessageId} (hmem : id ∈ (t.renew claim ids now lease).1) :
    ∃ m, m.isProcessed = false ∧ (t.renew claim ids now lease).2.row? id =
      some ⟨m, some ⟨claim, now.plusOrSelf lease⟩⟩ := by
  obtain ⟨hids, ⟨m, l⟩, hrow, hheld⟩ := mem_renewed.mp hmem
  have hextends := row?_renew t claim ids now lease id
  rw [hrow, Option.map_some, if_pos ⟨hids, hheld⟩] at hextends
  obtain ⟨hopen, ⟨holder, expires⟩, rfl, rfl⟩ := Row.isHeldBy_iff.mp hheld
  exact ⟨m, hopen, hextends⟩

theorem row?_release (t : Table) (claim : ClaimToken) (ids : List MessageId) (id : MessageId) :
    (t.release claim ids).row? id = (t.row? id).map fun r =>
      if id ∈ ids ∧ r.isHeldBy claim then r.unclaim else r := by
  refine (row?_mapRowsWhere t _ Row.unclaim (fun _ => rfl) id).trans ?_
  cases hrow : t.row? id with
  | none => rfl
  | some r =>
      have hid := row?_id hrow
      simp [hid]

/-- A mark takes effect only if the claim holds the row. -/
theorem mark_snd (t : Table) (claim : ClaimToken) (marked : MessageId)
    (record : Message → Message) (keepsId : ∀ m, (record m).id = m.id) :
    (t.mark claim marked record keepsId).2 =
      if (t.row? marked).any (·.isHeldBy claim) then
        t.mapRowsWhere (fun r => r.id == marked) (fun r => ⟨record r.message, none⟩)
          fun r => keepsId r.message
      else t := by
  unfold mark
  cases t.row? marked with
  | none => simp
  | some row =>
      by_cases hprocessed : row.message.isProcessed
      · simp [hprocessed, Row.isHeldBy]
      · by_cases hheld : row.isHeldBy claim <;> simp [hprocessed, hheld]

/-- A mark records the outcome in the row, and drops the lease, if its claim holds the row. -/
theorem row?_mark (t : Table) (claim : ClaimToken) (marked : MessageId)
    (record : Message → Message) (keepsId : ∀ m, (record m).id = m.id) (id : MessageId) :
    (t.mark claim marked record keepsId).2.row? id = (t.row? id).map fun r =>
      if id = marked ∧ r.isHeldBy claim then ⟨record r.message, none⟩ else r := by
  rw [mark_snd]
  split
  next hheld =>
    refine (row?_mapRowsWhere t (fun r => r.id == marked) (fun r => ⟨record r.message, none⟩)
      (fun r => keepsId r.message) id).trans ?_
    cases hrow : t.row? id with
    | none => rfl
    | some r =>
        by_cases heq : id = marked
        · subst heq
          rw [hrow, Option.any_some] at hheld
          simp [row?_id hrow, hheld]
        · simp [row?_id hrow, heq]
  next hfree =>
    cases hrow : t.row? id with
    | none => rfl
    | some r =>
        have hnot : ¬ (id = marked ∧ r.isHeldBy claim) := by
          rintro ⟨rfl, hheld⟩
          rw [hrow, Option.any_some] at hfree
          exact hfree hheld
        simp [hnot]

/-- A sweep keeps a row that is open, or was processed at the cutoff or later. -/
theorem row?_deleteProcessed (t : Table) (cutoff : Instant) (id : MessageId) :
    (t.deleteProcessed cutoff).2.row? id =
      (t.row? id).filter fun r => r.message.processedAt.all fun time => cutoff ≤ time :=
  row?_filterRows t _ id

end Table

/-- How a row fares in one call of the store, and what entitles the call to change it. -/
inductive Row.Change (r : Row) : StoreCall → Option Row → Prop
  | kept (call : StoreCall) : Change r call (some r)
  | claimed {claim : ClaimToken} {limit : Nat} {now : Instant} {lease : Duration}
      (hclaimable : r.isClaimable now) :
      Change r (.fetch claim limit now lease) (some (r.claimFor claim (now.plusOrSelf lease)))
  | extended {claim : ClaimToken} {ids : List MessageId} {now : Instant} {lease : Duration}
      (hmem : r.id ∈ ids) (hheld : r.isHeldBy claim) :
      Change r (.renew claim ids now lease) (some (r.extend (now.plusOrSelf lease)))
  | processed {claim : ClaimToken} {time : Instant} (hheld : r.isHeldBy claim) :
      Change r (.markProcessed claim r.id time) (some ⟨r.message.markProcessed time, none⟩)
  | failed {claim : ClaimToken} {error : String} {nextRun : Option Instant}
      (hheld : r.isHeldBy claim) :
      Change r (.markFailed claim r.id error nextRun)
        (some ⟨r.message.markFailed error nextRun, none⟩)
  | released {claim : ClaimToken} {ids : List MessageId} (hmem : r.id ∈ ids)
      (hheld : r.isHeldBy claim) : Change r (.release claim ids) (some r.unclaim)
  | deleted {cutoff time : Instant} (hprocessed : r.message.processedAt = some time)
      (hlt : time < cutoff) : Change r (.deleteProcessed cutoff) none

/-- Only a sweep deletes a row, and only one that is processed. -/
theorem Row.Change.deletes {row : Row} {call : StoreCall} (hchange : row.Change call none) :
    row.message.isProcessed ∧ ∃ cutoff, call = .deleteProcessed cutoff := by
  generalize hafter : (none : Option Row) = result at hchange
  cases hchange with
  | deleted hprocessed => exact ⟨by simp [Message.isProcessed, hprocessed], _, rfl⟩
  | _ => cases hafter

namespace Table

/-- Every call of the store changes a row in one of these ways. -/
theorem change_of_answer {t : Table} {id : MessageId} {r : Row} (hrow : t.row? id = some r)
    (call : StoreCall) : r.Change call ((t.answer call).2.row? id) := by
  obtain rfl := row?_id hrow
  cases call with
  | fetch claim limit now lease =>
      change r.Change _ ((t.fetch claim limit now lease).2.row? r.id)
      rw [row?_fetch, hrow, Option.map_some]
      split
      next hmem =>
        obtain ⟨m, hm, hid⟩ := List.mem_map.mp hmem
        obtain ⟨row, hrow', _, hclaimable⟩ := exists_row_of_mem_fetched hm
        rw [hid, hrow] at hrow'
        exact .claimed (Option.some.inj hrow' ▸ hclaimable)
      next => exact .kept _
  | renew claim ids now lease =>
      change r.Change _ ((t.renew claim ids now lease).2.row? r.id)
      rw [row?_renew, hrow, Option.map_some]
      split
      next h => exact .extended h.1 h.2
      next => exact .kept _
  | markProcessed claim marked time =>
      change r.Change _ ((t.mark claim marked _ _).2.row? r.id)
      rw [row?_mark, hrow, Option.map_some]
      split
      next h => exact h.1 ▸ .processed h.2
      next => exact .kept _
  | markFailed claim marked error nextRun =>
      change r.Change _ ((t.mark claim marked _ _).2.row? r.id)
      rw [row?_mark, hrow, Option.map_some]
      split
      next h => exact h.1 ▸ .failed h.2
      next => exact .kept _
  | release claim ids =>
      change r.Change _ ((t.release claim ids).row? r.id)
      rw [row?_release, hrow, Option.map_some]
      split
      next h => exact .released h.1 h.2
      next => exact .kept _
  | deleteProcessed cutoff =>
      change r.Change _ ((t.deleteProcessed cutoff).2.row? r.id)
      rw [row?_deleteProcessed, hrow]
      cases hprocessed : r.message.processedAt with
      | none => simpa [Option.filter, hprocessed] using Row.Change.kept _
      | some time =>
          by_cases hle : cutoff ≤ time
          · simpa [Option.filter, hprocessed, hle] using Row.Change.kept _
          · simpa [Option.filter, hprocessed, hle] using
              Row.Change.deleted hprocessed (Instant.not_le.mp hle)
  | get id => exact hrow ▸ .kept _
  | failing minRetryCount limit => exact hrow ▸ .kept _
  | counts => exact hrow ▸ .kept _

/-- No call of the store adds a row. -/
theorem row?_answer_eq_none {t : Table} {id : MessageId} (hnone : t.row? id = none)
    (call : StoreCall) : (t.answer call).2.row? id = none := by
  cases call with
  | fetch claim limit now lease =>
      change (t.fetch claim limit now lease).2.row? id = none
      rw [row?_fetch, hnone, Option.map_none]
  | renew claim ids now lease =>
      change (t.renew claim ids now lease).2.row? id = none
      rw [row?_renew, hnone, Option.map_none]
  | markProcessed claim marked time =>
      change (t.mark claim marked _ _).2.row? id = none
      rw [row?_mark, hnone, Option.map_none]
  | markFailed claim marked error nextRun =>
      change (t.mark claim marked _ _).2.row? id = none
      rw [row?_mark, hnone, Option.map_none]
  | release claim ids =>
      change (t.release claim ids).row? id = none
      rw [row?_release, hnone, Option.map_none]
  | deleteProcessed cutoff =>
      change (t.deleteProcessed cutoff).2.row? id = none
      rw [row?_deleteProcessed, hnone, Option.filter_none]
  | get id => exact hnone
  | failing minRetryCount limit => exact hnone
  | counts => exact hnone

/-- A claim comes to hold a row only by a fetch that returns its message. -/
theorem fetch_of_gain {t : Table} {call : StoreCall} {id : MessageId} {claim : ClaimToken}
    {row : Row} (hnot : ∀ r, t.row? id = some r → ¬ r.isHeldBy claim)
    (hrow : (t.answer call).2.row? id = some row) (hheld : row.isHeldBy claim) :
    ∃ limit now lease, call = .fetch claim limit now lease ∧
      id ∈ (t.fetched limit now).map Message.id := by
  cases hbefore : t.row? id with
  | none =>
      rw [row?_answer_eq_none hbefore] at hrow
      cases hrow
  | some r =>
      have hfree := hnot r hbefore
      have hchange := change_of_answer hbefore call
      rw [hrow] at hchange
      generalize hafter : some row = after at hchange
      cases hchange with
      | kept => cases hafter; exact (hfree hheld).elim
      | @claimed c limit now lease _ =>
          cases hafter
          obtain rfl : c = claim := by
            simpa [Row.isHeldBy, Row.claimFor] using (Bool.and_eq_true_iff.mp hheld).2
          refine ⟨limit, now, lease, rfl, ?_⟩
          -- otherwise the fetch would have left the row as it was
          by_contra hmissing
          change (t.fetch c limit now lease).2.row? id = _ at hrow
          rw [row?_fetch, hbefore, Option.map_some, if_neg hmissing] at hrow
          exact hfree (Option.some.inj hrow ▸ hheld)
      | extended _ hbefore' =>
          cases hafter
          exact (hfree (by simpa [Row.isHeldBy, Row.extend, Option.any_map, Function.comp_def]
            using hheld)).elim
      | processed => cases hafter; simp [Row.isHeldBy] at hheld
      | failed => cases hafter; simp [Row.isHeldBy] at hheld
      | released => cases hafter; simp [Row.isHeldBy, Row.unclaim] at hheld
      | deleted => cases hafter

/-- A commit adds rows and leaves those that are there as they are. -/
theorem row?_commit {u : UnitOfWork} {t t' : Table} (hcommit : u.commit t = .ok t')
    (id : MessageId) :
    t'.row? id =
      (t.row? id).or ((u.messages.find? fun m => m.id == id).map fun m => ⟨m, none⟩) := by
  unfold UnitOfWork.commit at hcommit
  split at hcommit
  · cases hcommit
  · cases hcommit
    simp only [row?, List.find?_append, List.find?_map]
    rfl

/-- What a unit of work adds was not there, and is claimed by nobody. -/
theorem row?_commit_of_mem {u : UnitOfWork} {t t' : Table} (hcommit : u.commit t = .ok t')
    {m : Message} (hmem : m ∈ u.messages) :
    t.row? m.id = none ∧ t'.row? m.id = some ⟨m, none⟩ := by
  have hnone : t.row? m.id = none := by
    unfold UnitOfWork.commit at hcommit
    split at hcommit
    next => cases hcommit
    next hfree => simpa [row?_eq_none] using List.find?_eq_none.mp hfree m hmem
  refine ⟨hnone, ?_⟩
  rw [row?_commit hcommit, hnone, Option.none_or]
  cases hfind : u.messages.find? fun staged => staged.id == m.id with
  | none => simpa using List.find?_eq_none.mp hfind m hmem
  | some staged =>
      -- staged ids are distinct, so what is found is the message itself
      have hsame : staged.id = m.id := by simpa using List.find?_some hfind
      rw [List.inj_on_of_nodup_map u.distinctIds (List.mem_of_find?_eq_some hfind) hmem hsame]
      rfl

/-- A commit leaves the rows as they are that were there before. -/
theorem row?_commit_of_some {u : UnitOfWork} {t t' : Table} (hcommit : u.commit t = .ok t')
    {id : MessageId} {r : Row} (hrow : t.row? id = some r) : t'.row? id = some r := by
  rw [row?_commit hcommit, hrow, Option.some_or]

end Table

end Outbox
