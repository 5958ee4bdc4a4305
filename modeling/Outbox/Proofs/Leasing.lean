import Outbox.Config
import Outbox.Proofs.Claiming
import Outbox.Proofs.Reach
import Outbox.Proofs.Scripts

/-! # How long a lease keeps others out

A lease is as long as it is asked for, provided there is an instant at which it ends. Otherwise it
ends as it begins: a fetch then finds the rows as if nobody had claimed them, and the longest lease
keeps out less than the shortest.
-/

namespace Outbox

/-- The lease on the row goes on at this time. -/
def Row.isLocked (r : Row) (time : Instant) : Bool := r.lockedUntil.any fun ends => time < ends

/-- A row can be claimed if its message is due and no lease locks it. -/
theorem Row.isClaimable_iff_unlocked {r : Row} {time : Instant} :
    r.isClaimable time ↔ r.message.isDue time ∧ r.isLocked time = false := by
  rw [isClaimable, isLocked, lockedUntil, Bool.and_eq_true]
  cases r.lease with
  | none => simp
  | some lease => simp [Instant.not_lt]

theorem Row.isLocked_of_lockedUntil {r : Row} {ends : Instant} (hends : r.lockedUntil = some ends)
    (time : Instant) : r.isLocked time ↔ time < ends := by
  simp [isLocked, hends]

namespace Table

variable {t before after : Table} {claim : ClaimToken} {limit : Nat} {now ends : Instant}
  {lease : Duration} {ids : List MessageId}

/-- The row of this id is there, and the lease on it goes on. -/
def isLocked (t : Table) (id : MessageId) (time : Instant) : Bool :=
  (t.row? id).any (·.isLocked time)

/-- Whatever row is locked in the other table, and whenever, is locked in this one as well. -/
def LocksAllOf (t other : Table) : Prop :=
  ∀ id time, other.isLocked id time → t.isLocked id time

/-- The rows of these ids come under a lease until the same time, and the others are not touched. -/
structure Leases (before : Table) (ids : List MessageId) (ends : Instant) (after : Table) :
    Prop where
  leased : ∀ id ∈ ids, ∃ row, after.row? id = some row ∧ row.lockedUntil = some ends
  others : ∀ id, id ∉ ids → after.row? id = before.row? id

/-- A fetch gives a lease on all that it returns. -/
theorem leases_fetch (t : Table) (claim : ClaimToken) (limit : Nat) (now : Instant)
    (lease : Duration) :
    t.Leases ((t.fetched limit now).map Message.id) (now.plusOrSelf lease)
      (t.fetch claim limit now lease).2 where
  leased id hmem := by
    obtain ⟨m, hm, rfl⟩ := List.mem_map.mp hmem
    obtain ⟨row, hrow, _⟩ := exists_row_of_mem_fetched hm
    refine ⟨row.claimFor claim (now.plusOrSelf lease), ?_, rfl⟩
    rw [row?_fetch, hrow, Option.map_some, if_pos hmem]
  others id hnot := by
    rw [row?_fetch]
    simp only [hnot, if_false, Option.map_id']

/-- A renewal moves the end of the leases on all that it returns. -/
theorem leases_renew (t : Table) (claim : ClaimToken) (ids : List MessageId) (now : Instant)
    (lease : Duration) :
    t.Leases (t.renew claim ids now lease).1 (now.plusOrSelf lease)
      (t.renew claim ids now lease).2 where
  leased id hmem := by
    obtain ⟨m, _, hrow⟩ := row?_renew_of_mem hmem
    exact ⟨_, hrow, rfl⟩
  others id hnot := by
    rw [row?_renew]
    cases hrow : t.row? id with
    | none => rfl
    | some row =>
        rw [Option.map_some, if_neg]
        rintro ⟨hmem, hheld⟩
        exact hnot (mem_renewed.mpr ⟨hmem, row, hrow, hheld⟩)

/-- What has been leased is locked until the end of the lease. -/
theorem Leases.isLocked_iff (hleases : before.Leases ids ends after) {id : MessageId}
    (hmem : id ∈ ids) (time : Instant) : after.isLocked id time ↔ time < ends := by
  obtain ⟨row, hrow, hends⟩ := hleases.leased id hmem
  rw [isLocked, hrow, Option.any_some, Row.isLocked_of_lockedUntil hends]

/-- Of two leases on the same rows the one that ends later locks them whenever the other does. -/
theorem Leases.locksAllOf_iff {ends' : Instant} {after' : Table}
    (hleases : before.Leases ids ends after) (hleases' : before.Leases ids ends' after') :
    after'.LocksAllOf after ↔ ids = [] ∨ ends ≤ ends' := by
  constructor
  · intro hlocks
    by_contra hnot
    rw [not_or] at hnot
    obtain ⟨id, hmem⟩ := List.exists_mem_of_ne_nil ids hnot.1
    have hlocked := (hleases.isLocked_iff hmem ends').mpr (Instant.not_le.mp hnot.2)
    exact Int.lt_irrefl _ ((hleases'.isLocked_iff hmem ends').mp (hlocks id ends' hlocked))
  · intro hends id time hlocked
    by_cases hmem : id ∈ ids
    · have hle : ends ≤ ends' := hends.resolve_left fun hnil => by simp [hnil] at hmem
      rw [hleases.isLocked_iff hmem] at hlocked
      rw [hleases'.isLocked_iff hmem]
      exact Int.lt_of_lt_of_le hlocked hle
    · rw [isLocked, hleases.others id hmem] at hlocked
      rwa [isLocked, hleases'.others id hmem]

theorem not_mem_fetched_of_isLocked {id : MessageId} (hlocked : t.isLocked id now) (limit : Nat) :
    id ∉ (t.fetched limit now).map Message.id := by
  intro hmem
  obtain ⟨m, hm, rfl⟩ := List.mem_map.mp hmem
  obtain ⟨row, hrow, _, hclaimable⟩ := exists_row_of_mem_fetched hm
  rw [isLocked, hrow, Option.any_some, (Row.isClaimable_iff_unlocked.mp hclaimable).2] at hlocked
  cases hlocked

/-- Where leases end as they begin, a fetch leaves the queue as it found it. -/
theorem claimable_fetch_of_not_reaches (t : Table) (claim : ClaimToken) (limit : Nat)
    (hnot : ¬ now.Reaches lease) :
    (t.fetch claim limit now lease).2.claimable now = t.claimable now := by
  let claimed (r : Row) : Row :=
    if r.message ∈ t.fetched limit now then ⟨r.message, some ⟨claim, now.plusOrSelf lease⟩⟩ else r
  have hmessage (r : Row) : (claimed r).message = r.message := by
    unfold claimed
    split <;> rfl
  have hclaimable : ∀ r ∈ t.rows, (claimed r).isClaimable now = r.isClaimable now := by
    intro r hr
    unfold claimed
    split
    next hmem =>
      obtain ⟨row, hrow, _, hfree⟩ := exists_row_of_mem_fetched hmem
      have hsame : row = r := Option.some.inj (hrow.symm.trans (row?_eq_some.mpr ⟨hr, rfl⟩))
      rw [hsame] at hfree
      rw [hfree, Row.isClaimable_iff, Instant.plusOrSelf_of_not_reaches hnot]
      refine ⟨(Row.isClaimable_iff.mp hfree).1, (Row.isClaimable_iff.mp hfree).2.1, ?_⟩
      rintro l ⟨⟩
      exact Instant.le_refl now
    next => rfl
  have hrows : (t.fetch claim limit now lease).2.rows = t.rows.map claimed :=
    t.rows_fetch claim limit now lease
  have hfilter : (t.rows.map claimed).filter (·.isClaimable now) =
      (t.rows.filter (·.isClaimable now)).map claimed := by
    rw [List.filter_map]
    exact congrArg _ (List.filter_congr hclaimable)
  rw [claimable, claimable, hrows, hfilter, List.map_map]
  exact congrArg (·.mergeSort Message.scheduledBefore) (List.map_congr_left fun r _ => hmessage r)

end Table

theorem ClaimToken.exists_ne (claim : ClaimToken) : ∃ other, other ≠ claim := by
  by_cases hfirst : claim = .numbered 1
  · exact ⟨.numbered 2, by rw [hfirst]; decide⟩
  · exact ⟨.numbered 1, fun heq => hfirst heq.symm⟩

namespace Table

/-- Let a lease have any length at all. At the time of the fetch that gave it, no other claim is
given a row of the batch, just if there is an instant at which the lease ends or the batch is empty.
If there is none, whoever fetches at that time gets what he would have got without it. A longer
lease locks all that a shorter one does, and as long, whether it is given by a fetch or prolonged by
a renewal, just if there are no rows to lock, or the longer one has an end or the shorter has none
either. -/
theorem leases_of_any_length_exclude (t : Table) (claim : ClaimToken) (limit : Nat) (now : Instant)
    {lease : Duration} (hpositive : Duration.zero < lease) :
    ∃ batch after, t.answer (.fetch claim limit now lease) = (.ok batch, after) ∧
      ((∀ other, other ≠ claim → ∀ limit' lease', ∀ m ∈ (after.fetch other limit' now lease').1,
          m.id ∉ batch.map Message.id) ↔ batch = [] ∨ now.Reaches lease) ∧
      (¬ now.Reaches lease → ∀ other limit' lease',
        (after.fetch other limit' now lease').1 = (t.fetch other limit' now lease').1) ∧
      ∀ longer, lease ≤ longer →
        ((t.fetch claim limit now longer).2.LocksAllOf after ↔
          batch = [] ∨ now.Reaches longer ∨ ¬ now.Reaches lease) ∧
        ∀ ids, (t.renew claim ids now longer).2.LocksAllOf (t.renew claim ids now lease).2 ↔
          (t.renew claim ids now lease).1 = [] ∨ now.Reaches longer ∨ ¬ now.Reaches lease := by
  have hfree (hnot : ¬ now.Reaches lease) (limit' : Nat) :
      (t.fetch claim limit now lease).2.fetched limit' now = t.fetched limit' now :=
    congrArg (List.take limit') (claimable_fetch_of_not_reaches t claim limit hnot)
  have hleases := t.leases_fetch claim limit now lease
  refine ⟨t.fetched limit now, (t.fetch claim limit now lease).2, rfl, ⟨?_, ?_⟩,
    fun hnot other limit' lease' => hfree hnot limit', fun longer hlonger => ⟨?_, fun ids => ?_⟩⟩
  · intro hexcludes
    by_contra hnot
    rw [not_or] at hnot
    obtain ⟨m, hm⟩ := List.exists_mem_of_ne_nil _ hnot.1
    obtain ⟨other, hother⟩ := claim.exists_ne
    refine hexcludes other hother limit lease m ?_ (List.mem_map_of_mem hm)
    change m ∈ (t.fetch claim limit now lease).2.fetched limit now
    rwa [hfree hnot.2]
  · rintro (hnil | hreaches) other _ limit' lease' m hm hmem
    · rw [hnil] at hmem
      cases hmem
    · have hlocked := (hleases.isLocked_iff hmem now).mpr
        ((Instant.lt_plusOrSelf_iff hpositive).mpr hreaches)
      exact not_mem_fetched_of_isLocked hlocked limit' (List.mem_map_of_mem hm)
  · rw [hleases.locksAllOf_iff (t.leases_fetch claim limit now longer), List.map_eq_nil_iff,
      Instant.plusOrSelf_le_iff hpositive hlonger]
  · rw [(t.leases_renew claim ids now lease).locksAllOf_iff (t.leases_renew claim ids now longer),
      Instant.plusOrSelf_le_iff hpositive hlonger]

end Table

/-- The longest lease that is accepted. -/
def leaseForever (key : String) : Option String :=
  if key = "OUTBOX_LEASE_SECS" then some "18446744073709551615" else none

/-- A lease of more than five hundred thousand million years keeps nobody out. -/
theorem leaseForever_excludes_nobody :
    let m := Message.numbered 1 "order" .epoch
    let t := Table.single ⟨m, none⟩
    ∃ c, Config.ofLookup leaseForever = .ok c ∧ .zero < c.lease ∧
      ∃ batch after, t.answer (.fetch (.numbered 1) 1 .epoch c.lease) = (.ok batch, after) ∧
        batch = [m] ∧ (after.fetch (.numbered 2) 1 .epoch c.lease).1 = [m] := by
  intro m t
  have haccepted : (Config.ofLookup leaseForever).toOption.map (·.lease) =
      some (.ofSeconds 18446744073709551615) := by decide +kernel
  cases hconfig : Config.ofLookup leaseForever with
  | error e => rw [hconfig] at haccepted; cases haccepted
  | ok c =>
      rw [hconfig] at haccepted
      have hlease : c.lease = .ofSeconds 18446744073709551615 := Option.some.inj haccepted
      have hpositive : .zero < c.lease := by rw [hlease]; decide
      obtain ⟨batch, after, hanswer, _, hvain, _⟩ :=
        t.leases_of_any_length_exclude (.numbered 1) 1 .epoch hpositive
      have hbatch : t.fetched 1 .epoch = [m] := by decide +kernel
      refine ⟨c, rfl, hpositive, batch, after, hanswer, ?_, ?_⟩
      · cases hanswer
        exact hbatch
      · rw [hvain (by rw [hlease]; decide)]
        exact hbatch

end Outbox
