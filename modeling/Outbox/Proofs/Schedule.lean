import Outbox.Proofs.Messages
import Outbox.Proofs.Rows

/-! # The order of delivery

Messages are delivered in the order of schedule, then creation, then id. A fetch takes the first of
those that can be claimed, so a message that it leaves out has a full batch before it.
-/

namespace Outbox

namespace Message

/-- The schedule comes first, then the time of creation, and then the id. -/
theorem scheduledBefore_iff {a b : Message} : a.scheduledBefore b ↔
    a.scheduledAt.rank < b.scheduledAt.rank ∨ a.scheduledAt.rank = b.scheduledAt.rank ∧
      (a.createdAt.rank < b.createdAt.rank ∨ a.createdAt.rank = b.createdAt.rank ∧
        a.id.ulid.value ≤ b.id.ulid.value) := by
  simp only [scheduledBefore, Bool.or_eq_true, Bool.and_eq_true, decide_eq_true_eq,
    Instant.rank_inj]
  rfl

theorem scheduledBefore_trans {a b c : Message} (hab : a.scheduledBefore b)
    (hbc : b.scheduledBefore c) : a.scheduledBefore c := by
  rw [scheduledBefore_iff] at *
  omega

theorem scheduledBefore_total (a b : Message) : a.scheduledBefore b ∨ b.scheduledBefore a := by
  rw [scheduledBefore_iff, scheduledBefore_iff]
  omega

/-- Two messages that come before each other have the same id. -/
theorem scheduledBefore_antisymm {a b : Message} (hab : a.scheduledBefore b)
    (hba : b.scheduledBefore a) : a.id = b.id := by
  rw [scheduledBefore_iff] at *
  have hvalue : a.id.ulid.value = b.id.ulid.value := by omega
  obtain ⟨⟨⟨_, _⟩⟩, _⟩ := a
  obtain ⟨⟨⟨_, _⟩⟩, _⟩ := b
  simpa using hvalue

theorem sorted_mergeSort (ms : List Message) :
    (ms.mergeSort scheduledBefore).Pairwise fun a b => a.scheduledBefore b := by
  apply List.pairwise_mergeSort
  · intro a b c
    exact scheduledBefore_trans
  · intro a b
    rw [Bool.or_eq_true]
    exact scheduledBefore_total a b

/-- There is only one order in which messages with different ids can stand. -/
theorem eq_of_perm_of_sorted {xs ys : List Message} (hperm : xs.Perm ys)
    (hids : (ys.map id).Nodup) (hxs : xs.Pairwise fun a b => a.scheduledBefore b)
    (hys : ys.Pairwise fun a b => a.scheduledBefore b) : xs = ys := by
  refine List.Perm.eq_of_pairwise (fun a b ha hb hab hba => ?_) hxs hys hperm
  exact List.inj_on_of_nodup_map hids (hperm.mem_iff.mp ha) hb (scheduledBefore_antisymm hab hba)

/-- Messages with different ids are sorted in one way only. -/
theorem mergeSort_eq_of_perm {xs ys : List Message} (hperm : xs.Perm ys)
    (hids : (ys.map id).Nodup) : xs.mergeSort scheduledBefore = ys.mergeSort scheduledBefore := by
  have hsorted : (xs.mergeSort scheduledBefore).Perm (ys.mergeSort scheduledBefore) :=
    (List.mergeSort_perm _ _).trans (hperm.trans (List.mergeSort_perm _ _).symm)
  refine eq_of_perm_of_sorted hsorted ?_ (sorted_mergeSort xs) (sorted_mergeSort ys)
  exact ((List.mergeSort_perm ys _).map id).nodup_iff.mpr hids

/-- A message does not come to be delivered earlier. -/
theorem Advances.scheduledBefore {before after : Message} (hadvances : before.Advances after) :
    before.scheduledBefore after := by
  have hle : before.scheduledAt.rank ≤ after.scheduledAt.rank := hadvances.scheduledAt
  rw [scheduledBefore_iff, hadvances.createdAt, hadvances.id]
  omega

end Message

namespace Table

variable {t : Table} {limit : Nat} {now : Instant}

theorem claimable_pairwise (t : Table) (now : Instant) :
    (t.claimable now).Pairwise fun a b => a.scheduledBefore b :=
  Message.sorted_mergeSort _

theorem claimable_nodup (t : Table) (now : Instant) :
    ((t.claimable now).map Message.id).Nodup := by
  have hperm := (List.mergeSort_perm ((t.rows.filter (·.isClaimable now)).map Row.message)
    Message.scheduledBefore).map Message.id
  rw [claimable, hperm.nodup_iff, List.map_map]
  exact t.distinctIds.sublist (List.filter_sublist.map Row.id)

theorem fetched_nodup (t : Table) (limit : Nat) (now : Instant) :
    ((t.fetched limit now).map Message.id).Nodup :=
  (t.claimable_nodup now).sublist ((List.take_sublist limit _).map Message.id)

/-- Before a message that could be claimed but is not fetched there is a full batch. -/
theorem full_of_not_mem_fetched {m : Message} (hclaimable : m ∈ t.claimable now)
    (hnot : m ∉ t.fetched limit now) :
    (t.fetched limit now).length = limit ∧
      ∀ b ∈ t.fetched limit now, b.scheduledBefore m := by
  have hparts := List.take_append_drop limit (t.claimable now)
  have hsorted := t.claimable_pairwise now
  rw [← hparts] at hclaimable hsorted
  have hleft : m ∈ (t.claimable now).drop limit :=
    (List.mem_append.mp hclaimable).resolve_left hnot
  constructor
  · have hpos := List.length_pos_of_mem hleft
    rw [List.length_drop] at hpos
    rw [fetched, List.length_take]
    omega
  · intro b hb
    exact (List.pairwise_append.mp hsorted).2.2 b hb m hleft

/-- With as many messages before it as the batch has room for, a message is not fetched. -/
theorem not_mem_fetched_of_ahead {m : Message} {ids : List MessageId} (hnodup : ids.Nodup)
    (hnot : m.id ∉ ids) (hroom : limit ≤ ids.length)
    (hahead : ∀ id ∈ ids, ∃ b ∈ t.claimable now, b.id = id ∧ b.scheduledBefore m) :
    m ∉ t.fetched limit now := by
  intro hmem
  have hall : ∀ id ∈ ids, id ∈ (t.fetched limit now).map Message.id := by
    intro id hid
    obtain ⟨b, hb, rfl, hbefore⟩ := hahead id hid
    -- left out, it would come after `m`, which is fetched
    by_contra hmissing
    have hout : b ∉ t.fetched limit now := fun hin => hmissing (List.mem_map_of_mem hin)
    have hafter := (full_of_not_mem_fetched hb hout).2 m hmem
    exact hnot (Message.scheduledBefore_antisymm hbefore hafter ▸ hid)
  have hnodup' : (m.id :: ids).Nodup := List.nodup_cons.mpr ⟨hnot, hnodup⟩
  have hle := hnodup'.length_le_of_subset
    (List.cons_subset.mpr ⟨List.mem_map_of_mem hmem, hall⟩)
  have hshort : (t.fetched limit now).length ≤ limit := List.length_take_le _ _
  rw [List.length_cons, List.length_map] at hle
  omega

end Table

end Outbox
