import Outbox.Proofs.Exclusivity
import Outbox.Proofs.Finality
import Outbox.Proofs.Lifecycle
import Outbox.Proofs.Starvation

/-! # Nothing is lost

A cycle may break off anywhere, and any of its calls may fail, with or without effect. What it
leaves behind is at worst a lease, and the lease ends its length after a reading of the clock. So no
message disappears before it is processed, and a cycle that starts late enough and has room enough
attempts whatever is unprocessed.

Late enough is a time that is the length of a lease after every reading so far. Mostly that is the
length after the last one. But sums of times do not know of the leap seconds that they pass, so from
within a leap second a lease may end earlier than from just before it.
-/

namespace Outbox

/-- The lease on a row is one that was there before, or one that the call gives. -/
theorem Row.Change.lease {row after : Row} {call : StoreCall} {l : Lease}
    (hchange : row.Change call (some after)) (hl : l ∈ after.lease) :
    l ∈ row.lease ∨ ∃ now lease, call.grant? = some (now, lease) ∧
      l.expires = now.plusOrSelf lease := by
  generalize hafter : some after = result at hchange
  cases hchange with
  | kept => cases hafter; exact .inl hl
  | claimed => cases hafter; cases hl; exact .inr ⟨_, _, rfl, rfl⟩
  | extended =>
      cases hafter
      obtain ⟨_, _, rfl⟩ := Option.map_eq_some_iff.mp hl
      exact .inr ⟨_, _, rfl, rfl⟩
  | processed | failed | released => cases hafter; cases hl
  | deleted => cases hafter

namespace Run

open Processor Phase

variable {r : Run} {n : Nat} {claim : ClaimToken} {id : MessageId} {row : Row}

/-! ### Every lease goes back to a reading of the clock -/

/-- The time is this much later than each that the clock has shown before step `n`. -/
def Elapsed (r : Run) (n : Nat) (length : Duration) (now : Instant) : Prop :=
  ∀ k shown, k < n → (r.event k).reading? = some shown →
    ∃ ends, shown.plus? length = some ends ∧ ends ≤ now

/-- What the clock showed when it was last read before step `n`. -/
def shown? (r : Run) : Nat → Option Instant
  | 0 => none
  | n + 1 => (r.event n).reading?.or (r.shown? n)

/-- The clock that all cycles share is never set back. -/
def NeverSetBack (r : Run) : Prop :=
  ∀ i j a b, i ≤ j → (r.event i).reading? = some a → (r.event j).reading? = some b → a ≤ b

/-- No reading is later than the last. -/
theorem NeverSetBack.le_shown? (hclock : r.NeverSetBack) {k : Nat} {now : Instant} (hlt : k < n)
    (hreading : (r.event k).reading? = some now) : ∃ last, r.shown? n = some last ∧ now ≤ last := by
  induction n with
  | zero => omega
  | succ n ih =>
      -- either the step before shows a time of its own, or the last one is older
      cases hlast : (r.event n).reading? with
      | some last =>
          exact ⟨last, by rw [shown?, hlast, Option.some_or],
            hclock k n now last (by omega) hreading hlast⟩
      | none =>
          have hne : k ≠ n := fun heq => by
            rw [heq, hlast] at hreading
            cases hreading
          obtain ⟨last, hshown, hle⟩ := ih (by omega)
          exact ⟨last, by rw [shown?, hlast, Option.none_or, hshown], hle⟩

/-- Outside of leap seconds it is enough to be so much later than the last reading. -/
theorem NeverSetBack.elapsed (hclock : r.NeverSetBack) {length : Duration} {last ends now : Instant}
    (hlast : r.shown? n = some last) (hplain : last.isLeap = false)
    (hends : last.plus? length = some ends) (hle : ends ≤ now) : r.Elapsed n length now := by
  intro k shown hlt hreading
  obtain ⟨last', hlast', hshown⟩ := hclock.le_shown? hlt hreading
  obtain rfl := Option.some.inj (hlast.symm.trans hlast')
  obtain ⟨earlier, hearlier, hmono⟩ := Instant.plus?_mono hplain hshown hends
  exact ⟨earlier, hearlier, Instant.le_trans hmono hle⟩

/-- The lease has been there from the beginning, or ends its length after an earlier reading. -/
def Explains (r : Run) (lease : Duration) (n : Nat) (l : Lease) : Prop :=
  (∃ row ∈ (r.table 0).rows, l ∈ row.lease) ∨
    ∃ k now, k < n ∧ (r.event k).reading? = some now ∧ l.expires = now.plusOrSelf lease

theorem Explains.succ {lease : Duration} {l : Lease} (hexplains : r.Explains lease n l) :
    r.Explains lease (n + 1) l := by
  rcases hexplains with hstart | ⟨k, now, hlt, hreading, hends⟩
  · exact .inl hstart
  · exact .inr ⟨k, now, Nat.lt_succ_of_lt hlt, hreading, hends⟩

/-- Every lease is the one that was there at the start, or was given for a time that the clock has
shown. -/
theorem explains_lease (hclaims : r.ClaimsAreCycles) {lease : Duration}
    (hlease : ∀ n, ∀ p ∈ (r.event n).begun?, p.lease = lease)
    (hrow : (r.table n).row? id = some row) : ∀ l ∈ row.lease, r.Explains lease n l := by
  refine forall_row (P := fun n row => ∀ l ∈ row.lease, r.Explains lease n l) ?_ ?_ ?_ ?_ hrow
  · intro id row hrow l hl
    exact .inl ⟨row, (Table.row?_eq_some.mp hrow).1, hl⟩
  · intro n m _ l hl
    cases hl
  · intro n row hrow l hl
    exact (hrow l hl).succ
  · -- a call that gives a lease has the time of a reading, and its length from a processor
    intro n call row after hcalls hchange hrow l hl
    rcases hchange.lease hl with hold | ⟨now, length, hgrant, hends⟩
    · exact (hrow l hold).succ
    · obtain ⟨⟨k, hlt, hreading⟩, b, p, hbegun, rfl⟩ := hclaims.grant hcalls hgrant
      rw [hlease b p hbegun] at hends
      exact .inr ⟨k, now, Nat.lt_succ_of_lt hlt, hreading, hends⟩

/-- When its length has passed since each reading of the clock, every lease has ended. -/
theorem Elapsed.lease_ended {lease : Duration} {now : Instant} (helapsed : r.Elapsed n lease now)
    (hclaims : r.ClaimsAreCycles) (hlease : ∀ n, ∀ p ∈ (r.event n).begun?, p.lease = lease)
    (hstart : ∀ row ∈ (r.table 0).rows, ∀ l ∈ row.lease, l.expires ≤ now)
    (hrow : (r.table n).row? id = some row) : ∀ l ∈ row.lease, l.expires ≤ now := by
  intro l hl
  rcases explains_lease hclaims hlease hrow l hl with
    ⟨first, hfirst, hl⟩ | ⟨k, given, hlt, hreading, hgiven⟩
  · exact hstart first hfirst l hl
  · obtain ⟨ends, hends, hle⟩ := helapsed k given hlt hreading
    rw [hgiven, Instant.plusOrSelf_eq hends]
    exact hle

/-! ### What becomes of a message -/

/-- A message that is there stays and moves forward, until a sweep deletes it once it is
processed. -/
theorem advances_or_swept (hrow : (r.table n).row? id = some row) {j : Nat} (hle : n ≤ j) :
    (∃ after, (r.table j).row? id = some after ∧ row.message.Advances after.message) ∨
      ∃ k swept, n ≤ k ∧ k < j ∧ (r.table k).row? id = some swept ∧
        row.message.Advances swept.message ∧ swept.message.isProcessed ∧ r.Sweeps k id := by
  induction hle with
  | refl => exact .inl ⟨row, hrow, .refl _⟩
  | @step j hle ih =>
      rcases ih with ⟨before, hbefore, hadvances⟩ | ⟨k, swept, hnk, hkj, hswept⟩
      · cases hafter : (r.table (j + 1)).row? id with
        | some after =>
            exact .inl ⟨after, rfl, hadvances.trans (advances_step hbefore hafter)⟩
        | none =>
            -- of all calls only a sweep takes a row away
            rcases row_step hbefore with hsame | ⟨call, hcalls, hchange⟩
            · cases hsame.symm.trans hafter
            · rw [hafter] at hchange
              obtain ⟨hprocessed, cutoff, rfl⟩ := hchange.deletes
              exact .inr ⟨j, before, hle, Nat.lt_succ_self j, hbefore, hadvances, hprocessed,
                ⟨cutoff, hcalls⟩, hafter⟩
      · exact .inr ⟨k, swept, hnk, Nat.lt_succ_of_lt hkj, hswept⟩

end Run

/-- When all is due and no lease is left everything unprocessed can be claimed. -/
theorem Table.claimable_perm_unprocessed {t : Table} {now : Instant}
    (hdue : ∀ m ∈ t.messages, m.isProcessed = false → m.scheduledAt ≤ now)
    (hended : ∀ row ∈ t.rows, ∀ l ∈ row.lease, l.expires ≤ now) :
    (t.claimable now).Perm (t.messages.filter fun m => !m.isProcessed) := by
  have hall : t.rows.filter (·.isClaimable now) = t.rows.filter fun row =>
      !row.message.isProcessed := by
    refine List.filter_congr fun row hrow => ?_
    rw [Bool.eq_iff_iff, Row.isClaimable_iff, Bool.not_eq_true']
    exact ⟨fun hclaimable => hclaimable.1,
      fun hopen => ⟨hopen, hdue _ (List.mem_map_of_mem hrow) hopen, hended row hrow⟩⟩
  rw [claimable, hall, messages, List.filter_map]
  exact List.mergeSort_perm _ _

/-- A cycle with room for all attempts each unprocessed message once, if all are due and no lease is
left. -/
theorem Surroundings.cycle_attempts_all {σ : Type} (world : Surroundings σ) (p : Processor)
    (claim : ClaimToken) (t : Table) (outside : σ)
    (hdue : ∀ m ∈ t.messages, m.isProcessed = false → m.scheduledAt ≤ (world.read outside).1)
    (hended : ∀ row ∈ t.rows, ∀ l ∈ row.lease, l.expires ≤ (world.read outside).1)
    (hroom : (t.messages.filter fun m => !m.isProcessed).length ≤ p.batchSize) :
    let done := world.cycle p claim ⟨t, outside, []⟩
    (∃ report, done.1 = .ok report) ∧
      done.2.dispatched.Perm (t.messages.filter fun m => !m.isProcessed) ∧
      (done.2.dispatched.map Message.id).Nodup ∧
      ∀ m ∈ t.messages, m.isProcessed = false → Attempted done.2 m := by
  intro done
  have hperm := Table.claimable_perm_unprocessed hdue hended
  have hall : t.fetched p.batchSize (world.read outside).1 = t.claimable (world.read outside).1 :=
    List.take_of_length_le (hperm.length_eq ▸ hroom)
  obtain ⟨hresult, hdispatched, _, _⟩ := world.cycle_effect p claim ⟨t, outside, []⟩
  have hbatch : done.2.dispatched = t.claimable (world.read outside).1 :=
    hdispatched.trans ((List.nil_append _).trans hall)
  refine ⟨⟨_, hresult⟩, hbatch ▸ hperm, hbatch ▸ t.claimable_nodup _, fun m hm hopen => ?_⟩
  refine attempted_of_mem world p claim ?_
  rw [hall, hperm.mem_iff]
  exact List.mem_filter.mpr ⟨hm, by simp [hopen]⟩

namespace Run

/-- Whatever cycles break off and whatever calls fail, a committed message is there until it is
processed and swept. At any point a cycle that nobody interferes with, and that begins when the
length of a lease has passed since each time that the clock has shown and every unprocessed message
is due, attempts each of them exactly once, if it has room for all. -/
theorem nothing_is_lost {r : Run} {lease : Duration} (hclaims : r.ClaimsAreCycles)
    (hlease : ∀ n, ∀ p ∈ (r.event n).begun?, p.lease = lease) :
    (∀ c m, r.Commits c m → (r.table (c + 1)).row? m.id = some ⟨m, none⟩) ∧
      (∀ n id row, (r.table n).row? id = some row → ∀ j, n ≤ j →
        (∃ after, (r.table j).row? id = some after ∧ row.message.Advances after.message) ∨
        ∃ k swept, n ≤ k ∧ k < j ∧ (r.table k).row? id = some swept ∧
          row.message.Advances swept.message ∧ swept.message.isProcessed ∧ r.Sweeps k id) ∧
      ∀ n (σ : Type) (world : Surroundings σ) (outside : σ) (p : Processor) (claim : ClaimToken),
        let now := (world.read outside).1
        let unprocessed := (r.table n).messages.filter fun m => !m.isProcessed
        (∀ row ∈ (r.table 0).rows, ∀ l ∈ row.lease, l.expires ≤ now) → r.Elapsed n lease now →
        (∀ m ∈ unprocessed, m.scheduledAt ≤ now) → unprocessed.length ≤ p.batchSize →
        let done := world.cycle p claim ⟨r.table n, outside, []⟩
        (∃ report, done.1 = .ok report) ∧ done.2.dispatched.Perm unprocessed ∧
          (done.2.dispatched.map Message.id).Nodup ∧
          ∀ m ∈ unprocessed, Surroundings.Attempted done.2 m := by
  refine ⟨fun c m hcommits => hcommits.row?.2,
    fun n id row hrow j hle => advances_or_swept hrow hle, ?_⟩
  intro n σ world outside p claim now unprocessed hstart helapsed hdue hroom
  have hdue' : ∀ m ∈ (r.table n).messages, m.isProcessed = false → m.scheduledAt ≤ now :=
    fun m hm hopen => hdue m (List.mem_filter.mpr ⟨hm, by simp [hopen]⟩)
  have hended : ∀ row ∈ (r.table n).rows, ∀ l ∈ row.lease, l.expires ≤ now := fun row hrow =>
    helapsed.lease_ended hclaims hlease hstart (Table.row?_eq_some.mpr ⟨hrow, rfl⟩)
  obtain ⟨hresult, hperm, hnodup, hattempted⟩ :=
    world.cycle_attempts_all p claim (r.table n) outside hdue' hended hroom
  refine ⟨hresult, hperm, hnodup, fun m hm => ?_⟩
  obtain ⟨hmem, hopen⟩ := List.mem_filter.mp hm
  exact hattempted m hmem (by simpa using hopen)

theorem begun_lease_ofScript {t : Table} {script : List Event} {lease : Duration}
    {hpossible : ((Fleet.initial t).after script).isSome}
    (hlease : ∀ n (hlt : n < script.length), ∀ p ∈ script[n].begun?, p.lease = lease) :
    ∀ n, ∀ p ∈ ((ofScript t script hpossible).event n).begun?, p.lease = lease :=
  forall_event_ofScript (P := fun _ e => ∀ p ∈ e.begun?, p.lease = lease)
    (fun n p hmem => by cases hmem) hlease

def cutOffBatch : List Message :=
  [.numbered 1 "poison" .epoch, .numbered 2 "order" (.numbered 1)]

/-- Of two messages a cycle claims the one that is due, does not get the reply, and is not heard of
again. -/
def cutOff : List Event :=
  let claim := ClaimToken.numbered 1
  [.commit ⟨[], cutOffBatch, by decide⟩,
    .begin claim ⟨.immediate, 2, .ofSeconds 5, .ofSeconds 1⟩, .time claim .epoch,
    .store claim (.cutOff (.unavailable "down"))]

def cutOffRun : Run := ofScript .empty cutOff (by decide +kernel)

/-- Surroundings in which it is always this time, and messages of one kind are never delivered. -/
def poisonedAt (now : Instant) : Surroundings Unit :=
  { Surroundings.poisoned with read := fun _ => (now, ()) }

/-- The cycle that begins when the lease has just ended attempts the message that was claimed and
the one that was not. -/
theorem nothing_is_lost_cutOff :
    let p : Processor := ⟨.immediate, 2, .ofSeconds 5, .ofSeconds 1⟩
    let done := (poisonedAt (.numbered 1)).cycle p (.numbered 2) ⟨cutOffRun.table 4, (), []⟩
    (cutOffRun.table 4).rows.map Row.claimedBy = [some (.numbered 1), none] ∧
      done.2.dispatched.Perm cutOffBatch ∧
      ∀ m ∈ cutOffBatch, Surroundings.Attempted done.2 m := by
  intro p done
  have hclock : cutOffRun.NeverSetBack := fun i j a b hle =>
    reading_mono_ofScript (by decide +kernel) hle
  have hclaims : cutOffRun.ClaimsAreCycles := claimsAreCycles_ofScript (by decide +kernel)
  have hlease : ∀ n, ∀ p ∈ (cutOffRun.event n).begun?, p.lease = .ofSeconds 1 :=
    begun_lease_ofScript (by decide +kernel)
  have hlast : cutOffRun.shown? 4 = some .epoch := by decide +kernel
  have hends : Instant.epoch.plus? (.ofSeconds 1) = some (.numbered 1) := by decide +kernel
  have helapsed : cutOffRun.Elapsed 4 (.ofSeconds 1) (.numbered 1) :=
    hclock.elapsed hlast rfl hends (Instant.le_refl _)
  have hbatch : ((cutOffRun.table 4).messages.filter fun m => !m.isProcessed) = cutOffBatch := by
    decide +kernel
  obtain ⟨_, _, hrecovers⟩ := nothing_is_lost hclaims hlease
  obtain ⟨_, hdispatched, _, hattempted⟩ := hrecovers 4 Unit (poisonedAt (.numbered 1)) () p
    (.numbered 2) (fun row hmem => by cases hmem) helapsed (hbatch ▸ by decide)
    (hbatch ▸ by decide)
  rw [hbatch] at hdispatched hattempted
  exact ⟨by decide +kernel, hdispatched, hattempted⟩

/-! ### A last reading within a leap second -/

/-- A cycle claims the message just before the leap second, and is not heard of again. Another one
finds nothing to do within the leap second. -/
def cutOffByLeap : List Event :=
  let p : Processor := ⟨.immediate, 1, .ofSeconds 5, .ofSeconds 1⟩
  let first := ClaimToken.numbered 1
  let second := ClaimToken.numbered 2
  [.commit (.single (.numbered 1 "order" .epoch)), .begin first p, .time first beforeLeap,
    .store first .served, .begin second p, .time second withinLeap, .store second .served]

def cutOffByLeapRun : Run := ofScript .empty cutOffByLeap (by decide +kernel)

/-- The length of a lease after the last reading the message is still claimed: the lease given
before the leap second ends at 60.9 seconds, and the cycle begins at 60.233. It has room for the
message and passes it over. -/
theorem not_recovered_after_leap_second :
    let m := Message.numbered 1 "order" .epoch
    let p : Processor := ⟨.immediate, 1, .ofSeconds 5, .ofSeconds 1⟩
    let done := (poisonedAt afterLeap).cycle p (.numbered 3) ⟨cutOffByLeapRun.table 7, (), []⟩
    cutOffByLeapRun.table 0 = .empty ∧ cutOffByLeapRun.NeverSetBack ∧
      cutOffByLeapRun.ClaimsAreCycles ∧
      (∀ n, ∀ p ∈ (cutOffByLeapRun.event n).begun?, p.lease = .ofSeconds 1) ∧
      cutOffByLeapRun.shown? 7 = some withinLeap ∧
      withinLeap.plus? (.ofSeconds 1) = some afterLeap ∧
      ((cutOffByLeapRun.table 7).messages.filter fun m => !m.isProcessed) = [m] ∧
      m.scheduledAt ≤ afterLeap ∧ [m].length ≤ p.batchSize ∧
      done.2.dispatched = [] ∧ ¬ Surroundings.Attempted done.2 m := by
  intro m p done
  have hclock : cutOffByLeapRun.NeverSetBack := fun i j a b hle =>
    reading_mono_ofScript (by decide +kernel) hle
  have hclaims : cutOffByLeapRun.ClaimsAreCycles := claimsAreCycles_ofScript (by decide +kernel)
  have hlease : ∀ n, ∀ p ∈ (cutOffByLeapRun.event n).begun?, p.lease = .ofSeconds 1 :=
    begun_lease_ofScript (by decide +kernel)
  have hnone : done.2.dispatched = [] := by decide +kernel
  refine ⟨rfl, hclock, hclaims, hlease, by decide +kernel, by decide +kernel, by decide +kernel,
    by decide, by decide, hnone, ?_⟩
  rintro ⟨hdispatched, _⟩
  rw [hnone] at hdispatched
  cases hdispatched

end Run

end Outbox
