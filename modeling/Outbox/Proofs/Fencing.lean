import Outbox.Proofs.Holders
import Outbox.Proofs.Lifecycle
import Mathlib.Order.Interval.Finset.Nat

/-! # One outcome for each delivery

An outcome is recorded only under the claim of the latest fetch that returned the message, and only
once for that fetch. A claim that has been overtaken, has given the message back or has had its
outcome recorded already is turned away. So a message has no more outcomes than it was fetched.
-/

namespace Outbox

namespace Row

/-- The attempts that have come to an outcome, as far as failures are counted. -/
def outcomes (row : Row) : Nat :=
  row.message.retryCount.toNat + if row.message.isProcessed then 1 else 0

/-- The outcome that the holder has still to record. -/
def due (row : Row) : Nat := if row.holder?.isSome then 1 else 0

variable {row : Row} {claim : ClaimToken}

theorem due_of_held (hheld : row.isHeldBy claim) : row.due = 1 := by
  rw [due, holder?_eq_some.mpr hheld]
  rfl

theorem due_of_free (hfree : row.lease = none) : row.due = 0 := by
  simp [due, holder?, claimedBy, hfree]

theorem due_le_one (row : Row) : row.due ≤ 1 := by
  unfold due
  split <;> omega

theorem outcomes_of_open (hopen : row.message.isProcessed = false) :
    row.outcomes = row.message.retryCount.toNat := by
  simp [outcomes, hopen]

/-- A mark by the holder makes an outcome of the one that is due. -/
theorem outcomes_markProcessed (hheld : row.isHeldBy claim) (time : Instant) :
    outcomes ⟨row.message.markProcessed time, none⟩ = row.outcomes + 1 := by
  have hopen := (isHeldBy_iff.mp hheld).1
  rw [outcomes_of_open hopen, Message.markProcessed, if_neg (by simp [hopen])]
  rfl

/-- A failure counts as one outcome, or as none once the count is at its largest. -/
theorem outcomes_markFailed_le (hheld : row.isHeldBy claim) (error : String)
    (nextRun : Option Instant) :
    outcomes ⟨row.message.markFailed error nextRun, none⟩ ≤ row.outcomes + 1 := by
  have hopen := (isHeldBy_iff.mp hheld).1
  obtain ⟨hstill, hcount⟩ := Message.markFailed_of_open hopen error nextRun
  have hcapped := toNat_incrementCapped row.message.retryCount
  have hafter : outcomes ⟨row.message.markFailed error nextRun, none⟩ =
      (row.message.markFailed error nextRun).retryCount.toNat := outcomes_of_open hstill
  rw [hafter, outcomes_of_open hopen, hcount]
  omega

end Row

namespace Run

variable {r : Run} {n : Nat} {claim : ClaimToken} {id : MessageId} {row : Row}

/-- In step `n` a mark under the claim changes the row. -/
def Records (r : Run) (n : Nat) (claim : ClaimToken) (id : MessageId) : Prop :=
  r.Marks n claim id ∧ (r.table (n + 1)).row? id ≠ (r.table n).row? id

/-- The latest fetch that returned the message was under the claim, and since then the message has
not been given back under it, and no outcome has been recorded. -/
def Current (r : Run) (n : Nat) (claim : ClaimToken) (id : MessageId) : Prop :=
  ∃ f, f < n ∧ r.Returns f claim id ∧ ∀ k, f < k → k < n →
    (∀ c, ¬ r.Returns k c id) ∧ ¬ r.Releases k claim id ∧ ∀ c, ¬ r.Records k c id

open scoped Classical in
/-- How many fetches return the message from step `since` on, and before step `n`. -/
noncomputable def timesReturned (r : Run) (id : MessageId) (since n : Nat) : Nat :=
  ((Finset.Ico since n).filter fun k => ∃ claim, r.Returns k claim id).card

/-- A mark changes the row, and lets go of it, if the claim holds it. -/
theorem row?_of_marks (hmarks : r.Marks n claim id) : ∃ record : Message → Message,
    (r.table (n + 1)).row? id = ((r.table n).row? id).map fun row =>
      if row.isHeldBy claim then ⟨record row.message, none⟩ else row := by
  rcases hmarks with ⟨time, hcalls⟩ | ⟨error, nextRun, hcalls⟩
  · refine ⟨(·.markProcessed time), ?_⟩
    rw [Calls.table hcalls]
    exact (Table.row?_mark ..).trans (by simp only [true_and])
  · refine ⟨(·.markFailed error nextRun), ?_⟩
    rw [Calls.table hcalls]
    exact (Table.row?_mark ..).trans (by simp only [true_and])

/-- It is the marks of the holder that change the row. -/
theorem records_iff :
    r.Records n claim id ↔ r.Marks n claim id ∧ (r.table n).holder? id = some claim := by
  refine and_congr_right fun hmarks => ?_
  obtain ⟨record, hafter⟩ := row?_of_marks hmarks
  rw [Table.holder?_eq_some, hafter]
  cases hrow : (r.table n).row? id with
  | none => simp
  | some row =>
      by_cases hheld : row.isHeldBy claim
      · -- the holder's claim is on the row before the mark, and not after it
        obtain ⟨_, lease, hlease, _⟩ := Row.isHeldBy_iff.mp hheld
        refine iff_of_true (fun hsame => ?_) ⟨row, rfl, hheld⟩
        rw [Option.map_some, if_pos hheld] at hsame
        rw [← Option.some.inj hsame] at hlease
        cases hlease
      · simp [hheld]

/-- Who holds a message is who has the current claim on it. -/
theorem holder?_eq_some_iff_current (hstart : ∀ id, (r.table 0).holder? id = none) :
    (r.table n).holder? id = some claim ↔ r.Current n claim id := by
  induction n with
  | zero =>
      rw [hstart]
      exact iff_of_false (fun hsome => by cases hsome) fun ⟨f, hlt, _⟩ => by omega
  | succ n ih =>
      rw [holder?_succ, ih]
      constructor
      · rintro (hreturns | ⟨⟨f, hlt, hreturns, hsince⟩, hnobody, hkept, hunmarked⟩)
        · exact ⟨n, Nat.lt_succ_self n, hreturns, fun k hnk hkn => by omega⟩
        · refine ⟨f, Nat.lt_succ_of_lt hlt, hreturns, fun k hfk hkn => ?_⟩
          rcases Nat.lt_succ_iff_lt_or_eq.mp hkn with hkn | rfl
          · exact hsince k hfk hkn
          · refine ⟨hnobody, hkept, fun c hrecords => ?_⟩
            -- whoever records an outcome is the holder
            obtain ⟨hmarks, hholder⟩ := records_iff.mp hrecords
            rw [ih.mpr ⟨f, hlt, hreturns, hsince⟩] at hholder
            exact hunmarked (Option.some.inj hholder ▸ hmarks)
      · rintro ⟨f, hlt, hreturns, hsince⟩
        rcases Nat.lt_succ_iff_lt_or_eq.mp hlt with hlt | rfl
        · have hbefore : r.Current n claim id :=
            ⟨f, hlt, hreturns, fun k hfk hkn => hsince k hfk (Nat.lt_succ_of_lt hkn)⟩
          obtain ⟨hnobody, hkept, hnone⟩ := hsince n hlt (Nat.lt_succ_self n)
          refine .inr ⟨hbefore, hnobody, hkept, fun hmarks => ?_⟩
          exact hnone claim (records_iff.mpr ⟨hmarks, ih.mpr hbefore⟩)
        · exact .inl hreturns

theorem timesReturned_succ_of_returns {since : Nat} (hle : since ≤ n)
    (hreturns : r.Returns n claim id) :
    r.timesReturned id since (n + 1) = r.timesReturned id since n + 1 := by
  unfold timesReturned
  rw [Nat.Ico_succ_right_eq_insert_Ico hle, Finset.filter_insert, if_pos ⟨claim, hreturns⟩,
    Finset.card_insert_of_notMem (by simp)]

theorem timesReturned_le_succ (r : Run) (id : MessageId) (since n : Nat) :
    r.timesReturned id since n ≤ r.timesReturned id since (n + 1) := by
  unfold timesReturned
  gcongr
  omega

/-- A fetch that returns the message is counted, and every outcome is one that was due. -/
theorem outcomes_step {since : Nat} {after : Row} (hle : since ≤ n)
    (hrow : (r.table n).row? id = some row) (hafter : (r.table (n + 1)).row? id = some after)
    (hbound : row.outcomes + row.due ≤ r.timesReturned id since n) :
    after.outcomes + after.due ≤ r.timesReturned id since (n + 1) := by
  have hmono := r.timesReturned_le_succ id since n
  rcases row_step hrow with hsame | ⟨call, hcalls, hchange⟩
  · obtain rfl := Option.some.inj (hsame.symm.trans hafter)
    omega
  rw [hafter] at hchange
  generalize hresult : some after = result at hchange
  cases hchange with
  | kept => cases hresult; omega
  | @claimed claim limit now lease hclaimable =>
      cases hresult
      have hdue := (row.claimFor claim (now.plusOrSelf lease)).due_le_one
      change row.outcomes + _ ≤ _
      by_cases hreturns : r.Returns n claim id
      · rw [timesReturned_succ_of_returns hle hreturns]
        omega
      · -- not returned, the row has the holder that it had before
        have hheld : (row.claimFor claim (now.plusOrSelf lease)).isHeldBy claim :=
          Row.isHeldBy_iff.mpr ⟨(Row.isClaimable_iff.mp hclaimable).1, _, rfl, rfl⟩
        have hholder := Table.holder?_eq_some.mpr ⟨_, hafter, hheld⟩
        obtain ⟨before, hbefore, hheld'⟩ := Table.holder?_eq_some.mp
          ((holder?_succ.mp hholder).resolve_left hreturns).1
        obtain rfl := Option.some.inj (hrow.symm.trans hbefore)
        rw [Row.due_of_held hheld'] at hbound
        omega
  | @extended claim ids now lease _ hheld =>
      cases hresult
      have hdue := (row.extend (now.plusOrSelf lease)).due_le_one
      rw [Row.due_of_held hheld] at hbound
      change row.outcomes + _ ≤ _
      omega
  | @processed claim time hheld =>
      cases hresult
      rw [Row.outcomes_markProcessed hheld, Row.due_of_free rfl]
      rw [Row.due_of_held hheld] at hbound
      omega
  | @failed claim error nextRun hheld =>
      cases hresult
      have hcount := Row.outcomes_markFailed_le hheld error nextRun
      rw [Row.due_of_free rfl]
      rw [Row.due_of_held hheld] at hbound
      omega
  | released =>
      cases hresult
      rw [Row.due_of_free rfl]
      change row.outcomes + _ ≤ _
      omega
  | deleted => cases hresult

/-- A row has been there since it was committed, and has had no more outcomes than fetches that
returned it since. -/
theorem outcomes_le_timesReturned (hempty : r.FromEmpty) (hrow : (r.table n).row? id = some row) :
    ∃ m c, c < n ∧ m.id = id ∧ r.Commits c m ∧
      (∀ k, c < k → k ≤ n → ∃ row, (r.table k).row? id = some row) ∧
      row.outcomes + row.due ≤ r.timesReturned id c n := by
  induction n generalizing row with
  | zero =>
      rw [hempty.empty] at hrow
      cases hrow
  | succ n ih =>
      rcases row_origin hrow with ⟨before, hbefore⟩ | ⟨m, hcommits, hid, rfl⟩
      · obtain ⟨m, c, hlt, hid, hcommits, hthere, hbound⟩ := ih hbefore
        refine ⟨m, c, by omega, hid, hcommits, fun k hck hkn => ?_, ?_⟩
        · rcases Nat.le_succ_iff.mp hkn with hkn | rfl
          · exact hthere k hck hkn
          · exact ⟨row, hrow⟩
        · exact outcomes_step (Nat.le_of_lt hlt) hbefore hrow hbound
      · refine ⟨m, n, Nat.lt_succ_self n, hid, hcommits, fun k hnk hkn => ?_, ?_⟩
        · obtain rfl : k = n + 1 := by omega
          exact ⟨_, hrow⟩
        · obtain ⟨u, hevent, _, hmem⟩ := hcommits
          have hnew := hempty.isNew hevent m hmem
          have hnone : Row.outcomes ⟨m, none⟩ = m.retryCount.toNat :=
            Row.outcomes_of_open hnew.isProcessed
          rw [hnone, Row.due_of_free rfl, (Message.isNew_iff.mp hnew).2.2.1]
          exact Nat.zero_le _

/-- A mark changes a row just when it is made under the claim of the latest fetch that returned the
message, with no release under that claim and no outcome recorded since. Any other mark on a row
changes nothing, and is told that the claim is lost unless the message is processed. So a message
has had no more outcomes than fetches that returned it since it was committed. -/
theorem outcomes_are_fenced (hempty : r.FromEmpty) :
    (∀ n claim id, r.Records n claim id → r.Current n claim id) ∧
      ∀ n id row, (r.table n).row? id = some row →
        (∀ claim, r.Current n claim id → r.Marks n claim id → r.Records n claim id) ∧
        (∀ claim, ¬ r.Current n claim id →
          (∀ time, (r.table n).answer (.markProcessed claim id time) =
            (row.rebuff, r.table n)) ∧
          ∀ error nextRun, (r.table n).answer (.markFailed claim id error nextRun) =
            (row.rebuff, r.table n)) ∧
        ∃ m c, c < n ∧ m.id = id ∧ r.Commits c m ∧
          (∀ k, c < k → k ≤ n → ∃ row, (r.table k).row? id = some row) ∧
          row.outcomes ≤ r.timesReturned id c n := by
  have hstart : ∀ id, (r.table 0).holder? id = none := fun id => by rw [hempty.empty]; rfl
  refine ⟨fun n claim id hrecords => ?_, fun n id row hrow => ⟨fun claim hcurrent hmarks => ?_,
    fun claim hnot => ?_, ?_⟩⟩
  · exact (holder?_eq_some_iff_current hstart).mp (records_iff.mp hrecords).2
  · exact records_iff.mpr ⟨hmarks, (holder?_eq_some_iff_current hstart).mpr hcurrent⟩
  · have hfree : ¬ row.isHeldBy claim := fun hheld =>
      hnot ((holder?_eq_some_iff_current hstart).mp (Table.holder?_eq_some.mpr ⟨row, hrow, hheld⟩))
    exact ⟨fun time => Table.mark_of_not_held hrow hfree _ fun m => m.id_markProcessed time,
      fun error nextRun => Table.mark_of_not_held hrow hfree _ fun m => m.id_markFailed error nextRun⟩
  · obtain ⟨m, c, hlt, hid, hcommits, hthere, hbound⟩ := outcomes_le_timesReturned hempty hrow
    exact ⟨m, c, hlt, hid, hcommits, hthere, by omega⟩

/-- The claim that was overtaken calls after the other one has recorded a failure. It is turned
away, and nothing changes. -/
theorem overtaken_is_turned_away :
    let id := (Message.numbered 1 "order" .epoch).id
    overtakenRun.FromEmpty ∧ overtakenRun.Current 3 (.numbered 2) id ∧
      ¬ overtakenRun.Current 4 (.numbered 1) id ∧
      ∀ time, (overtakenRun.table 4).answer (.markProcessed (.numbered 1) id time) =
        (.error (.claimLost id), overtakenRun.table 4) := by
  intro id
  have hrecords : overtakenRun.Records 3 (.numbered 2) id :=
    ⟨.inr ⟨"down", none, .outside _⟩, by decide +kernel⟩
  have hmarks : overtakenRun.Marks 4 (.numbered 1) id := .inl ⟨_, .outside _⟩
  have hrow : (overtakenRun.table 4).row? id = some overtakenRow := by decide +kernel
  obtain ⟨hfenced, hrows⟩ := outcomes_are_fenced overtakenRun_fromEmpty
  obtain ⟨hcurrent, hothers, _⟩ := hrows 4 id overtakenRow hrow
  have hlost : ¬ overtakenRun.Current 4 (.numbered 1) id := fun hstill =>
    (hcurrent _ hstill hmarks).2 (by decide +kernel)
  exact ⟨overtakenRun_fromEmpty, hfenced 3 _ id hrecords, hlost, (hothers _ hlost).1⟩

end Run

end Outbox
