import Outbox.Proofs.Draining
import Outbox.Proofs.Retention

/-! # Sweeps keep out of the way

A sweep takes away rows that nothing else looks at: neither fetches, renewals and releases, nor
marks of messages that are still to be delivered. Likewise no such call makes a row that the sweep
would take away. So a sweep and such a call come to the same in either order, and in a run of them
it does not matter when the sweeps happen.
-/

namespace Outbox

/-- The row stays in the table when a sweep goes by. -/
def Row.outlives (r : Row) (cutoff : Instant) : Bool :=
  r.message.processedAt.all fun time => cutoff ≤ time

theorem Row.outlives_of_open {r : Row} (hopen : r.message.isProcessed = false)
    (cutoff : Instant) : r.outlives cutoff := by
  have hnone : r.message.processedAt = none := by simpa [Message.isProcessed] using hopen
  simp [outlives, hnone]

/-- The message of this id is still to be delivered. -/
def Table.Awaits (t : Table) (id : MessageId) : Prop :=
  ∃ row, t.row? id = some row ∧ row.message.isProcessed = false

/-- The call and a sweep of the table have nothing to do with each other. -/
def StoreCall.PassesBy (t : Table) (cutoff : Instant) : StoreCall → Prop
  | fetch .. | renew .. | release .. => True
  | markFailed _ id _ _ => t.Awaits id
  | markProcessed _ id time => t.Awaits id ∧ cutoff ≤ time
  | deleteProcessed _ | get _ | failing .. | counts => False

namespace Table

variable {t : Table} {cutoff : Instant} {id : MessageId}

/-! ### What a sweep leaves as it is -/

/-- A sweep leaves open rows as they are, and adds none. -/
theorem row?_sweep_of_open {row : Row} (hopen : row.message.isProcessed = false) :
    (t.deleteProcessed cutoff).2.row? id = some row ↔ t.row? id = some row := by
  rw [row?_deleteProcessed, Option.filter_eq_some_iff]
  exact and_iff_left (row.outlives_of_open hopen cutoff)

theorem awaits_sweep : (t.deleteProcessed cutoff).2.Awaits id ↔ t.Awaits id :=
  exists_congr fun _ => and_congr_left fun hopen => row?_sweep_of_open hopen

theorem passesBy_sweep {c : Instant} (call : StoreCall) :
    call.PassesBy (t.deleteProcessed c).2 cutoff ↔ call.PassesBy t cutoff := by
  cases call with
  | markProcessed => exact and_congr_left fun _ => awaits_sweep
  | markFailed => exact awaits_sweep
  | fetch | renew | release | deleteProcessed | get | failing | counts => exact Iff.rfl

/-- A sweep changes nothing about what a fetch returns. -/
theorem fetched_sweep (t : Table) (cutoff : Instant) (limit : Nat) (now : Instant) :
    (t.deleteProcessed cutoff).2.fetched limit now = t.fetched limit now := by
  have hsame : (t.deleteProcessed cutoff).2.rows.filter (·.isClaimable now) =
      t.rows.filter (·.isClaimable now) := by
    refine (List.filter_filter ..).trans (List.filter_congr fun r _ => ?_)
    rw [Bool.and_eq_left_iff_imp]
    exact fun hclaimable => r.outlives_of_open (Row.isClaimable_iff.mp hclaimable).1 cutoff
  simp only [fetched, claimable, hsame]

theorem holds_sweep (t : Table) (cutoff : Instant) (id : MessageId) (claim : ClaimToken) :
    ((t.deleteProcessed cutoff).2.row? id).any (·.isHeldBy claim) =
      (t.row? id).any (·.isHeldBy claim) := by
  rw [Bool.eq_iff_iff, Option.any_eq_true, Option.any_eq_true]
  refine exists_congr fun row => and_congr_left fun hheld => ?_
  exact row?_sweep_of_open (Row.isHeldBy_iff.mp hheld).1

/-! ### Either order -/

/-- A change that no row owes its stay to, or its going, can be made before or after a sweep. -/
theorem sweep_mapRowsWhere (t : Table) (cutoff : Instant) (p : Row → Bool) (f : Row → Row)
    (keepsId : ∀ r, (f r).id = r.id)
    (hkeep : ∀ r ∈ t.rows, p r → (f r).outlives cutoff = r.outlives cutoff) :
    ((t.mapRowsWhere p f keepsId).deleteProcessed cutoff).1 = (t.deleteProcessed cutoff).1 ∧
      ((t.mapRowsWhere p f keepsId).deleteProcessed cutoff).2 =
        (t.deleteProcessed cutoff).2.mapRowsWhere p f keepsId := by
  have hrows : ((t.mapRowsWhere p f keepsId).deleteProcessed cutoff).2.rows =
      ((t.deleteProcessed cutoff).2.mapRowsWhere p f keepsId).rows := by
    refine List.filter_map.trans (congrArg _ (List.filter_congr fun r hmem => ?_))
    cases hp : p r with
    | false => simp [hp]
    | true =>
        rw [Function.comp_apply, if_pos hp]
        exact hkeep r hmem hp
  refine ⟨?_, eq_of_rows hrows rfl⟩
  have hcount : (t.mapRowsWhere p f keepsId).rows.length = t.rows.length := List.length_map ..
  change _ - ((t.mapRowsWhere p f keepsId).deleteProcessed cutoff).2.rows.length = _
  rw [hcount, hrows]
  exact congrArg (t.rows.length - ·) (List.length_map ..)

/-- A mark of an open row and a sweep that spares it can change places. -/
theorem sweep_mark {row : Row} (hrow : t.row? id = some row)
    (hopen : row.message.isProcessed = false) (claim : ClaimToken) {record : Message → Message}
    (keepsId : ∀ m, (record m).id = m.id) (hkeep : Row.outlives ⟨record row.message, none⟩ cutoff) :
    (t.deleteProcessed cutoff).2.mark claim id record keepsId =
        ((t.mark claim id record keepsId).1,
          ((t.mark claim id record keepsId).2.deleteProcessed cutoff).2) ∧
      ((t.mark claim id record keepsId).2.deleteProcessed cutoff).1 =
        (t.deleteProcessed cutoff).1 := by
  have hstays : (t.deleteProcessed cutoff).2.row? id = some row :=
    (row?_sweep_of_open hopen).mpr hrow
  by_cases hheld : row.isHeldBy claim
  · have hmark {t : Table} (hrow : t.row? id = some row) : t.mark claim id record keepsId =
        (.ok (), t.mapRowsWhere (fun r => r.id == id) (fun r => ⟨record r.message, none⟩)
          fun r => keepsId r.message) := by
      simp [mark, hrow, hopen, hheld]
    have hsweep := t.sweep_mapRowsWhere cutoff (fun r => r.id == id)
      (fun r => ⟨record r.message, none⟩) (fun r => keepsId r.message) fun r hmem hid => by
        -- ids are distinct, so the row that is changed is the one that is marked
        have hfound : t.row? id = some r := row?_eq_some.mpr ⟨hmem, by simpa using hid⟩
        obtain rfl := Option.some.inj (hrow.symm.trans hfound)
        rw [hkeep, row.outlives_of_open hopen]
    rw [hmark hrow, hmark hstays]
    exact ⟨Prod.ext rfl hsweep.2.symm, hsweep.1⟩
  · have hmark {t : Table} (hrow : t.row? id = some row) :
        t.mark claim id record keepsId = (.error (.claimLost id), t) := by
      simp [mark, hrow, hopen, hheld]
    rw [hmark hrow, hmark hstays]
    exact ⟨rfl, rfl⟩

/-- A sweep and a call that it passes by come to the same in either order: the call is answered the
same, the sweep deletes as many messages, and the table is the same after both. -/
theorem answer_sweep {call : StoreCall} (hpass : call.PassesBy t cutoff) :
    (t.deleteProcessed cutoff).2.answer call =
        ((t.answer call).1, ((t.answer call).2.deleteProcessed cutoff).2) ∧
      ((t.answer call).2.deleteProcessed cutoff).1 = (t.deleteProcessed cutoff).1 := by
  cases call with
  | fetch claim limit now lease =>
      have hbatch := t.fetched_sweep cutoff limit now
      have hsweep := t.sweep_mapRowsWhere cutoff
        (fun r => (t.fetched limit now).any fun m => m.id == r.id)
        (fun r => r.claimFor claim (now.plusOrSelf lease)) (fun _ => rfl) fun _ _ _ => rfl
      refine ⟨Prod.ext (congrArg Except.ok hbatch) (Eq.trans ?_ hsweep.2.symm), hsweep.1⟩
      simp only [← hbatch]
      rfl
  | renew claim ids now lease =>
      have hsweep := t.sweep_mapRowsWhere cutoff
        (fun r => ids.contains r.id && r.isHeldBy claim)
        (fun r => r.extend (now.plusOrSelf lease)) (fun _ => rfl) fun _ _ _ => rfl
      refine ⟨Prod.ext (congrArg Except.ok ?_) hsweep.2.symm, hsweep.1⟩
      exact List.filter_congr fun id _ => t.holds_sweep cutoff id claim
  | release claim ids =>
      have hsweep := t.sweep_mapRowsWhere cutoff
        (fun r => ids.contains r.id && r.isHeldBy claim) Row.unclaim (fun _ => rfl)
        fun _ _ _ => rfl
      exact ⟨Prod.ext rfl hsweep.2.symm, hsweep.1⟩
  | markProcessed claim id time =>
      obtain ⟨⟨row, hrow, hopen⟩, hlate⟩ := hpass
      refine sweep_mark hrow hopen claim (fun m => m.id_markProcessed time) ?_
      simp [Row.outlives, Message.markProcessed_of_open hopen, hlate]
  | markFailed claim id error nextRun =>
      obtain ⟨row, hrow, hopen⟩ := hpass
      refine sweep_mark hrow hopen claim (fun m => m.id_markFailed error nextRun) ?_
      exact Row.outlives_of_open (Message.markFailed_of_open hopen error nextRun).1 cutoff
  | deleteProcessed | get | failing | counts => exact hpass.elim

end Table

/-- The cutoff of a sweep. -/
def StoreCall.cutoff? : StoreCall → Option Instant
  | deleteProcessed cutoff => some cutoff
  | _ => none

def StoreCall.isSweep (call : StoreCall) : Bool := call.cutoff?.isSome

/-- A call, and what it was answered. -/
structure Answered where
  call : StoreCall
  reply : Except Failure call.Reply

def Answered.isSweep (a : Answered) : Bool := a.call.isSweep

@[simp] theorem Answered.isSweep_mk (call : StoreCall) (reply : Except Failure call.Reply) :
    isSweep ⟨call, reply⟩ = call.isSweep := rfl

theorem StoreCall.eq_of_isSweep {call : StoreCall} (hsweep : call.isSweep) :
    ∃ cutoff, call = .deleteProcessed cutoff := by
  cases call with
  | deleteProcessed cutoff => exact ⟨cutoff, rfl⟩
  | fetch | renew | markProcessed | markFailed | release | get | failing | counts => cases hsweep

namespace Table

/-! ### Sweeps in a run of calls -/

/-- What calls are answered that are made one after the other, and the table after them. -/
def answerAll (t : Table) : List StoreCall → List Answered × Table
  | [] => ([], t)
  | call :: calls =>
      let later := (t.answer call).2.answerAll calls
      (⟨call, (t.answer call).1⟩ :: later.1, later.2)

/-- When it is made, each call passes by sweeps with all these cutoffs, or is a sweep itself. -/
def AllPassBy (cutoffs : List Instant) (t : Table) : List StoreCall → Prop
  | [] => True
  | call :: calls => (call.isSweep ∨ ∀ cutoff ∈ cutoffs, call.PassesBy t cutoff) ∧
      AllPassBy cutoffs (t.answer call).2 calls

variable {t : Table} {cutoff : Instant} {cutoffs : List Instant} {calls : List StoreCall}

section Plain

variable (hmem : cutoff ∈ cutoffs) (hplain : ∀ call ∈ calls, call.isSweep = false)

include hmem hplain

theorem allPassBy_sweep :
    (t.deleteProcessed cutoff).2.AllPassBy cutoffs calls ↔ t.AllPassBy cutoffs calls := by
  induction calls generalizing t with
  | nil => exact Iff.rfl
  | cons call calls ih =>
      rw [List.forall_mem_cons] at hplain
      have hcall : (∀ c ∈ cutoffs, call.PassesBy (t.deleteProcessed cutoff).2 c) ↔
          ∀ c ∈ cutoffs, call.PassesBy t c :=
        forall₂_congr fun _ _ => passesBy_sweep call
      simp only [AllPassBy, hplain.1, Bool.false_eq_true, false_or, hcall]
      refine and_congr_right fun hpass => ?_
      rw [(answer_sweep (hpass cutoff hmem)).1]
      exact ih hplain.2

/-- A sweep can be made after calls that pass by it as well as before them. -/
theorem answerAll_sweep (hpass : t.AllPassBy cutoffs calls) :
    (t.deleteProcessed cutoff).2.answerAll calls =
        ((t.answerAll calls).1, ((t.answerAll calls).2.deleteProcessed cutoff).2) ∧
      ((t.answerAll calls).2.deleteProcessed cutoff).1 = (t.deleteProcessed cutoff).1 := by
  induction calls generalizing t with
  | nil => exact ⟨rfl, rfl⟩
  | cons call calls ih =>
      rw [List.forall_mem_cons] at hplain
      simp only [AllPassBy, hplain.1, Bool.false_eq_true, false_or] at hpass
      obtain ⟨hcall, hcalls⟩ := hpass
      obtain ⟨hanswer, hcount⟩ := answer_sweep (hcall cutoff hmem)
      obtain ⟨hlater, hlaterCount⟩ := ih hplain.2 hcalls
      refine ⟨?_, hlaterCount.trans hcount⟩
      simp only [answerAll, hanswer, hlater]

end Plain

/-- It is the other calls that have to pass by the sweeps. -/
theorem allPassBy_filter (hcutoffs : ∀ call ∈ calls, ∀ c ∈ call.cutoff?, c ∈ cutoffs) :
    t.AllPassBy cutoffs (calls.filter (!·.isSweep)) ↔ t.AllPassBy cutoffs calls := by
  induction calls generalizing t with
  | nil => exact Iff.rfl
  | cons call calls ih =>
      rw [List.forall_mem_cons] at hcutoffs
      cases hsweep : call.isSweep with
      | false =>
          rw [List.filter_cons_of_pos (by simp [hsweep])]
          exact and_congr_right fun _ => ih hcutoffs.2
      | true =>
          obtain ⟨c, rfl⟩ := StoreCall.eq_of_isSweep hsweep
          rw [List.filter_cons_of_neg (by simp [hsweep])]
          refine Iff.trans ?_ (and_iff_right (.inl hsweep)).symm
          refine Iff.trans (allPassBy_sweep (hcutoffs.1 c rfl) ?_).symm (ih hcutoffs.2)
          simp

/-- The sweeps of a run may as well be made all at its end. -/
theorem answerAll_sorted (hcutoffs : ∀ call ∈ calls, ∀ c ∈ call.cutoff?, c ∈ cutoffs)
    (hpass : t.AllPassBy cutoffs calls) :
    let own := t.answerAll (calls.filter (!·.isSweep))
    let swept := own.2.answerAll (calls.filter (·.isSweep))
    (t.answerAll calls).1.filter (!·.isSweep) = own.1 ∧
      (t.answerAll calls).1.filter (·.isSweep) = swept.1 ∧ (t.answerAll calls).2 = swept.2 := by
  induction calls generalizing t with
  | nil => exact ⟨rfl, rfl, rfl⟩
  | cons call calls ih =>
      rw [List.forall_mem_cons] at hcutoffs
      obtain ⟨hown, hswept, htable⟩ := ih hcutoffs.2 hpass.2
      cases hsweep : call.isSweep with
      | false => simp [answerAll, hsweep, hown, hswept, htable]
      | true =>
          obtain ⟨c, rfl⟩ := StoreCall.eq_of_isSweep hsweep
          -- the other calls pass by the sweep, so that it can be put behind them
          have hbefore : t.AllPassBy cutoffs (calls.filter (!·.isSweep)) :=
            (allPassBy_sweep (hcutoffs.1 c rfl) (by simp)).mp
              ((allPassBy_filter hcutoffs.2).mpr hpass.2)
          obtain ⟨hlater, hcount⟩ := answerAll_sweep (hcutoffs.1 c rfl) (by simp) hbefore
          simp only [answer, hlater] at hown hswept htable
          simp [answerAll, hsweep, answer, hown, hswept, htable, hcount]

/-- Two sweeps can change places. -/
theorem sweep_sweep (t : Table) (a b : Instant) :
    ((t.deleteProcessed a).2.deleteProcessed b).2 =
      ((t.deleteProcessed b).2.deleteProcessed a).2 := by
  refine eq_of_rows ?_ rfl
  refine (List.filter_filter ..).trans (Eq.trans ?_ (List.filter_filter ..).symm)
  exact List.filter_congr fun r _ => Bool.and_comm _ _

/-- Sweeps among themselves leave the same in any order. -/
theorem answerAll_perm {first second : List StoreCall} (hperm : first.Perm second)
    (hsweeps : ∀ call ∈ first, call.isSweep) : (t.answerAll first).2 = (t.answerAll second).2 := by
  induction hperm generalizing t with
  | nil => rfl
  | cons call _ ih => exact ih fun c hc => hsweeps c (List.mem_cons_of_mem _ hc)
  | swap call other calls =>
      rw [List.forall_mem_cons, List.forall_mem_cons] at hsweeps
      obtain ⟨a, rfl⟩ := StoreCall.eq_of_isSweep hsweeps.1
      obtain ⟨b, rfl⟩ := StoreCall.eq_of_isSweep hsweeps.2.1
      exact congrArg (fun swept => (answerAll swept calls).2) (t.sweep_sweep a b)
  | trans hfirst _ ihfirst ihsecond =>
      rw [ihfirst hsweeps, ihsecond fun c hc => hsweeps c (hfirst.mem_iff.mpr hc)]

/-- A sweep and a fetch, a renewal, a release, a failure recorded for a message that is still to be
delivered or a success recorded for one at the cutoff or later may be exchanged: both are answered
the same, and both orders lead to the same table. So in a run of such calls and of sweeps these may
be made at any other points. The other calls are answered as before and the same table is left. The
sweeps, if they keep their order, delete as many messages as before. -/
theorem sweeps_move_freely (t : Table) :
    (∀ cutoff call, call.PassesBy t cutoff →
      ((t.deleteProcessed cutoff).2.answer call).1 = (t.answer call).1 ∧
        ((t.answer call).2.deleteProcessed cutoff).1 = (t.deleteProcessed cutoff).1 ∧
        ((t.deleteProcessed cutoff).2.answer call).2 =
          ((t.answer call).2.deleteProcessed cutoff).2) ∧
      ∀ calls moved, t.AllPassBy (calls.filterMap StoreCall.cutoff?) calls → moved.Perm calls →
        moved.filter (!·.isSweep) = calls.filter (!·.isSweep) →
        (t.answerAll moved).1.filter (!·.isSweep) = (t.answerAll calls).1.filter (!·.isSweep) ∧
          (t.answerAll moved).2 = (t.answerAll calls).2 ∧
          (moved.filter (·.isSweep) = calls.filter (·.isSweep) →
            (t.answerAll moved).1.filter (·.isSweep) =
              (t.answerAll calls).1.filter (·.isSweep)) := by
  refine ⟨fun cutoff call hpass => ?_, fun calls moved hpass hperm hothers => ?_⟩
  · obtain ⟨hanswer, hcount⟩ := answer_sweep hpass
    rw [hanswer]
    exact ⟨rfl, hcount, rfl⟩
  · have hcutoffs : ∀ call ∈ calls, ∀ c ∈ call.cutoff?, c ∈ calls.filterMap StoreCall.cutoff? :=
      fun call hcall c hc => List.mem_filterMap.mpr ⟨call, hcall, hc⟩
    have hcutoffs' : ∀ call ∈ moved, ∀ c ∈ call.cutoff?, c ∈ calls.filterMap StoreCall.cutoff? :=
      fun call hcall => hcutoffs call (hperm.mem_iff.mp hcall)
    have hpass' : t.AllPassBy (calls.filterMap StoreCall.cutoff?) moved := by
      rw [← allPassBy_filter hcutoffs', hothers]
      exact (allPassBy_filter hcutoffs).mpr hpass
    obtain ⟨hown, hswept, htable⟩ := answerAll_sorted hcutoffs hpass
    obtain ⟨hown', hswept', htable'⟩ := answerAll_sorted hcutoffs' hpass'
    rw [hothers] at hown' hswept' htable'
    refine ⟨hown'.trans hown.symm, ?_, fun hsame => ?_⟩
    · rw [htable', htable]
      exact answerAll_perm (hperm.filter _) (by simp)
    · rw [hswept', hswept, hsame]

/-- One message was processed as 1970 began, another one is to be delivered. -/
def halfway : Table where
  rows := [⟨(Message.numbered 1 "order" .epoch).markProcessed .epoch, none⟩,
    ⟨.numbered 2 "order" .epoch, none⟩]
  entities := []
  distinctIds := by decide

/-- The second message is delivered a second later, and the sweep deletes what is older. -/
def sweptLast : List StoreCall :=
  let claim := ClaimToken.numbered 1
  [.fetch claim 5 .epoch (.ofSeconds 1),
    .markProcessed claim (Message.numbered 2 "order" .epoch).id (.numbered 1),
    .deleteProcessed (.numbered 1)]

/-- The same with the sweep in between. -/
def sweptBetween : List StoreCall :=
  let claim := ClaimToken.numbered 1
  [.fetch claim 5 .epoch (.ofSeconds 1), .deleteProcessed (.numbered 1),
    .markProcessed claim (Message.numbered 2 "order" .epoch).id (.numbered 1)]

/-- The sweep can come before the delivery is recorded or after it. It deletes the first message,
and not the second. -/
theorem sweep_moves_past_success :
    halfway.AllPassBy (sweptLast.filterMap StoreCall.cutoff?) sweptLast ∧
      sweptBetween.Perm sweptLast ∧
      (halfway.answerAll sweptBetween).2 = (halfway.answerAll sweptLast).2 ∧
      (halfway.answerAll sweptLast).2.rows =
        [⟨(Message.numbered 2 "order" .epoch).markProcessed (.numbered 1), none⟩] := by
  have hpass : halfway.AllPassBy (sweptLast.filterMap StoreCall.cutoff?) sweptLast := by
    refine ⟨.inr fun _ _ => trivial, .inr fun cutoff hcutoff => ?_, .inl rfl, trivial⟩
    obtain rfl : .numbered 1 = cutoff := by simpa [sweptLast, StoreCall.cutoff?] using hcutoff
    exact ⟨⟨⟨.numbered 2 "order" .epoch, some ⟨.numbered 1, .numbered 1⟩⟩, by decide +kernel, rfl⟩,
      Instant.le_refl _⟩
  have hperm : sweptBetween.Perm sweptLast := by decide +kernel
  obtain ⟨_, htable, _⟩ := (sweeps_move_freely halfway).2 _ _ hpass hperm (by decide +kernel)
  exact ⟨hpass, hperm, htable, by decide +kernel⟩

end Table

end Outbox
