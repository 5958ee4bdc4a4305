import Outbox.Config
import Outbox.Proofs.Reach
import Outbox.Proofs.Snapshots

/-! # How long failed messages wait

A failure puts the message off by the delay of the policy, provided there is an instant at which the
delay is over. Otherwise the schedule stays as it is, and after the longest delay a message is due
earlier than after a short one.
-/

namespace Outbox

theorem Instant.rank_max (a b : Instant) : (max a b).rank = max a.rank b.rank := by
  rw [show max a b = if a ≤ b then b else a from rfl]
  split
  next hle => exact (Int.max_eq_right hle).symm
  next hnot => exact (Int.max_eq_left (Int.le_of_lt (Instant.not_le.mp hnot))).symm

/-- With a backoff the next run is at the sum of the time and the delay, if there is such an
instant. -/
theorem RetryPolicy.nextRunAt_of_backoff {policy : RetryPolicy}
    (hbackoff : policy.isImmediate = false) (count : UInt32) (now : Instant) :
    policy.nextRunAt count now = now.plus? (policy.nextDelay count) :=
  if_neg (Bool.eq_false_iff.mp hbackoff)

namespace Message

/-- The message after an attempt that failed at this time. -/
def failAt (m : Message) (policy : RetryPolicy) (error : String) (now : Instant) : Message :=
  m.markFailed error (policy.nextRunAt (incrementCapped m.retryCount) now)

/-- The message is not due at any instant before this place in the order of instants. -/
def WaitsUntil (m : Message) (place : Int) : Prop :=
  ∀ time : Instant, time.rank < place → m.isDue time = false

/-- Whenever the message is due, the other one is as well. -/
def WaitsFor (m other : Message) : Prop := ∀ time, m.isDue time → other.isDue time

variable {m other : Message} {policy longer : RetryPolicy} {error : String} {now : Instant}

theorem isDue_iff_rank (hopen : m.isProcessed = false) (time : Instant) :
    m.isDue time ↔ m.scheduledAt.rank ≤ time.rank := by
  rw [isDue, hopen, Bool.not_false, Bool.true_and, decide_eq_true_iff]
  exact Instant.le_iff

/-- An open message waits until the place that its schedule has in the order. -/
theorem waitsUntil_iff (hopen : m.isProcessed = false) (place : Int) :
    m.WaitsUntil place ↔ place ≤ m.scheduledAt.rank := by
  constructor
  · intro hwaits
    by_contra hnot
    have hnever := hwaits m.scheduledAt (by omega)
    rw [(isDue_iff_rank hopen m.scheduledAt).mpr (Int.le_refl _)] at hnever
    cases hnever
  · intro hplace time hbefore
    rw [Bool.eq_false_iff, Ne, isDue_iff_rank hopen]
    omega

theorem waitsFor_iff (hopen : m.isProcessed = false) (hother : other.isProcessed = false) :
    m.WaitsFor other ↔ other.scheduledAt.rank ≤ m.scheduledAt.rank := by
  constructor
  · intro hwaits
    have hdue := hwaits m.scheduledAt ((isDue_iff_rank hopen _).mpr (Int.le_refl _))
    exact (isDue_iff_rank hother _).mp hdue
  · intro hle time hdue
    rw [isDue_iff_rank hopen] at hdue
    rw [isDue_iff_rank hother]
    omega

theorem isProcessed_failAt (hopen : m.isProcessed = false) (policy : RetryPolicy) (error : String)
    (now : Instant) : (m.failAt policy error now).isProcessed = false :=
  (markFailed_of_open hopen error _).1

/-- The schedule moves to the end of the delay, unless that is earlier. -/
theorem rank_scheduledAt_failAt (hopen : m.isProcessed = false)
    (hbackoff : policy.isImmediate = false)
    (hreaches : now.Reaches (policy.nextDelay (incrementCapped m.retryCount))) :
    (m.failAt policy error now).scheduledAt.rank =
      max m.scheduledAt.rank (now.rankAfter (policy.nextDelay (incrementCapped m.retryCount))) := by
  obtain ⟨sum, hsum, hrank⟩ := Instant.plus?_of_reaches hreaches
  rw [failAt, markFailed_eq hopen, RetryPolicy.nextRunAt_of_backoff hbackoff, hsum, ← hrank]
  exact Instant.rank_max _ _

/-- A delay beyond the last instant leaves the schedule as it was. -/
theorem scheduledAt_failAt_of_not_reaches (hopen : m.isProcessed = false)
    (hbackoff : policy.isImmediate = false)
    (hnot : ¬ now.Reaches (policy.nextDelay (incrementCapped m.retryCount))) :
    (m.failAt policy error now).scheduledAt = m.scheduledAt := by
  rw [failAt, markFailed_eq hopen, RetryPolicy.nextRunAt_of_backoff hbackoff,
    Instant.plus?_of_not_reaches hnot]

variable {delay longerDelay : Duration}

/-- The delay is waited for in full just if there is an instant at which it is over. -/
theorem waitsUntil_failAt_iff (hopen : m.isProcessed = false)
    (hbackoff : policy.isImmediate = false)
    (hdelay : policy.nextDelay (incrementCapped m.retryCount) = delay) :
    (m.failAt policy error now).WaitsUntil (now.rankAfter delay) ↔ now.Reaches delay := by
  subst hdelay
  rw [waitsUntil_iff (isProcessed_failAt hopen policy error now)]
  by_cases hreaches : now.Reaches (policy.nextDelay (incrementCapped m.retryCount))
  · rw [rank_scheduledAt_failAt hopen hbackoff hreaches]
    exact iff_of_true (Int.le_max_right ..) hreaches
  · rw [scheduledAt_failAt_of_not_reaches hopen hbackoff hreaches]
    have hbefore := Instant.rank_lt_rankAfter_of_not_reaches hreaches m.scheduledAt
    exact iff_of_false (by omega) hreaches

/-- After the longer of two delays the message is due no earlier, unless it is only the shorter one
that puts it off. -/
theorem waitsFor_failAt_iff (hopen : m.isProcessed = false)
    (hbackoff : policy.isImmediate = false) (hlonger : longer.isImmediate = false)
    (hdelay : policy.nextDelay (incrementCapped m.retryCount) = delay)
    (hlongerDelay : longer.nextDelay (incrementCapped m.retryCount) = longerDelay)
    (hle : delay ≤ longerDelay) :
    (m.failAt longer error now).WaitsFor (m.failAt policy error now) ↔
      now.Reaches longerDelay ∨ ¬ now.Reaches delay ∨ now.rankAfter delay ≤ m.scheduledAt.rank := by
  subst hdelay hlongerDelay
  rw [waitsFor_iff (isProcessed_failAt hopen ..) (isProcessed_failAt hopen ..)]
  have hsums := Instant.rankAfter_le (i := now) hle
  by_cases hfar : now.Reaches (longer.nextDelay (incrementCapped m.retryCount))
  · rw [rank_scheduledAt_failAt hopen hlonger hfar,
      rank_scheduledAt_failAt hopen hbackoff (hfar.of_le hle)]
    exact iff_of_true (by omega) (.inl hfar)
  · rw [scheduledAt_failAt_of_not_reaches hopen hlonger hfar]
    by_cases hnear : now.Reaches (policy.nextDelay (incrementCapped m.retryCount))
    · rw [rank_scheduledAt_failAt hopen hbackoff hnear]
      simp only [hfar, hnear, not_true_eq_false, false_or]
      omega
    · rw [scheduledAt_failAt_of_not_reaches hopen hbackoff hnear]
      exact iff_of_true (Int.le_refl _) (.inr (.inl hnear))

end Message

/-- A failure is recorded in one phase only, and with the next run that the policy gives for one
more failure than the message had. -/
theorem Processor.Phase.Asks.eq_recording {p : Processor} {claim c : ClaimToken} {φ : Phase}
    {id : MessageId} {error : String} {nextRun : Option Instant}
    {next : Except Failure Unit → Phase}
    (hasks : Asks p claim φ (.store (.markFailed c id error nextRun)) next) :
    ∃ m rest held report failure now, φ = .recording m rest held report (.error failure) now ∧
      m.id = id ∧ nextRun = p.retryPolicy.nextRunAt (incrementCapped m.retryCount) now := by
  cases hasks
  exact ⟨_, _, _, _, _, _, rfl, rfl, rfl⟩

namespace Run

open Processor Phase

variable {r : Run} {n : Nat} {claim : ClaimToken} {id : MessageId}

/-- What the cycle has in hand matches the rows that it holds, and the time that it acts on it has
read after all its calls so far. -/
theorem exists_phase_in_keeping (hown : r.IsOwn claim) {w : Worker}
    (hw : (r.state n).workers claim = some w) :
    ∃ φ, w.At claim φ ∧ (∀ m ∈ φ.inHand, r.Matches n claim m) ∧
      ∀ now, φ.time? = some now → r.HasRead n claim now := by
  refine forall_phase_at (P := fun n φ => (∀ m ∈ φ.inHand, r.Matches n claim m) ∧
    ∀ now, φ.time? = some now → r.HasRead n claim now) ?_ ?_ ?_ hw
  · intro n _
    refine ⟨fun m hm => ?_, fun now htime => ?_⟩
    · cases hm
    · cases htime
  · rintro n w φ hw hφ hcall ⟨hmatches, hread⟩
    exact ⟨fun m hm => (hmatches m hm).succ_of_inHand hown hw hφ hm,
      fun now htime => (hread now htime).succ hcall⟩
  · rintro n p φ q next answer hasks hw _ hanswer ⟨hmatches, _⟩
    refine ⟨fun m hm => ?_, fun now htime => hasRead_of_answer hasks hanswer htime⟩
    rcases inHand_or_hands_of_answer hasks hw hanswer hm with hm | hnew
    · exact (hmatches m hm).succ_of_inHand hown hw rfl hm
    · exact hnew.matches

/-- A failure that a cycle records finds in the row the message as the cycle fetched it, and is
recorded with a time that the cycle has read after all its calls so far. -/
theorem failure_of_records (hown : r.IsOwn claim) (hrecords : r.Records n claim id)
    {error : String} {nextRun : Option Instant}
    (hfailed : r.Calls n (.markFailed claim id error nextRun)) {w : Worker}
    (hw : (r.state n).workers claim = some w) :
    ∃ m lease now, r.HasRead n claim now ∧ m.isProcessed = false ∧
      (r.table n).row? id = some ⟨m, some lease⟩ ∧
      (r.table (n + 1)).row? id = some ⟨m.failAt w.processor.retryPolicy error now, none⟩ := by
  obtain ⟨hmarks, hholder⟩ := records_iff.mp hrecords
  obtain ⟨w', call, _, hw', _, hrequest, hcalls, _⟩ := hown.call_of_marks hmarks
  obtain rfl := Option.some.inj (hw.symm.trans hw')
  obtain rfl := hcalls.unique hfailed
  obtain ⟨φ, hφ, hmatches, hread⟩ := exists_phase_in_keeping hown hw
  rw [hφ] at hrequest
  obtain ⟨next, hasks⟩ := asks_of_request? hrequest
  obtain ⟨m, rest, held, report, failure, now, rfl, rfl, rfl⟩ := hasks.eq_recording
  obtain ⟨row, hrow, hheld⟩ := Table.holder?_eq_some.mp hholder
  obtain rfl := (hmatches m List.mem_cons_self).held row hrow hheld
  obtain ⟨hopen, lease, hlease, _⟩ := Row.isHeldBy_iff.mp hheld
  refine ⟨row.message, lease, now, hread now rfl, hopen, hlease ▸ hrow, ?_⟩
  rw [Calls.table hcalls]
  exact Table.row?_mark_of_held hrow hheld ..

/-- A failure that a cycle records is counted, and puts the message off. It is not due until the
delay for that count has passed since the time that the cycle has read for the record, just if there
is an instant at which it has; otherwise the schedule stays as it is. By a policy with a longer
delay the message would be due no earlier, unless it is only the shorter one that puts it off. -/
theorem failures_wait_as_far_as_instants_go (hown : r.IsOwn claim)
    (hrecords : r.Records n claim id) {error : String} {nextRun : Option Instant}
    (hfailed : r.Calls n (.markFailed claim id error nextRun)) {w : Worker}
    (hw : (r.state n).workers claim = some w)
    (hbackoff : w.processor.retryPolicy.isImmediate = false) :
    ∃ m lease now after,
      let policy := w.processor.retryPolicy
      let delay := policy.nextDelay after.retryCount
      r.HasRead n claim now ∧ (r.table n).row? id = some ⟨m, some lease⟩ ∧
      (r.table (n + 1)).row? id = some ⟨after, none⟩ ∧
      after = m.failAt policy error now ∧ after.retryCount = incrementCapped m.retryCount ∧
      (after.WaitsUntil (now.rankAfter delay) ↔ now.Reaches delay) ∧
      (¬ now.Reaches delay → after.scheduledAt = m.scheduledAt) ∧
      ∀ longer : RetryPolicy, longer.isImmediate = false →
        delay ≤ longer.nextDelay after.retryCount →
        ((m.failAt longer error now).WaitsFor after ↔
          now.Reaches (longer.nextDelay after.retryCount) ∨ ¬ now.Reaches delay ∨
            now.rankAfter delay ≤ m.scheduledAt.rank) := by
  obtain ⟨m, lease, now, hread, hopen, hrow, hafter⟩ :=
    failure_of_records hown hrecords hfailed hw
  have hcount : (m.failAt w.processor.retryPolicy error now).retryCount =
      incrementCapped m.retryCount := (Message.markFailed_of_open hopen error _).2
  refine ⟨m, lease, now, _, hread, hrow, hafter, rfl, hcount, ?_⟩
  rw [hcount]
  refine ⟨Message.waitsUntil_failAt_iff hopen hbackoff rfl, fun hnot => ?_,
    fun longer hlonger hle => ?_⟩
  · exact Message.scheduledAt_failAt_of_not_reaches hopen hbackoff hnot
  · exact Message.waitsFor_failAt_iff hopen hbackoff hlonger rfl rfl hle

/-- The longest delay that a configuration can ask for. -/
def longestDelay (key : String) : Option String :=
  if key = "OUTBOX_RETRY_BASE_MS" then some "18446744073709551615" else none

def longestBackoff : RetryPolicy := Config.policyOf 18446744073709551615 2.0 300000

def failsOnceMessage : Message := .numbered 1 "order" .epoch

/-- The message is fetched by a processor with this backoff, and its dispatch fails. -/
def failsOnce : List Event :=
  let claim := ClaimToken.numbered 1
  [.commit (.single failsOnceMessage), .begin claim ⟨longestBackoff, 1, .ofSeconds 5, .ofSeconds 3⟩,
    .time claim .epoch, .store claim .served, .stopFlag claim false,
    .time claim .epoch, .store claim .served,
    .delivery claim (.error (.unavailable "down")), .time claim (.numbered 1),
    .store claim .served]

def failsOnceRun : Run := ofScript .empty failsOnce (by decide +kernel)

theorem failsOnceRun_isOwn : failsOnceRun.IsOwn (.numbered 1) :=
  isOwn_ofScript (by decide +kernel)

/-- After a failure the message should wait for five hundred million years. It is due at once. -/
theorem longestBackoff_waits_for_nothing :
    (Config.ofLookup longestDelay).toOption.map (·.retryPolicy) = some longestBackoff ∧
      longestBackoff.isImmediate = false ∧ failsOnceRun.IsOwn (.numbered 1) ∧
      failsOnceRun.Records 9 (.numbered 1) failsOnceMessage.id ∧
      ∃ now after, failsOnceRun.HasRead 9 (.numbered 1) now ∧
        (failsOnceRun.table 10).row? failsOnceMessage.id = some ⟨after, none⟩ ∧
        after.retryCount = 1 ∧ after.scheduledAt = failsOnceMessage.scheduledAt := by
  have hrequest : (failsOnceRun.state 9).request? (.numbered 1) = some (.store (.markFailed
      (.numbered 1) failsOnceMessage.id "store unavailable: down" none)) := by decide +kernel
  have hpolicy : ((failsOnceRun.state 9).workers (.numbered 1)).map (fun w =>
      (w.processor.retryPolicy.isImmediate, w.processor.retryPolicy.nextDelay 1)) =
        some (false, .ofMillis 18446744073709551615) := by decide +kernel
  have hbefore : ((failsOnceRun.table 9).row? failsOnceMessage.id).map Row.message =
      some failsOnceMessage := by decide +kernel
  have hchanges : (failsOnceRun.table 10).row? failsOnceMessage.id ≠
      (failsOnceRun.table 9).row? failsOnceMessage.id := by decide +kernel
  have hfailed := (failsOnceRun.move 9).calls_of_request rfl hrequest
  have hrecords : failsOnceRun.Records 9 (.numbered 1) failsOnceMessage.id :=
    ⟨.inr ⟨_, _, hfailed⟩, hchanges⟩
  obtain ⟨w, hw, _⟩ := Fleet.request?_eq_some.mp hrequest
  rw [hw, Option.map_some, Option.some.injEq, Prod.mk.injEq] at hpolicy
  obtain ⟨m, lease, now, after, hread, hrow, hafter, _, hcount, _, hvain, _⟩ :=
    failures_wait_as_far_as_instants_go failsOnceRun_isOwn hrecords hfailed hw hpolicy.1
  rw [hrow] at hbefore
  obtain rfl : m = failsOnceMessage := Option.some.inj hbefore
  have hfirst : after.retryCount = 1 := hcount.trans (by decide)
  refine ⟨rfl, by decide, failsOnceRun_isOwn, hrecords, now, after, hread, hafter, hfirst,
    hvain ?_⟩
  rw [hfirst, hpolicy.2]
  exact Instant.not_reaches_of_long now (by decide)

end Run

end Outbox
