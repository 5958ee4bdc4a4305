import Outbox.Proofs.Solo
import Outbox.Proofs.Scripts

/-! # What a cycle makes of its batch

The consumers are those of a registry, and the clock stands still. Each message of the batch is
handed to all consumers of its tag, one after the other. If none of them fails, the message is
processed; otherwise it is kept for another attempt, with the complaints of those that failed. No
claim is left, and the report counts what became of the messages.
-/

namespace Outbox

/-- A consumer that remembers: what a call comes to may depend on all calls before it. -/
abbrev StatefulConsumer (σ : Type) := Consumer (MessageType → StateM σ CallOutcome)

/-- Calls the consumer. Content that it cannot take fails the call. -/
def StatefulConsumer.call {σ : Type} (k : StatefulConsumer σ) (tag : MessageType)
    (content : String) : StateM σ CallOutcome :=
  match k.consume tag content with
  | .ok work => work tag
  | .error failure => pure (.failed failure)

def CallOutcome.isSuccess : CallOutcome → Bool
  | succeeded => true
  | failed _ | panicked _ | ended _ => false

/-- A message, and what the calls of its consumers came to. -/
structure Attendance where
  message : Message
  calls : List (String × CallOutcome)

namespace Attendance

def isClean (a : Attendance) : Bool := a.calls.all fun call => call.2.isSuccess

def attempt (a : Attendance) : Attempt :=
  if a.calls.isEmpty then .unhandled else if a.isClean then .delivered else .failed

def delivery (a : Attendance) (time : Instant) : Delivery :=
  ⟨a.message, Dispatch.verdict a.message.tag a.calls, time⟩

end Attendance

namespace Registry

variable {σ : Type} (registry : Registry (StatefulConsumer σ))

/-- Hands a message to the consumers of its tag. -/
def attend (m : Message) : StateM σ Attendance := do
  let calls ← (registry.consumersFor m.tag).mapM fun k => do
    return (k.name, ← k.call m.tag m.content)
  return ⟨m, calls⟩

def attendAll : List Message → σ → List Attendance
  | [], _ => []
  | m :: rest, s => (registry.attend m s).1 :: attendAll rest (registry.attend m s).2

/-- The consumers of a registry, and a clock that stands still. There may be any number of
heartbeats in the course of a dispatch. -/
def surroundings (now : Instant) (beats : Message → σ → Nat) : Surroundings σ where
  read s := (now, s)
  deliver m s :=
    let dispatched := registry.dispatch StatefulConsumer.call m.tag m.content s
    ((dispatched.1, List.replicate (beats m s) now), dispatched.2)

theorem delivery_surroundings (now : Instant) (beats : Message → σ → Nat) (m : Message) (s : σ) :
    (registry.surroundings now beats).delivery m s =
      ((registry.attend m s).1.delivery now, (registry.attend m s).2) := rfl

theorem deliveries_surroundings (now : Instant) (beats : Message → σ → Nat)
    (batch : List Message) (s : σ) :
    (registry.surroundings now beats).deliveries batch s =
      (registry.attendAll batch s).map fun a => a.delivery now := by
  induction batch generalizing s with
  | nil => rfl
  | cons m rest ih =>
      simp only [Surroundings.deliveries, attendAll, List.map_cons, delivery_surroundings, ih]

theorem map_message_attendAll (batch : List Message) (s : σ) :
    (registry.attendAll batch s).map Attendance.message = batch := by
  induction batch generalizing s with
  | nil => rfl
  | cons m rest ih => exact congrArg (m :: ·) (ih _)

/-- Consumers are called one after the other, each of them once. -/
theorem names_mapM (ks : List (StatefulConsumer σ)) (tag : MessageType) (content : String)
    (s : σ) :
    ((ks.mapM fun k => (do return (k.name, ← k.call tag content) :
      StateM σ (String × CallOutcome))) s).1.map Prod.fst = ks.map Consumer.name := by
  induction ks generalizing s with
  | nil => rfl
  | cons k ks ih =>
      rw [List.mapM_cons, List.map_cons, ← ih (k.call tag content s).2]
      rfl

/-- All consumers of the tag are called, in the order of their registration. -/
theorem names_of_mem_attendAll {batch : List Message} {s : σ} {a : Attendance}
    (hmem : a ∈ registry.attendAll batch s) :
    a.calls.map Prod.fst = (registry.consumersFor a.message.tag).map Consumer.name := by
  induction batch generalizing s with
  | nil => cases hmem
  | cons m rest ih =>
      rcases List.mem_cons.mp hmem with rfl | hmem
      · exact names_mapM _ m.tag m.content s
      · exact ih hmem

end Registry

namespace Attendance

theorem complaints_isEmpty (a : Attendance) :
    (Dispatch.complaints a.calls).isEmpty = a.isClean := by
  rw [isClean, Dispatch.complaints]
  induction a.calls with
  | nil => rfl
  | cons call calls ih =>
      rw [List.all_cons, ← ih]
      obtain ⟨name, outcome⟩ := call
      cases outcome <;> rfl

/-- A dispatch either counts as the attempt does, or fails with all complaints. -/
theorem verdict_cases (a : Attendance) :
    (a.isClean ∧ ∃ outcome, Dispatch.verdict a.message.tag a.calls = .ok outcome ∧
      outcome.attempt = a.attempt) ∨
    (a.isClean = false ∧ a.attempt = .failed ∧ Dispatch.verdict a.message.tag a.calls =
      .error (.dispatch a.message.tag ("; ".intercalate (Dispatch.complaints a.calls)))) := by
  rw [Dispatch.verdict, complaints_isEmpty, attempt]
  by_cases hcalls : a.calls = []
  · have hclean : a.isClean := by rw [isClean, hcalls]; rfl
    exact .inl ⟨hclean, .unhandled, by simp [hcalls], by simp [hcalls]; rfl⟩
  · have hsome : ¬ a.calls.isEmpty := by simpa using hcalls
    rw [if_neg hsome, if_neg hsome]
    cases hclean : a.isClean with
    | true => exact .inl ⟨rfl, .delivered a.calls.length, rfl, rfl⟩
    | false => exact .inr ⟨rfl, rfl, rfl⟩

theorem attempt_delivery (a : Attendance) (time : Instant) :
    (a.delivery time).attempt = a.attempt := by
  rcases a.verdict_cases with ⟨_, outcome, hverdict, hattempt⟩ | ⟨_, hattempt, hverdict⟩
  · simp only [Delivery.attempt, delivery, hverdict, hattempt]
  · simp only [Delivery.attempt, delivery, hverdict, hattempt]

/-- A message that nobody complained about is recorded as processed at that time. -/
theorem recorded_of_isClean {a : Attendance} (hclean : a.isClean)
    (hopen : a.message.isProcessed = false) (policy : RetryPolicy) (time : Instant) :
    (a.delivery time).recorded policy =
      { a.message with processedAt := some time, error := none } := by
  rcases a.verdict_cases with ⟨_, outcome, hverdict, _⟩ | ⟨hfailed, _⟩
  · simp only [Delivery.recorded, delivery, hverdict]
    rw [Message.markProcessed, if_neg (by simp [hopen])]
  · rw [hclean] at hfailed
    cases hfailed

/-- A message that somebody complained about is recorded as failed once more, and the policy says
when it is due again. -/
theorem recorded_of_not_isClean {a : Attendance} (hfailed : a.isClean = false)
    (hopen : a.message.isProcessed = false) (policy : RetryPolicy) (time : Instant) :
    (a.delivery time).recorded policy =
      { a.message with
        retryCount := incrementCapped a.message.retryCount
        error := some ("dispatch failed for message_type=" ++ a.message.tag.tag ++ ": " ++
          "; ".intercalate (Dispatch.complaints a.calls))
        scheduledAt := match policy.nextRunAt (incrementCapped a.message.retryCount) time with
          | some next => max a.message.scheduledAt next
          | none => a.message.scheduledAt } := by
  rcases a.verdict_cases with ⟨hclean, _⟩ | ⟨_, _, hverdict⟩
  · rw [hfailed] at hclean
    cases hclean
  · simp only [Delivery.recorded, delivery, hverdict]
    unfold Message.markFailed
    rw [if_neg (by simp [hopen])]
    rfl

end Attendance

/-- Each count of a report grows by the attempts that came to it. -/
theorem BatchReport.foldl_add (attempts : List Attempt) (report : BatchReport) :
    attempts.foldl BatchReport.add report =
      { report with
        processed := report.processed + attempts.count .delivered
        unhandled := report.unhandled + attempts.count .unhandled
        failed := report.failed + attempts.count .failed
        lost := report.lost + attempts.count .lost } := by
  induction attempts generalizing report with
  | nil => rfl
  | cons attempt attempts ih =>
      rw [List.foldl_cons, ih]
      cases attempt <;> simp [BatchReport.add, Nat.add_assoc, Nat.add_comm 1]

namespace Attendance

theorem attempt_eq_unhandled (a : Attendance) :
    decide (a.attempt = .unhandled) = a.calls.isEmpty := by
  unfold attempt
  cases a.calls.isEmpty <;> cases a.isClean <;> rfl

theorem attempt_eq_delivered (a : Attendance) :
    decide (a.attempt = .delivered) = (!a.calls.isEmpty && a.isClean) := by
  unfold attempt
  cases a.calls.isEmpty <;> cases a.isClean <;> rfl

theorem attempt_eq_failed (a : Attendance) : decide (a.attempt = .failed) = !a.isClean := by
  cases hcalls : a.calls with
  | nil => simp [attempt, isClean, hcalls]
  | cons call calls =>
      unfold attempt
      rw [hcalls, List.isEmpty_cons]
      cases a.isClean <;> rfl

theorem attempt_eq_lost (a : Attendance) : decide (a.attempt = .lost) = false := by
  unfold attempt
  cases a.calls.isEmpty <;> cases a.isClean <;> rfl

theorem count_attempt (as : List Attendance) (attempt : Attempt) :
    (as.map Attendance.attempt).count attempt = as.countP fun a => a.attempt = attempt := by
  rw [List.count, List.countP_map]
  rfl

/-- The counts of the whole batch, read off the calls. -/
theorem foldl_report (as : List Attendance) (fetched : Nat) :
    (as.map Attendance.attempt).foldl BatchReport.add { fetched := fetched } = {
      fetched := fetched
      processed := as.countP fun a => !a.calls.isEmpty && a.isClean
      unhandled := as.countP fun a => a.calls.isEmpty
      failed := as.countP fun a => !a.isClean
      released := 0
      lost := 0 } := by
  rw [BatchReport.foldl_add]
  simp only [count_attempt, attempt_eq_unhandled, attempt_eq_delivered, attempt_eq_failed,
    attempt_eq_lost, List.countP_false, Function.const_apply, Nat.zero_add]

end Attendance

namespace Table

theorem entities_mark (t : Table) (claim : ClaimToken) (id : MessageId)
    (record : Message → Message) (keepsId : ∀ m, (record m).id = m.id) :
    (t.mark claim id record keepsId).2.entities = t.entities := by
  unfold mark
  split
  · rfl
  · split
    · rfl
    · split <;> rfl

theorem entities_answer (t : Table) (call : StoreCall) :
    (t.answer call).2.entities = t.entities := by
  cases call with
  | markProcessed claim id time => exact t.entities_mark claim id _ _
  | markFailed claim id error nextRun => exact t.entities_mark claim id _ _
  | fetch | renew | release | deleteProcessed | get | failing | counts => rfl

theorem entities_keepUp (t : Table) (h : Heartbeat) (beats : List Instant) :
    (h.keepUp t beats).entities = t.entities := by
  induction beats generalizing t with
  | nil => rfl
  | cons now beats ih => exact (ih _).trans (t.entities_answer (h.renewal now))

end Table

/-- Routines have no call that writes entities. -/
theorem Surroundings.entities_run {σ α : Type} (world : Surroundings σ) (routine : Routine α)
    (s : Scene σ) : (routine.run world.answer s).2.table.entities = s.table.entities := by
  induction routine generalizing s with
  | done a => rfl
  | ask q resume ih =>
      refine (ih (world.answer q s).1 (world.answer q s).2).trans ?_
      cases q with
      | store call => exact s.table.entities_answer call
      | dispatch message heartbeat => exact s.table.entities_keepUp heartbeat _
      | now | stopRequested => rfl

namespace Registry

variable {σ : Type} (registry : Registry (StatefulConsumer σ))

/-- A cycle that nobody interferes with takes as many of the claimable messages as its batch has
room for, in the order of delivery, and hands each to all consumers of its tag. The row of a message
without a failed call, also of one without any call, is marked processed. The row of any other
message has one more retry, all complaints as its error, and the schedule that the policy gives it,
unless it has a later one. None of these rows is claimed any more. All other rows and the entities
are as they were, and the report counts the messages of each kind. -/
theorem cycle_settles_batch (now : Instant) (beats : Message → σ → Nat) (p : Processor)
    (claim : ClaimToken) (t : Table) (s : σ) :
    let batch := (t.claimable now).take p.batchSize
    let attended := registry.attendAll batch s
    let done := (registry.surroundings now beats).cycle p claim ⟨t, s, []⟩
    (t.claimable now).Perm ((t.rows.filter (·.isClaimable now)).map Row.message) ∧
      (t.claimable now).Pairwise (fun a b => a.scheduledBefore b) ∧
      attended.map Attendance.message = batch ∧
      (∀ a ∈ attended,
        a.calls.map Prod.fst = (registry.consumersFor a.message.tag).map Consumer.name) ∧
      done.1 = .ok {
        fetched := batch.length
        processed := attended.countP fun a => !a.calls.isEmpty && a.isClean
        unhandled := attended.countP fun a => a.calls.isEmpty
        failed := attended.countP fun a => !a.isClean
        released := 0
        lost := 0 } ∧
      (∀ a ∈ attended,
        (a.isClean → done.2.table.row? a.message.id = some
          ⟨{ a.message with processedAt := some now, error := none }, none⟩) ∧
        (a.isClean = false → done.2.table.row? a.message.id = some
          ⟨{ a.message with
            retryCount := incrementCapped a.message.retryCount
            error := some ("dispatch failed for message_type=" ++ a.message.tag.tag ++ ": " ++
              "; ".intercalate (Dispatch.complaints a.calls))
            scheduledAt :=
              match p.retryPolicy.nextRunAt (incrementCapped a.message.retryCount) now with
              | some next => max a.message.scheduledAt next
              | none => a.message.scheduledAt }, none⟩)) ∧
      (∀ id, id ∉ batch.map Message.id → done.2.table.row? id = t.row? id) ∧
      done.2.table.entities = t.entities := by
  intro batch attended done
  obtain ⟨hresult, _, hrows, hothers⟩ :=
    (registry.surroundings now beats).cycle_effect p claim ⟨t, s, []⟩
  have hdeliveries : (registry.surroundings now beats).deliveries batch s =
      attended.map fun a => a.delivery now := registry.deliveries_surroundings now beats batch s
  have hmessages := registry.map_message_attendAll batch s
  have hopen : ∀ a ∈ attended, a.message.isProcessed = false := by
    intro a ha
    have hbatch : a.message ∈ batch := hmessages ▸ List.mem_map_of_mem ha
    obtain ⟨row, _, hmessage, hclaimable⟩ := Table.mem_claimable.mp (List.mem_of_mem_take hbatch)
    exact hmessage ▸ (Row.isClaimable_iff.mp hclaimable).1
  have hrow : ∀ a ∈ attended, done.2.table.row? a.message.id =
      some ⟨(a.delivery now).recorded p.retryPolicy, none⟩ := by
    intro a ha
    refine hrows (a.delivery now) ?_
    change a.delivery now ∈ (registry.surroundings now beats).deliveries batch s
    rw [hdeliveries]
    exact List.mem_map_of_mem ha
  refine ⟨List.mergeSort_perm _ _, t.claimable_pairwise now, hmessages, fun a ha => ?_, ?_,
    fun a ha => ⟨fun hclean => ?_, fun hfailed => ?_⟩, hothers, ?_⟩
  · exact registry.names_of_mem_attendAll ha
  · refine hresult.trans (congrArg Except.ok ?_)
    change ((registry.surroundings now beats).deliveries batch s).foldl _ _ = _
    rw [hdeliveries, List.foldl_map]
    simp only [Attendance.attempt_delivery]
    rw [← List.foldl_map]
    exact Attendance.foldl_report attended batch.length
  · rw [hrow a ha, Attendance.recorded_of_isClean hclean (hopen a ha)]
  · rw [hrow a ha, Attendance.recorded_of_not_isClean hfailed (hopen a ha)]
  · exact (registry.surroundings now beats).entities_run _ _

/-- One consumer counts its calls, one cannot take the content, one breaks off. -/
def mixed : Registry (StatefulConsumer Nat) :=
  ⟨[(⟨"order"⟩, ⟨"audit", .raw, fun _ _ calls => (.succeeded, calls + 1)⟩),
    (⟨"order"⟩, ⟨"mail", .typed .flag, fun _ _ calls => (.succeeded, calls)⟩),
    (⟨"order"⟩, ⟨"bill", .raw, fun _ _ calls => (.panicked (some "no funds"), calls)⟩),
    (⟨"note"⟩, ⟨"log", .raw, fun _ _ calls => (.succeeded, calls + 1)⟩)]⟩

def mixedMessages : List Message :=
  [.numbered 1 "order" .epoch, .numbered 2 "note" .epoch, .numbered 3 "spam" .epoch]

def mixedTable : Table := ⟨mixedMessages.map fun m => ⟨m, none⟩, [], by decide⟩

theorem claimable_mixedTable : mixedTable.claimable .epoch = mixedMessages :=
  List.mergeSort_of_pairwise (by decide)

def mixedComplaints : List String :=
  ["mail: payload codec error for message_type=order: " ++
      "invalid type: map, expected a boolean at line 1 column 0",
    "bill: consumer panicked: no funds"]

/-- The first message fails, the second is processed, and nobody handles the third. -/
theorem cycle_settles_mixed_batch :
    let m := Message.numbered 1 "order" .epoch
    let p : Processor := ⟨.immediate, 3, .ofSeconds 5, .ofSeconds 30⟩
    let done := (mixed.surroundings .epoch fun _ calls => calls).cycle p (.numbered 1)
      ⟨mixedTable, 0, []⟩
    done.1 = .ok { fetched := 3, processed := 1, unhandled := 1, failed := 1 } ∧
      done.2.table.row? m.id = some ⟨{ m with
        retryCount := 1
        error := some ("dispatch failed for message_type=order: " ++
          "; ".intercalate mixedComplaints) }, none⟩ := by
  intro m p done
  obtain ⟨_, _, _, _, hresult, hrows, _⟩ :=
    mixed.cycle_settles_batch .epoch (fun _ calls => calls) p (.numbered 1) mixedTable 0
  rw [claimable_mixedTable] at hresult hrows
  have hcounts : BatchReport.mk 3
      ((mixed.attendAll mixedMessages 0).countP fun a => !a.calls.isEmpty && a.isClean)
      ((mixed.attendAll mixedMessages 0).countP fun a => a.calls.isEmpty)
      ((mixed.attendAll mixedMessages 0).countP fun a => !a.isClean) 0 0 =
        { fetched := 3, processed := 1, unhandled := 1, failed := 1 } := by decide +kernel
  have hfirst : ∃ a ∈ mixed.attendAll mixedMessages 0, a.message = m ∧ a.isClean = false ∧
      Dispatch.complaints a.calls = mixedComplaints := by decide +kernel
  obtain ⟨a, ha, hmessage, hfailed, hcomplaints⟩ := hfirst
  have hrow := (hrows a ha).2 hfailed
  rw [hmessage, hcomplaints] at hrow
  exact ⟨hresult.trans (congrArg Except.ok hcounts), hrow⟩

end Registry

end Outbox
