import Outbox.Proofs.Phases
import Outbox.Proofs.Schedule

/-! # A processor on its own

When nobody else is at the table and no stop is requested, a cycle attempts its whole batch. The
clock and the consumers may do what they like: what the clock shows, what a delivery comes to and
how many heartbeats it takes may depend on everything before.
-/

namespace Outbox

/-- What there is besides the store. -/
structure Surroundings (σ : Type) where
  read : σ → Instant × σ
  /-- A delivery comes to an outcome. Meanwhile heartbeats have read the clock. -/
  deliver : Message → σ → (Except Failure DispatchOutcome × List Instant) × σ

structure Scene (σ : Type) where
  table : Table
  outside : σ
  dispatched : List Message

/-- A message that was delivered, what that came to, and when this was recorded. -/
structure Delivery where
  message : Message
  outcome : Except Failure DispatchOutcome
  time : Instant

namespace Delivery

def recorded (d : Delivery) (policy : RetryPolicy) : Message :=
  match d.outcome with
  | .ok _ => d.message.markProcessed d.time
  | .error failure =>
      d.message.markFailed failure.message
        (policy.nextRunAt (incrementCapped d.message.retryCount) d.time)

def attempt (d : Delivery) : Attempt :=
  match d.outcome with
  | .ok outcome => outcome.attempt
  | .error _ => .failed

end Delivery

/-- The table after the renewals at some heartbeats. -/
def Heartbeat.keepUp (h : Heartbeat) (t : Table) (beats : List Instant) : Table :=
  beats.foldl (fun t now => (t.answer (h.renewal now)).2) t

namespace Surroundings

variable {σ : Type} (world : Surroundings σ)

def answer : (q : Request) → StateM (Scene σ) q.Answer
  | .now => fun s => ((world.read s.outside).1, { s with outside := (world.read s.outside).2 })
  | .store call => fun s => ((s.table.answer call).1, { s with table := (s.table.answer call).2 })
  | .stopRequested => fun s => (false, s)
  | .dispatch message heartbeat => fun s =>
      let delivered := world.deliver message s.outside
      (delivered.1.1,
        ⟨heartbeat.keepUp s.table delivered.1.2, delivered.2, s.dispatched ++ [message]⟩)

def cycle (p : Processor) (claim : ClaimToken) (s : Scene σ) :
    Except Failure BatchReport × Scene σ :=
  (p.cycle claim).run world.answer s

/-- Cycle after cycle, each under its own claim. -/
def afterCycles (p : Processor) (claims : Nat → ClaimToken) (s : Scene σ) : Nat → Scene σ
  | 0 => s
  | k + 1 => (world.cycle p (claims k) (afterCycles p claims s k)).2

/-- The delivery of a message: a reading for the renewal, the consumers' work, and a reading for the
record. -/
def delivery (message : Message) (outside : σ) : Delivery × σ :=
  let renewal := world.read outside
  let delivered := world.deliver message renewal.2
  let record := world.read delivered.2
  (⟨message, delivered.1.1, record.1⟩, record.2)

def deliveries : List Message → σ → List Delivery
  | [], _ => []
  | message :: rest, outside =>
      (world.delivery message outside).1 :: deliveries rest (world.delivery message outside).2

theorem map_message_deliveries (batch : List Message) (outside : σ) :
    (world.deliveries batch outside).map Delivery.message = batch := by
  induction batch generalizing outside with
  | nil => rfl
  | cons message rest ih => exact congrArg (message :: ·) (ih _)

theorem outcome_of_mem_deliveries {batch : List Message} {outside : σ} {d : Delivery}
    (hmem : d ∈ world.deliveries batch outside) :
    ∃ o, d.outcome = (world.deliver d.message o).1.1 := by
  induction batch generalizing outside with
  | nil => cases hmem
  | cons message rest ih =>
      rcases List.mem_cons.mp hmem with rfl | hmem
      · exact ⟨_, rfl⟩
      · exact ih hmem

end Surroundings

namespace Table

def Holds (t : Table) (claim : ClaimToken) (m : Message) : Prop :=
  m.isProcessed = false ∧ ∃ expires, t.row? m.id = some ⟨m, some ⟨claim, expires⟩⟩

variable {t : Table} {claim : ClaimToken} {m : Message}

theorem Holds.isHeldBy (hholds : t.Holds claim m) :
    ∃ r, t.row? m.id = some r ∧ r.message = m ∧ r.isHeldBy claim := by
  obtain ⟨hopen, expires, hrow⟩ := hholds
  exact ⟨_, hrow, rfl, Row.isHeldBy_iff.mpr ⟨hopen, _, rfl, rfl⟩⟩

theorem Holds.renew (hholds : t.Holds claim m) (c : ClaimToken) (ids : List MessageId)
    (now : Instant) (lease : Duration) : (t.renew c ids now lease).2.Holds claim m := by
  obtain ⟨hopen, expires, hrow⟩ := hholds
  refine ⟨hopen, ?_⟩
  rw [row?_renew, hrow, Option.map_some]
  split
  · exact ⟨_, rfl⟩
  · exact ⟨_, rfl⟩

theorem row?_renew_of_not_mem {ids : List MessageId} {id : MessageId} (hnot : id ∉ ids)
    (c : ClaimToken) (now : Instant) (lease : Duration) :
    (t.renew c ids now lease).2.row? id = t.row? id := by
  rw [row?_renew]
  cases t.row? id with
  | none => rfl
  | some r => rw [Option.map_some, if_neg fun h => hnot h.1]

/-- A renewal returns all of the batch that is held. -/
theorem renew_fst_of_holds {left : List Message} (hholds : ∀ m ∈ left, t.Holds claim m)
    (now : Instant) (lease : Duration) :
    (t.renew claim (left.map Message.id) now lease).1 = left.map Message.id := by
  refine List.filter_eq_self.mpr fun id hmem => ?_
  obtain ⟨m, hm, rfl⟩ := List.mem_map.mp hmem
  obtain ⟨r, hrow, _, hheld⟩ := (hholds m hm).isHeldBy
  rw [hrow]
  exact hheld

theorem mark_fst_of_holds (hholds : t.Holds claim m) (record : Message → Message)
    (keepsId : ∀ m, (record m).id = m.id) : (t.mark claim m.id record keepsId).1 = .ok () := by
  obtain ⟨r, hrow, rfl, hheld⟩ := hholds.isHeldBy
  simp [mark, hrow, hholds.1, hheld]

theorem row?_mark_of_holds (hholds : t.Holds claim m) (record : Message → Message)
    (keepsId : ∀ m, (record m).id = m.id) :
    (t.mark claim m.id record keepsId).2.row? m.id = some ⟨record m, none⟩ := by
  obtain ⟨r, hrow, hmessage, hheld⟩ := hholds.isHeldBy
  rw [row?_mark, hrow, Option.map_some, if_pos ⟨rfl, hheld⟩, hmessage]

theorem row?_mark_of_ne {marked id : MessageId} (hne : id ≠ marked) (record : Message → Message)
    (keepsId : ∀ m, (record m).id = m.id) :
    (t.mark claim marked record keepsId).2.row? id = t.row? id := by
  rw [row?_mark]
  cases t.row? id with
  | none => rfl
  | some r => rw [Option.map_some, if_neg fun h => hne h.1]

/-- Beats change nothing about what is held, but for the ends of leases. -/
theorem Holds.keepUp (hholds : t.Holds claim m) (h : Heartbeat) (beats : List Instant) :
    (h.keepUp t beats).Holds claim m := by
  induction beats generalizing t with
  | nil => exact hholds
  | cons now beats ih => exact ih (hholds.renew h.claim h.held now h.lease)

theorem row?_keepUp_of_not_mem {h : Heartbeat} {id : MessageId} (hnot : id ∉ h.held)
    (beats : List Instant) : (h.keepUp t beats).row? id = t.row? id := by
  induction beats generalizing t with
  | nil => rfl
  | cons now beats ih => exact ih.trans (row?_renew_of_not_mem hnot h.claim now h.lease)

/-- A fetch comes to hold what it returns. -/
theorem holds_fetch {limit : Nat} {now : Instant} (hmem : m ∈ t.fetched limit now)
    (lease : Duration) : (t.fetch claim limit now lease).2.Holds claim m := by
  obtain ⟨r, hrow, rfl, hclaimable⟩ := exists_row_of_mem_fetched hmem
  refine ⟨(Row.isClaimable_iff.mp hclaimable).1, now.plusOrSelf lease, ?_⟩
  rw [row?_fetch, hrow, Option.map_some, if_pos (List.mem_map_of_mem hmem)]
  rfl

end Table

namespace Surroundings

open Processor Phase

variable {σ : Type} (world : Surroundings σ) {p : Processor} {claim : ClaimToken}

/-- A cycle asks what it does in its phase, and goes on with the answer. -/
theorem run_of_asks {φ : Phase} {q : Request} {next : q.Answer → Phase}
    (hasks : Asks p claim φ q next) (s : Scene σ) :
    (φ.routine p claim).run world.answer s =
      ((next (world.answer q s).1).routine p claim).run world.answer (world.answer q s).2 := by
  rw [hasks.routine_eq]
  rfl

/-- A renewal on a table where everything is held leads to the dispatch. -/
theorem run_until_dispatch {message : Message} {rest : List Message} {s : Scene σ}
    (hholds : ∀ m ∈ message :: rest, s.table.Holds claim m) (report : BatchReport) :
    let held := (message :: rest).map Message.id
    ((working (message :: rest) held report).routine p claim).run world.answer s =
      ((dispatching message rest held report).routine p claim).run world.answer
        { s with
          table := (s.table.renew claim held (world.read s.outside).1 p.lease).2
          outside := (world.read s.outside).2 } := by
  intro held
  have hall : (s.table.renew claim held (world.read s.outside).1 p.lease).1 = held :=
    Table.renew_fst_of_holds hholds _ _
  have hkept : held.filter held.contains = held :=
    List.filter_eq_self.mpr fun id hmem => List.contains_iff_mem.mpr hmem
  have hdispatching : afterRenewal message rest held report
      (.ok (s.table.renew claim held (world.read s.outside).1 p.lease).1) =
        dispatching message rest held report := by
    simp only [afterRenewal, hall, hkept]
    rw [if_pos (by simp [held])]
  refine (run_of_asks world (.working message rest held report) s).trans ?_
  refine (run_of_asks world (.preparing message rest held report) s).trans ?_
  refine (run_of_asks world (.renewing message rest held report _) _).trans ?_
  change ((afterRenewal message rest held report
    (.ok (s.table.renew claim held (world.read s.outside).1 p.lease).1)).routine p claim).run
      world.answer _ = _
  rw [hdispatching]
  rfl

/-- The record of an outcome, which the store takes as long as the claim holds the row. -/
theorem run_from_recording {message : Message} {rest : List Message} {s : Scene σ}
    (hholds : s.table.Holds claim message) (held : List MessageId) (report : BatchReport)
    (outcome : Except Failure DispatchOutcome) (time : Instant) :
    let d : Delivery := ⟨message, outcome, time⟩
    ∃ table, ((recording message rest held report outcome time).routine p claim).run
          world.answer s =
        ((working rest (held.filter (· != message.id)) (report.add d.attempt)).routine p claim).run
          world.answer { s with table := table } ∧
      table.row? message.id = some ⟨d.recorded p.retryPolicy, none⟩ ∧
      (∀ m, m.id ≠ message.id → s.table.Holds claim m → table.Holds claim m) ∧
      ∀ id, id ≠ message.id → table.row? id = s.table.row? id := by
  intro d
  have hothers {record : Message → Message} (keepsId : ∀ m, (record m).id = m.id) (m : Message)
      (hne : m.id ≠ message.id) (hm : s.table.Holds claim m) :
      (s.table.mark claim message.id record keepsId).2.Holds claim m := by
    obtain ⟨hopen, expires, hrow⟩ := hm
    exact ⟨hopen, expires, (Table.row?_mark_of_ne hne record keepsId).trans hrow⟩
  cases outcome with
  | ok outcome =>
      refine ⟨(s.table.markProcessed claim message.id time).2, ?_,
        Table.row?_mark_of_holds hholds _ _, hothers _,
        fun id hne => Table.row?_mark_of_ne hne _ _⟩
      refine (run_of_asks world
        (.recordingSuccess message rest held report outcome time) s).trans ?_
      have hreply : (s.table.answer (.markProcessed claim message.id time)).1 = .ok () :=
        Table.mark_fst_of_holds hholds _ _
      simp only [answer, hreply]
      rfl
  | error failure =>
      refine ⟨(s.table.markFailed claim message.id failure.message _).2, ?_,
        Table.row?_mark_of_holds hholds _ _, hothers _,
        fun id hne => Table.row?_mark_of_ne hne _ _⟩
      refine (run_of_asks world
        (.recordingFailure message rest held report failure time) s).trans ?_
      have hreply : (s.table.answer (.markFailed claim message.id failure.message
          (p.retryPolicy.nextRunAt (incrementCapped message.retryCount) time))).1 = .ok () :=
        Table.mark_fst_of_holds hholds _ _
      simp only [answer, hreply]
      rfl

/-- One message of the batch is attempted, the others stay held, and other rows as they are. -/
theorem run_working_cons {message : Message} {rest : List Message} {s : Scene σ}
    (hnodup : ((message :: rest).map Message.id).Nodup)
    (hholds : ∀ m ∈ message :: rest, s.table.Holds claim m) (report : BatchReport) :
    let d := world.delivery message s.outside
    ∃ table, ((working (message :: rest) ((message :: rest).map Message.id) report).routine
          p claim).run world.answer s =
        ((working rest (rest.map Message.id) (report.add d.1.attempt)).routine p claim).run
          world.answer ⟨table, d.2, s.dispatched ++ [message]⟩ ∧
      table.row? message.id = some ⟨d.1.recorded p.retryPolicy, none⟩ ∧
      (∀ m ∈ rest, table.Holds claim m) ∧
      ∀ id, id ∉ (message :: rest).map Message.id → table.row? id = s.table.row? id := by
  intro d
  rw [List.map_cons, List.nodup_cons] at hnodup
  have hne : ∀ m ∈ rest, m.id ≠ message.id := fun m hm heq =>
    hnodup.1 (heq ▸ List.mem_map_of_mem hm)
  have hkept : ((message :: rest).map Message.id).filter (· != message.id) =
      rest.map Message.id := by
    rw [List.map_cons, List.filter_cons_of_neg (by simp)]
    refine List.filter_eq_self.mpr fun id hmem => ?_
    obtain ⟨m, hm, rfl⟩ := List.mem_map.mp hmem
    simpa using hne m hm
  -- the table when the outcome is recorded, after the renewal and the heartbeats
  let held := (message :: rest).map Message.id
  let beats := (world.deliver message (world.read s.outside).2).1.2
  let renewed := (s.table.renew claim held (world.read s.outside).1 p.lease).2
  let kept := Heartbeat.keepUp ⟨claim, held, p.lease⟩ renewed beats
  have hholds' : ∀ m ∈ message :: rest, kept.Holds claim m := fun m hm =>
    ((hholds m hm).renew claim held _ _).keepUp _ _
  obtain ⟨table, hrun, hrow, hothers, hsame⟩ := run_from_recording world
    (s := ⟨kept, d.2, s.dispatched ++ [message]⟩) (hholds' message List.mem_cons_self) held report
    d.1.outcome d.1.time
  refine ⟨table, ?_, hrow, fun m hm => hothers m (hne m hm) (hholds' m (List.mem_cons_of_mem _ hm)),
    fun id hnot => ?_⟩
  · refine (run_until_dispatch world hholds report).trans ?_
    refine (run_of_asks world (.dispatching message rest held report) _).trans ?_
    refine (run_of_asks world (.concluding message rest held report d.1.outcome) _).trans ?_
    rw [hkept] at hrun
    exact hrun
  · have hother : id ≠ message.id := fun heq => hnot (heq ▸ List.mem_cons_self)
    refine (hsame id hother).trans ?_
    exact (Table.row?_keepUp_of_not_mem hnot beats).trans
      (Table.row?_renew_of_not_mem hnot claim _ _)

/-- What is left of a batch is attempted message by message. -/
theorem run_working {left : List Message} {s : Scene σ} (hnodup : (left.map Message.id).Nodup)
    (hholds : ∀ m ∈ left, s.table.Holds claim m) (report : BatchReport) :
    let done := ((working left (left.map Message.id) report).routine p claim).run world.answer s
    let ds := world.deliveries left s.outside
    done.1 = .ok (ds.foldl (fun report d => report.add d.attempt) report) ∧
      done.2.dispatched = s.dispatched ++ left ∧
      (∀ d ∈ ds, done.2.table.row? d.message.id = some ⟨d.recorded p.retryPolicy, none⟩) ∧
      ∀ id, id ∉ left.map Message.id → done.2.table.row? id = s.table.row? id := by
  induction left generalizing s report with
  | nil =>
      refine ⟨rfl, (List.append_nil s.dispatched).symm, ?_, fun id _ => rfl⟩
      intro d hd
      cases hd
  | cons message rest ih =>
      intro done ds
      obtain ⟨table, hrun, hrow, hrest, hsame⟩ := run_working_cons world hnodup hholds report
      have hnodup' := List.nodup_cons.mp hnodup
      obtain ⟨hresult, hdispatched, hrows, hothers⟩ :=
        ih (s := ⟨table, _, _⟩) hnodup'.2 hrest
          (report.add (world.delivery message s.outside).1.attempt)
      rw [← hrun] at hresult hdispatched hrows hothers
      refine ⟨hresult, ?_, ?_, ?_⟩
      · rw [hdispatched, List.append_assoc]
        rfl
      · intro d hd
        rcases List.mem_cons.mp hd with rfl | hd
        · exact (hothers message.id hnodup'.1).trans hrow
        · exact hrows d hd
      · intro id hnot
        exact (hothers id fun hmem => hnot (List.mem_cons_of_mem _ hmem)).trans (hsame id hnot)

/-- A cycle attempts the messages that it fetches, in their order, and leaves other rows as they
are. -/
theorem cycle_effect (p : Processor) (claim : ClaimToken) (s : Scene σ) :
    let opened := world.read s.outside
    let batch := s.table.fetched p.batchSize opened.1
    let ds := world.deliveries batch opened.2
    let done := world.cycle p claim s
    done.1 = .ok (ds.foldl (fun report d => report.add d.attempt) { fetched := batch.length }) ∧
      done.2.dispatched = s.dispatched ++ batch ∧
      (∀ d ∈ ds, done.2.table.row? d.message.id = some ⟨d.recorded p.retryPolicy, none⟩) ∧
      ∀ id, id ∉ batch.map Message.id → done.2.table.row? id = s.table.row? id := by
  intro opened batch ds done
  let fetched : Scene σ :=
    ⟨(s.table.fetch claim p.batchSize opened.1 p.lease).2, opened.2, s.dispatched⟩
  have hrun : done = ((working batch (batch.map Message.id) { fetched := batch.length }).routine
      p claim).run world.answer fetched := by
    refine (run_of_asks world .starting s).trans ?_
    exact run_of_asks world (.fetching opened.1) _
  have hholds : ∀ m ∈ batch, fetched.table.Holds claim m := fun m hm => Table.holds_fetch hm _
  obtain ⟨hresult, hdispatched, hrows, hothers⟩ :=
    run_working world (s.table.fetched_nodup _ _) hholds { fetched := batch.length }
  rw [← hrun] at hresult hdispatched hrows hothers
  refine ⟨hresult, hdispatched, hrows, fun id hnot => (hothers id hnot).trans ?_⟩
  change (s.table.fetch claim p.batchSize opened.1 p.lease).2.row? id = s.table.row? id
  rw [Table.row?_fetch]
  cases s.table.row? id with
  | none => rfl
  | some r => rw [Option.map_some, if_neg hnot]

end Surroundings

end Outbox
