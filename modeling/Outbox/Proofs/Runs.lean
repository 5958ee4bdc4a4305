import Outbox.Proofs.Fleet

/-! # Runs

A run begins at a table of which no cycle has been begun, and is infinite. One that ends goes on
idly. What a cycle does at a point of a run depends on when it read the time that it acts on, and
what a row is like there on the calls that have taken effect.
-/

namespace Outbox

structure Run where
  state : Nat → Fleet
  event : Nat → Event
  fresh : ∀ claim, (state 0).workers claim = none
  steps : ∀ n, (state n).step (event n) = some (state (n + 1))

namespace Run

def table (r : Run) (n : Nat) : Table := (r.state n).table

/-- In step `n` this call of the store takes effect. -/
def Calls (r : Run) (n : Nat) (call : StoreCall) : Prop := (r.state n).Calls (r.event n) call

/-- In step `n` the dispatch of the message begins. -/
def Begins (r : Run) (n : Nat) (claim : ClaimToken) (message : Message) : Prop :=
  ∃ heartbeat, (r.state (n + 1)).request? claim = some (.dispatch message heartbeat) ∧
    (r.state n).request? claim ≠ some (.dispatch message heartbeat)

/-- In step `n` a fetch under the claim returns the message of this id. -/
def Fetches (r : Run) (n : Nat) (claim : ClaimToken) (id : MessageId) (now : Instant) : Prop :=
  ∃ limit lease, r.Calls n (.fetch claim limit now lease) ∧
    id ∈ ((r.table n).fetch claim limit now lease).1.map Message.id

/-- In step `n` an outcome is recorded for the message of this id, under the claim. -/
def Marks (r : Run) (n : Nat) (claim : ClaimToken) (id : MessageId) : Prop :=
  (∃ time, r.Calls n (.markProcessed claim id time)) ∨
    ∃ error nextRun, r.Calls n (.markFailed claim id error nextRun)

/-- In step `n` a unit of work is committed that holds the message. -/
def Commits (r : Run) (n : Nat) (m : Message) : Prop :=
  ∃ u, r.event n = .commit u ∧ u.commit (r.table n) = .ok (r.table (n + 1)) ∧ m ∈ u.messages

end Run

def Worker.At (w : Worker) (claim : ClaimToken) (φ : Processor.Phase) : Prop :=
  w.rest = φ.routine w.processor claim

/-- The cycle makes this call, or its heartbeat does. -/
inductive Worker.Makes (w : Worker) (claim : ClaimToken) : Event → StoreCall → Prop
  | itself {call : StoreCall} (fate : Fate) (hrequest : w.rest.request? = some (.store call)) :
      Makes w claim (.store claim fate) call
  | heartbeat {message : Message} {heartbeat : Heartbeat} {now : Instant} (fate : Fate)
      (hrequest : w.rest.request? = some (.dispatch message heartbeat))
      (hbeat : w.beat = some now) : Makes w claim (.renewal claim fate) (heartbeat.renewal now)

/-- Heartbeats do not fetch. -/
theorem Worker.Makes.of_fetch {w : Worker} {claim c : ClaimToken} {e : Event} {limit : Nat}
    {now : Instant} {lease : Duration} (hmakes : w.Makes claim e (.fetch c limit now lease)) :
    (∃ fate, e = .store claim fate) ∧
      w.rest.request? = some (.store (.fetch c limit now lease)) := by
  generalize hcall : StoreCall.fetch c limit now lease = call at hmakes
  cases hmakes with
  | itself fate hrequest => exact ⟨⟨fate, rfl⟩, hcall ▸ hrequest⟩
  | heartbeat => cases hcall

namespace Fleet

open Processor Phase

theorem request?_eq_some {s : Fleet} {claim : ClaimToken} {q : Request} :
    s.request? claim = some q ↔ ∃ w, s.workers claim = some w ∧ w.rest.request? = some q :=
  Option.bind_eq_some_iff

/-- The time that a cycle has for its next call it reads with the request before. -/
theorem Answers.time? {s : Fleet} {claim : ClaimToken} {e : Event} {p : Processor} {φ : Phase}
    {q : Request} {next : q.Answer → Phase} {answer : q.Answer}
    (hanswer : s.Answers claim e q answer) (hasks : Asks p claim φ q next) :
    (next answer).time? = none ∨ ∃ now, e = .time claim now ∧ (next answer).time? = some now := by
  cases hasks with
  | starting => cases hanswer; exact .inr ⟨_, rfl, rfl⟩
  | preparing => cases hanswer; exact .inr ⟨_, rfl, rfl⟩
  | concluding => cases hanswer; exact .inr ⟨_, rfl, rfl⟩
  | fetching => exact .inl (time?_afterFetch _)
  | working => cases answer <;> exact .inl rfl
  | leaving => exact .inl rfl
  | renewing => exact .inl (time?_afterRenewal ..)
  | dispatching => exact .inl rfl
  | recordingSuccess => exact .inl (time?_afterAttempt ..)
  | recordingFailure => exact .inl (time?_afterAttempt ..)
  | givingBack => exact .inl rfl

/-- A dispatch begins when the renewal before it has answered that the message is still held. -/
theorem Answers.begins {s : Fleet} {claim : ClaimToken} {e : Event} {p : Processor} {φ : Phase}
    {q : Request} {next : q.Answer → Phase} {answer : q.Answer} {message : Message}
    {heartbeat : Heartbeat} (hanswer : s.Answers claim e q answer) (hasks : Asks p claim φ q next)
    (hrequest : ((next answer).routine p claim).request? = some (.dispatch message heartbeat)) :
    ∃ rest held report now kept,
      φ = .renewing message rest held report now ∧ e = .store claim .served ∧
      next answer = .dispatching message rest kept report ∧ heartbeat = ⟨claim, kept, p.lease⟩ ∧
      message.id ∈ (s.table.renew claim held now p.lease).1 := by
  obtain ⟨goOn, hasks'⟩ := asks_of_request? hrequest
  obtain ⟨rest, kept, report, hheartbeat, hnext⟩ := hasks'.eq_dispatching
  -- of all answers only that to a renewal can lead to a dispatch
  cases hasks with
  | renewing other rest' held report' now =>
      cases hanswer with
      | store fate call =>
          cases fate with
          | served =>
              simp only [Fate.reply, Table.answer, afterRenewal] at hnext
              split at hnext
              next hmem =>
                cases hnext
                refine ⟨_, _, _, _, _, rfl, rfl, ?_, hheartbeat, ?_⟩
                · simp only [Fate.reply, Table.answer, afterRenewal, if_pos hmem]
                · rw [List.contains_iff_mem, List.mem_filter] at hmem
                  exact List.contains_iff_mem.mp hmem.2
              next => cases hnext
          | cutOff failure => cases hnext
          | refused failure => cases hnext
  | starting => cases hnext
  | fetching => cases answer <;> cases hnext
  | working => cases answer <;> cases hnext
  | leaving => cases hnext
  | preparing => cases hnext
  | dispatching => cases hnext
  | concluding => cases hnext
  | recordingSuccess => exact (afterAttempt_ne_dispatching _ _ _ _ _ _ _ _ _ hnext).elim
  | recordingFailure => exact (afterAttempt_ne_dispatching _ _ _ _ _ _ _ _ _ hnext).elim
  | givingBack => cases hnext

/-- A call under a claim is made by the cycle of that claim, unless an outsider makes it. -/
theorem Calls.maker {s : Fleet} {e : Event} {call : StoreCall} {claim : ClaimToken}
    (hcalls : s.Calls e call) (hclaim : call.claim? = some claim)
    (hphase : ∀ c w, s.workers c = some w → ∃ φ, w.At c φ) :
    e = .outside call ∨ ∃ w, s.workers claim = some w ∧ w.Makes claim e call := by
  cases hcalls with
  | outside => exact .inl rfl
  | @cycle c fate p _ goOn hat hreaches =>
      obtain ⟨φ, hφ⟩ := hphase c _ hat
      obtain ⟨next, hasks⟩ := asks_of_request? (congrArg Routine.request? hφ.symm)
      obtain rfl := Option.some.inj (hasks.claim?_eq.symm.trans hclaim)
      exact .inr ⟨_, hat, .itself fate rfl⟩
  | @heartbeat c fate now p message heartbeat goOn hat hreaches =>
      obtain ⟨φ, hφ⟩ := hphase c _ hat
      obtain ⟨next, hasks⟩ := asks_of_request? (congrArg Routine.request? hφ.symm)
      obtain ⟨rest, held, report, hheartbeat, _⟩ := hasks.eq_dispatching
      rw [hheartbeat] at hclaim
      obtain rfl := Option.some.inj hclaim
      exact .inr ⟨_, hat, .heartbeat fate rfl rfl⟩

end Fleet

namespace Run

open Processor Phase

variable {r : Run} {n : Nat} {claim : ClaimToken}

theorem move (r : Run) (n : Nat) : (r.state n).Move (r.event n) (r.state (n + 1)) :=
  Fleet.move_of_step (r.steps n)

/-- The table changes by a call that takes effect or by a commit, or not at all. -/
theorem table_step (r : Run) (n : Nat) :
    r.table (n + 1) = r.table n ∨
      (∃ call, r.Calls n call ∧ r.table (n + 1) = ((r.table n).answer call).2) ∨
      ∃ u, r.event n = .commit u ∧ u.commit (r.table n) = .ok (r.table (n + 1)) :=
  (r.move n).table

/-! ### Where the cycles are -/

/-- What holds of all cycles where they stand: it holds of a cycle that begins, and every step keeps
it. -/
theorem forall_worker_at {P : Nat → Worker → Prop}
    (hbegin : ∀ {n p}, r.event n = .begin claim p → (r.state n).workers claim = none →
      P (n + 1) ⟨p, p.cycle claim, none⟩)
    (hturn : ∀ {n w w'}, (r.state n).workers claim = some w →
      (r.state (n + 1)).workers claim = some w' → (r.state n).Turn claim (r.event n) w w' →
      P n w → P (n + 1) w')
    {w : Worker} (hw : (r.state n).workers claim = some w) : P n w := by
  induction n generalizing w with
  | zero => rw [r.fresh] at hw; cases hw
  | succ n ih =>
      cases hbefore : (r.state n).workers claim with
      | none =>
          obtain ⟨hevent, hstart⟩ := (r.move n).begun hbefore hw
          rw [hstart]
          exact hbegin hevent hbefore
      | some before =>
          obtain ⟨after, hafter, hstep⟩ := (r.move n).turn hbefore
          obtain rfl := Option.some.inj (hafter.symm.trans hw)
          exact hturn hbefore hafter hstep (ih hbefore)

/-- What holds of all cycles: it holds of a cycle that begins, and every step keeps it. -/
theorem forall_worker {P : Nat → Worker → Prop}
    (hbegin : ∀ {n p}, r.event n = .begin claim p → P (n + 1) ⟨p, p.cycle claim, none⟩)
    (hturn : ∀ {n w w'}, (r.state n).Turn claim (r.event n) w w' → P n w → P (n + 1) w')
    {w : Worker} (hw : (r.state n).workers claim = some w) : P n w :=
  forall_worker_at (fun hevent _ => hbegin hevent) (fun _ _ hstep => hturn hstep) hw

/-- What holds of all cycles in their phases: it holds where a cycle begins, and is kept by answers
to its requests and by steps that bring none. -/
theorem forall_phase_at {P : Nat → Phase → Prop}
    (hbegin : ∀ {n}, (r.state n).workers claim = none → P (n + 1) .starting)
    (hkeep : ∀ {n w φ}, (r.state n).workers claim = some w → w.At claim φ →
      (∀ fate, r.event n ≠ .store claim fate) → P n φ → P (n + 1) φ)
    (hanswer : ∀ {n p φ q next answer}, Asks p claim φ q next →
      (r.state n).workers claim = some ⟨p, φ.routine p claim, none⟩ →
      (r.state (n + 1)).workers claim = some ⟨p, (next answer).routine p claim, none⟩ →
      (r.state n).Answers claim (r.event n) q answer → P n φ → P (n + 1) (next answer))
    {w : Worker} (hw : (r.state n).workers claim = some w) : ∃ φ, w.At claim φ ∧ P n φ := by
  refine forall_worker_at (P := fun n w => ∃ φ, w.At claim φ ∧ P n φ)
    (fun _ hnone => ⟨.starting, rfl, hbegin hnone⟩) ?_ hw
  rintro n w w' hw hw' hturn ⟨φ, hφ, hP⟩
  cases hturn with
  | stays _ hother =>
      exact ⟨φ, hφ, hkeep hw hφ (fun fate heq => hother (congrArg Event.claim? heq)) hP⟩
  | beats hevent =>
      exact ⟨φ, hφ, hkeep hw hφ (fun fate heq => by cases hevent.symm.trans heq) hP⟩
  | renews hevent =>
      exact ⟨φ, hφ, hkeep hw hφ (fun fate heq => by cases hevent.symm.trans heq) hP⟩
  | goesOn hanswered =>
      obtain ⟨next, hasks, hgoOn⟩ := asks_of_routine_eq hφ.symm
      change Routine.ask _ _ = φ.routine _ claim at hφ
      rw [hφ] at hw
      rw [hgoOn] at hw' ⊢
      exact ⟨_, rfl, hanswer hasks hw hw' hanswered hP⟩

/-- What holds of all cycles in their phases: it holds where a cycle begins, and is kept by replies
to its calls and by steps in which it makes none. -/
theorem forall_phase {P : Nat → Phase → Prop}
    (hbegin : ∀ {n}, (r.state n).workers claim = none → P (n + 1) .starting)
    (hidle : ∀ {n p φ φ'}, (∀ fate, r.event n ≠ .store claim fate) → Idles p claim φ φ' → P n φ →
      P (n + 1) φ')
    (hreply : ∀ {n p φ call next fate}, Asks p claim φ (.store call) next →
      r.event n = .store claim fate → (r.state n).request? claim = some (.store call) →
      (r.state (n + 1)).request? claim =
        ((next (fate.reply (r.table n) call)).routine p claim).request? →
      P n φ → P (n + 1) (next (fate.reply (r.table n) call)))
    {w : Worker} (hw : (r.state n).workers claim = some w) : ∃ φ, w.At claim φ ∧ P n φ := by
  refine forall_phase_at hbegin ?_ ?_ hw
  · intro n w φ _ _ hcall hP
    exact hidle (p := w.processor) hcall .stays hP
  · intro n p φ q next answer hasks hw hw' hanswer hP
    cases q with
    | store call =>
        generalize hevent : r.event n = e at hanswer
        cases hanswer with
        | store fate =>
            rw [hasks.routine_eq] at hw
            refine hreply hasks hevent (Fleet.request?_eq_some.mpr ⟨_, hw, rfl⟩) ?_ hP
            rw [Fleet.request?, hw', Option.bind_some]
            rfl
    | now | stopRequested | dispatch =>
        refine hidle (fun fate heq => ?_) (.goesOn hasks (fun call heq => by cases heq) answer) hP
        rw [heq] at hanswer
        cases hanswer

/-- The cycle has read this time, and has made no call since. -/
def HasRead (r : Run) (n : Nat) (claim : ClaimToken) (now : Instant) : Prop :=
  ∃ k < n, r.event k = .time claim now ∧
    ∀ l, k < l → l < n → ∀ fate, r.event l ≠ .store claim fate

theorem HasRead.succ {now : Instant} (hread : r.HasRead n claim now)
    (hcall : ∀ fate, r.event n ≠ .store claim fate) : r.HasRead (n + 1) claim now := by
  obtain ⟨k, hlt, hevent, hcalls⟩ := hread
  refine ⟨k, Nat.lt_succ_of_lt hlt, hevent, fun l hkl hln => ?_⟩
  rcases Nat.lt_succ_iff_lt_or_eq.mp hln with hln | rfl
  · exact hcalls l hkl hln
  · exact hcall

/-- The time that a cycle has after an answer is the answer. -/
theorem hasRead_of_answer {p : Processor} {φ : Phase} {q : Request} {next : q.Answer → Phase}
    {answer : q.Answer} {now : Instant} (hasks : Asks p claim φ q next)
    (hanswer : (r.state n).Answers claim (r.event n) q answer)
    (htime : (next answer).time? = some now) : r.HasRead (n + 1) claim now := by
  rcases hanswer.time? hasks with hnone | ⟨now', hevent, hsome⟩
  · rw [hnone] at htime
    cases htime
  · obtain rfl := Option.some.inj (hsome.symm.trans htime)
    exact ⟨n, Nat.lt_succ_self n, hevent, fun l hnl hln => by omega⟩

/-- Every cycle is in some phase. The time it has for its next call it read itself, and since then
it has not made a call. -/
theorem exists_phase {w : Worker} (hw : (r.state n).workers claim = some w) :
    ∃ φ, w.At claim φ ∧ ∀ now, φ.time? = some now → r.HasRead n claim now := by
  refine forall_phase_at (P := fun n φ => ∀ now, φ.time? = some now → r.HasRead n claim now)
    ?_ ?_ ?_ hw
  · intro n _ now htime
    cases htime
  · exact fun _ _ hcall hread now htime => (hread now htime).succ hcall
  · exact fun hasks _ _ hanswer _ now htime => hasRead_of_answer hasks hanswer htime

/-- A call under a claim is made by somebody outside, or by the cycle of the claim. -/
theorem made_by_cycle {call : StoreCall} (hcalls : r.Calls n call)
    (hclaim : call.claim? = some claim) : r.event n = .outside call ∨
      ∃ w, (r.state n).workers claim = some w ∧ w.Makes claim (r.event n) call :=
  hcalls.maker hclaim fun _ _ hw => (exists_phase hw).imp fun _ hφ => hφ.1

/-- A renewal before a dispatch acts on a time that the cycle read after all its calls so far. -/
theorem renewal_time {c : ClaimToken} {ids : List MessageId} {now : Instant} {lease : Duration}
    (hrequest : (r.state n).request? claim = some (.store (.renew c ids now lease))) :
    ∃ k, k < n ∧ r.event k = .time claim now ∧
      ∀ l, k < l → l < n → ∀ fate, r.event l ≠ .store claim fate := by
  obtain ⟨w, hw, hask⟩ := Fleet.request?_eq_some.mp hrequest
  obtain ⟨φ, hφ, hread⟩ := exists_phase hw
  rw [hφ] at hask
  obtain ⟨next, hasks⟩ := asks_of_request? hask
  obtain ⟨_, message, rest, report, rfl⟩ := hasks.eq_renewing
  exact hread now rfl

/-- A cycle fetches for a time that it has read before. -/
theorem fetch_time {c : ClaimToken} {limit : Nat} {now : Instant} {lease : Duration}
    (hrequest : (r.state n).request? claim = some (.store (.fetch c limit now lease))) :
    ∃ k, k < n ∧ r.event k = .time claim now := by
  obtain ⟨w, hw, hask⟩ := Fleet.request?_eq_some.mp hrequest
  obtain ⟨φ, hφ, hread⟩ := exists_phase hw
  rw [hφ] at hask
  obtain ⟨next, hasks⟩ := asks_of_request? hask
  obtain rfl := hasks.eq_fetching
  obtain ⟨k, hlt, hevent, _⟩ := hread now rfl
  exact ⟨k, hlt, hevent⟩

/-- Before the dispatch of a message its cycle was about to renew its claim, and the renewal has
answered that the message is still held. -/
theorem renewing_of_begins {message : Message} (hbegins : r.Begins n claim message) :
    ∃ w rest held report now kept, (r.state n).workers claim = some w ∧
      w.At claim (.renewing message rest held report now) ∧ r.event n = .store claim .served ∧
      message.id ∈ ((r.table n).renew claim held now w.processor.lease).1 ∧
      ∃ w', (r.state (n + 1)).workers claim = some w' ∧ w'.processor = w.processor ∧
        w'.beat = none ∧ w'.At claim (.dispatching message rest kept report) := by
  obtain ⟨heartbeat, hafter, hbefore⟩ := hbegins
  obtain ⟨w', hw', hrequest⟩ := Fleet.request?_eq_some.mp hafter
  cases hworker : (r.state n).workers claim with
  | none =>
      obtain ⟨_, hstart⟩ := (r.move n).begun hworker hw'
      rw [hstart] at hrequest
      cases hrequest
  | some w =>
      obtain ⟨φ, hφ, _⟩ := exists_phase hworker
      obtain ⟨w'', hw'', hturn⟩ := (r.move n).turn hworker
      obtain rfl := Option.some.inj (hw'.symm.trans hw'')
      -- the request changes in the step, so that it is one of the cycle and no heartbeat
      cases hturn with
      | stays => exact (hbefore (Fleet.request?_eq_some.mpr ⟨_, hworker, hrequest⟩)).elim
      | beats => exact (hbefore (Fleet.request?_eq_some.mpr ⟨_, hworker, hrequest⟩)).elim
      | renews => exact (hbefore (Fleet.request?_eq_some.mpr ⟨_, hworker, hrequest⟩)).elim
      | goesOn hanswer =>
          obtain ⟨next, hasks, hgoOn⟩ := asks_of_routine_eq hφ.symm
          rw [hgoOn] at hrequest
          obtain ⟨rest, held, report, now, kept, rfl, hevent, hnext, _, hmem⟩ :=
            hanswer.begins hasks hrequest
          refine ⟨_, rest, held, report, now, kept, rfl, hφ, hevent, hmem, _, hw', rfl, rfl, ?_⟩
          exact hnext ▸ hgoOn _

theorem event_of_begins {m : Message} (hbegins : r.Begins n claim m) :
    r.event n = .store claim .served := by
  obtain ⟨_, _, _, _, _, _, _, _, hevent, _⟩ := renewing_of_begins hbegins
  exact hevent

/-- What a cycle begins to dispatch it holds. -/
theorem held_of_begins {m : Message} (hbegins : r.Begins n claim m) :
    ∃ row, (r.table n).row? m.id = some row ∧ row.isHeldBy claim := by
  obtain ⟨_, _, _, _, _, _, _, _, _, hmem, _⟩ := renewing_of_begins hbegins
  exact (Table.mem_renewed.mp hmem).2

/-! ### What becomes of the rows -/

/-- In one step a row stays as it is, or a call changes it. -/
theorem row_step {id : MessageId} {row : Row} (hrow : (r.table n).row? id = some row) :
    (r.table (n + 1)).row? id = some row ∨
      ∃ call, r.Calls n call ∧ row.Change call ((r.table (n + 1)).row? id) := by
  rcases (r.move n).table with hsame | ⟨call, hcalls, hafter⟩ | ⟨u, _, hcommit⟩
  · exact .inl ((congrArg (·.row? id) hsame).trans hrow)
  · refine .inr ⟨call, hcalls, ?_⟩
    change row.Change call ((r.state (n + 1)).table.row? id)
    rw [hafter]
    exact Table.change_of_answer hrow call
  · exact .inl (Table.row?_commit_of_some hcommit hrow)

/-- What is committed had no row before, and has an unclaimed one afterwards. -/
theorem Commits.row? {m : Message} (hcommits : r.Commits n m) :
    (r.table n).row? m.id = none ∧ (r.table (n + 1)).row? m.id = some ⟨m, none⟩ := by
  obtain ⟨u, _, hcommit, hmem⟩ := hcommits
  exact Table.row?_commit_of_mem hcommit hmem

/-- A row that is there after a step was there before it, or has just been committed. -/
theorem row_origin {id : MessageId} {row : Row} (hrow : (r.table (n + 1)).row? id = some row) :
    (∃ before, (r.table n).row? id = some before) ∨
      ∃ m, r.Commits n m ∧ m.id = id ∧ row = ⟨m, none⟩ := by
  cases hbefore : (r.table n).row? id with
  | some before => exact .inl ⟨before, rfl⟩
  | none =>
      refine .inr ?_
      rcases r.table_step n with hsame | ⟨call, _, hafter⟩ | ⟨u, hevent, hcommit⟩
      · rw [hsame, hbefore] at hrow
        cases hrow
      · rw [hafter, Table.row?_answer_eq_none hbefore] at hrow
        cases hrow
      · rw [Table.row?_commit hcommit, hbefore, Option.none_or] at hrow
        obtain ⟨m, hfind, rfl⟩ := Option.map_eq_some_iff.mp hrow
        exact ⟨m, ⟨u, hevent, hcommit, List.mem_of_find?_eq_some hfind⟩,
          by simpa using List.find?_some hfind, rfl⟩

/-- A row that a claim holds, but did not hold at an earlier point, it fetched in between. -/
theorem fetched_of_held {i : Nat} {id : MessageId}
    (hnot : ∀ row, (r.table i).row? id = some row → ¬ row.isHeldBy claim) (hle : i ≤ n)
    {row : Row} (hrow : (r.table n).row? id = some row) (hheld : row.isHeldBy claim) :
    ∃ f now, i ≤ f ∧ f < n ∧ r.Fetches f claim id now := by
  induction hle generalizing row with
  | refl => exact (hnot row hrow hheld).elim
  | @step n hle ih =>
      by_cases hbefore : ∃ row, (r.table n).row? id = some row ∧ row.isHeldBy claim
      · obtain ⟨row', hrow', hheld'⟩ := hbefore
        obtain ⟨f, now, hif, hfn, hfetches⟩ := ih hrow' hheld'
        exact ⟨f, now, hif, by omega, hfetches⟩
      have hfree : ∀ row, (r.table n).row? id = some row → ¬ row.isHeldBy claim :=
        fun row' hrow' hheld' => hbefore ⟨row', hrow', hheld'⟩
      rcases (r.move n).table with hsame | ⟨call, hcalls, hafter⟩ | ⟨u, _, hcommit⟩
      · exact (hfree row ((congrArg (·.row? id) hsame).symm.trans hrow) hheld).elim
      · change (r.state (n + 1)).table.row? id = some row at hrow
        rw [hafter] at hrow
        obtain ⟨limit, now, lease, rfl, hmem⟩ := Table.fetch_of_gain hfree hrow hheld
        exact ⟨n, now, hle, Nat.lt_succ_self n, limit, lease, hcalls, hmem⟩
      · -- what a commit adds is held by nobody
        change (r.state (n + 1)).table.row? id = some row at hrow
        rw [Table.row?_commit hcommit] at hrow
        cases hold : (r.state n).table.row? id with
        | some row' =>
            rw [hold] at hrow
            cases hrow
            exact (hfree row hold hheld).elim
        | none =>
            rw [hold, Option.none_or] at hrow
            obtain ⟨m, _, rfl⟩ := Option.map_eq_some_iff.mp hrow
            simp [Row.isHeldBy] at hheld

end Run

end Outbox
