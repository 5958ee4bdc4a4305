import Outbox.Proofs.Accounting
import Outbox.Proofs.Protection
import Outbox.Proofs.Reach

/-! # Keeping a batch claimed during a dispatch

Between two beats goes a third of the lease, but at least ten milliseconds. So with a lease of more
than that each beat comes before the lease of the one before it has run out, and as long as all of
them are served nobody can fetch what is held, however long the dispatch takes.

Time is counted from the renewal before the dispatch. It passes in any steps, but not beyond a beat
that is due, and at that very instant others may still come first.
-/

namespace Outbox

/-- A fetch is made for a time that the clock has shown by now. -/
def StoreCall.IsTimely (now : Instant) : StoreCall → Prop
  | fetch _ _ time _ => time ≤ now
  | _ => True

/-- Others leave a lease as it is until its end has come. -/
theorem Table.Leased.answer_foreign {t : Table} {claim : ClaimToken} {m : Message}
    {ends now : Instant} {call : StoreCall} (hleased : t.Leased claim m ends)
    (hforeign : call.claim? ≠ some claim) (htimely : call.IsTimely now) (hearly : now < ends) :
    (t.answer call).2.Leased claim m ends := by
  have hspares : call.Spares claim m.id ends := by
    cases call with
    | fetch => exact Int.lt_of_le_of_lt htimely hearly
    | markProcessed | markFailed | release =>
        rintro ⟨_, rfl⟩
        exact hforeign rfl
    | renew | deleteProcessed | get | failing | counts => trivial
  have hkept : call.extension? claim m.id = none := by
    cases call with
    | renew =>
        refine if_neg ?_
        rintro ⟨_, rfl⟩
        exact hforeign rfl
    | _ => rfl
  have hanswer := hleased.answer hspares
  rw [hkept] at hanswer
  exact hanswer

namespace Heartbeat

variable (h : Heartbeat)

/-- How long after the first renewal a beat is due. That renewal counts as beat zero. -/
def due (beat : Nat) : Duration := ⟨beat * h.period.nanos⟩

/-- How long after the first renewal the lease ends that is given at a beat. -/
def cover (beat : Nat) : Duration := ⟨beat * h.period.nanos + h.lease.nanos⟩

/-- What can have happened in the course of a dispatch, from the table that the renewal before it
left: how many beats there were, how much time has passed, and the table by now. -/
inductive Vigil (start : Instant) (t₀ : Table) : Nat → Duration → Table → Prop
  | begin : Vigil start t₀ 0 .zero t₀
  | wait {beats : Nat} {elapsed later : Duration} {t : Table}
      (before : Vigil start t₀ beats elapsed t) (forward : elapsed ≤ later)
      (inTime : later ≤ h.due (beats + 1)) : Vigil start t₀ beats later t
  | beat {beats : Nat} {t : Table} {now : Instant}
      (before : Vigil start t₀ beats (h.due (beats + 1)) t)
      (shown : start.plus? (h.due (beats + 1)) = some now) :
      Vigil start t₀ (beats + 1) (h.due (beats + 1)) (t.answer (h.renewal now)).2
  /-- A call of somebody else. -/
  | call {beats : Nat} {elapsed : Duration} {t : Table} {now : Instant} {call : StoreCall}
      (before : Vigil start t₀ beats elapsed t) (shown : start.plus? elapsed = some now)
      (foreign : call.claim? ≠ some h.claim) (timely : call.IsTimely now) :
      Vigil start t₀ beats elapsed (t.answer call).2
  | commit {beats : Nat} {elapsed : Duration} {t t' : Table} {u : UnitOfWork}
      (before : Vigil start t₀ beats elapsed t) (commits : u.commit t = .ok t') :
      Vigil start t₀ beats elapsed t'

variable {h}

/-- A third of the lease goes between two beats, or ten milliseconds if that is more. -/
theorem nanos_period (h : Heartbeat) :
    h.period.nanos = max (h.lease.nanos / 3) (Duration.ofMillis 10).nanos := by
  change (if _ then _ else _ : Duration).nanos = _
  split
  next hshort => exact (Nat.max_eq_right hshort).symm
  next hlong => exact (Nat.max_eq_left (Nat.le_of_not_le hlong)).symm

theorem period_pos (h : Heartbeat) : 0 < h.period.nanos := by
  rw [nanos_period]
  exact Nat.lt_of_lt_of_le (by decide) (Nat.le_max_right _ _)

theorem period_lt_lease (hlong : .ofMillis 10 < h.lease) : h.period < h.lease := by
  have hnanos : (Duration.ofMillis 10).nanos < h.lease.nanos := hlong
  change h.period.nanos < h.lease.nanos
  rw [nanos_period]
  omega

/-- A beat is due before the lease of the one before it ends. -/
theorem due_succ_lt_cover (hlong : .ofMillis 10 < h.lease) (beat : Nat) :
    h.due (beat + 1) < h.cover beat := by
  have hperiod : h.period.nanos < h.lease.nanos := period_lt_lease hlong
  change (beat + 1) * h.period.nanos < beat * h.period.nanos + h.lease.nanos
  rw [Nat.succ_mul]
  omega

theorem cover_le_succ (beat : Nat) : h.cover beat ≤ h.cover (beat + 1) := by
  change beat * h.period.nanos + h.lease.nanos ≤ (beat + 1) * h.period.nanos + h.lease.nanos
  rw [Nat.succ_mul]
  omega

theorem due_le_succ (beat : Nat) : h.due beat ≤ h.due (beat + 1) :=
  Nat.mul_le_mul_right _ (Nat.le_succ beat)

/-- A beat moves the end of each lease that is held. -/
theorem leased_renewal {t : Table} {m : Message} {ends : Instant}
    (hleased : t.Leased h.claim m ends) (hmem : m.id ∈ h.held) (now : Instant) :
    (t.answer (h.renewal now)).2.Leased h.claim m (now.plusOrSelf h.lease) := by
  have hspares : (h.renewal now).Spares h.claim m.id ends := trivial
  have hmoves : (h.renewal now).extension? h.claim m.id = some (now.plusOrSelf h.lease) :=
    if_pos ⟨hmem, rfl⟩
  have hanswer := hleased.answer hspares
  rw [hmoves] at hanswer
  exact hanswer

namespace Vigil

variable {start : Instant} {t₀ t : Table} {beats : Nat} {elapsed : Duration}

/-- No beat is overdue. -/
theorem elapsed_le (hvigil : h.Vigil start t₀ beats elapsed t) : elapsed ≤ h.due (beats + 1) := by
  induction hvigil with
  | begin => exact Nat.zero_le _
  | wait before forward inTime => exact inTime
  | beat => exact due_le_succ _
  | call _ _ _ _ ih | commit _ _ ih => exact ih

/-- What the clock shows is before the end of the lease that the last beat gave. -/
theorem rank_lt_cover (hvigil : h.Vigil start t₀ beats elapsed t) (hlong : .ofMillis 10 < h.lease)
    {now : Instant} (hshown : start.plus? elapsed = some now) :
    now.rank < start.rankAfter (h.cover beats) := by
  rw [(Instant.rank_of_plus? hshown).2]
  exact Instant.rankAfter_lt (Nat.lt_of_le_of_lt hvigil.elapsed_le (due_succ_lt_cover hlong beats))

/-- What is held stays leased until the end that the last beat gave. -/
theorem leased {m : Message} (hvigil : h.Vigil start t₀ beats elapsed t)
    (hlong : .ofMillis 10 < h.lease) (hends : start.Reaches (h.cover beats))
    (hmem : m.id ∈ h.held) (hfirst : t₀.Leased h.claim m (start.plusOrSelf h.lease)) :
    ∃ ends, t.Leased h.claim m ends ∧ ends.rank = start.rankAfter (h.cover beats) := by
  induction hvigil with
  | begin =>
      have hcover : h.cover 0 = h.lease := by simp [cover]
      rw [hcover] at hends ⊢
      exact ⟨_, hfirst, Instant.rank_plusOrSelf hends⟩
  | wait _ _ _ ih => exact ih hends
  | @beat beats t now _ shown ih =>
      obtain ⟨ends, hleased, _⟩ := ih (hends.of_le (cover_le_succ beats))
      have hplace : now.rankAfter h.lease = start.rankAfter (h.cover (beats + 1)) :=
        Instant.rankAfter_of_plus? shown h.lease
      have hreaches : now.Reaches h.lease := by
        rw [Instant.Reaches, hplace]
        exact hends
      exact ⟨_, leased_renewal hleased hmem now, (Instant.rank_plusOrSelf hreaches).trans hplace⟩
  | @call beats elapsed t now call before shown foreign timely ih =>
      obtain ⟨ends, hleased, hrank⟩ := ih hends
      have hearly : now < ends := by
        rw [Instant.lt_iff, hrank]
        exact before.rank_lt_cover hlong shown
      exact ⟨ends, hleased.answer_foreign foreign timely hearly, hrank⟩
  | commit _ commits ih =>
      obtain ⟨ends, hleased, hrank⟩ := ih hends
      exact ⟨ends, hleased.commit commits, hrank⟩

end Vigil

/-- A dispatch can go on until any beat for which there is an instant. -/
theorem exists_vigil_at_due (start : Instant) (t₀ : Table) {beats : Nat}
    (hreaches : start.Reaches (h.due beats)) : ∃ t, h.Vigil start t₀ beats (h.due beats) t := by
  induction beats with
  | zero =>
      have hzero : h.due 0 = .zero := by simp [due, Duration.zero]
      exact ⟨t₀, hzero ▸ .begin⟩
  | succ beats ih =>
      obtain ⟨t, before⟩ := ih (hreaches.of_le (due_le_succ beats))
      obtain ⟨now, shown, _⟩ := Instant.plus?_of_reaches hreaches
      exact ⟨_, .beat (before.wait (due_le_succ beats) (Nat.le_refl _)) shown⟩

/-- A dispatch can take any time, as far as there are instants. -/
theorem exists_vigil (h : Heartbeat) (start : Instant) (t₀ : Table) {elapsed : Duration}
    (hreaches : start.Reaches elapsed) : ∃ beats t, h.Vigil start t₀ beats elapsed t := by
  have hdue : h.due (elapsed.nanos / h.period.nanos) ≤ elapsed := Nat.div_mul_le_self _ _
  obtain ⟨t, before⟩ := exists_vigil_at_due start t₀ (hreaches.of_le hdue)
  refine ⟨_, t, before.wait hdue ?_⟩
  exact Nat.le_of_lt (Nat.lt_mul_of_div_lt (Nat.lt_succ_self _) h.period_pos)

end Heartbeat

namespace Processor

/-- What a dispatch is begun with is what the renewal just before it has returned of what was held,
and the message is among it. -/
theorem Phase.held_of_dispatching {message m : Message} {rest rest' : List Message}
    {held held' renewed : List MessageId} {report report' : BatchReport}
    (hphase : afterRenewal message rest held report (.ok renewed) =
      dispatching m rest' held' report') :
    held' = held.filter renewed.contains ∧ m = message ∧ message.id ∈ held' := by
  simp only [afterRenewal] at hphase
  split at hphase
  next hmem =>
    cases hphase
    exact ⟨rfl, rfl, List.contains_iff_mem.mp hmem⟩
  next => cases hphase

variable {p : Processor} {claim : ClaimToken} {message : Message} {rest : List Message}
  {held : List MessageId} {report : BatchReport} {h : Heartbeat} {t t' : Table} {start : Instant}
  {beats : Nat} {elapsed : Duration} {renewed : List MessageId}
  {outcome : Except Failure DispatchOutcome} {later : List Exchange}
  {result : Except Failure BatchReport}

/-- A cycle that dispatches its next message does so with what the renewal just before has returned
of what it held, and the message is among it. -/
theorem heartbeat_of_yields (hcycle : (p.work claim (message :: rest) held report).Yields
    (⟨.stopRequested, false⟩ :: ⟨.now, start⟩ ::
      ⟨.store (.renew claim held start p.lease), .ok renewed⟩ ::
      ⟨.dispatch message h, outcome⟩ :: later) result) :
    h = ⟨claim, held.filter renewed.contains, p.lease⟩ ∧ message.id ∈ h.held := by
  obtain ⟨_, _, hstop, hpreparing⟩ := (Phase.Asks.working message rest held report).yields hcycle
  cases hstop
  obtain ⟨_, _, hread, hrenewing⟩ := (Phase.Asks.preparing message rest held report).yields
    hpreparing
  cases hread
  obtain ⟨_, _, hreply, hnext⟩ := (Phase.Asks.renewing message rest held report start).yields
    hrenewing
  cases hreply
  -- of the phases after the renewal only one has a dispatch to ask for
  generalize hphase : Phase.afterRenewal message rest held report (.ok renewed) = φ at hnext
  generalize hroutine : φ.routine p claim = routine at hnext
  cases hnext with
  | ask =>
      obtain ⟨next, hasks, _⟩ := Phase.asks_of_routine_eq hroutine
      obtain ⟨rest', kept, report', rfl, rfl⟩ := hasks.eq_dispatching
      obtain ⟨rfl, _, hmem⟩ := Phase.held_of_dispatching hphase
      exact ⟨rfl, hmem⟩

/-- As long as a dispatch goes on, and every renewal at a beat is served, nobody can fetch the
message or any other that the renewal before the dispatch left in the claim's hands, if only the
lease is longer than ten milliseconds and there are instants at the ends of the leases. -/
theorem heartbeats_keep_batch (hlong : .ofMillis 10 < p.lease)
    (hcycle : (p.work claim (message :: rest) held report).Yields
      (⟨.stopRequested, false⟩ :: ⟨.now, start⟩ ::
        ⟨.store (.renew claim held start p.lease), .ok (t.renew claim held start p.lease).1⟩ ::
        ⟨.dispatch message h, outcome⟩ :: later) result)
    (hvigil : h.Vigil start (t.renew claim held start p.lease).2 beats elapsed t')
    (hends : (start.plus? (h.cover beats)).isSome) :
    message.id ∈ h.held ∧ ∃ now, start.plus? elapsed = some now ∧
      ∀ id ∈ h.held, ∀ other limit time lease, time ≤ now →
        id ∉ (t'.fetch other limit time lease).1.map Message.id := by
  obtain ⟨rfl, hmessage⟩ := heartbeat_of_yields hcycle
  obtain ⟨lastEnd, hlastEnd⟩ := Option.isSome_iff_exists.mp hends
  have hreaches := (Instant.rank_of_plus? hlastEnd).1
  have hshorter := Nat.le_trans hvigil.elapsed_le
    (Nat.le_of_lt (Heartbeat.due_succ_lt_cover hlong beats))
  obtain ⟨now, hshown, _⟩ := Instant.plus?_of_reaches (hreaches.of_le hshorter)
  refine ⟨hmessage, now, hshown, fun id hid other limit time lease htime => ?_⟩
  obtain ⟨_, hrenewed⟩ := List.mem_filter.mp hid
  obtain ⟨m, hopen, hrow⟩ := Table.row?_renew_of_mem (List.contains_iff_mem.mp hrenewed)
  obtain rfl : m.id = id := Table.row?_id hrow
  obtain ⟨ends, hleased, hrank⟩ := hvigil.leased hlong hreaches hid ⟨hopen, hrow⟩
  refine hleased.not_mem_fetched (Int.lt_of_le_of_lt htime ?_) limit
  rw [hrank]
  exact hvigil.rank_lt_cover hlong hshown

/-- With a lease of eleven milliseconds the beats are ten apart. Somebody else tries to fetch just
before the first beat, and the dispatch goes on until just before the second. -/
theorem heartbeats_keep_batch_elevenMillis :
    let claim := ClaimToken.numbered 1
    let other := ClaimToken.numbered 2
    let m := Message.numbered 1 "order" .epoch
    let p : Processor := ⟨.immediate, 1, .ofSeconds 1, .ofMillis 11⟩
    let h : Heartbeat := ⟨claim, [m.id], p.lease⟩
    let t := (Table.single ⟨m, some ⟨claim, .epoch⟩⟩).renew claim [m.id] .epoch p.lease
    let tenth : Instant := ⟨0, 10000000, by decide, by decide⟩
    let twentieth : Instant := ⟨0, 20000000, by decide, by decide⟩
    let tried := (t.2.answer (.fetch other 1 tenth p.lease)).2
    let kept := (tried.answer (h.renewal tenth)).2
    h.Vigil .epoch t.2 0 (h.due 1) tried ∧ h.Vigil .epoch t.2 1 (h.due 2) kept ∧
      m.id ∉ (tried.fetch other 1 tenth p.lease).1.map Message.id ∧
      m.id ∉ (kept.fetch other 1 twentieth p.lease).1.map Message.id := by
  intro claim other m p h t tenth twentieth tried kept
  have hfirst : Instant.epoch.plus? (h.due 1) = some tenth := by decide +kernel
  have hsecond : Instant.epoch.plus? (h.due 2) = some twentieth := by decide +kernel
  have hstill : h.Vigil .epoch t.2 0 (h.due 1) tried :=
    .call (.wait .begin (by decide +kernel) (Nat.le_refl _)) hfirst (by decide) (Int.le_refl _)
  have hlater : h.Vigil .epoch t.2 1 (h.due 2) kept :=
    .wait (.beat hstill hfirst) (by decide +kernel) (Nat.le_refl _)
  have hrenewed : t.1 = [m.id] := by decide +kernel
  -- the cycle of one message whose dispatch takes that long
  have hcycle : (p.work claim [m] [m.id] { fetched := 1 }).Yields
      (⟨.stopRequested, false⟩ :: ⟨.now, .epoch⟩ ::
        ⟨.store (.renew claim [m.id] .epoch p.lease), .ok t.1⟩ ::
        ⟨.dispatch m h, .ok (.delivered 1)⟩ ::
        [⟨.now, twentieth⟩, ⟨.store (.markProcessed claim m.id twentieth), .ok ()⟩])
      (.ok { fetched := 1, processed := 1 }) := by
    rw [hrenewed]
    exact .ask _ (.ask _ (.ask _ (.ask _ (.ask _ (.ask _ (.done _))))))
  have hlong : Duration.ofMillis 10 < p.lease := by decide
  obtain ⟨hmem, now, hshown, hsafe⟩ := heartbeats_keep_batch hlong hcycle hstill
    (by decide +kernel)
  obtain ⟨_, now', hshown', hsafe'⟩ := heartbeats_keep_batch hlong hcycle hlater
    (by decide +kernel)
  cases hfirst.symm.trans hshown
  cases hsecond.symm.trans hshown'
  exact ⟨hstill, hlater, hsafe _ hmem other 1 _ _ (Int.le_refl _),
    hsafe' _ hmem other 1 _ _ (Int.le_refl _)⟩

end Processor

end Outbox
