import Outbox.Proofs.Reach
import Outbox.Proofs.Scripts

/-! # One dispatch at a time

With the renewal before a dispatch a cycle gets a lease on the message. Until the lease has run out,
by a clock that all cycles share, or the outcome has been recorded, the row stays with the cycle:
others cannot take it over, and the cycle itself does not give it back. Its heartbeats only move the
end of the lease further. So no dispatch of the message under another claim begins meanwhile.

The exception is a heartbeat within a leap second. Sums of times do not know of the leap seconds
that they pass, so a lease given within one can end before a lease given just before it, and then
the message is open to others too early.
-/

namespace Outbox

/-- The time and the length of the leases that a call gives. -/
def StoreCall.grant? : StoreCall → Option (Instant × Duration)
  | fetch _ _ now lease | renew _ _ now lease => some (now, lease)
  | _ => none

def Event.begun? : Event → Option Processor
  | begin _ p => some p
  | _ => none

namespace Processor.Phase

/-- A cycle gives leases of its own length, counted from the time that it has read for the call. -/
theorem Asks.grant? {p : Processor} {claim : ClaimToken} {φ : Phase} {call : StoreCall}
    {next : Except Failure call.Reply → Phase} {now : Instant} {lease : Duration}
    (hasks : Asks p claim φ (.store call) next) (hgrant : call.grant? = some (now, lease)) :
    lease = p.lease ∧ φ.time? = some now := by
  cases hasks with
  | fetching | renewing => cases hgrant; exact ⟨rfl, rfl⟩
  | leaving | recordingSuccess | recordingFailure | givingBack => cases hgrant

end Processor.Phase

namespace Run

open Processor Phase

/-- The clock that all cycles share is never set back, and the end of a lease of this length,
counted from what it shows, is always in range. -/
structure Clocked (r : Run) (lease : Duration) : Prop where
  monotone : ∀ {i j a b}, i ≤ j → (r.event i).reading? = some a → (r.event j).reading? = some b →
    a ≤ b
  fits : ∀ {n now}, (r.event n).reading? = some now → (now.plus? lease).isSome

/-- Between steps `i` and `j` the message is not renewed under the claim for a time within a leap
second. -/
def RenewsPlainly (r : Run) (i j : Nat) (claim : ClaimToken) (id : MessageId) : Prop :=
  ∀ k ids now lease, i < k → k < j → r.Calls k (.renew claim ids now lease) → id ∈ ids →
    now.isLeap = false

/-- Claims are made by cycles only. Others may sweep or look at messages. -/
def ClaimsAreCycles (r : Run) : Prop :=
  ∀ n, ∀ call ∈ (r.event n).outside?, call.claim? = none

/-- The cycle is past the message, and what its heartbeat has read it has read since step `i`. -/
def PastSince (r : Run) (i n : Nat) (claim : ClaimToken) (p : Processor) (id : MessageId) : Prop :=
  ∃ w φ, (r.state n).workers claim = some w ∧ w.processor = p ∧ w.At claim φ ∧ φ.IsPast id ∧
    ∀ now, w.beat = some now → ∃ k, i < k ∧ r.event k = .beat claim now

/-- What keeps others from a message that a cycle is past since step `i`, until some end. -/
inductive Guarded (r : Run) (i n : Nat) (claim : ClaimToken) (id : MessageId) (ends : Instant) :
    Prop
  | leased {row : Row} {expires : Instant} (hrow : (r.table n).row? id = some row)
      (hopen : row.message.isProcessed = false) (hlease : row.lease = some ⟨claim, expires⟩)
      (hle : ends ≤ expires)
  /-- Nothing any more: the clock has shown the end. -/
  | elapsed {k : Nat} {now : Instant} (hlt : k < n) (hreading : (r.event k).reading? = some now)
      (hle : ends ≤ now)
  /-- Nothing any more: an outcome has been recorded. -/
  | marked {k : Nat} (hik : i < k) (hkn : k < n) (hmarks : r.Marks k claim id)

variable {r : Run} {lease : Duration}

/-- What is given outside of leap seconds does not end before what was given earlier. -/
theorem Clocked.ends_le (hclock : r.Clocked lease) {i j : Nat} {a b : Instant} (hle : i ≤ j)
    (ha : (r.event i).reading? = some a) (hb : (r.event j).reading? = some b)
    (hplain : b.isLeap = false) : a.plusOrSelf lease ≤ b.plusOrSelf lease := by
  obtain ⟨later, hlater⟩ := Option.isSome_iff_exists.mp (hclock.fits hb)
  obtain ⟨earlier, hearlier, hends⟩ := Instant.plus?_mono hplain (hclock.monotone hle ha hb) hlater
  rw [Instant.plusOrSelf_eq hearlier, Instant.plusOrSelf_eq hlater]
  exact hends

/-- A call under a claim is made by the cycle that has it. -/
theorem ClaimsAreCycles.maker (hclaims : r.ClaimsAreCycles) {n : Nat} {call : StoreCall}
    {claim : ClaimToken} (hcalls : r.Calls n call) (hclaim : call.claim? = some claim) :
    ∃ w, (r.state n).workers claim = some w ∧ w.Makes claim (r.event n) call := by
  rcases made_by_cycle hcalls hclaim with houtside | hmaker
  · rw [hclaims n call (houtside ▸ rfl)] at hclaim
    cases hclaim
  · exact hmaker

/-- A fetch is made by a cycle, for a time that the clock has shown. -/
theorem ClaimsAreCycles.fetch_time (hclaims : r.ClaimsAreCycles) {n limit : Nat}
    {claim : ClaimToken} {now : Instant} {length : Duration}
    (hcalls : r.Calls n (.fetch claim limit now length)) :
    (∃ fate, r.event n = .store claim fate) ∧ ∃ k, k < n ∧ (r.event k).reading? = some now := by
  obtain ⟨w, hw, hmakes⟩ := hclaims.maker hcalls rfl
  obtain ⟨hevent, hrequest⟩ := hmakes.of_fetch
  obtain ⟨k, hlt, htime⟩ := Run.fetch_time (Fleet.request?_eq_some.mpr ⟨w, hw, hrequest⟩)
  exact ⟨hevent, k, hlt, congrArg Event.reading? htime⟩

/-- A cycle that is there has begun. -/
theorem begun_of_worker {n : Nat} {claim : ClaimToken} {w : Worker}
    (hw : (r.state n).workers claim = some w) :
    ∃ k, k < n ∧ r.event k = .begin claim w.processor := by
  refine forall_worker (P := fun n w => ∃ k, k < n ∧ r.event k = .begin claim w.processor)
    (fun hevent => ⟨_, Nat.lt_succ_self _, hevent⟩) ?_ hw
  rintro n w w' hturn ⟨k, hlt, hevent⟩
  refine ⟨k, Nat.lt_succ_of_lt hlt, ?_⟩
  cases hturn with
  | stays | goesOn | beats | renews => exact hevent

/-- The time of a heartbeat is one that the clock has shown. -/
theorem beat_time {n : Nat} {claim : ClaimToken} {w : Worker} {now : Instant}
    (hw : (r.state n).workers claim = some w) (hbeat : w.beat = some now) : ∃ k, k < n ∧ r.event k = .beat claim now := by
  refine forall_worker (P := fun n w => w.beat = some now →
    ∃ k, k < n ∧ r.event k = .beat claim now) (fun _ hnone => by cases hnone) ?_ hw hbeat
  intro n w w' hturn hearlier hbeat
  cases hturn with
  | stays =>
      obtain ⟨k, hlt, hevent⟩ := hearlier hbeat
      exact ⟨k, Nat.lt_succ_of_lt hlt, hevent⟩
  | beats hevent => cases hbeat; exact ⟨n, Nat.lt_succ_self n, hevent⟩
  | goesOn | renews => cases hbeat

/-- A call that gives leases has its time from an earlier reading, and its length from a processor
that has begun a cycle. -/
theorem ClaimsAreCycles.grant (hclaims : r.ClaimsAreCycles) {n : Nat} {call : StoreCall}
    {now : Instant} {length : Duration} (hcalls : r.Calls n call) (hgrant : call.grant? = some (now, length)) :
    (∃ k, k < n ∧ (r.event k).reading? = some now) ∧
      ∃ k p, (r.event k).begun? = some p ∧ p.lease = length := by
  have hclaim : ∃ claim, call.claim? = some claim := by
    cases call with
    | fetch claim | renew claim => exact ⟨claim, rfl⟩
    | _ => cases hgrant
  obtain ⟨claim, hclaim⟩ := hclaim
  obtain ⟨w, hw, hmakes⟩ := hclaims.maker hcalls hclaim
  obtain ⟨b, _, hbegin⟩ := begun_of_worker hw
  have hbegun : (r.event b).begun? = some w.processor := congrArg Event.begun? hbegin
  obtain ⟨φ, hφ, hread⟩ := exists_phase hw
  generalize r.event n = e at hmakes
  cases hmakes with
  | itself fate hrequest =>
      rw [hφ] at hrequest
      obtain ⟨next, hasks⟩ := asks_of_request? hrequest
      obtain ⟨rfl, htime⟩ := hasks.grant? hgrant
      obtain ⟨k, hlt, hevent, _⟩ := hread now htime
      exact ⟨⟨k, hlt, congrArg Event.reading? hevent⟩, b, w.processor, hbegun, rfl⟩
  | heartbeat fate hrequest hbeat =>
      rw [hφ] at hrequest
      obtain ⟨next, hasks⟩ := asks_of_request? hrequest
      obtain ⟨rest, held, report, rfl, _⟩ := hasks.eq_dispatching
      obtain ⟨k, hlt, hevent⟩ := beat_time hw hbeat
      cases hgrant
      exact ⟨⟨k, hlt, congrArg Event.reading? hevent⟩, b, w.processor, hbegun, rfl⟩

theorem PastSince.step {i n : Nat} {claim : ClaimToken} {p : Processor} {id : MessageId}
    (hpast : r.PastSince i n claim p id) (hlt : i < n) : r.PastSince i (n + 1) claim p id := by
  obtain ⟨w, φ, hw, hprocessor, hφ, hid, hbeat⟩ := hpast
  obtain ⟨w', hw', hturn⟩ := (r.move n).turn hw
  cases hturn with
  | stays => exact ⟨w, φ, hw', hprocessor, hφ, hid, hbeat⟩
  | goesOn hanswer =>
      obtain ⟨next, hasks, hgoOn⟩ := asks_of_routine_eq hφ.symm
      exact ⟨_, next _, hw', hprocessor, hgoOn _, hasks.isPast hid _, fun now hnow => by cases hnow⟩
  | renews => exact ⟨_, φ, hw', hprocessor, hφ, hid, fun now hnow => by cases hnow⟩
  | beats hevent =>
      refine ⟨_, φ, hw', hprocessor, hφ, hid, fun now hnow => ⟨n, hlt, ?_⟩⟩
      cases hnow
      exact hevent

/-- A cycle prolongs the lease of a message that it is past only by heartbeats. -/
theorem PastSince.renewal {i n : Nat} {claim c : ClaimToken} {p : Processor} {id : MessageId}
    {w : Worker} {e : Event} {ids : List MessageId} {now : Instant} {length : Duration}
    (hpast : r.PastSince i n claim p id) (hw : (r.state n).workers claim = some w)
    (hmakes : w.Makes claim e (.renew c ids now length)) (hmem : id ∈ ids) :
    length = p.lease ∧ ∃ k, i < k ∧ r.event k = .beat claim now := by
  obtain ⟨w', φ, hw', rfl, hφ, hid, hbeat⟩ := hpast
  obtain rfl := Option.some.inj (hw.symm.trans hw')
  generalize hcall : StoreCall.renew c ids now length = call at hmakes
  cases hmakes with
  | itself fate hrequest =>
      rw [← hcall, hφ] at hrequest
      obtain ⟨next, hasks⟩ := asks_of_request? hrequest
      obtain ⟨_, message, rest, report, rfl⟩ := hasks.eq_renewing
      exact (hid hmem).elim
  | heartbeat fate hrequest hnow =>
      rw [hφ] at hrequest
      obtain ⟨next, hasks⟩ := asks_of_request? hrequest
      obtain ⟨rest, held, report, rfl, _⟩ := hasks.eq_dispatching
      cases hcall
      exact ⟨rfl, hbeat _ hnow⟩

/-- A cycle that is past a message does not give it back. -/
theorem PastSince.release {i n : Nat} {claim c : ClaimToken} {p : Processor} {id : MessageId}
    {w : Worker} {e : Event} {ids : List MessageId} (hpast : r.PastSince i n claim p id)
    (hw : (r.state n).workers claim = some w) (hmakes : w.Makes claim e (.release c ids)) :
    id ∉ ids := by
  obtain ⟨w', φ, hw', rfl, hφ, hid, _⟩ := hpast
  obtain rfl := Option.some.inj (hw.symm.trans hw')
  generalize hcall : StoreCall.release c ids = call at hmakes
  cases hmakes with
  | heartbeat => cases hcall
  | itself fate hrequest =>
      rw [← hcall, hφ] at hrequest
      obtain ⟨next, hasks⟩ := asks_of_request? hrequest
      cases hasks with
      | leaving => exact hid
      | givingBack => exact hid

/-- No step lifts the guard before its end. -/
theorem Guarded.step {i i₀ n : Nat} {claim : ClaimToken} {p : Processor} {id : MessageId}
    {start : Instant} (hclock : r.Clocked p.lease) (hclaims : r.ClaimsAreCycles)
    {j : Nat} (hplain : r.RenewsPlainly i j claim id) (hstart : (r.event i₀).reading? = some start)
    (hi₀ : i₀ < i) (hlt : i < n) (hnj : n < j) (hpast : r.PastSince i n claim p id)
    (hguarded : r.Guarded i n claim id (start.plusOrSelf p.lease)) :
    r.Guarded i (n + 1) claim id (start.plusOrSelf p.lease) := by
  cases hguarded with
  | elapsed hkn hreading hle => exact .elapsed (Nat.lt_succ_of_lt hkn) hreading hle
  | marked hik hkn hmarks => exact .marked hik (Nat.lt_succ_of_lt hkn) hmarks
  | @leased row expires hrow hopen hlease hle =>
      have hid := Table.row?_id hrow
      have hholder : row.isHeldBy claim := Row.isHeldBy_iff.mpr ⟨hopen, _, hlease, rfl⟩
      rcases row_step hrow with hsame | ⟨call, hcalls, hchange⟩
      · exact .leased hsame hopen hlease hle
      generalize hafter : (r.table (n + 1)).row? id = after at hchange
      cases hchange with
      | kept => exact .leased hafter hopen hlease hle
      | @claimed c limit now length hclaimable =>
          -- taken over, which the lease allows from its end on
          have hend := (Row.isClaimable_iff.mp hclaimable).2.2 _ hlease
          obtain ⟨_, k, hkn, hreading⟩ := hclaims.fetch_time hcalls
          exact .elapsed (Nat.lt_succ_of_lt hkn) hreading (Instant.le_trans hle hend)
      | @extended c ids now length hmem hheld =>
          obtain rfl := Row.holder_unique hheld hholder
          obtain ⟨w, hw, hmakes⟩ := hclaims.maker hcalls rfl
          obtain ⟨rfl, k, hik, hbeat⟩ := hpast.renewal hw hmakes (hid ▸ hmem)
          have hreading : (r.event k).reading? = some now := congrArg Event.reading? hbeat
          refine .leased hafter hopen ?_
            (hclock.ends_le (by omega) hstart hreading
              (hplain n ids now _ hlt hnj hcalls (hid ▸ hmem)))
          simp only [Row.extend, hlease, Option.map_some]
      | processed hheld =>
          obtain rfl := Row.holder_unique hheld hholder
          exact .marked hlt (Nat.lt_succ_self n) (.inl ⟨_, hid ▸ hcalls⟩)
      | failed hheld =>
          obtain rfl := Row.holder_unique hheld hholder
          exact .marked hlt (Nat.lt_succ_self n) (.inr ⟨_, _, hid ▸ hcalls⟩)
      | released hmem hheld =>
          obtain rfl := Row.holder_unique hheld hholder
          obtain ⟨w, hw, hmakes⟩ := hclaims.maker hcalls rfl
          exact (hpast.release hw hmakes (hid ▸ hmem)).elim
      | deleted hprocessed => simp [Message.isProcessed, hprocessed] at hopen

/-- When a dispatch begins the row has the lease of the renewal just before. -/
theorem guarded_of_begins {i : Nat} {claim : ClaimToken} {m : Message} {ids : List MessageId}
    {start : Instant} (hbegins : r.Begins i claim m)
    (hrenewal : (r.state i).request? claim = some (.store (.renew claim ids start lease))) :
    ∃ p, p.lease = lease ∧ r.PastSince i (i + 1) claim p m.id ∧
      r.Guarded i (i + 1) claim m.id (start.plusOrSelf lease) := by
  obtain ⟨w, rest, held, report, now, kept, hw, hφ, hevent, hmem, hgoesOn⟩ :=
    renewing_of_begins hbegins
  obtain ⟨w', hw', hprocessor, hbeat, hφ'⟩ := hgoesOn
  obtain ⟨w₀, hw₀, hrequest⟩ := Fleet.request?_eq_some.mp hrenewal
  obtain rfl := Option.some.inj (hw.symm.trans hw₀)
  rw [hφ] at hrequest
  obtain ⟨next, hasks⟩ := asks_of_request? hrequest
  obtain ⟨rfl, message, rest', report', heq⟩ := hasks.eq_renewing
  cases heq
  refine ⟨w.processor, rfl, ⟨w', _, hw', hprocessor, hφ', ?_, fun now hnow => ?_⟩, ?_⟩
  · simp [IsPast]
  · rw [hbeat] at hnow
    cases hnow
  · -- the lease is the one that the renewal in this step gives
    obtain ⟨message, hopen, hrow⟩ := Table.row?_renew_of_mem hmem
    have hafter := (hevent ▸ r.move i).table_store hrenewal
    have hafter' : (r.table (i + 1)).row? m.id = _ :=
      (congrArg (·.row? m.id) hafter).trans hrow
    exact .leased hafter' hopen rfl (Instant.le_refl _)

/-- From the beginning of a dispatch on the guard stands until its end. -/
theorem guarded_from {i j n : Nat} {claim : ClaimToken} {m : Message} {ids : List MessageId}
    {start : Instant} (hclock : r.Clocked lease) (hclaims : r.ClaimsAreCycles)
    (hplain : r.RenewsPlainly i j claim m.id) (hbegins : r.Begins i claim m)
    (hrenewal : (r.state i).request? claim = some (.store (.renew claim ids start lease)))
    (hle : i + 1 ≤ n) (hnj : n ≤ j) : r.Guarded i n claim m.id (start.plusOrSelf lease) := by
  obtain ⟨i₀, hi₀, htime, _⟩ := renewal_time hrenewal
  have hstart : (r.event i₀).reading? = some start := congrArg Event.reading? htime
  obtain ⟨p, rfl, hpast, hguarded⟩ := guarded_of_begins hbegins hrenewal
  suffices hboth : r.PastSince i n claim p m.id ∧
      r.Guarded i n claim m.id (start.plusOrSelf p.lease) from hboth.2
  induction hle with
  | refl => exact ⟨hpast, hguarded⟩
  | step hle ih =>
      obtain ⟨hpast, hguarded⟩ := ih (by omega)
      exact ⟨hpast.step hle,
        hguarded.step hclock hclaims hplain hstart hi₀ hle (by omega) hpast⟩

/-- Another cycle's fetch returns the message only once the guard is lifted. -/
theorem Guarded.lifted {i f limit : Nat} {claim c : ClaimToken} {id : MessageId}
    {ends now : Instant} {length : Duration} (hguarded : r.Guarded i f claim id ends)
    (hclaims : r.ClaimsAreCycles) (hcalls : r.Calls f (.fetch c limit now length))
    (hmem : id ∈ ((r.table f).fetched limit now).map Message.id) :
    (∃ k shown, k < f ∧ (r.event k).reading? = some shown ∧ ends ≤ shown) ∨
      ∃ k, i < k ∧ k < f ∧ r.Marks k claim id := by
  cases hguarded with
  | elapsed hkf hreading hle => exact .inl ⟨_, _, hkf, hreading, hle⟩
  | marked hik hkf hmarks => exact .inr ⟨_, hik, hkf, hmarks⟩
  | leased hrow _ hlease hle =>
      obtain ⟨m, hm, rfl⟩ := List.mem_map.mp hmem
      obtain ⟨row, hrow', _, hclaimable⟩ := Table.exists_row_of_mem_fetched hm
      obtain rfl := Option.some.inj (hrow.symm.trans hrow')
      obtain ⟨_, k, hkf, hreading⟩ := hclaims.fetch_time hcalls
      have hend := (Row.isClaimable_iff.mp hclaimable).2.2 _ hlease
      exact .inl ⟨k, now, hkf, hreading, Instant.le_trans hle hend⟩

/-- The time for the renewal before a dispatch is read after the fetch. -/
theorem ClaimsAreCycles.renewal_time (hclaims : r.ClaimsAreCycles) {f j limit : Nat}
    {claim c : ClaimToken} {ids : List MessageId} {now start : Instant} {length length' : Duration}
    (hcalls : r.Calls f (.fetch claim limit now length)) (hlt : f < j)
    (hrenewal : (r.state j).request? claim = some (.store (.renew c ids start length'))) :
    ∃ k, f < k ∧ (r.event k).reading? = some start := by
  obtain ⟨⟨fate, hevent⟩, _⟩ := hclaims.fetch_time hcalls
  obtain ⟨k, hkj, htime, hquiet⟩ := Run.renewal_time hrenewal
  refine ⟨k, ?_, congrArg Event.reading? htime⟩
  rcases Nat.lt_trichotomy f k with hfk | rfl | hkf
  · exact hfk
  · cases hevent.symm.trans htime
  · exact (hquiet f hkf hlt fate hevent).elim

/-- Cycles of different claims begin dispatches of one message only with a fetch of the later one in
between. -/
theorem fetch_between {i j : Nat} {first second : ClaimToken} {m m' : Message}
    (hclaims : r.ClaimsAreCycles) (hne : first ≠ second) (hsame : m'.id = m.id)
    (hfirst : r.Begins i first m) (hsecond : r.Begins j second m') (hlater : i < j) :
    ∃ f now, i < f ∧ f < j ∧ r.Fetches f second m.id now := by
  obtain ⟨row₁, hrow₁, hheld₁⟩ := held_of_begins hfirst
  obtain ⟨row₂, hrow₂, hheld₂⟩ := held_of_begins hsecond
  rw [hsame] at hrow₂
  have hnot : ∀ row, (r.table i).row? m.id = some row → ¬ row.isHeldBy second := by
    intro row hrow hheld
    obtain rfl := Option.some.inj (hrow₁.symm.trans hrow)
    exact hne (Row.holder_unique hheld₁ hheld)
  obtain ⟨f, now, hif, hfj, hfetches⟩ := fetched_of_held hnot (Nat.le_of_lt hlater) hrow₂ hheld₂
  refine ⟨f, now, ?_, hfj, hfetches⟩
  rcases Nat.lt_or_eq_of_le hif with hlt | rfl
  · exact hlt
  · -- the step in which the first dispatch begins is one of the first cycle
    obtain ⟨_, _, hcalls, _⟩ := hfetches
    obtain ⟨⟨fate, hevent⟩, _⟩ := hclaims.fetch_time hcalls
    cases (event_of_begins hfirst).symm.trans hevent
    exact (hne rfl).elim

/-- If two cycles dispatch the same message, the later one renews its claim no earlier than the
lease of the earlier one's renewal ends, unless the earlier one had its outcome recorded before the
later one fetched the message, or has meanwhile renewed the message within a leap second. -/
theorem leases_exclude {i j : Nat} {first second : ClaimToken} {m m' : Message}
    {ids ids' : List MessageId} {t₁ t₂ : Instant} {lease' : Duration}
    (hclock : r.Clocked lease) (hclaims : r.ClaimsAreCycles)
    (hplain : r.RenewsPlainly i j first m.id) (hne : first ≠ second) (hsame : m'.id = m.id)
    (hfirst : r.Begins i first m)
    (hfirstRenewal : (r.state i).request? first = some (.store (.renew first ids t₁ lease)))
    (hsecond : r.Begins j second m')
    (hsecondRenewal : (r.state j).request? second = some (.store (.renew second ids' t₂ lease')))
    (hlater : i < j) :
    (∃ ends, t₁.plus? lease = some ends ∧ ends ≤ t₂) ∨
      ∃ k f now, i < k ∧ k < f ∧ f < j ∧ r.Marks k first m.id ∧ r.Fetches f second m.id now := by
  obtain ⟨f, now, hif, hfj, hfetches⟩ := fetch_between hclaims hne hsame hfirst hsecond hlater
  have hguarded := guarded_from hclock hclaims hplain hfirst hfirstRenewal hif (Nat.le_of_lt hfj)
  obtain ⟨limit, length, hcalls, hmem⟩ := hfetches
  rcases hguarded.lifted hclaims hcalls hmem with
    ⟨k, shown, hkf, hshown, hends⟩ | ⟨k, hik, hkf, hmarks⟩
  · obtain ⟨k₁, _, htime₁, _⟩ := Run.renewal_time hfirstRenewal
    obtain ⟨k₂, hfk₂, hreading₂⟩ := hclaims.renewal_time hcalls hfj hsecondRenewal
    have hreading₁ : (r.event k₁).reading? = some t₁ := congrArg Event.reading? htime₁
    obtain ⟨ends, hplus⟩ := Option.isSome_iff_exists.mp (hclock.fits hreading₁)
    rw [Instant.plusOrSelf_eq hplus] at hends
    have hpassed : shown ≤ t₂ := hclock.monotone (by omega) hshown hreading₂
    exact .inl ⟨ends, hplus, Instant.le_trans hends hpassed⟩
  · exact .inr ⟨k, f, now, hik, hkf, hfj, hmarks, limit, length, hcalls, hmem⟩

/-- A script is one of cycles when nobody else in it makes a call under a claim. -/
theorem claimsAreCycles_ofScript {t : Table} {script : List Event}
    {hpossible : ((Fleet.initial t).after script).isSome}
    (hcycles : ∀ n (hlt : n < script.length), ∀ call ∈ script[n].outside?, call.claim? = none) :
    (ofScript t script hpossible).ClaimsAreCycles :=
  forall_event_ofScript (P := fun _ e => ∀ call ∈ e.outside?, call.claim? = none)
    (fun n call hmem => by cases hmem) hcycles

theorem clocked_ofScript {t : Table} {script : List Event} {lease : Duration}
    {hpossible : ((Fleet.initial t).after script).isSome}
    (hordered : (script.filterMap Event.reading?).Pairwise (· ≤ ·))
    (hfits : ∀ n (hlt : n < script.length), ∀ now ∈ script[n].reading?,
      (now.plus? lease).isSome) : (ofScript t script hpossible).Clocked lease where
  monotone := reading_mono_ofScript hordered
  fits {n} :=
    forall_event_ofScript (P := fun _ e => ∀ now ∈ e.reading?, (now.plus? lease).isSome)
      (fun n now hmem => by cases hmem) hfits n _

/-- One cycle begins to dispatch a message, renews its claim at one heartbeat, and is not heard of
again. Later another cycle takes the message over. -/
def takeover (lease : Duration) (start beat later : Instant) : List Event :=
  let p : Processor := ⟨.immediate, 1, .ofSeconds 5, lease⟩
  let first := ClaimToken.numbered 1
  let second := ClaimToken.numbered 2
  [.begin first p, .time first start, .store first .served, .stopFlag first false,
    .time first start, .store first .served, .beat first beat, .renewal first .served,
    .begin second p, .time second later, .store second .served, .stopFlag second false,
    .time second later, .store second .served]

def takeoverTable : Table := .single ⟨.numbered 1 "order" .epoch, none⟩

/-- The lease takes three seconds, and the heartbeat comes after one. -/
def takeoverRun : Run :=
  ofScript takeoverTable (takeover (.ofSeconds 3) .epoch (.numbered 1) (.numbered 4))
    (by decide +kernel)

theorem takeoverRun_clocked : takeoverRun.Clocked (.ofSeconds 3) :=
  clocked_ofScript (by decide +kernel) (by decide +kernel)

theorem takeoverRun_claimsAreCycles : takeoverRun.ClaimsAreCycles :=
  claimsAreCycles_ofScript (by decide +kernel)

/-- The other cycle gets the message when the lease of the heartbeat is over, later than the lease
of the renewal before the dispatch. -/
theorem leases_exclude_takeover :
    let m := Message.numbered 1 "order" .epoch
    takeoverRun.Begins 5 (.numbered 1) m ∧ takeoverRun.Begins 13 (.numbered 2) m ∧
      takeoverRun.event 6 = .beat (.numbered 1) (.numbered 1) ∧
      ((∃ ends, Instant.epoch.plus? (.ofSeconds 3) = some ends ∧ ends ≤ .numbered 4) ∨
        ∃ k f now, 5 < k ∧ k < f ∧ f < 13 ∧ takeoverRun.Marks k (.numbered 1) m.id ∧
          takeoverRun.Fetches f (.numbered 2) m.id now) := by
  intro m
  have hfirst : takeoverRun.Begins 5 (.numbered 1) m :=
    ⟨⟨.numbered 1, [m.id], .ofSeconds 3⟩, by decide +kernel, by decide +kernel⟩
  have hsecond : takeoverRun.Begins 13 (.numbered 2) m :=
    ⟨⟨.numbered 2, [m.id], .ofSeconds 3⟩, by decide +kernel, by decide +kernel⟩
  have hfirstRenewal : (takeoverRun.state 5).request? (.numbered 1) =
      some (.store (.renew (.numbered 1) [m.id] .epoch (.ofSeconds 3))) := by decide +kernel
  have hsecondRenewal : (takeoverRun.state 13).request? (.numbered 2) =
      some (.store (.renew (.numbered 2) [m.id] (.numbered 4) (.ofSeconds 3))) := by decide +kernel
  have hplain : takeoverRun.RenewsPlainly 5 13 (.numbered 1) m.id := by
    intro k ids now lease _ _ hcalls _
    -- no reading at all is within a leap second
    obtain ⟨⟨reading, _, hreading⟩, _⟩ := takeoverRun_claimsAreCycles.grant hcalls rfl
    exact forall_event_ofScript (P := fun _ e => ∀ now ∈ e.reading?, now.isLeap = false)
      (fun n now hmem => by cases hmem) (by decide +kernel) reading now hreading
  have hne : ClaimToken.numbered 1 ≠ .numbered 2 := by decide
  exact ⟨hfirst, hsecond, rfl, leases_exclude takeoverRun_clocked takeoverRun_claimsAreCycles
    hplain hne rfl hfirst hfirstRenewal hsecond hsecondRenewal (by decide)⟩

/-! ### A heartbeat within a leap second -/

/-- A tenth of a second before the leap second. -/
def beforeLeap : Instant := ⟨59, 900000000, by decide, by decide⟩

def withinLeap : Instant := ⟨59, 1233000000, by decide, by decide⟩

def afterLeap : Instant := ⟨60, 233000000, by decide, by decide⟩

/-- The lease takes one second. From before the leap second it ends at 60.9 seconds, and from within
it at 60.233 seconds. -/
def leapRun : Run :=
  ofScript takeoverTable (takeover (.ofSeconds 1) beforeLeap withinLeap afterLeap)
    (by decide +kernel)

theorem leapRun_clocked : leapRun.Clocked (.ofSeconds 1) :=
  clocked_ofScript (by decide +kernel) (by decide +kernel)

theorem leapRun_claimsAreCycles : leapRun.ClaimsAreCycles :=
  claimsAreCycles_ofScript (by decide +kernel)

/-- The first cycle records no outcome. -/
theorem leapRun_not_marks {k : Nat} (hlt : 5 < k) (id : MessageId) :
    ¬ leapRun.Marks k (.numbered 1) id := by
  have hlast : ∀ n, (leapRun.event n).claim? = some (.numbered 1) → n ≤ 7 :=
    forall_event_ofScript (P := fun n e => e.claim? = some (.numbered 1) → n ≤ 7)
      (fun n hclaim => by cases hclaim) (by decide +kernel)
  -- its last events are a heartbeat and the renewal at it
  have hnever : ∀ fate, leapRun.event k ≠ .store (.numbered 1) fate := by
    intro fate hevent
    have hle := hlast k (congrArg Event.claim? hevent)
    obtain rfl | rfl : k = 6 ∨ k = 7 := by omega
    · cases hevent
    · cases hevent
  have hmaker : ∀ call, leapRun.Calls k call → call.claim? = some (.numbered 1) →
      ∃ held now lease, call = .renew (.numbered 1) held now lease := by
    intro call hcalls hclaim
    obtain ⟨w, _, hmakes⟩ := leapRun_claimsAreCycles.maker hcalls hclaim
    generalize hevent : leapRun.event k = e at hmakes
    cases hmakes with
    | itself fate => exact (hnever fate hevent).elim
    | heartbeat => exact ⟨_, _, _, congrArg (StoreCall.renew · _ _ _) (Option.some.inj hclaim)⟩
  rintro (⟨time, hcalls⟩ | ⟨error, nextRun, hcalls⟩)
  · obtain ⟨_, _, _, heq⟩ := hmaker _ hcalls rfl
    cases heq
  · obtain ⟨_, _, _, heq⟩ := hmaker _ hcalls rfl
    cases heq

/-- After a heartbeat within a leap second another cycle begins to dispatch the message before the
lease of the renewal before the first dispatch is over, and the first cycle has recorded no
outcome. -/
theorem not_excluded_across_leap_second :
    let m := Message.numbered 1 "order" .epoch
    leapRun.Clocked (.ofSeconds 1) ∧ leapRun.ClaimsAreCycles ∧
      ClaimToken.numbered 1 ≠ .numbered 2 ∧
      leapRun.Begins 5 (.numbered 1) m ∧ (leapRun.state 5).request? (.numbered 1) =
        some (.store (.renew (.numbered 1) [m.id] beforeLeap (.ofSeconds 1))) ∧
      leapRun.Begins 13 (.numbered 2) m ∧ (leapRun.state 13).request? (.numbered 2) =
        some (.store (.renew (.numbered 2) [m.id] afterLeap (.ofSeconds 1))) ∧
      ¬ ((∃ ends, beforeLeap.plus? (.ofSeconds 1) = some ends ∧ ends ≤ afterLeap) ∨
        ∃ k f now, 5 < k ∧ k < f ∧ f < 13 ∧ leapRun.Marks k (.numbered 1) m.id ∧
          leapRun.Fetches f (.numbered 2) m.id now) := by
  intro m
  have hfirst : leapRun.Begins 5 (.numbered 1) m :=
    ⟨⟨.numbered 1, [m.id], .ofSeconds 1⟩, by decide +kernel, by decide +kernel⟩
  have hsecond : leapRun.Begins 13 (.numbered 2) m :=
    ⟨⟨.numbered 2, [m.id], .ofSeconds 1⟩, by decide +kernel, by decide +kernel⟩
  refine ⟨leapRun_clocked, leapRun_claimsAreCycles, by decide, hfirst, by decide +kernel, hsecond,
    by decide +kernel, ?_⟩
  rintro (⟨ends, hends, hle⟩ | ⟨k, f, now, hlt, _, _, hmarks, _⟩)
  · have hlate : beforeLeap.plus? (.ofSeconds 1) =
        some ⟨60, 900000000, by decide, by decide⟩ := by decide +kernel
    cases hlate.symm.trans hends
    exact absurd hle (by decide)
  · exact leapRun_not_marks hlt _ hmarks

end Run

end Outbox
