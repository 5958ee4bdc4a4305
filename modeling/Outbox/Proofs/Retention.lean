import Outbox.Proofs.Scripts
import Outbox.Proofs.Settings
import Outbox.Proofs.Solo
import Outbox.Sweeper

/-! # The retention window

A sweep deletes the messages that were processed before the retention window, however the beginning
of the window is rounded, as long as there is an instant at which it begins. A window that reaches
back further than instants do is not kept: the sweep then deletes whatever was processed before the
present.
-/

namespace Outbox

namespace Config

/-- Where the retention window begins, in nanoseconds since 1970. There need not be an instant. -/
def windowStart (c : Config) (now : Instant) : Int :=
  now.nanos - c.retentionDays * 86400 * 1000000000

def WindowInRange (c : Config) (now : Instant) : Prop :=
  Instant.firstSecond * 1000000000 ≤ c.windowStart now

instance (c : Config) (now : Instant) : Decidable (c.WindowInRange now) :=
  inferInstanceAs (Decidable (_ ≤ _))

end Config

namespace Instant

/-- The instant is earlier than the point so many nanoseconds after 1970 began, in whatever
direction and distance that lies. -/
def isBefore (i : Instant) (nanos : Int) : Bool :=
  i.second < nanos / 1000000000 || i.second = nanos / 1000000000 && i.fraction < nanos % 1000000000

/-- For instants outside of leap seconds this is a comparison of nanoseconds. -/
theorem isBefore_iff_nanos {i : Instant} (hplain : i.isLeap = false) {nanos : Int} :
    i.isBefore nanos ↔ i.nanos < nanos := by
  simp only [isLeap, decide_eq_false_iff_not] at hplain
  simp only [isBefore, Bool.or_eq_true, Bool.and_eq_true, decide_eq_true_eq, Instant.nanos]
  omega

/-- An instant that nanoseconds lead to is later than just those that are before these. -/
theorem lt_ofNanos? {i bound : Instant} {nanos : Int} (hbound : ofNanos? nanos = some bound) :
    i < bound ↔ i.isBefore nanos := by
  obtain ⟨hsecond, hfraction⟩ := ofSecond?_eq_some.mp hbound
  have hless := i.fraction_lt
  simp only [isBefore, Bool.or_eq_true, Bool.and_eq_true, decide_eq_true_eq, lt_iff, rank]
  omega

theorem isBefore_of_lt {i : Instant} {nanos : Int} (hlt : nanos < firstSecond * 1000000000) :
    i.isBefore nanos = false := by
  have hrange := i.inRange.1
  simp only [isBefore, Bool.or_eq_false_iff, decide_eq_false_iff_not, Bool.and_eq_false_iff]
  omega

end Instant

namespace Table

/-- The table without the processed messages whose time of success is among these. -/
def without (t : Table) (expired : Instant → Bool) : Table :=
  t.filterRows fun r => r.message.processedAt.all fun time => !expired time

end Table

namespace Sweeper

variable {c : Config} {now : Instant}

/-- The cutoff is the start of the window, if there is such an instant. -/
theorem shift_retention (hdays : 1 ≤ c.retentionDays) (now : Instant) :
    now.shift? (-(ofConfig c).retention) = Instant.ofNanos? (c.windowStart now) := by
  have hretention : (ofConfig c).retention = c.retentionDays * 86400 * 1000000000 := by
    simp [ofConfig, Config.retention, Duration.ofSeconds]
  -- the window is longer than a leap second, so it does not end within one
  have hless := now.fraction_lt
  rw [Instant.shift?, if_neg (by omega), hretention, Config.windowStart, Int.sub_eq_add_neg]

/-- Where the window begins at an instant, just what is older is deleted. -/
theorem lt_cutoff_of_inRange (hdays : 1 ≤ c.retentionDays) (hrange : c.WindowInRange now)
    (time : Instant) : time < (ofConfig c).cutoff now ↔ time.isBefore (c.windowStart now) := by
  have hless := now.fraction_lt
  have hlast := now.inRange.2
  have hstart : ∃ start, Instant.ofNanos? (c.windowStart now) = some start := by
    simp only [Config.WindowInRange, Config.windowStart, Instant.nanos] at hrange ⊢
    rw [Instant.ofNanos?, Instant.ofSecond?, dif_pos (by omega), dif_pos (by omega)]
    exact ⟨_, rfl⟩
  obtain ⟨start, hstart⟩ := hstart
  rw [cutoff, shift_retention hdays, hstart]
  exact Instant.lt_ofNanos? hstart

/-- Otherwise the present takes its place. -/
theorem cutoff_of_not_inRange (hdays : 1 ≤ c.retentionDays) (hrange : ¬ c.WindowInRange now) :
    (ofConfig c).cutoff now = now := by
  rw [cutoff, shift_retention hdays]
  have hnone : Instant.ofNanos? (c.windowStart now) = none := by
    rw [Config.WindowInRange] at hrange
    rw [Instant.ofNanos?, Instant.ofSecond?, dif_neg (by omega)]
  rw [hnone, Option.getD_none]

end Sweeper

namespace Table

/-- A sweep deletes what was processed before its cutoff. -/
theorem deleteProcessed_snd (t : Table) (cutoff : Instant) :
    (t.deleteProcessed cutoff).2 = t.without fun time => time < cutoff := by
  have hkeeps : ∀ time, decide (cutoff ≤ time) = !decide (time < cutoff) := by
    intro time
    by_cases hlt : time < cutoff
    · simp [hlt, Instant.not_le.mpr hlt]
    · simp [hlt, Instant.not_lt.mp hlt]
  simp only [deleteProcessed, without, hkeeps]

theorem length_deleteProcessed (t : Table) (cutoff : Instant) :
    (t.deleteProcessed cutoff).2.rows.length + (t.deleteProcessed cutoff).1 = t.rows.length := by
  have hle : (t.deleteProcessed cutoff).2.rows.length ≤ t.rows.length := List.length_filter_le _ _
  change _ + (t.rows.length - (t.deleteProcessed cutoff).2.rows.length) = _
  omega

theorem without_eq_self {t : Table} {expired : Instant → Bool} :
    t.without expired = t ↔
      ∀ m ∈ t.messages, ∀ time ∈ m.processedAt, expired time = false := by
  have hrows : t.without expired = t ↔ t.rows.filter (fun r =>
      r.message.processedAt.all fun time => !expired time) = t.rows := by
    obtain ⟨rows, entities, _⟩ := t
    simp [without, filterRows]
  rw [hrows, List.filter_eq_self]
  simp [messages, Option.all_eq_true]

end Table

def Surroundings.sweep {σ : Type} (world : Surroundings σ) (s : Sweeper) (scene : Scene σ) :
    Except Failure Nat × Scene σ :=
  s.sweep.run world.answer scene

/-- When instants reach back to the beginning of the retention window, a sweep deletes exactly the
messages processed before it. When they do not, it deletes what was processed before the present,
so that what the window asks for happens only if there is no such message. -/
theorem Surroundings.sweep_deletes {σ : Type} (world : Surroundings σ) (scene : Scene σ)
    {lookup : String → Option String} {c : Config} (hconfig : Config.ofLookup lookup = .ok c) :
    let now := (world.read scene.outside).1
    let kept := scene.table.without fun time => time.isBefore (c.windowStart now)
    let done := world.sweep (.ofConfig c) scene
    (∃ count, done.1 = .ok count ∧ done.2.table.rows.length + count = scene.table.rows.length) ∧
      (c.WindowInRange now → done.2.table = kept) ∧
      (¬ c.WindowInRange now →
        kept = scene.table ∧ done.2.table = scene.table.without fun time => time < now) ∧
      (done.2.table = kept ↔ c.WindowInRange now ∨
        ∀ m ∈ scene.table.messages, ∀ time ∈ m.processedAt, now ≤ time) := by
  intro now kept done
  have hdays := Config.retentionDays_pos hconfig
  have htable : done.2.table = scene.table.without fun time =>
      time < (Sweeper.ofConfig c).cutoff now := Table.deleteProcessed_snd _ _
  have hin (hrange : c.WindowInRange now) : done.2.table = kept := by
    rw [htable]
    refine congrArg scene.table.without (funext fun time => ?_)
    rw [Bool.eq_iff_iff, decide_eq_true_eq]
    exact Sweeper.lt_cutoff_of_inRange hdays hrange time
  have hout (hrange : ¬ c.WindowInRange now) :
      kept = scene.table ∧ done.2.table = scene.table.without fun time => time < now := by
    rw [htable, Sweeper.cutoff_of_not_inRange hdays hrange]
    refine ⟨Table.without_eq_self.mpr fun m _ time _ => ?_, rfl⟩
    exact Instant.isBefore_of_lt (Int.not_le.mp hrange)
  refine ⟨⟨_, rfl, Table.length_deleteProcessed _ _⟩, hin, hout, ?_⟩
  by_cases hrange : c.WindowInRange now
  · exact iff_of_true (hin hrange) (.inl hrange)
  · obtain ⟨hkept, hdone⟩ := hout hrange
    rw [hdone, hkept, Table.without_eq_self]
    simp only [decide_eq_false_iff_not, Instant.not_lt, hrange, false_or]

/-- The longest window that is accepted. -/
def keepForever (key : String) : Option String :=
  if key = "OUTBOX_RETENTION_DAYS" then some "4294967295" else none

/-- A message is processed as 1970 begins, and the clock shows the second after. -/
def justProcessed : Scene Unit where
  table := .single ⟨(Message.numbered 1 "order" .epoch).markProcessed .epoch, none⟩
  outside := ()
  dispatched := []

def secondOne : Surroundings Unit where
  read _ := (.numbered 1, ())
  deliver _ _ := ((.ok .unhandled, []), ())

/-- With a window of millions of years the message is lost after a second. -/
theorem Surroundings.sweep_deletes_justProcessed :
    ∃ c, Config.ofLookup keepForever = .ok c ∧ c.retentionDays = 4294967295 ∧
      (secondOne.sweep (.ofConfig c) justProcessed).2.table ≠
        justProcessed.table.without fun time =>
          time.isBefore (c.windowStart (secondOne.read ()).1) := by
  have haccepted : (Config.ofLookup keepForever).toOption.map (·.retentionDays) =
      some 4294967295 := by decide +kernel
  cases hconfig : Config.ofLookup keepForever with
  | error e => rw [hconfig] at haccepted; cases haccepted
  | ok c =>
      rw [hconfig] at haccepted
      have hdays : c.retentionDays = 4294967295 := Option.some.inj haccepted
      refine ⟨c, rfl, hdays, fun hkept => ?_⟩
      obtain ⟨_, _, _, hiff⟩ := secondOne.sweep_deletes justProcessed hconfig
      rcases hiff.mp hkept with hrange | hlate
      · rw [Config.WindowInRange, Config.windowStart, hdays] at hrange
        exact absurd hrange (by decide)
      · exact absurd (hlate _ List.mem_cons_self .epoch rfl) (by decide)

end Outbox
