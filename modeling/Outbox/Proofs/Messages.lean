import Outbox.Message
import Outbox.Proofs.Instants

/-! # What an attempt makes of a message

Marks move a message forward: what the producer wrote stays as it is, the schedule and the retry
count only grow, and success is recorded once. Its fields stay in keeping with each other: a message
has an error just when it has failed and is not processed.
-/

namespace Outbox

theorem le_incrementCapped (count : UInt32) : count ≤ incrementCapped count := by
  rw [UInt32.le_iff_toNat_le, toNat_incrementCapped]
  have hbound := count.toNat_lt
  omega

theorem lt_incrementCapped (count : UInt32) :
    count < incrementCapped count ∨ count = 0xFFFFFFFF := by
  by_cases hmax : count = 0xFFFFFFFF
  · exact .inr hmax
  · have hne : count.toNat ≠ 4294967295 := fun heq => hmax (UInt32.toNat_inj.mp heq)
    have hbound := count.toNat_lt
    rw [UInt32.lt_iff_toNat_lt, toNat_incrementCapped]
    exact .inl (by omega)

theorem incrementCapped_pos (count : UInt32) : 0 < incrementCapped count := by
  rw [UInt32.lt_iff_toNat_lt, toNat_incrementCapped]
  change 0 < _
  omega

namespace Message

/-- The message is as it was when it was first stored. -/
def IsNew (m : Message) : Prop :=
  ∃ id tag content createdAt scheduledAt, m = create id tag content createdAt scheduledAt

/-- A message is new if it has neither been processed nor failed, and is not scheduled before it was
created. -/
theorem isNew_iff {m : Message} : m.IsNew ↔
    m.processedAt = none ∧ m.error = none ∧ m.retryCount = 0 ∧ m.createdAt ≤ m.scheduledAt := by
  constructor
  · rintro ⟨id, tag, content, createdAt, scheduledAt, rfl⟩
    refine ⟨rfl, rfl, rfl, ?_⟩
    cases scheduledAt with
    | none => exact Instant.le_refl _
    | some time => exact Instant.le_max_right _ _
  · obtain ⟨id, tag, content, createdAt, scheduledAt, _, _, _⟩ := m
    rintro ⟨rfl, rfl, rfl, hle⟩
    exact ⟨id, tag, content, createdAt, some scheduledAt,
      congrArg (Message.mk id tag content createdAt · none none 0) (Instant.max_eq_left hle).symm⟩

instance (m : Message) : Decidable m.IsNew := decidable_of_iff _ isNew_iff.symm

/-- What may become of a message. -/
structure Advances (before after : Message) : Prop where
  id : after.id = before.id
  tag : after.tag = before.tag
  content : after.content = before.content
  createdAt : after.createdAt = before.createdAt
  scheduledAt : before.scheduledAt ≤ after.scheduledAt
  retryCount : before.retryCount ≤ after.retryCount
  processedAt : ∀ time ∈ before.processedAt, after.processedAt = some time

/-- The fields of a message are in keeping with each other. -/
structure Sound (m : Message) : Prop where
  scheduled : m.createdAt ≤ m.scheduledAt
  processed : m.isProcessed → m.error = none
  unprocessed : m.isProcessed = false → (m.error.isSome ↔ 0 < m.retryCount)

theorem Advances.refl (m : Message) : m.Advances m where
  id := rfl
  tag := rfl
  content := rfl
  createdAt := rfl
  scheduledAt := Instant.le_refl _
  retryCount := UInt32.le_refl _
  processedAt _ hsome := hsome

theorem Advances.trans {a b c : Message} (hab : a.Advances b) (hbc : b.Advances c) :
    a.Advances c where
  id := hbc.id.trans hab.id
  tag := hbc.tag.trans hab.tag
  content := hbc.content.trans hab.content
  createdAt := hbc.createdAt.trans hab.createdAt
  scheduledAt := Instant.le_trans hab.scheduledAt hbc.scheduledAt
  retryCount := UInt32.le_trans hab.retryCount hbc.retryCount
  processedAt time hsome := hbc.processedAt time (hab.processedAt time hsome)

theorem isProcessed_markProcessed (m : Message) (now : Instant) :
    (m.markProcessed now).isProcessed := by
  unfold markProcessed
  split
  next hprocessed => exact hprocessed
  next => rfl

/-- Marking a processed message again changes nothing. -/
theorem markProcessed_of_isProcessed {m : Message} (hprocessed : m.isProcessed) (now : Instant) :
    m.markProcessed now = m :=
  if_pos hprocessed

theorem markProcessed_of_open {m : Message} (hopen : m.isProcessed = false) (now : Instant) :
    m.markProcessed now = { m with processedAt := some now, error := none } :=
  if_neg (Bool.eq_false_iff.mp hopen)

/-- A failure of an open message is counted and its text kept, and the next run, if there is one,
replaces the schedule, as far as it is later. -/
theorem markFailed_eq {m : Message} (hopen : m.isProcessed = false) (error : String)
    (nextRun : Option Instant) :
    m.markFailed error nextRun = { m with
      retryCount := incrementCapped m.retryCount
      error := some error
      scheduledAt := match nextRun with
        | some next => max m.scheduledAt next
        | none => m.scheduledAt } :=
  if_neg (Bool.eq_false_iff.mp hopen)

theorem markFailed_of_open {m : Message} (hopen : m.isProcessed = false) (error : String)
    (nextRun : Option Instant) :
    (m.markFailed error nextRun).isProcessed = false ∧
      (m.markFailed error nextRun).retryCount = incrementCapped m.retryCount := by
  rw [markFailed_eq hopen]
  exact ⟨hopen, rfl⟩

theorem advances_markProcessed (m : Message) (time : Instant) :
    m.Advances (m.markProcessed time) := by
  unfold markProcessed
  split
  next => exact .refl m
  next hopen =>
    exact { Advances.refl m with
      processedAt := fun time hsome => (hopen (Option.isSome_of_mem hsome)).elim }

theorem advances_markFailed (m : Message) (error : String) (nextRun : Option Instant) :
    m.Advances (m.markFailed error nextRun) := by
  unfold markFailed
  split
  next => exact .refl m
  next =>
    refine { Advances.refl m with scheduledAt := ?_, retryCount := le_incrementCapped _ }
    cases nextRun with
    | none => exact Instant.le_refl _
    | some next => exact Instant.le_max_left _ _

theorem IsNew.isProcessed {m : Message} (hnew : m.IsNew) : m.isProcessed = false := by
  rw [Message.isProcessed, (isNew_iff.mp hnew).1]
  rfl

theorem IsNew.sound {m : Message} (hnew : m.IsNew) : m.Sound := by
  obtain ⟨_, herror, hcount, hle⟩ := isNew_iff.mp hnew
  refine ⟨hle, fun _ => herror, fun _ => ?_⟩
  rw [herror, hcount]
  exact iff_of_false Bool.false_ne_true (UInt32.lt_irrefl 0)

theorem Sound.markProcessed {m : Message} (hsound : m.Sound) (time : Instant) :
    (m.markProcessed time).Sound := by
  have hadvances := m.advances_markProcessed time
  refine ⟨?_, ?_, ?_⟩
  · rw [hadvances.createdAt]
    exact Instant.le_trans hsound.scheduled hadvances.scheduledAt
  · unfold Message.markProcessed
    split
    next hprocessed => exact fun _ => hsound.processed hprocessed
    next => exact fun _ => rfl
  · unfold Message.markProcessed
    split
    next => exact hsound.unprocessed
    next => exact fun hopen => by cases hopen

theorem Sound.markFailed {m : Message} (hsound : m.Sound) (error : String)
    (nextRun : Option Instant) : (m.markFailed error nextRun).Sound := by
  have hadvances := m.advances_markFailed error nextRun
  refine ⟨?_, ?_, ?_⟩
  · rw [hadvances.createdAt]
    exact Instant.le_trans hsound.scheduled hadvances.scheduledAt
  · unfold Message.markFailed
    split
    next => exact hsound.processed
    next hopen => exact fun hprocessed => (hopen hprocessed).elim
  · unfold Message.markFailed
    split
    next => exact hsound.unprocessed
    next => exact fun _ => iff_of_true rfl (incrementCapped_pos _)

end Message

end Outbox
