import Outbox.Proofs.Scripts
import Outbox.Proofs.Solo

/-! # How long a message may wait

A message that is due and unclaimed is passed over by a cycle only if the batch is full of messages
ahead of it. Each of these is attempted, and unless it fails and stays ahead there is one fewer
ahead of the message afterwards. So the message waits for no more cycles than there are unprocessed
messages, except for cycles that are spent on a full batch of messages of which each one fails and
keeps its place. With immediate retry, where a failure does not move the schedule, such a batch
holds the message up for good.
-/

namespace Outbox

/-- An open message is recorded as processed, or as failed once more. -/
theorem Delivery.recorded_cases (d : Delivery) (policy : RetryPolicy)
    (hopen : d.message.isProcessed = false) :
    (d.recorded policy).isProcessed ∨ ∃ failure,
      d.recorded policy = d.message.markFailed failure
        (policy.nextRunAt (incrementCapped d.message.retryCount) d.time) := by
  unfold recorded
  split
  · refine .inl ?_
    simp only [Message.markProcessed, hopen, Bool.false_eq_true, ↓reduceIte]
    rfl
  · exact .inr ⟨_, rfl⟩

namespace Table

/-- The ids of the unprocessed messages that come before this one. -/
def ahead (t : Table) (m : Message) : List MessageId :=
  (t.rows.filter fun r =>
    !r.message.isProcessed && r.id != m.id && r.message.scheduledBefore m).map Row.id

variable {t : Table} {m : Message}

theorem mem_ahead {id : MessageId} : id ∈ t.ahead m ↔ ∃ r, t.row? id = some r ∧
    r.message.isProcessed = false ∧ id ≠ m.id ∧ r.message.scheduledBefore m := by
  simp only [ahead, List.mem_map, List.mem_filter, row?_eq_some, Bool.and_eq_true,
    Bool.not_eq_true', bne_iff_ne]
  constructor
  · rintro ⟨r, ⟨hmem, ⟨hopen, hne⟩, hbefore⟩, rfl⟩
    exact ⟨r, ⟨hmem, rfl⟩, hopen, hne, hbefore⟩
  · rintro ⟨r, ⟨hmem, rfl⟩, hopen, hne, hbefore⟩
    exact ⟨r, ⟨hmem, ⟨hopen, hne⟩, hbefore⟩, rfl⟩

theorem ahead_nodup (t : Table) (m : Message) : (t.ahead m).Nodup :=
  t.distinctIds.sublist (List.filter_sublist.map Row.id)

/-- A message comes after fewer unprocessed messages than there are. -/
theorem length_ahead_lt (hrow : t.row? m.id = some ⟨m, none⟩) (hopen : m.isProcessed = false) :
    (t.ahead m).length < (t.rows.filter fun r => !r.message.isProcessed).length := by
  have hnot : m.id ∉ t.ahead m := fun hmem => by
    obtain ⟨_, _, _, hne, _⟩ := mem_ahead.mp hmem
    exact hne rfl
  have hnodup : (m.id :: t.ahead m).Nodup := List.nodup_cons.mpr ⟨hnot, t.ahead_nodup m⟩
  have hsubset : m.id :: t.ahead m ⊆ t.openIds := by
    intro id hmem
    rcases List.mem_cons.mp hmem with rfl | hahead
    · exact mem_openIds.mpr ⟨_, hrow, hopen⟩
    · obtain ⟨r, hrow', hopen', _⟩ := mem_ahead.mp hahead
      exact mem_openIds.mpr ⟨r, hrow', hopen'⟩
  have hle := hnodup.length_le_of_subset hsubset
  rw [openIds, List.length_map, List.length_cons] at hle
  exact hle

end Table

namespace Surroundings

variable {σ : Type} (world : Surroundings σ) (p : Processor) (claim : ClaimToken)

/-- The message was attempted: it is processed, or it has failed once more, as far as failures are
counted. -/
def Attempted (s : Scene σ) (m : Message) : Prop :=
  m ∈ s.dispatched ∧ ∃ row, s.table.row? m.id = some row ∧
    (row.message.isProcessed ∨ m.retryCount < row.message.retryCount ∨ m.retryCount = 0xFFFFFFFF)

/-- The cycle is spent on a full batch of messages ahead of this one, all of which fail and stay
ahead of it. -/
def Jammed (s : Scene σ) (m : Message) : Prop :=
  let done := (world.cycle p claim s).2
  ∃ batch : List Message, batch.length = p.batchSize ∧ (batch.map Message.id).Nodup ∧
    done.dispatched = s.dispatched ++ batch ∧
    ∀ b ∈ batch, b.id ≠ m.id ∧ b.scheduledBefore m ∧ ∃ error time,
      let failed := b.markFailed error (p.retryPolicy.nextRunAt (incrementCapped b.retryCount) time)
      done.table.row? b.id = some ⟨failed, none⟩ ∧ failed.isProcessed = false ∧
        failed.scheduledBefore m

variable {s : Scene σ} {m : Message}

/-- What a cycle does to a row: nothing, unless its message is in the batch. -/
theorem cycle_row (s : Scene σ) {id : MessageId} {row : Row} (hrow : s.table.row? id = some row) :
    let done := (world.cycle p claim s).2
    (row.message ∉ s.table.fetched p.batchSize (world.read s.outside).1 ∧
        done.table.row? id = some row) ∨
      row.message ∈ s.table.fetched p.batchSize (world.read s.outside).1 ∧
        row.message.isProcessed = false ∧
        ∃ d : Delivery, d.message = row.message ∧
          done.table.row? id = some ⟨d.recorded p.retryPolicy, none⟩ ∧
          ∃ o, d.outcome = (world.deliver d.message o).1.1 := by
  intro done
  obtain ⟨_, _, hrows, hothers⟩ := world.cycle_effect p claim s
  obtain rfl := Table.row?_id hrow
  by_cases hmem : row.id ∈ (s.table.fetched p.batchSize (world.read s.outside).1).map Message.id
  · refine .inr ?_
    obtain ⟨b, hb, hid⟩ := List.mem_map.mp hmem
    obtain ⟨row', hrow', hmessage, hclaimable⟩ := Table.exists_row_of_mem_fetched hb
    rw [hid, hrow] at hrow'
    obtain rfl := Option.some.inj hrow'
    subst hmessage
    have hdeliveries := world.map_message_deliveries
      (s.table.fetched p.batchSize (world.read s.outside).1) (world.read s.outside).2
    rw [← hdeliveries] at hb
    obtain ⟨d, hd, hmessage⟩ := List.mem_map.mp hb
    refine ⟨hdeliveries ▸ hb, (Row.isClaimable_iff.mp hclaimable).1, d, hmessage, ?_,
      world.outcome_of_mem_deliveries hd⟩
    rw [← hrows d hd, hmessage]
    rfl
  · exact .inl ⟨fun hin => hmem (List.mem_map_of_mem hin), (hothers _ hmem).trans hrow⟩

theorem Attempted.cycle (hattempted : Attempted s m) :
    Attempted (world.cycle p claim s).2 m := by
  obtain ⟨hmem, row, hrow, hprogress⟩ := hattempted
  obtain ⟨_, hdispatched, _, _⟩ := world.cycle_effect p claim s
  refine ⟨hdispatched ▸ List.mem_append_left _ hmem, ?_⟩
  rcases world.cycle_row p claim s hrow with ⟨_, hsame⟩ | ⟨_, hopen, d, hd, hrecorded, _⟩
  · exact ⟨row, hsame, hprogress⟩
  · refine ⟨_, hrecorded, ?_⟩
    rw [← hd] at hopen hprogress
    rcases d.recorded_cases p.retryPolicy hopen with hprocessed | ⟨error, hfailed⟩
    · exact .inl hprocessed
    · refine .inr ?_
      rcases hprogress with hdone | hgrown | hmax
      · rw [hopen] at hdone
        cases hdone
      · refine .inl (UInt32.lt_of_lt_of_le hgrown ?_)
        rw [hfailed, (Message.markFailed_of_open hopen error _).2]
        exact le_incrementCapped _
      · exact .inr hmax

/-- What a cycle fetches it attempts. -/
theorem attempted_of_mem (hmem : m ∈ s.table.fetched p.batchSize (world.read s.outside).1) :
    Attempted (world.cycle p claim s).2 m := by
  obtain ⟨_, hdispatched, _, _⟩ := world.cycle_effect p claim s
  obtain ⟨row, hrow, hmessage, _⟩ := Table.exists_row_of_mem_fetched hmem
  refine ⟨hdispatched ▸ List.mem_append_right _ hmem, ?_⟩
  rcases world.cycle_row p claim s hrow with ⟨hnot, _⟩ | ⟨_, hopen, d, hd, hrecorded, _⟩
  · exact (hnot (hmessage ▸ hmem)).elim
  · refine ⟨_, hrecorded, ?_⟩
    obtain rfl : d.message = m := hd.trans hmessage
    rw [hmessage] at hopen
    rcases d.recorded_cases p.retryPolicy hopen with hprocessed | ⟨error, hfailed⟩
    · exact .inl hprocessed
    · refine .inr ?_
      rw [hfailed, (Message.markFailed_of_open hopen error _).2]
      exact lt_incrementCapped _

/-- No message gets ahead of another by being attempted. -/
theorem ahead_cycle_subset (s : Scene σ) (m : Message) :
    (world.cycle p claim s).2.table.ahead m ⊆ s.table.ahead m := by
  intro id hmem
  obtain ⟨after, hafter, hopen, hne, hbefore⟩ := Table.mem_ahead.mp hmem
  cases hrow : s.table.row? id with
  | none =>
      -- a cycle adds no rows: what it fetches is there before
      obtain ⟨_, _, _, hothers⟩ := world.cycle_effect p claim s
      rw [hothers id, hrow] at hafter
      · cases hafter
      · intro hin
        obtain ⟨b, hb, rfl⟩ := List.mem_map.mp hin
        obtain ⟨row, hrow', _⟩ := Table.exists_row_of_mem_fetched hb
        cases hrow.symm.trans hrow'
  | some row =>
      refine Table.mem_ahead.mpr ⟨row, hrow, ?_⟩
      rcases world.cycle_row p claim s hrow with ⟨_, hsame⟩ | ⟨_, hopen', d, hd, hrecorded, _⟩
      · obtain rfl := Option.some.inj (hsame.symm.trans hafter)
        exact ⟨hopen, hne, hbefore⟩
      · obtain rfl := Option.some.inj (hrecorded.symm.trans hafter)
        refine ⟨hopen', hne, ?_⟩
        rw [← hd] at hopen' ⊢
        rcases d.recorded_cases p.retryPolicy hopen' with hprocessed | ⟨error, hfailed⟩
        · rw [show (d.recorded p.retryPolicy).isProcessed = false from hopen] at hprocessed
          cases hprocessed
        · rw [hfailed] at hbefore
          exact Message.scheduledBefore_trans
            (d.message.advances_markFailed _ _).scheduledBefore hbefore

/-- A cycle that passes over a message is jammed, or leaves fewer messages ahead of it. -/
theorem jammed_or_ahead_lt (hrow : s.table.row? m.id = some ⟨m, none⟩)
    (hopen : m.isProcessed = false) (hdue : m.scheduledAt ≤ (world.read s.outside).1)
    (hnot : m ∉ s.table.fetched p.batchSize (world.read s.outside).1) :
    world.Jammed p claim s m ∨
      ((world.cycle p claim s).2.table.ahead m).length < (s.table.ahead m).length := by
  let batch := s.table.fetched p.batchSize (world.read s.outside).1
  have hclaimable : m ∈ s.table.claimable (world.read s.outside).1 :=
    Table.mem_claimable_of_unclaimed hrow hopen hdue
  obtain ⟨hfull, hbefore⟩ := Table.full_of_not_mem_fetched hclaimable hnot
  have hsubset := world.ahead_cycle_subset p claim s m
  have hne : ∀ b ∈ batch, b.id ≠ m.id := by
    intro b hb heq
    obtain ⟨row, hrow', rfl, _⟩ := Table.exists_row_of_mem_fetched hb
    rw [heq, hrow] at hrow'
    obtain rfl := Option.some.inj hrow'
    exact hnot hb
  have hbatch : ∀ b ∈ batch, b.id ∈ s.table.ahead m := by
    intro b hb
    obtain ⟨row, hrow', rfl, hclaimable'⟩ := Table.exists_row_of_mem_fetched hb
    exact Table.mem_ahead.mpr
      ⟨row, hrow', (Row.isClaimable_iff.mp hclaimable').1, hne _ hb, hbefore _ hb⟩
  by_cases hall : ∀ b ∈ batch, b.id ∈ (world.cycle p claim s).2.table.ahead m
  · refine .inl ⟨batch, hfull, s.table.fetched_nodup _ _, ?_, fun b hb => ?_⟩
    · exact (world.cycle_effect p claim s).2.1
    · -- what was attempted and is still ahead has failed
      refine ⟨hne b hb, hbefore b hb, ?_⟩
      obtain ⟨row, hrow', rfl, _⟩ := Table.exists_row_of_mem_fetched hb
      obtain ⟨after, hafter, hopen', _, hstays⟩ := Table.mem_ahead.mp (hall _ hb)
      rcases world.cycle_row p claim s hrow' with ⟨hout, _⟩ | ⟨_, hopen₀, d, hd, hrecorded, _⟩
      · exact (hout hb).elim
      · obtain rfl := Option.some.inj (hrecorded.symm.trans hafter)
        rw [← hd] at hopen₀
        rcases d.recorded_cases p.retryPolicy hopen₀ with hprocessed | ⟨error, hfailed⟩
        · rw [show (d.recorded p.retryPolicy).isProcessed = false from hopen'] at hprocessed
          cases hprocessed
        · rw [hfailed, hd] at hrecorded hopen' hstays
          exact ⟨error, d.time, hrecorded, hopen', hstays⟩
  · -- one of the batch has left the messages ahead, and none has joined them
    refine .inr ?_
    push Not at hall
    obtain ⟨b, hb, hgone⟩ := hall
    have hnodup := List.nodup_cons.mpr ⟨hgone, Table.ahead_nodup _ m⟩
    exact hnodup.length_le_of_subset (List.cons_subset.mpr ⟨hbatch b hb, hsubset⟩)

/-- As long as a message waits and no cycle is jammed, there are fewer and fewer ahead of it. -/
theorem waits_of_not_jammed (claims : Nat → ClaimToken) {k : Nat}
    (hrow : s.table.row? m.id = some ⟨m, none⟩) (hopen : m.isProcessed = false)
    (hdue : ∀ i, i < k → m.scheduledAt ≤ (world.read (world.afterCycles p claims s i).outside).1)
    (hfree : ∀ i, i < k → ¬ world.Jammed p (claims i) (world.afterCycles p claims s i) m) :
    Attempted (world.afterCycles p claims s k) m ∨
      (world.afterCycles p claims s k).table.row? m.id = some ⟨m, none⟩ ∧
        ((world.afterCycles p claims s k).table.ahead m).length + k ≤ (s.table.ahead m).length := by
  induction k with
  | zero => exact .inr ⟨hrow, Nat.le_refl _⟩
  | succ k ih =>
      rcases ih (fun i hi => hdue i (by omega)) (fun i hi => hfree i (by omega)) with
        hattempted | ⟨hwaits, hle⟩
      · exact .inl (hattempted.cycle world p (claims k))
      have hnow := hdue k (Nat.lt_succ_self k)
      by_cases hmem : m ∈ (world.afterCycles p claims s k).table.fetched p.batchSize
          (world.read (world.afterCycles p claims s k).outside).1
      · exact .inl (attempted_of_mem world p (claims k) hmem)
      · refine .inr ⟨?_, ?_⟩
        · rcases world.cycle_row p (claims k) _ hwaits with ⟨_, hsame⟩ | ⟨hin, _⟩
          · exact hsame
          · exact (hmem hin).elim
        · rcases jammed_or_ahead_lt world p (claims k) hwaits hopen hnow hmem with hjam | hlt
          · exact (hfree k (Nat.lt_succ_self k) hjam).elim
          · change ((world.cycle p (claims k) (world.afterCycles p claims s k)).2.table.ahead
              m).length + (k + 1) ≤ _
            omega

/-- An unprocessed and unclaimed message is attempted in as many cycles as there are unprocessed
messages, at times that are not before its schedule, unless one of the cycles is jammed. -/
theorem attempted_or_jammed (claims : Nat → ClaimToken) (table : Table) (outside : σ) {k : Nat}
    (hrow : table.row? m.id = some ⟨m, none⟩) (hopen : m.isProcessed = false)
    (hdue : ∀ i, i < k → m.scheduledAt ≤
      (world.read (world.afterCycles p claims ⟨table, outside, []⟩ i).outside).1)
    (henough : (table.rows.filter fun r => !r.message.isProcessed).length ≤ k) :
    Attempted (world.afterCycles p claims ⟨table, outside, []⟩ k) m ∨
      ∃ i, i < k ∧
        world.Jammed p (claims i) (world.afterCycles p claims ⟨table, outside, []⟩ i) m := by
  by_cases hjam : ∃ i, i < k ∧
      world.Jammed p (claims i) (world.afterCycles p claims ⟨table, outside, []⟩ i) m
  · exact .inr hjam
  · push Not at hjam
    rcases waits_of_not_jammed world p claims hrow hopen hdue hjam with hattempted | ⟨_, hle⟩
    · exact .inl hattempted
    · have hlt := Table.length_ahead_lt hrow hopen
      have hle' : _ + k ≤ (table.ahead m).length := hle
      omega

/-- An unclaimed message of a tag ahead of another message, due whenever the clock is read. -/
def Blocks (tag : MessageType) (t : Table) (m : Message) (id : MessageId) : Prop :=
  ∃ b, t.row? id = some ⟨b, none⟩ ∧ b.isProcessed = false ∧ b.tag = tag ∧ b.scheduledBefore m ∧
    ∀ o, b.scheduledAt ≤ (world.read o).1

/-- Under immediate retry a message whose tag always fails keeps its place. -/
theorem Blocks.cycle {tag : MessageType} {id : MessageId}
    (hblocks : world.Blocks tag s.table m id) (hpolicy : p.retryPolicy.isImmediate)
    (hfails : ∀ b o, b.tag = tag → ∃ failure, (world.deliver b o).1.1 = .error failure) :
    world.Blocks tag (world.cycle p claim s).2.table m id := by
  obtain ⟨b, hrow, hopen, htag, hbefore, hdue⟩ := hblocks
  rcases world.cycle_row p claim s hrow with ⟨_, hsame⟩ | ⟨_, _, d, rfl, hrecorded, o, houtcome⟩
  · exact ⟨b, hsame, hopen, htag, hbefore, hdue⟩
  · obtain ⟨failure, hfailure⟩ := hfails d.message o htag
    have hfailed : d.recorded p.retryPolicy = d.message.markFailed failure.message none := by
      simp only [Delivery.recorded, houtcome, hfailure, RetryPolicy.nextRunAt, hpolicy, ↓reduceIte]
    rw [hfailed] at hrecorded
    refine ⟨_, hrecorded, (Message.markFailed_of_open hopen _ _).1, ?_, ?_, ?_⟩
    all_goals simp only [Message.markFailed, hopen, Bool.false_eq_true, ↓reduceIte]
    · exact htag
    · rw [Message.scheduledBefore_iff] at hbefore ⊢
      exact hbefore
    · exact hdue

/-- If the batch has no more room than for messages that are always ahead, it passes over the one
behind them. -/
theorem passed_over {tag : MessageType} {ids : List MessageId} (hnodup : ids.Nodup)
    (hnot : m.id ∉ ids) (hroom : p.batchSize ≤ ids.length)
    (hblocks : ∀ id ∈ ids, world.Blocks tag s.table m id) :
    m ∉ s.table.fetched p.batchSize (world.read s.outside).1 := by
  refine Table.not_mem_fetched_of_ahead hnodup hnot hroom fun id hid => ?_
  obtain ⟨b, hrow, hopen, _, hbefore, hdue⟩ := hblocks id hid
  obtain rfl := Table.row?_id hrow
  exact ⟨b, Table.mem_claimable_of_unclaimed hrow hopen (hdue _), rfl, hbefore⟩

/-- Under immediate retry, as many failing messages as the batch has room for hold up all messages
behind them for good. -/
theorem never_attempted_behind_poison (claims : Nat → ClaimToken) (table : Table) (outside : σ)
    {tag : MessageType} {poison : List MessageId} (hpolicy : p.retryPolicy.isImmediate)
    (hfails : ∀ b o, b.tag = tag → ∃ failure, (world.deliver b o).1.1 = .error failure)
    (hnodup : poison.Nodup) (hnot : m.id ∉ poison) (hroom : p.batchSize ≤ poison.length)
    (hblocks : ∀ id ∈ poison, world.Blocks tag table m id)
    (hrow : table.row? m.id = some ⟨m, none⟩) (k : Nat) :
    m ∉ (world.afterCycles p claims ⟨table, outside, []⟩ k).dispatched ∧
      (world.afterCycles p claims ⟨table, outside, []⟩ k).table.row? m.id = some ⟨m, none⟩ := by
  suffices hall : (∀ id ∈ poison,
      world.Blocks tag (world.afterCycles p claims ⟨table, outside, []⟩ k).table m id) ∧
      m ∉ (world.afterCycles p claims ⟨table, outside, []⟩ k).dispatched ∧
      (world.afterCycles p claims ⟨table, outside, []⟩ k).table.row? m.id = some ⟨m, none⟩ from
    hall.2
  induction k with
  | zero => exact ⟨hblocks, List.not_mem_nil, hrow⟩
  | succ k ih =>
      obtain ⟨hblocks, hmissed, hwaits⟩ := ih
      have hout := passed_over world p hnodup hnot hroom hblocks
      refine ⟨fun id hid => (hblocks id hid).cycle world p (claims k) hpolicy hfails, ?_, ?_⟩
      · intro hmem
        obtain ⟨_, hdispatched, _, _⟩ :=
          world.cycle_effect p (claims k) (world.afterCycles p claims ⟨table, outside, []⟩ k)
        change m ∈ (world.cycle p (claims k) _).2.dispatched at hmem
        rw [hdispatched] at hmem
        exact (List.mem_append.mp hmem).elim hmissed hout
      · rcases world.cycle_row p (claims k) _ hwaits with ⟨_, hsame⟩ | ⟨hin, _⟩
        · exact hsame
        · exact (hout hin).elim

/-- The clock stands still, and messages of one tag fail whenever they are delivered. -/
def poisoned : Surroundings Unit where
  read _ := (.epoch, ())
  deliver message _ :=
    ((if message.tag = ⟨"poison"⟩ then .error (.dispatch message.tag "down")
      else .ok (.delivered 1), []), ())

def impatient : Processor := ⟨.immediate, 1, .ofSeconds 5, .ofSeconds 30⟩

def poisonedTable : Table :=
  ⟨[⟨.numbered 1 "poison" .epoch, none⟩, ⟨.numbered 2 "order" .epoch, none⟩], [], by decide⟩

/-- With jams not excepted this does not hold: under immediate retry a failing message is fetched
again and again, and the one behind it never. -/
theorem not_attempted_behind_poison :
    ¬ ∀ (world : Surroundings Unit) (p : Processor) (claims : Nat → ClaimToken) (table : Table)
      (m : Message) (k : Nat), 1 ≤ p.batchSize → table.row? m.id = some ⟨m, none⟩ →
      m.isProcessed = false →
      (∀ i, i < k → m.scheduledAt ≤
        (world.read (world.afterCycles p claims ⟨table, (), []⟩ i).outside).1) →
      (table.rows.filter fun r => !r.message.isProcessed).length ≤ k →
      Attempted (world.afterCycles p claims ⟨table, (), []⟩ k) m := by
  intro hclaim
  let claims (i : Nat) : ClaimToken := .numbered (Fin.ofNat 16 i)
  let m := Message.numbered 2 "order" .epoch
  have hrow : poisonedTable.row? m.id = some ⟨m, none⟩ := by decide
  obtain ⟨hmem, _⟩ := hclaim poisoned impatient claims poisonedTable m 2 (by decide) hrow
    (by decide) (fun _ _ => Instant.le_refl _) (by decide)
  have hblocks : ∀ id ∈ [(Message.numbered 1 "poison" .epoch).id],
      poisoned.Blocks ⟨"poison"⟩ poisonedTable m id := by
    intro id hid
    obtain rfl := List.mem_singleton.mp hid
    exact ⟨.numbered 1 "poison" .epoch, by decide, rfl, rfl, by decide, fun _ => Instant.le_refl _⟩
  have hfails : ∀ b o, b.tag = ⟨"poison"⟩ →
      ∃ failure, (poisoned.deliver b o).1.1 = .error failure := by
    intro b _ htag
    exact ⟨.dispatch b.tag "down", if_pos htag⟩
  exact (never_attempted_behind_poison poisoned impatient claims poisonedTable () rfl hfails
    (by decide) (by decide) (by decide) hblocks hrow 2).1 hmem

/-- Two cycles attempt the message behind the one that always fails, or one of them is jammed. -/
theorem attempted_or_jammed_poisoned :
    let claims (i : Nat) : ClaimToken := .numbered (Fin.ofNat 16 i)
    let m := Message.numbered 2 "order" .epoch
    poisonedTable.row? m.id = some ⟨m, none⟩ ∧
      (Attempted (poisoned.afterCycles impatient claims ⟨poisonedTable, (), []⟩ 2) m ∨
        ∃ i, i < 2 ∧ poisoned.Jammed impatient (claims i)
          (poisoned.afterCycles impatient claims ⟨poisonedTable, (), []⟩ i) m) := by
  intro claims m
  have hrow : poisonedTable.row? m.id = some ⟨m, none⟩ := by decide
  exact ⟨hrow, attempted_or_jammed poisoned impatient claims poisonedTable () hrow (by decide)
    (fun _ _ => Instant.le_refl _) (by decide)⟩

end Surroundings

end Outbox
