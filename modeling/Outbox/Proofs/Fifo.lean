import Outbox.Proofs.Minting
import Outbox.Proofs.Atomicity
import Outbox.Proofs.Schedule
import Outbox.Proofs.Scripts

/-! # First in, first out

A writer draws an id from its generator, reads the clock for the time of creation, and stages the
message in some unit of work. The units are committed in any order, and other producers are busy on
the same table. A message without a schedule of its own is due from its creation on, so the order of
delivery is that of creation times and then ids, and both follow the order in which the messages
were enqueued.
-/

namespace Outbox

/-- What a writer goes on with: its generator, and how often the clock has been read. -/
structure Pen where
  generator : Ulid.Generator
  readings : Nat

/-- What a writer draws upon: a clock, and the random bits that are there at each reading of it. -/
structure Sources where
  clock : Nat → Instant
  random : Nat → Nat

namespace Sources

variable (src : Sources)

/-- The id that is drawn next, and the pen after it. -/
def draw (pen : Pen) : MessageId × Pen :=
  let drawn := pen.generator.next (src.clock pen.readings) (src.random pen.readings)
  (⟨drawn.1⟩, ⟨drawn.2, pen.readings + 1⟩)

def read (pen : Pen) : Instant × Pen :=
  (src.clock pen.readings, { pen with readings := pen.readings + 1 })

def enqueue (tag : MessageType) (payload : Payload) (scheduledAt : Option Instant) :
    StateT Pen (StateM UnitOfWork) (Except Failure MessageId) :=
  Writer.enqueue (fun pen => pure (src.draw pen)) (fun pen => pure (src.read pen))
    (fun message => StateT.lift (UnitOfWork.stage message)) tag payload scheduledAt

/-- The pen after a message has been enqueued. A payload that cannot be encoded leaves it as it
was. -/
def after (pen : Pen) (tag : MessageType) (payload : Payload) : Pen :=
  match Codec.encode tag payload with
  | .ok _ => (src.read (src.draw pen).2).2
  | .error _ => pen

/-- What a writer does when it enqueues, with the id and the time that it is going to get. -/
@[reducible] def staging (pen : Pen) (tag : MessageType) (payload : Payload)
    (scheduledAt : Option Instant) : Staging :=
  .enqueue tag payload scheduledAt (src.draw pen).1 (src.read (src.draw pen).2).1

/-- An enqueue stages one message in its unit, and takes a time and an id for it. -/
theorem run_enqueue (pen : Pen) (u : UnitOfWork) (tag : MessageType) (payload : Payload)
    (scheduledAt : Option Instant) :
    src.enqueue tag payload scheduledAt pen u =
      ((((src.staging pen tag payload scheduledAt).run u).1, src.after pen tag payload),
        ((src.staging pen tag payload scheduledAt).run u).2) := by
  cases hencode : Codec.encode tag payload with
  | error failure =>
      simp only [Staging.run, enqueue, Writer.enqueue, after, hencode]
      rfl
  | ok content =>
      rw [Staging.run_enqueue hencode]
      simp only [enqueue, Writer.enqueue, after, hencode]
      rfl

end Sources

/-- What happens, in the order in which it happens. -/
inductive Deed
  /-- The writer enqueues a payload in a unit of work. -/
  | enqueue (unit : Nat) (tag : MessageType) (payload : Payload) (scheduledAt : Option Instant)
  /-- Anything else that is done to the table and the units of work, whoever does it. -/
  | other (act : Act)

namespace Deed

variable (src : Sources)

def act (pen : Pen) : Deed → Act
  | enqueue unit tag payload scheduledAt =>
      .stage unit (src.staging pen tag payload scheduledAt)
  | other a => a

def pen (pen : Pen) : Deed → Pen
  | enqueue _ tag payload _ => src.after pen tag payload
  | other _ => pen

/-- The reply to a deed, the pen and the state after it, if the deed is possible. -/
def perform (pen : Pen) (s : Producers) : (d : Deed) →
    Option ((d.act src pen).Reply × Pen × Producers)
  | enqueue unit tag payload scheduledAt => (s.units unit).map fun u =>
      let ((reply, pen), u) := src.enqueue tag payload scheduledAt pen u
      (reply, pen, s.set unit (some u))
  | other a => (s.perform a).map fun (reply, s) => (reply, pen, s)

theorem perform_eq (pen : Pen) (s : Producers) (d : Deed) :
    d.perform src pen s =
      (s.perform (d.act src pen)).map fun (reply, s) => (reply, d.pen src pen, s) := by
  cases d with
  | enqueue unit tag payload scheduledAt =>
      simp only [perform, src.run_enqueue, act, Deed.pen, Producers.perform, Option.map_map]
      rfl
  | other a => rfl

end Deed

/-- A deed with the reply to it, and the pen before it. -/
structure Entry (src : Sources) where
  pen : Pen
  deed : Deed
  reply : (deed.act src pen).Reply

namespace Entry

variable {src : Sources}

def done (e : Entry src) : Done := ⟨e.deed.act src e.pen, e.reply⟩

/-- The message that the writer has enqueued without a schedule of its own, and the unit of work
that it has staged it in. -/
def sent? (e : Entry src) : Option (Nat × Message) :=
  match e.deed with
  | .enqueue unit _ _ none => (e.done.message? unit).map fun m => (unit, m)
  | _ => none

end Entry

/-- The next thing that becomes of the unit of work is a commit that succeeds. -/
def Done.commitsNext (unit : Nat) : List Done → Bool
  | [] => false
  | ⟨.commit k, .ok ()⟩ :: log => k = unit || commitsNext unit log
  | ⟨.commit k, .error _⟩ :: log | ⟨.rollback k, _⟩ :: log => k ≠ unit && commitsNext unit log
  | _ :: log => commitsNext unit log

theorem Done.commitsNext_cons {unit : Nat} {d : Done} (hcommit : d.act ≠ .commit unit)
    (hrollback : d.act ≠ .rollback unit) (log : List Done) :
    commitsNext unit (d :: log) = commitsNext unit log := by
  obtain ⟨a, reply⟩ := d
  cases a with
  | commit k =>
      have hne : k ≠ unit := fun heq => hcommit (congrArg Act.commit heq)
      cases reply with
      | ok => simp [commitsNext, hne]
      | error failure => simp [commitsNext, hne]
  | rollback k =>
      have hne : k ≠ unit := fun heq => hrollback (congrArg Act.rollback heq)
      simp [commitsNext, hne]
  | begin | stage | call | entity | messages => rfl

/-- The messages that a fetch has returned. -/
def Done.fetched : Done → List MessageId
  | ⟨.call (.fetch ..), .ok batch⟩ => batch.map Message.id
  | _ => []

namespace Sources

variable (src : Sources)

/-- The deeds one after the other, if they are possible. -/
def run (pen : Pen) (s : Producers) : List Deed → Option (List (Entry src) × Producers)
  | [] => some ([], s)
  | d :: deeds => do
      let (reply, pen', s') ← d.perform src pen s
      let (log, s'') ← run pen' s' deeds
      return (⟨pen, d, reply⟩ :: log, s'')

/-- The messages that the writer has enqueued without a schedule of their own and that have been
committed, in the order in which they were enqueued. -/
def committed : List (Entry src) → List Message
  | [] => []
  | e :: log =>
      match e.sent? with
      | some (unit, m) =>
          if Done.commitsNext unit (log.map Entry.done) then m :: committed log else committed log
      | none => committed log

variable {src}

theorem run_cons {pen : Pen} {s s'' : Producers} {d : Deed} {deeds : List Deed}
    {log : List (Entry src)} :
    src.run pen s (d :: deeds) = some (log, s'') ↔ ∃ reply s' rest,
      s.perform (d.act src pen) = some (reply, s') ∧
        src.run (d.pen src pen) s' deeds = some (rest, s'') ∧ log = ⟨pen, d, reply⟩ :: rest := by
  simp only [run, d.perform_eq, Option.bind_eq_bind, Option.bind_eq_some_iff, Option.pure_def,
    Prod.exists, Option.some.injEq, Prod.mk.injEq, Option.map_eq_some_iff]
  constructor
  · rintro ⟨reply, pen', s', ⟨_, _, hperform, rfl, rfl, rfl⟩, rest, last, hrun, hlog, rfl⟩
    exact ⟨_, _, rest, hperform, hrun, hlog.symm⟩
  · rintro ⟨reply, s', rest, hperform, hrun, rfl⟩
    exact ⟨reply, _, s', ⟨reply, s', hperform, rfl, rfl, rfl⟩, rest, s'', hrun, rfl, rfl⟩

end Sources

namespace Producers

variable {s s' : Producers} {unit : Nat} {m : Message}

/-- A message that nobody has fetched yet stays as it was committed. -/
theorem Takes.row?_of_unclaimed {a : Act} {reply : a.Reply} (htakes : s.Takes a reply s')
    (hrow : s.table.row? m.id = some ⟨m, none⟩) (hopen : m.isProcessed = false)
    (hunfetched : m.id ∉ Done.fetched ⟨a, reply⟩) : s'.table.row? m.id = some ⟨m, none⟩ := by
  cases htakes with
  | begin | stage | rejected | rollback | entity | messages => exact hrow
  | committed _ hcommit => exact Table.row?_commit_of_some hcommit hrow
  | call c =>
      have hfree : ∀ claim, ¬ (Row.mk m none).isHeldBy claim := by
        simp [Row.isHeldBy]
      have hchange := Table.change_of_answer hrow c
      generalize hafter : (s.table.answer c).2.row? m.id = after at hchange
      cases hchange with
      | kept => rfl
      | @claimed claim limit now lease =>
          -- the fetch has not returned the message, so it has left the row as it was
          change (s.table.fetch claim limit now lease).2.row? m.id = _ at hafter
          have hnot : m.id ∉ (s.table.fetched limit now).map Message.id := hunfetched
          rw [Table.row?_fetch, hrow, Option.map_some, if_neg hnot] at hafter
          exact hafter.symm
      | extended _ hheld | processed hheld | failed hheld | released _ hheld =>
          exact (hfree _ hheld).elim
      | deleted hprocessed =>
          rw [Message.isProcessed, hprocessed] at hopen
          cases hopen

/-- A row that nobody has claimed stays as it is until a fetch returns it. -/
theorem row?_of_unclaimed {acts : List Act} {log : List Done}
    (hrow : s.table.row? m.id = some ⟨m, none⟩) (hopen : m.isProcessed = false)
    (hrun : s.run acts = some (log, s')) (hunfetched : ∀ d ∈ log, m.id ∉ d.fetched) :
    s'.table.row? m.id = some ⟨m, none⟩ := by
  induction acts generalizing s log with
  | nil =>
      cases hrun
      exact hrow
  | cons a acts ih =>
      obtain ⟨reply, s₁, rest, hperform, hrest, rfl⟩ := run_cons.mp hrun
      rw [List.forall_mem_cons] at hunfetched
      exact ih ((takes_of_perform hperform).row?_of_unclaimed hrow hopen hunfetched.1) hrest
        hunfetched.2

/-- What a unit of work has staged is in the table once it has been committed, and unclaimed until
it is fetched. -/
theorem Contains.row?_of_commitsNext {acts : List Act} {log : List Done} {staged : List Message}
    {writes : List (String × Json)} (hcontains : s.Contains unit staged writes)
    (hmem : m ∈ staged) (hopen : m.isProcessed = false) (hrun : s.run acts = some (log, s'))
    (hcommits : Done.commitsNext unit log) (hunfetched : ∀ d ∈ log, m.id ∉ d.fetched) :
    s'.table.row? m.id = some ⟨m, none⟩ := by
  induction acts generalizing s staged writes log with
  | nil =>
      cases hrun
      cases hcommits
  | cons a acts ih =>
      obtain ⟨reply, s₁, rest, hperform, hrest, rfl⟩ := run_cons.mp hrun
      rw [List.forall_mem_cons] at hunfetched
      have htakes := takes_of_perform hperform
      by_cases hcommit : a = .commit unit
      · subst hcommit
        obtain ⟨u, hu, rfl, _⟩ := hcontains
        cases htakes with
        | committed hunit htable =>
            cases hu.symm.trans hunit
            exact row?_of_unclaimed (Table.row?_commit_of_mem htable hmem).2 hopen hrest
              hunfetched.2
        | rejected => simp [Done.commitsNext] at hcommits
      · by_cases hrollback : a = .rollback unit
        · subst hrollback
          simp [Done.commitsNext] at hcommits
        · rw [Done.commitsNext_cons hcommit hrollback] at hcommits
          exact ih (hcontains.takes htakes hcommit hrollback) (List.mem_append_left _ hmem) hrest
            hcommits hunfetched.2

end Producers

namespace Entry

variable {src : Sources} {e : Entry src} {unit : Nat} {m : Message}

/-- What is sent is the message as the writer makes it. -/
theorem sent?_spec (hsent : e.sent? = some (unit, m)) :
    e.done.message? unit = some m ∧ ∃ tag payload content, e.deed = .enqueue unit tag payload none ∧
      Codec.encode tag payload = .ok content ∧
      m = .create (src.draw e.pen).1 tag content (src.read (src.draw e.pen).2).1 none := by
  obtain ⟨pen, deed, reply⟩ := e
  cases deed with
  | other a => cases hsent
  | enqueue k tag payload scheduledAt =>
      cases scheduledAt with
      | some time => cases hsent
      | none =>
          obtain ⟨staged, hstaged, heq⟩ := Option.map_eq_some_iff.mp hsent
          cases heq
          refine ⟨hstaged, tag, payload, ?_⟩
          simp only [done, Deed.act, Done.message?, if_true, Sources.staging] at hstaged
          cases reply with
          | error failure => cases hstaged
          | ok id =>
              cases hencode : Codec.encode tag payload with
              | error failure => simp [Staging.message?, hencode, Except.toOption] at hstaged
              | ok content =>
                  simp only [Staging.message?, hencode, Except.toOption, Option.map_some,
                    Option.some.injEq] at hstaged
                  exact ⟨content, rfl, rfl, hstaged.symm⟩

end Entry

namespace Sources

variable {src : Sources} {pen : Pen} {s s' : Producers} {m : Message}

/-- Without the pen, the deeds are acts of producers. -/
theorem run_producers {deeds : List Deed} {log : List (Entry src)}
    (hrun : src.run pen s deeds = some (log, s')) :
    s.run (log.map fun e => e.done.act) = some (log.map Entry.done, s') := by
  induction deeds generalizing pen s log with
  | nil =>
      cases hrun
      rfl
  | cons d deeds ih =>
      obtain ⟨reply, s₁, rest, hperform, hrest, rfl⟩ := run_cons.mp hrun
      exact Producers.run_cons.mpr ⟨reply, s₁, _, hperform, ih hrest, rfl⟩

/-- An entry adds to the committed messages what it has sent, if that comes to be committed. -/
theorem committed_cons (e : Entry src) (log : List (Entry src)) :
    src.committed (e :: log) = src.committed log ∨
      ∃ unit m, e.sent? = some (unit, m) ∧ Done.commitsNext unit (log.map Entry.done) ∧
        src.committed (e :: log) = m :: src.committed log := by
  rw [committed]
  split
  next unit m hsent =>
    split
    next hcommits => exact .inr ⟨unit, m, hsent, hcommits, rfl⟩
    next => exact .inl rfl
  next => exact .inl rfl

/-- What is committed has been enqueued. -/
theorem exists_sent_of_mem_committed {log : List (Entry src)} (hmem : m ∈ src.committed log) :
    ∃ e ∈ log, ∃ unit, e.sent? = some (unit, m) := by
  induction log with
  | nil => cases hmem
  | cons e log ih =>
      have hlater (hmem : m ∈ src.committed log) :
          ∃ e' ∈ e :: log, ∃ unit, e'.sent? = some (unit, m) := by
        obtain ⟨e', he', hsent⟩ := ih hmem
        exact ⟨e', List.mem_cons_of_mem _ he', hsent⟩
      rcases committed_cons e log with heq | ⟨unit, sent, hsent, _, heq⟩
      · exact hlater (heq ▸ hmem)
      · rw [heq, List.mem_cons] at hmem
        rcases hmem with rfl | hmem
        · exact ⟨e, List.mem_cons_self, unit, hsent⟩
        · exact hlater hmem

/-- What is committed is in the table, and unclaimed until it is fetched. -/
theorem row?_of_committed {deeds : List Deed} {log : List (Entry src)}
    (hrun : src.run pen s deeds = some (log, s')) (hmem : m ∈ src.committed log)
    (hunfetched : ∀ e ∈ log, m.id ∉ e.done.fetched) :
    s'.table.row? m.id = some ⟨m, none⟩ := by
  induction deeds generalizing pen s log with
  | nil =>
      cases hrun
      cases hmem
  | cons d deeds ih =>
      obtain ⟨reply, s₁, rest, hperform, hrest, rfl⟩ := run_cons.mp hrun
      rw [List.forall_mem_cons] at hunfetched
      rcases committed_cons ⟨pen, d, reply⟩ rest with heq | ⟨unit, sent, hsent, hcommits, heq⟩
      · exact ih hrest (heq ▸ hmem) hunfetched.2
      · rw [heq, List.mem_cons] at hmem
        rcases hmem with rfl | hmem
        · obtain ⟨hstaged, tag, payload, content, rfl, _, hcreate⟩ := Entry.sent?_spec hsent
          have hcontains : ∃ staged writes, s₁.Contains unit (staged ++ [m]) writes := by
            have htakes := Producers.takes_of_perform hperform
            obtain ⟨u, hu⟩ : ∃ u, s.units unit = some u := by
              cases htakes with
              | stage hopen => exact ⟨_, hopen⟩
            have hnext := Producers.Contains.takes ⟨u, hu, rfl, rfl⟩ htakes (by simp [Deed.act])
              (by simp [Deed.act])
            exact ⟨_, _, hstaged ▸ hnext⟩
          obtain ⟨staged, writes, hcontains⟩ := hcontains
          refine hcontains.row?_of_commitsNext (by simp) (by rw [hcreate]; rfl)
            (run_producers hrest) hcommits fun d hd => ?_
          obtain ⟨e, he, rfl⟩ := List.mem_map.mp hd
          exact hunfetched.2 e he
        · exact ih hrest hmem hunfetched.2

/-! ### The order of ids and times of creation -/

/-- The message is younger than anything that has been enqueued with this pen so far. -/
def Follows (src : Sources) (pen : Pen) (m : Message) : Prop :=
  pen.generator.previous.value < m.id.ulid.value ∧ src.clock pen.readings ≤ m.createdAt

/-- One message is enqueued before another. -/
def Precedes (a b : Message) : Prop := a.id.ulid.value < b.id.ulid.value ∧ a.createdAt ≤ b.createdAt

/-- The clock is never set back, and stays within the milliseconds that an id has room for. -/
structure Steady (src : Sources) : Prop where
  monotone : ∀ i j, i ≤ j → src.clock i ≤ src.clock j
  fits : ∀ i, (src.clock i).millis < 0x1000000000000

theorem Follows.of_after (hsteady : src.Steady) {tag : MessageType} {payload : Payload}
    (hfollows : src.Follows (src.after pen tag payload) m) : src.Follows pen m := by
  unfold after at hfollows
  split at hfollows
  · have hprevious := Ulid.Generator.previous_le_next pen.generator (hsteady.fits pen.readings)
      (src.random pen.readings)
    have hclock := hsteady.monotone pen.readings (pen.readings + 2) (by omega)
    exact ⟨Nat.lt_of_le_of_lt hprevious hfollows.1, Instant.le_trans hclock hfollows.2⟩
  · exact hfollows

theorem Follows.of_pen (hsteady : src.Steady) {d : Deed}
    (hfollows : src.Follows (d.pen src pen) m) : src.Follows pen m := by
  cases d with
  | enqueue unit tag payload scheduledAt => exact hfollows.of_after hsteady
  | other a => exact hfollows

/-- A new message follows the pen it is enqueued with, and precedes all that follow that pen
afterwards. -/
theorem follows_of_sent (hsteady : src.Steady) {e : Entry src} {unit : Nat}
    (hsent : e.sent? = some (unit, m))
    (hleft : ¬ e.pen.generator.IsSpent (src.clock e.pen.readings)) :
    src.Follows e.pen m ∧ ∀ b, src.Follows (e.deed.pen src e.pen) b → Precedes m b := by
  obtain ⟨_, tag, payload, content, hdeed, hencode, rfl⟩ := Entry.sent?_spec hsent
  obtain ⟨hprevious, hlt⟩ := Ulid.Generator.next_spec hleft (hsteady.fits e.pen.readings)
    (src.random e.pen.readings)
  refine ⟨⟨hlt, hsteady.monotone e.pen.readings (e.pen.readings + 1) (by omega)⟩, fun b hb => ?_⟩
  rw [hdeed] at hb
  simp only [Deed.pen, after, hencode] at hb
  have hclock := hsteady.monotone (e.pen.readings + 1) (e.pen.readings + 2) (by omega)
  have hid := hb.1
  simp only [read, draw, hprevious] at hid
  exact ⟨hid, Instant.le_trans hclock hb.2⟩

/-- Committed messages are in the order in which they were enqueued. -/
theorem committed_follows (hsteady : src.Steady) {deeds : List Deed} {log : List (Entry src)}
    (hrun : src.run pen s deeds = some (log, s'))
    (hleft : ∀ e ∈ log, e.sent?.isSome → ¬ e.pen.generator.IsSpent (src.clock e.pen.readings)) :
    (∀ m ∈ src.committed log, src.Follows pen m) ∧ (src.committed log).Pairwise Precedes := by
  induction deeds generalizing pen s log with
  | nil =>
      cases hrun
      exact ⟨List.forall_mem_nil _, List.Pairwise.nil⟩
  | cons d deeds ih =>
      obtain ⟨reply, s₁, rest, hperform, hrest, rfl⟩ := run_cons.mp hrun
      rw [List.forall_mem_cons] at hleft
      obtain ⟨hfollows, hordered⟩ := ih hrest hleft.2
      have hlater : ∀ m ∈ src.committed rest, src.Follows pen m := fun m hmem =>
        (hfollows m hmem).of_pen hsteady
      rcases committed_cons ⟨pen, d, reply⟩ rest with heq | ⟨unit, m, hsent, _, heq⟩
      · rw [heq]
        exact ⟨hlater, hordered⟩
      · have hspare := hleft.1 (by rw [hsent]; rfl)
        obtain ⟨hfirst, hprecedes⟩ := follows_of_sent hsteady hsent hspare
        rw [heq]
        exact ⟨List.forall_mem_cons.mpr ⟨hfirst, hlater⟩,
          .cons (fun b hb => hprecedes b (hfollows b hb)) hordered⟩

/-- Of two messages that are due when they are enqueued the first is delivered first. -/
theorem Precedes.scheduledBefore {a b : Message} (hprecedes : Precedes a b)
    (ha : a.scheduledAt = a.createdAt) (hb : b.scheduledAt = b.createdAt) :
    a.scheduledBefore b := by
  obtain ⟨hid, hcreated⟩ := hprecedes
  rw [Instant.le_iff] at hcreated
  rw [Message.scheduledBefore_iff, ha, hb]
  omega

/-- A writer enqueues messages without a schedule of their own, each in a unit of work of its
choice. The units are committed in any order, while others do as they like on the same table. The
clock is never set back and stays below the end of the 48 bits of milliseconds, and no message is
given an id from a millisecond without random bits left. Then a fetch at a time when all that has
been committed is due, with room for all that can be claimed, returns those of the messages that no
fetch has returned before in the order in which they were enqueued. -/
theorem fetch_is_fifo (hsteady : src.Steady) {deeds : List Deed} {log : List (Entry src)}
    (hrun : src.run pen s deeds = some (log, s'))
    (hleft : ∀ e ∈ log, e.sent?.isSome → ¬ e.pen.generator.IsSpent (src.clock e.pen.readings))
    {now : Instant} (hdue : ∀ m ∈ src.committed log, m.createdAt ≤ now) {limit : Nat}
    (hroom : (s'.table.claimable now).length ≤ limit) (claim : ClaimToken) (lease : Duration) :
    let waiting := (src.committed log).filter fun m => ∀ e ∈ log, m.id ∉ e.done.fetched
    ∃ batch, (s'.table.answer (.fetch claim limit now lease)).1 = .ok batch ∧
      batch.filter (fun m => m ∈ waiting) = waiting := by
  intro waiting
  have hbatch : (s'.table.claimable now).take limit = s'.table.claimable now :=
    List.take_of_length_le hroom
  refine ⟨s'.table.claimable now, congrArg Except.ok hbatch, ?_⟩
  have hnew : ∀ m ∈ src.committed log, m.scheduledAt = m.createdAt ∧ m.isProcessed = false := by
    intro m hmem
    obtain ⟨e, _, unit, hsent⟩ := exists_sent_of_mem_committed hmem
    obtain ⟨_, tag, payload, content, _, _, rfl⟩ := Entry.sent?_spec hsent
    exact ⟨rfl, rfl⟩
  have hordered := (committed_follows hsteady hrun hleft).2
  have hsorted : waiting.Pairwise fun a b => a.scheduledBefore b := by
    refine ((hordered.imp_of_mem fun {a b} ha hb hprecedes => ?_).sublist List.filter_sublist : _)
    exact hprecedes.scheduledBefore (hnew a ha).1 (hnew b hb).1
  have hclaimable : ∀ m ∈ waiting, m ∈ s'.table.claimable now := by
    intro m hmem
    obtain ⟨hcommitted, hunfetched⟩ := List.mem_filter.mp hmem
    obtain ⟨hscheduled, hopen⟩ := hnew m hcommitted
    refine Table.mem_claimable_of_unclaimed ?_ hopen (hscheduled ▸ hdue m hcommitted)
    exact row?_of_committed hrun hcommitted (of_decide_eq_true hunfetched)
  have hdistinct : waiting.Nodup := by
    refine (hordered.imp fun hprecedes heq => ?_).sublist List.filter_sublist
    exact Nat.lt_irrefl _ (heq ▸ hprecedes.1)
  have hperm : ((s'.table.claimable now).filter fun m => m ∈ waiting).Perm waiting := by
    refine (List.perm_ext_iff_of_nodup ?_ hdistinct).mpr fun m => ?_
    · exact (s'.table.claimable_nodup now).of_map.sublist List.filter_sublist
    · rw [List.mem_filter, decide_eq_true_iff]
      exact ⟨And.right, fun hmem => ⟨hclaimable m hmem, hmem⟩⟩
  refine List.Perm.eq_of_pairwise (fun a b ha hb hab hba => ?_)
    ((s'.table.claimable_pairwise now).sublist List.filter_sublist) hsorted hperm
  exact List.inj_on_of_nodup_map (s'.table.claimable_nodup now) (List.mem_of_mem_filter ha)
    (hclaimable b hb) (Message.scheduledBefore_antisymm hab hba)

/-- The first readings are all of one instant. -/
def halting : Sources := ⟨fun i => if i < 3 then .epoch else .numbered 1, fun _ => 0⟩

theorem halting_steady : halting.Steady where
  monotone i j hle := by
    simp only [halting]
    split
    · split <;> decide
    · rw [if_neg (by omega)]
      decide
  fits i := by
    simp only [halting]
    split <;> decide

/-- Two units of work take turns, and the one that began later is committed first. -/
def turns : List Deed :=
  [.other (.begin 1), .other (.begin 2), .enqueue 1 ⟨"order"⟩ (.json (.bool true)) none,
    .enqueue 2 ⟨"order"⟩ (.json (.bool false)) none, .enqueue 1 ⟨"note"⟩ (.json .null) none,
    .other (.commit 2), .other (.commit 1)]

theorem turns_possible : (halting.run ⟨.start, 0⟩ Producers.idle turns).isSome := by
  decide +kernel

def turnsTaken : List (Entry halting) × Producers :=
  (halting.run ⟨.start, 0⟩ Producers.idle turns).get turns_possible

/-- The table has the messages in the order of the commits. A fetch returns them in the order in
which they were enqueued. -/
theorem turns_are_fifo :
    turnsTaken.2.table.messages.map Message.content = ["false", "true", "null"] ∧
      ∃ batch, (turnsTaken.2.table.answer
          (.fetch (.numbered 1) 3 (.numbered 1) (.ofSeconds 30))).1 = .ok batch ∧
        (batch.filter fun m => m ∈ halting.committed turnsTaken.1).map Message.content =
          ["true", "false", "null"] := by
  have hrun : halting.run ⟨.start, 0⟩ Producers.idle turns = some (turnsTaken.1, turnsTaken.2) :=
    (Option.some_get turns_possible).symm
  have hroom : (turnsTaken.2.table.claimable (.numbered 1)).length ≤ 3 := by
    rw [Table.claimable, List.length_mergeSort]
    decide +kernel
  obtain ⟨batch, hbatch, hfifo⟩ := fetch_is_fifo halting_steady hrun (by decide +kernel)
    (by decide +kernel) hroom (.numbered 1) (.ofSeconds 30)
  have hwaiting : ((halting.committed turnsTaken.1).filter fun m =>
      ∀ e ∈ turnsTaken.1, m.id ∉ e.done.fetched) = halting.committed turnsTaken.1 := by
    decide +kernel
  rw [hwaiting] at hfifo
  refine ⟨by decide +kernel, batch, hbatch, ?_⟩
  rw [hfifo]
  decide +kernel

end Sources

end Outbox
