import Outbox.Table.UnitOfWork
import Outbox.Writer
import Mathlib.Data.List.Basic
import Mathlib.Logic.Function.Basic

/-! # Units of work side by side

Any number of units of work are open on one table, each under a number. Their steps, and calls of
the store, come in any order. What a unit has staged is told by the replies to its own steps, and
before its commit nobody else's replies depend on it.
-/

namespace Outbox

namespace UnitOfWork

/-- Stages a message, unless one of the same id is staged already. -/
def stage (m : Message) : StateM UnitOfWork (Except Failure Unit) := fun u =>
  match u.insert m with
  | .ok u => (.ok (), u)
  | .error failure => (.error failure, u)

/-- A message is staged last, or refused because the unit has its id. -/
theorem stage_cases (m : Message) (u : UnitOfWork) :
    (∃ u', stage m u = (.ok (), u') ∧ u'.messages = u.messages ++ [m] ∧
      u'.entities = u.entities) ∨ stage m u = (.error (.duplicateId m.id), u) := by
  by_cases hstaged : m.id ∈ u.messages.map Message.id
  · refine .inr ?_
    simp only [stage, insert, dif_pos hstaged]
  · refine .inl ?_
    simp only [stage, insert, dif_neg hstaged]
    exact ⟨_, rfl, rfl, rfl⟩

end UnitOfWork

/-- What a producer does in its unit of work. -/
inductive Staging
  | putEntity (key : String) (value : Json)
  | insert (message : Message)
  /-- A writer enqueues a payload. The id is the one that it draws, the time the one that it
  reads. -/
  | enqueue (tag : MessageType) (payload : Payload) (scheduledAt : Option Instant)
      (id : MessageId) (now : Instant)

namespace Staging

@[reducible] def Reply : Staging → Type
  | putEntity .. => Unit
  | insert .. => Except Failure Unit
  | enqueue .. => Except Failure MessageId

def run : (op : Staging) → StateM UnitOfWork op.Reply
  | putEntity key value => fun u => ((), u.putEntity key value)
  | insert m => UnitOfWork.stage m
  | enqueue tag payload scheduledAt id now =>
      Writer.enqueue (pure id) (pure now) UnitOfWork.stage tag payload scheduledAt

def refusal? : (op : Staging) → op.Reply → Option Failure
  | insert _, .error failure => some failure
  | enqueue .., .error failure => some failure
  | _, _ => none

/-- The message that is staged when this is replied. -/
def message? : (op : Staging) → op.Reply → Option Message
  | insert m, .ok () => some m
  | enqueue tag payload scheduledAt id now, .ok _ =>
      (Codec.encode tag payload).toOption.map fun content =>
        .create id tag content now scheduledAt
  | _, _ => none

def write? : Staging → Option (String × Json)
  | putEntity key value => some (key, value)
  | _ => none

/-- What is enqueued is a new message with the encoded payload as its content. -/
theorem run_enqueue {tag : MessageType} {payload : Payload} {content : String}
    (hencode : Codec.encode tag payload = .ok content) (scheduledAt : Option Instant)
    (id : MessageId) (now : Instant) (u : UnitOfWork) :
    (enqueue tag payload scheduledAt id now).run u =
      let m := Message.create id tag content now scheduledAt
      ((UnitOfWork.stage m u).1.map fun _ => id, (UnitOfWork.stage m u).2) := by
  simp only [run, Writer.enqueue, hencode]
  rfl

/-- What the reply stands for has been staged, and nothing has if it is a refusal. -/
theorem run_spec (op : Staging) (u : UnitOfWork) :
    (op.run u).2.messages = u.messages ++ (op.message? (op.run u).1).toList ∧
      (op.run u).2.entities = u.entities ++ op.write?.toList ∧
      ((op.refusal? (op.run u).1).isSome → (op.run u).2 = u) := by
  cases op with
  | putEntity key value => exact ⟨(List.append_nil _).symm, rfl, fun hrefused => by cases hrefused⟩
  | insert m =>
      rcases UnitOfWork.stage_cases m u with ⟨u', hstage, hmessages, hentities⟩ | hstage
      · simp [run, hstage, message?, write?, refusal?, hmessages, hentities]
      · simp [run, hstage, message?, write?, refusal?]
  | enqueue tag payload scheduledAt id now =>
      cases hencode : Codec.encode tag payload with
      | error failure =>
          have hrun : (enqueue tag payload scheduledAt id now).run u = (.error failure, u) := by
            simp only [run, Writer.enqueue, hencode]
            rfl
          simp [hrun, message?, write?, refusal?]
      | ok content =>
          rw [run_enqueue hencode]
          rcases UnitOfWork.stage_cases (.create id tag content now scheduledAt) u with
            ⟨u', hstage, hmessages, hentities⟩ | hstage
          · simp [hstage, message?, write?, refusal?, Except.map, hencode, Except.toOption,
              hmessages, hentities]
          · simp [hstage, message?, write?, refusal?, Except.map]

end Staging

/-- A table and the units of work that are open on it. -/
structure Producers where
  table : Table
  units : Nat → Option UnitOfWork

inductive Act
  | begin (unit : Nat)
  | stage (unit : Nat) (op : Staging)
  | commit (unit : Nat)
  /-- A unit of work is rolled back, or dropped, which is the same. -/
  | rollback (unit : Nat)
  | call (call : StoreCall)
  /-- Somebody reads an entity. -/
  | entity (key : String)
  /-- Somebody reads all messages. -/
  | messages

namespace Act

def unit? : Act → Option Nat
  | begin unit | stage unit _ | commit unit | rollback unit => some unit
  | _ => none

@[reducible] def Reply : Act → Type
  | begin _ => Unit
  | stage _ op => op.Reply
  | commit _ => Except Failure Unit
  | rollback _ => Unit
  | call c => Except Failure c.Reply
  | entity _ => Option Json
  | messages => List Message

end Act

/-- An act and the reply to it. -/
structure Done where
  act : Act
  reply : act.Reply

namespace Done

/-- The message that this has staged in the unit of work. -/
def message? (k : Nat) : Done → Option Message
  | ⟨.stage j op, reply⟩ => if j = k then op.message? reply else none
  | _ => none

/-- The entity write that this has staged in the unit of work. -/
def write? (k : Nat) : Done → Option (String × Json)
  | ⟨.stage j op, _⟩ => if j = k then op.write? else none
  | _ => none

end Done

namespace Producers

def set (s : Producers) (k : Nat) (u : Option UnitOfWork) : Producers :=
  { s with units := Function.update s.units k u }

@[simp] theorem set_units_self (s : Producers) (k : Nat) (u : Option UnitOfWork) :
    (s.set k u).units k = u := Function.update_self ..

theorem set_units_of_ne (s : Producers) {k j : Nat} (hne : j ≠ k) (u : Option UnitOfWork) :
    (s.set k u).units j = s.units j := Function.update_of_ne hne ..

/-- The reply to an act and the state after it, if the act is possible. -/
def perform (s : Producers) : (a : Act) → Option (a.Reply × Producers)
  | .begin k =>
      match s.units k with
      | none => some ((), s.set k (some .empty))
      | some _ => none
  | .stage k op => (s.units k).map fun u => ((op.run u).1, s.set k (some (op.run u).2))
  | .commit k => (s.units k).map fun u =>
      match u.commit s.table with
      | .ok table => (.ok (), { s.set k none with table := table })
      | .error failure => (.error failure, s.set k none)
  | .rollback k => (s.units k).map fun _ => ((), s.set k none)
  | .call c => some ((s.table.answer c).1, { s with table := (s.table.answer c).2 })
  | .entity key => some (s.table.entity? key, s)
  | .messages => some (s.table.schedule, s)

/-- The acts one after the other, if they are possible: their replies and the state at the end. -/
def run (s : Producers) : List Act → Option (List Done × Producers)
  | [] => some ([], s)
  | a :: acts => do
      let (reply, s') ← s.perform a
      let (log, s'') ← s'.run acts
      return (⟨a, reply⟩ :: log, s'')

theorem run_cons {s s'' : Producers} {a : Act} {acts : List Act} {log : List Done} :
    s.run (a :: acts) = some (log, s'') ↔ ∃ reply s' rest, s.perform a = some (reply, s') ∧
      s'.run acts = some (rest, s'') ∧ log = ⟨a, reply⟩ :: rest := by
  simp only [run, Option.bind_eq_bind, Option.bind_eq_some_iff, Option.pure_def, Prod.exists,
    Option.some.injEq, Prod.mk.injEq]
  constructor
  · rintro ⟨reply, s', hperform, rest, last, hrun, hlog, rfl⟩
    exact ⟨reply, s', rest, hperform, hrun, hlog.symm⟩
  · rintro ⟨reply, s', rest, hperform, hrun, rfl⟩
    exact ⟨reply, s', hperform, rest, s'', hrun, rfl, rfl⟩

/-- What acts are replied with and what they lead to. -/
inductive Takes (s : Producers) : (a : Act) → a.Reply → Producers → Prop
  | begin {k : Nat} (hclosed : s.units k = none) :
      Takes s (.begin k) () (s.set k (some .empty))
  | stage {k : Nat} {op : Staging} {u : UnitOfWork} (hopen : s.units k = some u) :
      Takes s (.stage k op) (op.run u).1 (s.set k (some (op.run u).2))
  | committed {k : Nat} {u : UnitOfWork} {t : Table} (hopen : s.units k = some u)
      (hcommit : u.commit s.table = .ok t) :
      Takes s (.commit k) (.ok ()) { s.set k none with table := t }
  | rejected {k : Nat} {u : UnitOfWork} {failure : Failure} (hopen : s.units k = some u)
      (hcommit : u.commit s.table = .error failure) :
      Takes s (.commit k) (.error failure) (s.set k none)
  | rollback {k : Nat} {u : UnitOfWork} (hopen : s.units k = some u) :
      Takes s (.rollback k) () (s.set k none)
  | call (c : StoreCall) :
      Takes s (.call c) (s.table.answer c).1 { s with table := (s.table.answer c).2 }
  | entity (key : String) : Takes s (.entity key) (s.table.entity? key) s
  | messages : Takes s .messages s.table.schedule s

theorem takes_of_perform {s s' : Producers} {a : Act} {reply : a.Reply}
    (hperform : s.perform a = some (reply, s')) : s.Takes a reply s' := by
  cases a with
  | begin k =>
      simp only [perform] at hperform
      split at hperform
      next hclosed => cases hperform; exact .begin hclosed
      next => cases hperform
  | stage k op =>
      obtain ⟨u, hopen, heq⟩ := Option.map_eq_some_iff.mp hperform
      cases heq
      exact .stage hopen
  | commit k =>
      obtain ⟨u, hopen, heq⟩ := Option.map_eq_some_iff.mp hperform
      split at heq
      next hcommit => cases heq; exact .committed hopen hcommit
      next hcommit => cases heq; exact .rejected hopen hcommit
  | rollback k =>
      obtain ⟨u, hopen, heq⟩ := Option.map_eq_some_iff.mp hperform
      cases heq
      exact .rollback hopen
  | call c => cases hperform; exact .call c
  | entity key => cases hperform; exact .entity key
  | messages => cases hperform; exact .messages

theorem Takes.perform {s s' : Producers} {a : Act} {reply : a.Reply}
    (htakes : s.Takes a reply s') : s.perform a = some (reply, s') := by
  cases htakes with
  | begin hclosed => simp only [Producers.perform, hclosed]
  | stage hopen => simp only [Producers.perform, hopen, Option.map_some]
  | committed hopen hcommit => simp only [Producers.perform, hopen, Option.map_some, hcommit]
  | rejected hopen hcommit => simp only [Producers.perform, hopen, Option.map_some, hcommit]
  | rollback hopen => simp only [Producers.perform, hopen, Option.map_some]
  | call | entity | messages => rfl

/-- An act leaves all units but its own as they are. -/
theorem Takes.frame {s s' : Producers} {a : Act} {reply : a.Reply} {k : Nat}
    (htakes : s.Takes a reply s') (hother : a.unit? ≠ some k) : s'.units k = s.units k := by
  cases htakes with
  | begin | stage | committed | rejected | rollback =>
      exact set_units_of_ne _ (fun heq => hother (congrArg some heq.symm)) _
  | call | entity | messages => rfl

/-- The states differ in nothing but this unit of work. -/
structure Agrees (k : Nat) (s t : Producers) : Prop where
  table : t.table = s.table
  others : ∀ j, j ≠ k → t.units j = s.units j

namespace Agrees

variable {k : Nat} {s s' t : Producers} {a : Act} {reply : a.Reply}

theorem refl (k : Nat) (s : Producers) : s.Agrees k s := ⟨rfl, fun _ _ => rfl⟩

theorem set_left (hagrees : s.Agrees k t) (u : Option UnitOfWork) : (s.set k u).Agrees k t :=
  ⟨hagrees.table, fun j hne => (hagrees.others j hne).trans (set_units_of_ne s hne u).symm⟩

theorem set (hagrees : s.Agrees k t) (j : Nat) (u : Option UnitOfWork) :
    (s.set j u).Agrees k (t.set j u) := by
  refine ⟨hagrees.table, fun i hi => ?_⟩
  by_cases hij : i = j
  · rw [hij, set_units_self, set_units_self]
  · rw [set_units_of_ne _ hij, set_units_of_ne _ hij, hagrees.others i hi]

/-- Of what is done in a unit of work only the commit shows. -/
theorem own (hagrees : s.Agrees k t) (htakes : s.Takes a reply s') (hown : a.unit? = some k)
    (hne : a ≠ .commit k) : s'.Agrees k t := by
  cases htakes with
  | begin | stage | rollback => cases hown; exact hagrees.set_left _
  | committed | rejected => cases hown; exact (hne rfl).elim
  | call | entity | messages => cases hown

/-- All other acts have the same replies where the states agree. -/
theorem other (hagrees : s.Agrees k t) (htakes : s.Takes a reply s') (hother : a.unit? ≠ some k) :
    ∃ t', t.Takes a reply t' ∧ s'.Agrees k t' := by
  have hunits (j : Nat) (hj : a.unit? = some j) : t.units j = s.units j :=
    hagrees.others j fun heq => hother (heq ▸ hj)
  cases htakes with
  | begin hclosed => exact ⟨_, .begin ((hunits _ rfl).trans hclosed), hagrees.set _ _⟩
  | stage hopen => exact ⟨_, .stage ((hunits _ rfl).trans hopen), hagrees.set _ _⟩
  | @committed j u table hopen hcommit =>
      rw [← hagrees.table] at hcommit
      exact ⟨_, .committed ((hunits _ rfl).trans hopen) hcommit, rfl, (hagrees.set j none).others⟩
  | rejected hopen hcommit =>
      rw [← hagrees.table] at hcommit
      exact ⟨_, .rejected ((hunits _ rfl).trans hopen) hcommit, hagrees.set _ _⟩
  | rollback hopen => exact ⟨_, .rollback ((hunits _ rfl).trans hopen), hagrees.set _ _⟩
  | call c =>
      rw [← hagrees.table]
      exact ⟨_, .call c, rfl, hagrees.others⟩
  | entity key => exact ⟨t, hagrees.table ▸ .entity key, hagrees⟩
  | messages => exact ⟨t, hagrees.table ▸ .messages, hagrees⟩

/-- Without a unit of work that is not committed, everything else is replied to as with it. -/
theorem run {acts : List Act} {log : List Done} (hagrees : s.Agrees k t)
    (hrun : s.run acts = some (log, s')) (hopen : .commit k ∉ acts) :
    ∃ t', t.run (acts.filter fun a => a.unit? ≠ some k) =
        some (log.filter fun d => d.act.unit? ≠ some k, t') ∧ s'.Agrees k t' := by
  induction acts generalizing s t log with
  | nil =>
      cases hrun
      exact ⟨t, rfl, hagrees⟩
  | cons a acts ih =>
      obtain ⟨reply, s₁, rest, hperform, hrest, rfl⟩ := run_cons.mp hrun
      have htakes := takes_of_perform hperform
      rw [List.mem_cons, not_or] at hopen
      -- what is done in the unit is done here only, all other acts on both sides
      by_cases hown : a.unit? = some k
      · obtain ⟨t', hrun', hafter⟩ :=
          ih (hagrees.own htakes hown (Ne.symm hopen.1)) hrest hopen.2
        refine ⟨t', ?_, hafter⟩
        simpa [hown] using hrun'
      · obtain ⟨t₁, hsame, hagrees'⟩ := hagrees.other htakes hown
        obtain ⟨t', hrun', hafter⟩ := ih hagrees' hrest hopen.2
        refine ⟨t', ?_, hafter⟩
        rw [List.filter_cons_of_pos (by simpa using hown),
          List.filter_cons_of_pos (by simpa using hown)]
        exact run_cons.mpr ⟨reply, t₁, _, hsame.perform, hrun', rfl⟩

end Agrees

/-- The unit of work is open and has staged these messages and these writes. -/
def Contains (s : Producers) (k : Nat) (staged : List Message) (writes : List (String × Json)) :
    Prop :=
  ∃ u, s.units k = some u ∧ u.messages = staged ∧ u.entities = writes

namespace Contains

variable {k : Nat} {s s' : Producers} {staged : List Message} {writes : List (String × Json)}

/-- In an act that leaves a unit of work open it stages what the reply stands for. -/
theorem takes {a : Act} {reply : a.Reply} (hcontains : s.Contains k staged writes)
    (htakes : s.Takes a reply s') (hcommit : a ≠ .commit k) (hrollback : a ≠ .rollback k) :
    s'.Contains k (staged ++ (Done.message? k ⟨a, reply⟩).toList)
      (writes ++ (Done.write? k ⟨a, reply⟩).toList) := by
  obtain ⟨u, hu, rfl, rfl⟩ := hcontains
  by_cases hown : a.unit? = some k
  · cases htakes with
    | begin hclosed => cases hown; cases hu.symm.trans hclosed
    | @stage _ op _ hopen =>
        cases hown
        obtain rfl := Option.some.inj (hu.symm.trans hopen)
        obtain ⟨hmessages, hentities, _⟩ := op.run_spec u
        refine ⟨_, set_units_self .., ?_, ?_⟩
        · simpa [Done.message?] using hmessages
        · simpa [Done.write?] using hentities
    | committed | rejected => cases hown; exact (hcommit rfl).elim
    | rollback => cases hown; exact (hrollback rfl).elim
    | call | entity | messages => cases hown
  · -- acts of other units, and of nobody, are no concern of this one
    have hnothing : Done.message? k ⟨a, reply⟩ = none ∧ Done.write? k ⟨a, reply⟩ = none := by
      cases a with
      | stage j op =>
          have hne : ¬ j = k := fun heq => hown (congrArg some heq)
          exact ⟨if_neg hne, if_neg hne⟩
      | _ => exact ⟨rfl, rfl⟩
    refine ⟨u, (htakes.frame hown).trans hu, ?_, ?_⟩
    · simp [hnothing.1]
    · simp [hnothing.2]

/-- Unless it is ended meanwhile, a unit contains at last what it did at first and what was staged
in it since. -/
theorem run {acts : List Act} {log : List Done} (hcontains : s.Contains k staged writes)
    (hrun : s.run acts = some (log, s')) (hcommit : .commit k ∉ acts)
    (hrollback : .rollback k ∉ acts) :
    s'.Contains k (staged ++ log.filterMap (Done.message? k))
      (writes ++ log.filterMap (Done.write? k)) := by
  induction acts generalizing s staged writes log with
  | nil =>
      cases hrun
      simpa using hcontains
  | cons a acts ih =>
      obtain ⟨reply, s₁, rest, hperform, hrest, rfl⟩ := run_cons.mp hrun
      rw [List.mem_cons, not_or] at hcommit hrollback
      have hnext := hcontains.takes (takes_of_perform hperform) (Ne.symm hcommit.1)
        (Ne.symm hrollback.1)
      have hend := ih hnext hrest hcommit.2 hrollback.2
      simp only [List.append_assoc, List.filterMap_eq_flatMap_toList] at hend ⊢
      exact hend

end Contains

end Producers

end Outbox
