import Outbox.Proofs.Producers
import Outbox.Proofs.Rows

/-! # All or nothing

A commit adds all that a unit of work has staged, or nothing if the table has one of the ids
already. Of several units that stage messages of one id only one is committed, until a sweep makes
room for another.
-/

namespace Outbox

namespace Table

/-- Of these messages the first whose id the table has. -/
def FirstTaken (t : Table) (staged : List Message) (m : Message) : Prop :=
  ∃ earlier later, staged = earlier ++ m :: later ∧ (t.row? m.id).isSome ∧
    ∀ b ∈ earlier, t.row? b.id = none

/-- Exactly these messages and these writes are added to the table. -/
structure Adds (t t' : Table) (staged : List Message) (writes : List (String × Json)) : Prop where
  added : ∀ m ∈ staged, t'.row? m.id = some ⟨m, none⟩
  others : ∀ id, id ∉ staged.map Message.id → t'.row? id = t.row? id
  written : ∀ earlier key value later, writes = earlier ++ (key, value) :: later →
    key ∉ later.map Prod.fst → t'.entity? key = some value
  untouched : ∀ key, key ∉ writes.map Prod.fst → t'.entity? key = t.entity? key

end Table

namespace UnitOfWork

theorem conflict?_eq_some {u : UnitOfWork} {t : Table} {m : Message} :
    u.conflict? t = some m ↔ t.FirstTaken u.messages m := by
  have htaken (b : Message) : (t.rows.map Row.id).contains b.id ↔ (t.row? b.id).isSome := by
    rw [List.contains_iff_mem, Option.isSome_iff_ne_none, Ne, Table.row?_eq_none, not_not]
  rw [conflict?, List.find?_eq_some_iff_append]
  constructor
  · rintro ⟨hm, earlier, later, hstaged, hearlier⟩
    refine ⟨earlier, later, hstaged, (htaken m).mp hm, fun b hb => ?_⟩
    exact Option.not_isSome_iff_eq_none.mp ((htaken b).not.mp (by simpa using hearlier b hb))
  · rintro ⟨earlier, later, hstaged, hm, hearlier⟩
    refine ⟨(htaken m).mpr hm, earlier, later, hstaged, fun b hb => ?_⟩
    have hfree := (htaken b).not.mpr (Option.not_isSome_iff_eq_none.mpr (hearlier b hb))
    simpa using hfree

/-- A commit fails for the first id that is taken, and for nothing else. -/
theorem commit_eq_error {u : UnitOfWork} {t : Table} {failure : Failure} :
    u.commit t = .error failure ↔ ∃ m, t.FirstTaken u.messages m ∧ failure = .duplicateId m.id := by
  simp only [← conflict?_eq_some]
  unfold commit
  split
  next m hconflict => simp [hconflict, eq_comm]
  next hconflict => simp [hconflict]

/-- After a commit each key has the value that the unit put last, or else the one it had. -/
theorem entity?_commit {u : UnitOfWork} {t t' : Table} (hcommit : u.commit t = .ok t')
    (key : String) : t'.entity? key = (u.entities.reverse.lookup key).or (t.entity? key) := by
  unfold commit at hcommit
  split at hcommit
  next => cases hcommit
  next => cases hcommit; exact List.lookup_append

theorem adds_of_commit {u : UnitOfWork} {t t' : Table} (hcommit : u.commit t = .ok t') :
    t.Adds t' u.messages u.entities where
  added m hmem := (Table.row?_commit_of_mem hcommit hmem).2
  others id hnot := by
    have hnone : u.messages.find? (fun m => m.id == id) = none := by
      refine List.find?_eq_none.mpr fun m hmem heq => hnot ?_
      exact List.mem_map.mpr ⟨m, hmem, by simpa using heq⟩
    rw [Table.row?_commit hcommit, hnone, Option.map_none, Option.or_none]
  written earlier key value later hwrites hlast := by
    -- the last write of a key is the first in the reversed list
    have hlookup : u.entities.reverse.lookup key = some value := by
      refine List.lookup_eq_some_iff.mpr ⟨later.reverse, earlier.reverse, by simp [hwrites], ?_⟩
      intro w hw
      refine bne_iff_ne.mpr fun heq => hlast ?_
      exact List.mem_map.mpr ⟨w, List.mem_reverse.mp hw, heq.symm⟩
    rw [entity?_commit hcommit, hlookup, Option.some_or]
  untouched key hnot := by
    have hlookup : u.entities.reverse.lookup key = none := by
      refine List.lookup_eq_none_iff.mpr fun w hw => bne_iff_ne.mpr fun heq => hnot ?_
      exact List.mem_map.mpr ⟨w, List.mem_reverse.mp hw, heq.symm⟩
    rw [entity?_commit hcommit, hlookup, Option.none_or]

end UnitOfWork

namespace Producers

section Commits

variable {s s' : Producers} {k : Nat} {staged : List Message} {writes : List (String × Json)}
  {id : MessageId}

/-- A commit adds what is staged, unless the table has one of the ids. -/
theorem Contains.commit (hcontains : s.Contains k staged writes) :
    ∃ reply s', s.perform (.commit k) = some (reply, s') ∧
      ((∃ failure, reply = .error failure) ↔ ∃ m ∈ staged, (s.table.row? m.id).isSome) ∧
      (∀ failure, reply = .error failure → s'.table = s.table ∧
        ∃ m, s.table.FirstTaken staged m ∧ failure = .duplicateId m.id) ∧
      (reply = .ok () → s.table.Adds s'.table staged writes) := by
  obtain ⟨u, hopen, rfl, rfl⟩ := hcontains
  cases hcommit : u.commit s.table with
  | error failure =>
      obtain ⟨m, hfirst, rfl⟩ := UnitOfWork.commit_eq_error.mp hcommit
      refine ⟨_, _, (Takes.rejected hopen hcommit).perform, ?_, ?_, fun hok => by cases hok⟩
      · obtain ⟨earlier, later, hstaged, htaken, _⟩ := hfirst
        exact iff_of_true ⟨_, rfl⟩ ⟨m, by simp [hstaged], htaken⟩
      · intro failure herror
        cases herror
        exact ⟨rfl, m, hfirst, rfl⟩
  | ok t =>
      refine ⟨_, _, (Takes.committed hopen hcommit).perform, ?_, (fun _ herror => by cases herror),
        fun _ => UnitOfWork.adds_of_commit hcommit⟩
      constructor
      · rintro ⟨_, herror⟩
        cases herror
      · rintro ⟨m, hmem, htaken⟩
        rw [(Table.row?_commit_of_mem hcommit hmem).1] at htaken
        cases htaken

/-- What is refused leaves everything as it was. -/
theorem eq_of_refused {op : Staging} {reply : op.Reply}
    (hperform : s.perform (.stage k op) = some (reply, s'))
    (hrefused : (op.refusal? reply).isSome) : s' = s := by
  cases takes_of_perform hperform with
  | @stage _ _ u hopen =>
      obtain ⟨_, _, hunchanged⟩ := op.run_spec u
      rw [hunchanged hrefused, Producers.set, ← hopen, Function.update_eq_self]

/-- In the course of these acts a sweep deletes the row. -/
def Sweeps (s : Producers) (acts : List Act) (id : MessageId) : Prop :=
  ∃ earlier cutoff later log s', acts = earlier ++ .call (.deleteProcessed cutoff) :: later ∧
    s.run earlier = some (log, s') ∧ (s'.table.row? id).isSome ∧
    (s'.table.deleteProcessed cutoff).2.row? id = none

/-- Only a sweep takes a row away. -/
theorem Takes.row {a : Act} {reply : a.Reply} (htakes : s.Takes a reply s')
    (hrow : (s.table.row? id).isSome) :
    (s'.table.row? id).isSome ∨ ∃ cutoff, a = .call (.deleteProcessed cutoff) ∧
      (s.table.deleteProcessed cutoff).2.row? id = none := by
  cases htakes with
  | begin | stage | rejected | rollback | entity | messages => exact .inl hrow
  | committed _ hcommit =>
      obtain ⟨row, hrow⟩ := Option.isSome_iff_exists.mp hrow
      exact .inl (Option.isSome_iff_exists.mpr ⟨row, Table.row?_commit_of_some hcommit hrow⟩)
  | call c =>
      obtain ⟨row, hrow⟩ := Option.isSome_iff_exists.mp hrow
      have hchange := Table.change_of_answer hrow c
      cases hafter : (s.table.answer c).2.row? id with
      | some after => exact .inl rfl
      | none =>
          rw [hafter] at hchange
          obtain ⟨_, cutoff, rfl⟩ := hchange.deletes
          exact .inr ⟨cutoff, rfl, hafter⟩

/-- A row that is there stays there, whatever is done, unless a sweep deletes it. -/
theorem stays_or_swept {acts : List Act} {log : List Done} (hrow : (s.table.row? id).isSome)
    (hrun : s.run acts = some (log, s')) : (s'.table.row? id).isSome ∨ s.Sweeps acts id := by
  induction acts generalizing s log with
  | nil =>
      cases hrun
      exact .inl hrow
  | cons a acts ih =>
      obtain ⟨reply, s₁, rest, hperform, hrest, rfl⟩ := run_cons.mp hrun
      -- a sweep later on has the acts from here on before it
      rcases (takes_of_perform hperform).row hrow with hstays | ⟨cutoff, rfl, hswept⟩
      · rcases ih hstays hrest with hend | ⟨earlier, cutoff, later, log, s₂, rfl, hearlier, hswept⟩
        · exact .inl hend
        · exact .inr ⟨a :: earlier, cutoff, later, _, s₂, rfl,
            run_cons.mpr ⟨reply, s₁, log, hperform, hearlier, rfl⟩, hswept⟩
      · exact .inr ⟨[], cutoff, acts, [], s, rfl, rfl, hrow, hswept⟩

/-- Whatever is done in any number of units of work and elsewhere, and in whichever order: a unit of
work does not show in any reply before it is committed. Its commit fails just when the table has the
id of a staged message, names the first of these, and then changes nothing. Otherwise it adds
exactly what has been staged since the unit began, of which nothing is what was refused. Until a
sweep deletes the message, no other unit commits one of the same id. -/
theorem units_are_atomic (s : Producers) (k : Nat) :
    (∀ t acts log s', s.Agrees k t → s.run acts = some (log, s') → .commit k ∉ acts →
      ∃ t', t.run (acts.filter fun a => a.unit? ≠ some k) =
        some (log.filter fun d => d.act.unit? ≠ some k, t') ∧ t'.table = s'.table) ∧
    (∀ s₀ acts log s₁, s.perform (.begin k) = some ((), s₀) → s₀.run acts = some (log, s₁) →
      .commit k ∉ acts → .rollback k ∉ acts →
      let staged := log.filterMap (Done.message? k)
      let writes := log.filterMap (Done.write? k)
      ∃ reply s₂, s₁.perform (.commit k) = some (reply, s₂) ∧
        ((∃ failure, reply = .error failure) ↔ ∃ m ∈ staged, (s₁.table.row? m.id).isSome) ∧
        (∀ failure, reply = .error failure → s₂.table = s₁.table ∧
          ∃ m, s₁.table.FirstTaken staged m ∧ failure = .duplicateId m.id) ∧
        (reply = .ok () → s₁.table.Adds s₂.table staged writes)) ∧
    (∀ op reply s', s.perform (.stage k op) = some (reply, s') →
      (op.refusal? reply).isSome → s' = s) ∧
    ∀ staged writes s₁, s.Contains k staged writes → s.perform (.commit k) = some (.ok (), s₁) →
      ∀ acts log s₂, s₁.run acts = some (log, s₂) →
      ∀ j staged' writes', s₂.Contains j staged' writes' →
      ∀ m ∈ staged, ∀ m' ∈ staged', m'.id = m.id →
        (∃ failure s₃, s₂.perform (.commit j) = some (.error failure, s₃)) ∨
          s₁.Sweeps acts m.id := by
  refine ⟨?_, ?_, fun op reply s' => eq_of_refused, ?_⟩
  · intro t acts log s' hagrees hrun hopen
    obtain ⟨t', hrun', hafter⟩ := hagrees.run hrun hopen
    exact ⟨t', hrun', hafter.table⟩
  · intro s₀ acts log s₁ hbegin hrun hcommit hrollback staged writes
    have hstart : s₀.Contains k [] [] := by
      cases takes_of_perform hbegin with
      | begin => exact ⟨_, set_units_self .., rfl, rfl⟩
    exact (hstart.run hrun hcommit hrollback).commit
  · intro staged writes s₁ hcontains hcommit acts log s₂ hrun j staged' writes' hother m hm m' hm'
      hsame
    obtain ⟨reply, _, hperform, _, _, hadds⟩ := hcontains.commit
    cases hcommit.symm.trans hperform
    have hadded : (s₁.table.row? m.id).isSome := by
      rw [(hadds rfl).added m hm]
      rfl
    rcases stays_or_swept hadded hrun with hstays | hswept
    · obtain ⟨reply, s₃, hsecond, hiff, _⟩ := hother.commit
      obtain ⟨failure, rfl⟩ := hiff.mpr ⟨m', hm', hsame ▸ hstays⟩
      exact .inl ⟨failure, s₃, hsecond⟩
    · exact .inr hswept

end Commits

def idle : Producers := ⟨.empty, fun _ => none⟩

def raced : Message := .create ⟨⟨1, by omega⟩⟩ ⟨"order"⟩ "\x7b\x7d" .epoch none

/-- Two units of work stage the same message. -/
def race : List Act := [.stage 1 (.insert raced), .begin 2, .stage 2 (.insert raced)]

def begun : Producers := idle.set 1 (some .empty)

/-- Where the race leads to when the second unit is committed. -/
def raceWon : List Done × Producers :=
  (begun.run (race ++ [.commit 2])).get (by decide +kernel)

def raceOpen : Producers :=
  { idle with units := fun k => if k = 1 ∨ k = 2 then some ⟨[], [raced], by decide⟩ else none }

/-- Without the unit that lost, everything goes as it did, and the one that lost is refused for the
id that it shares with the other. A unit that has staged the message refuses it a second time, and
of two open units that have staged it, once one is committed the other cannot be. -/
theorem race_is_won_once :
    (∃ t, idle.run [.begin 2, .stage 2 (.insert raced), .commit 2] =
        some (raceWon.1.filter fun d => d.act.unit? ≠ some 1, t) ∧ t.table = raceWon.2.table) ∧
      (∃ s, raceWon.2.perform (.commit 1) = some (.error (.duplicateId raced.id), s) ∧
        s.table = raceWon.2.table) ∧
      raceOpen.perform (.stage 1 (.insert raced)) =
        some (.error (.duplicateId raced.id), raceOpen) ∧
      ∃ s, raceOpen.perform (.commit 2) = some (.ok (), s) ∧
        ∃ failure s', s.perform (.commit 1) = some (.error failure, s') := by
  have hrun : begun.run (race ++ [.commit 2]) = some raceWon := (Option.some_get _).symm
  have hopen : ∀ k, k = 1 ∨ k = 2 → raceOpen.Contains k [raced] [] := fun k hk =>
    ⟨⟨[], [raced], by decide⟩, if_pos hk, rfl, rfl⟩
  refine ⟨?_, ?_, ?_, _, rfl, ?_⟩
  · obtain ⟨hhidden, _⟩ := units_are_atomic begun 1
    exact hhidden idle (race ++ [.commit 2]) raceWon.1 raceWon.2
      ((Agrees.refl 1 idle).set_left _) hrun (by simp [race])
  · obtain ⟨_, hcommit, _⟩ := units_are_atomic idle 1
    obtain ⟨reply, s, hperform, hiff, hfails, _⟩ := hcommit begun (race ++ [.commit 2]) raceWon.1
      raceWon.2 rfl hrun (by simp [race]) (by simp [race])
    have hstaged : raceWon.1.filterMap (Done.message? 1) = [raced] := by decide +kernel
    obtain ⟨failure, rfl⟩ := hiff.mpr ⟨raced, by decide +kernel, by decide +kernel⟩
    obtain ⟨hsame, m, ⟨earlier, later, hm, _⟩, rfl⟩ := hfails failure rfl
    have hmem : m ∈ raceWon.1.filterMap (Done.message? 1) := by simp [hm]
    rw [hstaged, List.mem_singleton] at hmem
    exact ⟨s, hmem ▸ hperform, hsame⟩
  · obtain ⟨_, _, hrefused, _⟩ := units_are_atomic raceOpen 1
    have hperform : raceOpen.perform (.stage 1 (.insert raced)) =
      some (.error (.duplicateId raced.id), raceOpen.set 1 (raceOpen.units 1)) := rfl
    rw [hperform, hrefused _ _ _ hperform rfl]
  · obtain ⟨_, _, _, hsecond⟩ := units_are_atomic raceOpen 2
    rcases hsecond [raced] [] _ (hopen 2 (.inr rfl)) rfl [] [] _ rfl 1 [raced] []
      ⟨⟨[], [raced], by decide⟩, rfl, rfl, rfl⟩ raced (by simp) raced (by simp) rfl with
      hfails | ⟨earlier, _, _, _, _, hacts, _⟩
    · exact hfails
    · simp at hacts

end Producers

end Outbox
