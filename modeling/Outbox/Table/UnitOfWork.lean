import Outbox.Table.Basic

/-! # Units of work

A unit of work stages entity writes and messages. Nothing of it shows in the table until it is
committed, and then all of it does, unless one of its messages has an id that the table already has.
-/

namespace Outbox

structure UnitOfWork where
  /-- Staged writes, in order. -/
  entities : List (String × Json)
  /-- Staged messages, in order. -/
  messages : List Message
  distinctIds : (messages.map Message.id).Nodup

namespace UnitOfWork

def empty : UnitOfWork := ⟨[], [], List.nodup_nil⟩

def putEntity (u : UnitOfWork) (key : String) (value : Json) : UnitOfWork :=
  { u with entities := u.entities ++ [(key, value)] }

/-- Stages a message, unless one of the same id is staged already. -/
def insert (u : UnitOfWork) (m : Message) : Except Failure UnitOfWork :=
  if hpresent : m.id ∈ u.messages.map Message.id then .error (.duplicateId m.id)
  else .ok {
    entities := u.entities
    messages := u.messages ++ [m]
    distinctIds := by
      rw [List.map_append, List.nodup_append]
      refine ⟨u.distinctIds, by simp, ?_⟩
      intro a hstaged b hnew heq
      rw [List.map_cons, List.map_nil, List.mem_singleton] at hnew
      exact hpresent (hnew ▸ heq ▸ hstaged) }

/-- The first staged message whose id the table already has. -/
def conflict? (u : UnitOfWork) (t : Table) : Option Message :=
  u.messages.find? fun m => (t.rows.map Row.id).contains m.id

/-- The table with everything staged, or the reason why nothing of it can be added. -/
def commit (u : UnitOfWork) (t : Table) : Except Failure Table :=
  match hconflict : u.conflict? t with
  | some m => .error (.duplicateId m.id)
  | none => .ok {
      rows := t.rows ++ u.messages.map fun m => ⟨m, none⟩
      entities := u.entities.reverse ++ t.entities
      distinctIds := by
        rw [List.map_append, List.map_map, List.nodup_append]
        refine ⟨t.distinctIds, u.distinctIds, ?_⟩
        intro a hrow b hstaged heq
        obtain ⟨m, hmem, rfl⟩ := List.mem_map.mp hstaged
        have hnone := List.find?_eq_none.mp hconflict m hmem
        subst heq
        simp only [List.contains_iff_mem] at hnone
        exact hnone hrow }

end UnitOfWork

end Outbox
