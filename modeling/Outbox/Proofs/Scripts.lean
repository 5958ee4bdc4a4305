import Outbox.Proofs.Runs

/-! # Scripts

A list of events that can happen one after the other is a run: after them nothing more happens.
-/

namespace Outbox

namespace Fleet

def initial (t : Table) : Fleet := ⟨t, fun _ => none⟩

/-- The state after the events, if they can happen. -/
def after (s : Fleet) : List Event → Option Fleet
  | [] => some s
  | e :: script => (s.step e).bind fun s' => s'.after script

theorem after_concat (s : Fleet) (script : List Event) (e : Event) :
    s.after (script ++ [e]) = (s.after script).bind fun s' => s'.step e := by
  induction script generalizing s with
  | nil => simp [after]
  | cons first script ih =>
      simp only [List.cons_append, after, Option.bind_assoc]
      exact congrArg _ (funext ih)

theorem isSome_after_take {s : Fleet} {script : List Event} (hpossible : (s.after script).isSome)
    (n : Nat) : (s.after (script.take n)).isSome := by
  induction script generalizing s n with
  | nil => simp [after]
  | cons e script ih =>
      cases n with
      | zero => rfl
      | succ n =>
          rw [List.take_succ_cons]
          simp only [after] at hpossible ⊢
          cases hstep : s.step e with
          | none => rw [hstep] at hpossible; cases hpossible
          | some s' =>
              rw [hstep] at hpossible
              exact ih hpossible n

end Fleet

def Run.ofScript (t : Table) (script : List Event)
    (hpossible : ((Fleet.initial t).after script).isSome) : Run where
  state n := ((Fleet.initial t).after (script.take n)).getD (Fleet.initial t)
  event n := (script[n]?).getD .idle
  fresh _ := rfl
  steps n := by
    obtain ⟨s, hs⟩ := Option.isSome_iff_exists.mp (Fleet.isSome_after_take hpossible n)
    obtain ⟨s', hs'⟩ := Option.isSome_iff_exists.mp (Fleet.isSome_after_take hpossible (n + 1))
    rw [hs, hs', Option.getD_some, Option.getD_some]
    by_cases hlt : n < script.length
    · rw [List.take_succ_eq_append_getElem hlt, Fleet.after_concat, hs, Option.bind_some] at hs'
      rwa [List.getElem?_eq_getElem hlt]
    · -- past the end of the script the state is the one after all of it
      rw [List.take_of_length_le (by omega)] at hs hs'
      rw [List.getElem?_eq_none (by omega)]
      exact hs.symm.trans hs'

/-- What holds of the events of a script, and of idling, holds of all events of its run. -/
theorem Run.forall_event_ofScript {t : Table} {script : List Event}
    {hpossible : ((Fleet.initial t).after script).isSome} {P : Nat → Event → Prop}
    (hidle : ∀ n, P n .idle) (hscript : ∀ n (hlt : n < script.length), P n script[n]) (n : Nat) :
    P n ((ofScript t script hpossible).event n) := by
  change P n ((script[n]?).getD .idle)
  by_cases hlt : n < script.length
  · rw [List.getElem?_eq_getElem hlt]
    exact hscript n hlt
  · rw [List.getElem?_eq_none (by omega)]
    exact hidle n

/-- In a run of a script whose readings are in order the clock is never set back. -/
theorem Run.reading_mono_ofScript {t : Table} {script : List Event}
    {hpossible : ((Fleet.initial t).after script).isSome}
    (hordered : (script.filterMap Event.reading?).Pairwise (· ≤ ·)) {i j : Nat} {a b : Instant}
    (hle : i ≤ j) (ha : ((ofScript t script hpossible).event i).reading? = some a)
    (hb : ((ofScript t script hpossible).event j).reading? = some b) : a ≤ b := by
  have hread : ∀ n, ∀ now ∈ ((ofScript t script hpossible).event n).reading?,
      ∃ hlt : n < script.length, script[n].reading? = some now :=
    forall_event_ofScript (P := fun n e => ∀ now ∈ e.reading?, ∃ hlt : n < script.length,
      script[n].reading? = some now) (fun n now hmem => by cases hmem)
      (fun n hlt now hmem => ⟨hlt, hmem⟩)
  rcases Nat.lt_or_eq_of_le hle with hlt | rfl
  · obtain ⟨hi, ha⟩ := hread i a ha
    obtain ⟨hj, hb⟩ := hread j b hb
    have hpairs := List.pairwise_iff_getElem.mp (List.pairwise_filterMap.mp hordered)
    exact hpairs i j hi hj hlt a ha b hb
  · rw [Option.some.inj (ha.symm.trans hb)]
    exact Instant.le_refl b

/-! ### Small values for scripts -/

-- named, for numerals of `Fin 16` to mean the same wherever they stand
instance neZero_sixteen : @NeZero Nat Zero.ofOfNat0 16 := ⟨Nat.succ_ne_zero 15⟩

/-- A message of a small number. -/
def Message.numbered (n : Fin 16) (tag : String) (scheduledAt : Instant) : Message :=
  .create ⟨⟨n, by omega⟩⟩ ⟨tag⟩ "\x7b\x7d" scheduledAt none

def ClaimToken.numbered (n : Fin 16) : ClaimToken := ⟨⟨n, by omega⟩⟩

/-- So many seconds after the epoch. -/
def Instant.numbered (n : Fin 16) : Instant where
  second := n
  fraction := 0
  inRange := by
    revert n
    decide
  fits := .inl (by decide)

def UnitOfWork.single (m : Message) : UnitOfWork := ⟨[], [m], List.nodup_singleton _⟩

def Table.single (row : Row) : Table := ⟨[row], [], List.nodup_singleton _⟩

end Outbox
