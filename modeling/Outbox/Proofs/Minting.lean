import Outbox.Ulid.Generator
import Mathlib.Data.Finset.Lattice.Fold
import Mathlib.Data.Finset.Range
import Mathlib.Order.Lattice.Nat

/-! # Ids in increasing order

Each id that a generator makes is greater than the one before it, whatever the clock shows, as long
as it does not find the random bits of a millisecond used up. Then it makes an id all the same, but
goes on from the one before.

So the generator always stands at the greatest of its ids, and in the latest millisecond that the
clock has shown so far.
-/

namespace Outbox.Ulid

/-- The next id is one more, unless the random part is at its largest. -/
theorem successor?_eq_some {u v : Ulid} :
    u.successor? = some v ↔ u.random < 0xFFFFFFFFFFFFFFFFFFFF ∧ v.value = u.value + 1 := by
  unfold successor?
  split
  next hleft =>
    rw [Option.some.injEq, ← value_inj]
    exact ⟨fun heq => ⟨hleft, heq.symm⟩, fun h => h.2.symm⟩
  next hfull => simp [hfull]

theorem value_lt_of_millis_lt {u v : Ulid} (hlt : u.millis < v.millis) : u.value < v.value := by
  unfold millis at hlt
  omega

theorem millis_of_successor? {u v : Ulid} (hnext : u.successor? = some v) : v.millis = u.millis := by
  obtain ⟨hleft, hvalue⟩ := successor?_eq_some.mp hnext
  unfold random at hleft
  unfold millis
  omega

/-- The greatest id of a millisecond is the one whose random bits are all ones. -/
theorem le_of_millis_le {u v : Ulid} (hle : u.millis ≤ v.millis)
    (hfull : v.random = 0xFFFFFFFFFFFFFFFFFFFF) : u ≤ v := by
  change u.value ≤ v.value
  unfold millis at hle
  unfold random at hfull
  omega

namespace Generator

variable {g : Generator} {now : Instant}

/-- It is not past the millisecond of the last id, and the random bits of that are used up. -/
def IsSpent (g : Generator) (now : Instant) : Prop :=
  now.millis.toNat ≤ g.previous.millis ∧ g.previous.successor? = none

instance (g : Generator) (now : Instant) : Decidable (g.IsSpent now) :=
  inferInstanceAs (Decidable (_ ∧ _))

/-- In a millisecond that is used up any id can come, and the generator stays as it is. -/
theorem next_of_isSpent (hspent : g.IsSpent now) (fresh : Nat) :
    g.next now fresh = (ofParts now.millis.toNat fresh, g) := by
  simp only [next, hspent.1, if_true, hspent.2]

/-- An id is the successor of the last one, or begins a later millisecond, or neither is
possible. -/
theorem next_cases (g : Generator) (now : Instant) (fresh : Nat) :
    (∃ id, g.previous.successor? = some id ∧ now.millis.toNat ≤ g.previous.millis ∧
      g.next now fresh = (id, ⟨id⟩)) ∨
    (g.previous.millis < now.millis.toNat ∧
      g.next now fresh = (ofParts now.millis.toNat fresh, ⟨ofParts now.millis.toNat fresh⟩)) ∨
    (g.IsSpent now ∧ g.next now fresh = (ofParts now.millis.toNat fresh, g)) := by
  by_cases hsame : now.millis.toNat ≤ g.previous.millis
  · cases hnext : g.previous.successor? with
    | some id => exact .inl ⟨id, rfl, hsame, by simp only [next, hsame, if_true, hnext]⟩
    | none => exact .inr (.inr ⟨⟨hsame, hnext⟩, next_of_isSpent ⟨hsame, hnext⟩ fresh⟩)
  · exact .inr (.inl ⟨Nat.not_le.mp hsame, by simp only [next, hsame, if_false]⟩)

/-- As long as random bits are left, an id is greater than the last one, and is the last one from
then on. -/
theorem next_spec (hleft : ¬ g.IsSpent now) (hfits : now.millis < 0x1000000000000) (fresh : Nat) :
    (g.next now fresh).2.previous = (g.next now fresh).1 ∧
      g.previous.value < (g.next now fresh).1.value := by
  rcases g.next_cases now fresh with ⟨id, hid, _, hnext⟩ | ⟨hlater, hnext⟩ | ⟨hspent, _⟩
  · rw [hnext]
    exact ⟨rfl, (successor?_eq_some.mp hid).2 ▸ Nat.lt_succ_self _⟩
  · rw [hnext]
    refine ⟨rfl, value_lt_of_millis_lt ?_⟩
    rw [millis_ofParts]
    omega
  · exact (hleft hspent).elim

/-- A generator never goes back. -/
theorem previous_le_next (g : Generator) (hfits : now.millis < 0x1000000000000) (fresh : Nat) :
    g.previous.value ≤ (g.next now fresh).2.previous.value := by
  by_cases hspent : g.IsSpent now
  · exact Nat.le_of_eq (by rw [next_of_isSpent hspent])
  · obtain ⟨hprevious, hlt⟩ := next_spec hspent hfits fresh
    rw [hprevious]
    exact Nat.le_of_lt hlt

/-! ### One id after another -/

theorem isSpent_iff : g.IsSpent now ↔
    now.millis.toNat ≤ g.previous.millis ∧ g.previous.random = 0xFFFFFFFFFFFFFFFFFFFF := by
  refine and_congr_right fun _ => ?_
  have hless : g.previous.random < 0x100000000000000000000 := Nat.mod_lt _ (by decide)
  unfold successor?
  split
  next hleft => simp [Nat.ne_of_lt hleft]
  next hfull => simp only [true_iff]; omega

/-- The generator stands in the latest millisecond it has been asked for an id in. -/
theorem millis_next (g : Generator) (hfits : now.millis < 0x1000000000000) (fresh : Nat) :
    (g.next now fresh).2.previous.millis = max g.previous.millis now.millis.toNat := by
  rcases g.next_cases now fresh with ⟨id, hid, hsame, hnext⟩ | ⟨hlater, hnext⟩ | ⟨hspent, hnext⟩
  · rw [hnext, Nat.max_eq_left hsame]
    exact millis_of_successor? hid
  · rw [hnext, Nat.max_eq_right (Nat.le_of_lt hlater), millis_ofParts]
    omega
  · rw [hnext, Nat.max_eq_left hspent.1]

/-- The generator stands at its last id, or at a greater one. -/
theorem minted_le_next (g : Generator) (hfits : now.millis < 0x1000000000000) (fresh : Nat) :
    (g.next now fresh).1 ≤ (g.next now fresh).2.previous := by
  by_cases hspent : g.IsSpent now
  · obtain ⟨hsame, hfull⟩ := isSpent_iff.mp hspent
    rw [next_of_isSpent hspent]
    -- no id of the millisecond is beyond the one whose random bits are all ones
    refine le_of_millis_le ?_ hfull
    dsimp only
    rw [millis_ofParts]
    omega
  · rw [(next_spec hspent hfits fresh).1]
    exact Nat.le_refl _

/-- The generator after so many ids, where the clock is read once for each and each has its fresh
random bits. -/
def after (now : Nat → Instant) (fresh : Nat → Nat) : Nat → Generator
  | 0 => start
  | n + 1 => ((after now fresh n).next (now n) (fresh n)).2

/-- The ids in the order they are made in. -/
def minted (now : Nat → Instant) (fresh : Nat → Nat) (n : Nat) : Ulid :=
  ((after now fresh n).next (now n) (fresh n)).1

section After

variable {clock : Nat → Instant} {fresh : Nat → Nat} {n : Nat}

/-- The time of the last id is the latest that the clock has shown. -/
theorem millis_after (hfits : ∀ k < n, (clock k).millis < 0x1000000000000) :
    (after clock fresh n).previous.millis =
      (Finset.range n).sup fun k => (clock k).millis.toNat := by
  induction n with
  | zero => exact millis_ofParts 0 0
  | succ n ih =>
      rw [after, millis_next _ (hfits n (Nat.lt_succ_self n)),
        ih fun k hk => hfits k (Nat.lt_succ_of_lt hk), Finset.range_add_one, Finset.sup_insert,
        Nat.max_comm]

/-- No id is greater than the one that the generator stands at later. -/
theorem minted_le_after (hfits : ∀ k < n, (clock k).millis < 0x1000000000000) {k : Nat}
    (hk : k < n) : minted clock fresh k ≤ (after clock fresh n).previous := by
  induction n with
  | zero => cases hk
  | succ n ih =>
      have hnow := hfits n (Nat.lt_succ_self n)
      rcases Nat.lt_succ_iff_lt_or_eq.mp hk with hearlier | rfl
      · exact Nat.le_trans (ih (fun k hk => hfits k (Nat.lt_succ_of_lt hk)) hearlier)
          (previous_le_next _ hnow _)
      · exact minted_le_next _ hnow _

end After

/-- Unless the random bits are found all ones, an id is greater than all before it, whatever the
clock has shown. It is of the latest millisecond that the clock has shown so far, a reading before
1970 taken as its beginning, and the generator goes on from it. Otherwise the id is of the
millisecond that the clock shows, and the generator goes on from where it was. -/
theorem mints_in_order (clock : Nat → Instant) (fresh : Nat → Nat) (n : Nat)
    (hfits : ∀ k ≤ n, (clock k).millis < 0x1000000000000) :
    (¬ ((clock n).millis.toNat ≤ (after clock fresh n).previous.millis ∧
        (after clock fresh n).previous.random = 0xFFFFFFFFFFFFFFFFFFFF) →
      (∀ k < n, minted clock fresh k < minted clock fresh n) ∧
      (minted clock fresh n).millis =
        ((Finset.range (n + 1)).sup fun k => (clock k).millis.toNat) ∧
      (after clock fresh (n + 1)).previous = minted clock fresh n) ∧
    ((clock n).millis.toNat ≤ (after clock fresh n).previous.millis ∧
        (after clock fresh n).previous.random = 0xFFFFFFFFFFFFFFFFFFFF →
      (minted clock fresh n).millis = (clock n).millis.toNat ∧
      after clock fresh (n + 1) = after clock fresh n) := by
  have hnow := hfits n (Nat.le_refl n)
  have hbefore : ∀ k < n, (clock k).millis < 0x1000000000000 := fun k hk =>
    hfits k (Nat.le_of_lt hk)
  rw [← isSpent_iff]
  constructor
  · intro hleft
    obtain ⟨hprevious, hlt⟩ := next_spec hleft hnow (fresh n)
    refine ⟨fun k hk => Nat.lt_of_le_of_lt (minted_le_after hbefore hk) hlt, ?_, hprevious⟩
    rw [← millis_after fun k hk => hfits k (Nat.le_of_lt_succ hk), after, hprevious, minted]
  · intro hspent
    rw [after, minted, next_of_isSpent hspent, millis_ofParts]
    exact ⟨by omega, rfl⟩

/-- The clock stands still, goes back before 1970 and comes forth again; the random bits of its last
millisecond are used up with the fourth id. -/
theorem mints_in_order_used_up :
    let clock : Nat → Instant := fun k =>
      [⟨0, 5000000, by decide, by decide⟩, ⟨0, 5999999, by decide, by decide⟩,
        ⟨-1, 993000000, by decide, by decide⟩, ⟨0, 6000000, by decide, by decide⟩].getD k
        ⟨0, 3000000, by decide, by decide⟩
    let fresh : Nat → Nat := fun k => [8, 1, 2, 0xFFFFFFFFFFFFFFFFFFFF].getD k 4
    (∀ k < 3, minted clock fresh k < minted clock fresh 3) ∧
      (minted clock fresh 3).millis = 6 ∧
      (minted clock fresh 4).millis = 3 ∧ after clock fresh 5 = after clock fresh 4 := by
  intro clock fresh
  have hfits : ∀ k ≤ 4, (clock k).millis < 0x1000000000000 := by decide
  obtain ⟨hgreater, hmillis, _⟩ :=
    (mints_in_order clock fresh 3 fun k hk => hfits k (Nat.le_succ_of_le hk)).1 (by decide +kernel)
  obtain ⟨hreading, hstays⟩ := (mints_in_order clock fresh 4 hfits).2 (by decide +kernel)
  exact ⟨hgreater, hmillis.trans (by decide +kernel), hreading.trans (by decide +kernel), hstays⟩

end Generator

end Outbox.Ulid
