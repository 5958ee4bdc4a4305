import Outbox.Time.Instant

/-! # Order and arithmetic of instants

Outside leap seconds the order of instants is the order of the nanoseconds counted since 1970, and
moving an instant is addition on that count.
-/

namespace Outbox.Instant

theorem le_refl (a : Instant) : a ≤ a := Int.le_refl a.rank

theorem le_trans {a b c : Instant} (hab : a ≤ b) (hbc : b ≤ c) : a ≤ c := Int.le_trans hab hbc

theorem not_le {a b : Instant} : ¬ a ≤ b ↔ b < a := Int.not_le

theorem not_lt {a b : Instant} : ¬ a < b ↔ b ≤ a := Int.not_lt

theorem le_max_left (a b : Instant) : a ≤ max a b := by
  rw [show max a b = if a ≤ b then b else a from rfl]
  split
  next hle => exact hle
  next => exact le_refl a

theorem le_max_right (a b : Instant) : b ≤ max a b := by
  rw [show max a b = if a ≤ b then b else a from rfl]
  split
  next => exact le_refl b
  next hnot => exact Int.le_of_lt (not_le.mp hnot)

theorem max_eq_left {a b : Instant} (hle : b ≤ a) : max a b = a := by
  rw [show max a b = if a ≤ b then b else a from rfl]
  split
  next hge => exact rank_inj.mp (Int.le_antisymm hle hge)
  next => rfl

/-- Outside of leap seconds the order of instants is that of their nanoseconds. -/
theorem le_iff_nanos {a b : Instant} (ha : a.isLeap = false) (hb : b.isLeap = false) :
    a ≤ b ↔ a.nanos ≤ b.nanos := by
  simp only [isLeap, decide_eq_false_iff_not] at ha hb
  simp only [le_iff, rank, nanos]
  omega

/-- From outside of leap seconds a sum counts nanoseconds, and does not end within one. -/
theorem plus?_eq_some {a e : Instant} {d : Duration} (ha : a.isLeap = false) :
    a.plus? d = some e ↔ e.nanos = a.nanos + d.nanos ∧ e.isLeap = false := by
  simp only [plus?, shift?, ha, Bool.false_eq_true, false_and, ↓reduceIte]
  exact ofNanos?_eq_some

theorem plusOrSelf_eq {a e : Instant} {d : Duration} (hplus : a.plus? d = some e) :
    a.plusOrSelf d = e := by
  rw [plusOrSelf, hplus, Option.getD_some]

end Outbox.Instant
