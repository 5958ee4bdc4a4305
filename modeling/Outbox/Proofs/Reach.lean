import Outbox.Proofs.Instants

/-! # Sums beyond the last instant

The sum of an instant and a duration has a place in the order of instants, whether there is an
instant at that place or not. Where there is one, moving the instant leads to it. Where there is
none, every instant comes before the sum.
-/

namespace Outbox

theorem Duration.le_iff {a b : Duration} : a ≤ b ↔ a.nanos ≤ b.nanos := Iff.rfl

namespace Instant

/-- How long the second of the instant takes. Of leap seconds only one that the instant is in is
known. -/
def secondLength (i : Instant) : Nat := if i.isLeap then 2000000000 else 1000000000

theorem secondLength_le (i : Instant) : i.secondLength ≤ 2000000000 := by
  unfold secondLength
  split <;> omega

/-- What the sum with a duration has beyond the second of the instant, in nanoseconds. -/
def spill (i : Instant) (d : Duration) : Int := i.fraction + d.nanos - i.secondLength

/-- The place of the sum with a duration, in an order of instants that goes on without an end. What
is left of the second is used up first. -/
def rankAfter (i : Instant) (d : Duration) : Int :=
  if i.spill d < 0 then i.rank + d.nanos
  else (i.second + 1 + i.spill d / 1000000000) * 2000000000 + i.spill d % 1000000000

/-- There is an instant at the place of the sum. -/
def Reaches (i : Instant) (d : Duration) : Prop := i.rankAfter d < (lastSecond + 1) * 2000000000

instance (i : Instant) (d : Duration) : Decidable (i.Reaches d) :=
  inferInstanceAs (Decidable (_ < _))

/-- Outside of leap seconds this is a sum of nanoseconds. -/
theorem rank_lt_rankAfter_iff_nanos {time i : Instant} (htime : time.isLeap = false)
    (hplain : i.isLeap = false) (d : Duration) :
    time.rank < i.rankAfter d ↔ time.nanos < i.nanos + d.nanos := by
  have hlength : i.secondLength = 1000000000 := if_neg (Bool.eq_false_iff.mp hplain)
  simp only [isLeap, decide_eq_false_iff_not] at htime hplain
  simp only [rankAfter, spill, hlength, rank, nanos]
  split <;> omega

/-- There is an instant for each second in the range, with a fraction that fits. -/
theorem ofSecond?_cases (second : Int) {fraction : Nat}
    (hfits : fraction < 1000000000 ∨ second % 60 = 59 ∧ fraction < 2000000000) :
    (∃ i, ofSecond? second fraction = some i ∧ i.second = second ∧ i.fraction = fraction) ∨
      (ofSecond? second fraction = none ∧ ¬ (firstSecond ≤ second ∧ second ≤ lastSecond)) := by
  by_cases hrange : firstSecond ≤ second ∧ second ≤ lastSecond
  · exact .inl ⟨⟨second, fraction, hrange, hfits⟩, ofSecond?_eq_some.mpr ⟨rfl, rfl⟩, rfl, rfl⟩
  · exact .inr ⟨dif_neg hrange, hrange⟩

/-- The second and the fraction that moving an instant leads to, as far as there are seconds. -/
theorem exists_second_plus? (i : Instant) (d : Duration) :
    ∃ second fraction, i.plus? d = ofSecond? second fraction ∧
      (fraction < 1000000000 ∨ second % 60 = 59 ∧ fraction < 2000000000) ∧ firstSecond ≤ second ∧
      i.rankAfter d = second * 2000000000 + fraction := by
  have hfits := i.fits
  have hfirst := i.inRange.1
  by_cases hleap : i.isLeap
  · have hlength : i.secondLength = 2000000000 := if_pos hleap
    have hpast : 1000000000 ≤ i.fraction := of_decide_eq_true hleap
    by_cases hwithin : i.fraction + d.nanos < 2000000000
    · -- the sum is in the same leap second
      refine ⟨i.second, i.fraction + d.nanos, ?_, by omega, hfirst, ?_⟩
      · rw [plus?, shift?, if_pos ⟨hleap, by omega⟩, if_pos (by omega)]
        rfl
      · rw [rankAfter, spill, hlength, if_pos (by omega), rank]
        omega
    · refine ⟨(i.nanos + d.nanos - 1000000000) / 1000000000,
        ((i.nanos + d.nanos - 1000000000) % 1000000000).toNat, ?_, by omega, ?_, ?_⟩
      · rw [plus?, shift?, if_pos ⟨hleap, by omega⟩, if_neg (by omega)]
        rfl
      · rw [nanos]
        omega
      · rw [rankAfter, spill, hlength, if_neg (by omega), nanos]
        omega
  · have hlength : i.secondLength = 1000000000 := if_neg hleap
    have hplain : i.fraction < 1000000000 := by simpa [isLeap] using hleap
    refine ⟨(i.nanos + d.nanos) / 1000000000, ((i.nanos + d.nanos) % 1000000000).toNat, ?_,
      by omega, ?_, ?_⟩
    · rw [plus?, shift?, if_neg fun h => hleap h.1]
      rfl
    · rw [nanos]
      omega
    · rw [rankAfter, spill, hlength, rank, nanos]
      split <;> omega

/-- Moving an instant leads to the place of the sum, unless there is no instant. -/
theorem plus?_cases (i : Instant) (d : Duration) :
    (i.Reaches d ∧ ∃ sum, i.plus? d = some sum ∧ sum.rank = i.rankAfter d) ∨
      (¬ i.Reaches d ∧ i.plus? d = none) := by
  obtain ⟨second, fraction, hplus, hfits, hfirst, hrank⟩ := i.exists_second_plus? d
  rw [hplus, Reaches, hrank]
  rcases ofSecond?_cases second hfits with ⟨sum, hsum, rfl, rfl⟩ | ⟨hnone, hrange⟩
  · have hlast := sum.inRange.2
    have hless := sum.fraction_lt
    exact .inl ⟨by omega, sum, hsum, rfl⟩
  · exact .inr ⟨by omega, hnone⟩

variable {i : Instant} {d d' : Duration}

/-- A sum within reach is the instant with its place in the order. -/
theorem plus?_of_reaches (hreaches : i.Reaches d) :
    ∃ sum, i.plus? d = some sum ∧ sum.rank = i.rankAfter d := by
  rcases i.plus?_cases d with ⟨_, hsum⟩ | ⟨hnot, _⟩
  · exact hsum
  · exact (hnot hreaches).elim

theorem plus?_of_not_reaches (hnot : ¬ i.Reaches d) : i.plus? d = none := by
  rcases i.plus?_cases d with ⟨hreaches, _⟩ | ⟨_, hnone⟩
  · exact (hnot hreaches).elim
  · exact hnone

/-- What is out of reach lies after all instants. -/
theorem rank_lt_rankAfter_of_not_reaches (hnot : ¬ i.Reaches d) (time : Instant) :
    time.rank < i.rankAfter d := by
  have hlast := time.inRange.2
  have hless := time.fraction_lt
  simp only [Reaches, rank] at hnot ⊢
  omega

theorem rank_lt_rankAfter (hpositive : Duration.zero < d) : i.rank < i.rankAfter d := by
  have hnanos : 0 < d.nanos := hpositive
  have hless := i.fraction_lt
  simp only [rankAfter, rank]
  split <;> omega

theorem rankAfter_le (hle : d ≤ d') : i.rankAfter d ≤ i.rankAfter d' := by
  rw [Duration.le_iff] at hle
  have hlength := i.secondLength_le
  have hspill : i.spill d' - i.spill d = d'.nanos - d.nanos := by
    simp only [spill]
    omega
  have hdefined : i.spill d = i.fraction + d.nanos - i.secondLength := rfl
  unfold rankAfter rank
  by_cases hwithin : i.spill d' < 0
  · rw [if_pos hwithin, if_pos (by omega)]
    omega
  · rw [if_neg hwithin]
    split <;> omega

theorem rankAfter_lt (hlt : d < d') : i.rankAfter d < i.rankAfter d' := by
  have hnanos : d.nanos < d'.nanos := hlt
  have hlength := i.secondLength_le
  have hspill : i.spill d' - i.spill d = d'.nanos - d.nanos := by
    simp only [spill]
    omega
  have hdefined : i.spill d = i.fraction + d.nanos - i.secondLength := rfl
  unfold rankAfter rank
  split <;> split <;> omega

/-- A sum that exists is within reach, and has its place in the order. -/
theorem rank_of_plus? {sum : Instant} (hsum : i.plus? d = some sum) :
    i.Reaches d ∧ sum.rank = i.rankAfter d := by
  rcases i.plus?_cases d with ⟨hreaches, _, hfound, hrank⟩ | ⟨_, hnone⟩
  · cases hsum.symm.trans hfound
    exact ⟨hreaches, hrank⟩
  · cases hsum.symm.trans hnone

/-- Going on from a later instant leads further. From within a leap second that need not be so, and
the later instant is in none. -/
theorem rankAfter_mono {a b : Instant} (hb : b.isLeap = false) (hle : a ≤ b) (d : Duration) :
    a.rankAfter d ≤ b.rankAfter d := by
  have hbLength : b.secondLength = 1000000000 := if_neg (Bool.eq_false_iff.mp hb)
  have hfraction := a.fraction_lt
  simp only [isLeap, decide_eq_false_iff_not] at hb
  simp only [le_iff, rank] at hle
  by_cases ha : a.isLeap
  · -- the later instant is in a later second
    have haLength : a.secondLength = 2000000000 := if_pos ha
    simp only [isLeap, decide_eq_true_eq] at ha
    simp only [rankAfter, spill, rank, haLength, hbLength]
    split <;> split <;> omega
  · have haLength : a.secondLength = 1000000000 := if_neg ha
    simp only [isLeap, decide_eq_true_eq] at ha
    simp only [rankAfter, spill, rank, haLength, hbLength]
    split <;> split <;> omega

/-- The sum with an earlier instant is there, too, and it is no later. -/
theorem plus?_mono {a b sum : Instant} (hb : b.isLeap = false) (hle : a ≤ b)
    (hsum : b.plus? d = some sum) : ∃ earlier, a.plus? d = some earlier ∧ earlier ≤ sum := by
  obtain ⟨hreaches, hrank⟩ := rank_of_plus? hsum
  have hmono := rankAfter_mono hb hle d
  obtain ⟨earlier, hearlier, hrank'⟩ := plus?_of_reaches (Int.lt_of_le_of_lt hmono hreaches)
  refine ⟨earlier, hearlier, ?_⟩
  rw [le_iff, hrank, hrank']
  exact hmono

/-- Going on from a sum leads to the same place as the sum of both durations. -/
theorem rankAfter_of_plus? {sum : Instant} (hsum : i.plus? d = some sum) (d' : Duration) :
    sum.rankAfter d' = i.rankAfter ⟨d.nanos + d'.nanos⟩ := by
  have hrank := (rank_of_plus? hsum).2
  have hfraction := i.fraction_lt
  have hless := sum.fraction_lt
  have hlength := i.secondLength_le
  have hspill : i.spill ⟨d.nanos + d'.nanos⟩ = i.spill d + d'.nanos := by
    simp only [spill]
    omega
  have hdefined : i.spill d = i.fraction + d.nanos - i.secondLength := rfl
  by_cases hwithin : i.spill d < 0
  · -- the sum is in the second of the instant, leap or not
    rw [rankAfter, if_pos hwithin] at hrank
    simp only [rank] at hrank
    have hsecond : sum.second = i.second := by omega
    have hsame : sum.secondLength = i.secondLength := by
      simp only [secondLength, isLeap, decide_eq_true_eq] at hdefined ⊢
      split at hdefined <;> split <;> omega
    have hsumSpill : sum.spill d' = i.spill ⟨d.nanos + d'.nanos⟩ := by
      rw [hspill, hdefined, spill, hsame]
      omega
    simp only [rankAfter, hsumSpill, rank, hsecond]
    split <;> omega
  · -- it is in a later second, and none of those is a leap second
    rw [rankAfter, if_neg hwithin] at hrank
    simp only [rank] at hrank
    have hplain : sum.secondLength = 1000000000 := by
      have hbelow : ¬ 1000000000 ≤ sum.fraction := by omega
      rw [secondLength, isLeap, decide_eq_false hbelow]
      rfl
    have hsumSpill : sum.spill d' = sum.fraction + d'.nanos - 1000000000 := by
      rw [spill, hplain]
      rfl
    simp only [rankAfter, hsumSpill, rank, hspill]
    split <;> omega

theorem Reaches.of_le (hreaches : i.Reaches d') (hle : d ≤ d') : i.Reaches d :=
  Int.lt_of_le_of_lt (rankAfter_le hle) hreaches

/-- A duration longer than all time leads beyond the last instant from everywhere. -/
theorem not_reaches_of_long (i : Instant)
    (hlong : (lastSecond + 2 - firstSecond) * 1000000000 ≤ d.nanos) : ¬ i.Reaches d := by
  have hfirst := i.inRange.1
  have hlength := i.secondLength_le
  have hspill : i.spill d = i.fraction + d.nanos - i.secondLength := rfl
  simp only [firstSecond, lastSecond] at hlong hfirst
  rw [Reaches, rankAfter, if_neg (by omega), lastSecond]
  omega

/-! ### The end of a lease -/

/-- Out of reach a lease ends as it begins. -/
theorem plusOrSelf_of_not_reaches (hnot : ¬ i.Reaches d) : i.plusOrSelf d = i := by
  rw [plusOrSelf, plus?_of_not_reaches hnot, Option.getD_none]

/-- Within reach a lease ends after its full length. -/
theorem rank_plusOrSelf (hreaches : i.Reaches d) : (i.plusOrSelf d).rank = i.rankAfter d := by
  obtain ⟨sum, hsum, hrank⟩ := plus?_of_reaches hreaches
  rw [plusOrSelf_eq hsum, hrank]

/-- A lease that has a length at all ends later than it begins, unless there is no instant at its
end. -/
theorem lt_plusOrSelf_iff (hpositive : Duration.zero < d) : i < i.plusOrSelf d ↔ i.Reaches d := by
  by_cases hreaches : i.Reaches d
  · rw [lt_iff, rank_plusOrSelf hreaches]
    exact iff_of_true (rank_lt_rankAfter hpositive) hreaches
  · rw [plusOrSelf_of_not_reaches hreaches, ← not_le]
    exact iff_of_false (fun hlt => hlt (le_refl i)) hreaches

/-- The longer one of two leases ends no earlier, unless it is the one without an end. -/
theorem plusOrSelf_le_iff (hpositive : Duration.zero < d) (hle : d ≤ d') :
    i.plusOrSelf d ≤ i.plusOrSelf d' ↔ i.Reaches d' ∨ ¬ i.Reaches d := by
  by_cases hlonger : i.Reaches d'
  · have hshorter := hlonger.of_le hle
    rw [le_iff, rank_plusOrSelf hlonger, rank_plusOrSelf hshorter]
    exact iff_of_true (rankAfter_le hle) (.inl hlonger)
  · rw [plusOrSelf_of_not_reaches hlonger, ← not_lt, lt_plusOrSelf_iff hpositive]
    simp only [hlonger, false_or]

end Instant

end Outbox
