import Outbox.Proofs.DayNumbers
import Outbox.Proofs.NumberTexts
import Outbox.Time.Text

/-! # Instants as texts

Each part of the text of an instant is read back up to where the next part begins: years outside of
0 to 9999 behind their sign, fractions of no, three, six or nine digits, and a leap second as second
60. So an instant is read back from its text, whatever instant it is.
-/

namespace Outbox

namespace Decimal

/-- A numeral with at least so many places has digits only, and the value that it is written for. -/
theorem atLeast_eq (places n : Nat) :
    (∀ c ∈ atLeast places n, c.isDigit) ∧ value (atLeast places n) = n ∧
      (0 < places → atLeast places n ≠ []) := by
  unfold atLeast
  split
  next hsmall =>
    refine ⟨fun c hmem => isDigit_of_mem_padded hmem, ?_, fun hpos heq => ?_⟩
    · rw [value_padded, Nat.mod_eq_of_lt hsmall]
    · have hlength := length_padded places n
      rw [heq, List.length_nil] at hlength
      omega
  next hlarge =>
    exact ⟨fun c hmem => isDigit_of_mem_numeral hmem, value_numeral n, fun _ => numeral_ne_nil n⟩

end Decimal

namespace Text

theorem isBlank_of_isDigit {c : Char} (hdigit : c.isDigit) : isBlank c = false := by
  have hbounds : 48 ≤ c.toNat ∧ c.toNat ≤ 57 := by
    simpa [Char.isDigit, UInt32.le_iff_toNat_le] using hdigit
  simp [isBlank]
  omega

theorem trimStart_cons {c : Char} (hblank : isBlank c = false) (rest : List Char) :
    trimStart (c :: rest) = c :: rest := by
  rw [trimStart, List.dropWhile_cons_of_neg (by simp [hblank])]

end Text

namespace Instant.Reading

/-- Digits are taken up to the first character that is none, or as many as there may be. -/
theorem digits_append {most : Nat} {ds rest : List Char} (hdigits : ∀ c ∈ ds, c.isDigit)
    (hsome : ds ≠ []) (hfits : ds.length ≤ most)
    (hstops : ds.length = most ∨ ∀ c ∈ rest.head?, c.isDigit = false) :
    digits most (ds ++ rest) = .ok (ds, rest) := by
  have hrest : ∀ c ∈ (rest.take (most - ds.length)).head?, c.isDigit = false := by
    intro c hhead
    rcases hstops with hfull | hstop
    · rw [hfull, Nat.sub_self, List.take_zero] at hhead
      cases hhead
    · rw [List.head?_take] at hhead
      split at hhead
      next => cases hhead
      next => exact hstop c hhead
  have htaken : ((ds ++ rest).take most).takeWhile Char.isDigit = ds := by
    rw [List.take_append, List.take_of_length_le hfits]
    exact Decimal.takeWhile_append_stop hdigits hrest
  simp only [digits, htaken]
  rw [List.drop_left]
  rfl

theorem literal_cons {c : Char} (hblank : Text.isBlank c = false) (rest : List Char) :
    literal c (c :: rest) = .ok ((), rest) := by
  simp only [literal, Text.trimStart_cons hblank, if_true]
  rfl

/-- Where two digits are due, two digits are read back. -/
theorem field_padded {low high n : Nat} (hlow : low ≤ n) (hhigh : n ≤ high) (hfits : n < 100)
    (rest : List Char) : field low high (Decimal.padded 2 n ++ rest) = .ok (n, rest) := by
  have htrim : Text.trimStart (Decimal.padded 2 n ++ rest) = Decimal.padded 2 n ++ rest :=
    Text.trimStart_cons (Text.isBlank_of_isDigit (Decimal.isDigit_digit (n / 10))) _
  have hdigits : digits 2 (Decimal.padded 2 n ++ rest) = .ok (Decimal.padded 2 n, rest) :=
    digits_append (fun c hmem => Decimal.isDigit_of_mem_padded hmem) (List.cons_ne_nil _ _)
      (Nat.le_refl 2) (.inl rfl)
  have hvalue : Decimal.value (Decimal.padded 2 n) = n := by
    rw [Decimal.value_padded]
    exact Nat.mod_eq_of_lt hfits
  simp only [field, htrim, hdigits, bind, Except.bind, hvalue, hlow, hhigh, and_self, if_true]
  rfl

/-! ### Years -/

/-- Behind a sign there may be any number of digits, and they are taken up to the dash. -/
theorem digits_atLeast (k : Nat) (rest : List Char) :
    digits (Decimal.atLeast 4 k ++ '-' :: rest).length (Decimal.atLeast 4 k ++ '-' :: rest) =
      .ok (Decimal.atLeast 4 k, '-' :: rest) := by
  obtain ⟨hdigits, _, hsome⟩ := Decimal.atLeast_eq 4 k
  apply digits_append hdigits (hsome (by decide))
  · rw [List.length_append]
    exact Nat.le_add_right _ _
  · right
    rintro c hmem
    cases hmem
    rfl

/-- A year of four digits stands without a sign. -/
theorem year_padded {n : Nat} (hfits : n < 10000) (rest : List Char) :
    year (Decimal.padded 4 n ++ '-' :: rest) = .ok ((n : Int), '-' :: rest) := by
  have hfirst : (Decimal.digit (n / 10 / 10 / 10)).isDigit := Decimal.isDigit_digit _
  have htrim : Text.trimStart (Decimal.padded 4 n ++ '-' :: rest) =
      Decimal.padded 4 n ++ '-' :: rest :=
    Text.trimStart_cons (Text.isBlank_of_isDigit hfirst) _
  have hdigits : digits 4 (Decimal.padded 4 n ++ '-' :: rest) =
      .ok (Decimal.padded 4 n, '-' :: rest) :=
    digits_append (fun c hmem => Decimal.isDigit_of_mem_padded hmem) (List.cons_ne_nil _ _)
      (Nat.le_refl 4) (.inl rfl)
  have hvalue : Decimal.value (Decimal.padded 4 n) = n := by
    rw [Decimal.value_padded]
    exact Nat.mod_eq_of_lt hfits
  rw [year, htrim]
  split
  next heq => cases (List.cons.inj heq).1 ▸ hfirst
  next heq => cases (List.cons.inj heq).1 ▸ hfirst
  next =>
    simp only [hdigits, bind, Except.bind, hvalue]
    rfl

/-- A year after 9999 stands with a plus. -/
theorem year_plus {n : Nat} (hhigh : n ≤ 2147483647) (rest : List Char) :
    year ('+' :: Decimal.atLeast 4 n ++ '-' :: rest) = .ok ((n : Int), '-' :: rest) := by
  have hvalue := (Decimal.atLeast_eq 4 n).2.1
  have hsign : Text.isBlank '+' = false := rfl
  simp only [year, List.cons_append, Text.trimStart_cons hsign, digits_atLeast, bind, Except.bind,
    hvalue, hhigh, if_true]
  rfl

/-- A year before 0 stands with a minus. -/
theorem year_minus {n : Nat} (hlow : n ≤ 2147483648) (rest : List Char) :
    year ('-' :: Decimal.atLeast 4 n ++ '-' :: rest) = .ok (-(n : Int), '-' :: rest) := by
  have hvalue := (Decimal.atLeast_eq 4 n).2.1
  have hsign : Text.isBlank '-' = false := rfl
  simp only [year, List.cons_append, Text.trimStart_cons hsign, digits_atLeast, bind, Except.bind,
    hvalue, hlow, if_true]
  rfl

/-- A year is read back up to the dash behind it. -/
theorem year_yearText {n : Int} (hlow : -2147483648 ≤ n) (hhigh : n ≤ 2147483647)
    (rest : List Char) : year (Date.yearText n ++ '-' :: rest) = .ok (n, '-' :: rest) := by
  unfold Date.yearText
  split
  next hplain =>
    rw [year_padded (by omega), Int.toNat_of_nonneg hplain.1]
  next =>
    split
    next hpos =>
      rw [year_plus (by omega), Int.toNat_of_nonneg hpos]
    next hneg =>
      rw [year_minus (by omega), Int.toNat_of_nonneg (by omega), Int.neg_neg]

/-! ### Fractions -/

/-- A fraction of so many places counts in nanoseconds. -/
theorem decimals_padded {places : Nat} (hpos : 0 < places) (hle : places ≤ 9) (n : Nat) :
    decimals ('.' :: Decimal.padded places n ++ ['Z']) =
      .ok (n % Nat.pow 10 places * Nat.pow 10 (9 - places), ['Z']) := by
  have hlength := Decimal.length_padded places n
  have hdigits : digits 9 (Decimal.padded places n ++ ['Z']) =
      .ok (Decimal.padded places n, ['Z']) := by
    apply digits_append (fun c hmem => Decimal.isDigit_of_mem_padded hmem)
    · intro hnil
      rw [hnil, List.length_nil] at hlength
      omega
    · omega
    · right
      rintro c hmem
      cases hmem
      rfl
  simp only [decimals, List.cons_append, hdigits, bind, Except.bind, Decimal.value_padded, hlength]
  rfl

/-- A fraction is read back up to the end mark. -/
theorem decimals_fractionText {n : Nat} (hfits : n < 1000000000) :
    decimals (fractionText n ++ ['Z']) = .ok (n, ['Z']) := by
  unfold fractionText
  split
  next hzero =>
    subst hzero
    rfl
  next =>
    split
    next hmillis =>
      have hwhole : n / 1000000 % 1000 * 1000000 = n := by omega
      rw [decimals_padded (by decide) (by decide)]
      exact congrArg (fun n => Except.ok (n, ['Z'])) hwhole
    next =>
      split
      next hmicros =>
        have hwhole : n / 1000 % 1000000 * 1000 = n := by omega
        rw [decimals_padded (by decide) (by decide)]
        exact congrArg (fun n => Except.ok (n, ['Z'])) hwhole
      next =>
        have hwhole : n % 1000000000 * 1 = n := by omega
        rw [decimals_padded (by decide) (by decide)]
        exact congrArg (fun n => Except.ok (n, ['Z'])) hwhole

end Reading

open Reading

/-- The text of an instant, part by part. A leap second is the sixtieth of its minute. -/
theorem chars_eq (i : Instant) :
    i.chars = Date.yearText (Date.ofDayNumber i.day).year ++
      '-' :: (Decimal.padded 2 (Date.ofDayNumber i.day).month ++
      '-' :: (Decimal.padded 2 (Date.ofDayNumber i.day).day ++
      'T' :: (Decimal.padded 2 (i.secondOfDay / 3600) ++
      ':' :: (Decimal.padded 2 (i.secondOfDay / 60 % 60) ++
      ':' :: (Decimal.padded 2 (i.secondOfDay % 60 + i.fraction / 1000000000) ++
      (fractionText (i.fraction % 1000000000) ++ ['Z'])))))) := by
  simp only [chars, Date.text, clockText, List.append_assoc, List.cons_append]

/-- The parts of a time of day make up the second of it, with a leap second counted as the second
before. -/
theorem second_of_parts (i : Instant) :
    i.day * 86400 + (((i.secondOfDay / 3600 * 60 + i.secondOfDay / 60 % 60) * 60 +
      min (i.secondOfDay % 60 + i.fraction / 1000000000) 59 : Nat) : Int) = i.second ∧
      (i.secondOfDay % 60 + i.fraction / 1000000000) / 60 * 1000000000 +
        i.fraction % 1000000000 = i.fraction := by
  have hfits := i.fits
  simp only [day, secondOfDay]
  omega

/-- An instant is read back from its text. -/
theorem ofChars_chars (i : Instant) : ofChars i.chars = .ok i := by
  have hrange := i.inRange
  have hfits := i.fits
  have hbounds : -100000000 ≤ i.day ∧ i.day ≤ 100000000 := by
    simp only [firstSecond, lastSecond] at hrange
    simp only [day]
    omega
  have hhour : i.secondOfDay / 3600 ≤ 23 := by
    simp only [secondOfDay]
    omega
  have hsecond : i.secondOfDay % 60 + i.fraction / 1000000000 ≤ 60 := by
    simp only [secondOfDay]
    omega
  obtain ⟨hwhole, hfraction⟩ := i.second_of_parts
  -- the date, of which only this much is used
  obtain ⟨hlow, hhigh⟩ := Date.year_ofDayNumber hbounds.1 hbounds.2
  have hexists := Date.exists_ofDayNumber i.day
  have hnumber := Date.dayNumber_ofDayNumber i.day
  rw [chars_eq]
  generalize Date.ofDayNumber i.day = date at hlow hhigh hexists hnumber ⊢
  obtain ⟨hmonth, hmonth', hday, hday'⟩ := id hexists
  have hmost : date.day ≤ 31 := hday'.trans (Date.daysInMonth_le date.year date.month)
  -- field by field, from left to right
  rw [ofChars, year_yearText (by omega) (by omega)]
  simp only [bind, Except.bind, pure, Except.pure, separator, true_or, if_true,
    literal_cons (show Text.isBlank '-' = false from rfl),
    literal_cons (show Text.isBlank ':' = false from rfl),
    field_padded hmonth hmonth' (by omega), field_padded hday hmost (by omega),
    field_padded (Nat.zero_le _) hhour (by omega),
    field_padded (Nat.zero_le _) (show i.secondOfDay / 60 % 60 ≤ 59 by omega) (by omega),
    field_padded (Nat.zero_le _) hsecond (by omega),
    decimals_fractionText (show i.fraction % 1000000000 < 1000000000 by omega)]
  have hoffset : offset (Text.trimStart ['Z']) = .ok (0, []) := rfl
  have hrest : (Text.trimStart ([] : List Char)).isEmpty = true := rfl
  have hinside : ¬ (¬ (firstSecond ≤ i.second ∧ i.second ≤ lastSecond) ∨
      86400 ≤ (0 : Int).natAbs) := by
    simp [hrange]
  have hinstant : ofSecond? i.second i.fraction = some i := ofSecond?_eq_some.mpr ⟨rfl, rfl⟩
  simp only [hoffset, hrest, not_true, if_false, hexists, hnumber, hwhole, hinside, hfraction,
    Int.sub_zero, hinstant]

/-- The text of an instant is read as this instant. -/
theorem ofText_toText (i : Instant) : ofText i.toText = .ok i := by
  rw [ofText, toText, String.toList_ofList, ofChars_chars]

end Instant

end Outbox
