import Outbox.Decimal.Reading
import Mathlib.Data.List.TakeWhile

/-! # Which texts are numbers

A natural number is digits behind an optional plus sign. A float is a sign or none, and then a name
of infinity or of no number, or digits with an optional point among them and an optional exponent.
These texts are read, and no others.
-/

namespace Outbox.Decimal

/-- Nothing but digits, and at least one of them. -/
def IsDigits (cs : List Char) : Prop := cs ≠ [] ∧ ∀ c ∈ cs, c.isDigit

def IsSign (cs : List Char) : Prop := cs = [] ∨ cs = ['+'] ∨ cs = ['-']

/-- The text says the natural number. -/
def Says (cs : List Char) (n : Nat) : Prop :=
  ∃ digits, (cs = digits ∨ cs = '+' :: digits) ∧ IsDigits digits ∧ value digits = n

/-- Digits, with a point before, between or behind them, or without one. -/
inductive IsMantissa : List Char → Prop
  | whole {digits : List Char} (hdigits : IsDigits digits) : IsMantissa digits
  | pointed {whole fraction : List Char} (hdigits : IsDigits (whole ++ fraction)) :
      IsMantissa (whole ++ '.' :: fraction)

inductive IsExponent : List Char → Prop
  | absent : IsExponent []
  | marked {mark : Char} {sign digits : List Char} (hmark : mark = 'e' ∨ mark = 'E')
      (hsign : IsSign sign) (hdigits : IsDigits digits) : IsExponent (mark :: (sign ++ digits))

/-- A name of infinity or of no number. The case of letters does not count. -/
def IsName (cs : List Char) : Prop :=
  String.ofList (cs.map Char.toLower) ∈ ["inf", "infinity", "nan"]

/-- A text of a float without its sign. -/
inductive IsMagnitude : List Char → Prop
  | name {cs : List Char} (hname : IsName cs) : IsMagnitude cs
  | number {mantissa exponent : List Char} (hmantissa : IsMantissa mantissa)
      (hexponent : IsExponent exponent) : IsMagnitude (mantissa ++ exponent)

def IsFloat (cs : List Char) : Prop :=
  ∃ sign magnitude, cs = sign ++ magnitude ∧ IsSign sign ∧ IsMagnitude magnitude

/-- The text says the double. -/
def SaysFloat (cs : List Char) (x : Float) : Prop := float? cs = some x

/-- What is taken ends where the first character stops it. -/
theorem takeWhile_append_stop {p : Char → Bool} {taken rest : List Char}
    (htaken : ∀ c ∈ taken, p c) (hrest : ∀ c ∈ rest.head?, p c = false) :
    (taken ++ rest).takeWhile p = taken := by
  rw [List.takeWhile_append_of_pos htaken]
  cases rest with
  | nil => exact List.append_nil taken
  | cons c rest =>
      rw [List.takeWhile_cons_of_neg (by simp [hrest c rfl]), List.append_nil]

section Digits

variable {cs : List Char}

theorem isDigits_iff : IsDigits cs ↔ ¬ (cs.isEmpty || !cs.all Char.isDigit) := by
  simp [IsDigits]

/-- Digits do not begin with a mark. -/
theorem IsDigits.head?_ne (hdigits : IsDigits cs) {mark : Char} (hmark : mark.isDigit = false) :
    mark ∉ cs.head? := by
  intro hhead
  rw [hdigits.2 mark (List.mem_of_mem_head? hhead)] at hmark
  cases hmark

/-- A text is read as a number if it says this number and there is room for it. -/
theorem natural?_eq_some {most n : Nat} : natural? most cs = some n ↔ Says cs n ∧ n ≤ most := by
  have hread (digits : List Char) :
      (if digits.isEmpty || !digits.all Char.isDigit then none
        else if value digits ≤ most then some (value digits) else none) = some n ↔
        (IsDigits digits ∧ value digits = n) ∧ n ≤ most := by
    rw [isDigits_iff]
    grind
  unfold natural?
  -- the sign is no digit, so behind it stand all the digits that there are
  split
  next rest =>
    rw [hread]
    refine and_congr_left fun _ => ⟨fun hstates => ⟨rest, .inr rfl, hstates⟩, ?_⟩
    rintro ⟨digits, rfl | hplus, hdigits, hvalue⟩
    · exact absurd rfl (hdigits.head?_ne rfl)
    · cases hplus
      exact ⟨hdigits, hvalue⟩
  next hnone =>
    rw [hread]
    refine and_congr_left fun _ => ⟨fun hstates => ⟨cs, .inl rfl, hstates⟩, ?_⟩
    rintro ⟨digits, rfl | hplus, hstates⟩
    · exact hstates
    · exact absurd hplus (hnone digits)

theorem Says.unique {m n : Nat} (hm : Says cs m) (hn : Says cs n) : m = n := by
  have hread := natural?_eq_some.mpr ⟨hm, Nat.le_max_left m n⟩
  rw [natural?_eq_some.mpr ⟨hn, Nat.le_max_right m n⟩] at hread
  exact (Option.some.inj hread).symm

theorem isSome_ite_digits {digits : List Char} {e : Int} :
    (if digits.isEmpty || !digits.all Char.isDigit then none else some e).isSome ↔
      IsDigits digits := by
  rw [isDigits_iff]
  split <;> simp_all

theorem isSome_exponent?_unsigned (hplus : '+' ∉ cs.head?) (hminus : '-' ∉ cs.head?) :
    (exponent? cs).isSome ↔ IsDigits cs := by
  unfold exponent?
  split
  next hmatch =>
    split at hmatch
    next => exact absurd rfl hplus
    next => exact absurd rfl hminus
    next =>
      cases hmatch
      exact isSome_ite_digits

/-- Digits stand behind a sign, or there is no sign. -/
theorem isSome_exponent? : (exponent? cs).isSome ↔
    ∃ sign digits, cs = sign ++ digits ∧ IsSign sign ∧ IsDigits digits := by
  constructor
  · intro hsome
    by_cases hplus : '+' ∈ cs.head?
    · obtain ⟨rest, rfl⟩ := List.head?_eq_some_iff.mp hplus
      exact ⟨['+'], rest, rfl, .inr (.inl rfl), isSome_ite_digits.mp hsome⟩
    · by_cases hminus : '-' ∈ cs.head?
      · obtain ⟨rest, rfl⟩ := List.head?_eq_some_iff.mp hminus
        exact ⟨['-'], rest, rfl, .inr (.inr rfl), isSome_ite_digits.mp hsome⟩
      · exact ⟨[], cs, rfl, .inl rfl, (isSome_exponent?_unsigned hplus hminus).mp hsome⟩
  · rintro ⟨sign, digits, rfl, rfl | rfl | rfl, hdigits⟩
    · exact (isSome_exponent?_unsigned (hdigits.head?_ne rfl) (hdigits.head?_ne rfl)).mpr hdigits
    · exact isSome_ite_digits.mpr hdigits
    · exact isSome_ite_digits.mpr hdigits

end Digits

section Floats

variable {whole fraction rest cs : List Char}

theorem IsExponent.head? {mark : Char} (hexponent : IsExponent rest) (hmark : mark ∈ rest.head?) :
    mark = 'e' ∨ mark = 'E' := by
  cases hexponent with
  | absent => cases hmark
  | marked hmarked =>
      cases hmark
      exact hmarked

theorem IsExponent.head?_not_digit (hexponent : IsExponent rest) :
    ∀ c ∈ rest.head?, c.isDigit = false := by
  intro c hhead
  rcases hexponent.head? hhead with rfl | rfl <;> rfl

/-- A text divides where its digits end. -/
theorem exists_digits_append (cs : List Char) : ∃ digits rest, cs = digits ++ rest ∧
    (∀ c ∈ digits, c.isDigit) ∧ ∀ c ∈ rest.head?, c.isDigit = false := by
  refine ⟨cs.takeWhile Char.isDigit, cs.dropWhile Char.isDigit,
    List.takeWhile_append_dropWhile.symm, fun c hmem => List.mem_takeWhile_imp hmem, ?_⟩
  intro c hhead
  have hnot := List.head?_dropWhile_not Char.isDigit cs
  rw [Option.mem_def.mp hhead] at hnot
  exact hnot

theorem isExponent_cons {mark : Char} :
    IsExponent (mark :: rest) ↔ (mark = 'e' ∨ mark = 'E') ∧ (exponent? rest).isSome := by
  rw [isSome_exponent?]
  constructor
  · rintro ⟨⟩
    exact ⟨‹_›, _, _, rfl, ‹_›, ‹_›⟩
  · rintro ⟨hmark, sign, digits, rfl, hsign, hdigits⟩
    exact .marked hmark hsign hdigits

/-- The digits behind a point, and what follows. Without a point there are none. -/
def fractionOf (cs : List Char) : List Char × List Char :=
  match cs with
  | '.' :: rest => (rest.takeWhile Char.isDigit, rest.drop (rest.takeWhile Char.isDigit).length)
  | _ => ([], cs)

/-- The exponent behind the digits. -/
def powerOf : List Char → Option Int
  | [] => some 0
  | mark :: rest => if mark = 'e' || mark = 'E' then exponent? rest else none

theorem fractionOf_eq_nil (hpoint : '.' ∉ rest.head?) : fractionOf rest = ([], rest) := by
  unfold fractionOf
  split
  next => exact absurd rfl hpoint
  next => rfl

theorem isSome_powerOf : (powerOf rest).isSome ↔ IsExponent rest := by
  cases rest with
  | nil => exact iff_of_true rfl .absent
  | cons mark rest =>
      rw [isExponent_cons]
      by_cases hmark : mark = 'e' ∨ mark = 'E' <;> simp [powerOf, hmark]

/-- Infinity and what is no number are read by their names. -/
theorem isSome_unsignedFloat?_of_isName (hname : IsName cs) : (unsignedFloat? cs).isSome := by
  simp only [IsName, List.mem_cons, List.not_mem_nil, or_false] at hname
  unfold unsignedFloat?
  grind

/-- What is no name divides into whole digits, a fraction and an exponent. -/
theorem unsignedFloat?_of_not_isName (hname : ¬ IsName cs) :
    unsignedFloat? cs =
      let whole := cs.takeWhile Char.isDigit
      let (fraction, rest) := fractionOf (cs.drop whole.length)
      if whole.isEmpty && fraction.isEmpty then none
      else (powerOf rest).map fun e => nearest (value (whole ++ fraction)) (e - fraction.length) := by
  simp only [IsName, List.mem_cons, List.not_mem_nil, or_false, not_or] at hname
  obtain ⟨hinf, hinfinity, hnan⟩ := hname
  unfold unsignedFloat?
  simp only [hinf, hinfinity, hnan, decide_false, Bool.or_false, Bool.false_eq_true, if_false]
  rfl

/-- Without a point there have to be digits before the exponent. -/
theorem isSome_unsignedFloat?_whole (hname : ¬ IsName (whole ++ rest))
    (hwhole : ∀ c ∈ whole, c.isDigit) (hrest : ∀ c ∈ rest.head?, c.isDigit = false)
    (hpoint : '.' ∉ rest.head?) :
    (unsignedFloat? (whole ++ rest)).isSome ↔ whole ≠ [] ∧ IsExponent rest := by
  rw [unsignedFloat?_of_not_isName hname, ← isSome_powerOf]
  simp only [takeWhile_append_stop hwhole hrest, List.drop_left, fractionOf_eq_nil hpoint]
  by_cases hempty : whole = [] <;> simp [hempty]

/-- With a point there have to be digits on one side of it. -/
theorem isSome_unsignedFloat?_pointed (hname : ¬ IsName (whole ++ '.' :: (fraction ++ rest)))
    (hwhole : ∀ c ∈ whole, c.isDigit) (hfraction : ∀ c ∈ fraction, c.isDigit)
    (hrest : ∀ c ∈ rest.head?, c.isDigit = false) :
    (unsignedFloat? (whole ++ '.' :: (fraction ++ rest))).isSome ↔
      whole ++ fraction ≠ [] ∧ IsExponent rest := by
  have hpoint : ∀ c ∈ ('.' :: (fraction ++ rest)).head?, c.isDigit = false := by
    rintro c ⟨⟩
    rfl
  rw [unsignedFloat?_of_not_isName hname, ← isSome_powerOf]
  simp only [takeWhile_append_stop hwhole hpoint, List.drop_left, fractionOf,
    takeWhile_append_stop hfraction hrest]
  by_cases hempty : whole ++ fraction = []
  · obtain ⟨rfl, rfl⟩ := List.append_eq_nil_iff.mp hempty
    simp
  · rw [List.append_eq_nil_iff] at hempty
    simp [hempty]

/-- A text is read as a magnitude just if it is one. -/
theorem isSome_unsignedFloat? : (unsignedFloat? cs).isSome ↔ IsMagnitude cs := by
  constructor
  · intro hsome
    by_cases hname : IsName cs
    · exact .name hname
    obtain ⟨whole, rest, rfl, hwhole, hrest⟩ := exists_digits_append cs
    by_cases hpoint : '.' ∈ rest.head?
    · obtain ⟨rest, rfl⟩ := List.head?_eq_some_iff.mp hpoint
      obtain ⟨fraction, rest, rfl, hfraction, hrest⟩ := exists_digits_append rest
      obtain ⟨hne, hexponent⟩ :=
        (isSome_unsignedFloat?_pointed hname hwhole hfraction hrest).mp hsome
      have hmantissa : IsMantissa (whole ++ '.' :: fraction) :=
        .pointed ⟨hne, List.forall_mem_append.mpr ⟨hwhole, hfraction⟩⟩
      simpa using IsMagnitude.number hmantissa hexponent
    · obtain ⟨hne, hexponent⟩ := (isSome_unsignedFloat?_whole hname hwhole hrest hpoint).mp hsome
      exact .number (.whole ⟨hne, hwhole⟩) hexponent
  · intro hmagnitude
    -- names are read before digits, so a number is looked at only if it is no name
    by_cases hname : IsName cs
    · exact isSome_unsignedFloat?_of_isName hname
    cases hmagnitude with
    | name hname' => exact absurd hname' hname
    | number hmantissa hexponent =>
        cases hmantissa with
        | whole hdigits =>
            exact (isSome_unsignedFloat?_whole hname hdigits.2 hexponent.head?_not_digit
              fun hpoint => by simpa using hexponent.head? hpoint).mpr ⟨hdigits.1, hexponent⟩
        | pointed hdigits =>
            obtain ⟨hwhole, hfraction⟩ := List.forall_mem_append.mp hdigits.2
            rw [List.append_assoc, List.cons_append] at hname ⊢
            exact (isSome_unsignedFloat?_pointed hname hwhole hfraction
              hexponent.head?_not_digit).mpr ⟨hdigits.1, hexponent⟩

theorem IsName.head?_ne {mark : Char} (hname : IsName cs) (hmark : mark = '+' ∨ mark = '-') :
    mark ∉ cs.head? := by
  intro hhead
  obtain ⟨rest, rfl⟩ := List.head?_eq_some_iff.mp hhead
  have hlower : mark.toLower = mark := by rcases hmark with rfl | rfl <;> rfl
  have hfirst : ∀ name : String, mark ∉ name.toList.head? →
      String.ofList ((mark :: rest).map Char.toLower) ≠ name := by
    rintro name hnot rfl
    rw [String.toList_ofList, List.map_cons, hlower] at hnot
    exact hnot rfl
  simp only [IsName, List.mem_cons, List.not_mem_nil, or_false] at hname
  rcases hname with heq | heq | heq <;> refine hfirst _ ?_ heq <;>
    rcases hmark with rfl | rfl <;> decide

theorem IsMantissa.head?_ne {mark : Char} {mantissa exponent : List Char}
    (hmantissa : IsMantissa mantissa) (hmark : mark = '+' ∨ mark = '-') :
    mark ∉ (mantissa ++ exponent).head? := by
  have hdigit : mark.isDigit = false := by rcases hmark with rfl | rfl <;> rfl
  cases hmantissa with
  | whole hdigits =>
      cases mantissa with
      | nil => exact absurd rfl hdigits.1
      | cons c rest => exact hdigits.head?_ne hdigit
  | @pointed whole fraction hdigits =>
      cases whole with
      | nil => rcases hmark with rfl | rfl <;> simp
      | cons c rest => exact hdigits.head?_ne hdigit

/-- A magnitude has no sign. -/
theorem IsMagnitude.head?_ne {mark : Char} (hmagnitude : IsMagnitude cs)
    (hmark : mark = '+' ∨ mark = '-') : mark ∉ cs.head? := by
  cases hmagnitude with
  | name hname => exact hname.head?_ne hmark
  | number hmantissa _ => exact hmantissa.head?_ne hmark

theorem float?_unsigned (hplus : '+' ∉ cs.head?) (hminus : '-' ∉ cs.head?) :
    float? cs = unsignedFloat? cs := by
  unfold float?
  split
  next => exact absurd rfl hminus
  next => exact absurd rfl hplus
  next => rfl

/-- A text is read as a float just if it is one. -/
theorem isSome_float? : (float? cs).isSome ↔ IsFloat cs := by
  constructor
  · intro hsome
    by_cases hplus : '+' ∈ cs.head?
    · obtain ⟨rest, rfl⟩ := List.head?_eq_some_iff.mp hplus
      exact ⟨['+'], rest, rfl, .inr (.inl rfl), isSome_unsignedFloat?.mp hsome⟩
    · by_cases hminus : '-' ∈ cs.head?
      · obtain ⟨rest, rfl⟩ := List.head?_eq_some_iff.mp hminus
        have hread : (unsignedFloat? rest).isSome := Option.isSome_map.symm.trans hsome
        exact ⟨['-'], rest, rfl, .inr (.inr rfl), isSome_unsignedFloat?.mp hread⟩
      · rw [float?_unsigned hplus hminus] at hsome
        exact ⟨[], cs, rfl, .inl rfl, isSome_unsignedFloat?.mp hsome⟩
  · -- a magnitude has no sign of its own, so the sign is all that is taken off
    rintro ⟨sign, magnitude, rfl, rfl | rfl | rfl, hmagnitude⟩
    · rw [List.nil_append, float?_unsigned (hmagnitude.head?_ne (.inl rfl))
        (hmagnitude.head?_ne (.inr rfl))]
      exact isSome_unsignedFloat?.mpr hmagnitude
    · exact isSome_unsignedFloat?.mpr hmagnitude
    · exact Option.isSome_map.trans (isSome_unsignedFloat?.mpr hmagnitude)

end Floats

end Outbox.Decimal
