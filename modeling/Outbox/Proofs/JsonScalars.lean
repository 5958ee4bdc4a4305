import Outbox.Json.Schema
import Outbox.Proofs.NumberTexts

/-! # Scalars that are read back

In compact text a value ends at a comma, at a closing bracket or brace, or with the text. Before any
of these the readers of strings, numbers and truth values take exactly what was written and come to
the value that it was written for.
-/

namespace Outbox.Json

/-- A value may end here. -/
def Closes (rest : List Char) : Prop := ∀ ch ∈ rest.head?, ch = ',' ∨ ch = ']' ∨ ch = '\x7d'

/-- Wherever a value may end, the reader takes just this text and comes to this value. -/
def Reads {α : Type} (reader : Reader α) (text : List Char) (a : α) : Prop :=
  ∀ rest position, Closes rest →
    ∃ position', reader ⟨text ++ rest, position⟩ = .ok (a, ⟨rest, position'⟩)

theorem closes_nil : Closes [] := by
  intro ch hmem
  cases hmem

theorem closes_comma (rest : List Char) : Closes (',' :: rest) := by
  intro ch hmem
  cases hmem
  exact .inl rfl

theorem closes_bracket (rest : List Char) : Closes (']' :: rest) := by
  intro ch hmem
  cases hmem
  exact .inr (.inl rfl)

theorem closes_brace (rest : List Char) : Closes ('\x7d' :: rest) := by
  intro ch hmem
  cases hmem
  exact .inr (.inr rfl)

namespace Cursor

variable {position : Position} {rest : List Char}

@[simp] theorem skip_one (ch : Char) (rest : List Char) (position : Position) :
    skip 1 ⟨ch :: rest, position⟩ = ⟨rest, position.after ch⟩ := rfl

/-- A span takes what fits up to the first character that does not. -/
theorem span_append {p : Char → Bool} {taken : List Char} (htaken : ∀ ch ∈ taken, p ch)
    (hrest : ∀ ch ∈ rest.head?, p ch = false) :
    span p ⟨taken ++ rest, position⟩ = (taken, ⟨rest, position.afterAll taken⟩) := by
  simp only [span, Decimal.takeWhile_append_stop htaken hrest, List.drop_left]

/-- Compact text has no blanks to be skipped. -/
theorem skipBlank_of_head (hhead : ∀ ch ∈ rest.head?, isBlank ch = false) :
    skipBlank ⟨rest, position⟩ = ⟨rest, position⟩ := by
  have hspan : span isBlank ⟨[] ++ rest, position⟩ = ([], ⟨rest, position⟩) :=
    span_append (fun ch hmem => by cases hmem) hhead
  rw [skipBlank]
  exact congrArg Prod.snd hspan

theorem skipBlank_cons {ch : Char} (hblank : isBlank ch = false) :
    skipBlank ⟨ch :: rest, position⟩ = ⟨ch :: rest, position⟩ :=
  skipBlank_of_head fun ch' hmem => by cases hmem; exact hblank

end Cursor

/-- The letters of a name after its first one are taken. -/
theorem ident_append (letters rest : List Char) (position : Position) :
    ∃ position', ident letters ⟨letters ++ rest, position⟩ = .ok ⟨rest, position'⟩ := by
  induction letters generalizing position with
  | nil => exact ⟨position, rfl⟩
  | cons letter letters ih =>
      obtain ⟨position', htail⟩ := ih (position.after letter)
      refine ⟨position', ?_⟩
      simp only [List.cons_append, ident, if_true]
      exact htail

/-! ### Strings -/

theorem hexDigits_small : ∀ n : Fin 32,
    let digits := ['0', '0', hexDigit (n.val / 16), hexDigit n.val]
    (String.ofList digits).utf8ByteSize = 4 ∧
      digits.mapM hexValue? = some [0, 0, n.val / 16, n.val % 16] := by
  decide +kernel

theorem hexUnit_small {n : Nat} (hsmall : n < 32) (rest : List Char) (position : Position) :
    ∃ position', hexUnit ⟨'0' :: '0' :: hexDigit (n / 16) :: hexDigit n :: rest, position⟩ =
      .ok (n, ⟨rest, position'⟩) := by
  obtain ⟨hsize, hdigits⟩ := hexDigits_small ⟨n, hsmall⟩
  have hvalue : [0, 0, n / 16, n % 16].foldl (fun m d => 16 * m + d) 0 = n := by
    simp only [List.foldl_cons, List.foldl_nil]
    omega
  simp only [hexUnit, List.take_succ_cons, List.take_zero, hsize, hdigits, hvalue]
  exact ⟨_, rfl⟩

/-- The escape of a control character is read as this character. -/
theorem unicodeEscape_small {c : Char} (hsmall : c.toNat < 32) (rest : List Char)
    (position : Position) :
    ∃ position', unicodeEscape
        ⟨'0' :: '0' :: hexDigit (c.toNat / 16) :: hexDigit c.toNat :: rest, position⟩ =
      .ok (c, ⟨rest, position'⟩) := by
  obtain ⟨position', hunit⟩ := hexUnit_small hsmall rest position
  refine ⟨position', ?_⟩
  have hlow : ¬ (0xDC00 ≤ c.toNat ∧ c.toNat ≤ 0xDFFF) := by omega
  have hplain : c.toNat < 0xD800 ∨ 0xDBFF < c.toNat := by omega
  unfold unicodeEscape
  rw [hunit]
  simp only [bind, Except.bind, hlow, if_false, hplain, if_true, Char.ofNat_toNat]
  rfl

/-- A character is written behind a backslash, in letters that stand for it, or as it is. -/
theorem escape_cases (c : Char) :
    (∃ letters, escape c = '\\' :: letters ∧ ∀ rest position, ∃ position',
        escaped ⟨letters ++ rest, position⟩ = .ok (c, ⟨rest, position'⟩)) ∨
      (escape c = [c] ∧ c ≠ '"' ∧ c ≠ '\\' ∧ ¬ c.toNat < 32) := by
  unfold escape
  split
  · exact .inl ⟨_, rfl, fun rest position => ⟨_, rfl⟩⟩
  · exact .inl ⟨_, rfl, fun rest position => ⟨_, rfl⟩⟩
  · exact .inl ⟨_, rfl, fun rest position => ⟨_, rfl⟩⟩
  · exact .inl ⟨_, rfl, fun rest position => ⟨_, rfl⟩⟩
  · exact .inl ⟨_, rfl, fun rest position => ⟨_, rfl⟩⟩
  · exact .inl ⟨_, rfl, fun rest position => ⟨_, rfl⟩⟩
  · exact .inl ⟨_, rfl, fun rest position => ⟨_, rfl⟩⟩
  next hquote hslash _ _ _ _ _ =>
    split
    next hsmall =>
      refine .inl ⟨_, rfl, fun rest position => ?_⟩
      exact unicodeEscape_small hsmall rest (position.after 'u')
    next hlarge => exact .inr ⟨rfl, hquote, hslash, hlarge⟩

section Body

variable {c : Char} {rest rest' body : List Char} {fuel : Nat}
  (hrest : ∀ position, ∃ position',
    stringBody fuel ⟨rest, position⟩ = .ok (body, ⟨rest', position'⟩))

include hrest

/-- After a backslash an escape is read as its character, and the rest of the string after it. -/
theorem stringBody_escaped {letters : List Char}
    (hescaped : ∀ position, ∃ position', escaped ⟨letters, position⟩ = .ok (c, ⟨rest, position'⟩))
    (position : Position) :
    ∃ position', stringBody (fuel + 1) ⟨'\\' :: letters, position⟩ =
      .ok (c :: body, ⟨rest', position'⟩) := by
  obtain ⟨position₁, hescaped⟩ := hescaped (position.after '\\')
  obtain ⟨position₂, hbody⟩ := hrest position₁
  refine ⟨position₂, ?_⟩
  rw [stringBody]
  simp only [Cursor.skip_one, hescaped, bind, Except.bind, hbody]
  rfl

theorem stringBody_plain (hquote : c ≠ '"') (hslash : c ≠ '\\') (hlarge : ¬ c.toNat < 32)
    (position : Position) :
    ∃ position', stringBody (fuel + 1) ⟨c :: rest, position⟩ =
      .ok (c :: body, ⟨rest', position'⟩) := by
  obtain ⟨position', hbody⟩ := hrest (position.after c)
  refine ⟨position', ?_⟩
  rw [stringBody]
  split
  next heq => cases heq
  next heq => cases heq; exact (hquote rfl).elim
  next heq => cases heq; exact (hslash rfl).elim
  next heq =>
    cases heq
    rw [if_neg hlarge]
    simp only [bind, Except.bind, Cursor.skip_one, hbody]
    rfl

/-- What a character is written as is read back as the character. -/
theorem stringBody_escape (c : Char) (position : Position) :
    ∃ position',
      stringBody (fuel + 1) ⟨escape c ++ rest, position⟩ = .ok (c :: body, ⟨rest', position'⟩) := by
  rcases escape_cases c with ⟨letters, hescape, hescaped⟩ | ⟨hescape, hquote, hslash, hlarge⟩
  · rw [hescape, List.cons_append]
    exact stringBody_escaped hrest (hescaped rest) position
  · rw [hescape, List.singleton_append]
    exact stringBody_plain hrest hquote hslash hlarge position

end Body

theorem escape_ne_nil (c : Char) : escape c ≠ [] := by
  rcases escape_cases c with ⟨letters, hescape, _⟩ | ⟨hescape, _⟩
  · rw [hescape]
    exact List.cons_ne_nil _ _
  · rw [hescape]
    exact List.cons_ne_nil _ _

theorem length_le_flatMap_escape (cs : List Char) : cs.length ≤ (cs.flatMap escape).length := by
  induction cs with
  | nil => exact Nat.le_refl 0
  | cons c cs ih =>
      have hpos := List.length_pos_iff.mpr (escape_ne_nil c)
      rw [List.flatMap_cons, List.length_append, List.length_cons]
      omega

/-- A string is read back, whatever characters it has and whatever follows it. -/
theorem string_quoted (cs rest : List Char) (position : Position) :
    ∃ position', string ⟨cs.flatMap escape ++ '"' :: rest, position⟩ =
      .ok (cs, ⟨rest, position'⟩) := by
  have hbody (fuel : Nat) (hfuel : cs.length < fuel) (position : Position) :
      ∃ position', stringBody fuel ⟨cs.flatMap escape ++ '"' :: rest, position⟩ =
        .ok (cs, ⟨rest, position'⟩) := by
    induction cs generalizing fuel position with
    | nil =>
        obtain ⟨fuel, rfl⟩ := Nat.exists_eq_add_one.mpr hfuel
        exact ⟨_, rfl⟩
    | cons c cs ih =>
        obtain ⟨fuel, rfl⟩ := Nat.exists_eq_add_one.mpr (Nat.zero_lt_of_lt hfuel)
        rw [List.length_cons, Nat.succ_lt_succ_iff] at hfuel
        rw [List.flatMap_cons, List.append_assoc]
        exact stringBody_escape (fun position => ih fuel hfuel position) c position
  refine hbody _ ?_ position
  have hescaped := length_le_flatMap_escape cs
  simp only [List.length_append, List.length_cons]
  omega

/-! ### Numbers -/

theorem le_foldl_digits (start : Nat) (ds : List Char) :
    start ≤ ds.foldl (fun n ch => 10 * n + Decimal.digitValue ch) start := by
  induction ds generalizing start with
  | nil => exact Nat.le_refl start
  | cons ch ds ih =>
      have hnext := ih (10 * start + Decimal.digitValue ch)
      rw [List.foldl_cons]
      omega

/-- Of a number that fits 64 bits no digit is left over. -/
theorem significand_eq {ds : List Char} {start : Nat}
    (hfits : ds.foldl (fun n ch => 10 * n + Decimal.digitValue ch) start < 0x10000000000000000) :
    significand start ds =
      (ds.foldl (fun n ch => 10 * n + Decimal.digitValue ch) start, 0) := by
  induction ds generalizing start with
  | nil => rfl
  | cons ch ds ih =>
      have hnext :=
        Nat.lt_of_le_of_lt (le_foldl_digits (10 * start + Decimal.digitValue ch) ds) hfits
      rw [significand]
      simp only [hnext, if_true]
      exact ih hfits

/-- A numeral that fits into 64 bits is read without losing digits. -/
theorem significand_numeral {n : Nat} (hfits : n < 0x10000000000000000) :
    significand 0 (Decimal.numeral n) = (n, 0) := by
  have hvalue := Decimal.value_numeral n
  rw [Decimal.value] at hvalue
  rw [significand_eq (hvalue.symm ▸ hfits), hvalue]

/-- Only the numeral of zero begins with a zero. -/
theorem eq_nil_of_numeral {n : Nat} {more : List Char} (hzero : Decimal.numeral n = '0' :: more) :
    more = [] := by
  induction n using Decimal.numeral.induct generalizing more with
  | case1 n small =>
      rw [Decimal.numeral, dif_pos small] at hzero
      exact (List.cons.inj hzero).2.symm
  | case2 n large ih =>
      rw [Decimal.numeral, dif_neg large] at hzero
      cases hfront : Decimal.numeral (n / 10) with
      | nil => exact (Decimal.numeral_ne_nil _ hfront).elim
      | cons ch front =>
          rw [hfront, List.cons_append, List.cons.injEq] at hzero
          obtain ⟨rfl, _⟩ := hzero
          -- the front would be the numeral of zero
          rw [ih hfront] at hfront
          have hvalue := Decimal.value_numeral (n / 10)
          rw [hfront] at hvalue
          change 0 = n / 10 at hvalue
          omega

theorem Closes.not_isDigit {rest : List Char} (hcloses : Closes rest) :
    ∀ ch ∈ rest.head?, ch.isDigit = false := by
  intro ch hmem
  rcases hcloses ch hmem with rfl | rfl | rfl <;> rfl

/-- A numeral begins with a digit, with a zero only if no digit follows, and ends where the digits
do. -/
theorem numeral_spec (n : Nat) {rest : List Char} (hcloses : Closes rest) (position : Position) :
    ∃ ch more, Decimal.numeral n = ch :: more ∧ ch.isDigit ∧
      (ch = '0' && ((more ++ rest).head?.map Char.isDigit).getD false) = false ∧
      Cursor.span Char.isDigit ⟨ch :: (more ++ rest), position⟩ =
        (Decimal.numeral n, ⟨rest, position.afterAll (Decimal.numeral n)⟩) := by
  have hspan : Cursor.span Char.isDigit ⟨Decimal.numeral n ++ rest, position⟩ =
      (Decimal.numeral n, ⟨rest, position.afterAll (Decimal.numeral n)⟩) :=
    Cursor.span_append (fun ch hmem => Decimal.isDigit_of_mem_numeral hmem) hcloses.not_isDigit
  cases hnumeral : Decimal.numeral n with
  | nil => exact (Decimal.numeral_ne_nil n hnumeral).elim
  | cons ch more =>
      rw [hnumeral] at hspan
      refine ⟨ch, more, rfl, ?_, ?_, hspan⟩
      · exact Decimal.isDigit_of_mem_numeral (n := n) (hnumeral ▸ List.mem_cons_self)
      · by_cases hzero : ch = '0'
        · subst hzero
          rw [eq_nil_of_numeral hnumeral, List.nil_append]
          cases hhead : rest.head? with
          | none => rfl
          | some ch' => simp [hcloses.not_isDigit ch' hhead]
        · simp [hzero]

/-- A numeral that fits 64 bits is taken whole, as an integer if the sign leaves room for it. -/
theorem numberFrom_numeral (negative : Bool) {n : Nat} (hfits : n < 0x10000000000000000)
    {rest : List Char} (hcloses : Closes rest) (position : Position) :
    let after : Cursor := ⟨rest, position.afterAll (Decimal.numeral n)⟩
    numberFrom negative ⟨Decimal.numeral n ++ rest, position⟩ =
      if !negative then .ok (.integer n, after)
      else if n = 0 ∨ 0x8000000000000000 < n then .ok (.float (-n.toUInt64.toFloat), after)
      else .ok (.integer (-n), after) := by
  intro after
  obtain ⟨ch, more, hnumeral, hdigit, hnext, hspan⟩ := numeral_spec n hcloses position
  rw [hnumeral, List.cons_append]
  simp only [numberFrom, hdigit, hnext, hspan, Bool.not_true, Bool.false_eq_true, if_false]
  rw [significand_numeral hfits]
  -- behind the digits nothing goes on with the number
  have hends (ch' : Char) (more' : List Char) (heq : rest = ch' :: more') :
      ch' ≠ '.' ∧ ch' ≠ 'e' ∧ ch' ≠ 'E' := by
    rcases hcloses ch' (by rw [heq]; rfl) with rfl | rfl | rfl <;> decide
  split
  next more' => exact ((hends '.' more' rfl).1 rfl).elim
  next more' => exact ((hends 'e' more' rfl).2.1 rfl).elim
  next more' => exact ((hends 'E' more' rfl).2.2 rfl).elim
  next => simp only [after, hnumeral, ne_eq, not_true_eq_false, if_false]

theorem isBlank_of_isDigit {ch : Char} (hdigit : ch.isDigit) : Cursor.isBlank ch = false := by
  rw [← Bool.not_eq_true]
  intro hblank
  simp only [Cursor.isBlank, Bool.or_eq_true, beq_iff_eq] at hblank
  rcases hblank with ((rfl | rfl) | rfl) | rfl <;> cases hdigit

/-- An integer that fits 64 bits, with or without a sign, is read as any type that accepts it. -/
theorem reads_numberAs {α : Type} (expected : String) {accepted : Number → Option α} {n : Int}
    {a : α} (haccepts : accepted (.integer n) = some a) (hlow : -0x8000000000000000 ≤ n)
    (hhigh : n < 0x10000000000000000) :
    Reads (numberAs expected accepted) (Decimal.signed n) a := by
  intro rest position hcloses
  cases n with
  | ofNat n =>
      change (n : Int) < 0x10000000000000000 at hhigh
      have hnumber := numberFrom_numeral false (n := n) (by omega) hcloses position
      refine ⟨position.afterAll (Decimal.numeral n), ?_⟩
      obtain ⟨ch, more, hnumeral, hdigit, _⟩ := numeral_spec n hcloses position
      rw [Decimal.signed]
      rw [hnumeral, List.cons_append] at hnumber ⊢
      simp only [numberAs, Cursor.skipBlank_cons (isBlank_of_isDigit hdigit)]
      split
      next heq => cases heq; cases hdigit
      next heq =>
        cases heq
        rw [if_pos hdigit, hnumber]
        simp only [bind, Except.bind, Bool.not_false, if_true]
        rw [show Number.integer (n : Int) = .integer (.ofNat n) from rfl, haccepts]
        rfl
      next heq => cases heq
  | negSucc n =>
      have hnumber := numberFrom_numeral true (n := n + 1) (by omega) hcloses (position.after '-')
      have hroom : ¬ (n + 1 = 0 ∨ 0x8000000000000000 < n + 1) := by omega
      simp only [Bool.not_true, Bool.false_eq_true, if_false, hroom] at hnumber
      refine ⟨(position.after '-').afterAll (Decimal.numeral (n + 1)), ?_⟩
      simp only [Decimal.signed, List.cons_append, numberAs]
      rw [Cursor.skipBlank_cons rfl]
      simp only [Cursor.skip_one, hnumber, bind, Except.bind]
      rw [show -((n + 1 : Nat) : Int) = .negSucc n from rfl, haccepts]
      rfl

/-- The number of a value is in the range of its type. -/
theorem IntegerType.ofInt?_val (t : IntegerType) (v : t.Val) : t.ofInt? v.1 = some v :=
  dif_pos v.2

/-- Where any number of digits may be, a numeral of any length is taken whole. -/
theorem wideDigits_numeral (t : IntegerType) (negative : Bool) (n : Nat) {rest : List Char}
    (hcloses : Closes rest) (position : Position) {v : t.Val}
    (hvalue : (if negative then -(n : Int) else n) = v.1) :
    ∃ position', wideDigits t negative ⟨Decimal.numeral n ++ rest, position⟩ =
      .ok (v, ⟨rest, position'⟩) := by
  refine ⟨position.afterAll (Decimal.numeral n), ?_⟩
  obtain ⟨ch, more, hnumeral, hdigit, hnext, hspan⟩ := numeral_spec n hcloses position
  rw [hnumeral, List.cons_append]
  simp only [wideDigits, hdigit, hnext, hspan, Bool.not_true, Bool.false_eq_true, if_false,
    Decimal.value_numeral, hvalue, t.ofInt?_val v]
  rw [hnumeral]

theorem reads_wideInteger (t : IntegerType) (v : t.Val) :
    Reads (wideInteger t) (Decimal.signed v.1) v := by
  intro rest position hcloses
  obtain ⟨n, hbounds⟩ := v
  cases n with
  | ofNat n =>
      obtain ⟨position', hdigits⟩ := wideDigits_numeral t false n hcloses position
        (v := ⟨.ofNat n, hbounds⟩) rfl
      refine ⟨position', ?_⟩
      obtain ⟨ch, more, hnumeral, hdigit, _⟩ := numeral_spec n hcloses position
      rw [Decimal.signed]
      rw [hnumeral, List.cons_append] at hdigits ⊢
      simp only [wideInteger, Cursor.skipBlank_cons (isBlank_of_isDigit hdigit)]
      split
      next heq => cases heq
      next heq => cases heq; cases hdigit
      next => exact hdigits
  | negSucc n =>
      obtain ⟨position', hdigits⟩ := wideDigits_numeral t true (n + 1) hcloses (position.after '-')
        (v := ⟨.negSucc n, hbounds⟩) rfl
      refine ⟨position', ?_⟩
      have hlow : t.low ≠ 0 := by omega
      simp only [Decimal.signed, List.cons_append, wideInteger]
      rw [Cursor.skipBlank_cons rfl]
      simp only [hlow, if_false, Cursor.skip_one]
      exact hdigits

/-! ### Strings and truth values as values of their types -/

/-- A string is read as it was written, whatever characters it has. -/
theorem reads_stringAs (expected : String) (v : String) :
    Reads (stringAs expected) (quoted v.toList) v := by
  intro rest position _
  obtain ⟨position', hstring⟩ := string_quoted v.toList rest (position.after '"')
  refine ⟨position', ?_⟩
  simp only [quoted, List.cons_append, List.append_assoc, List.nil_append, stringAs]
  rw [Cursor.skipBlank_cons rfl]
  simp only [Cursor.skip_one, hstring, bind, Except.bind, String.ofList_toList]
  rfl

theorem reads_boolean (v : Bool) : Reads boolean (chars (.bool v)) v := by
  intro rest position _
  cases v with
  | true =>
      obtain ⟨position', hident⟩ := ident_append ['r', 'u', 'e'] rest (position.after 't')
      refine ⟨position', ?_⟩
      change boolean ⟨'t' :: (['r', 'u', 'e'] ++ rest), position⟩ = _
      rw [boolean, Cursor.skipBlank_cons rfl]
      simp only [Cursor.skip_one, hident, bind, Except.bind]
      rfl
  | false =>
      obtain ⟨position', hident⟩ := ident_append ['a', 'l', 's', 'e'] rest (position.after 'f')
      refine ⟨position', ?_⟩
      change boolean ⟨'f' :: (['a', 'l', 's', 'e'] ++ rest), position⟩ = _
      rw [boolean, Cursor.skipBlank_cons rfl]
      simp only [Cursor.skip_one, hident, bind, Except.bind]
      rfl

end Outbox.Json
