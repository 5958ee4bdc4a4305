/-! # Decimal numerals

Natural numbers as digits, most significant first: in full, or cut to a fixed number of places.
Reading either of them back gives the number, in the second case up to the places kept.
-/

namespace Outbox.Decimal

/-- The digit of a number below ten. -/
def digit (n : Nat) : Char := Char.ofNat (48 + n % 10)

def digitValue (c : Char) : Nat := c.toNat - 48

/-- The number that a row of digits stands for. -/
def value (digits : List Char) : Nat := digits.foldl (fun n c => 10 * n + digitValue c) 0

/-- All digits of a number, without leading zeros. -/
def numeral (n : Nat) : List Char :=
  if _small : n < 10 then [digit n] else numeral (n / 10) ++ [digit n]
termination_by n

/-- The last `places` digits of a number, leading zeros kept. -/
def padded : Nat → Nat → List Char
  | 0, _ => []
  | places + 1, n => padded places (n / 10) ++ [digit n]

/-- A number with leading zeros up to a least number of digits. -/
def atLeast (places n : Nat) : List Char :=
  if n < Nat.pow 10 places then padded places n else numeral n

def signed (i : Int) : List Char :=
  match i with
  | .ofNat n => numeral n
  | .negSucc n => '-' :: numeral (n + 1)

private theorem digitValue_ofNat : ∀ d : Fin 10, digitValue (Char.ofNat (48 + d.val)) = d.val := by
  decide

private theorem isDigit_ofNat : ∀ d : Fin 10, (Char.ofNat (48 + d.val)).isDigit = true := by
  decide

@[simp] theorem digitValue_digit (n : Nat) : digitValue (digit n) = n % 10 :=
  digitValue_ofNat ⟨n % 10, Nat.mod_lt _ (by decide)⟩

@[simp] theorem isDigit_digit (n : Nat) : (digit n).isDigit = true :=
  isDigit_ofNat ⟨n % 10, Nat.mod_lt _ (by decide)⟩

theorem value_append_digit (digits : List Char) (n : Nat) :
    value (digits ++ [digit n]) = 10 * value digits + n % 10 := by
  simp [value, List.foldl_append]

/-- A numeral has the value that it is written for. -/
theorem value_numeral (n : Nat) : value (numeral n) = n := by
  induction n using numeral.induct with
  | case1 n small => rw [numeral, dif_pos small]; simp [value]; omega
  | case2 n large ih => rw [numeral, dif_neg large, value_append_digit, ih]; omega

/-- Of a number that is too long for its places the last digits are written. -/
theorem value_padded (places n : Nat) : value (padded places n) = n % Nat.pow 10 places := by
  induction places generalizing n with
  | zero => simp [padded, value, Nat.mod_one]
  | succ places ih =>
      have hpow : Nat.pow 10 (places + 1) = 10 * Nat.pow 10 places := Nat.mul_comm _ _
      rw [padded, value_append_digit, ih, hpow, Nat.mod_mul, Nat.add_comm]

theorem isDigit_of_mem_numeral {n : Nat} {c : Char} (hmem : c ∈ numeral n) : c.isDigit = true := by
  induction n using numeral.induct with
  | case1 n small =>
      rw [numeral, dif_pos small] at hmem
      rw [List.mem_singleton.mp hmem]; exact isDigit_digit n
  | case2 n large ih =>
      rw [numeral, dif_neg large] at hmem
      rcases List.mem_append.mp hmem with hfront | hlast
      · exact ih hfront
      · rw [List.mem_singleton.mp hlast]; exact isDigit_digit n

theorem isDigit_of_mem_padded {places n : Nat} {c : Char} (hmem : c ∈ padded places n) :
    c.isDigit = true := by
  induction places generalizing n with
  | zero => simp [padded] at hmem
  | succ places ih =>
      rcases List.mem_append.mp hmem with hfront | hlast
      · exact ih hfront
      · rw [List.mem_singleton.mp hlast]; exact isDigit_digit n

@[simp] theorem length_padded (places n : Nat) : (padded places n).length = places := by
  induction places generalizing n with
  | zero => rfl
  | succ places ih => simp [padded, ih]

theorem numeral_ne_nil (n : Nat) : numeral n ≠ [] := by
  unfold numeral
  split <;> simp

end Outbox.Decimal
