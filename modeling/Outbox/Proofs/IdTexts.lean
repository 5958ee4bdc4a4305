import Outbox.Ulid.Basic
import Mathlib.Algebra.Group.Nat.Defs

/-! # Ids as texts

The digits of a ULID stand for its number, and 26 of them are enough for all of it. So its text is
read back as the same ULID, and different ids have different texts.
-/

namespace Outbox

namespace Ulid

theorem symbolValue?_symbol (n : Nat) : symbolValue? (symbol n) = some (n % 32) := by
  have hdigits : ∀ k : Fin 32, symbolValue? (alphabet.getD k '0') = some k := by decide +kernel
  exact hdigits ⟨n % 32, Nat.mod_lt _ (by decide)⟩

theorem utf8Size_symbol (n : Nat) : (symbol n).utf8Size = 1 := by
  have hdigits : ∀ k : Fin 32, (alphabet.getD k '0').utf8Size = 1 := by decide +kernel
  exact hdigits ⟨n % 32, Nat.mod_lt _ (by decide)⟩

theorem utf8ByteSize_symbols (places n : Nat) :
    (String.ofList (symbols places n)).utf8ByteSize = places := by
  induction places generalizing n with
  | zero => rfl
  | succ places ih =>
      rw [symbols, String.ofList_append, String.utf8ByteSize_append, ih, String.ofList_cons,
        String.utf8ByteSize_append, String.utf8ByteSize_singleton, utf8Size_symbol]
      rfl

/-- Digits stand for the last places of the number that they were taken from. -/
theorem symbolsValue?_symbols (places n : Nat) :
    symbolsValue? (symbols places n) = some (n % 32 ^ places) := by
  induction places generalizing n with
  | zero => simp [symbols, symbolsValue?, Nat.mod_one]
  | succ places ih =>
      have hhead : (symbols places (n / 32)).foldlM
          (fun n c => (symbolValue? c).map (32 * n + ·)) 0 = some (n / 32 % 32 ^ places) := ih _
      rw [symbols, symbolsValue?, List.foldlM_append, hhead]
      simp only [Option.bind_eq_bind, Option.bind_some, List.foldlM_cons, List.foldlM_nil,
        symbolValue?_symbol, Option.map_some, Option.pure_def]
      rw [Nat.pow_succ', Nat.mod_mul, Nat.add_comm]

/-- A ULID is read back from its text. -/
theorem ofText_toText (u : Ulid) : ofText u.toText = .ok u := by
  have hsize : u.toText.utf8ByteSize = 26 := utf8ByteSize_symbols 26 u.value
  have hvalue : symbolsValue? u.toText.toList = some (u.value % 32 ^ 26) := by
    rw [toText, String.toList_ofList]
    exact symbolsValue?_symbols 26 u.value
  have hless := u.isLt
  rw [ofText, if_neg (not_not_intro hsize), hvalue]
  refine congrArg Except.ok (value_inj.mp ?_)
  change u.value % 32 ^ 26 % 0x100000000000000000000000000000000 = u.value
  omega

theorem toText_inj {a b : Ulid} : a.toText = b.toText ↔ a = b := by
  refine ⟨fun htext => ?_, congrArg toText⟩
  have hread : (Except.ok a : Except ReadError Ulid) = .ok b := by
    rw [← ofText_toText a, ← ofText_toText b, htext]
  exact Except.ok.inj hread

end Ulid

/-- The text of an id is read as this id. -/
theorem MessageId.ofText_toText (id : MessageId) : ofText id.toText = .ok id := by
  rw [ofText, toText, Ulid.ofText_toText]
  rfl

theorem MessageId.toText_inj {a b : MessageId} : a.toText = b.toText ↔ a = b := by
  refine Ulid.toText_inj.trans ⟨fun hulid => ?_, congrArg ulid⟩
  cases a
  cases b
  cases hulid
  rfl

theorem ClaimToken.ofText_toText (claim : ClaimToken) : ofText claim.toText = .ok claim := by
  rw [ofText, toText, Ulid.ofText_toText]
  rfl

theorem ClaimToken.toText_inj {a b : ClaimToken} : a.toText = b.toText ↔ a = b := by
  refine Ulid.toText_inj.trans ⟨fun hulid => ?_, congrArg ulid⟩
  cases a
  cases b
  cases hulid
  rfl

end Outbox
