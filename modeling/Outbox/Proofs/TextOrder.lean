import Outbox.Proofs.Claiming
import Outbox.Proofs.IdTexts
import Mathlib.Data.List.Induction

/-! # The order of ids and of their texts

Every digit is one byte, and the bytes of the digits are in the order of their values. So of two
texts the one that comes first, compared byte by byte, is that of the lesser id, and it makes no
difference whether messages are sorted by their ids or by the texts of these. A text that is read is
the text of the id it is read as, but for the case of its letters, unless it stands for a number of
more than 128 bits. That can be seen from its first digit.
-/

namespace Outbox

/-- The bytes that a text is stored as. -/
def Text.bytes (text : String) : List UInt8 := text.toUTF8.data.toList

namespace Text

theorem bytes_ofList (cs : List Char) :
    bytes (String.ofList cs) = cs.flatMap String.utf8EncodeChar := by
  simp [bytes, List.utf8Encode]

theorem bytes_inj {a b : String} : bytes a = bytes b ↔ a = b := by
  constructor
  · intro heq
    exact String.toByteArray_inj.mp (ByteArray.ext (Array.toList_inj.mp heq))
  · exact congrArg bytes

/-- Rows of bytes of the same length that end with one more byte each. -/
theorem concat_lt_concat_iff {xs ys : List UInt8} (hlength : xs.length = ys.length) (x y : UInt8) :
    xs ++ [x] < ys ++ [y] ↔ xs < ys ∨ xs = ys ∧ x < y := by
  induction xs generalizing ys with
  | nil =>
      rw [List.length_nil, eq_comm, List.length_eq_zero_iff] at hlength
      subst hlength
      simp [List.cons_lt_cons_iff]
  | cons a xs ih =>
      cases ys with
      | nil => cases hlength
      | cons b ys =>
          rw [List.cons_append, List.cons_append, List.cons_lt_cons_iff, List.cons_lt_cons_iff,
            ih (Nat.succ.inj hlength), List.cons_eq_cons]
          tauto

end Text

namespace Ulid

/-! ### Digits -/

theorem symbol_mod (n : Nat) : symbol (n % 32) = symbol n := by
  rw [symbol, symbol, Nat.mod_mod]

@[simp] theorem length_symbols (places n : Nat) : (symbols places n).length = places := by
  induction places generalizing n with
  | zero => rfl
  | succ places ih => rw [symbols, List.length_append, ih, List.length_singleton]

/-- Digits are the same just if the numbers agree in the last places. -/
theorem symbols_inj {places m n : Nat} :
    symbols places m = symbols places n ↔ m % 32 ^ places = n % 32 ^ places := by
  constructor
  · intro heq
    have hvalue := symbolsValue?_symbols places m
    rw [heq, symbolsValue?_symbols] at hvalue
    exact (Option.some.inj hvalue).symm
  · intro heq
    induction places generalizing m n with
    | zero => rfl
    | succ places ih =>
        rw [Nat.pow_succ', Nat.mod_mul, Nat.mod_mul] at heq
        have hlast : m % 32 = n % 32 := by omega
        have hothers : m / 32 % 32 ^ places = n / 32 % 32 ^ places := by omega
        rw [symbols, symbols, ih hothers, ← symbol_mod m, hlast, symbol_mod]

/-- The first digit is that of the highest place. -/
theorem symbols_succ (places n : Nat) :
    symbols (places + 1) n = symbol (n / 32 ^ places) :: symbols places n := by
  induction places generalizing n with
  | zero => simp [symbols]
  | succ places ih =>
      rw [symbols, ih, symbols, List.cons_append, Nat.div_div_eq_div_mul, Nat.pow_succ']

/-! ### The order of texts -/

/-- The byte of a digit. -/
def symbolByte (n : Nat) : UInt8 := (symbol n).val.toUInt8

/-- Symbols are in the order of what they are written for. -/
theorem symbolByte_lt_iff (m n : Nat) : symbolByte m < symbolByte n ↔ m % 32 < n % 32 := by
  have hdigits : ∀ i j : Fin 32,
      (alphabet.getD i '0').val.toUInt8 < (alphabet.getD j '0').val.toUInt8 ↔ i < j := by
    decide +kernel
  exact hdigits ⟨m % 32, Nat.mod_lt _ (by decide)⟩ ⟨n % 32, Nat.mod_lt _ (by decide)⟩

theorem bytes_symbols_succ (places n : Nat) :
    Text.bytes (String.ofList (symbols (places + 1) n)) =
      Text.bytes (String.ofList (symbols places (n / 32))) ++ [symbolByte n] := by
  rw [Text.bytes_ofList, Text.bytes_ofList, symbols, List.flatMap_append, List.flatMap_singleton,
    String.utf8EncodeChar_eq_singleton (utf8Size_symbol n), symbolByte]

theorem length_bytes_symbols (places n : Nat) :
    (Text.bytes (String.ofList (symbols places n))).length = places := by
  induction places generalizing n with
  | zero => rfl
  | succ places ih => rw [bytes_symbols_succ, List.length_append, ih, List.length_singleton]

/-- Digits are in the order of the numbers that their last places stand for. -/
theorem bytes_symbols_lt_iff (places m n : Nat) :
    Text.bytes (String.ofList (symbols places m)) < Text.bytes (String.ofList (symbols places n)) ↔
      m % 32 ^ places < n % 32 ^ places := by
  induction places generalizing m n with
  | zero => simp [symbols, Nat.mod_one]
  | succ places ih =>
      have hlength : (Text.bytes (String.ofList (symbols places (m / 32)))).length =
          (Text.bytes (String.ofList (symbols places (n / 32)))).length := by
        rw [length_bytes_symbols, length_bytes_symbols]
      rw [bytes_symbols_succ, bytes_symbols_succ, Text.concat_lt_concat_iff hlength, ih,
        Text.bytes_inj, String.ofList_inj, symbols_inj, symbolByte_lt_iff, Nat.pow_succ',
        Nat.mod_mul, Nat.mod_mul]
      omega

/-- Texts of ids are in the order of the ids. -/
theorem bytes_toText_lt_iff {a b : Ulid} : Text.bytes a.toText < Text.bytes b.toText ↔ a < b := by
  have ha := a.isLt
  have hb := b.isLt
  refine (bytes_symbols_lt_iff 26 a.value b.value).trans ?_
  change _ ↔ a.value < b.value
  omega

theorem length_toText (u : Ulid) : u.toText.length = 26 := by
  rw [toText, String.length_ofList]
  exact length_symbols 26 u.value

/-! ### Texts that are read -/

theorem lt_of_symbolValue? {c : Char} {v : Nat} (hvalue : symbolValue? c = some v) : v < 32 :=
  (List.idxOf?_eq_some_iff.mp hvalue).1

/-- What is read as a symbol is one, in upper or lower case. -/
theorem symbol_of_symbolValue? {c : Char} {v : Nat} (hvalue : symbolValue? c = some v) :
    symbol v = c.toUpper := by
  obtain ⟨hless, hfound, _⟩ := List.idxOf?_eq_some_iff.mp hvalue
  have hdigit : v % 32 = v := Nat.mod_eq_of_lt hless
  rw [symbol, hdigit, List.getD_eq_getElem?_getD, List.getElem?_eq_getElem hless, Option.getD_some,
    hfound]

theorem symbolsValue?_concat (cs : List Char) (c : Char) :
    symbolsValue? (cs ++ [c]) =
      (symbolsValue? cs).bind fun n => (symbolValue? c).map (32 * n + ·) := by
  rw [symbolsValue?, List.foldlM_append]
  refine congrArg (Option.bind _) (funext fun n => ?_)
  exact bind_pure _

/-- A row of digits in either case is, in upper case, the one of its number. -/
theorem symbols_of_symbolsValue? {cs : List Char} {n : Nat} (hvalue : symbolsValue? cs = some n) :
    n < 32 ^ cs.length ∧ symbols cs.length n = cs.map Char.toUpper := by
  induction cs using List.reverseRecOn generalizing n with
  | nil =>
      cases hvalue
      exact ⟨by simp, rfl⟩
  | append_singleton cs c ih =>
      rw [symbolsValue?_concat, Option.bind_eq_some_iff] at hvalue
      obtain ⟨k, hk, hvalue⟩ := hvalue
      obtain ⟨v, hv, rfl⟩ := Option.map_eq_some_iff.mp hvalue
      obtain ⟨hless, hsymbols⟩ := ih hk
      have hdigit := lt_of_symbolValue? hv
      have hothers : (32 * k + v) / 32 = k := by omega
      have hlast : (32 * k + v) % 32 = v := by omega
      rw [List.length_append, List.length_singleton, List.map_append, List.map_singleton]
      refine ⟨by rw [Nat.pow_succ']; omega, ?_⟩
      rw [symbols, hothers, hsymbols, ← symbol_mod, hlast, symbol_of_symbolValue? hv]

theorem exists_symbolValue?_of_mem {cs : List Char} {n : Nat} (hvalue : symbolsValue? cs = some n)
    {c : Char} (hmem : c ∈ cs) : ∃ v, symbolValue? c = some v := by
  induction cs using List.reverseRecOn generalizing n with
  | nil => cases hmem
  | append_singleton cs last ih =>
      rw [symbolsValue?_concat, Option.bind_eq_some_iff] at hvalue
      obtain ⟨k, hk, hvalue⟩ := hvalue
      obtain ⟨v, hv, _⟩ := Option.map_eq_some_iff.mp hvalue
      rcases List.mem_append.mp hmem with hin | hlast
      · exact ih hk hin
      · exact ⟨v, List.mem_singleton.mp hlast ▸ hv⟩

/-- Letters are put into upper case, and all else stays as it is. -/
theorem toUpper_cases (c : Char) :
    97 ≤ c.toNat ∧ c.toNat ≤ 122 ∧ c.toUpper.toNat = c.toNat - 32 ∨ c.toUpper = c := by
  delta Char.toUpper
  split
  next hlower =>
    left
    have hlow : 97 ≤ c.toNat := UInt32.le_iff_toNat_le.mp hlower.1
    have hhigh : c.toNat ≤ 122 := UInt32.le_iff_toNat_le.mp hlower.2
    refine ⟨hlow, hhigh, ?_⟩
    have hoffset : ('A'.val - 'a'.val).toNat = 4294967264 := rfl
    simp only [Char.toNat, UInt32.toNat_add] at hlow hhigh ⊢
    omega
  next => exact .inr rfl

theorem utf8Size_of_symbolValue? {c : Char} {v : Nat} (hvalue : symbolValue? c = some v) :
    c.utf8Size = 1 := by
  have hupper := utf8Size_symbol v
  rw [symbol_of_symbolValue? hvalue] at hupper
  rcases toUpper_cases c with ⟨_, hletter, _⟩ | hsame
  · rw [Char.utf8Size_eq_one_iff, UInt32.le_iff_toNat_le]
    exact Nat.le_trans hletter (by decide)
  · rwa [hsame] at hupper

/-- A digit is at most seven just if its value is. -/
theorem le_seven_iff {c : Char} {v : Nat} (hvalue : symbolValue? c = some v) : c ≤ '7' ↔ v ≤ 7 := by
  have hdigits : ∀ k : Fin 32, alphabet.getD k '0' ≤ '7' ↔ k ≤ 7 := by decide +kernel
  have hsymbol : symbol v ≤ '7' ↔ v ≤ 7 := by
    have hless := lt_of_symbolValue? hvalue
    rw [symbol, Nat.mod_eq_of_lt hless]
    exact hdigits ⟨v, hless⟩
  rw [← hsymbol, symbol_of_symbolValue? hvalue]
  rcases toUpper_cases c with ⟨hlow, _, hupper⟩ | hsame
  · -- a letter comes after all numerals, whatever its case
    have hseven : '7'.toNat = 55 := rfl
    simp only [Char.le_def, UInt32.le_iff_toNat_le]
    change c.toNat ≤ '7'.toNat ↔ c.toUpper.toNat ≤ '7'.toNat
    omega
  · rw [hsame]

/-- The highest place of a number is the value of the first of its digits. -/
theorem symbolValue?_of_head {c : Char} {rest : List Char} {n : Nat}
    (hvalue : symbolsValue? (c :: rest) = some n) :
    symbolValue? c = some (n / 32 ^ rest.length) := by
  obtain ⟨hless, hsymbols⟩ := symbols_of_symbolsValue? hvalue
  obtain ⟨v, hv⟩ := exists_symbolValue?_of_mem hvalue List.mem_cons_self
  rw [List.length_cons, symbols_succ, List.map_cons, List.cons_eq_cons] at hsymbols
  rw [List.length_cons, Nat.pow_succ', Nat.mul_comm] at hless
  have hplace : n / 32 ^ rest.length < 32 := Nat.div_lt_of_lt_mul hless
  have hvalues := symbolValue?_symbol v
  rw [symbol_of_symbolValue? hv, ← hsymbols.1, symbolValue?_symbol] at hvalues
  have hsame := Option.some.inj hvalues
  rw [Nat.mod_eq_of_lt hplace, Nat.mod_eq_of_lt (lt_of_symbolValue? hv)] at hsame
  rw [hv, hsame]

theorem utf8ByteSize_of_symbolsValue? {cs : List Char} {n : Nat}
    (hvalue : symbolsValue? cs = some n) : (String.ofList cs).utf8ByteSize = cs.length := by
  have hnarrow : ∀ c ∈ cs, c.utf8Size = 1 := fun c hmem => by
    obtain ⟨v, hv⟩ := exists_symbolValue?_of_mem hvalue hmem
    exact utf8Size_of_symbolValue? hv
  clear hvalue
  induction cs with
  | nil => rfl
  | cons c cs ih =>
      rw [String.ofList_cons, String.utf8ByteSize_append, String.utf8ByteSize_singleton,
        hnarrow c List.mem_cons_self, ih fun d hd => hnarrow d (List.mem_cons_of_mem c hd),
        List.length_cons, Nat.add_comm]

/-- What is read as an id has 26 symbols, and their value is cut to 128 bits. -/
theorem exists_value_of_ofText {text : String} {u : Ulid} (hread : ofText text = .ok u) :
    ∃ n, symbolsValue? text.toList = some n ∧ text.toList.length = 26 ∧ u = ofNat n := by
  unfold ofText at hread
  split at hread
  next => cases hread
  next hsize =>
    split at hread
    next => cases hread
    next n hvalue =>
      cases hread
      have hbytes := utf8ByteSize_of_symbolsValue? hvalue
      rw [String.ofList_toList] at hbytes
      exact ⟨n, hvalue, by omega, rfl⟩

/-- What is read is written as the same digits in upper case, unless the first one is above seven.
-/
theorem toText_eq_toUpper_iff {text : String} {u : Ulid} (hread : ofText text = .ok u) :
    u.toText = text.toUpper ↔ ∃ c, text.toList.head? = some c ∧ c ≤ '7' := by
  obtain ⟨n, hvalue, hlength, rfl⟩ := exists_value_of_ofText hread
  obtain ⟨hless, hsymbols⟩ := symbols_of_symbolsValue? hvalue
  have hupper : text.toUpper = String.ofList (symbols 26 n) := by
    rw [← hlength, hsymbols]
    exact String.map_eq_internal
  have hsame : (ofNat n).toText = text.toUpper ↔ n / 32 ^ 25 ≤ 7 := by
    rw [hupper, toText, String.ofList_inj]
    refine symbols_inj.trans ?_
    rw [hlength] at hless
    simp only [ofNat]
    omega
  cases htext : text.toList with
  | nil => rw [htext] at hlength; cases hlength
  | cons c rest =>
      rw [htext] at hvalue hlength
      have hfirst := symbolValue?_of_head hvalue
      rw [Nat.succ.inj hlength] at hfirst
      rw [hsame, ← le_seven_iff hfirst]
      simp

end Ulid

/-! ### Ids -/

theorem MessageId.bytes_toText_lt_iff {a b : MessageId} :
    Text.bytes a.toText < Text.bytes b.toText ↔ a < b :=
  Ulid.bytes_toText_lt_iff

theorem MessageId.ofText_eq_ok {text : String} {id : MessageId} :
    ofText text = .ok id ↔ Ulid.ofText text = .ok id.ulid := by
  rw [ofText]
  cases Ulid.ofText text with
  | error e => simp [Except.map]
  | ok u =>
      cases id
      simp [Except.map]

theorem ClaimToken.ofText_eq_ok {text : String} {claim : ClaimToken} :
    ofText text = .ok claim ↔ Ulid.ofText text = .ok claim.ulid := by
  rw [ofText]
  cases Ulid.ofText text with
  | error e => simp [Except.map]
  | ok u =>
      cases claim
      simp [Except.map]

/-- Messages are in the order of delivery, where that of the ids is taken from their texts. -/
def Message.textScheduledBefore (a b : Message) : Bool :=
  a.scheduledAt < b.scheduledAt || a.scheduledAt = b.scheduledAt &&
    (a.createdAt < b.createdAt || a.createdAt = b.createdAt &&
      Text.bytes a.id.toText ≤ Text.bytes b.id.toText)

/-- Comparing the texts of the ids instead comes to the same order. -/
theorem Message.textScheduledBefore_eq : textScheduledBefore = scheduledBefore := by
  funext a b
  have hid : Text.bytes a.id.toText ≤ Text.bytes b.id.toText ↔ a.id ≤ b.id := by
    rw [← List.not_lt, MessageId.bytes_toText_lt_iff]
    exact Nat.not_lt
  simp only [textScheduledBefore, scheduledBefore, hid]

/-- The text of an id has 26 digits and is read back as the id. Byte by byte, texts are in the order
of the ids, so that what is fetched can as well be found by sorting by the texts, and lists come out
sorted alike. A text that is read as an id is, in upper case, the text of that id just if its first
digit is at most seven. -/
theorem id_texts_are_faithful :
    (∀ id : MessageId, id.toText.length = 26 ∧ MessageId.ofText id.toText = .ok id) ∧
    (∀ claim : ClaimToken, claim.toText.length = 26 ∧
      ClaimToken.ofText claim.toText = .ok claim) ∧
    (∀ a b : MessageId, a < b ↔ Text.bytes a.toText < Text.bytes b.toText) ∧
    (∀ a b : ClaimToken, a.ulid < b.ulid ↔ Text.bytes a.toText < Text.bytes b.toText) ∧
    (∀ (t : Table) (claim : ClaimToken) (limit : Nat) (now : Instant) (lease : Duration),
      (t.fetch claim limit now lease).1 = (((t.rows.filter (·.isClaimable now)).map
        Row.message).mergeSort Message.textScheduledBefore).take limit) ∧
    (∀ messages : List Message, messages.mergeSort Message.scheduledBefore =
      messages.mergeSort Message.textScheduledBefore) ∧
    (∀ text id, MessageId.ofText text = .ok id →
      (id.toText = text.toUpper ↔ ∃ c, text.toList.head? = some c ∧ c ≤ '7')) ∧
    (∀ text claim, ClaimToken.ofText text = .ok claim →
      (claim.toText = text.toUpper ↔ ∃ c, text.toList.head? = some c ∧ c ≤ '7')) := by
  refine ⟨fun id => ⟨id.ulid.length_toText, id.ofText_toText⟩,
    fun claim => ⟨claim.ulid.length_toText, claim.ofText_toText⟩,
    fun a b => MessageId.bytes_toText_lt_iff.symm, fun a b => Ulid.bytes_toText_lt_iff.symm,
    fun t claim limit now lease => ?_, fun messages => ?_, fun text id hread => ?_,
    fun text claim hread => ?_⟩
  · rw [Message.textScheduledBefore_eq]
    rfl
  · rw [Message.textScheduledBefore_eq]
  · exact Ulid.toText_eq_toUpper_iff (MessageId.ofText_eq_ok.mp hread)
  · exact Ulid.toText_eq_toUpper_iff (ClaimToken.ofText_eq_ok.mp hread)

/-- Of two texts that are read as the same id, the one whose first digit is above seven is not the
text of it. -/
theorem id_texts_are_faithful_overflow :
    let id : MessageId := ⟨⟨31, by decide⟩⟩
    MessageId.ofText "0000000000000000000000000z" = .ok id ∧
      id.toText = "0000000000000000000000000z".toUpper ∧
      MessageId.ofText "g000000000000000000000000z" = .ok id ∧
      id.toText ≠ "g000000000000000000000000z".toUpper := by
  intro id
  obtain ⟨_, _, _, _, _, _, hread, _⟩ := id_texts_are_faithful
  have hsmall : MessageId.ofText "0000000000000000000000000z" = .ok id := by decide +kernel
  have hlarge : MessageId.ofText "g000000000000000000000000z" = .ok id := by decide +kernel
  refine ⟨hsmall, (hread _ _ hsmall).mpr ⟨'0', by decide +kernel, by decide⟩, hlarge, ?_⟩
  rw [Ne, hread _ _ hlarge]
  rintro ⟨c, hfirst, hseven⟩
  have hg : "g000000000000000000000000z".toList.head? = some 'g' := by decide +kernel
  cases hg.symm.trans hfirst
  exact absurd hseven (by decide)

end Outbox
