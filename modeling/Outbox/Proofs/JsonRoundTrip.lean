import Outbox.Proofs.JsonScalars

/-! # Lists, options and records that are read back

The loops over items and members do not know what they loop over. So what they make of compact text
is said for any reader that takes its own texts back, and the types put together follow from their
parts. At the end stand the plain types, all values of which survive being written.
-/

namespace Outbox.Json

/-- Compact texts behind one another begin with the first of them. -/
theorem commaSeparated_cons (first : List Char) (texts : List (List Char)) :
    commaSeparated (first :: texts) = first ++ texts.flatMap (',' :: ·) := by
  induction texts generalizing first with
  | nil => exact (List.append_nil first).symm
  | cons text texts ih =>
      rw [commaSeparated, ih text, List.flatMap_cons, List.cons_append]
      exact List.cons_ne_nil _ _

/-- The texts behind a value begin with a comma, and without any it ends where they all do. -/
theorem closes_commas (texts : List (List Char)) {rest : List Char} (hcloses : Closes rest) :
    Closes (texts.flatMap (',' :: ·) ++ rest) := by
  cases texts with
  | nil => exact hcloses
  | cons text texts => exact closes_comma _

/-- What the text of a value begins with. If the value is not `nullable` it is told from `null` by
this. -/
def Opens (nullable : Bool) (text : List Char) : Prop :=
  ∃ ch more, text = ch :: more ∧ Cursor.isBlank ch = false ∧ ch ≠ ']' ∧ (ch = 'n' → nullable)

theorem Opens.nullable {nullable : Bool} {text : List Char} (hopens : Opens nullable text) :
    Opens true text := by
  obtain ⟨ch, more, htext, hblank, hbracket, _⟩ := hopens
  exact ⟨ch, more, htext, hblank, hbracket, fun _ => rfl⟩

theorem opens_signed (n : Int) : Opens false (Decimal.signed n) := by
  cases n with
  | ofNat n =>
      obtain ⟨ch, more, hnumeral, hdigit, _⟩ := numeral_spec n closes_nil .start
      refine ⟨ch, more, hnumeral, isBlank_of_isDigit hdigit, ?_, ?_⟩
      · rintro rfl
        cases hdigit
      · rintro rfl
        cases hdigit
  | negSucc n => exact ⟨'-', Decimal.numeral (n + 1), rfl, rfl, by decide, by decide⟩

/-! ### Lists -/

section Lists

variable {α : Type} {item : Reader α} {write : α → List Char} {nullable : Bool}

theorem nextItem_first {text rest : List Char} (hopens : Opens nullable text)
    (position : Position) :
    nextItem true ⟨text ++ rest, position⟩ = .ok (true, ⟨text ++ rest, position⟩) := by
  obtain ⟨ch, more, rfl, hblank, hbracket, _⟩ := hopens
  rw [nextItem, List.cons_append, Cursor.skipBlank_cons hblank]
  split
  next heq => cases heq
  next heq => cases heq; exact (hbracket rfl).elim
  next => rfl

theorem nextItem_later {text rest : List Char} (hopens : Opens nullable text)
    (position : Position) :
    nextItem false ⟨',' :: (text ++ rest), position⟩ =
      .ok (true, ⟨text ++ rest, position.after ','⟩) := by
  obtain ⟨ch, more, rfl, hblank, hbracket, _⟩ := hopens
  simp only [nextItem, Cursor.skipBlank_cons (show Cursor.isBlank ',' = false from rfl),
    Cursor.skip_one, List.cons_append, Cursor.skipBlank_cons hblank]
  split
  next heq => cases heq
  next heq => cases heq
  next heq =>
    cases heq
    rw [if_neg Bool.false_ne_true, if_pos rfl]
    split
    next heq => cases heq
    next heq => cases heq; exact (hbracket rfl).elim
    next => rfl

/-- A list ends at its bracket. -/
theorem items_end (fuel : Nat) (first : Bool) (rest : List Char) (position : Position) :
    items item (fuel + 1) first ⟨']' :: rest, position⟩ = .ok ([], ⟨']' :: rest, position⟩) := by
  have hend : nextItem first ⟨']' :: rest, position⟩ = .ok (false, ⟨']' :: rest, position⟩) := by
    simp only [nextItem, Cursor.skipBlank_cons (show Cursor.isBlank ']' = false from rfl)]
  rw [items, hend]
  rfl

/-- Where an item follows it is taken, and then the items behind it. -/
theorem items_cons {fuel : Nat} {first : Bool} {a : α} {as : List α} {c : Cursor}
    {rest after : List Char} {position : Position}
    (hnext : nextItem first c = .ok (true, ⟨write a ++ rest, position⟩))
    (hitem : Reads item (write a) a) (hcloses : Closes rest)
    (hothers : ∀ position, ∃ position',
      items item fuel false ⟨rest, position⟩ = .ok (as, ⟨after, position'⟩)) :
    ∃ position', items item (fuel + 1) first c = .ok (a :: as, ⟨after, position'⟩) := by
  obtain ⟨position₁, hitem⟩ := hitem rest position hcloses
  obtain ⟨position₂, hothers⟩ := hothers position₁
  refine ⟨position₂, ?_⟩
  simp only [items, hnext, hitem, hothers, bind, Except.bind, if_true]
  rfl

/-- The items behind the first are taken up to the bracket, whatever they are. -/
theorem items_later {as : List α} (hopens : ∀ a ∈ as, Opens nullable (write a))
    (hreads : ∀ a ∈ as, Reads item (write a) a) {fuel : Nat} (hfuel : as.length < fuel)
    (rest : List Char) (position : Position) :
    ∃ position',
      items item fuel false ⟨(as.map write).flatMap (',' :: ·) ++ ']' :: rest, position⟩ =
        .ok (as, ⟨']' :: rest, position'⟩) := by
  obtain ⟨fuel, rfl⟩ := Nat.exists_eq_add_one.mpr (Nat.zero_lt_of_lt hfuel)
  induction as generalizing fuel position with
  | nil => exact ⟨position, items_end fuel false rest position⟩
  | cons a as ih =>
      rw [List.length_cons, Nat.succ_lt_succ_iff] at hfuel
      obtain ⟨fuel, rfl⟩ := Nat.exists_eq_add_one.mpr (Nat.zero_lt_of_lt hfuel)
      rw [List.map_cons, List.flatMap_cons, List.cons_append, List.cons_append, List.append_assoc]
      -- the text of an item ends at the comma of the next one, or at the bracket
      apply items_cons (nextItem_later (hopens a List.mem_cons_self) position)
        (hreads a List.mem_cons_self)
      · exact closes_commas (as.map write) (closes_bracket rest)
      · intro position
        exact ih (fun a ha => hopens a (List.mem_cons_of_mem _ ha))
          (fun a ha => hreads a (List.mem_cons_of_mem _ ha)) position fuel hfuel

/-- A list is taken from its first item to its bracket. -/
theorem items_written {as : List α} (hopens : ∀ a ∈ as, Opens nullable (write a))
    (hreads : ∀ a ∈ as, Reads item (write a) a) {fuel : Nat} (hfuel : as.length < fuel)
    (rest : List Char) (position : Position) :
    ∃ position',
      items item fuel true ⟨commaSeparated (as.map write) ++ ']' :: rest, position⟩ =
        .ok (as, ⟨']' :: rest, position'⟩) := by
  obtain ⟨fuel, rfl⟩ := Nat.exists_eq_add_one.mpr (Nat.zero_lt_of_lt hfuel)
  cases as with
  | nil => exact ⟨position, items_end fuel true rest position⟩
  | cons a as =>
      rw [List.length_cons, Nat.succ_lt_succ_iff] at hfuel
      rw [List.map_cons, commaSeparated_cons, List.append_assoc]
      apply items_cons (nextItem_first (hopens a List.mem_cons_self) position)
        (hreads a List.mem_cons_self)
      · exact closes_commas (as.map write) (closes_bracket rest)
      · intro position
        exact items_later (fun a ha => hopens a (List.mem_cons_of_mem _ ha))
          (fun a ha => hreads a (List.mem_cons_of_mem _ ha)) hfuel rest position

end Lists

theorem closeList_bracket (rest : List Char) (position : Position) :
    closeList ⟨']' :: rest, position⟩ = .ok ⟨rest, position.after ']'⟩ := by
  rw [closeList, Cursor.skipBlank_cons rfl]
  rfl

theorem itemTexts_eq (items : List Json) : itemTexts items = items.map chars := by
  induction items with
  | nil => rfl
  | cons item items ih => rw [itemTexts, ih, List.map_cons]

/-- The commas alone are nearly as many as the texts. -/
theorem length_le_commaSeparated (texts : List (List Char)) :
    texts.length ≤ (commaSeparated texts).length + 1 := by
  have hcommas (texts : List (List Char)) : texts.length ≤ (texts.flatMap (',' :: ·)).length := by
    induction texts with
    | nil => exact Nat.le_refl 0
    | cons text texts ih =>
        rw [List.flatMap_cons, List.length_append, List.length_cons, List.length_cons]
        omega
  cases texts with
  | nil => exact Nat.zero_le _
  | cons first texts =>
      have hothers := hcommas texts
      rw [commaSeparated_cons, List.length_append, List.length_cons]
      omega

/-- The text of a list has those of its items between brackets, with commas. -/
theorem Schema.chars_list (s : Schema) (vs : List s.Val) :
    chars ((Schema.list s).toJson vs) =
      '[' :: commaSeparated (vs.map fun v => chars (s.toJson v)) ++ [']'] := by
  simp only [Schema.toJson, chars, itemTexts_eq, List.map_map]
  rfl

theorem Schema.read_list (s : Schema) (depth : Nat) (inside : List Char) (position : Position) :
    (Schema.list s).read (depth + 1) ⟨'[' :: inside, position⟩ =
      closing closeList
        (items (s.read depth) ('[' :: inside).length true ⟨inside, position.after '['⟩) := by
  rw [Schema.read, Cursor.skipBlank_cons rfl]
  rfl

/-- A list is read back if its items are. -/
theorem reads_list {s : Schema} {depth : Nat} {vs : List s.Val} {nullable : Bool}
    (hopens : ∀ v ∈ vs, Opens nullable (chars (s.toJson v)))
    (hreads : ∀ v ∈ vs, Reads (s.read depth) (chars (s.toJson v)) v) :
    Reads ((Schema.list s).read (depth + 1)) (chars ((Schema.list s).toJson vs)) vs := by
  intro rest position _
  let inside := commaSeparated (vs.map fun v => chars (s.toJson v)) ++ ']' :: rest
  -- there is fuel for each character, so there is for each item and for the bracket
  have hfuel : vs.length < ('[' :: inside).length := by
    have hlength := length_le_commaSeparated (vs.map fun v => chars (s.toJson v))
    rw [List.length_map] at hlength
    rw [List.length_cons, List.length_append, List.length_cons]
    omega
  obtain ⟨position', hitems⟩ := items_written hopens hreads hfuel rest (position.after '[')
  rw [Schema.chars_list, List.append_assoc, List.cons_append, List.singleton_append,
    Schema.read_list, hitems]
  refine ⟨position'.after ']', ?_⟩
  simp only [closing, closeList_bracket]
  rfl

/-! ### Options -/

theorem reads_none (s : Schema) (depth : Nat) :
    Reads ((Schema.optional s).read depth) (chars ((Schema.optional s).toJson none)) none := by
  intro rest position _
  obtain ⟨position', hident⟩ := ident_append ['u', 'l', 'l'] rest (position.after 'n')
  refine ⟨position', ?_⟩
  change (Schema.optional s).read depth ⟨'n' :: (['u', 'l', 'l'] ++ rest), position⟩ = _
  rw [Schema.read, Cursor.skipBlank_cons rfl]
  simp only [Cursor.skip_one, hident, bind, Except.bind]
  rfl

/-- A value in an option is read back if it is not taken for `null`. -/
theorem reads_some {s : Schema} {depth : Nat} {v : s.Val}
    (hopens : Opens false (chars (s.toJson v)))
    (hreads : Reads (s.read depth) (chars (s.toJson v)) v) :
    Reads ((Schema.optional s).read depth) (chars ((Schema.optional s).toJson (some v)))
      (some v) := by
  intro rest position hcloses
  obtain ⟨position', hread⟩ := hreads rest position hcloses
  refine ⟨position', ?_⟩
  obtain ⟨ch, more, htext, hblank, _, hnull⟩ := hopens
  change (Schema.optional s).read depth ⟨chars (s.toJson v) ++ rest, position⟩ = _
  rw [htext, List.cons_append] at hread ⊢
  rw [Schema.read, Cursor.skipBlank_cons hblank]
  split
  next heq => cases heq; cases hnull rfl
  next =>
    simp only [hread, bind, Except.bind]
    rfl

/-! ### Records -/

section Members

variable {σ : Type} {member : String → σ → Reader σ}

/-- Reading these members one after the other, with the colon before each value, leads from what
was known to what is known then. -/
inductive Leads (member : String → σ → Reader σ) : List (String × Json) → σ → σ → Prop
  | nil (known : σ) : Leads member [] known known
  | cons {key : String} {value : Json} {others : List (String × Json)} {known next final : σ}
      (hreads : Reads (member key known) (':' :: chars value) next)
      (hothers : Leads member others next final) : Leads member ((key, value) :: others) known final

def memberText (entry : String × Json) : List Char :=
  quoted entry.1.toList ++ ':' :: chars entry.2

theorem memberTexts_eq (entries : List (String × Json)) :
    memberTexts entries = entries.map memberText := by
  induction entries with
  | nil => rfl
  | cons entry entries ih => rw [memberTexts, ih, List.map_cons, memberText]

theorem members_end (fuel : Nat) (first : Bool) (known : σ) (rest : List Char)
    (position : Position) :
    members member (fuel + 1) first known ⟨'\x7d' :: rest, position⟩ =
      .ok (known, ⟨'\x7d' :: rest, position⟩) := by
  have hend : nextKey first ⟨'\x7d' :: rest, position⟩ =
      .ok (false, ⟨'\x7d' :: rest, position⟩) := by
    simp only [nextKey, Cursor.skipBlank_cons (show Cursor.isBlank '\x7d' = false from rfl)]
  rw [members, hend]
  rfl

theorem nextKey_first (rest : List Char) (position : Position) :
    nextKey true ⟨'"' :: rest, position⟩ = .ok (true, ⟨'"' :: rest, position⟩) := by
  rw [nextKey, Cursor.skipBlank_cons rfl]
  rfl

theorem nextKey_later (rest : List Char) (position : Position) :
    nextKey false ⟨',' :: '"' :: rest, position⟩ =
      .ok (true, ⟨'"' :: rest, position.after ','⟩) := by
  simp only [nextKey, Cursor.skipBlank_cons (show Cursor.isBlank ',' = false from rfl),
    Cursor.skip_one, Cursor.skipBlank_cons (show Cursor.isBlank '"' = false from rfl)]
  rfl

/-- Where a member follows its key and value are taken, and then the members behind it. -/
theorem members_cons {fuel : Nat} {first : Bool} {key : String} {value : Json}
    {known next final : σ} {c : Cursor} {rest after : List Char} {position : Position}
    (hnext : nextKey first c = .ok (true,
      ⟨'"' :: (key.toList.flatMap escape ++ '"' :: (':' :: chars value ++ rest)), position⟩))
    (hreads : Reads (member key known) (':' :: chars value) next) (hcloses : Closes rest)
    (hothers : ∀ position, ∃ position',
      members member fuel false next ⟨rest, position⟩ = .ok (final, ⟨after, position'⟩)) :
    ∃ position', members member (fuel + 1) first known c = .ok (final, ⟨after, position'⟩) := by
  obtain ⟨position₁, hkey⟩ := string_quoted key.toList (':' :: chars value ++ rest)
    (position.after '"')
  obtain ⟨position₂, hvalue⟩ := hreads rest position₁ hcloses
  obtain ⟨position₃, hothers⟩ := hothers position₂
  refine ⟨position₃, ?_⟩
  simp only [members, hnext, Cursor.skip_one, bind, Except.bind, if_true, hkey,
    String.ofList_toList, hvalue, hothers]

theorem memberText_append (entry : String × Json) (rest : List Char) :
    memberText entry ++ rest =
      '"' :: (entry.1.toList.flatMap escape ++ '"' :: (':' :: chars entry.2 ++ rest)) := by
  simp only [memberText, quoted, List.cons_append, List.append_assoc, List.nil_append]

/-- From the second on the members of an object are read one by one, until its brace. -/
theorem members_later {entries : List (String × Json)} {known final : σ}
    (hleads : Leads member entries known final) {fuel : Nat} (hfuel : entries.length < fuel)
    (rest : List Char) (position : Position) :
    ∃ position', members member fuel false known
        ⟨(entries.map memberText).flatMap (',' :: ·) ++ '\x7d' :: rest, position⟩ =
      .ok (final, ⟨'\x7d' :: rest, position'⟩) := by
  obtain ⟨fuel, rfl⟩ := Nat.exists_eq_add_one.mpr (Nat.zero_lt_of_lt hfuel)
  induction hleads generalizing fuel position with
  | nil known => exact ⟨position, members_end fuel false known rest position⟩
  | @cons key value others known next final hreads hothers ih =>
      rw [List.length_cons, Nat.succ_lt_succ_iff] at hfuel
      obtain ⟨fuel, rfl⟩ := Nat.exists_eq_add_one.mpr (Nat.zero_lt_of_lt hfuel)
      rw [List.map_cons, List.flatMap_cons, List.cons_append, List.cons_append, List.append_assoc,
        memberText_append]
      apply members_cons (nextKey_later _ position) hreads
      · exact closes_commas (others.map memberText) (closes_brace rest)
      · intro position
        exact ih position fuel hfuel

/-- An object is taken from its first key to its brace. -/
theorem members_written {entries : List (String × Json)} {known final : σ}
    (hleads : Leads member entries known final) {fuel : Nat} (hfuel : entries.length < fuel)
    (rest : List Char) (position : Position) :
    ∃ position', members member fuel true known
        ⟨commaSeparated (memberTexts entries) ++ '\x7d' :: rest, position⟩ =
      .ok (final, ⟨'\x7d' :: rest, position'⟩) := by
  obtain ⟨fuel, rfl⟩ := Nat.exists_eq_add_one.mpr (Nat.zero_lt_of_lt hfuel)
  cases hleads with
  | nil => exact ⟨position, members_end fuel true known rest position⟩
  | @cons key value others known next final hreads hothers =>
      rw [List.length_cons, Nat.succ_lt_succ_iff] at hfuel
      rw [memberTexts_eq, List.map_cons, commaSeparated_cons, List.append_assoc,
        memberText_append]
      apply members_cons (nextKey_first _ position) hreads
      · exact closes_commas (others.map memberText) (closes_brace rest)
      · intro position
        exact members_later hothers hfuel rest position

/-- What holds of every step that is taken along the way may be said instead. -/
theorem Leads.mono {τ : Type} {member' : String → τ → Reader τ} {f : σ → τ}
    {entries : List (String × Json)} {known final : σ}
    (hleads : Leads member entries known final)
    (hstep : ∀ entry ∈ entries, ∀ known next,
      Reads (member entry.1 known) (':' :: chars entry.2) next →
      Reads (member' entry.1 (f known)) (':' :: chars entry.2) (f next)) :
    Leads member' entries (f known) (f final) := by
  induction hleads with
  | nil known => exact .nil (f known)
  | cons hreads hothers ih =>
      apply Leads.cons (hstep _ List.mem_cons_self _ _ hreads)
      exact ih fun entry hentry => hstep entry (List.mem_cons_of_mem _ hentry)

end Members

theorem colon_cons (rest : List Char) (position : Position) :
    colon ⟨':' :: rest, position⟩ = .ok ⟨rest, position.after ':'⟩ := by
  rw [colon, Cursor.skipBlank_cons rfl]
  rfl

theorem closeObject_brace (rest : List Char) (position : Position) :
    closeObject ⟨'\x7d' :: rest, position⟩ = .ok ⟨rest, position.after '\x7d'⟩ := by
  rw [closeObject, Cursor.skipBlank_cons rfl]
  rfl

namespace Fields

/-- Every field of the record has been found. -/
def allFound : (fields : Fields) → fields.Val → fields.Found
  | .done, _ => ()
  | .field _ _ rest, v => (some v.1, rest.allFound v.2)

/-- If all fields have been found, nothing is missing. -/
theorem complete_allFound : (fields : Fields) → (v : fields.Val) →
    fields.complete (fields.allFound v) = .ok v
  | .done, _ => rfl
  | .field name s rest, v => by
      have hothers := rest.complete_allFound v.2
      simp only [complete, allFound, Option.some_or, hothers, bind, Except.bind]
      rfl

def names : Fields → List String
  | .done => []
  | .field name _ rest => name :: rest.names

theorem map_fst_toMembers : (fields : Fields) → (v : fields.Val) →
    (fields.toMembers v).map Prod.fst = fields.names
  | .done, _ => rfl
  | .field name s rest, v => by
      rw [toMembers, List.map_cons, rest.map_fst_toMembers v.2, names]

/-- The reader of a record's members, which passes over those that are no fields. -/
def member (fields : Fields) (depth : Nat) (key : String) (found : fields.Found) :
    Reader fields.Found := fun c =>
  match fields.readMember depth key found c with
  | some result => result
  | none => do return (found, ← Skip.value (← colon c))

/-- Each value in a record is read back by itself. -/
def ReadsEach (depth : Nat) : (fields : Fields) → fields.Val → Prop
  | .done, _ => True
  | .field _ s rest, v =>
      Reads (s.read depth) (chars (s.toJson v.1)) v.1 ∧ rest.ReadsEach depth v.2

/-- A member with the name of the first field is that field, if it has not been found before. -/
theorem reads_first {name : String} {s : Schema} {rest : Fields} {depth : Nat} {text : List Char}
    {v : s.Val} (found : rest.Found) (hreads : Reads (s.read depth) text v) :
    Reads ((Fields.field name s rest).member depth name (none, found)) (':' :: text)
      (some v, found) := by
  intro rest' position hcloses
  obtain ⟨position', hread⟩ := hreads rest' (position.after ':') hcloses
  refine ⟨position', ?_⟩
  simp only [member, readMember, if_true, colon_cons, bind, Except.bind, hread, List.cons_append,
    Option.isSome_none, Bool.false_eq_true, if_false]
  rfl

/-- A member with another name is left to the other fields. -/
theorem reads_other {name key : String} {s : Schema} {rest : Fields} {depth : Nat}
    {text : List Char} {first : Option s.Val} {found next : rest.Found} (hother : key ≠ name)
    (hreads : Reads (rest.member depth key found) text next) :
    Reads ((Fields.field name s rest).member depth key (first, found)) text (first, next) := by
  intro rest' position hcloses
  obtain ⟨position', hread⟩ := hreads rest' position hcloses
  refine ⟨position', ?_⟩
  simp only [member, readMember, hother, if_false] at hread ⊢
  cases hfields : rest.readMember depth key found ⟨text ++ rest', position⟩ with
  | none =>
      -- passed over by either
      simp only [hfields, Option.map_none, bind, Except.bind] at hread ⊢
      cases hcolon : colon ⟨text ++ rest', position⟩ with
      | error fault =>
          rw [hcolon] at hread
          cases hread
      | ok c =>
          simp only [hcolon] at hread ⊢
          cases hvalue : Skip.value c with
          | error fault =>
              rw [hvalue] at hread
              cases hread
          | ok c =>
              rw [hvalue] at hread
              cases hread
              rfl
  | some result =>
      simp only [hfields] at hread
      simp only [Option.map_some, hread, bind, Except.bind]
      rfl

/-- Reading the members of a record finds one field after the other. -/
theorem leads_toMembers {depth : Nat} : (fields : Fields) → fields.names.Nodup →
    (v : fields.Val) → fields.ReadsEach depth v →
    Leads (fields.member depth) (fields.toMembers v) fields.noneFound (fields.allFound v)
  | .done, _, _, _ => .nil ()
  | .field name s rest, hdistinct, v, heach => by
      obtain ⟨hname, hdistinct⟩ := List.nodup_cons.mp hdistinct
      apply Leads.cons (reads_first rest.noneFound heach.1)
      -- the members behind it have other names, so they leave the first field found
      have hothers := rest.leads_toMembers hdistinct v.2 heach.2
      apply hothers.mono
      intro entry hentry found next hreads
      apply reads_other _ hreads
      rintro rfl
      rw [← rest.map_fst_toMembers v.2] at hname
      exact hname (List.mem_map_of_mem hentry)

end Fields

/-- The text of a record has those of its members between braces, with commas. -/
theorem Schema.chars_record (name : String) (fields : Fields) (v : fields.Val) :
    chars ((Schema.record name fields).toJson v) =
      '\x7b' :: commaSeparated (memberTexts (fields.toMembers v)) ++ ['\x7d'] := by
  simp only [Schema.toJson, chars]

theorem Schema.read_record (name : String) (fields : Fields) (depth : Nat) (inside : List Char)
    (position : Position) :
    (Schema.record name fields).read (depth + 1) ⟨'\x7b' :: inside, position⟩ =
      closing closeObject (do
        let (found, c) ← members (fields.member depth) ('\x7b' :: inside).length true
          fields.noneFound ⟨inside, position.after '\x7b'⟩
        match fields.complete found with
        | .ok v => return (v, c)
        | .error missing => throw (c.faultSomewhere (.missingField missing))) := by
  rw [Schema.read, Cursor.skipBlank_cons rfl]
  rfl

/-- A record is read back if its fields are and no two of them have the same name. -/
theorem reads_record {name : String} {fields : Fields} {depth : Nat} {v : fields.Val}
    (hdistinct : fields.names.Nodup) (heach : fields.ReadsEach depth v) :
    Reads ((Schema.record name fields).read (depth + 1))
      (chars ((Schema.record name fields).toJson v)) v := by
  intro rest position _
  let inside := commaSeparated (memberTexts (fields.toMembers v)) ++ '\x7d' :: rest
  have hfuel : (fields.toMembers v).length < ('\x7b' :: inside).length := by
    have hlength := length_le_commaSeparated (memberTexts (fields.toMembers v))
    rw [memberTexts_eq, List.length_map, ← memberTexts_eq] at hlength
    rw [List.length_cons, List.length_append, List.length_cons]
    omega
  obtain ⟨position', hmembers⟩ := members_written (fields.leads_toMembers hdistinct v heach) hfuel
    rest (position.after '\x7b')
  rw [Schema.chars_record, List.append_assoc, List.cons_append, List.singleton_append,
    Schema.read_record, hmembers]
  refine ⟨position'.after '\x7d', ?_⟩
  simp only [bind, Except.bind, fields.complete_allFound v, pure, Except.pure, closing,
    closeObject_brace]
  rfl

/-! ### Whole texts -/

theorem opens_quoted (nullable : Bool) (cs : List Char) : Opens nullable (quoted cs) :=
  ⟨'"', cs.flatMap escape ++ ['"'], rfl, rfl, by decide, fun heq => absurd heq (by decide)⟩

theorem opens_record (nullable : Bool) (name : String) (fields : Fields) (v : fields.Val) :
    Opens nullable (chars ((Schema.record name fields).toJson v)) := by
  rw [Schema.chars_record]
  exact ⟨'\x7b', _, rfl, rfl, by decide, fun heq => absurd heq (by decide)⟩

/-- What is read back with all the room there is for nesting is read back from a whole text. -/
theorem Schema.ofText_write_of_reads {s : Schema} {v : s.Val}
    (hreads : Reads (s.read depthLimit) (chars (s.toJson v)) v) : s.ofText (s.write v) = .ok v := by
  obtain ⟨position, hread⟩ := hreads [] .start closes_nil
  rw [List.append_nil] at hread
  simp only [Schema.ofText, whole, Cursor.ofText, Schema.write, toText, String.toList_ofList, hread]
  rfl

/-! ### Plain types -/

def Schema.isOptional : Schema → Bool
  | .optional _ => true
  | _ => false

mutual

/-- Strings, truth values and integers, one of these or nothing, lists, and records whose fields
have different names. Lists and records are nested at most so deep. -/
def Schema.IsPlain : Schema → Nat → Prop
  | .text, _ | .flag, _ | .u32, _ | .u64, _ | .i64, _ | .integer _, _ => True
  | .optional s, depth => s.isOptional = false ∧ s.IsPlain depth
  | .list s, depth + 1 => s.IsPlain depth
  | .record _ fields, depth + 1 => fields.names.Nodup ∧ fields.ArePlain depth
  | _, _ => False

def Fields.ArePlain : Fields → Nat → Prop
  | .done, _ => True
  | .field _ s rest, depth => s.IsPlain depth ∧ rest.ArePlain depth

end

/-- What a field holds in a record that is not nested: a scalar, an optional string, or a list of
strings. -/
def Schema.IsFlat : Schema → Prop
  | .text | .flag | .u32 | .u64 | .i64 | .integer _ | .optional .text | .list .text => True
  | _ => False

def Fields.AreFlat : Fields → Prop
  | .done => True
  | .field _ s rest => s.IsFlat ∧ rest.AreFlat

/-- A flat schema is one level deep, so it is plain at any depth that leaves one. -/
theorem Schema.IsFlat.isPlain (depth : Nat) : {s : Schema} → s.IsFlat → s.IsPlain (depth + 1)
  | .text, _ | .flag, _ | .u32, _ | .u64, _ | .i64, _ | .integer _, _ | .list .text, _ => trivial
  | .optional .text, _ => ⟨rfl, trivial⟩

theorem Fields.AreFlat.arePlain (depth : Nat) :
    {fields : Fields} → fields.AreFlat → fields.ArePlain (depth + 1)
  | .done, _ => trivial
  | .field _ _ _, hflat => ⟨hflat.1.isPlain depth, arePlain depth hflat.2⟩

/-- A record that is not nested is plain, however little room there is for nesting. -/
theorem Schema.isPlain_of_flat {name : String} {fields : Fields} (hdistinct : fields.names.Nodup)
    (hflat : fields.AreFlat) (depth : Nat) : (Schema.record name fields).IsPlain (depth + 2) :=
  ⟨hdistinct, hflat.arePlain depth⟩

/-- A plain value that is not optional is not taken for `null`. -/
theorem opens_toJson : {s : Schema} → {depth : Nat} → s.IsPlain depth → (v : s.Val) →
    Opens s.isOptional (chars (s.toJson v))
  | .text, _, _, v => opens_quoted false (String.toList v)
  | .flag, _, _, true => ⟨'t', ['r', 'u', 'e'], rfl, rfl, by decide, by decide⟩
  | .flag, _, _, false => ⟨'f', ['a', 'l', 's', 'e'], rfl, rfl, by decide, by decide⟩
  | .u32, _, _, v => opens_signed (UInt32.toNat v)
  | .u64, _, _, v => opens_signed (UInt64.toNat v)
  | .i64, _, _, v => opens_signed (Int64.toInt v)
  | .integer t, _, _, v => opens_signed (v : t.Val).1
  | .optional s, _, _, none => ⟨'n', ['u', 'l', 'l'], rfl, rfl, by decide, fun _ => rfl⟩
  | .optional s, _, hplain, some v => (opens_toJson hplain.2 v).nullable
  | .list s, _, _, vs => by
      rw [Schema.chars_list s vs]
      exact ⟨'[', _, rfl, rfl, by decide, fun heq => absurd heq (by decide)⟩
  | .record name fields, _, _, v => opens_record false name fields v

/-- A number within the bounds of its type is read as the value that it was written for. -/
theorem reads_integerWithin {α : Type} (expected : String) {low high n : Int} {f : Int → α} {a : α}
    (hvalue : f n = a) (hwithin : low ≤ n ∧ n ≤ high) (hlow : -0x8000000000000000 ≤ low)
    (hhigh : high < 0x10000000000000000) :
    Reads (numberAs expected (integerWithin low high f)) (Decimal.signed n) a := by
  have haccepts : integerWithin low high f (.integer n) = some a := by
    rw [integerWithin, if_pos hwithin, hvalue]
  exact reads_numberAs expected haccepts (by omega) (by omega)

theorem reads_u32 (depth : Nat) (v : UInt32) :
    Reads (Schema.u32.read depth) (chars (Schema.u32.toJson v)) v := by
  have hbound := v.toNat_lt
  intro rest position hcloses
  rw [Schema.read]
  exact reads_integerWithin (n := v.toNat) "u32" v.ofNat_toNat ⟨by omega, by omega⟩ (by decide)
    (by decide) rest position hcloses

theorem reads_u64 (depth : Nat) (v : UInt64) :
    Reads (Schema.u64.read depth) (chars (Schema.u64.toJson v)) v := by
  have hbound := v.toNat_lt
  intro rest position hcloses
  rw [Schema.read]
  exact reads_integerWithin (n := v.toNat) "u64" v.ofNat_toNat ⟨by omega, by omega⟩ (by decide)
    (by decide) rest position hcloses

theorem reads_i64 (depth : Nat) (v : Int64) :
    Reads (Schema.i64.read depth) (chars (Schema.i64.toJson v)) v := by
  have hlow := v.le_toInt
  have hhigh := v.toInt_lt
  intro rest position hcloses
  rw [Schema.read]
  exact reads_integerWithin "i64" v.ofInt_toInt ⟨by omega, by omega⟩ (by decide) (by decide) rest
    position hcloses

theorem IntegerType.bounds_of_narrow {t : IntegerType} (hnarrow : ¬ t.isWide) :
    -0x8000000000000000 ≤ t.low ∧ t.high < 0x10000000000000000 := by
  cases t <;> first | exact (hnarrow rfl).elim | decide

/-- An integer of any width is read as the value that it was written for. -/
theorem reads_integer (t : IntegerType) (depth : Nat) (v : t.Val) :
    Reads ((Schema.integer t).read depth) (chars ((Schema.integer t).toJson v)) v := by
  have hnumber : Reads
      (fun c => if t.isWide then wideInteger t c else numberAs t.name t.accept c)
      (Decimal.signed v.1) v := by
    by_cases hwide : t.isWide
    · simp only [hwide, if_true]
      exact reads_wideInteger t v
    · simp only [hwide]
      obtain ⟨hlow, hhigh⟩ := IntegerType.bounds_of_narrow hwide
      have hbounds := v.2
      exact reads_numberAs t.name (t.ofInt?_val v) (by omega) (by omega)
  intro rest position hcloses
  rw [Schema.read]
  exact hnumber rest position hcloses

mutual

/-- Values of plain types survive being written, as long as they are not nested too deep. -/
theorem reads_plain : (s : Schema) → (depth : Nat) → s.IsPlain depth → (v : s.Val) →
    Reads (s.read depth) (chars (s.toJson v)) v
  | .text, _, _, v => reads_stringAs "a string" v
  | .flag, _, _, v => reads_boolean v
  | .u32, depth, _, v => reads_u32 depth v
  | .u64, depth, _, v => reads_u64 depth v
  | .i64, depth, _, v => reads_i64 depth v
  | .integer t, depth, _, v => reads_integer t depth v
  | .optional s, depth, _, none => reads_none s depth
  | .optional s, depth, hplain, some v =>
      reads_some (hplain.1 ▸ opens_toJson hplain.2 v) (reads_plain s depth hplain.2 v)
  | .list s, depth + 1, hplain, _ =>
      have hitem : s.IsPlain depth := hplain
      reads_list (fun v _ => opens_toJson hitem v) fun v _ => reads_plain s depth hitem v
  | .record _ fields, depth + 1, hplain, v =>
      reads_record hplain.1 (readsEach_plain fields depth hplain.2 v)

theorem readsEach_plain : (fields : Fields) → (depth : Nat) → fields.ArePlain depth →
    (v : fields.Val) → fields.ReadsEach depth v
  | .done, _, _, _ => trivial
  | .field _ s rest, depth, hplain, v =>
      ⟨reads_plain s depth hplain.1 v.1, readsEach_plain rest depth hplain.2 v.2⟩

end

/-- What was written of a plain type is read back. -/
theorem Schema.ofText_write {s : Schema} (hplain : s.IsPlain depthLimit) (v : s.Val) :
    s.ofText (s.write v) = .ok v :=
  Schema.ofText_write_of_reads (reads_plain s depthLimit hplain v)

end Outbox.Json
