import Outbox.Config
import Outbox.Proofs.NumberTexts

/-! # Which configurations are accepted

A configuration is accepted just if each variable is unset or spells a value of its kind, the counts
are not zero, and the multiplier is finite and at least one. Then each field is what its own variable
says. Otherwise the first complaint is reported: first about texts, in the order of reading, and then
about ranges.
-/

namespace Outbox

namespace Decimal

open Float.Model in
theorem le_finite_iff {a : UnpackedFloat} {m : Nat} {e : Int} {hpos : 0 < m} (hfinite : a.isFinite) :
    UnpackedFloat.le (.finite .positive m e hpos) a ↔ ¬ a.lt (.finite .positive m e hpos) := by
  cases a with
  | notANumber => cases hfinite
  | infinity => cases hfinite
  | zero => exact iff_of_false Bool.false_ne_true fun hnot => hnot rfl
  | finite sign m' e' =>
      cases sign with
      | negative => exact iff_of_false Bool.false_ne_true fun hnot => hnot rfl
      | positive =>
          -- both ways the exponents are compared first, and the mantissas if those are equal
          have hswap : (compare e e').then (compare m m') =
              ((compare e' e).then (compare m' m)).swap := by
            rw [Ordering.swap_then, Std.OrientedOrd.eq_swap (a := e),
              Std.OrientedOrd.eq_swap (a := m)]
          change ((compare e e').then (compare m m')).isLE = true ↔
            ¬ (some ((compare e' e).then (compare m' m)) == some .lt) = true
          rw [hswap, Ordering.isLE_swap, Option.some_beq_some, beq_iff_eq]
          exact Ordering.ne_lt_iff_isGE.symm

/-- A finite number is one at least, or less than one. -/
theorem one_le_iff {x : Float} (hfinite : x.isFinite) : 1.0 ≤ x ↔ ¬ x < 1.0 := by
  change decide (_ ≤ x.toModel) = true ↔ ¬ decide (x.toModel < _) = true
  simp only [decide_eq_true_eq]
  exact le_finite_iff hfinite

end Decimal

namespace Config

open Decimal (Says SaysFloat IsFloat natural? float? natural?_eq_some isSome_float? one_le_iff)

/-- What a variable is to hold. -/
inductive Kind where
  | natural (most : Nat)
  | float

namespace Kind

/-- The texts of a kind. -/
def Spells : Kind → List Char → Prop
  | natural most, cs => ∃ n, Says cs n ∧ n ≤ most
  | float, cs => IsFloat cs

/-- Whether a text is read. -/
def reads : Kind → List Char → Bool
  | natural most, cs => (natural? most cs).isSome
  | float, cs => (float? cs).isSome

theorem reads_iff {kind : Kind} {cs : List Char} : kind.reads cs ↔ kind.Spells cs := by
  cases kind with
  | natural most => simp only [reads, Spells, Option.isSome_iff_exists, natural?_eq_some]
  | float => exact isSome_float?

instance (kind : Kind) (cs : List Char) : Decidable (kind.Spells cs) :=
  decidable_of_iff _ reads_iff

end Kind

structure Setting where
  key : String
  kind : Kind

/-- The variables in the order of reading. -/
def settings : List Setting := [
  ⟨"OUTBOX_POLL_INTERVAL_MS", .natural most64⟩,
  ⟨"OUTBOX_BATCH_SIZE", .natural most64⟩,
  ⟨"OUTBOX_SWEEP_INTERVAL_SECS", .natural most64⟩,
  ⟨"OUTBOX_RETENTION_DAYS", .natural most32⟩,
  ⟨"OUTBOX_LEASE_SECS", .natural most64⟩,
  ⟨"OUTBOX_RETRY_BASE_MS", .natural most64⟩,
  ⟨"OUTBOX_RETRY_MULTIPLIER", .float⟩,
  ⟨"OUTBOX_RETRY_MAX_MS", .natural most64⟩]

section Specification

variable (lookup : String → Option String) {α : Type} (states : List Char → α → Prop)

/-- The variable is not set, or its text without the blanks around it is of its kind. -/
def Setting.IsClear (s : Setting) : Prop :=
  ∀ raw ∈ lookup s.key, s.kind.Spells (Text.trim raw.toList)

instance (s : Setting) : Decidable (s.IsClear lookup) :=
  inferInstanceAs (Decidable (∀ raw ∈ lookup s.key, s.kind.Spells (Text.trim raw.toList)))

/-- The variable is set to a text that says the value. -/
def Sets (key : String) (value : α) : Prop :=
  ∃ raw ∈ lookup key, states (Text.trim raw.toList) value

/-- The variable says the value, or is not set, and then the value is the default. -/
def Follows (key : String) (default value : α) : Prop :=
  match lookup key with
  | none => value = default
  | some raw => states (Text.trim raw.toList) value

structure Valid : Prop where
  clear : ∀ s ∈ settings, s.IsClear lookup
  batchSize : ¬ Sets lookup Says "OUTBOX_BATCH_SIZE" 0
  retentionDays : ¬ Sets lookup Says "OUTBOX_RETENTION_DAYS" 0
  multiplier : ∀ x, Sets lookup SaysFloat "OUTBOX_RETRY_MULTIPLIER" x → x.isFinite ∧ 1.0 ≤ x

/-- The first thing wrong with the variables. Texts that cannot be read are named with all their
blanks. Ranges are looked at once every text can be read. -/
inductive Fault : ConfigError → Prop
  | garbled {before after : List Setting} {s : Setting} {raw : String}
      (horder : settings = before ++ s :: after) (hbefore : ∀ earlier ∈ before, earlier.IsClear lookup)
      (hset : lookup s.key = some raw) (hgarbled : ¬ s.kind.Spells (Text.trim raw.toList)) :
      Fault ⟨s.key, raw⟩
  | batchSize (hclear : ∀ s ∈ settings, s.IsClear lookup)
      (hzero : Sets lookup Says "OUTBOX_BATCH_SIZE" 0) : Fault ⟨"OUTBOX_BATCH_SIZE", "0"⟩
  | retentionDays (hclear : ∀ s ∈ settings, s.IsClear lookup)
      (hbatch : ¬ Sets lookup Says "OUTBOX_BATCH_SIZE" 0)
      (hzero : Sets lookup Says "OUTBOX_RETENTION_DAYS" 0) : Fault ⟨"OUTBOX_RETENTION_DAYS", "0"⟩
  | multiplier {x : Float} (hclear : ∀ s ∈ settings, s.IsClear lookup)
      (hbatch : ¬ Sets lookup Says "OUTBOX_BATCH_SIZE" 0)
      (hretention : ¬ Sets lookup Says "OUTBOX_RETENTION_DAYS" 0)
      (hset : Sets lookup SaysFloat "OUTBOX_RETRY_MULTIPLIER" x)
      (hrange : ¬ (x.isFinite ∧ 1.0 ≤ x)) :
      Fault ⟨"OUTBOX_RETRY_MULTIPLIER", Decimal.Style.plain.text x⟩

/-- Each field follows a variable of its own. Only the retry policy follows three. Without a base it
is the immediate one. With a base the limit is raised to the base, should it be less. -/
structure Describes (c : Config) : Prop where
  pollInterval : ∃ millis, Follows lookup Says "OUTBOX_POLL_INTERVAL_MS" 2000 millis ∧
    c.pollInterval = .ofMillis millis
  batchSize : Follows lookup Says "OUTBOX_BATCH_SIZE" 100 c.batchSize
  sweepInterval : ∃ seconds, Follows lookup Says "OUTBOX_SWEEP_INTERVAL_SECS" 3600 seconds ∧
    c.sweepInterval = .ofSeconds seconds
  retentionDays : Follows lookup Says "OUTBOX_RETENTION_DAYS" 30 c.retentionDays
  lease : ∃ seconds, Follows lookup Says "OUTBOX_LEASE_SECS" 30 seconds ∧
    c.lease = .ofSeconds seconds
  retryPolicy : ∃ base multiplier cap,
    Follows lookup Says "OUTBOX_RETRY_BASE_MS" 0 base ∧
      Follows lookup SaysFloat "OUTBOX_RETRY_MULTIPLIER" 2.0 multiplier ∧
      Follows lookup Says "OUTBOX_RETRY_MAX_MS" 300000 cap ∧
      (base = 0 → c.retryPolicy = .immediate) ∧
      (0 < base →
        c.retryPolicy = .exponential (.ofMillis base) multiplier (.ofMillis (max cap base)))

end Specification

section Values

variable {lookup : String → Option String} {α : Type} {states : List Char → α → Prop}
  {key : String} {default value other : α}

/-- A setting has its default value, or the variable sets it. -/
theorem Follows.eq_or_sets (hfollows : Follows lookup states key default value) :
    lookup key = none ∧ value = default ∨ Sets lookup states key value := by
  unfold Follows at hfollows
  split at hfollows
  next hunset => exact .inl ⟨hunset, hfollows⟩
  next raw hset => exact .inr ⟨raw, hset, hfollows⟩

/-- A variable determines what follows it. -/
theorem Follows.unique (hstates : ∀ cs v w, states cs v → states cs w → v = w)
    (hvalue : Follows lookup states key default value)
    (hother : Follows lookup states key default other) : value = other := by
  unfold Follows at hvalue hother
  split at hvalue
  next hunset =>
    rw [hunset] at hother
    exact hvalue.trans hother.symm
  next raw hset =>
    rw [hset] at hother
    exact hstates _ _ _ hvalue hother

theorem Follows.count_unique {default m n : Nat} (hm : Follows lookup Says key default m)
    (hn : Follows lookup Says key default n) : m = n := by
  apply Follows.unique _ hm hn
  intro cs v w hv hw
  exact hv.unique hw

theorem Follows.made_unique {β : Type} {make : Nat → β} {default : Nat} {v w : β}
    (hv : ∃ n, Follows lookup Says key default n ∧ v = make n)
    (hw : ∃ n, Follows lookup Says key default n ∧ w = make n) : v = w := by
  obtain ⟨m, hm, rfl⟩ := hv
  obtain ⟨n, hn, rfl⟩ := hw
  rw [hm.count_unique hn]

theorem Follows.float_unique {default x y : Float} (hx : Follows lookup SaysFloat key default x)
    (hy : Follows lookup SaysFloat key default y) : x = y := by
  apply Follows.unique _ hx hy
  intro cs v w hv hw
  exact Option.some.inj (hv.symm.trans hw)

theorem Follows.pos {default n : Nat} (hfollows : Follows lookup Says key default n)
    (hdefault : 1 ≤ default) (hzero : ¬ Sets lookup Says key 0) : 1 ≤ n := by
  rcases hfollows.eq_or_sets with ⟨_, rfl⟩ | hset
  · exact hdefault
  · exact Nat.one_le_iff_ne_zero.mpr fun heq => hzero (heq ▸ hset)

/-- The number is zero just if the variable is unset or says so. -/
theorem Follows.eq_zero_iff {n : Nat} (hfollows : Follows lookup Says key 0 n) :
    n = 0 ↔ lookup key = none ∨ Sets lookup Says key 0 := by
  unfold Follows at hfollows
  split at hfollows
  next hunset => exact iff_of_true hfollows (.inl hunset)
  next raw hset =>
    constructor
    · rintro rfl
      exact .inr ⟨raw, hset, hfollows⟩
    · rintro (hunset | ⟨raw', hset', hzero⟩)
      · rw [hset] at hunset
        cases hunset
      · rw [hset] at hset'
        cases hset'
        exact hfollows.unique hzero

end Values

section Reading

variable {lookup : String → Option String}

/-- What is wrong with the text of a variable. -/
def Setting.complaint? (lookup : String → Option String) (s : Setting) : Option ConfigError :=
  (lookup s.key).bind fun raw =>
    if s.kind.reads (Text.trim raw.toList) then none else some ⟨s.key, raw⟩

/-- What a variable is read as. -/
def valueOf {α : Type} (lookup : String → Option String) (key : String)
    (read : List Char → Option α) : Option α :=
  (lookup key).bind fun raw => read (Text.trim raw.toList)

/-- A result, unless there is a complaint. -/
def barring {α : Type} (complaint : Option ConfigError) (result : Except ConfigError α) :
    Except ConfigError α :=
  match complaint with
  | none => result
  | some e => .error e

theorem barring_or {α : Type} (first second : Option ConfigError) (result : Except ConfigError α) :
    barring (first.or second) result = barring first (barring second result) := by
  cases first <;> rfl

theorem barring_none {α : Type} (result : Except ConfigError α) : barring none result = result := rfl

theorem barring_findSome?_cons {α β : Type} (objection : β → Option ConfigError) (b : β)
    (rest : List β) (result : Except ConfigError α) :
    barring ((b :: rest).findSome? objection) result =
      barring (objection b) (barring (rest.findSome? objection) result) := by
  rw [List.findSome?_cons]
  cases objection b <;> rfl

/-- Reading a setting complains about it, or goes on with its value. -/
theorem parse_bind {α β : Type} {key : String} {read : List Char → Option α} (kind : Kind)
    (hkind : ∀ cs, kind.reads cs = (read cs).isSome) (next : Option α → Except ConfigError β) :
    parse lookup key read >>= next =
      barring (Setting.complaint? lookup ⟨key, kind⟩) (next (valueOf lookup key read)) := by
  unfold parse Setting.complaint? valueOf
  cases lookup key with
  | none => rfl
  | some raw =>
      simp only [Option.bind_some, hkind]
      cases read (Text.trim raw.toList) <;> rfl

theorem throw_bind {β : Type} {P : Prop} [Decidable P] {e : ConfigError}
    {next : PUnit → Except ConfigError β} :
    (if P then throw e >>= next else next ⟨⟩) = barring (if P then some e else none) (next ⟨⟩) := by
  split <;> rfl

/-- What is wrong with the numbers. -/
def outOfRange? (lookup : String → Option String) : Option ConfigError :=
  let multiplier := (valueOf lookup "OUTBOX_RETRY_MULTIPLIER" float?).getD 2.0
  (if valueOf lookup "OUTBOX_BATCH_SIZE" (natural? most64) = some 0 then
    some ⟨"OUTBOX_BATCH_SIZE", "0"⟩ else none).or <|
  (if valueOf lookup "OUTBOX_RETENTION_DAYS" (natural? most32) = some 0 then
    some ⟨"OUTBOX_RETENTION_DAYS", "0"⟩ else none).or <|
  if !multiplier.isFinite || multiplier < 1.0 then
    some ⟨"OUTBOX_RETRY_MULTIPLIER", Decimal.Style.plain.text multiplier⟩ else none

def assembled (lookup : String → Option String) : Config where
  pollInterval := ((valueOf lookup "OUTBOX_POLL_INTERVAL_MS" (natural? most64)).map
    Duration.ofMillis).getD default.pollInterval
  batchSize := (valueOf lookup "OUTBOX_BATCH_SIZE" (natural? most64)).getD default.batchSize
  sweepInterval := ((valueOf lookup "OUTBOX_SWEEP_INTERVAL_SECS" (natural? most64)).map
    Duration.ofSeconds).getD default.sweepInterval
  retentionDays :=
    (valueOf lookup "OUTBOX_RETENTION_DAYS" (natural? most32)).getD default.retentionDays
  lease := ((valueOf lookup "OUTBOX_LEASE_SECS" (natural? most64)).map
    Duration.ofSeconds).getD default.lease
  retryPolicy := policyOf ((valueOf lookup "OUTBOX_RETRY_BASE_MS" (natural? most64)).getD 0)
    ((valueOf lookup "OUTBOX_RETRY_MULTIPLIER" float?).getD 2.0)
    ((valueOf lookup "OUTBOX_RETRY_MAX_MS" (natural? most64)).getD 300000)

/-- The complaint that comes first, if there is any. -/
def complaint? (lookup : String → Option String) : Option ConfigError :=
  (settings.findSome? (Setting.complaint? lookup)).or (outOfRange? lookup)

/-- A configuration is what all the settings come to, unless there is something to complain about.
-/
theorem ofLookup_eq : ofLookup lookup = barring (complaint? lookup) (.ok (assembled lookup)) := by
  unfold ofLookup
  -- eight variables are read, and three checks follow
  rw [parse_bind (.natural most64) fun _ => rfl, parse_bind (.natural most64) fun _ => rfl,
    parse_bind (.natural most64) fun _ => rfl, parse_bind (.natural most32) fun _ => rfl,
    parse_bind (.natural most64) fun _ => rfl, parse_bind (.natural most64) fun _ => rfl,
    parse_bind .float fun _ => rfl, parse_bind (.natural most64) fun _ => rfl]
  rw [throw_bind, throw_bind, throw_bind, complaint?, barring_or, outOfRange?, barring_or, barring_or]
  simp only [settings, barring_findSome?_cons, List.findSome?_nil, barring_none]
  rfl

/-- A setting is complained about if it is set to what spells no value of its kind. -/
theorem Setting.complaint?_eq_some {s : Setting} {e : ConfigError} :
    s.complaint? lookup = some e ↔
      ∃ raw, lookup s.key = some raw ∧ ¬ s.kind.Spells (Text.trim raw.toList) ∧ e = ⟨s.key, raw⟩ := by
  rw [Setting.complaint?, Option.bind_eq_some_iff]
  refine exists_congr fun raw => and_congr_right fun _ => ?_
  rw [← Kind.reads_iff]
  split
  next hreads => simp [hreads]
  next hreads => simp [hreads, eq_comm]

theorem Setting.complaint?_eq_none {s : Setting} :
    s.complaint? lookup = none ↔ s.IsClear lookup := by
  rw [Setting.complaint?, Option.bind_eq_none_iff]
  refine forall_congr' fun raw => forall_congr' fun _ => ?_
  rw [← Kind.reads_iff]
  split <;> simp_all

/-- A setting has a number for its value if the variable sets it to this number. -/
theorem valueOf_natural {key : String} {most n : Nat} (hfits : n ≤ most) :
    valueOf lookup key (natural? most) = some n ↔ Sets lookup Says key n := by
  simp only [valueOf, Option.bind_eq_some_iff, natural?_eq_some, hfits, and_true]
  rfl

theorem valueOf_float {key : String} {x : Float} :
    valueOf lookup key float? = some x ↔ Sets lookup SaysFloat key x :=
  Option.bind_eq_some_iff

/-- A multiplier out of range is one that was set. -/
theorem multiplier_outOfRange {m : Float}
    (hm : (valueOf lookup "OUTBOX_RETRY_MULTIPLIER" float?).getD 2.0 = m) :
    !m.isFinite || m < 1.0 ↔
      Sets lookup SaysFloat "OUTBOX_RETRY_MULTIPLIER" m ∧ ¬ (m.isFinite ∧ 1.0 ≤ m) := by
  rw [← valueOf_float]
  cases hvalue : valueOf lookup "OUTBOX_RETRY_MULTIPLIER" float? with
  | none =>
      rw [hvalue, Option.getD_none] at hm
      subst hm
      -- the default passes the check
      exact iff_of_false (by decide) fun hset => nomatch hset.1
  | some x =>
      rw [hvalue, Option.getD_some] at hm
      subst hm
      have hrange : !x.isFinite || x < 1.0 ↔ ¬ (x.isFinite ∧ 1.0 ≤ x) := by
        by_cases hfinite : x.isFinite
        · simp [hfinite, one_le_iff hfinite]
        · simp [hfinite]
      rw [hrange]
      exact ⟨fun hnot => ⟨rfl, hnot⟩, And.right⟩

/-- Of the values that are out of range the first one is complained about. -/
theorem outOfRange?_eq_some {e : ConfigError} :
    outOfRange? lookup = some e ↔
      Sets lookup Says "OUTBOX_BATCH_SIZE" 0 ∧ e = ⟨"OUTBOX_BATCH_SIZE", "0"⟩ ∨
      ¬ Sets lookup Says "OUTBOX_BATCH_SIZE" 0 ∧ (
        Sets lookup Says "OUTBOX_RETENTION_DAYS" 0 ∧ e = ⟨"OUTBOX_RETENTION_DAYS", "0"⟩ ∨
        ¬ Sets lookup Says "OUTBOX_RETENTION_DAYS" 0 ∧
          ∃ x, Sets lookup SaysFloat "OUTBOX_RETRY_MULTIPLIER" x ∧ ¬ (x.isFinite ∧ 1.0 ≤ x) ∧
            e = ⟨"OUTBOX_RETRY_MULTIPLIER", Decimal.Style.plain.text x⟩) := by
  have hfirst {P : Prop} [Decidable P] {first : ConfigError} {next : Option ConfigError} :
      (if P then some first else none).or next = some e ↔
        P ∧ e = first ∨ ¬ P ∧ next = some e := by
    by_cases hP : P <;> simp [hP, eq_comm]
  simp only [outOfRange?, hfirst, valueOf_natural (Nat.zero_le _), Option.ite_none_right_eq_some,
    Option.some.injEq]
  refine or_congr_right (and_congr_right fun _ => or_congr_right (and_congr_right fun _ => ?_))
  rw [multiplier_outOfRange rfl]
  constructor
  · rintro ⟨⟨hset, hrange⟩, rfl⟩
    exact ⟨_, hset, hrange, rfl⟩
  · rintro ⟨x, hset, hrange, rfl⟩
    have hvalue : (valueOf lookup "OUTBOX_RETRY_MULTIPLIER" float?).getD 2.0 = x := by
      rw [valueOf_float.mpr hset, Option.getD_some]
    rw [hvalue]
    exact ⟨⟨hset, hrange⟩, rfl⟩

theorem outOfRange?_eq_none : outOfRange? lookup = none ↔
    ¬ Sets lookup Says "OUTBOX_BATCH_SIZE" 0 ∧ ¬ Sets lookup Says "OUTBOX_RETENTION_DAYS" 0 ∧
      ∀ x, Sets lookup SaysFloat "OUTBOX_RETRY_MULTIPLIER" x → x.isFinite ∧ 1.0 ≤ x := by
  simp only [Option.eq_none_iff_forall_ne_some, ne_eq, outOfRange?_eq_some]
  constructor
  · -- a check is reached only if the checks before it found nothing
    intro hnone
    have hbatch : ¬ Sets lookup Says "OUTBOX_BATCH_SIZE" 0 := fun hzero =>
      hnone _ (.inl ⟨hzero, rfl⟩)
    have hretention : ¬ Sets lookup Says "OUTBOX_RETENTION_DAYS" 0 := fun hzero =>
      hnone _ (.inr ⟨hbatch, .inl ⟨hzero, rfl⟩⟩)
    refine ⟨hbatch, hretention, ?_⟩
    intro x hset
    by_contra hrange
    exact hnone _ (.inr ⟨hbatch, .inr ⟨hretention, x, hset, hrange, rfl⟩⟩)
  · rintro ⟨hbatch, hretention, hmultiplier⟩ e
      (⟨hzero, _⟩ | ⟨_, ⟨hzero, _⟩ | ⟨_, x, hset, hrange, _⟩⟩)
    · exact hbatch hzero
    · exact hretention hzero
    · exact hrange (hmultiplier x hset)

/-- There is nothing to complain about in valid settings. -/
theorem complaint?_eq_none : complaint? lookup = none ↔ Valid lookup := by
  rw [complaint?, Option.or_eq_none_iff, List.findSome?_eq_none_iff, outOfRange?_eq_none]
  simp only [Setting.complaint?_eq_none]
  constructor
  · rintro ⟨hclear, hbatch, hretention, hmultiplier⟩
    exact ⟨hclear, hbatch, hretention, hmultiplier⟩
  · rintro ⟨hclear, hbatch, hretention, hmultiplier⟩
    exact ⟨hclear, hbatch, hretention, hmultiplier⟩

/-- The complaint is about the first fault. -/
theorem complaint?_eq_some {e : ConfigError} : complaint? lookup = some e ↔ Fault lookup e := by
  rw [complaint?, Option.or_eq_some_iff, List.findSome?_eq_some_iff, List.findSome?_eq_none_iff,
    outOfRange?_eq_some]
  simp only [Setting.complaint?_eq_none, Setting.complaint?_eq_some]
  constructor
  · rintro (⟨before, s, after, horder, ⟨raw, hset, hgarbled, rfl⟩, hbefore⟩ |
      ⟨hclear, ⟨hzero, rfl⟩ | ⟨hbatch, ⟨hzero, rfl⟩ | ⟨hretention, x, hset, hrange, rfl⟩⟩⟩)
    · exact .garbled horder hbefore hset hgarbled
    · exact .batchSize hclear hzero
    · exact .retentionDays hclear hbatch hzero
    · exact .multiplier hclear hbatch hretention hset hrange
  · intro hfault
    cases hfault with
    | garbled horder hbefore hset hgarbled =>
        exact .inl ⟨_, _, _, horder, ⟨_, hset, hgarbled, rfl⟩, hbefore⟩
    | batchSize hclear hzero => exact .inr ⟨hclear, .inl ⟨hzero, rfl⟩⟩
    | retentionDays hclear hbatch hzero =>
        exact .inr ⟨hclear, .inr ⟨hbatch, .inl ⟨hzero, rfl⟩⟩⟩
    | multiplier hclear hbatch hretention hset hrange =>
        exact .inr ⟨hclear, .inr ⟨hbatch, .inr ⟨hretention, _, hset, hrange, rfl⟩⟩⟩

/-- Settings are refused for their first fault, and for nothing else. -/
theorem ofLookup_eq_error {e : ConfigError} : ofLookup lookup = .error e ↔ Fault lookup e := by
  rw [ofLookup_eq, ← complaint?_eq_some]
  cases complaint? lookup with
  | none => simp [barring]
  | some e => simp [barring]

/-- What can be read is followed. -/
theorem follows_valueOf {α : Type} {states : List Char → α → Prop} {key : String} {default : α}
    {read : List Char → Option α} (hstates : ∀ cs v, read cs = some v → states cs v)
    (hread : ∀ raw ∈ lookup key, (read (Text.trim raw.toList)).isSome) :
    Follows lookup states key default ((valueOf lookup key read).getD default) := by
  unfold Follows valueOf
  cases hset : lookup key with
  | none => rfl
  | some raw =>
      obtain ⟨v, hv⟩ := Option.isSome_iff_exists.mp (hread raw hset)
      simp only [Option.bind_some, hv, Option.getD_some]
      exact hstates _ v hv

theorem follows_natural {key : String} {most default : Nat}
    (hclear : Setting.IsClear lookup ⟨key, .natural most⟩) :
    Follows lookup Says key default ((valueOf lookup key (natural? most)).getD default) := by
  apply follows_valueOf
  · intro cs n hn
    exact (natural?_eq_some.mp hn).1
  · intro raw hset
    exact Kind.reads_iff.mpr (hclear raw hset)

theorem follows_float {key : String} {default : Float}
    (hclear : Setting.IsClear lookup ⟨key, .float⟩) :
    Follows lookup SaysFloat key default ((valueOf lookup key float?).getD default) := by
  apply follows_valueOf
  · intro cs x hx
    exact hx
  · intro raw hset
    exact Kind.reads_iff.mpr (hclear raw hset)

/-- Of valid settings the configuration is made that they describe. -/
theorem describes_assembled (hvalid : Valid lookup) : Describes lookup (assembled lookup) := by
  have hclear := hvalid.clear
  simp only [settings, List.forall_mem_cons] at hclear
  obtain ⟨hpoll, hbatch, hsweep, hretention, hlease, hbase, hmultiplier, hcap, _⟩ := hclear
  constructor
  case pollInterval => exact ⟨_, follows_natural hpoll, Option.getD_map _ _ _⟩
  case batchSize => exact follows_natural hbatch
  case sweepInterval => exact ⟨_, follows_natural hsweep, Option.getD_map _ _ _⟩
  case retentionDays => exact follows_natural hretention
  case lease => exact ⟨_, follows_natural hlease, Option.getD_map _ _ _⟩
  case retryPolicy =>
    refine ⟨_, _, _, follows_natural hbase, follows_float hmultiplier, follows_natural hcap, ?_, ?_⟩
    · exact fun hzero => if_pos hzero
    · exact fun hpositive => if_neg (Nat.pos_iff_ne_zero.mp hpositive)

/-- The variables leave no choice. -/
theorem Describes.unique {c d : Config} (hc : Describes lookup c) (hd : Describes lookup d) :
    c = d := by
  have hpolicy : c.retryPolicy = d.retryPolicy := by
    obtain ⟨base, multiplier, cap, hbase, hmultiplier, hcap, hzero, hpositive⟩ := hc.retryPolicy
    obtain ⟨base', multiplier', cap', hbase', hmultiplier', hcap', hzero', hpositive'⟩ :=
      hd.retryPolicy
    obtain rfl := hbase.count_unique hbase'
    obtain rfl := hmultiplier.float_unique hmultiplier'
    obtain rfl := hcap.count_unique hcap'
    rcases Nat.eq_zero_or_pos base with heq | hlt
    · rw [hzero heq, hzero' heq]
    · rw [hpositive hlt, hpositive' hlt]
  cases c
  cases d
  simp only [Config.mk.injEq]
  exact ⟨Follows.made_unique hc.pollInterval hd.pollInterval,
    hc.batchSize.count_unique hd.batchSize,
    Follows.made_unique hc.sweepInterval hd.sweepInterval,
    hc.retentionDays.count_unique hd.retentionDays,
    Follows.made_unique hc.lease hd.lease, hpolicy⟩

/-- There is no waiting just if there is no base. -/
theorem Describes.immediate_iff {c : Config} (hdescribes : Describes lookup c) :
    c.retryPolicy = .immediate ↔
      lookup "OUTBOX_RETRY_BASE_MS" = none ∨ Sets lookup Says "OUTBOX_RETRY_BASE_MS" 0 := by
  obtain ⟨base, multiplier, cap, hbase, _, _, hzero, hpositive⟩ := hdescribes.retryPolicy
  rw [← hbase.eq_zero_iff]
  constructor
  · intro heq
    apply Nat.eq_zero_of_not_pos
    intro hlt
    -- a delay of that length would have to be none
    rw [hpositive hlt] at heq
    have hnanos : base * 1000000 = 0 := congrArg (·.baseDelay.nanos) heq
    omega
  · exact hzero

/-- Delays begin above zero and stay within their limit. -/
theorem Describes.exponential {c : Config} (hdescribes : Describes lookup c)
    (hnot : c.retryPolicy ≠ .immediate) : ∃ base multiplier cap,
      c.retryPolicy = .exponential base multiplier cap ∧ .zero < base ∧ base ≤ cap := by
  obtain ⟨base, multiplier, cap, _, _, _, hzero, hpositive⟩ := hdescribes.retryPolicy
  have hlt : 0 < base := Nat.pos_of_ne_zero fun heq => hnot (hzero heq)
  refine ⟨_, _, _, hpositive hlt, ?_, ?_⟩
  · change 0 < base * 1000000
    omega
  · change base * 1000000 ≤ max cap base * 1000000
    exact Nat.mul_le_mul_right _ (Nat.le_max_right cap base)

/-- A configuration is made of valid settings only, and is the one that they describe. -/
theorem ofLookup_eq_ok {c : Config} :
    ofLookup lookup = .ok c ↔ Valid lookup ∧ Describes lookup c := by
  rw [ofLookup_eq, ← complaint?_eq_none]
  cases hcomplaint : complaint? lookup with
  | none =>
      have hassembled := describes_assembled (complaint?_eq_none.mp hcomplaint)
      simp only [barring, Except.ok.injEq, true_and]
      constructor
      · intro heq
        rwa [← heq]
      · exact hassembled.unique
  | some e => simp [barring]

theorem retentionDays_pos {c : Config} (hconfig : ofLookup lookup = .ok c) :
    1 ≤ c.retentionDays := by
  obtain ⟨hvalid, hdescribes⟩ := ofLookup_eq_ok.mp hconfig
  exact hdescribes.retentionDays.pos (by decide) hvalid.retentionDays

end Reading

/-- A configuration is accepted just if the variables are valid, and is then the one that they
describe: batches are not empty, messages are kept for a day at least, and a policy that waits at
all begins with a delay within its limit. An error is reported just if it is the first fault. -/
theorem ofLookup_accepts_valid (lookup : String → Option String) :
    ((∃ c, ofLookup lookup = .ok c) ↔ Valid lookup) ∧
      (∀ c, ofLookup lookup = .ok c ↔ Valid lookup ∧ Describes lookup c) ∧
      (∀ c, ofLookup lookup = .ok c → 1 ≤ c.batchSize ∧ 1 ≤ c.retentionDays ∧
        (c.retryPolicy = .immediate ↔
          lookup "OUTBOX_RETRY_BASE_MS" = none ∨ Sets lookup Says "OUTBOX_RETRY_BASE_MS" 0) ∧
        (c.retryPolicy ≠ .immediate → ∃ base multiplier cap,
          c.retryPolicy = .exponential base multiplier cap ∧ .zero < base ∧ base ≤ cap)) ∧
      ∀ e, ofLookup lookup = .error e ↔ Fault lookup e := by
  refine ⟨?_, fun c => ofLookup_eq_ok, ?_, fun e => ofLookup_eq_error⟩
  · simp only [ofLookup_eq_ok]
    exact ⟨fun ⟨_, hvalid, _⟩ => hvalid, fun hvalid => ⟨_, hvalid, describes_assembled hvalid⟩⟩
  · intro c hc
    obtain ⟨hvalid, hdescribes⟩ := ofLookup_eq_ok.mp hc
    exact ⟨hdescribes.batchSize.pos (by decide) hvalid.batchSize, retentionDays_pos hc,
      hdescribes.immediate_iff, hdescribes.exponential⟩

/-- The limit is less than the base, and there are blanks around the base. -/
def hurried (key : String) : Option String :=
  if key = "OUTBOX_RETRY_BASE_MS" then some " +1000\n"
  else if key = "OUTBOX_RETRY_MAX_MS" then some "60"
  else none

/-- There are no batches, and the lease is no number. -/
def confused (key : String) : Option String :=
  if key = "OUTBOX_BATCH_SIZE" then some "0"
  else if key = "OUTBOX_LEASE_SECS" then some " soon "
  else none

/-- The limit is raised to the base, and a text is complained about before a number. -/
theorem ofLookup_accepts_valid_hurried :
    ofLookup hurried = .ok { default with
      retryPolicy := .exponential (.ofSeconds 1) 2.0 (.ofSeconds 1) } ∧
      ofLookup confused = .error ⟨"OUTBOX_LEASE_SECS", " soon "⟩ := by
  obtain ⟨_, haccepts, _⟩ := ofLookup_accepts_valid hurried
  obtain ⟨_, _, _, hrefuses⟩ := ofLookup_accepts_valid confused
  constructor
  · refine (haccepts _).mpr ⟨⟨by decide +kernel, ?_, ?_, ?_⟩, ⟨⟨2000, rfl, rfl⟩, rfl,
      ⟨3600, rfl, rfl⟩, rfl, ⟨30, rfl, rfl⟩, 1000, 2.0, 60, ?_, rfl, ?_, ?_, fun _ => rfl⟩⟩
    · rintro ⟨_, ⟨⟩, _⟩
    · rintro ⟨_, ⟨⟩, _⟩
    · rintro x ⟨_, ⟨⟩, _⟩
    · exact (natural?_eq_some.mp (by decide +kernel : natural? 1000 _ = some 1000)).1
    · exact (natural?_eq_some.mp (by decide +kernel : natural? 60 _ = some 60)).1
    · exact fun hzero => nomatch hzero
  · have hunreadable : ¬ (Kind.natural most64).Spells (Text.trim " soon ".toList) := by
      decide +kernel
    have hbefore : ∀ earlier ∈ settings.take 4, earlier.IsClear confused := by decide +kernel
    have horder : settings =
        settings.take 4 ++ ⟨"OUTBOX_LEASE_SECS", .natural most64⟩ :: settings.drop 5 := rfl
    exact (hrefuses _).mpr (.garbled horder hbefore rfl hunreadable)

end Config

end Outbox
