import Outbox.Postgres.Store
import Outbox.Proofs.Claiming
import Outbox.Proofs.Columns
import Outbox.Proofs.Scripts
import Mathlib.Data.List.Perm.Basic

/-! # The rows that answer a fetch

The database returns the rows that it claimed in no particular order. A fetch refuses all of them if
one of them is corrupt, and complains about the first such row. Otherwise it returns their messages
in the order of delivery, in which the order of the rows has left no trace.
-/

namespace Outbox

section Traversal

variable {ε α β : Type} {f : α → Except ε β}

theorem mapM_cons (x : α) (xs : List α) :
    (x :: xs).mapM f = (f x).bind fun y => (xs.mapM f).map (y :: ·) := by
  rw [List.mapM_cons]
  cases f x with
  | error e => rfl
  | ok y => cases xs.mapM f <;> rfl

theorem mapM_eq_ok {xs : List α} {ys : List β} :
    xs.mapM f = .ok ys ↔ List.Forall₂ (fun x y => f x = .ok y) xs ys := by
  constructor
  · intro hmap
    induction xs generalizing ys with
    | nil =>
        cases hmap
        exact .nil
    | cons x xs ih =>
        rw [mapM_cons] at hmap
        cases hx : f x with
        | error e =>
            rw [hx] at hmap
            cases hmap
        | ok y =>
            cases hxs : xs.mapM f with
            | error e =>
                rw [hx, hxs] at hmap
                cases hmap
            | ok rest =>
                rw [hx, hxs] at hmap
                cases hmap
                exact .cons hx (ih hxs)
  · intro hall
    induction hall with
    | nil => rfl
    | cons hx _ ih =>
        rw [mapM_cons, hx, ih]
        rfl

/-- The first element that fails decides how it fails. -/
theorem mapM_eq_error {xs : List α} {e : ε} :
    xs.mapM f = .error e ↔ ∃ before x after, xs = before ++ x :: after ∧
      (∀ b ∈ before, ∃ y, f b = .ok y) ∧ f x = .error e := by
  constructor
  · intro hmap
    induction xs with
    | nil => cases hmap
    | cons x xs ih =>
        rw [mapM_cons] at hmap
        cases hx : f x with
        | error e' =>
            rw [hx] at hmap
            cases hmap
            exact ⟨[], x, xs, rfl, by simp, hx⟩
        | ok y =>
            cases hxs : xs.mapM f with
            | ok rest =>
                rw [hx, hxs] at hmap
                cases hmap
            | error e' =>
                rw [hx, hxs] at hmap
                cases hmap
                obtain ⟨before, b, after, rfl, hbefore, hb⟩ := ih hxs
                refine ⟨x :: before, b, after, rfl, ?_, hb⟩
                exact List.forall_mem_cons.mpr ⟨⟨y, hx⟩, hbefore⟩
  · rintro ⟨before, x, after, rfl, hbefore, hx⟩
    induction before with
    | nil =>
        rw [List.nil_append, mapM_cons, hx]
        rfl
    | cons b before ih =>
        obtain ⟨⟨y, hb⟩, hrest⟩ := List.forall_mem_cons.mp hbefore
        rw [List.cons_append, mapM_cons, hb, Except.bind, ih hrest]
        rfl

end Traversal

/-- The schedule decides, then the creation, then the id. -/
theorem Message.scheduledBefore_iff_not_deliveredBefore {a b : Message} :
    a.scheduledBefore b ↔ ¬ b.DeliveredBefore a := by
  rw [scheduledBefore_iff, DeliveredBefore, Instant.lt_iff, Instant.lt_iff, ← Instant.rank_inj,
    ← Instant.rank_inj]
  change _ ↔ ¬ (_ ∨ _ ∧ (_ ∨ _ ∧ b.id.ulid.value < a.id.ulid.value))
  omega

namespace Postgres

/-- The row of a record, with nothing left out. -/
def Record.cells (r : Record) : RecordCells :=
  ⟨some r.id, some r.messageType, some r.content, some r.createdAt, some r.scheduledAt,
    r.processedAt, r.error, some r.retryCount⟩

namespace Store

theorem messagesOf_cells (records : List Record) :
    messagesOf (records.map Record.cells) = records.mapM Record.toMessage := by
  have hread : (records.map Record.cells).mapM RecordCells.read = .ok records := by
    rw [mapM_eq_ok, List.forall₂_map_left_iff, List.forall₂_same]
    intro r _
    rfl
  rw [messagesOf, hread]
  rfl

section Fetch

variable {σ : Type} {send : Connection (StateM σ)} {claim : ClaimToken} {limit : Nat}
  {now : Instant} {lease : Duration} {db : σ} {records : List Record}

/-- The database answers what is sent for a fetch with these records, in this order, and with all
their columns. -/
def Returns (send : Connection (StateM σ)) (claim : ClaimToken) (limit : Nat) (now : Instant)
    (lease : Duration) (db : σ) (records : List Record) : Prop :=
  (send (.fetch now (now.plusOrSelf lease) limit claim) db).1 = .ok (records.map Record.cells)

/-- A fetch reads the records that come back, and sorts what it has read. -/
theorem fetch_eq (hreturns : Returns send claim limit now lease db records) :
    (fetch send claim limit now lease db).1 =
      (records.mapM Record.toMessage).map (·.mergeSort Message.scheduledBefore) := by
  have hfetch : (fetch send claim limit now lease db).1 = (do
      let messages ← messagesOf
        (← (send (.fetch now (now.plusOrSelf lease) limit claim) db).1.mapError Failure.database)
      return messages.mergeSort Message.scheduledBefore) := rfl
  rw [hfetch, hreturns]
  change messagesOf (records.map Record.cells) >>= _ = _
  rw [messagesOf_cells]
  cases records.mapM Record.toMessage <;> rfl

/-- A fetch fails with the complaint of the first record that is corrupt, and for nothing else. -/
theorem fetch_eq_error (hreturns : Returns send claim limit now lease db records) {e : Failure} :
    (fetch send claim limit now lease db).1 = .error e ↔
      ∃ before r after, records = before ++ r :: after ∧ (∀ b ∈ before, ¬ b.IsCorrupt) ∧
        r.Complains e := by
  have herror : (fetch send claim limit now lease db).1 = .error e ↔
      records.mapM Record.toMessage = .error e := by
    rw [fetch_eq hreturns]
    cases records.mapM Record.toMessage <;> simp [Except.map]
  rw [herror, mapM_eq_error]
  simp only [Record.toMessage_eq_ok, Record.toMessage_eq_error, Record.not_isCorrupt_iff]

/-- A fetch returns what the records show, sorted. -/
theorem fetch_eq_ok (hreturns : Returns send claim limit now lease db records)
    {batch : List Message} :
    (fetch send claim limit now lease db).1 = .ok batch ↔
      ∃ shown, List.Forall₂ Record.Shows records shown ∧
        shown.mergeSort Message.scheduledBefore = batch := by
  have hok : (fetch send claim limit now lease db).1 = .ok batch ↔
      ∃ shown, records.mapM Record.toMessage = .ok shown ∧
        shown.mergeSort Message.scheduledBefore = batch := by
    rw [fetch_eq hreturns]
    cases records.mapM Record.toMessage <;> simp [Except.map]
  simp only [hok, mapM_eq_ok, Record.toMessage_eq_ok]

theorem not_isCorrupt_of_shown {shown : List Message}
    (hall : List.Forall₂ Record.Shows records shown) : ∀ r ∈ records, ¬ r.IsCorrupt := by
  induction hall with
  | nil => simp
  | cons hshows _ ih =>
      exact List.forall_mem_cons.mpr ⟨Record.not_isCorrupt_iff.mpr ⟨_, hshows⟩, ih⟩

/-- A fetch fails just if one of the rows is corrupt. It fails with the complaint about the first
such row, which is about the id if that is no ULID, and otherwise about the retry count. When it
does not fail, it returns the messages of the rows, each as often as there are rows for it, and no
message stands behind one that is delivered after it. If the messages have different ids, then the
same rows in any other order lead to the same batch, and in any case a fetch in memory that returns
these messages returns them in the same order. Ids are compared as they are read: two texts may
spell the same one. -/
theorem fetch_sorts_or_refuses (hreturns : Returns send claim limit now lease db records) :
    let result := (fetch send claim limit now lease db).1
    ((∃ e, result = .error e) ↔ ∃ r ∈ records, r.IsCorrupt) ∧
    (∀ e, result = .error e → ∃ before r after, records = before ++ r :: after ∧
      (∀ b ∈ before, ¬ b.IsCorrupt) ∧ r.Complains e) ∧
    ∀ batch, result = .ok batch →
      (∃ shown, List.Forall₂ Record.Shows records shown ∧ batch.Perm shown) ∧
      batch.Pairwise (fun a b => ¬ b.DeliveredBefore a) ∧
      ((batch.map Message.id).Nodup →
        ∀ (σ' : Type) (send' : Connection (StateM σ')) claim' limit' now' lease' db' records',
          Returns send' claim' limit' now' lease' db' records' → records'.Perm records →
          (fetch send' claim' limit' now' lease' db').1 = .ok batch) ∧
      ∀ (t : Table) claim' limit' now' lease' batch',
        (t.answer (.fetch claim' limit' now' lease')).1 = .ok batch' → batch'.Perm batch →
        batch' = batch := by
  intro result
  refine ⟨⟨?_, ?_⟩, fun e => (fetch_eq_error hreturns).mp, ?_⟩
  · rintro ⟨e, herror⟩
    obtain ⟨before, r, after, rfl, _, hcomplains⟩ := (fetch_eq_error hreturns).mp herror
    exact ⟨r, by simp, Record.isCorrupt_iff.mpr ⟨e, hcomplains⟩⟩
  · rintro ⟨r, hmem, hcorrupt⟩
    cases hresult : result with
    | error e => exact ⟨e, rfl⟩
    | ok batch =>
        -- there is a batch only if every row shows a message
        obtain ⟨shown, hall, _⟩ := (fetch_eq_ok hreturns).mp hresult
        exact absurd hcorrupt (not_isCorrupt_of_shown hall r hmem)
  · intro batch hbatch
    obtain ⟨shown, hall, rfl⟩ := (fetch_eq_ok hreturns).mp hbatch
    have hperm := List.mergeSort_perm shown Message.scheduledBefore
    have hsorted := Message.sorted_mergeSort shown
    refine ⟨⟨shown, hall, hperm⟩, ?_, ?_, ?_⟩
    · exact hsorted.imp Message.scheduledBefore_iff_not_deliveredBefore.mp
    · intro hids σ' send' claim' limit' now' lease' db' records' hreturns' hrecords
      obtain ⟨shown', hall', hshown⟩ := List.perm_comp_forall₂ hrecords hall
      rw [(hperm.map Message.id).nodup_iff] at hids
      exact (fetch_eq_ok hreturns').mpr
        ⟨shown', hall', Message.mergeSort_eq_of_perm hshown hids⟩
    · intro t claim' limit' now' lease' batch' hfetched hsame
      obtain rfl : t.fetched limit' now' = batch' := Except.ok.inj hfetched
      have hids := t.fetched_nodup limit' now'
      rw [(hsame.map Message.id).nodup_iff] at hids
      refine Message.eq_of_perm_of_sorted hsame hids ?_ hsorted
      exact (t.claimable_pairwise now').sublist (List.take_sublist limit' _)

end Fetch

/-- A database that returns all of its records for any fetch, and answers nothing else. -/
def handOut : Connection (StateM (List Record))
  | .fetch .. => fun db => (.ok (db.map Record.cells), db)
  | _ => fun db => (.error .closed, db)

/-- Of two records in the wrong order, the one that is scheduled later has the lesser id. They come
into the right order, as they do from the right order. With a third one that is corrupt in both ways
and a fourth one with a negative count, the id of the third is complained about. -/
theorem fetch_sorts_or_refuses_mixed :
    let late := Message.numbered 1 "order" (.numbered 5)
    let early := Message.numbered 2 "order" .epoch
    let negative : Record := { Record.ofMessage early with retryCount := -1 }
    let broken : Record := { negative with id := "nope" }
    let fetched (records : List Record) :=
      (fetch handOut (.numbered 3) 10 .epoch (.ofSeconds 30) records).1
    fetched [.ofMessage late, .ofMessage early] = .ok [early, late] ∧
      fetched [.ofMessage early, .ofMessage late] = .ok [early, late] ∧
      fetched [.ofMessage early, broken, negative] =
        .error (.corruptRow "id 'nope': invalid length") := by
  intro late early negative broken fetched
  have hreturns (records : List Record) :
      Returns handOut (.numbered 3) 10 .epoch (.ofSeconds 30) records records := rfl
  have hsound (m : Message) (hcount : m.retryCount = 0) : (Record.ofMessage m).Shows m :=
    Record.shows_ofMessage (by rw [hcount]; rfl)
  have hbroken : MessageId.ofText broken.id = .error .invalidLength := by decide +kernel
  have hsorted : [late, early].mergeSort Message.scheduledBefore = [early, late] :=
    Message.eq_of_perm_of_sorted ((List.mergeSort_perm _ _).trans (.swap ..)) (by decide)
      (Message.sorted_mergeSort _) (by decide)
  have hlate : fetched [.ofMessage late, .ofMessage early] = .ok [early, late] :=
    (fetch_eq_ok (hreturns _)).mpr
      ⟨[late, early], .cons (hsound late rfl) (.cons (hsound early rfl) .nil), hsorted⟩
  obtain ⟨_, _, hbatch⟩ := fetch_sorts_or_refuses (hreturns [.ofMessage late, .ofMessage early])
  obtain ⟨_, _, hagain, _⟩ := hbatch [early, late] hlate
  obtain ⟨hiff, hfirst, _⟩ :=
    fetch_sorts_or_refuses (hreturns [.ofMessage early, broken, negative])
  refine ⟨hlate, hagain (by decide) _ _ _ _ _ _ _ _ (hreturns _) (.swap ..), ?_⟩
  obtain ⟨e, herror⟩ := hiff.mpr ⟨broken, by simp, .inr (by decide)⟩
  obtain ⟨before, r, after, hsplit, hbefore, hcomplains⟩ := hfirst e herror
  have hr : broken = r := by
    rcases before with _ | ⟨b, _ | ⟨c, before⟩⟩
    · have hhead : Record.ofMessage early = r := (List.cons.inj hsplit).1
      rw [← hhead] at hcomplains
      exact absurd (Record.isCorrupt_iff.mpr ⟨e, hcomplains⟩)
        (Record.not_isCorrupt_iff.mpr ⟨early, hsound early rfl⟩)
    · exact (List.cons.inj (List.cons.inj hsplit).2).1
    · have hsecond : broken = c := (List.cons.inj (List.cons.inj hsplit).2).1
      exact absurd (.inr (by decide)) (hsecond ▸ hbefore c (by simp))
  rw [← hr] at hcomplains
  cases hcomplains with
  | id hid =>
      obtain rfl := Except.error.inj (hbroken.symm.trans hid)
      exact herror
  | retryCount hid _ => cases hbroken.symm.trans hid

end Store

end Postgres

end Outbox
