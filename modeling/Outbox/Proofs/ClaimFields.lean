import Outbox.Proofs.Rows

/-! # A claim in two fields

A row can have its claim in two fields, one for the holder and one for the end of the lease, and
nothing in the type of such a row says that they go together. Rows are kept in a map, under keys
that need not be the ids of their messages. The operations find a row by its key and write its
fields one by one.

The table with one lease for both fields answers every call alike, and each operation keeps the map
the same as the table. So from an empty map on both fields of every row are set, or neither is, and
every row is under its own id.
-/

namespace Outbox

structure Cell where
  message : Message
  claimedBy : Option ClaimToken
  lockedUntil : Option Instant
  deriving DecidableEq

namespace Cell

/-- Who has the claim does not matter here. -/
def isClaimable (c : Cell) (now : Instant) : Bool :=
  c.message.isDue now && c.lockedUntil.all fun ends => ends ≤ now

/-- Whether the lease has ended does not matter here. -/
def isHeldBy (c : Cell) (claim : ClaimToken) : Bool :=
  !c.message.isProcessed && c.claimedBy == some claim

def claimFor (c : Cell) (claim : ClaimToken) : Cell := { c with claimedBy := some claim }

def lockUntil (c : Cell) (ends : Instant) : Cell := { c with lockedUntil := some ends }

def unclaim (c : Cell) : Cell :=
  let unowned := { c with claimedBy := none }
  { unowned with lockedUntil := none }

theorem isHeldBy_lockUntil (c : Cell) (ends : Instant) (claim : ClaimToken) :
    (c.lockUntil ends).isHeldBy claim = c.isHeldBy claim := rfl

theorem not_isHeldBy_unclaim (c : Cell) (claim : ClaimToken) :
    c.unclaim.isHeldBy claim = false := Bool.and_false _

end Cell

/-- Rows by their keys. -/
@[ext] structure Cells where
  entries : List (MessageId × Cell)
  distinctKeys : (entries.map Prod.fst).Nodup

namespace Cells

def empty : Cells := ⟨[], List.nodup_nil⟩

def find? (s : Cells) (key : MessageId) : Option Cell :=
  (s.entries.find? fun e => e.1 == key).map Prod.snd

def messages (s : Cells) : List Message := s.entries.map fun e => e.2.message

/-- Changes rows, but not their keys. -/
def mapCells (s : Cells) (f : MessageId → Cell → Cell) : Cells where
  entries := s.entries.map fun e => (e.1, f e.1 e.2)
  distinctKeys := by
    rw [List.map_map]
    exact s.distinctKeys

/-- Changes the row under a key, if there is one. -/
def alter (s : Cells) (key : MessageId) (f : Cell → Cell) : Cells :=
  s.mapCells fun k c => if k = key then f c else c

/-- Changes the row under a key, if there is one and the claim holds it. -/
def alterHeld (s : Cells) (claim : ClaimToken) (key : MessageId) (f : Cell → Cell) : Cells :=
  if (s.find? key).any (·.isHeldBy claim) then s.alter key f else s

/-- Puts a row under a key, in the place of one that is there. -/
def insert (s : Cells) (key : MessageId) (c : Cell) : Cells :=
  if htaken : key ∈ s.entries.map Prod.fst then s.alter key fun _ => c
  else {
    entries := s.entries ++ [(key, c)]
    distinctKeys := by
      rw [List.map_append, List.nodup_append]
      refine ⟨s.distinctKeys, List.nodup_singleton key, ?_⟩
      rintro a ha b hb rfl
      obtain rfl : a = key := List.mem_singleton.mp hb
      exact htaken ha }

def filterCells (s : Cells) (p : Cell → Bool) : Cells where
  entries := s.entries.filter fun e => p e.2
  distinctKeys := s.distinctKeys.sublist (List.filter_sublist.map Prod.fst)

/-! ### The operations -/

/-- Claims the first rows that can be claimed, one after the other. -/
def fetch (s : Cells) (claim : ClaimToken) (limit : Nat) (now : Instant) (lease : Duration) :
    List Message × Cells :=
  let due := ((s.entries.filter fun e => e.2.isClaimable now).mergeSort fun a b =>
    a.2.message.scheduledBefore b.2.message).take limit
  (due.map fun e => e.2.message, due.foldl (fun s e =>
    (s.alter e.1 (·.claimFor claim)).alter e.1 (·.lockUntil (now.plusOrSelf lease))) s)

/-- Goes through the ids, and moves the end of the lease where the row is held. -/
def renew (claim : ClaimToken) (ends : Instant) : List MessageId → Cells → List MessageId × Cells
  | [], s => ([], s)
  | id :: ids, s =>
      let (renewed, after) := renew claim ends ids (s.alterHeld claim id (·.lockUntil ends))
      (if (s.find? id).any (·.isHeldBy claim) then id :: renewed else renewed, after)

/-- Records the outcome of an attempt in the message, and gives up the claim on it. -/
def mark (s : Cells) (claim : ClaimToken) (id : MessageId) (record : Message → Message) :
    Except Failure Unit × Cells :=
  match s.find? id with
  | none => (.error (.notFound id), s)
  | some c =>
      if c.message.isProcessed then (.ok (), s)
      else if c.isHeldBy claim then
        let marked := s.alter id fun c => { c with message := record c.message }
        (.ok (), marked.alter id Cell.unclaim)
      else (.error (.claimLost id), s)

/-- Goes through the ids, and gives up the claim where the row is held. -/
def release (s : Cells) (claim : ClaimToken) (ids : List MessageId) : Cells :=
  ids.foldl (fun s id => s.alterHeld claim id Cell.unclaim) s

def deleteProcessed (s : Cells) (cutoff : Instant) : Nat × Cells :=
  let kept := s.filterCells fun c => c.message.processedAt.all fun time => cutoff ≤ time
  (s.entries.length - kept.entries.length, kept)

def failing (s : Cells) (minRetryCount : UInt32) (limit : Nat) : List Message :=
  ((s.messages.filter fun m =>
    !m.isProcessed && 0 < m.retryCount && minRetryCount ≤ m.retryCount).mergeSort
      Message.worseThan).take limit

/-- The answer to a call, and the rows after it. -/
def answer (s : Cells) : (call : StoreCall) → Except Failure call.Reply × Cells
  | .fetch claim limit now lease =>
      let (batch, s) := s.fetch claim limit now lease
      (.ok batch, s)
  | .renew claim ids now lease =>
      let (renewed, s) := renew claim (now.plusOrSelf lease) ids s
      (.ok renewed, s)
  | .markProcessed claim id time => s.mark claim id (·.markProcessed time)
  | .markFailed claim id error nextRun => s.mark claim id (·.markFailed error nextRun)
  | .release claim ids => (.ok (), s.release claim ids)
  | .deleteProcessed cutoff =>
      let (count, s) := s.deleteProcessed cutoff
      (.ok count, s)
  | .get id => (.ok ((s.find? id).map Cell.message), s)
  | .failing minRetryCount limit => (.ok (s.failing minRetryCount limit), s)
  | .counts => (.ok (.ofMessages s.messages), s)

/-- The rows with everything staged, or the reason why nothing of it can be added. Rows are inserted
one after the other. -/
def commit (s : Cells) (u : UnitOfWork) : Except Failure Cells :=
  match u.messages.find? fun m => (s.find? m.id).isSome with
  | some m => .error (.duplicateId m.id)
  | none => .ok (u.messages.foldl (fun s m => s.insert m.id ⟨m, none, none⟩) s)

end Cells

/-- What is done to a store: a unit of work is committed, or a call is made. -/
inductive Operation
  | commit (u : UnitOfWork)
  | call (c : StoreCall)

/-- The table after an operation. A unit of work that is refused leaves it as it is. -/
def Table.perform (t : Table) : Operation → Table
  | .commit u => (u.commit t).toOption.getD t
  | .call c => (t.answer c).2

def Cells.perform (s : Cells) : Operation → Cells
  | .commit u => (s.commit u).toOption.getD s
  | .call c => (s.answer c).2

/-! ### Loops over rows -/

namespace Cells

variable {s : Cells} {key : MessageId} {c : Cell} {claim : ClaimToken}

theorem mapCells_mapCells (s : Cells) (f g : MessageId → Cell → Cell) :
    (s.mapCells f).mapCells g = s.mapCells fun k c => g k (f k c) := by
  ext1
  simp only [mapCells, List.map_map]
  rfl

theorem mapCells_congr {f g : MessageId → Cell → Cell}
    (heq : ∀ e ∈ s.entries, f e.1 e.2 = g e.1 e.2) : s.mapCells f = s.mapCells g := by
  ext1
  exact List.map_congr_left fun e he => congrArg (Prod.mk e.1) (heq e he)

theorem mapCells_self (s : Cells) : s.mapCells (fun _ c => c) = s := by
  ext1
  exact List.map_id _

theorem find?_mapCells (s : Cells) (f : MessageId → Cell → Cell) (key : MessageId) :
    (s.mapCells f).find? key = (s.find? key).map (f key) := by
  simp only [find?, mapCells, List.find?_map, Option.map_map]
  cases hfind : s.entries.find? ((fun e => e.1 == key) ∘ fun e => (e.1, f e.1 e.2)) with
  | none =>
      have hnone : s.entries.find? (fun e => e.1 == key) = none := hfind
      rw [hnone]
      rfl
  | some e =>
      have hsome : s.entries.find? (fun e => e.1 == key) = some e := hfind
      obtain rfl : e.1 = key := by simpa using List.find?_some hsome
      rw [hsome]
      rfl

theorem find?_of_mem {e : MessageId × Cell} (hmem : e ∈ s.entries) : s.find? e.1 = some e.2 := by
  cases hfind : s.entries.find? fun other => other.1 == e.1 with
  | none =>
      have hnone := List.find?_eq_none.mp hfind e hmem
      simp at hnone
  | some other =>
      -- keys are distinct, so what is found is the entry itself
      have hother := List.mem_of_find?_eq_some hfind
      have hsame : other.1 = e.1 := by simpa using List.find?_some hfind
      rw [find?, hfind, List.inj_on_of_nodup_map s.distinctKeys hother hmem hsame]
      rfl

/-- Changing a cell if the claim holds it, as one pass over the map. -/
theorem alterHeld_eq (s : Cells) (claim : ClaimToken) (key : MessageId) (f : Cell → Cell) :
    s.alterHeld claim key f =
      s.mapCells fun k c => if k = key ∧ c.isHeldBy claim then f c else c := by
  unfold alterHeld
  split
  next hheld =>
    refine mapCells_congr fun e he => ?_
    by_cases hkey : e.1 = key
    · rw [← hkey, find?_of_mem he, Option.any_some] at hheld
      simp [hkey, hheld]
    · simp [hkey]
  next hfree =>
    refine s.mapCells_self.symm.trans (mapCells_congr fun e he => ?_)
    rw [if_neg]
    rintro ⟨rfl, hheld⟩
    rw [find?_of_mem he, Option.any_some] at hfree
    exact hfree hheld

/-- Going through the ids comes to one pass over the rows. -/
theorem release_eq (s : Cells) (claim : ClaimToken) (ids : List MessageId) :
    s.release claim ids =
      s.mapCells fun k c => if k ∈ ids ∧ c.isHeldBy claim then c.unclaim else c := by
  induction ids generalizing s with
  | nil =>
      refine s.mapCells_self.symm.trans (mapCells_congr fun e he => ?_)
      simp
  | cons id ids ih =>
      rw [release, List.foldl_cons, ← release, ih, alterHeld_eq, mapCells_mapCells]
      refine mapCells_congr fun e he => ?_
      by_cases hkey : e.1 = id <;> by_cases hheld : e.2.isHeldBy claim <;>
        simp [hkey, hheld, Cell.not_isHeldBy_unclaim]

/-- Moving the end of a lease does not change who holds it. -/
theorem any_isHeldBy_alterHeld (s : Cells) (claim : ClaimToken) (id key : MessageId)
    (ends : Instant) :
    ((s.alterHeld claim id (·.lockUntil ends)).find? key).any (·.isHeldBy claim) =
      (s.find? key).any (·.isHeldBy claim) := by
  rw [alterHeld_eq, find?_mapCells, Option.any_map]
  refine congrArg (Option.any · (s.find? key)) (funext fun c => ?_)
  change Cell.isHeldBy (if _ then _ else _) claim = _
  split
  next => exact c.isHeldBy_lockUntil ends claim
  next => rfl

/-- The loop over the ids returns those that the claim held at the start, and moves the end of each
of them: an id that comes twice is still held the second time. -/
theorem renew_eq (claim : ClaimToken) (ends : Instant) (ids : List MessageId) (s : Cells) :
    renew claim ends ids s = (ids.filter fun id => (s.find? id).any (·.isHeldBy claim),
      s.mapCells fun k c => if k ∈ ids ∧ c.isHeldBy claim then c.lockUntil ends else c) := by
  induction ids generalizing s with
  | nil =>
      refine congrArg (Prod.mk []) (s.mapCells_self.symm.trans (mapCells_congr fun e he => ?_))
      simp
  | cons id ids ih =>
      simp only [renew, ih, any_isHeldBy_alterHeld, List.filter_cons]
      refine congrArg (Prod.mk _) ?_
      rw [alterHeld_eq, mapCells_mapCells]
      refine mapCells_congr fun e he => ?_
      by_cases hkey : e.1 = id <;> by_cases hheld : e.2.isHeldBy claim <;>
        simp [hkey, hheld, Cell.lockUntil]

/-- Setting the holder and the end for one row after the other comes to the same as one pass. -/
theorem claim_eq (claim : ClaimToken) (ends : Instant) (due : List (MessageId × Cell))
    (s : Cells) :
    due.foldl (fun s e => (s.alter e.1 (·.claimFor claim)).alter e.1 (·.lockUntil ends)) s =
      s.mapCells fun k c =>
        if k ∈ due.map Prod.fst then (c.claimFor claim).lockUntil ends else c := by
  induction due generalizing s with
  | nil =>
      refine s.mapCells_self.symm.trans (mapCells_congr fun e he => ?_)
      simp
  | cons e due ih =>
      rw [List.foldl_cons, ih, alter, alter, mapCells_mapCells, mapCells_mapCells]
      refine mapCells_congr fun other _ => ?_
      by_cases hkey : other.1 = e.1 <;> by_cases hmem : other.1 ∈ due.map Prod.fst <;>
        simp_all [Cell.claimFor, Cell.lockUntil]

/-- New messages are entered one after the other, unclaimed. -/
theorem entries_foldl_insert (s : Cells) {messages : List Message}
    (hfresh : ∀ m ∈ messages, m.id ∉ s.entries.map Prod.fst)
    (hdistinct : (messages.map Message.id).Nodup) :
    (messages.foldl (fun s m => s.insert m.id ⟨m, none, none⟩) s).entries =
      s.entries ++ messages.map fun m => (m.id, ⟨m, none, none⟩) := by
  induction messages generalizing s with
  | nil => simp
  | cons m messages ih =>
      obtain ⟨hnot, hrest⟩ := List.nodup_cons.mp hdistinct
      have hinsert : s.insert m.id ⟨m, none, none⟩ = ⟨s.entries ++ [(m.id, ⟨m, none, none⟩)], _⟩ :=
        dif_neg (hfresh m List.mem_cons_self)
      rw [List.foldl_cons, hinsert, ih _ ?_ hrest, List.append_assoc]
      · rfl
      · intro other hother hmem
        simp only [List.map_append, List.mem_append, List.map_cons, List.map_nil,
          List.mem_singleton] at hmem
        rcases hmem with hold | hnew
        · exact hfresh other (List.mem_cons_of_mem m hother) hold
        · exact hnot (hnew ▸ List.mem_map_of_mem hother)

end Cells

/-! ### The rows of a table as cells -/

namespace Table

/-- The rows of the messages that a fetch returns. -/
def dueRows (t : Table) (limit : Nat) (now : Instant) : List Row :=
  ((t.rows.filter (·.isClaimable now)).mergeSort fun a b =>
    a.message.scheduledBefore b.message).take limit

/-- The rows that are due are those of the messages that a fetch returns. -/
theorem map_message_dueRows (t : Table) (limit : Nat) (now : Instant) :
    (t.dueRows limit now).map Row.message = t.fetched limit now := by
  rw [dueRows, List.map_take]
  exact congrArg (List.take limit) (List.map_mergeSort fun a _ b _ => rfl)

end Table

namespace Row

def cell (r : Row) : Cell := ⟨r.message, r.claimedBy, r.lockedUntil⟩

theorem isClaimable_cell (r : Row) (now : Instant) :
    r.cell.isClaimable now = r.isClaimable now := by
  simp [Cell.isClaimable, isClaimable, cell, lockedUntil, Option.all_map]

theorem isHeldBy_cell (r : Row) (claim : ClaimToken) :
    r.cell.isHeldBy claim = r.isHeldBy claim := by
  obtain ⟨m, _ | l⟩ := r
  · rfl
  · simp [Cell.isHeldBy, isHeldBy, cell, claimedBy]

/-- The lease of a row is given by setting the holder and then the end. -/
theorem cell_claimFor (r : Row) (claim : ClaimToken) (ends : Instant) :
    (r.claimFor claim ends).cell = (r.cell.claimFor claim).lockUntil ends := rfl

theorem cell_unclaim (r : Row) : r.unclaim.cell = r.cell.unclaim := rfl

/-- Only of a row that has a lease can the end be moved. -/
theorem cell_extend {r : Row} {claim : ClaimToken} (hheld : r.isHeldBy claim) (ends : Instant) :
    (r.extend ends).cell = r.cell.lockUntil ends := by
  obtain ⟨_, l, hl, _⟩ := isHeldBy_iff.mp hheld
  simp [cell, extend, Cell.lockUntil, claimedBy, lockedUntil, hl]

end Row

namespace Cells

def ofTable (t : Table) : Cells where
  entries := t.rows.map fun r => (r.id, r.cell)
  distinctKeys := by
    rw [List.map_map]
    exact t.distinctIds

/-- A row of the table is found in the map under its id. -/
theorem find?_ofTable (t : Table) (id : MessageId) :
    (ofTable t).find? id = (t.row? id).map Row.cell := by
  simp only [find?, ofTable, List.find?_map, Option.map_map]
  rfl

theorem any_isHeldBy_ofTable (t : Table) (id : MessageId) (claim : ClaimToken) :
    ((ofTable t).find? id).any (·.isHeldBy claim) = (t.row? id).any (·.isHeldBy claim) := by
  rw [find?_ofTable, Option.any_map]
  exact congrArg (Option.any · (t.row? id)) (funext fun r => r.isHeldBy_cell claim)

theorem messages_ofTable (t : Table) : (ofTable t).messages = t.messages := by
  rw [messages, ofTable, List.map_map]
  rfl

/-- A pass over the rows of the table is a pass over the cells that does the same to each. -/
theorem ofTable_mapRowsWhere (t : Table) (p : Row → Bool) (f : Row → Row)
    (keepsId : ∀ r, (f r).id = r.id) {g : MessageId → Cell → Cell}
    (hsame : ∀ r, (if p r then f r else r).cell = g r.id r.cell) :
    ofTable (t.mapRowsWhere p f keepsId) = (ofTable t).mapCells g := by
  ext1
  simp only [ofTable, mapCells, Table.mapRowsWhere, Table.mapRows, List.map_map]
  refine List.map_congr_left fun r _ => Prod.ext ?_ (hsame r)
  change (if p r then f r else r).id = r.id
  split
  next => exact keepsId r
  next => rfl

/-- Fetching from the map and from the table returns the same messages and claims the same rows. -/
theorem fetch_ofTable (t : Table) (claim : ClaimToken) (limit : Nat) (now : Instant)
    (lease : Duration) :
    (ofTable t).fetch claim limit now lease =
      ((t.fetch claim limit now lease).1, ofTable (t.fetch claim limit now lease).2) := by
  have hdue : (((ofTable t).entries.filter fun e => e.2.isClaimable now).mergeSort fun a b =>
      a.2.message.scheduledBefore b.2.message).take limit =
        (t.dueRows limit now).map fun r => (r.id, r.cell) := by
    have hclaimable : (fun e : MessageId × Cell => e.2.isClaimable now) ∘
        (fun r : Row => (r.id, r.cell)) = (·.isClaimable now) :=
      funext fun r => r.isClaimable_cell now
    rw [ofTable, List.filter_map, hclaimable, Table.dueRows,
      ← List.map_mergeSort fun a _ b _ => ?_, List.map_take]
    rfl
  have hrows : ofTable (t.fetch claim limit now lease).2 = (ofTable t).mapCells fun k c =>
      if k ∈ (t.dueRows limit now).map Row.id then
        (c.claimFor claim).lockUntil (now.plusOrSelf lease)
      else c := by
    refine ofTable_mapRowsWhere t _ (·.claimFor claim (now.plusOrSelf lease)) (fun _ => rfl)
      fun r => ?_
    have htaken : (t.fetched limit now).any (fun m => m.id == r.id) ↔
        r.id ∈ (t.dueRows limit now).map Row.id := by
      rw [← t.map_message_dueRows, List.any_map, List.any_eq_true, List.mem_map]
      simp only [Function.comp_apply, beq_iff_eq]
      rfl
    by_cases hdue : r.id ∈ (t.dueRows limit now).map Row.id
    · exact ((congrArg Row.cell (if_pos (htaken.mpr hdue))).trans
        (r.cell_claimFor claim _)).trans (if_pos hdue).symm
    · exact (congrArg Row.cell (if_neg (mt htaken.mp hdue))).trans (if_neg hdue).symm
  rw [fetch, hdue, claim_eq, List.map_map, List.map_map, hrows]
  exact congrArg (Prod.mk · _) (t.map_message_dueRows limit now)

/-- Renewing in the map and in the table returns the same ids and moves the same ends. -/
theorem renew_ofTable (t : Table) (claim : ClaimToken) (ids : List MessageId) (now : Instant)
    (lease : Duration) :
    renew claim (now.plusOrSelf lease) ids (ofTable t) =
      ((t.renew claim ids now lease).1, ofTable (t.renew claim ids now lease).2) := by
  rw [renew_eq]
  refine congrArg₂ Prod.mk (List.filter_congr fun id _ => any_isHeldBy_ofTable t id claim) ?_
  refine (ofTable_mapRowsWhere t _ (·.extend (now.plusOrSelf lease)) (fun _ => rfl)
    fun r => ?_).symm
  rw [r.isHeldBy_cell]
  by_cases hextends : r.id ∈ ids ∧ r.isHeldBy claim
  · rw [if_pos (by simpa using hextends), if_pos hextends, Row.cell_extend hextends.2]
  · rw [if_neg (by simpa using hextends), if_neg hextends]

/-- Releasing clears both fields of the rows whose lease is dropped from the table. -/
theorem release_ofTable (t : Table) (claim : ClaimToken) (ids : List MessageId) :
    (ofTable t).release claim ids = ofTable (t.release claim ids) := by
  rw [release_eq]
  refine (ofTable_mapRowsWhere t _ Row.unclaim (fun _ => rfl) fun r => ?_).symm
  rw [r.isHeldBy_cell]
  by_cases hreleases : r.id ∈ ids ∧ r.isHeldBy claim
  · rw [if_pos (by simpa using hreleases), if_pos hreleases, r.cell_unclaim]
  · rw [if_neg (by simpa using hreleases), if_neg hreleases]

/-- A mark has the same reply in the map and in the table, and clears both fields where the table
drops the lease. -/
theorem mark_ofTable (t : Table) (claim : ClaimToken) (id : MessageId)
    (record : Message → Message) (keepsId : ∀ m, (record m).id = m.id) :
    (ofTable t).mark claim id record =
      ((t.mark claim id record keepsId).1, ofTable (t.mark claim id record keepsId).2) := by
  unfold mark Table.mark
  rw [find?_ofTable]
  cases t.row? id with
  | none => rfl
  | some row =>
      change (if row.message.isProcessed then _ else if row.cell.isHeldBy claim then _ else _) = _
      rw [row.isHeldBy_cell]
      dsimp only
      split
      next => rfl
      next =>
        split
        next =>
          rw [alter, alter, mapCells_mapCells]
          refine congrArg (Prod.mk _) (ofTable_mapRowsWhere t _
            (fun r => ⟨record r.message, none⟩) (fun r => keepsId r.message) fun r => ?_).symm
          by_cases hid : r.id = id
          · rw [if_pos (beq_iff_eq.mpr hid), if_pos hid, if_pos hid]
            rfl
          · rw [if_neg (mt beq_iff_eq.mp hid), if_neg hid, if_neg hid]
        next => rfl

/-- A sweep deletes the same rows from the map and from the table. -/
theorem deleteProcessed_ofTable (t : Table) (cutoff : Instant) :
    (ofTable t).deleteProcessed cutoff =
      ((t.deleteProcessed cutoff).1, ofTable (t.deleteProcessed cutoff).2) := by
  have hkept : ((ofTable t).filterCells fun c => c.message.processedAt.all fun time =>
      cutoff ≤ time) = ofTable (t.deleteProcessed cutoff).2 := by
    ext1
    simp only [filterCells, ofTable, List.filter_map]
    rfl
  rw [deleteProcessed, hkept]
  refine Prod.ext ?_ rfl
  simp only [ofTable, List.length_map]
  rfl

/-- A table with one lease for both fields answers every call as the cells do, and stays the same.
-/
theorem answer_ofTable (t : Table) (call : StoreCall) :
    (ofTable t).answer call = ((t.answer call).1, ofTable (t.answer call).2) := by
  cases call with
  | fetch claim limit now lease =>
      simp only [answer, fetch_ofTable]
      rfl
  | renew claim ids now lease =>
      simp only [answer, renew_ofTable]
      rfl
  | markProcessed claim id time =>
      exact mark_ofTable t claim id (·.markProcessed time) fun m => m.id_markProcessed time
  | markFailed claim id error nextRun =>
      exact mark_ofTable t claim id (·.markFailed error nextRun)
        fun m => m.id_markFailed error nextRun
  | release claim ids => exact congrArg (Prod.mk _) (release_ofTable t claim ids)
  | deleteProcessed cutoff =>
      simp only [answer, deleteProcessed_ofTable]
      rfl
  | get id =>
      simp only [answer, find?_ofTable, Option.map_map]
      rfl
  | failing minRetryCount limit =>
      simp only [answer, failing, messages_ofTable]
      rfl
  | counts =>
      simp only [answer, messages_ofTable]
      rfl

/-- A unit of work is committed to the map or refused by it as by the table. -/
theorem commit_ofTable (t : Table) (u : UnitOfWork) :
    (ofTable t).commit u = (u.commit t).map ofTable := by
  have htaken : ∀ m : Message, ((ofTable t).find? m.id).isSome =
      (t.rows.map Row.id).contains m.id := by
    intro m
    rw [find?_ofTable, Option.isSome_map, Bool.eq_iff_iff, List.contains_iff_mem,
      Option.isSome_iff_ne_none, ne_eq, Table.row?_eq_none, not_not]
  have hconflict : (u.messages.find? fun m => ((ofTable t).find? m.id).isSome) = u.conflict? t :=
    congrArg (u.messages.find? ·) (funext htaken)
  unfold commit UnitOfWork.commit
  rw [hconflict]
  split
  next m hsome =>
    split
    next hsome' =>
      cases hsome.symm.trans hsome'
      rfl
    next hnone => cases hsome.symm.trans hnone
  next hnone =>
    split
    next hsome => cases hnone.symm.trans hsome
    next =>
      refine congrArg Except.ok (Cells.ext ?_)
      rw [entries_foldl_insert _ ?_ u.distinctIds]
      · simp only [ofTable, List.map_append, List.map_map]
        rfl
      · intro m hm hmem
        have hfree := List.find?_eq_none.mp hnone m hm
        rw [ofTable, List.map_map] at hmem
        exact hfree (List.contains_iff_mem.mpr hmem)

/-- Whatever is done, the map stays the one of the table. -/
theorem perform_ofTable (t : Table) (op : Operation) :
    (ofTable t).perform op = ofTable (t.perform op) := by
  cases op with
  | commit u =>
      rw [perform, Table.perform, commit_ofTable]
      cases u.commit t <;> rfl
  | call c => rw [perform, Table.perform, answer_ofTable]

/-- Whatever is done to a store, the cells are those of the table. -/
theorem foldl_perform_empty (ops : List Operation) :
    ops.foldl perform .empty = ofTable (ops.foldl Table.perform .empty) := by
  suffices hall : ∀ t : Table, ops.foldl perform (ofTable t) = ofTable (ops.foldl Table.perform t)
    from hall .empty
  induction ops with
  | nil => exact fun t => rfl
  | cons op ops ih =>
      intro t
      rw [List.foldl_cons, List.foldl_cons, perform_ofTable, ih]

end Cells

end Outbox
