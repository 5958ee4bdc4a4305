import Outbox.Proofs.Runs

/-! # Whose claim counts

As long as a message is not processed, the claim on its row may record an outcome or give the
message back. A fetch that returns the message passes this right on to its own claim, whoever has
had it. The claim loses it with a mark or a release of its own, and in no other way.
-/

namespace Outbox

namespace Row

/-- The claim that may record an outcome. -/
def holder? (row : Row) : Option ClaimToken :=
  if row.message.isProcessed then none else row.claimedBy

/-- What a mark is answered that is not made by the holder. -/
def rebuff (row : Row) : Except Failure Unit :=
  if row.message.isProcessed then .ok () else .error (.claimLost row.id)

theorem holder?_eq_some {row : Row} {claim : ClaimToken} :
    row.holder? = some claim ↔ row.isHeldBy claim := by
  rw [isHeldBy_iff, holder?, claimedBy]
  cases row.message.isProcessed <;> simp

theorem holder?_of_processed {row : Row} (hprocessed : row.message.isProcessed) :
    row.holder? = none := if_pos hprocessed

end Row

namespace Table

def holder? (t : Table) (id : MessageId) : Option ClaimToken := (t.row? id).bind Row.holder?

variable {t : Table} {id : MessageId} {claim : ClaimToken}

theorem holder?_eq_some :
    t.holder? id = some claim ↔ ∃ row, t.row? id = some row ∧ row.isHeldBy claim := by
  simp only [holder?, Option.bind_eq_some_iff, Row.holder?_eq_some]

theorem holder?_of_row {row : Row} (hrow : t.row? id = some row) : t.holder? id = row.holder? := by
  rw [holder?, hrow, Option.bind_some]

/-- A fetch makes its claim the holder of what it returns. -/
theorem holder?_fetch (t : Table) (claim : ClaimToken) (limit : Nat) (now : Instant)
    (lease : Duration) (id : MessageId) :
    (t.fetch claim limit now lease).2.holder? id =
      if id ∈ (t.fetched limit now).map Message.id then some claim else t.holder? id := by
  rw [holder?, row?_fetch]
  split
  next hmem =>
    obtain ⟨m, hm, rfl⟩ := List.mem_map.mp hmem
    obtain ⟨row, hrow, _, hclaimable⟩ := exists_row_of_mem_fetched hm
    have hopen := (Row.isClaimable_iff.mp hclaimable).1
    simp [hrow, Row.holder?, Row.claimFor, Row.claimedBy, hopen]
  next => rw [Option.map_id']; rfl

theorem holder?_renew (t : Table) (claim : ClaimToken) (ids : List MessageId) (now : Instant)
    (lease : Duration) (id : MessageId) :
    (t.renew claim ids now lease).2.holder? id = t.holder? id := by
  rw [holder?, row?_renew, Option.bind_map, holder?]
  refine congrArg _ (funext fun row => ?_)
  rw [Function.comp_apply]
  split
  · simp [Row.holder?, Row.extend, Row.claimedBy, Function.comp_def]
  · rfl

/-- A change that ends the claim of a row ends the right of its holder. -/
theorem holder?_ended {t' : Table} {P : Prop} [Decidable P] {claim : ClaimToken} {f : Row → Row}
    (hfree : ∀ row, (f row).lease = none)
    (hrow : t'.row? id = (t.row? id).map fun row =>
      if P ∧ row.isHeldBy claim then f row else row) :
    t'.holder? id = if P ∧ t.holder? id = some claim then none else t.holder? id := by
  rw [holder?, hrow]
  cases hbefore : t.row? id with
  | none => simp [holder?, hbefore]
  | some row =>
      simp only [holder?_of_row hbefore, Row.holder?_eq_some, Option.map_some, Option.bind_some]
      split
      · simp [Row.holder?, Row.claimedBy, hfree]
      · rfl

theorem holder?_release (t : Table) (claim : ClaimToken) (ids : List MessageId) (id : MessageId) :
    (t.release claim ids).holder? id =
      if id ∈ ids ∧ t.holder? id = some claim then none else t.holder? id :=
  holder?_ended (fun _ => rfl) (row?_release t claim ids id)

theorem holder?_mark (t : Table) (claim : ClaimToken) (marked : MessageId)
    (record : Message → Message) (keepsId : ∀ m, (record m).id = m.id) (id : MessageId) :
    (t.mark claim marked record keepsId).2.holder? id =
      if id = marked ∧ t.holder? id = some claim then none else t.holder? id :=
  holder?_ended (fun _ => rfl) (row?_mark t claim marked record keepsId id)

/-- Only processed messages are deleted, which nobody holds. -/
theorem holder?_deleteProcessed (t : Table) (cutoff : Instant) (id : MessageId) :
    (t.deleteProcessed cutoff).2.holder? id = t.holder? id := by
  rw [holder?, row?_deleteProcessed]
  cases hrow : t.row? id with
  | none => simp [holder?, hrow]
  | some row =>
      rw [holder?_of_row hrow, Option.filter_some]
      split
      next => rfl
      next hgone =>
        refine (Row.holder?_of_processed ?_).symm
        cases htime : row.message.processedAt with
        | none => simp [htime] at hgone
        | some time => simp [Message.isProcessed, htime]

/-- Who holds a message after a call. -/
theorem holder?_answer (t : Table) (call : StoreCall) (id : MessageId) :
    (t.answer call).2.holder? id = match call with
      | .fetch claim limit now _ =>
          if id ∈ (t.fetched limit now).map Message.id then some claim else t.holder? id
      | .release claim ids =>
          if id ∈ ids ∧ t.holder? id = some claim then none else t.holder? id
      | .markProcessed claim marked _ | .markFailed claim marked _ _ =>
          if id = marked ∧ t.holder? id = some claim then none else t.holder? id
      | _ => t.holder? id := by
  cases call with
  | fetch claim limit now lease => exact holder?_fetch ..
  | renew claim ids now lease => exact holder?_renew ..
  | markProcessed claim marked time => exact holder?_mark ..
  | markFailed claim marked error nextRun => exact holder?_mark ..
  | release claim ids => exact holder?_release ..
  | deleteProcessed cutoff => exact holder?_deleteProcessed ..
  | get | failing | counts => rfl

/-- What a unit of work adds is held by nobody. -/
theorem holder?_commit {u : UnitOfWork} {t' : Table} (hcommit : u.commit t = .ok t')
    (id : MessageId) : t'.holder? id = t.holder? id := by
  rw [holder?, row?_commit hcommit]
  cases hrow : t.row? id with
  | some row => rw [Option.some_or, Option.bind_some, holder?_of_row hrow]
  | none =>
      rw [Option.none_or, holder?, hrow, Option.bind_none, Option.bind_map]
      cases u.messages.find? fun m => m.id == id with
      | none => rfl
      | some m => simp [Row.holder?, Row.claimedBy]

/-- A mark that is not made by the holder changes nothing. -/
theorem mark_of_not_held {row : Row} (hrow : t.row? id = some row) (hnot : ¬ row.isHeldBy claim)
    (record : Message → Message) (keepsId : ∀ m, (record m).id = m.id) :
    t.mark claim id record keepsId = (row.rebuff, t) := by
  obtain rfl := row?_id hrow
  by_cases hprocessed : row.message.isProcessed
  · simp [mark, hrow, Row.rebuff, hprocessed]
  · simp [mark, hrow, Row.rebuff, hprocessed, hnot]

end Table

namespace Run

variable {r : Run} {n : Nat} {claim : ClaimToken} {id : MessageId}

/-- In step `n` a fetch under the claim returns the message. -/
def Returns (r : Run) (n : Nat) (claim : ClaimToken) (id : MessageId) : Prop :=
  ∃ now, r.Fetches n claim id now

/-- In step `n` the message is given back under the claim. -/
def Releases (r : Run) (n : Nat) (claim : ClaimToken) (id : MessageId) : Prop :=
  ∃ ids, r.Calls n (.release claim ids) ∧ id ∈ ids

section Call

variable {call : StoreCall} (hcalls : r.Calls n call)

include hcalls

theorem Calls.table : r.table (n + 1) = ((r.table n).answer call).2 :=
  (r.move n).table_of_calls hcalls

/-- A step returns a message to a claim if its call is a fetch under the claim that returns it. -/
theorem Calls.returns_iff : r.Returns n claim id ↔ ∃ limit now lease,
    call = .fetch claim limit now lease ∧ id ∈ ((r.table n).fetched limit now).map Message.id := by
  constructor
  · rintro ⟨now, limit, lease, hfetch, hmem⟩
    exact ⟨limit, now, lease, Fleet.Calls.unique hcalls hfetch, hmem⟩
  · rintro ⟨limit, now, lease, rfl, hmem⟩
    exact ⟨now, limit, lease, hcalls, hmem⟩

theorem Calls.releases_iff :
    r.Releases n claim id ↔ ∃ ids, call = .release claim ids ∧ id ∈ ids := by
  constructor
  · rintro ⟨ids, hrelease, hmem⟩
    exact ⟨ids, Fleet.Calls.unique hcalls hrelease, hmem⟩
  · rintro ⟨ids, rfl, hmem⟩
    exact ⟨ids, hcalls, hmem⟩

theorem Calls.marks_iff : r.Marks n claim id ↔
    (∃ time, call = .markProcessed claim id time) ∨
      ∃ error nextRun, call = .markFailed claim id error nextRun := by
  constructor
  · rintro (⟨time, hmark⟩ | ⟨error, nextRun, hmark⟩)
    · exact .inl ⟨time, Fleet.Calls.unique hcalls hmark⟩
    · exact .inr ⟨error, nextRun, Fleet.Calls.unique hcalls hmark⟩
  · rintro (⟨time, rfl⟩ | ⟨error, nextRun, rfl⟩)
    · exact .inl ⟨time, hcalls⟩
    · exact .inr ⟨error, nextRun, hcalls⟩

end Call

/-- The holder after a step is whoever the message is returned to. If it is returned to nobody, it
is the holder from before, unless that gives the message back or makes a mark. -/
theorem holder?_succ : (r.table (n + 1)).holder? id = some claim ↔
    r.Returns n claim id ∨ (r.table n).holder? id = some claim ∧ (∀ c, ¬ r.Returns n c id) ∧
      ¬ r.Releases n claim id ∧ ¬ r.Marks n claim id := by
  by_cases hcall : ∃ call, r.Calls n call
  · obtain ⟨call, hcalls⟩ := hcall
    rw [Calls.table hcalls, Table.holder?_answer]
    simp only [Calls.returns_iff hcalls, Calls.releases_iff hcalls, Calls.marks_iff hcalls]
    cases call with
    | fetch c limit now lease =>
        by_cases hmem : id ∈ ((r.table n).fetched limit now).map Message.id <;>
          simp [hmem, -List.mem_map]
    | release c ids => grind
    | markProcessed c marked time => grind
    | markFailed c marked error nextRun => grind
    | renew | deleteProcessed | get | failing | counts => simp
  · have hkept : (r.table (n + 1)).holder? id = (r.table n).holder? id := by
      rcases r.table_step n with hsame | ⟨call, hcalls, _⟩ | ⟨u, _, hcommit⟩
      · rw [hsame]
      · exact (hcall ⟨call, hcalls⟩).elim
      · exact Table.holder?_commit hcommit id
    have hreturns : ∀ c, ¬ r.Returns n c id := fun c ⟨_, _, _, hfetch, _⟩ => hcall ⟨_, hfetch⟩
    have hreleases : ¬ r.Releases n claim id := fun ⟨_, hrelease, _⟩ => hcall ⟨_, hrelease⟩
    have hmarks : ¬ r.Marks n claim id := by
      rintro (⟨_, hmark⟩ | ⟨_, _, hmark⟩)
      · exact hcall ⟨_, hmark⟩
      · exact hcall ⟨_, hmark⟩
    simp [hkept, hreturns, hreleases, hmarks]

end Run

end Outbox
