import Outbox.Postgres.Store
import Outbox.Proofs.IdTexts
import Outbox.Proofs.Scripts

/-! # Both stores judge marks alike

In memory a mark looks at the row, and whose it is. In PostgreSQL it changes the row if it can, and
asks why when it could not. That the two come to the same verdict takes little of the database: that
the update goes by its conditions, and that what is asked next is answered as the row still is.
-/

namespace Outbox

namespace Postgres

/-- What a mark goes by in the columns of a row. -/
structure MarkCells where
  processed : Bool
  claimedBy : Option String
  deriving DecidableEq

namespace MarkCells

/-- The conditions of an update that marks a row under a claim. -/
def permits (c : MarkCells) (claim : String) : Bool := !c.processed && c.claimedBy == some claim

end MarkCells

/-- The text that is bound to a place of the statement. Places are counted from one. -/
def Statement.textAt? (s : Statement) (place : Nat) : Option String :=
  match s.parameters[place - 1]? with
  | some (.text value) => some value
  | _ => none

variable {σ : Type}

/-- The update changes one row if the row of that id is there and meets the conditions for the
claim, and otherwise none, so that the rows stay as they are. -/
def Updates (cells : σ → String → Option MarkCells) (update : StateM σ (Except ClientError Nat))
    (id claim : String) : Prop :=
  ∀ db, if (cells db id).any (·.permits claim) then (update db).1 = .ok 1
    else (update db).1 = .ok 0 ∧ cells (update db).2 = cells db

/-- The database does what the statements of a mark say, as far as a verdict goes by it. -/
structure ServesMarks (send : Connection (StateM σ)) (cells : σ → String → Option MarkCells) :
    Prop where
  markProcessed {id : MessageId} {time : Instant} {claim : ClaimToken} {idText claimText : String}
    (hid : (Statement.markProcessed id time claim).textAt? 1 = some idText)
    (hclaim : (Statement.markProcessed id time claim).textAt? 3 = some claimText) :
    Updates cells (send (.markProcessed id time claim)) idText claimText
  markFailed {id : MessageId} {error : String} {nextRun : Option Instant} {claim : ClaimToken}
    {idText claimText : String}
    (hid : (Statement.markFailed id error nextRun claim).textAt? 1 = some idText)
    (hclaim : (Statement.markFailed id error nextRun claim).textAt? 4 = some claimText) :
    Updates cells (send (.markFailed id error nextRun claim)) idText claimText
  isProcessed {id : MessageId} {idText : String}
    (hid : (Statement.isProcessed id).textAt? 1 = some idText) (db : σ) :
    (send (.isProcessed id) db).1 = .ok ((cells db idText).map (some ·.processed)).toList

end Postgres

/-- The columns of a row in memory that a mark goes by. -/
def Row.markCells (r : Row) : Postgres.MarkCells :=
  ⟨r.message.isProcessed, r.claimedBy.map ClaimToken.toText⟩

/-- The claims of rows can be told apart by their texts. -/
theorem Row.permits_markCells (r : Row) (claim : ClaimToken) :
    r.markCells.permits claim.toText = r.isHeldBy claim := by
  rw [markCells, Postgres.MarkCells.permits, isHeldBy, claimedBy]
  cases r.lease with
  | none => rfl
  | some l =>
      have hsame : (some l.holder.toText == some claim.toText) = (l.holder == claim) := by
        rw [Bool.eq_iff_iff, beq_iff_eq, beq_iff_eq, Option.some.injEq, ClaimToken.toText_inj]
      simp [hsame]

namespace Postgres.Store

section Verdicts

variable {σ : Type} {send : Connection (StateM σ)} {cells : σ → String → Option MarkCells}
  {t : Table} {db : σ} {id : MessageId} {claim : ClaimToken}

/-- What is asked next says why nothing could be marked. -/
theorem explainUnmarked_eq (hserves : ServesMarks send cells) (db : σ) :
    (explainUnmarked send id db).1 =
      match cells db id.toText with
      | none => .error (.notFound id)
      | some c => if c.processed then .ok () else .error (.claimLost id) := by
  have hanswer : (send (.isProcessed id) db).1 = _ := hserves.isProcessed rfl db
  simp only [explainUnmarked, bind, StateT.bind]
  cases hsent : send (.isProcessed id) db with
  | mk answer after =>
      rw [hsent] at hanswer
      obtain rfl : answer = _ := hanswer
      cases cells db id.toText with
      | none => rfl
      | some c =>
          obtain ⟨processed, claimedBy⟩ := c
          cases processed <;> rfl

/-- Where the database shows what the table has of the row, the verdict is that of the table. -/
theorem concludeMark_eq (hserves : ServesMarks send cells)
    (hrow : cells db id.toText = (t.row? id).map Row.markCells)
    {update : StateM σ (Except ClientError Nat)}
    (hupdate : Updates cells update id.toText claim.toText) (record : Message → Message)
    (keepsId : ∀ m, (record m).id = m.id) :
    (concludeMark send id (update db).1 (update db).2).1 =
      (t.mark claim id record keepsId).1 := by
  have hverdict := hupdate db
  rw [hrow] at hverdict
  -- when nothing was changed, the row is still as the table has it
  have hexplained (hanswer : (update db).1 = .ok 0) (hkept : cells (update db).2 = cells db) :
      (concludeMark send id (update db).1 (update db).2).1 =
        match (t.row? id).map Row.markCells with
        | none => .error (.notFound id)
        | some c => if c.processed then .ok () else .error (.claimLost id) := by
    rw [hanswer, ← hrow, ← hkept]
    exact explainUnmarked_eq hserves _
  unfold Table.mark
  cases hfound : t.row? id with
  | none =>
      rw [hfound] at hverdict hexplained
      obtain ⟨hanswer, hkept⟩ := hverdict
      exact hexplained hanswer hkept
  | some row =>
      rw [hfound, Option.map_some] at hverdict hexplained
      rw [Option.any_some, row.permits_markCells] at hverdict
      by_cases hheld : row.isHeldBy claim
      · rw [if_pos hheld] at hverdict
        simp only [(Row.isHeldBy_iff.mp hheld).1, hheld, hverdict]
        rfl
      · rw [if_neg hheld] at hverdict
        refine (hexplained hverdict.1 hverdict.2).trans ?_
        by_cases hprocessed : row.message.isProcessed
        · simp [Row.markCells, hprocessed]
        · simp [Row.markCells, hprocessed, hheld]

/-- Whatever has become of the row, whether it is gone, processed, free or claimed by anybody, a
mark comes to the same in PostgreSQL as in memory, where the database shows what the table has of
the row. That holds since the texts of claims are equal only when the claims are. -/
theorem marks_agree (hserves : ServesMarks send cells)
    (hrow : cells db id.toText = (t.row? id).map Row.markCells) (claim : ClaimToken) :
    (∀ time, (markProcessed send claim id time db).1 = (t.markProcessed claim id time).1) ∧
      (∀ error nextRun, (markFailed send claim id error nextRun db).1 =
        (t.markFailed claim id error nextRun).1) ∧
      ∀ other : ClaimToken, claim.toText = other.toText ↔ claim = other := by
  refine ⟨fun time => ?_, fun error nextRun => ?_, fun other => ClaimToken.toText_inj⟩
  · exact concludeMark_eq hserves hrow (hserves.markProcessed rfl rfl) _ _
  · exact concludeMark_eq hserves hrow (hserves.markFailed rfl rfl) _ _

end Verdicts

/-- A database of nothing but what marks go by. -/
abbrev Shelf := String → Option MarkCells

namespace Shelf

def update (id claim : String) (processed : Bool) : StateM Shelf (Except ClientError Nat) :=
  fun db =>
    if (db id).any (·.permits claim) then
      (.ok 1, fun text => if text = id then some ⟨processed, none⟩ else db text)
    else (.ok 0, db)

def send : Connection (StateM Shelf)
  | .markProcessed id _ claim => update id.toText claim.toText true
  | .markFailed id _ _ claim => update id.toText claim.toText false
  | .isProcessed id => fun db => (.ok ((db id.toText).map (some ·.processed)).toList, db)
  | _ => fun db => (.error .closed, db)

/-- The update changes the one row that the claim holds, and counts it. -/
theorem updates_update (id claim : String) (processed : Bool) :
    Updates (fun db : Shelf => db) (update id claim processed) id claim := by
  intro db
  unfold update
  split
  · rfl
  · exact ⟨rfl, rfl⟩

/-- The shelf serves the statements of a mark as a database does. -/
theorem send_servesMarks : ServesMarks send fun db : Shelf => db where
  markProcessed := by
    intro id time claim idText claimText hid hclaim
    obtain rfl : id.toText = idText := Option.some.inj hid
    obtain rfl : claim.toText = claimText := Option.some.inj hclaim
    exact updates_update id.toText claim.toText _
  markFailed := by
    intro id error nextRun claim idText claimText hid hclaim
    obtain rfl : id.toText = idText := Option.some.inj hid
    obtain rfl : claim.toText = claimText := Option.some.inj hclaim
    exact updates_update id.toText claim.toText _
  isProcessed := by
    intro id idText hid db
    obtain rfl : id.toText = idText := Option.some.inj hid
    rfl

/-- The database that shows a table. -/
def showing (t : Table) : Shelf := fun text =>
  match MessageId.ofText text with
  | .ok id => (t.row? id).map Row.markCells
  | .error _ => none

theorem showing_toText (t : Table) (id : MessageId) :
    showing t id.toText = (t.row? id).map Row.markCells := by
  rw [showing, MessageId.ofText_toText]

end Shelf

/-- The first message is processed, the second one is claimed, the third one is free. -/
def variety : Table where
  rows := [⟨(Message.numbered 1 "order" .epoch).markProcessed .epoch, none⟩,
    ⟨.numbered 2 "order" .epoch, some ⟨.numbered 1, .numbered 1⟩⟩,
    ⟨.numbered 3 "order" .epoch, none⟩]
  entities := []
  distinctIds := by decide

/-- A claim that holds nothing any more marks all of them, and one that has been swept. -/
theorem stale_marks_agree :
    let stale := ClaimToken.numbered 2
    let id (n : Fin 16) : MessageId := (Message.numbered n "order" .epoch).id
    let verdict (n : Fin 16) : Except Failure Unit :=
      (markProcessed Shelf.send stale (id n) .epoch (Shelf.showing variety)).1
    ServesMarks Shelf.send (fun db : Shelf => db) ∧
      (∀ n, Shelf.showing variety (id n).toText = (variety.row? (id n)).map Row.markCells) ∧
      verdict 1 = .ok () ∧ verdict 2 = .error (.claimLost (id 2)) ∧
      verdict 3 = .error (.claimLost (id 3)) ∧ verdict 4 = .error (.notFound (id 4)) := by
  intro stale id verdict
  have hagree (n : Fin 16) : verdict n = (variety.markProcessed stale (id n) .epoch).1 :=
    (marks_agree Shelf.send_servesMarks (Shelf.showing_toText variety (id n)) stale).1 .epoch
  refine ⟨Shelf.send_servesMarks, fun n => Shelf.showing_toText .., ?_⟩
  rw [hagree, hagree, hagree, hagree]
  exact ⟨rfl, rfl, rfl, rfl⟩

end Postgres.Store

end Outbox
