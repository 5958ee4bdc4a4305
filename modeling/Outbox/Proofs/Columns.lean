import Outbox.Postgres.Connection
import Outbox.Proofs.IdTexts
import Mathlib.Data.List.Forall2

/-! # Messages in columns

A record shows a message if each of its columns stands for what the message has there. A record is
taken for a message exactly if it shows one. What an insert binds shows the message, with a retry
count that its column can hold, and the values go to the columns that they are named for.
-/

namespace Outbox

namespace Postgres

/-- The column for the count of failures stops at the largest signed number of 32 bits. -/
theorem toInt_countColumn (count : UInt32) :
    (countColumn count).toInt = min count.toNat 0x7FFFFFFF := by
  unfold countColumn
  split
  next hsmall =>
    rw [Int32.toInt_ofInt_of_le (by omega) (by omega)]
    omega
  next hlarge =>
    rw [Int32.toInt_maxValue]
    omega

namespace Record

/-! ### Reading a record -/

/-- The columns stand for the message. -/
structure Shows (r : Record) (m : Message) : Prop where
  id : MessageId.ofText r.id = .ok m.id
  messageType : r.messageType = m.tag.tag
  content : r.content = m.content
  createdAt : r.createdAt = m.createdAt
  scheduledAt : r.scheduledAt = m.scheduledAt
  processedAt : r.processedAt = m.processedAt
  error : r.error = m.error
  retryCount : r.retryCount.toInt = m.retryCount.toNat

/-- What is wrong with a record, in the words of the failure. A text that is no ULID is complained
about whatever the retry count is. -/
inductive Complains (r : Record) : Failure → Prop
  | id {error : Ulid.ReadError} (hid : MessageId.ofText r.id = .error error) :
      r.Complains (.corruptRow ("id '" ++ r.id ++ "': " ++ error.message))
  | retryCount {id : MessageId} (hid : MessageId.ofText r.id = .ok id) (hcount : r.retryCount < 0) :
      r.Complains (.corruptRow
        ("retry_count " ++ toString r.retryCount.toInt ++ " for message " ++ id.toText))

/-- The id is no ULID, or the retry count is negative. -/
def IsCorrupt (r : Record) : Prop :=
  (∀ id, MessageId.ofText r.id ≠ .ok id) ∨ r.retryCount < 0

variable {r : Record} {m : Message}

theorem Shows.not_negative (hshows : r.Shows m) : ¬ r.retryCount < 0 := by
  rw [Int32.lt_iff_toInt_lt, hshows.retryCount]
  simp

theorem toMessage_of_shows (hshows : r.Shows m) : r.toMessage = .ok m := by
  have hcount := hshows.not_negative
  rw [toMessage, idOfColumn, hshows.id]
  simp only [hcount, hshows.messageType, hshows.content, hshows.createdAt, hshows.scheduledAt,
    hshows.processedAt, hshows.error, hshows.retryCount, Int.toNat_natCast, UInt32.ofNat_toNat]
  rfl

theorem toMessage_of_complains {e : Failure} (hcomplains : r.Complains e) :
    r.toMessage = .error e := by
  cases hcomplains with
  | id hid =>
      rw [toMessage, idOfColumn, hid]
      rfl
  | retryCount hid hcount =>
      rw [toMessage, idOfColumn, hid]
      simp only [hcount]
      rfl

/-- Every record shows a message or has something wrong. -/
theorem shows_or_complains (r : Record) : (∃ m, r.Shows m) ∨ ∃ e, r.Complains e := by
  cases hid : MessageId.ofText r.id with
  | error error => exact .inr ⟨_, .id hid⟩
  | ok id =>
      by_cases hcount : r.retryCount < 0
      · exact .inr ⟨_, .retryCount hid hcount⟩
      · refine .inl ⟨⟨id, ⟨r.messageType⟩, r.content, r.createdAt, r.scheduledAt, r.processedAt,
          r.error, UInt32.ofNat r.retryCount.toInt.toNat⟩, hid, rfl, rfl, rfl, rfl, rfl, rfl, ?_⟩
        rw [Int32.lt_iff_toInt_lt, Int32.toInt_zero] at hcount
        have hless := r.retryCount.toInt_lt
        rw [UInt32.toNat_ofNat_of_lt' (by simp only [UInt32.size]; omega)]
        omega

theorem toMessage_eq_ok : r.toMessage = .ok m ↔ r.Shows m := by
  refine ⟨fun hread => ?_, toMessage_of_shows⟩
  rcases r.shows_or_complains with ⟨m', hshows⟩ | ⟨e, hcomplains⟩
  · rw [toMessage_of_shows hshows] at hread
    exact Except.ok.inj hread ▸ hshows
  · rw [toMessage_of_complains hcomplains] at hread
    cases hread

theorem toMessage_eq_error {e : Failure} : r.toMessage = .error e ↔ r.Complains e := by
  refine ⟨fun hread => ?_, toMessage_of_complains⟩
  rcases r.shows_or_complains with ⟨m, hshows⟩ | ⟨e', hcomplains⟩
  · rw [toMessage_of_shows hshows] at hread
    cases hread
  · rw [toMessage_of_complains hcomplains] at hread
    exact Except.error.inj hread ▸ hcomplains

theorem isCorrupt_iff : r.IsCorrupt ↔ ∃ e, r.Complains e := by
  constructor
  · rintro (hid | hcount)
    · cases hread : MessageId.ofText r.id with
      | error error => exact ⟨_, .id hread⟩
      | ok id => exact absurd hread (hid id)
    · cases hread : MessageId.ofText r.id with
      | error error => exact ⟨_, .id hread⟩
      | ok id => exact ⟨_, .retryCount hread hcount⟩
  · rintro ⟨e, hid | ⟨_, hcount⟩⟩
    · left
      intro id hok
      rw [hid] at hok
      cases hok
    · exact .inr hcount

theorem not_isCorrupt_iff : ¬ r.IsCorrupt ↔ ∃ m, r.Shows m := by
  rw [isCorrupt_iff]
  constructor
  · exact r.shows_or_complains.resolve_right
  · rintro ⟨m, hshows⟩ ⟨e, hcomplains⟩
    have hread := toMessage_of_complains hcomplains
    rw [toMessage_of_shows hshows] at hread
    cases hread

/-! ### Writing a record -/

/-- The record of a message shows it, as far as the column of the retry count goes. -/
theorem shows_ofMessage {count : UInt32} (hcount : count.toNat = min m.retryCount.toNat 0x7FFFFFFF) :
    (ofMessage m).Shows { m with retryCount := count } where
  id := MessageId.ofText_toText m.id
  messageType := rfl
  content := rfl
  createdAt := rfl
  scheduledAt := rfl
  processedAt := rfl
  error := rfl
  retryCount := by
    rw [hcount]
    exact toInt_countColumn m.retryCount

/-- Written again, a record that shows a message is the same, but for the spelling of the id. -/
theorem ofMessage_of_shows (hshows : r.Shows m) : ofMessage m = { r with id := m.id.toText } := by
  have hcount : countColumn m.retryCount = r.retryCount := by
    rw [← Int32.toInt_inj, toInt_countColumn, hshows.retryCount]
    have hless := r.retryCount.toInt_lt
    rw [hshows.retryCount] at hless
    omega
  rw [ofMessage, ← hshows.messageType, ← hshows.content, ← hshows.createdAt, ← hshows.scheduledAt,
    ← hshows.processedAt, ← hshows.error, hcount]

/-- The record as far as times are kept. -/
def kept (r : Record) : Record :=
  { r with
    createdAt := Postgres.kept r.createdAt
    scheduledAt := Postgres.kept r.scheduledAt
    processedAt := r.processedAt.map Postgres.kept }

end Record

/-! ### What is bound to the columns -/

def columnNames : List String :=
  ["id", "message_type", "content", "created_at", "scheduled_at", "processed_at", "error",
    "retry_count"]

namespace Parameter

def text? : Parameter → Option String
  | text value => some value
  | _ => none

def time? : Parameter → Option Instant
  | time value => some value
  | _ => none

def count? : Parameter → Option Int32
  | integer value => some (Int32.ofInt value)
  | _ => none

end Parameter

namespace Statement

/-- The value for the place of a column, where the places stand in the order of the columns. -/
def boundTo? (s : Statement) (column : String) : Option Parameter :=
  (columnNames.zip s.parameters).lookup column

/-- The row that comes back, column by column, if the database keeps what is bound. -/
def row (s : Statement) : RecordCells where
  id := (s.boundTo? "id").bind Parameter.text?
  messageType := (s.boundTo? "message_type").bind Parameter.text?
  content := (s.boundTo? "content").bind Parameter.text?
  createdAt := (s.boundTo? "created_at").bind Parameter.time?
  scheduledAt := (s.boundTo? "scheduled_at").bind Parameter.time?
  processedAt := (s.boundTo? "processed_at").bind Parameter.time?
  error := (s.boundTo? "error").bind Parameter.text?
  retryCount := (s.boundTo? "retry_count").bind Parameter.count?

/-- An insert names the columns of a record, and numbers as many parameters. -/
theorem text_insert (r : Record) :
    (insert r).text = "INSERT INTO outbox_messages ( " ++ ", ".intercalate columnNames ++
      " ) VALUES (" ++
      ", ".intercalate ((List.range columnNames.length).map fun n => "$" ++ toString (n + 1)) ++
      ")" := by
  rfl

/-- Each value goes to the column that has its name. -/
theorem row_insert (r : Record) : (insert r).row =
    { id := some r.id, messageType := some r.messageType, content := some r.content,
      createdAt := some (kept r.createdAt), scheduledAt := some (kept r.scheduledAt),
      processedAt := r.processedAt.map kept, error := r.error, retryCount := some r.retryCount } := by
  obtain ⟨id, messageType, content, createdAt, scheduledAt, processedAt, error, retryCount⟩ := r
  have hcount : Int32.ofInt retryCount.toInt = retryCount := Int32.ofInt_toInt retryCount
  cases processedAt <;> cases error <;>
    exact congrArg (fun count => RecordCells.mk _ _ _ _ _ _ _ (some count)) hcount

/-- What an insert binds is read back from its row, with times cut to what the columns keep. -/
theorem read_row_insert (r : Record) : (insert r).row.read = .ok r.kept := by
  rw [row_insert]
  rfl

end Statement

/-- To insert the message, the statement that binds the columns of the record is sent, and nothing
else. -/
def Binds (m : Message) (r : Record) : Prop :=
  ∀ (σ : Type) (send : Connection (StateM σ)) (db : σ),
    send.insert m db = ((send (.insert r) db).1.mapError .database, (send (.insert r) db).2)

theorem binds_ofMessage (m : Message) : Binds m (.ofMessage m) := fun _ _ _ => rfl

/-- An insert binds each column of the message to the place that the text has for it. If the columns
come back as they were bound, the message is read back as it was, except for a retry count beyond
the column, which is read back as the greatest that fits. On the way to the database times are cut
to what is kept. Whatever record is taken for the message, inserting the message binds the columns
of that record, with the id in its own spelling. -/
theorem inserts_read_back (m : Message) :
    let r := Record.ofMessage m
    Binds m r ∧
    (Statement.insert r).text = "INSERT INTO outbox_messages ( " ++ ", ".intercalate columnNames ++
      " ) VALUES (" ++
      ", ".intercalate ((List.range columnNames.length).map fun n => "$" ++ toString (n + 1)) ++
      ")" ∧
    (Statement.insert r).row.read = .ok r.kept ∧
    (m.retryCount ≤ 0x7FFFFFFF → r.toMessage = .ok m) ∧
    (0x7FFFFFFF < m.retryCount → r.toMessage = .ok { m with retryCount := 0x7FFFFFFF }) ∧
    ∀ r' : Record, r'.toMessage = .ok m →
      MessageId.ofText r'.id = .ok m.id ∧ r = { r' with id := m.id.toText } := by
  intro r
  refine ⟨binds_ofMessage m, Statement.text_insert r, Statement.read_row_insert r, fun hfits => ?_,
    fun hlarge => ?_, fun r' hread => ?_⟩
  · have hcount : m.retryCount.toNat ≤ 0x7FFFFFFF := UInt32.le_iff_toNat_le.mp hfits
    exact Record.toMessage_of_shows (Record.shows_ofMessage (Nat.min_eq_left hcount).symm)
  · have hcount : 0x7FFFFFFF < m.retryCount.toNat := UInt32.lt_iff_toNat_lt.mp hlarge
    exact Record.toMessage_of_shows
      (Record.shows_ofMessage (Nat.min_eq_right (Nat.le_of_lt hcount)).symm)
  · have hshows : r'.Shows m := Record.toMessage_eq_ok.mp hread
    exact ⟨hshows.id, Record.ofMessage_of_shows hshows⟩

/-- A message with the id 31, and as many failures as it can have. -/
def worn (retryCount : UInt32) : Message where
  id := ⟨⟨31, by decide⟩⟩
  tag := ⟨"order"⟩
  content := "\x7b\x7d"
  createdAt := .epoch
  scheduledAt := .epoch
  processedAt := none
  error := some "timeout"
  retryCount := retryCount

/-- All failures that can be counted come back as the greatest count of the column. The record of a
message with that many has its id in capitals, also if it was read from small letters. -/
theorem inserts_read_back_saturated :
    let small : Record :=
      { Record.ofMessage (worn 0x7FFFFFFF) with id := "0000000000000000000000000z" }
    (Record.ofMessage (worn 0xFFFFFFFF)).toMessage = .ok (worn 0x7FFFFFFF) ∧
      (Record.ofMessage (worn 0x7FFFFFFF)).toMessage = .ok (worn 0x7FFFFFFF) ∧
      small.toMessage = .ok (worn 0x7FFFFFFF) ∧
      Binds (worn 0x7FFFFFFF) { small with id := "0000000000000000000000000Z" } := by
  intro small
  obtain ⟨_, _, _, _, hlarge, _⟩ := inserts_read_back (worn 0xFFFFFFFF)
  obtain ⟨hbinds, _, _, hfits, _, hcolumns⟩ := inserts_read_back (worn 0x7FFFFFFF)
  have hid : MessageId.ofText "0000000000000000000000000z" = .ok (worn 0x7FFFFFFF).id := by
    decide +kernel
  have htext : (worn 0x7FFFFFFF).id.toText = "0000000000000000000000000Z" := by decide +kernel
  have hsmall : small.toMessage = .ok (worn 0x7FFFFFFF) :=
    Record.toMessage_of_shows ⟨hid, rfl, rfl, rfl, rfl, rfl, rfl, by decide⟩
  refine ⟨hlarge (by decide), hfits (by decide), hsmall, ?_⟩
  rw [← htext, ← (hcolumns small hsmall).2]
  exact hbinds

end Postgres

end Outbox
