import Outbox.Proofs.IdTexts
import Outbox.Proofs.InstantTexts
import Outbox.Proofs.JsonRoundTrip
import Outbox.Records

/-! # Records that survive being written

Ids and instants stand in records as strings, so what their own texts keep is kept there too.
Together with strings, truth values and integers they make up messages, counts and the status.
-/

namespace Outbox

namespace Json

theorem reads_text (depth : Nat) (v : String) :
    Reads (Schema.text.read depth) (chars (Schema.text.toJson v)) v :=
  reads_plain .text depth trivial v

theorem reads_id (depth : Nat) (id : MessageId) :
    Reads (Schema.id.read depth) (chars (Schema.id.toJson id)) id := by
  intro rest position hcloses
  obtain ⟨position', hstring⟩ := reads_stringAs "a string" id.toText rest position hcloses
  refine ⟨position', ?_⟩
  change idReader ⟨quoted id.toText.toList ++ rest, position⟩ = _
  simp only [idReader, hstring, bind, Except.bind, MessageId.ofText_toText]
  rfl

theorem reads_instant (depth : Nat) (i : Instant) :
    Reads (Schema.instant.read depth) (chars (Schema.instant.toJson i)) i := by
  intro rest position hcloses
  obtain ⟨position', hstring⟩ := reads_stringAs "an RFC 3339 formatted date and time string"
    i.toText rest position hcloses
  refine ⟨position', ?_⟩
  change instantReader ⟨quoted i.toText.toList ++ rest, position⟩ = _
  simp only [instantReader, hstring, bind, Except.bind, Instant.ofText_toText]
  rfl

/-- One of these values or nothing is read back, if none of them is taken for `null`. -/
theorem reads_optional {s : Schema} {depth : Nat}
    (hopens : ∀ v, Opens false (chars (s.toJson v)))
    (hreads : ∀ v, Reads (s.read depth) (chars (s.toJson v)) v) (v : Option s.Val) :
    Reads ((Schema.optional s).read depth) (chars ((Schema.optional s).toJson v)) v := by
  cases v with
  | none => exact reads_none s depth
  | some v => exact reads_some (hopens v) (hreads v)

end Json

open Json

theorem Message.reads_toRecord (depth : Nat) (m : Message) :
    Reads (schema.read (depth + 1)) (chars (schema.toJson m.toRecord)) m.toRecord := by
  have hinstant := reads_optional (s := .instant) (fun _ => opens_quoted false _)
    (reads_instant depth)
  have htext := reads_optional (s := .text) (fun _ => opens_quoted false _) (reads_text depth)
  apply reads_record (by decide)
  exact ⟨reads_id depth m.id, reads_text depth m.tag.tag, reads_text depth m.content,
    reads_instant depth m.createdAt, reads_instant depth m.scheduledAt, hinstant m.processedAt,
    htext m.error, reads_u32 depth m.retryCount, trivial⟩

theorem Counts.reads_toRecord (depth : Nat) (c : Counts) :
    Reads (schema.read (depth + 1)) (chars (schema.toJson c.toRecord)) c.toRecord := by
  apply reads_record (by decide)
  exact ⟨reads_u64 depth _, reads_u64 depth _, reads_u64 depth _, trivial⟩

theorem StuckMessage.reads_toRecord (depth : Nat) (s : StuckMessage) :
    Reads (schema.read (depth + 1)) (chars (schema.toJson s.toRecord)) s.toRecord := by
  have htext := reads_optional (s := .text) (fun _ => opens_quoted false _) (reads_text depth)
  apply reads_record (by decide)
  exact ⟨reads_id depth s.id, reads_text depth s.tag.tag, reads_u32 depth s.retryCount,
    htext s.error, reads_boolean s.hasConsumer, trivial⟩

/-- The messages of a status stand in a list of it, hence the room for one more level. -/
theorem Status.reads_toRecord (depth : Nat) (s : Status) :
    Reads (schema.read (depth + 3)) (chars (schema.toJson s.toRecord)) s.toRecord := by
  have htypes : Reads ((Schema.list .text).read (depth + 2))
      (chars ((Schema.list .text).toJson (s.registeredTypes.map MessageType.tag)))
      (s.registeredTypes.map MessageType.tag) :=
    reads_list (fun _ _ => opens_quoted false _) fun v _ => reads_text _ v
  have hstuck : Reads ((Schema.list StuckMessage.schema).read (depth + 2))
      (chars ((Schema.list StuckMessage.schema).toJson (s.stuck.map StuckMessage.toRecord)))
      (s.stuck.map StuckMessage.toRecord) := by
    refine reads_list (fun v _ => opens_record false "StuckMessage" _ v) ?_
    intro v hmem
    obtain ⟨stuck, _, rfl⟩ := List.mem_map.mp hmem
    exact stuck.reads_toRecord depth
  apply reads_record (by decide)
  exact ⟨s.counts.reads_toRecord (depth + 1), htypes, hstuck, trivial⟩

/-- A message is read back from its JSON text, whatever is in it, and so is a status. A status has
counts of 64 bits. -/
theorem records_survive :
    (∀ m : Message, Message.ofText m.toText = .ok m) ∧
      ∀ s : Status, s.counts.Fits → Status.ofText s.toJson.toText = .ok s := by
  constructor
  · intro m
    have hread : Message.schema.ofText m.toText = .ok m.toRecord :=
      Schema.ofText_write_of_reads (m.reads_toRecord 126)
    rw [Message.ofText, hread]
    exact congrArg Except.ok m.ofRecord_toRecord
  · intro s hfits
    have hread : Status.schema.ofText s.toJson.toText = .ok s.toRecord :=
      Schema.ofText_write_of_reads (s.reads_toRecord 124)
    rw [Status.ofText, hread]
    exact congrArg Except.ok (Status.ofRecord_toRecord hfits)

/-- A message with the first and the last instant there are, the last of ids, characters that are
escaped, an error without text and no room for another retry. -/
def extremeMessage : Message where
  id := ⟨⟨0xFFFFFFFFFFFFFFFFFFFFFFFFFFFFFFFF, by decide⟩⟩
  tag := ⟨"\"Event\": \\ü"⟩
  content := "\x7b\"a\":\"\n\"\x7d"
  createdAt := ⟨Instant.firstSecond, 0, by decide, by decide⟩
  scheduledAt := ⟨-1, 999999000, by decide, by decide⟩
  processedAt := some ⟨Instant.lastSecond, 999999999, by decide, by decide⟩
  error := some ""
  retryCount := 0xFFFFFFFF

/-- A status with the largest count there is, in which somebody is registered for an empty tag and
the message above is stuck. -/
def extremeStatus : Status where
  counts := ⟨0, 0xFFFFFFFFFFFFFFFF, 1⟩
  registeredTypes := [⟨""⟩, extremeMessage.tag]
  stuck := [⟨extremeMessage.id, extremeMessage.tag, extremeMessage.retryCount, none, false⟩]

/-- Both are read as they were written. -/
theorem extreme_records_survive :
    Message.ofText extremeMessage.toText = .ok extremeMessage ∧ extremeStatus.counts.Fits ∧
      Status.ofText extremeStatus.toJson.toText = .ok extremeStatus := by
  obtain ⟨hmessages, hstatuses⟩ := records_survive
  have hfits : extremeStatus.counts.Fits := ⟨by decide, by decide, by decide⟩
  exact ⟨hmessages extremeMessage, hfits, hstatuses extremeStatus hfits⟩

end Outbox
