import Outbox.Codec
import Outbox.Counts

/-! # Records

The JSON form of messages, counts and the status: a schema for each, and the way between a record
and the values of its schema.
-/

namespace Outbox

open Json (Schema Fields)

namespace Message

def schema : Schema := .record "OutboxMessage" <|
  .field "id" .id <| .field "message_type" .text <| .field "content" .text <|
  .field "created_at" .instant <| .field "scheduled_at" .instant <|
  .field "processed_at" (.optional .instant) <| .field "error" (.optional .text) <|
  .field "retry_count" .u32 .done

def toRecord (m : Message) : schema.Val :=
  (m.id, m.tag.tag, m.content, m.createdAt, m.scheduledAt, m.processedAt, m.error, m.retryCount, ())

def ofRecord (v : schema.Val) : Message :=
  let (id, tag, content, createdAt, scheduledAt, processedAt, error, retryCount, ()) := v
  ⟨id, ⟨tag⟩, content, createdAt, scheduledAt, processedAt, error, retryCount⟩

def toJson (m : Message) : Json := schema.toJson m.toRecord

def toText (m : Message) : String := m.toJson.toText

def ofText (text : String) : Except Json.ReadError Message := (schema.ofText text).map ofRecord

@[simp] theorem ofRecord_toRecord (m : Message) : ofRecord m.toRecord = m := rfl

end Message

namespace Counts

def schema : Schema := .record "OutboxCounts" <|
  .field "pending" .u64 <| .field "failing" .u64 <| .field "processed" .u64 .done

def toRecord (c : Counts) : schema.Val :=
  (UInt64.ofNat c.pending, UInt64.ofNat c.failing, UInt64.ofNat c.processed, ())

def ofRecord (v : schema.Val) : Counts :=
  let (pending, failing, processed, ()) := v
  ⟨UInt64.toNat pending, UInt64.toNat failing, UInt64.toNat processed⟩

def toJson (c : Counts) : Json := schema.toJson c.toRecord

def ofText (text : String) : Except Json.ReadError Counts := (schema.ofText text).map ofRecord

/-- Every count fits the 64 bits that a record has for it. -/
def Fits (c : Counts) : Prop :=
  c.pending < 0x10000000000000000 ∧ c.failing < 0x10000000000000000 ∧
    c.processed < 0x10000000000000000

theorem ofRecord_toRecord {c : Counts} (hfits : c.Fits) : ofRecord c.toRecord = c := by
  obtain ⟨pending, failing, processed⟩ := c
  obtain ⟨hpending, hfailing, hprocessed⟩ := hfits
  simp only [toRecord, ofRecord, Counts.mk.injEq]
  exact ⟨UInt64.toNat_ofNat_of_lt' hpending, UInt64.toNat_ofNat_of_lt' hfailing,
    UInt64.toNat_ofNat_of_lt' hprocessed⟩

end Counts

/-- A message that keeps failing, as operators see it. -/
structure StuckMessage where
  id : MessageId
  tag : MessageType
  retryCount : UInt32
  error : Option String
  /-- Somebody is still registered for the tag. -/
  hasConsumer : Bool
  deriving DecidableEq

namespace StuckMessage

def schema : Schema := .record "StuckMessage" <|
  .field "id" .id <| .field "message_type" .text <| .field "retry_count" .u32 <|
  .field "error" (.optional .text) <| .field "has_consumer" .flag .done

def toRecord (s : StuckMessage) : schema.Val :=
  (s.id, s.tag.tag, s.retryCount, s.error, s.hasConsumer, ())

def ofRecord (v : schema.Val) : StuckMessage :=
  let (id, tag, retryCount, error, hasConsumer, ()) := v
  ⟨id, ⟨tag⟩, retryCount, error, hasConsumer⟩

def toJson (s : StuckMessage) : Json := schema.toJson s.toRecord

def ofText (text : String) : Except Json.ReadError StuckMessage := (schema.ofText text).map ofRecord

@[simp] theorem ofRecord_toRecord (s : StuckMessage) : ofRecord s.toRecord = s := rfl

end StuckMessage

/-- The outbox at one point in time, as operators see it. -/
structure Status where
  counts : Counts
  registeredTypes : List MessageType
  /-- The messages that failed most often. -/
  stuck : List StuckMessage
  deriving DecidableEq

namespace Status

def schema : Schema := .record "OutboxStatus" <|
  .field "counts" Counts.schema <| .field "registered_types" (.list .text) <|
  .field "stuck" (.list StuckMessage.schema) .done

def toRecord (s : Status) : schema.Val :=
  (s.counts.toRecord, s.registeredTypes.map MessageType.tag, s.stuck.map StuckMessage.toRecord, ())

def ofRecord (v : schema.Val) : Status :=
  let (counts, types, stuck, ()) := v
  ⟨Counts.ofRecord counts, List.map MessageType.mk types, List.map StuckMessage.ofRecord stuck⟩

def toJson (s : Status) : Json := schema.toJson s.toRecord

def ofText (text : String) : Except Json.ReadError Status := (schema.ofText text).map ofRecord

/-- Nothing is left to deliver, unless there is too much to count. -/
def isDrained? (s : Status) : Option Bool := s.counts.unprocessed?.map (· == 0)

theorem ofRecord_toRecord {s : Status} (hfits : s.counts.Fits) : ofRecord s.toRecord = s := by
  obtain ⟨counts, types, stuck⟩ := s
  have htypes : (types.map MessageType.tag).map MessageType.mk = types := by
    rw [List.map_map]; exact List.map_id types
  have hstuck : (stuck.map StuckMessage.toRecord).map StuckMessage.ofRecord = stuck := by
    rw [List.map_map]; exact List.map_id stuck
  simp only [toRecord, ofRecord, Status.mk.injEq]
  exact ⟨Counts.ofRecord_toRecord hfits, htypes, hstuck⟩

end Status

end Outbox
