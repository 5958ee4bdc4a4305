import Outbox.Codec

/-! # What producers hand over

A kind of messages has a tag and a type of payloads; a domain event has a name instead of the tag.
A producer hands over a message, an event, or an event in a notification, or a payload with a tag
of its choice. An event is stored by itself under the tag of its name, whatever carried it.
-/

namespace Outbox

structure MessageKind where
  tag : MessageType
  schema : Json.Schema

structure EventKind where
  name : String
  schema : Json.Schema

/-- An event in a wrapper. -/
structure Notification (e : EventKind) where
  event : e.schema.Val

namespace EventKind

def tag (e : EventKind) : MessageType := .event e.name

/-- Notifications of the event as messages. -/
def notifications (e : EventKind) : MessageKind := ⟨e.tag, e.schema⟩

end EventKind

/-- The payload of a notification is the event. -/
def Notification.payload {e : EventKind} (n : Notification e) : e.notifications.schema.Val :=
  n.event

inductive Handover
  | raw (tag : MessageType) (s : Json.Schema) (v : s.Val)
  | message (kind : MessageKind) (v : kind.schema.Val)
  | event (e : EventKind) (v : e.schema.Val)
  | notification {e : EventKind} (n : Notification e)

namespace Handover

def tag : Handover → MessageType
  | raw tag _ _ => tag
  | message kind _ => kind.tag
  | event e _ => e.tag
  | notification (e := e) _ => e.notifications.tag

def schema : Handover → Json.Schema
  | raw _ s _ => s
  | message kind _ => kind.schema
  | event e _ => e.schema
  | notification (e := e) _ => e.notifications.schema

def value : (h : Handover) → h.schema.Val
  | raw _ _ v => v
  | message _ v => v
  | event _ v => v
  | notification n => n.payload

def payload (h : Handover) : Payload := .typed h.schema h.value

/-- The content that is stored. -/
def content (h : Handover) : String := h.schema.write h.value

end Handover

end Outbox
