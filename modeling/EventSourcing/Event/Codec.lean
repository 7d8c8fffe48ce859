import EventSourcing.Event
import EventSourcing.Time.Rfc3339

/-!
Stored events as JSON: an object with one member per field, or an array of the fields in order.
-/

namespace EventSourcing

namespace Uuid

def ofJson (json : Json) : Except Mismatch Uuid := do
  let text ← json.readText "a formatted UUID string"
  match Uuid.ofText? text with
  | some id => pure id
  | none => throw (.refused "UUID parsing failed")

def toJson (id : Uuid) : Json := .string id.text

end Uuid

namespace Instant

def ofJson (json : Json) : Except Mismatch Instant := do
  let text ← json.readText "an RFC 3339 formatted date and time string"
  match Rfc3339.ofText text with
  | .ok instant => pure instant
  | .error fault => throw (.refused fault.message)

def toJson (instant : Instant) : Json := .string (Rfc3339.text instant)

end Instant

namespace StreamKey

def ofJson (json : Json) : Except Mismatch StreamKey :=
  json.readName.map StreamKey.mk

def toJson (key : StreamKey) : Json := .string key.text

end StreamKey

namespace Version

def ofJson (json : Json) : Except Mismatch Version := do
  match ofInt (← json.readSigned64) with
  | .ok version => pure version
  | .error value => throw (.refused (Error.invalidVersion value).message)

def toJson (version : Version) : Json := .integer version.value

end Version

namespace ExpectedVersion

def ofJson (json : Json) : Except Mismatch ExpectedVersion := do
  match ofCode (← json.readSigned64) with
  | .ok expected => pure expected
  | .error value => throw (.refused (Error.invalidVersion value).message)

def toJson (expected : ExpectedVersion) : Json := .integer expected.code

end ExpectedVersion

namespace Properties

def ofJson (json : Json) : Except Mismatch Properties :=
  json.readTextMap.map fun pairs => ⟨Sorted.ofList pairs, Sorted.ordered_ofList pairs⟩

def toJson (properties : Properties) : Json :=
  .object (properties.entries.map fun pair => (pair.1, .string pair.2))

end Properties

namespace StoredEvent

/-- A stored event of which some fields are still missing. -/
structure Draft where
  id : Option Uuid := none
  stream : Option StreamKey := none
  position : Option Int := none
  eventType : Option String := none
  payload : Option Json := none
  conversation : Option Uuid := none
  initiator : Option Uuid := none
  properties : Option Properties := none
  occurredAt : Option Instant := none

namespace Draft

def take (name : String) (json : Json) (draft : Draft) : Except Mismatch Draft :=
  match name with
  | "event_id" => (Uuid.ofJson json).map fun id => { draft with id := some id }
  | "stream_key" => (StreamKey.ofJson json).map fun key => { draft with stream := some key }
  | "position" => json.readSigned64.map fun n => { draft with position := some n }
  | "event_type" => json.readName.map fun name => { draft with eventType := some name }
  | "payload" => .ok { draft with payload := some json }
  | "conversation_id" => (Uuid.ofJson json).map fun id => { draft with conversation := some id }
  | "initiator_id" => (Uuid.ofJson json).map fun id => { draft with initiator := some id }
  | "custom_properties" =>
    (Properties.ofJson json).map fun properties => { draft with properties := some properties }
  | "occurred_at" =>
    (Instant.ofJson json).map fun instant => { draft with occurredAt := some instant }
  | _ => .ok draft

def fields : Json.Fields Draft where
  typeName := "StoredEvent"
  names := ["event_id", "stream_key", "position", "event_type", "payload", "conversation_id",
    "initiator_id", "custom_properties", "occurred_at"]
  take := take

/-- The first missing field in the order of the fields is reported. -/
def finish (draft : Draft) : Except Mismatch StoredEvent := do
  let id ← Json.required "event_id" draft.id
  let stream ← Json.required "stream_key" draft.stream
  let position ← Json.required "position" draft.position
  let eventType ← Json.required "event_type" draft.eventType
  let payload ← Json.required "payload" draft.payload
  let conversation ← Json.required "conversation_id" draft.conversation
  let initiator ← Json.required "initiator_id" draft.initiator
  let properties ← Json.required "custom_properties" draft.properties
  let occurredAt ← Json.required "occurred_at" draft.occurredAt
  pure { id, stream, position, eventType, payload, conversation, initiator, properties, occurredAt }

end Draft

def ofJson (json : Json) : Except Mismatch StoredEvent := do
  let draft ← Draft.fields.read {} json
  draft.finish

def toJson (event : StoredEvent) : Json :=
  Json.ofMembers
    [("event_id", event.id.toJson), ("stream_key", event.stream.toJson),
      ("position", .integer event.position), ("event_type", .string event.eventType),
      ("payload", event.payload), ("conversation_id", event.conversation.toJson),
      ("initiator_id", event.initiator.toJson), ("custom_properties", event.properties.toJson),
      ("occurred_at", event.occurredAt.toJson)]

end StoredEvent

end EventSourcing
