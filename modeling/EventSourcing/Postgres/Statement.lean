import EventSourcing.Event.Codec
import EventSourcing.Postgres.Schema
import EventSourcing.Store.Transaction

/-!
The statements that a store puts to a database, and how its rows are read.
-/

namespace EventSourcing.Postgres

inductive Parameter where
  | text (text : String)
  | integer (value : Int)
  | uuid (id : Uuid)
  | document (body : Json)

structure Statement where
  sql : String
  /-- None for a statement that is sent as it stands. -/
  parameters : Option (List Parameter) := none

def begin : Statement := { sql := "BEGIN" }

def commit : Statement := { sql := "COMMIT" }

def rollback : Statement := { sql := "ROLLBACK" }

def schema : List Statement := [{ sql := headersTable }, { sql := recordsTable }]

/-- Changes one row if the header is as the change says, and none otherwise. -/
def changeHeader (stream : StreamKey) : HeaderChange → Statement
  | .create version =>
    { sql := "INSERT INTO stream_headers (stream_key, version) VALUES ($1, $2) " ++
        "ON CONFLICT (stream_key) DO NOTHING"
      parameters := some [.text stream.text, .integer version.value] }
  | .advance expected new =>
    { sql := "UPDATE stream_headers SET version = $3, updated_at = NOW() " ++
        "WHERE stream_key = $1 AND version = $2"
      parameters := some [.text stream.text, .integer expected.value, .integer new.value] }

/-- The body of a record is always a list of events. -/
def encodeBody (record : Record) : Json :=
  .array (record.events.map StoredEvent.toJson)

def insertRecord (stream : StreamKey) (record : Record) : Statement where
  sql := "INSERT INTO stream_records " ++
    "(record_id, stream_key, first_position, last_position, kind, initiator_id, body) " ++
    "VALUES ($1, $2, $3, $4, $5, $6, $7)"
  parameters := some
    [.uuid record.id, .text stream.text, .integer record.firstPosition,
      .integer record.lastPosition, .text record.kind, .uuid record.initiator,
      .document (encodeBody record)]

def selectRecords (stream : StreamKey) : Statement where
  sql := "SELECT kind, body FROM stream_records WHERE stream_key = $1 ORDER BY first_position"
  parameters := some [.text stream.text]

def selectVersion (stream : StreamKey) : Statement where
  sql := "SELECT version FROM stream_headers WHERE stream_key = $1"
  parameters := some [.text stream.text]

def selectInitiator (stream : StreamKey) (initiator : Uuid) : Statement where
  sql := "SELECT EXISTS (SELECT 1 FROM stream_records " ++
    "WHERE stream_key = $1 AND initiator_id = $2)"
  parameters := some [.text stream.text, .uuid initiator]

/-- Reads a record of the given kind. A packet holds one event or more, any other record one. -/
def recordOf (kind : String) (body : Json) : Except Error Record :=
  match body.readList StoredEvent.ofJson with
  | .error mismatch => .error (.serialization (.decodeRecord mismatch))
  | .ok events =>
    match kind, events with
    | "event", [event] => .ok (.single event)
    | "packet", [] => .error (.serialization .emptyPacket)
    | "packet", first :: others => .ok (.packed ⟨first, others⟩)
    | kind, events => .error (.serialization (.malformedRecord kind events.length))

end EventSourcing.Postgres
