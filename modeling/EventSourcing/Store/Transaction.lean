import EventSourcing.Event

/-!
Transactions. A transaction changes the header of one stream and appends records to it; a record
holds one event or a packet of several.
-/

namespace EventSourcing

/-- A condition on the header of a stream, and the version it gets. -/
inductive HeaderChange where
  | create (version : Version)
  | advance (expected new : Version)
  deriving DecidableEq, Repr, Inhabited

namespace HeaderChange

def newVersion : HeaderChange → Version
  | .create version => version
  | .advance _ new => new

/-- A new stream is created, an existing one is advanced from where it is. -/
def moving (baseline new : Version) : HeaderChange :=
  if baseline.IsPresent then .advance baseline new else .create new

@[simp] theorem newVersion_moving (baseline new : Version) :
    (moving baseline new).newVersion = new := by
  by_cases present : baseline.IsPresent <;> simp [moving, present, newVersion]

end HeaderChange

/-- One or more events stored as one record. -/
structure Packet where
  first : StoredEvent
  others : List StoredEvent
  deriving Inhabited

namespace Packet

def ofList? : List StoredEvent → Option Packet
  | [] => none
  | first :: others => some ⟨first, others⟩

def events (packet : Packet) : List StoredEvent :=
  packet.first :: packet.others

theorem events_of_ofList? {events : List StoredEvent} {packet : Packet}
    (made : ofList? events = some packet) : packet.events = events := by
  cases events with
  | nil => cases made
  | cons first others =>
    cases made
    rfl

end Packet

inductive Record where
  | single (event : StoredEvent)
  | packed (packet : Packet)
  deriving Inhabited

namespace Record

def first : Record → StoredEvent
  | .single event => event
  | .packed packet => packet.first

def events : Record → List StoredEvent
  | .single event => [event]
  | .packed packet => packet.events

/-- A record is identified by its first event. -/
def id (record : Record) : Uuid := record.first.id

def firstPosition (record : Record) : Int := record.first.position

def initiator (record : Record) : Uuid := record.first.initiator

/-- The position of the last event. -/
def lastPosition (record : Record) : Int :=
  match record.events.getLast? with
  | some last => last.position
  | none => record.firstPosition

def kind : Record → String
  | .single _ => "event"
  | .packed _ => "packet"

theorem events_ne_nil (record : Record) : record.events ≠ [] := by
  cases record <;> simp [events, Packet.events]

theorem head?_events (record : Record) : record.events.head? = some record.first := by
  cases record <;> rfl

end Record

structure Transaction where
  stream : StreamKey
  header : HeaderChange
  records : List Record
  deriving Inhabited

namespace Transaction

def events (transaction : Transaction) : List StoredEvent :=
  transaction.records.flatMap Record.events

def newVersion (transaction : Transaction) : Version :=
  transaction.header.newVersion

/-- The records and the header change. -/
def operationCount (transaction : Transaction) : Nat :=
  transaction.records.length + 1

end Transaction

/-- What became of a submitted transaction. After a conflict nothing of it is applied. -/
inductive Outcome where
  | committed
  | conflict
  deriving DecidableEq, Repr

end EventSourcing
