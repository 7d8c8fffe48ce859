import EventSourcing.Time.Clock
import EventSourcing.Uuid.Derived
import EventSourcing.Store.Layout
import EventSourcing.Store.Transaction

/-!
Planning a write. The events of a write follow each other from its baseline on; they share one
reading of the clock and the origin of the write. A write that does not fit takes no reading and
no identity.
-/

namespace EventSourcing

/-- Events to be put at the end of a stream. -/
structure Write where
  stream : StreamKey
  events : List NewEvent
  /-- The version of the stream that the writer has seen. -/
  retrieved : Version
  expected : ExpectedVersion
  origin : Origin

namespace Write

variable (write : Write) (baseline : Version) (now : Instant)

/-- An event of the write as it is stored, `place` places after the baseline's next one. -/
def stored (place : Nat) (id : Uuid) (event : NewEvent) : StoredEvent where
  id := id
  stream := write.stream
  position := (baseline.advance (place + 1)).value
  eventType := event.eventType
  payload := event.payload
  conversation := write.origin.conversation
  initiator := write.origin.initiator
  properties := write.origin.properties
  occurredAt := now

/-- The events in their places, from the given one on. -/
def placed : Nat → List Uuid → List NewEvent → List StoredEvent
  | index, id :: ids, event :: events =>
    write.stored baseline now index id event :: placed (index + 1) ids events
  | _, _, _ => []

theorem placed_eq_map_zipIdx (index : Nat) (ids : List Uuid) (events : List NewEvent) :
    write.placed baseline now index ids events =
      ((ids.zip events).zipIdx index).map fun entry =>
        write.stored baseline now entry.2 entry.1.1 entry.1.2 := by
  induction events generalizing index ids with
  | nil => cases ids <;> rfl
  | cons event rest ih =>
    cases ids with
    | nil => rfl
    | cons id ids =>
      simp only [placed, ih (index + 1) ids, List.zip_cons_cons, List.zipIdx_cons, List.map_cons]

/-- At each place stand the event and the identity of this place. -/
theorem getElem?_placed {index place : Nat} {ids : List Uuid} {events : List NewEvent}
    {event : StoredEvent}
    (found : (write.placed baseline now index ids events)[place]? = some event) :
    ∃ id new, ids[place]? = some id ∧ events[place]? = some new ∧
      event = write.stored baseline now (index + place) id new := by
  rw [placed_eq_map_zipIdx, List.getElem?_map, List.getElem?_zipIdx, Option.map_map,
    Option.map_eq_some_iff] at found
  obtain ⟨⟨id, new⟩, paired, rfl⟩ := found
  obtain ⟨drawn, listed⟩ := List.getElem?_zip_eq_some.mp paired
  exact ⟨id, new, drawn, listed, rfl⟩

end Write

namespace Layout

/-- Lays events out as records. A packet without events is left away. -/
def records (events : List StoredEvent) : Layout → List Record
  | individual => events.map .single
  | packets count => ((evenRuns events count).filterMap Packet.ofList?).map .packed

theorem flatMap_filterMap_packet (runs : List (List StoredEvent)) :
    ((runs.filterMap Packet.ofList?).map Record.packed).flatMap Record.events = runs.flatten := by
  induction runs with
  | nil => rfl
  | cons run rest ih =>
    cases run with
    | nil => simpa [List.filterMap_cons, Packet.ofList?] using ih
    | cons first others =>
      simpa [List.filterMap_cons, Packet.ofList?, Record.events, Packet.events] using ih

/-- No layout loses, adds or moves an event. -/
theorem flatMap_records (events : List StoredEvent) (layout : Layout) :
    (layout.records events).flatMap Record.events = events := by
  cases layout with
  | individual =>
    induction events with
    | nil => rfl
    | cons event rest ih => simpa [records, Record.events] using ih
  | packets count => rw [records, flatMap_filterMap_packet, flatten_evenRuns]

end Layout

/-- What a store plans with. -/
structure Planner where
  settings : StoreSettings := {}
  clock : Clock
  ids : IdSource

namespace Planner

/-- Whether the events of a write by `initiator` get derived identities. -/
def Derives (planner : Planner) (initiator : Uuid) : Prop :=
  planner.settings.idempotency ∧ initiator ≠ Uuid.nil

instance (planner : Planner) (initiator : Uuid) : Decidable (planner.Derives initiator) :=
  inferInstanceAs (Decidable (_ ∧ _))

def eventIds (planner : Planner) (initiator : Uuid) (count : Nat) : List Uuid :=
  if planner.Derives initiator then (List.range count).map initiator.derived
  else planner.ids.upcoming count

/-- The planner after it has planned `count` events by `initiator`. -/
def used (planner : Planner) (initiator : Uuid) (count : Nat) : Planner :=
  { planner with
    clock := planner.clock.tick
    ids := if planner.Derives initiator then planner.ids else planner.ids.skip count }

/-- The transaction that puts the events of `write` after `baseline`. -/
def transaction (planner : Planner) (write : Write) (baseline : Version) (layout : Layout) :
    Transaction :=
  let ids := planner.eventIds write.origin.initiator write.events.length
  { stream := write.stream
    header := .moving baseline (baseline.advance write.events.length)
    records := layout.records (write.placed baseline planner.clock.now 0 ids write.events) }

def plan (planner : Planner) (write : Write) (baseline : Version) :
    Except Error (Transaction × Planner) :=
  (planner.settings.layoutFor write.events.length).map fun layout =>
    (planner.transaction write baseline layout,
      planner.used write.origin.initiator write.events.length)

@[simp] theorem length_eventIds (planner : Planner) (initiator : Uuid) (count : Nat) :
    (planner.eventIds initiator count).length = count := by
  by_cases derived : planner.Derives initiator <;> simp [eventIds, derived]

theorem events_transaction (planner : Planner) (write : Write) (baseline : Version)
    (layout : Layout) :
    (planner.transaction write baseline layout).events =
      write.placed baseline planner.clock.now 0
        (planner.eventIds write.origin.initiator write.events.length) write.events :=
  Layout.flatMap_records _ layout

end Planner

end EventSourcing
