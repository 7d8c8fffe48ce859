import EventSourcing.Proofs.Codec.Forms
import EventSourcing.Proofs.Postgres

/-!
Which rows are records. The body of a row has to be an array of forms of events: of exactly one if
the row is to be an event, of one at least if it is to be a packet. The record has these events in
their order, and what it is written as is read as the same record.
-/

namespace EventSourcing

namespace StoredEvent

/-- The position of an event that was read is a 64-bit word. -/
theorem Denotes.position {event : StoredEvent} {json : Json} (denotes : event.Denotes json) :
    (Text.Bounds.signed 64).Holds event.position := by
  have known : "position" ∈ Draft.fields.names := by decide
  cases denotes with
  | object given =>
    obtain ⟨json, -, -, inside⟩ := given _ known
    exact inside
  | array given =>
    obtain _ | ⟨-, _ | ⟨-, _ | ⟨shows, -⟩⟩⟩ := given
    exact shows.2

end StoredEvent

namespace Postgres

variable {kind : String} {body : Json} {record : Record}

/-- A record is read if its events are and if there are as many as its kind wants. -/
theorem recordOf_eq_ok_iff :
    recordOf kind body = .ok record ↔
      record.kind = kind ∧ body.readList StoredEvent.ofJson = .ok record.events := by
  unfold recordOf
  constructor
  · intro read
    split at read
    · cases read
    · split at read
      · obtain rfl := Except.ok.inj read
        exact ⟨rfl, ‹_›⟩
      · cases read
      · obtain rfl := Except.ok.inj read
        exact ⟨rfl, ‹_›⟩
      · cases read
  · rintro ⟨rfl, events⟩
    rw [events]
    cases record <;> rfl

theorem readList_eq_ok_iff (ordered : body.Ordered) {events : List StoredEvent} :
    body.readList StoredEvent.ofJson = .ok events ↔
      ∃ items, body = .array items ∧ List.Forall₂ StoredEvent.Denotes events items := by
  cases ordered with
  | @array items each =>
    have forms : (∃ others, Json.array items = .array others ∧
        List.Forall₂ StoredEvent.Denotes events others) ↔
          List.Forall₂ StoredEvent.Denotes events items := by
      simp
    rw [forms, Json.readList, Json.readEach_eq_ok_iff, List.forall₂_iff_zip, List.forall₂_iff_zip]
    have same {event : StoredEvent} {item : Json} (member : (event, item) ∈ events.zip items) :
        StoredEvent.ofJson item = .ok event ↔ event.Denotes item :=
      StoredEvent.ofJson_eq_ok_iff (each item (List.of_mem_zip member).2)
    refine and_congr_right fun _ => ⟨fun read => ?_, fun forms => ?_⟩
    · exact fun member => (same member).mp (read member)
    · exact fun member => (same member).mpr (forms member)
  | _ => exact iff_of_false nofun fun ⟨_, array, _⟩ => nomatch array

/-- Values are the forms of events in a row if each of them is a form of some event. -/
theorem exists_events_iff {items : List Json} :
    (∃ events, List.Forall₂ StoredEvent.Denotes events items) ↔
      ∀ item ∈ items, ∃ event : StoredEvent, event.Denotes item := by
  constructor
  · rintro ⟨events, forms⟩
    exact ((List.forall₂_and_left _ _).mp
      (forms.flip.imp fun item event denotes => ⟨⟨event, denotes⟩, denotes⟩)).1
  · intro each
    induction items with
    | nil => exact ⟨[], .nil⟩
    | cons item rest ih =>
      obtain ⟨⟨event, here⟩, later⟩ := List.forall_mem_cons.mp each
      obtain ⟨events, there⟩ := ih later
      exact ⟨event :: events, .cons here there⟩

/-- As many events as a kind wants make up a record of that kind. -/
theorem exists_record_iff {events : List StoredEvent} :
    (∃ record : Record, record.kind = kind ∧ record.events = events) ↔
      kind = "event" ∧ events.length = 1 ∨ kind = "packet" ∧ 1 ≤ events.length := by
  constructor
  · rintro ⟨record, rfl, rfl⟩
    cases record with
    | single event => exact .inl ⟨rfl, rfl⟩
    | packed packet => exact .inr ⟨rfl, Nat.succ_le_succ (Nat.zero_le _)⟩
  · rintro (⟨rfl, one⟩ | ⟨rfl, some⟩)
    · obtain ⟨event, rfl⟩ := List.length_eq_one_iff.mp one
      exact ⟨.single event, rfl, rfl⟩
    · obtain ⟨first, others, rfl⟩ := List.exists_cons_of_length_pos some
      exact ⟨.packed ⟨first, others⟩, rfl, rfl⟩

/-- A body is read as a record exactly if it is an array of forms of events, of one for an event and
of one or more for a packet; the record is of that kind and has these events in their order. Every
record that can be stored is read from what it is written as, and so is every record that was read,
if its timestamps have texts of their own. -/
theorem records_read_exactly (kind : String) (body : Json) (ordered : body.Ordered) :
    ((∃ record, recordOf kind body = .ok record) ↔
      ∃ items, body = .array items ∧
        (∀ item ∈ items, ∃ event : StoredEvent, event.Denotes item) ∧
        (kind = "event" ∧ items.length = 1 ∨ kind = "packet" ∧ 1 ≤ items.length)) ∧
    (∀ record, recordOf kind body = .ok record ↔
      record.kind = kind ∧
        ∃ items, body = .array items ∧ List.Forall₂ StoredEvent.Denotes record.events items) ∧
    (∀ record, (∀ event ∈ record.events, event.Storable) →
      recordOf record.kind (encodeBody record) = .ok record) ∧
    ∀ record, recordOf kind body = .ok record → (∀ event ∈ record.events, event.occurredAt.Plain) →
      recordOf kind (encodeBody record) = .ok record := by
  have exactly (record : Record) : recordOf kind body = .ok record ↔ record.kind = kind ∧
      ∃ items, body = .array items ∧ List.Forall₂ StoredEvent.Denotes record.events items :=
    recordOf_eq_ok_iff.trans (and_congr_right' (readList_eq_ok_iff ordered))
  refine ⟨?_, exactly, fun record => recordOf_encodeBody, fun record read plain => ?_⟩
  · constructor
    · rintro ⟨record, read⟩
      obtain ⟨same, items, rfl, forms⟩ := (exactly record).mp read
      have counted := exists_record_iff.mp ⟨record, same, rfl⟩
      rw [forms.length_eq] at counted
      exact ⟨items, rfl, exists_events_iff.mp ⟨_, forms⟩, counted⟩
    · rintro ⟨items, rfl, each, counted⟩
      obtain ⟨events, forms⟩ := exists_events_iff.mpr each
      rw [← forms.length_eq] at counted
      obtain ⟨record, same, rfl⟩ := exists_record_iff.mpr counted
      exact ⟨record, (exactly record).mpr ⟨same, items, rfl, forms⟩⟩
  · obtain ⟨rfl, items, -, forms⟩ := (exactly record).mp read
    have positions := (List.forall₂_and_left _ _).mp
      (forms.imp fun event item denotes => ⟨denotes.position, denotes⟩)
    exact recordOf_encodeBody fun event member => ⟨positions.1 event member, plain event member⟩

/-- An event in each of the two forms, with identifiers spelled in several ways and a member that is
no field. -/
def letter : Json :=
  .array
    [.object
      [("conversation_id", .string "00000000000000000000000000000005"),
        ("custom_properties", .object [("tenant", .string "north")]),
        ("event_id", .string "urn:uuid:0000000A-0000-0000-0000-00000000000b"),
        ("event_type", .string "Opened"),
        ("initiator_id", .string "\x7b00000000-0000-0000-0000-000000000007\x7d"),
        ("note", .null), ("occurred_at", .string "2024-01-01T01:00:00.5+01:00"),
        ("payload", .array []), ("position", .integer 0), ("stream_key", .string "Account-1")],
      .array
        [.string "0000000a-0000-0000-0000-00000000000C", .string "Account-1", .integer 1,
          .string "Closed", .null, .string "00000000-0000-0000-0000-000000000005",
          .string "00000000-0000-0000-0000-000000000007", .object [],
          .string "2024-01-01T00:00:01Z"]]

def letterRecord : Record := (recordOf "packet" letter).toOption.get (by decide)

theorem letter_ordered : letter.Ordered := by
  refine .array (List.forall_mem_cons.mpr ⟨.object ?_ ?_, List.forall_mem_cons.mpr
    ⟨.array ?_, nofun⟩⟩)
  · unfold Sorted.Ordered
    decide
  · simp only [List.forall_mem_cons]
    exact ⟨.string _, .object (List.pairwise_singleton _ _) (by simpa using .string _),
      .string _, .string _, .string _, .null, .string _, .array nofun, .integer _, .string _, nofun⟩
  · simp only [List.forall_mem_cons]
    exact ⟨.string _, .string _, .integer _, .string _, .null, .string _, .string _,
      .object .nil nofun, .string _, nofun⟩

theorem records_read_exactly_letter :
    letter.Ordered ∧ recordOf "packet" letter = .ok letterRecord ∧
      letterRecord.events.map (·.id) =
        [.ofNat 0x0000000a00000000000000000000000b, .ofNat 0x0000000a00000000000000000000000c] ∧
      letterRecord.events.map (·.occurredAt) = [⟨1704067200, 500000000⟩, ⟨1704067201, 0⟩] ∧
      (∃ items, letter = .array items ∧
        List.Forall₂ StoredEvent.Denotes letterRecord.events items) ∧
      (∀ event ∈ letterRecord.events, event.Storable) ∧
      recordOf letterRecord.kind (encodeBody letterRecord) = .ok letterRecord ∧
      recordOf "packet" (encodeBody letterRecord) = .ok letterRecord ∧
      ¬∃ record, recordOf "event" letter = .ok record := by
  have read : recordOf "packet" letter = .ok letterRecord := rfl
  have plain : ∀ event ∈ letterRecord.events, event.occurredAt.Plain := by
    have years : ∀ event ∈ letterRecord.events,
        event.occurredAt.nanos < Instant.nanosPerSecond ∧
          0 ≤ (CalendarDate.ofDayNumber (event.occurredAt.seconds / 86400)).year ∧
          (CalendarDate.ofDayNumber (event.occurredAt.seconds / 86400)).year ≤ 9999 := by
      decide
    exact fun event member =>
      ⟨(years event member).1, (years event member).2.1, (years event member).2.2⟩
  have positions : ∀ event ∈ letterRecord.events,
      (Text.Bounds.signed 64).Holds event.position := by
    decide
  have storable : ∀ event ∈ letterRecord.events, event.Storable := fun event member =>
    ⟨positions event member, plain event member⟩
  obtain ⟨-, exactly, written, again⟩ := records_read_exactly "packet" letter letter_ordered
  refine ⟨letter_ordered, read, by decide, by decide, ((exactly _).mp read).2, storable,
    written _ storable, again _ read plain, ?_⟩
  rw [(records_read_exactly "event" letter letter_ordered).1]
  rintro ⟨items, same, -, ⟨-, one⟩ | ⟨other, -⟩⟩
  · cases same
    cases one
  · exact absurd other (by decide)

end Postgres

end EventSourcing
