import EventSourcing.Event.Codec
import EventSourcing.Proofs.Identifiers
import EventSourcing.Proofs.Rfc3339
import Mathlib.Data.List.Forall2

/-!
What the readers of JSON accept, and that stored events read back as they were written, field for
field.
-/

namespace EventSourcing

section Except

variable {ε α β : Type} {first : Except ε α}

theorem bind_eq_ok_iff {next : α → Except ε β} {result : β} :
    (first >>= next) = .ok result ↔ ∃ value, first = .ok value ∧ next value = .ok result := by
  cases first <;> simp [bind, Except.bind]

theorem map_eq_ok_iff {change : α → β} {result : β} :
    first.map change = .ok result ↔ ∃ value, first = .ok value ∧ change value = result := by
  cases first <;> simp [Except.map]

end Except

namespace Json

variable {json : Json}

theorem readText_eq_ok_iff {expected text : String} :
    json.readText expected = .ok text ↔ json = .string text := by
  cases json <;> simp [readText, mismatch]

theorem readInteger_eq_ok_iff {bounds : Text.Bounds} {expected : String} {value : Int} :
    json.readInteger bounds expected = .ok value ↔ json = .integer value ∧ bounds.Holds value := by
  cases json with
  | integer number =>
    rw [readInteger]
    split
    · rename_i inside
      simp only [Except.ok.injEq, Json.integer.injEq]
      exact ⟨fun same => ⟨same, same ▸ inside⟩, And.left⟩
    · rename_i outside
      refine iff_of_false nofun fun ⟨same, inside⟩ => outside ?_
      rwa [Json.integer.inj same]
  | _ => simp [readInteger, mismatch]

theorem readMemberTexts_eq_ok_iff {members : List (String × Json)}
    {pairs : List (String × String)} :
    readMemberTexts members = .ok pairs ↔
      members = pairs.map fun pair => (pair.1, .string pair.2) := by
  induction members generalizing pairs with
  | nil => cases pairs <;> simp [readMemberTexts]
  | cons member rest ih =>
    obtain ⟨key, value⟩ := member
    simp only [readMemberTexts, bind_eq_ok_iff, readName, readText_eq_ok_iff, ih]
    constructor
    · rintro ⟨text, rfl, others, rfl, ⟨⟩⟩
      rfl
    · intro same
      obtain ⟨⟨_, text⟩, others, rfl, here, there⟩ := List.map_eq_cons_iff.mp same.symm
      cases here
      exact ⟨text, rfl, others, there.symm, rfl⟩

theorem readTextMap_eq_ok_iff {pairs : List (String × String)} :
    json.readTextMap = .ok pairs ↔
      json = .object (pairs.map fun pair => (pair.1, .string pair.2)) := by
  cases json <;> simp [readTextMap, mismatch, readMemberTexts_eq_ok_iff]

theorem readEach_eq_ok_iff {α : Type} {read : Json → Except Mismatch α} {items : List Json}
    {values : List α} :
    readEach read items = .ok values ↔
      List.Forall₂ (fun value item => read item = .ok value) values items := by
  induction items generalizing values with
  | nil => simp [readEach, eq_comm]
  | cons item rest ih =>
    simp only [readEach, bind_eq_ok_iff, ih, List.forall₂_cons_right_iff]
    constructor
    · rintro ⟨value, here, others, there, ⟨⟩⟩
      exact ⟨value, others, here, there, rfl⟩
    · rintro ⟨value, others, here, there, rfl⟩
      exact ⟨value, here, others, there, rfl⟩

/-- Items that are read back one by one are read back in a row. -/
theorem readEach_map {α : Type} {read : Json → Except Mismatch α} {write : α → Json}
    {items : List α} (readable : ∀ item ∈ items, read (write item) = .ok item) :
    readEach read (items.map write) = .ok items :=
  readEach_eq_ok_iff.mpr (List.forall₂_map_right_iff.mpr (List.forall₂_same.mpr readable))

end Json

theorem Uuid.ofJson_toJson (id : Uuid) : Uuid.ofJson id.toJson = .ok id := by
  simp only [Uuid.ofJson, Uuid.toJson, Json.readText, Uuid.ofText?_text, bind, Except.bind]
  rfl

theorem Instant.ofJson_toJson {instant : Instant} (plain : instant.Plain) :
    Instant.ofJson instant.toJson = .ok instant := by
  simp only [Instant.ofJson, Instant.toJson, Json.readText, Rfc3339.ofText_text plain, bind,
    Except.bind]
  rfl

theorem StreamKey.ofJson_toJson (key : StreamKey) : StreamKey.ofJson key.toJson = .ok key := rfl

theorem Properties.ofJson_toJson (properties : Properties) :
    Properties.ofJson properties.toJson = .ok properties := by
  obtain ⟨entries, ordered⟩ := properties
  simp only [Properties.ofJson, Properties.toJson, Json.readTextMap_eq_ok_iff.mpr rfl, Except.map,
    Sorted.ofList_of_ordered ordered]

namespace StoredEvent

/-- Whether an event is one that can be stored: its position is a 64-bit word, and its timestamp has
a text of its own. -/
structure Storable (event : StoredEvent) : Prop where
  position : (Text.Bounds.signed 64).Holds event.position
  occurredAt : event.occurredAt.Plain

theorem toJson_eq (event : StoredEvent) :
    event.toJson = .object
      [("conversation_id", event.conversation.toJson),
        ("custom_properties", event.properties.toJson), ("event_id", event.id.toJson),
        ("event_type", .string event.eventType), ("initiator_id", event.initiator.toJson),
        ("occurred_at", event.occurredAt.toJson), ("payload", event.payload),
        ("position", .integer event.position), ("stream_key", event.stream.toJson)] := by
  simp only [toJson, Json.ofMembers, Sorted.ofList, Sorted.insert, List.foldl, String.reduceLT,
    String.reduceEq, ↓reduceIte]

theorem ofJson_toJson {event : StoredEvent} (storable : event.Storable) :
    ofJson event.toJson = .ok event := by
  have position : (Json.integer event.position).readSigned64 = .ok event.position :=
    if_pos storable.position
  rw [toJson_eq]
  simp [ofJson, Draft.fields, Json.Fields.read, Json.Fields.takeMembers, Draft.take, Draft.finish,
    Uuid.ofJson_toJson, StreamKey.ofJson_toJson, Properties.ofJson_toJson, position, Json.readName,
    Json.readText, Instant.ofJson_toJson storable.occurredAt, Json.required, Except.map, bind,
    Except.bind, pure, Except.pure]

end StoredEvent

end EventSourcing
