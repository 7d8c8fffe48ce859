import EventSourcing.Proofs.Codec
import EventSourcing.Proofs.Identifiers.Spellings
import EventSourcing.Proofs.Json
import Mathlib.Data.List.Nodup

/-!
All forms of a stored event in JSON. An event may be given as an object with a member for each of
its fields, whatever else is in it, or as an array of its fields in order. A value is read as the
event of which it is a form, and no other value is read.
-/

namespace EventSourcing

/-- An array of all fields is taken as the object that has them under their names. -/
theorem Json.Fields.takeItems_eq_ok_iff {δ : Type} {fields : Fields δ} {names : List String}
    (known : ∀ name ∈ names, name ∈ fields.names) {count : Nat} {items : List Json}
    {draft last : δ} :
    fields.takeItems count names items draft = .ok last ↔
      names.length = items.length ∧ fields.takeMembers (names.zip items) draft = .ok last := by
  induction names generalizing count items draft with
  | nil => cases items <;> simp [takeItems, takeMembers]
  | cons name rest ih =>
    obtain ⟨here, later⟩ := List.forall_mem_cons.mp known
    cases items with
    | nil => simp [takeItems]
    | cons item others =>
      simp only [takeItems, bind_eq_ok_iff, ih later, List.zip_cons_cons, takeMembers, if_pos here,
        List.length_cons, Nat.add_right_cancel_iff]
      constructor
      · rintro ⟨next, taken, long, more⟩
        exact ⟨long, next, taken, more⟩
      · rintro ⟨long, next, taken, more⟩
        exact ⟨next, taken, long, more⟩

theorem Uuid.ofJson_eq_ok_iff {json : Json} {id : Uuid} :
    Uuid.ofJson json = .ok id ↔ ∃ text, json = .string text ∧ id.Spells text.toList := by
  simp only [Uuid.ofJson, bind_eq_ok_iff, Json.readText_eq_ok_iff, ← Uuid.ofText?_eq_some_iff]
  refine exists_congr fun text => and_congr_right fun _ => ?_
  cases Uuid.ofText? text with
  | none => exact iff_of_false (fun read => by cases read) fun same => by cases same
  | some read => simp [pure, Except.pure]

theorem Instant.ofJson_eq_ok_iff {json : Json} {instant : Instant} :
    Instant.ofJson json = .ok instant ↔
      ∃ text, json = .string text ∧ Rfc3339.ofText text = .ok instant := by
  simp only [Instant.ofJson, bind_eq_ok_iff, Json.readText_eq_ok_iff]
  refine exists_congr fun text => and_congr_right fun _ => ?_
  cases Rfc3339.ofText text with
  | error fault => exact iff_of_false (fun read => by cases read) fun same => by cases same
  | ok read => simp [pure, Except.pure]

theorem StreamKey.ofJson_eq_ok_iff {json : Json} {key : StreamKey} :
    StreamKey.ofJson json = .ok key ↔ json = .string key.text := by
  simp only [StreamKey.ofJson, map_eq_ok_iff, Json.readName, Json.readText_eq_ok_iff]
  constructor
  · rintro ⟨text, same, rfl⟩
    exact same
  · exact fun same => ⟨key.text, same, rfl⟩

theorem Properties.ofJson_eq_ok_iff {json : Json} {properties : Properties} :
    Properties.ofJson json = .ok properties ↔
      ∃ pairs, json = .object (pairs.map fun pair => (pair.1, .string pair.2)) ∧
        properties.entries = Sorted.ofList pairs := by
  simp only [Properties.ofJson, map_eq_ok_iff, Json.readTextMap_eq_ok_iff]
  refine exists_congr fun pairs => and_congr_right fun _ => ?_
  obtain ⟨entries, ordered⟩ := properties
  constructor
  · exact fun same => (congrArg Properties.entries same).symm
  · rintro rfl
    rfl

namespace StoredEvent

/-- Whether a value is what a field of an event may be given as. -/
def Shows (event : StoredEvent) : String → Json → Prop
  | "event_id", json => ∃ text, json = .string text ∧ event.id.Spells text.toList
  | "stream_key", json => json = .string event.stream.text
  | "position", json =>
    json = .integer event.position ∧ (Text.Bounds.signed 64).Holds event.position
  | "event_type", json => json = .string event.eventType
  | "payload", json => json = event.payload
  | "conversation_id", json => ∃ text, json = .string text ∧ event.conversation.Spells text.toList
  | "initiator_id", json => ∃ text, json = .string text ∧ event.initiator.Spells text.toList
  | "custom_properties", json =>
    ∃ pairs, json = .object (pairs.map fun pair => (pair.1, .string pair.2)) ∧
      event.properties.entries = Sorted.ofList pairs
  | "occurred_at", json =>
    ∃ text, json = .string text ∧ Rfc3339.ofText text = .ok event.occurredAt
  | _, _ => False

/-- Whether a value is a form of an event: an object with a member for each field, or an array of
the fields in order. -/
inductive Denotes (event : StoredEvent) : Json → Prop where
  | object {members : List (String × Json)}
      (given : ∀ name ∈ Draft.fields.names,
        ∃ json, (name, json) ∈ members ∧ event.Shows name json) :
      Denotes event (.object members)
  | array {items : List Json} (given : List.Forall₂ event.Shows Draft.fields.names items) :
      Denotes event (.array items)

namespace Draft

/-- Whether a draft has a field as it is in an event. -/
def Has (event : StoredEvent) (draft : Draft) : String → Prop
  | "event_id" => draft.id = some event.id
  | "stream_key" => draft.stream = some event.stream
  | "position" => draft.position = some event.position
  | "event_type" => draft.eventType = some event.eventType
  | "payload" => draft.payload = some event.payload
  | "conversation_id" => draft.conversation = some event.conversation
  | "initiator_id" => draft.initiator = some event.initiator
  | "custom_properties" => draft.properties = some event.properties
  | "occurred_at" => draft.occurredAt = some event.occurredAt
  | _ => False

variable {event : StoredEvent} {draft next last : Draft} {name : String} {json : Json}

theorem finish_eq_ok_iff :
    draft.finish = .ok event ↔ ∀ name ∈ fields.names, draft.Has event name := by
  have required {α : Type} {name : String} {field : Option α} {value : α} :
      Json.required name field = .ok value ↔ field = some value := by
    cases field <;> simp [Json.required]
  simp only [finish, bind_eq_ok_iff, required, fields, List.forall_mem_cons, Has]
  constructor
  · rintro ⟨id, one, stream, two, position, three, eventType, four, payload, five, conversation,
      six, initiator, seven, properties, eight, occurredAt, nine, ⟨⟩⟩
    exact ⟨one, two, three, four, five, six, seven, eight, nine, List.forall_mem_nil _⟩
  · rintro ⟨one, two, three, four, five, six, seven, eight, nine, -⟩
    exact ⟨_, one, _, two, _, three, _, four, _, five, _, six, _, seven, _, eight, _, nine, rfl⟩

/-- A draft with one field missing. -/
def without (draft : Draft) : String → Draft
  | "event_id" => { draft with id := none }
  | "stream_key" => { draft with stream := none }
  | "position" => { draft with position := none }
  | "event_type" => { draft with eventType := none }
  | "payload" => { draft with payload := none }
  | "conversation_id" => { draft with conversation := none }
  | "initiator_id" => { draft with initiator := none }
  | "custom_properties" => { draft with properties := none }
  | "occurred_at" => { draft with occurredAt := none }
  | _ => draft

theorem has_without {other : String} (different : other ≠ name) :
    (draft.without name).Has event other ↔ draft.Has event other := by
  unfold without
  split
  all_goals
    unfold Has
    split
    all_goals first | rfl | exact absurd rfl different

/-- What comes of taking a field: it is as in an event exactly if the value shows that, and the
other fields stay as they are. -/
structure Takes (event : StoredEvent) (name : String) (json : Json) (draft : Draft)
    (result : Except Mismatch Draft) : Prop where
  own : ∀ next, result = .ok next → (next.Has event name ↔ event.Shows name json)
  others : ∀ next, result = .ok next →
    ∀ other, other ≠ name → (next.Has event other ↔ draft.Has event other)
  succeeds : event.Shows name json → ∃ next, result = .ok next

/-- A field is read and then set. -/
theorem Takes.of_map {α : Type} {read : Except Mismatch α} {set : α → Draft}
    {get : Draft → Option α} {field : α} (reads : read = .ok field ↔ event.Shows name json)
    (has : ∀ draft : Draft, draft.Has event name ↔ get draft = some field)
    (stored : ∀ value, get (set value) = some value)
    (kept : ∀ value, (set value).without name = draft.without name) :
    Takes event name json draft (read.map set) where
  own next taken := by
    obtain ⟨value, rfl, rfl⟩ := map_eq_ok_iff.mp taken
    rw [← reads, has, stored, Option.some.injEq, Except.ok.injEq]
  others next taken other different := by
    obtain ⟨value, -, rfl⟩ := map_eq_ok_iff.mp taken
    rw [← has_without different, kept value, has_without different]
  succeeds shows := ⟨set field, by rw [reads.mpr shows, Except.map]⟩

theorem takes (known : name ∈ fields.names) (event : StoredEvent) (json : Json) (draft : Draft) :
    Takes event name json draft (take name json draft) := by
  have payload : take "payload" json draft =
      (Except.ok json).map fun value => { draft with payload := some value } := rfl
  simp only [fields, List.mem_cons, List.not_mem_nil, or_false] at known
  rcases known with rfl | rfl | rfl | rfl | rfl | rfl | rfl | rfl | rfl
  · exact .of_map Uuid.ofJson_eq_ok_iff (fun _ => .rfl) (fun _ => rfl) fun _ => rfl
  · exact .of_map StreamKey.ofJson_eq_ok_iff (fun _ => .rfl) (fun _ => rfl) fun _ => rfl
  · exact .of_map Json.readInteger_eq_ok_iff (fun _ => .rfl) (fun _ => rfl) fun _ => rfl
  · exact .of_map Json.readText_eq_ok_iff (fun _ => .rfl) (fun _ => rfl) fun _ => rfl
  · rw [payload]
    have same : (.ok json : Except Mismatch Json) = .ok event.payload ↔ json = event.payload :=
      ⟨Except.ok.inj, congrArg Except.ok⟩
    exact .of_map same (fun _ => .rfl) (fun _ => rfl) fun _ => rfl
  · exact .of_map Uuid.ofJson_eq_ok_iff (fun _ => .rfl) (fun _ => rfl) fun _ => rfl
  · exact .of_map Uuid.ofJson_eq_ok_iff (fun _ => .rfl) (fun _ => rfl) fun _ => rfl
  · exact .of_map Properties.ofJson_eq_ok_iff (fun _ => .rfl) (fun _ => rfl) fun _ => rfl
  · exact .of_map Instant.ofJson_eq_ok_iff (fun _ => .rfl) (fun _ => rfl) fun _ => rfl

theorem not_has_blank : ¬Has event {} name := by
  unfold Has
  split <;> simp

variable {members : List (String × Json)}

/-- A field for which there is no member stays as it is. -/
theorem has_iff_of_absent (absent : ∀ member ∈ members, member.1 ≠ name)
    (taken : fields.takeMembers members draft = .ok last) :
    last.Has event name ↔ draft.Has event name := by
  induction members generalizing draft with
  | nil =>
    obtain rfl := Except.ok.inj taken
    rfl
  | cons member rest ih =>
    obtain ⟨here, later⟩ := List.forall_mem_cons.mp absent
    rw [Json.Fields.takeMembers] at taken
    split at taken
    · rename_i key
      obtain ⟨next, first, others⟩ := bind_eq_ok_iff.mp taken
      exact (ih later others).trans ((takes key event _ draft).others next first name here.symm)
    · exact ih later taken

/-- With different keys, a member decides about its field. -/
theorem has_iff_of_member (known : name ∈ fields.names) (keys : (members.map (·.1)).Nodup)
    (member : (name, json) ∈ members) (taken : fields.takeMembers members draft = .ok last) :
    last.Has event name ↔ event.Shows name json := by
  induction members generalizing draft with
  | nil => cases member
  | cons first rest ih =>
    obtain ⟨new, others⟩ := List.nodup_cons.mp keys
    rw [Json.Fields.takeMembers] at taken
    rcases List.mem_cons.mp member with rfl | later
    · rw [if_pos known] at taken
      obtain ⟨next, here, there⟩ := bind_eq_ok_iff.mp taken
      have absent : ∀ other ∈ rest, other.1 ≠ name := fun other inside same =>
        new (List.mem_map.mpr ⟨other, inside, same⟩)
      exact (has_iff_of_absent absent there).trans ((takes known event json draft).own next here)
    · split at taken
      · obtain ⟨next, -, there⟩ := bind_eq_ok_iff.mp taken
        exact ih others later there
      · exact ih others later taken

theorem exists_takeMembers
    (shows : ∀ member ∈ members, member.1 ∈ fields.names → event.Shows member.1 member.2)
    (draft : Draft) : ∃ last, fields.takeMembers members draft = .ok last := by
  induction members generalizing draft with
  | nil => exact ⟨draft, rfl⟩
  | cons member rest ih =>
    obtain ⟨here, later⟩ := List.forall_mem_cons.mp shows
    rw [Json.Fields.takeMembers]
    split
    · rename_i known
      obtain ⟨next, taken⟩ := (takes known event _ draft).succeeds (here known)
      obtain ⟨last, others⟩ := ih later next
      exact ⟨last, bind_eq_ok_iff.mpr ⟨next, taken, others⟩⟩
    · exact ih later draft

/-- With different keys, members are read as the event of which they show every field. -/
theorem takeMembers_finish_iff (keys : (members.map (·.1)).Nodup) :
    (fields.takeMembers members {} >>= finish) = .ok event ↔
      ∀ name ∈ fields.names, ∃ json, (name, json) ∈ members ∧ event.Shows name json := by
  rw [bind_eq_ok_iff]
  constructor
  · rintro ⟨last, taken, finished⟩ name known
    have has := finish_eq_ok_iff.mp finished name known
    by_cases present : ∃ json, (name, json) ∈ members
    · obtain ⟨json, member⟩ := present
      exact ⟨json, member, (has_iff_of_member known keys member taken).mp has⟩
    · have absent : ∀ member ∈ members, member.1 ≠ name := by
        rintro ⟨key, json⟩ inside rfl
        exact present ⟨json, inside⟩
      exact absurd ((has_iff_of_absent absent taken).mp has) not_has_blank
  · intro given
    have shows : ∀ member ∈ members, member.1 ∈ fields.names →
        event.Shows member.1 member.2 := by
      intro member inside known
      obtain ⟨json, there, shows⟩ := given member.1 known
      rwa [List.inj_on_of_nodup_map keys inside there rfl]
    obtain ⟨last, taken⟩ := exists_takeMembers shows {}
    refine ⟨last, taken, finish_eq_ok_iff.mpr fun name known => ?_⟩
    obtain ⟨json, member, shown⟩ := given name known
    exact (has_iff_of_member known keys member taken).mpr shown

end Draft

/-- A value is read as an event exactly if it is a form of it. -/
theorem ofJson_eq_ok_iff {json : Json} (ordered : json.Ordered) {event : StoredEvent} :
    ofJson json = .ok event ↔ event.Denotes json := by
  cases ordered with
  | @object members keys each =>
    have distinct : (members.map (·.1)).Nodup :=
      List.pairwise_map.mpr (keys.imp fun before => String.ne_of_lt before)
    refine (Draft.takeMembers_finish_iff distinct).trans ⟨.object, fun denotes => ?_⟩
    cases denotes with
    | object given => exact given
  | @array items each =>
    have names : Draft.fields.names.Nodup := by decide
    have whole : ofJson (.array items) = .ok event ↔
        Draft.fields.names.length = items.length ∧
          (Draft.fields.takeMembers (Draft.fields.names.zip items) {} >>= Draft.finish) =
            .ok event := by
      simp only [ofJson, Json.Fields.read, bind_eq_ok_iff,
        Json.Fields.takeItems_eq_ok_iff fun _ known => known, and_assoc, exists_and_left]
    have forms : event.Denotes (.array items) ↔
        List.Forall₂ event.Shows Draft.fields.names items := by
      refine ⟨fun denotes => ?_, .array⟩
      cases denotes with
      | array given => exact given
    rw [whole, forms, List.forall₂_iff_zip]
    refine and_congr_right fun long => ?_
    have keys : (Draft.fields.names.zip items).map (·.1) = Draft.fields.names :=
      List.map_fst_zip (Nat.le_of_eq long)
    rw [Draft.takeMembers_finish_iff (keys.symm ▸ names)]
    constructor
    · intro given name json member
      obtain ⟨other, there, shows⟩ := given name (List.of_mem_zip member).1
      cases List.inj_on_of_nodup_map (keys.symm ▸ names) member there rfl
      exact shows
    · intro given name known
      obtain ⟨⟨_, json⟩, member, rfl⟩ := List.mem_map.mp (keys.symm ▸ known)
      exact ⟨json, member, given member⟩
  | _ => exact iff_of_false (fun read => by cases read) fun denotes => by cases denotes

end StoredEvent

end EventSourcing
