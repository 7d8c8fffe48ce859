import EventSourcing.Proofs.Planned
import EventSourcing.Store

/-!
Streams that are sound: their events stand at the positions from 0 to the version in the header, and
the positions and identities set down beside the records are those of the events. A planned
transaction that a sound stream accepts goes on exactly where the stream ends.
-/

namespace EventSourcing

theorem fresh_iff {α : Type} [DecidableEq α] (used keys : List α) :
    fresh used keys = true ↔ keys.Nodup ∧ ∀ key ∈ keys, key ∉ used := by
  induction keys generalizing used with
  | nil => simp [fresh]
  | cons key rest ih =>
    simp only [fresh, Bool.and_eq_true, Bool.not_eq_true', List.contains_eq_mem,
      decide_eq_false_iff_not, ih, List.nodup_cons, List.mem_cons, not_or, forall_eq_or_imp]
    constructor
    · rintro ⟨unused, distinct, others⟩
      exact ⟨⟨fun again => (others key again).1 rfl, distinct⟩, unused,
        fun other member => (others other member).2⟩
    · rintro ⟨⟨once, distinct⟩, unused, others⟩
      refine ⟨unused, distinct, fun other member => ⟨?_, others other member⟩⟩
      rintro rfl
      exact once member

/-- Whether the events of a record were written by one initiator at positions in a row. -/
structure Record.Sound (record : Record) : Prop where
  filled : record.events ≠ []
  places : record.events.map (·.position) = places record.firstPosition record.events.length
  uniform : ∀ event ∈ record.events, event.initiator = record.initiator

namespace Planned

variable {settings : StoreSettings} {write : Write} {baseline : Version} {transaction : Transaction}

theorem length_apply (planned : Planned settings write baseline transaction) (stream : Stream) :
    (stream.apply transaction).events.length = stream.events.length + write.events.length := by
  rw [Stream.events_apply, List.length_append, planned.length_events]

/-- A transaction from the end of a stream ends where it leaves the stream. -/
theorem newVersion_eq (planned : Planned settings write baseline transaction) {stream : Stream}
    (start : baseline = Version.ofCount stream.events.length) :
    transaction.newVersion = Version.ofCount (stream.apply transaction).events.length := by
  rw [planned.newVersion, start, Version.advance_ofCount, planned.length_apply]

end Planned

namespace Stream

structure Sound (key : StreamKey) (stream : Stream) : Prop where
  positions : stream.positions = stream.events.map (·.position)
  ids : stream.ids = stream.events.map (·.id)
  version : stream.version = (Version.ofCount stream.events.length).header
  places : stream.events.map (·.position) = places 0 stream.events.length
  distinct : (stream.events.map (·.id)).Nodup
  uniform : ∀ record ∈ stream.records, ∀ event ∈ record.events, event.initiator = record.initiator
  own : ∀ event ∈ stream.events, event.stream = key

theorem sound_empty (key : StreamKey) : Sound key {} where
  positions := rfl
  ids := rfl
  version := rfl
  places := rfl
  distinct := List.nodup_nil
  uniform _ member := nomatch member
  own _ member := nomatch member

theorem accepts_iff (stream : Stream) (transaction : Transaction) :
    stream.accepts transaction = true ↔
      stream.meets transaction.header = true ∧
        ((transaction.events.map (·.position)).Nodup ∧
          ∀ position ∈ transaction.events.map (·.position), position ∉ stream.positions) ∧
        (transaction.events.map (·.id)).Nodup ∧
          ∀ id ∈ transaction.events.map (·.id), id ∉ stream.ids := by
  simp only [accepts, Bool.and_eq_true, fresh_iff, and_assoc]

namespace Sound

variable {key : StreamKey} {stream : Stream}

theorem empty_iff (sound : stream.Sound key) :
    stream.version = none ↔ stream.records = [] := by
  have counted : stream.version = none ↔ stream.events = [] := by
    rw [sound.version, Version.header_eq_none_iff, Version.isPresent_ofCount, List.length_pos_iff,
      Classical.not_not]
  rw [counted]
  constructor
  · intro none
    refine List.eq_nil_iff_forall_not_mem.mpr fun record member => record.events_ne_nil ?_
    exact List.flatMap_eq_nil_iff.mp none record member
  · intro none
    simp [events, none]

/-- The header tells how many events there are. -/
theorem eq_ofCount (sound : stream.Sound key) {version : Version}
    (shown : stream.version = some version) :
    version = Version.ofCount stream.events.length ∧ version.IsPresent := by
  rw [sound.version, Version.header_eq_some_iff] at shown
  exact ⟨shown.2.symm, shown.2 ▸ shown.1⟩

/-- A header change that moves on from a version is accepted only at that version. -/
theorem eq_of_meets (sound : stream.Sound key) {baseline new : Version} (proper : baseline.Proper)
    (met : stream.meets (.moving baseline new) = true) :
    baseline = Version.ofCount stream.events.length := by
  by_cases present : baseline.IsPresent
  · rw [HeaderChange.moving, if_pos present, meets, decide_eq_true_eq] at met
    exact (sound.eq_ofCount met).1
  · rw [HeaderChange.moving, if_neg present, meets, Option.isNone_iff_eq_none,
      sound.empty_iff] at met
    rw [Version.eq_absent proper present, events, met]
    rfl

theorem record (sound : stream.Sound key) {record : Record} (member : record ∈ stream.records) :
    record.Sound where
  filled := record.events_ne_nil
  uniform := sound.uniform record member
  places := by
    obtain ⟨before, after, whole⟩ := List.append_of_mem member
    have inside : record.events.map (·.position) <:+: stream.events.map (·.position) :=
      ⟨(before.flatMap Record.events).map (·.position),
        (after.flatMap Record.events).map (·.position), by simp [events, whole]⟩
    rw [sound.places] at inside
    cases filled : record.events with
    | nil => exact absurd filled record.events_ne_nil
    | cons first others =>
      have starts := record.head?_events
      rw [filled, List.head?_cons, Option.some.injEq] at starts
      rw [filled, List.map_cons] at inside
      rw [List.map_cons, eq_places_of_infix inside, Record.firstPosition, ← starts,
        List.length_map, List.length_cons]

/-- Asking the first event of each record is as good as asking every event. -/
theorem any_initiator_iff (sound : stream.Sound key) (initiator : Uuid) :
    (stream.records.any fun record => record.initiator = initiator) = true ↔
      ∃ event ∈ stream.events, event.initiator = initiator := by
  simp only [List.any_eq_true, decide_eq_true_eq, events, List.mem_flatMap]
  constructor
  · rintro ⟨record, member, same⟩
    obtain ⟨event, inside⟩ := List.exists_mem_of_ne_nil _ record.events_ne_nil
    exact ⟨event, ⟨record, member, inside⟩, (sound.uniform record member event inside).trans same⟩
  · rintro ⟨event, ⟨record, member, inside⟩, same⟩
    exact ⟨record, member, (sound.uniform record member event inside).symm.trans same⟩

variable {settings : StoreSettings} {write : Write} {baseline : Version} {transaction : Transaction}

/-- A transaction that is accepted goes on from where the stream ends. -/
theorem start_eq (sound : stream.Sound key)
    (planned : Planned settings write baseline transaction) (proper : baseline.Proper)
    (accepted : stream.accepts transaction = true) :
    baseline = Version.ofCount stream.events.length := by
  have met := ((stream.accepts_iff transaction).mp accepted).1
  rw [planned.header] at met
  exact sound.eq_of_meets proper met

/-- At the end of a stream its header is as a header change says. -/
theorem meets_of_end (sound : stream.Sound key) (new : Version) :
    stream.meets (.moving (Version.ofCount stream.events.length) new) = true := by
  by_cases present : (Version.ofCount stream.events.length).IsPresent
  · rw [HeaderChange.moving, if_pos present, meets, decide_eq_true_eq, sound.version]
    exact (Version.header_eq_some_iff _ _).mpr ⟨present, rfl⟩
  · rw [HeaderChange.moving, if_neg present, meets, Option.isNone_iff_eq_none, sound.version]
    exact (Version.header_eq_none_iff _).mpr present

/-- Only the version and the identities can keep a planned transaction out of a sound stream: beyond
its end every position is free. -/
theorem accepts_planned_iff (sound : stream.Sound key)
    (planned : Planned settings write baseline transaction) (proper : baseline.Proper) :
    stream.accepts transaction = true ↔
      baseline = Version.ofCount stream.events.length ∧
        (transaction.events.map (·.id)).Nodup ∧
          ∀ id ∈ transaction.events.map (·.id), id ∉ stream.events.map (·.id) := by
  constructor
  · intro accepted
    obtain ⟨-, -, distinct, unused⟩ := (stream.accepts_iff transaction).mp accepted
    exact ⟨sound.start_eq planned proper accepted, distinct, sound.ids ▸ unused⟩
  · rintro ⟨rfl, distinct, unused⟩
    rw [accepts_iff, planned.header, planned.positions, sound.positions, sound.places, sound.ids]
    refine ⟨sound.meets_of_end _, ⟨(increasing_places _ _).imp Int.ne_of_lt, ?_⟩, distinct, unused⟩
    intro position beyond inside
    have after := (mem_places.mp beyond).1
    have before := (mem_places.mp inside).2
    simp only [Version.ofCount] at after
    omega

/-- The step that keeps streams sound. -/
theorem apply (sound : stream.Sound write.stream)
    (planned : Planned settings write baseline transaction) (proper : baseline.Proper)
    (filled : write.events ≠ []) (accepted : stream.accepts transaction = true) :
    (stream.apply transaction).Sound write.stream := by
  obtain ⟨-, -, distinct, unused⟩ := (stream.accepts_iff transaction).mp accepted
  -- The header alone decides where the planned positions begin.
  have start := sound.start_eq planned proper accepted
  refine { positions := ?positions, ids := ?ids, version := ?version, places := ?places,
           distinct := ?distinct, uniform := ?uniform, own := ?own }
  case positions =>
    rw [events_apply, List.map_append, ← sound.positions]
    rfl
  case ids =>
    rw [events_apply, List.map_append, ← sound.ids]
    rfl
  case version =>
    have some := List.length_pos_iff.mpr filled
    have present : (Version.ofCount (stream.apply transaction).events.length).IsPresent := by
      rw [Version.isPresent_ofCount, planned.length_apply]
      omega
    exact ((Version.header_eq_some_iff _ _).mpr ⟨present, (planned.newVersion_eq start).symm⟩).symm
  case places =>
    rw [planned.length_apply, events_apply, List.map_append, sound.places, planned.positions, start,
      ← places_append]
    simp [Version.ofCount]
  case distinct =>
    rw [events_apply, List.map_append, ← sound.ids]
    refine List.nodup_append.mpr ⟨sound.ids ▸ sound.distinct, distinct, ?_⟩
    rintro id old _ new rfl
    exact unused id new old
  case uniform =>
    intro record member event inside
    rcases List.mem_append.mp member with old | new
    · exact sound.uniform record old event inside
    · have all : ∀ other ∈ record.events, other.initiator = write.origin.initiator :=
        fun other member => (planned.origin (List.mem_flatMap.mpr ⟨record, new, member⟩)).2
      have first : record.first ∈ record.events :=
        List.mem_of_mem_head? (by rw [record.head?_events]; rfl)
      exact (all event inside).trans (all record.first first).symm
  case own =>
    intro event member
    rw [events_apply] at member
    rcases List.mem_append.mp member with old | new
    · exact sound.own event old
    · exact (planned.origin new).1

end Sound

end Stream

end EventSourcing
