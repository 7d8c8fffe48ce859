import EventSourcing.Proofs.Fleet.Course

/-!
What a shared store looks like at any time, whoever writes to it: the events of a stream stand at
the positions from 0 to the version in its header, no two with one identity, and in their own
stream; and each record was written by one initiator.
-/

namespace EventSourcing.Fleet

/-- Positions follow each other although the store itself only refuses those that are taken: a
header change goes through only at the end of a stream, and there the planned positions begin. -/
theorem streams_sound (planners : List Planner) (actions : List Action) (key : StreamKey) :
    let store := ((opened planners).run actions).store
    let events := (store.records key).flatMap Record.events
    (store.header key = none ↔ store.records key = []) ∧
      (∀ version, store.header key = some version →
        version.IsPresent ∧ events.map (·.position) = places 0 (version.value + 1).toNat) ∧
      (events.map (·.id)).Nodup ∧
      (∀ record ∈ store.records key, record.Sound) ∧
      (∀ initiator, store.containsInitiator key initiator = true ↔
        ∃ event ∈ events, event.initiator = initiator) ∧
      ∀ event ∈ events, event.stream = key := by
  intro store events
  have sound : (store.stream key).Sound key :=
    ((inv_opened planners).run actions).follows.streams key
  refine ⟨sound.empty_iff, ?_, sound.distinct, fun record => sound.record,
    sound.any_initiator_iff, sound.own⟩
  intro version shown
  obtain ⟨same, present⟩ := sound.eq_ofCount shown
  refine ⟨present, sound.places.trans ?_⟩
  rw [same]
  simp [Version.ofCount]

end EventSourcing.Fleet
