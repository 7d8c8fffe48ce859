import EventSourcing.Aggregate.Replay
import EventSourcing.Proofs.Planned

/-!
Replay and application. What an aggregate becomes when its events are applied one by one is what a
replay makes of them once they are stored, if handlers change the state alone and handled events
read back as they were written.
-/

namespace EventSourcing

variable {κ : Type} [EventFamily κ]

/-- A handler that neither reads nor changes what is pending. -/
def Binding.StateOnly {σ : Type} (binding : Binding κ σ) : Prop :=
  ∃ change : σ → EventFamily.Payload binding.kind → σ, ∀ target payload,
    binding.handle target payload = { target with state := change target.state payload }

namespace Registry

def StateOnly {σ : Type} (registry : Registry κ σ) : Prop :=
  ∀ name binding, registry.find? name = some binding → binding.StateOnly

theorem stateOnly_empty {σ : Type} : ({} : Registry κ σ).StateOnly :=
  fun _ _ found => nomatch found

theorem StateOnly.onState {σ : Type} {registry : Registry κ σ} (stateOnly : registry.StateOnly)
    (kind : κ) (change : σ → EventFamily.Payload kind → σ) :
    (registry.onState kind change).StateOnly := by
  intro name binding found
  by_cases same : name = EventFamily.name kind
  · subst same
    rw [Registry.onState, find?_on_self] at found
    obtain rfl := Option.some.inj found
    exact ⟨change, fun _ _ => rfl⟩
  · rw [Registry.onState, find?_on_of_ne _ _ _ same] at found
    exact stateOnly name binding found

end Registry

namespace AggregateType

/-- Whether stored events can stand for those that were applied. -/
structure Faithful (type : AggregateType κ) : Prop where
  stateOnly : type.registry.StateOnly
  readable : ∀ name binding, type.registry.find? name = some binding → ∀ payload json,
    EventFamily.encode binding.kind payload = .ok json →
      EventFamily.decode binding.kind json = .ok payload

/-- Whether a replay goes through and ends at `last`. -/
def Replays (type : AggregateType κ) (target : Aggregate κ type.State) (events : List StoredEvent)
    (last : Aggregate κ type.State) : Prop :=
  ∃ count, type.replay false target events = ⟨last, .ok count⟩

namespace Replays

variable {type : AggregateType κ} {target middle last : Aggregate κ type.State}
  {event : StoredEvent} {events more : List StoredEvent}

theorem nil : type.Replays target [] target := ⟨0, rfl⟩

/-- A replay passes over an event without a handler. -/
theorem cons_of_unhandled (unhandled : type.registry.find? event.eventType = none) :
    type.Replays target (event :: events) last ↔ type.Replays target events last := by
  simp only [Replays, replay, unhandled, Bool.false_eq_true, if_false]

theorem cons_of_handled {binding : Binding κ type.State}
    (handled : type.registry.find? event.eventType = some binding) :
    type.Replays target (event :: events) last ↔
      ∃ changed, binding.replay target event = .ok changed ∧ type.Replays changed events last := by
  simp only [Replays, replay, handled]
  cases read : binding.replay target event with
  | error fault => simp
  | ok changed =>
    simp only [Replayed.counted, Except.ok.injEq, exists_eq_left']
    cases rest : type.replay false changed events with
    | mk target outcome => cases outcome <;> simp [Except.map]

theorem append (first : type.Replays target events middle)
    (second : type.Replays middle more last) :
    type.Replays target (events ++ more) last := by
  induction events generalizing target with
  | nil =>
    obtain ⟨count, same⟩ := first
    obtain rfl : target = middle := (Replayed.mk.inj same).1
    exact second
  | cons event rest ih =>
    cases found : type.registry.find? event.eventType with
    | none =>
      rw [List.cons_append, cons_of_unhandled found]
      exact ih ((cons_of_unhandled found).mp first)
    | some binding =>
      obtain ⟨changed, read, later⟩ := (cons_of_handled found).mp first
      exact (cons_of_handled found).mpr ⟨changed, read, ih later⟩

end Replays

/-- A replay leaves alone what is pending. -/
theorem pending_of_replays {type : AggregateType κ} (stateOnly : type.registry.StateOnly)
    {target last : Aggregate κ type.State} {events : List StoredEvent}
    (replays : type.Replays target events last) : last.pending = target.pending := by
  induction events generalizing target with
  | nil =>
    obtain ⟨count, same⟩ := replays
    exact congrArg Aggregate.pending (Replayed.mk.inj same).1.symm
  | cons event rest ih =>
    cases found : type.registry.find? event.eventType with
    | none => exact ih ((Replays.cons_of_unhandled found).mp replays)
    | some binding =>
      obtain ⟨changed, read, later⟩ := (Replays.cons_of_handled found).mp replays
      obtain ⟨change, only⟩ := stateOnly _ _ found
      have kept : changed.pending = target.pending := by
        unfold Binding.replay at read
        cases decoded : event.decode binding.kind with
        | error fault => simp [decoded, Except.map] at read
        | ok payload =>
          simp only [decoded, Except.map, only, Except.ok.injEq] at read
          rw [← read]
      exact (ih later).trans kept

section Application

variable [DecidableEq κ] {type : AggregateType κ}

/-- Applies events in order; the first that is refused ends it. -/
def applyAll (type : AggregateType κ) (target : Aggregate κ type.State) :
    List (Event κ) → Except Error (Aggregate κ type.State)
  | [] => .ok target
  | event :: rest => (type.apply target event).bind fun changed => type.applyAll changed rest

theorem applyAll_snoc {target middle last : Aggregate κ type.State} {events : List (Event κ)}
    {event : Event κ} (first : type.applyAll target events = .ok middle)
    (second : type.apply middle event = .ok last) :
    type.applyAll target (events ++ [event]) = .ok last := by
  induction events generalizing target with
  | nil =>
    obtain rfl : target = middle := Except.ok.inj first
    simp [applyAll, second, Except.bind]
  | cons head rest ih =>
    cases applied : type.apply target head with
    | error fault => simp [applyAll, applied, Except.bind] at first
    | ok changed =>
      simp only [applyAll, applied, Except.bind] at first
      simpa [applyAll, applied, Except.bind] using ih first

/-- An event that is applied has a handler for its kind. -/
theorem exists_binding_of_apply {target changed : Aggregate κ type.State} {event : Event κ}
    (applied : type.apply target event = .ok changed) :
    ∃ handle, type.registry.find? event.name = some ⟨event.kind, handle⟩ ∧
      changed.state = (handle target event.payload).state ∧
      changed.pending = (handle target event.payload).pending ++ [event] := by
  unfold apply at applied
  cases found : type.registry.find? event.name with
  | none => simp [found] at applied
  | some binding =>
    obtain ⟨kind, handle⟩ := binding
    obtain ⟨own, payload⟩ := event
    by_cases same : own = kind
    · subst same
      simp only [found, Option.bind_some, Binding.tryHandle, dif_pos, Except.ok.injEq] at applied
      exact ⟨handle, rfl, by simp [← applied]⟩
    · simp [found, Binding.tryHandle, same] at applied

namespace Faithful

/-- An event that is applied changes the state as its replay does, and waits to be saved. -/
theorem apply (faithful : type.Faithful) {target changed : Aggregate κ type.State}
    {event : Event κ} (applied : type.apply target event = .ok changed) :
    changed.pending = target.pending ++ [event] ∧
      ∀ (encoded : NewEvent) (stored : StoredEvent), event.encode = .ok encoded →
        stored.content = encoded →
          type.Replays { state := target.state } [stored] { state := changed.state } := by
  obtain ⟨handle, found, state, pending⟩ := exists_binding_of_apply applied
  obtain ⟨change, (only : ∀ target payload, handle target payload =
    { target with state := change target.state payload })⟩ := faithful.stateOnly _ _ found
  rw [only] at state pending
  refine ⟨pending, ?_⟩
  intro encoded stored made content
  cases written : EventFamily.encode event.kind event.payload with
  | error reason => simp [Event.encode, written] at made
  | ok json =>
    obtain rfl : NewEvent.mk event.name json = encoded := by
      simpa [Event.encode, written] using made
    obtain ⟨named, carried⟩ := NewEvent.mk.inj content
    have read := faithful.readable _ _ found _ _ written
    refine (Replays.cons_of_handled (named ▸ found)).mpr ⟨_, ?_, .nil⟩
    simp [Binding.replay, StoredEvent.decode, carried, read, Except.map, only, state]

/-- The replay of events that were applied in order comes to the same state. -/
theorem applyAll (faithful : type.Faithful) {events : List (Event κ)} {encoded : List NewEvent}
    {stored : List StoredEvent} {target last : Aggregate κ type.State}
    (applied : type.applyAll target events = .ok last)
    (made : Event.encodeAll events = .ok encoded)
    (content : stored.map StoredEvent.content = encoded) :
    type.Replays { state := target.state } stored { state := last.state } := by
  induction events generalizing target encoded stored with
  | nil =>
    obtain rfl : target = last := Except.ok.inj applied
    cases made
    obtain rfl := List.map_eq_nil_iff.mp content
    exact .nil
  | cons event rest ih =>
    cases step : type.apply target event with
    | error fault => simp [AggregateType.applyAll, step, Except.bind] at applied
    | ok changed =>
      simp only [AggregateType.applyAll, step, Except.bind] at applied
      cases head : event.encode with
      | error fault => simp [Event.encodeAll, head, bind, Except.bind] at made
      | ok first =>
        cases tail : Event.encodeAll rest with
        | error fault => simp [Event.encodeAll, head, tail, bind, Except.bind] at made
        | ok others =>
          obtain rfl : first :: others = encoded := by
            simpa [Event.encodeAll, head, tail, bind, Except.bind, pure, Except.pure] using made
          obtain ⟨one, following, rfl, here, there⟩ := List.map_eq_cons_iff.mp content
          exact ((faithful.apply step).2 first one head here).append (ih applied tail there)

end Faithful

end Application

end AggregateType

end EventSourcing
