import EventSourcing.Proofs.Sample

/-!
Replays in parts. A replay of two lists is a replay of the first and then, if nothing failed, of the
second. What a replay makes of a list is a fold over the events before the first one at fault: each
of them goes to the handler bound to its name. Whether an event is at fault does not depend on the
aggregate.
-/

namespace EventSourcing

variable {κ : Type} [EventFamily κ]

namespace Registry

variable {σ : Type} {registry : Registry κ σ} {name : String}

theorem handles_of_bound {binding : Binding κ σ} (bound : registry.find? name = some binding) :
    registry.handles name = true := by
  rw [handles, bound]
  rfl

theorem handles_of_unbound (unbound : registry.find? name = none) :
    registry.handles name = false := by
  rw [handles, unbound]
  rfl

end Registry

namespace AggregateType

variable {type : AggregateType κ}

/-- Replays on from where a replay has come to, unless it has failed. -/
def Replayed.andThen (first : Replayed type)
    (next : Aggregate κ type.State → Replayed type) : Replayed type :=
  match first.outcome with
  | .ok count =>
    let second := next first.target
    { second with outcome := second.outcome.map (count + ·) }
  | .error _ => first

theorem Replayed.andThen_of_ok (target : Aggregate κ type.State) (count : Nat)
    (next : Aggregate κ type.State → Replayed type) :
    Replayed.andThen ⟨target, .ok count⟩ next =
      ⟨(next target).target, (next target).outcome.map (count + ·)⟩ := rfl

theorem Replayed.andThen_of_error (target : Aggregate κ type.State) (fault : Error)
    (next : Aggregate κ type.State → Replayed type) :
    Replayed.andThen ⟨target, .error fault⟩ next = ⟨target, .error fault⟩ := rfl

theorem Replayed.counted_andThen (first : Replayed type)
    (next : Aggregate κ type.State → Replayed type) :
    (first.andThen next).counted = first.counted.andThen next := by
  obtain ⟨target, outcome⟩ := first
  cases outcome with
  | error fault => rfl
  | ok count =>
    simp only [counted, Except.map, andThen_of_ok]
    cases (next target).outcome with
    | error fault => rfl
    | ok more => exact congrArg (fun sum => Replayed.mk _ (.ok sum)) (Nat.add_right_comm _ _ _)

/-- What ends a replay at an event: in a strict one that nothing handles it, in any that its
payload is not of the kind that is bound to its name. -/
def faultOf (type : AggregateType κ) (strict : Bool) (event : StoredEvent) : Option Error :=
  match type.registry.find? event.eventType with
  | some binding =>
    match EventFamily.decode binding.kind event.payload with
    | .ok _ => none
    | .error mismatch =>
      some (.serialization
        (.decodeEvent event.eventType event.stream event.position mismatch))
  | none => if strict then some (.missingEventHandler type.name event.eventType) else none

/-- What an event makes of an aggregate: the handler bound to its name takes what the event carries.
Nothing changes if there is no handler, or if the event cannot be read. -/
def effect (type : AggregateType κ) (target : Aggregate κ type.State) (event : StoredEvent) :
    Aggregate κ type.State :=
  match type.registry.find? event.eventType with
  | some binding =>
    match EventFamily.decode binding.kind event.payload with
    | .ok payload => binding.handle target payload
    | .error _ => target
  | none => target

section Event

variable {event : StoredEvent} {binding : Binding κ type.State}

theorem effect_of_unbound (unbound : type.registry.find? event.eventType = none)
    (target : Aggregate κ type.State) : type.effect target event = target := by
  rw [effect, unbound]

theorem effect_of_bound (bound : type.registry.find? event.eventType = some binding)
    {payload : EventFamily.Payload binding.kind}
    (read : EventFamily.decode binding.kind event.payload = .ok payload)
    (target : Aggregate κ type.State) :
    type.effect target event = binding.handle target payload := by
  rw [effect, bound]
  simp only [read]

theorem replay_cons_of_unbound (unbound : type.registry.find? event.eventType = none)
    (target : Aggregate κ type.State) (rest : List StoredEvent) :
    type.replay false target (event :: rest) = type.replay false target rest := by
  rw [replay, unbound]
  rfl

theorem replay_cons_of_bound (bound : type.registry.find? event.eventType = some binding)
    {payload : EventFamily.Payload binding.kind}
    (read : EventFamily.decode binding.kind event.payload = .ok payload) (strict : Bool)
    (target : Aggregate κ type.State) (rest : List StoredEvent) :
    type.replay strict target (event :: rest) =
      (type.replay strict (binding.handle target payload) rest).counted := by
  have done : binding.replay target event = .ok (binding.handle target payload) := by
    rw [Binding.replay, StoredEvent.decode, read]
    rfl
  rw [replay, bound]
  simp only [done]

/-- A replay is at ease with an event that it passes over and with one that is handled and can be
read. -/
theorem faultOf_eq_none_iff {strict : Bool} :
    type.faultOf strict event = none ↔
      type.registry.find? event.eventType = none ∧ strict = false ∨
      ∃ binding, type.registry.find? event.eventType = some binding ∧
        ∃ payload, EventFamily.decode binding.kind event.payload = .ok payload := by
  unfold faultOf
  cases type.registry.find? event.eventType with
  | none => cases strict <;> simp
  | some binding => cases read : EventFamily.decode binding.kind event.payload <;> simp [read]

/-- A strict replay is at ease with an event exactly if it is handled and can be read. -/
theorem faultOf_strict_eq_none_iff :
    type.faultOf true event = none ↔
      ∃ binding, type.registry.find? event.eventType = some binding ∧
        ∃ payload, EventFamily.decode binding.kind event.payload = .ok payload := by
  rw [faultOf_eq_none_iff]
  apply or_iff_right
  rintro ⟨-, lenient⟩
  cases lenient

theorem faultOf_lenient_of_strict (sound : type.faultOf true event = none) :
    type.faultOf false event = none :=
  faultOf_eq_none_iff.mpr (.inr (faultOf_strict_eq_none_iff.mp sound))

theorem replay_cons_of_fault {strict : Bool} {fault : Error}
    (faulty : type.faultOf strict event = some fault) (target : Aggregate κ type.State)
    (rest : List StoredEvent) :
    type.replay strict target (event :: rest) = ⟨target, .error fault⟩ := by
  unfold faultOf at faulty
  rw [replay]
  cases bound : type.registry.find? event.eventType with
  | none =>
    simp only [bound] at faulty
    cases strict with
    | false => cases faulty
    | true =>
      obtain rfl := Option.some.inj faulty
      rfl
  | some binding =>
    simp only [bound] at faulty
    cases read : EventFamily.decode binding.kind event.payload with
    | ok payload =>
      simp only [read] at faulty
      cases faulty
    | error mismatch =>
      simp only [read] at faulty
      obtain rfl := Option.some.inj faulty
      simp only [Binding.replay, StoredEvent.decode, read, Except.map]

theorem replay_cons_of_sound {strict : Bool} (sound : type.faultOf strict event = none)
    (target : Aggregate κ type.State) (rest : List StoredEvent) :
    type.replay strict target (event :: rest) =
      if type.registry.handles event.eventType then
        (type.replay strict (type.effect target event) rest).counted
      else type.replay strict (type.effect target event) rest := by
  rcases faultOf_eq_none_iff.mp sound with ⟨unbound, rfl⟩ | ⟨binding, bound, payload, read⟩
  · rw [replay_cons_of_unbound unbound, effect_of_unbound unbound,
      Registry.handles_of_unbound unbound]
    rfl
  · rw [replay_cons_of_bound bound read, effect_of_bound bound read,
      Registry.handles_of_bound bound]
    rfl

end Event

/-- A replay can be cut anywhere. -/
theorem replay_append (strict : Bool) (target : Aggregate κ type.State)
    (events more : List StoredEvent) :
    type.replay strict target (events ++ more) =
      (type.replay strict target events).andThen fun reached =>
        type.replay strict reached more := by
  induction events generalizing target with
  | nil =>
    simp only [List.nil_append, replay_nil, Replayed.andThen_of_ok]
    cases type.replay strict target more with
    | mk last outcome => cases outcome <;> simp [Except.map]
  | cons event rest ih =>
    rw [List.cons_append]
    cases faulty : type.faultOf strict event with
    | some fault => simp only [replay_cons_of_fault faulty, Replayed.andThen_of_error]
    | none =>
      simp only [replay_cons_of_sound faulty, ih]
      split
      · exact Replayed.counted_andThen _ _
      · rfl

/-- A replay of events none of which is at fault is a fold. -/
theorem replay_of_sound {strict : Bool} {events : List StoredEvent}
    (sound : ∀ event ∈ events, type.faultOf strict event = none)
    (target : Aggregate κ type.State) :
    type.replay strict target events = ⟨events.foldl type.effect target,
      .ok (events.filter fun event => type.registry.handles event.eventType).length⟩ := by
  induction events generalizing target with
  | nil => rfl
  | cons event rest ih =>
    obtain ⟨here, later⟩ := List.forall_mem_cons.mp sound
    rw [replay_cons_of_sound here, ih later, List.foldl_cons]
    by_cases handled : type.registry.handles event.eventType <;>
      simp [handled, Replayed.counted, Except.map]

/-- A replay ends at the first event at fault and keeps what it has made of those before. -/
theorem replay_of_fault {strict : Bool} {before : List StoredEvent} {event : StoredEvent}
    {fault : Error} (sound : ∀ earlier ∈ before, type.faultOf strict earlier = none)
    (faulty : type.faultOf strict event = some fault) (target : Aggregate κ type.State)
    (after : List StoredEvent) :
    type.replay strict target (before ++ event :: after) =
      ⟨before.foldl type.effect target, .error fault⟩ := by
  rw [replay_append, replay_of_sound sound, Replayed.andThen_of_ok, replay_cons_of_fault faulty]
  rfl

/-- Whether a replay succeeds does not depend on the aggregate. -/
theorem sound_of_replay_eq_ok {strict : Bool} {target : Aggregate κ type.State}
    {events : List StoredEvent} {count : Nat}
    (done : (type.replay strict target events).outcome = .ok count) :
    ∀ event ∈ events, type.faultOf strict event = none := by
  rw [← List.findSome?_eq_none_iff]
  cases first : events.findSome? (type.faultOf strict) with
  | none => rfl
  | some fault =>
    obtain ⟨before, event, after, rfl, faulty, sound⟩ := List.findSome?_eq_some_iff.mp first
    rw [replay_of_fault sound faulty] at done
    exact nomatch done

/-- A lenient replay is one of the handled events. -/
theorem replay_filter_handled (target : Aggregate κ type.State) (events : List StoredEvent) :
    type.replay false target (events.filter fun event => type.registry.handles event.eventType) =
      type.replay false target events := by
  induction events generalizing target with
  | nil => rfl
  | cons event rest ih =>
    cases bound : type.registry.find? event.eventType with
    | none =>
      have unhandled := Registry.handles_of_unbound bound
      simp only [List.filter_cons, unhandled, Bool.false_eq_true, if_false, ih,
        replay_cons_of_unbound bound]
    | some binding =>
      have handled := Registry.handles_of_bound bound
      simp only [List.filter_cons, handled, if_true, replay, bound, ih]

/-- An event leaves alone what is pending if the handlers do. -/
theorem pending_effect (stateOnly : type.registry.StateOnly) (target : Aggregate κ type.State)
    (event : StoredEvent) : (type.effect target event).pending = target.pending := by
  unfold effect
  split
  next binding bound =>
    obtain ⟨change, only⟩ := stateOnly _ _ bound
    split
    next => rw [only]
    next => rfl
  next => rfl

/-- A replay leaves alone what is pending if the handlers do, also where it fails. -/
theorem pending_replay (stateOnly : type.registry.StateOnly) (strict : Bool)
    (target : Aggregate κ type.State) (events : List StoredEvent) :
    (type.replay strict target events).target.pending = target.pending := by
  induction events generalizing target with
  | nil => rfl
  | cons event rest ih =>
    cases faulty : type.faultOf strict event with
    | some fault => rw [replay_cons_of_fault faulty]
    | none =>
      rw [replay_cons_of_sound faulty, ← pending_effect stateOnly target event]
      split
      · exact ih _
      · exact ih _

/-- Replay is a fold that composes. The handler that was bound last to the name of an event takes
it. A replay of two lists goes on from the first to the second and adds the counts. A lenient one is
that of the handled events. One that succeeds has met no event at fault, and is the fold of what the
events make of the aggregate, with the handled ones counted. A strict one succeeds exactly if every
event is handled and can be read, and is then what the lenient one is. A failure is that of the
first event at fault, and leaves the fold of the events before it. The handlers of the warehouse
never touch what is pending. -/
theorem replay_composes (type : AggregateType κ) (strict : Bool)
    (target : Aggregate κ type.State) (events : List StoredEvent) :
    (∀ event kind handle payload, event.eventType = EventFamily.name kind →
      EventFamily.decode kind event.payload = .ok payload →
        replay { type with registry := type.registry.on kind handle } strict target [event] =
          ⟨handle target payload, .ok 1⟩) ∧
    (∀ more, type.replay strict target (events ++ more) =
      (type.replay strict target events).andThen fun reached =>
        type.replay strict reached more) ∧
    (let handled := events.filter fun event => type.registry.handles event.eventType
     type.replay false target events = type.replay false target handled ∧
      ∀ count, (type.replay strict target events).outcome = .ok count →
        (∀ event ∈ events, type.faultOf strict event = none) ∧
          type.replay strict target events =
            ⟨events.foldl type.effect target, .ok handled.length⟩) ∧
    ((∃ count, (type.replay true target events).outcome = .ok count) ↔
      ∀ event ∈ events, ∃ binding, type.registry.find? event.eventType = some binding ∧
        ∃ payload, EventFamily.decode binding.kind event.payload = .ok payload) ∧
    (∀ count, (type.replay true target events).outcome = .ok count →
      type.replay true target events = type.replay false target events) ∧
    (∀ fault, (type.replay strict target events).outcome = .error fault →
      ∃ before event after, events = before ++ event :: after ∧
        (∀ earlier ∈ before, type.faultOf strict earlier = none) ∧
        type.faultOf strict event = some fault ∧
        type.replay strict target events = ⟨before.foldl type.effect target, .error fault⟩ ∧
        ∃ count, type.replay strict target before =
          ⟨before.foldl type.effect target, .ok count⟩) ∧
    ∀ sample ∈ [Sample.inventory, Sample.counter, Sample.inert], ∀ strict target events,
      (sample.replay strict target events).target.pending = target.pending := by
  refine ⟨?bound, replay_append strict target events,
    ⟨(replay_filter_handled target events).symm, ?succeeds⟩, ⟨?readable, ?all⟩, ?alike, ?fails,
    ?pending⟩
  case bound =>
    intro event kind handle payload named read
    let rebound : AggregateType κ := { type with registry := type.registry.on kind handle }
    have bound : rebound.registry.find? event.eventType = some ⟨kind, handle⟩ := by
      rw [named]
      exact type.registry.find?_on_self kind handle
    exact replay_cons_of_bound bound read strict target []
  case succeeds =>
    intro count done
    have sound := sound_of_replay_eq_ok done
    exact ⟨sound, replay_of_sound sound target⟩
  case readable =>
    rintro ⟨count, done⟩ event member
    exact faultOf_strict_eq_none_iff.mp (sound_of_replay_eq_ok done event member)
  case all =>
    intro readable
    have sound (event : StoredEvent) (member : event ∈ events) :
        type.faultOf true event = none :=
      faultOf_strict_eq_none_iff.mpr (readable event member)
    exact ⟨_, congrArg Replayed.outcome (replay_of_sound sound target)⟩
  case alike =>
    intro count done
    have sound := sound_of_replay_eq_ok done
    have lenient (event : StoredEvent) (member : event ∈ events) :
        type.faultOf false event = none :=
      faultOf_lenient_of_strict (sound event member)
    rw [replay_of_sound sound, replay_of_sound lenient]
  case fails =>
    intro fault failed
    cases first : events.findSome? (type.faultOf strict) with
    | none =>
      rw [replay_of_sound (List.findSome?_eq_none_iff.mp first)] at failed
      exact nomatch failed
    | some other =>
      obtain ⟨before, event, after, rfl, faulty, sound⟩ := List.findSome?_eq_some_iff.mp first
      have ended := replay_of_fault sound faulty target after
      obtain rfl : other = fault := by
        rw [ended] at failed
        exact Except.error.inj failed
      exact ⟨before, event, after, rfl, sound, faulty, ended, _, replay_of_sound sound target⟩
  case pending =>
    intro sample known strict target events
    exact pending_replay (Sample.faithful_of_mem known).stateOnly strict target events

end AggregateType

end EventSourcing
