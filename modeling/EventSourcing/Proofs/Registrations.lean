import EventSourcing.Proofs.Desk
import EventSourcing.Proofs.Replay
import EventSourcing.Proofs.Separation
import Mathlib.Data.List.Dedup
import Mathlib.Data.List.Induction

/-!
Registries by the registrations that they come from. Of several under one name the last counts, for
new events as well as for stored ones. A new event goes by its kind and a stored one by its name, so
the two could disagree only where kinds share a name, and there a new event of another kind than the
last is refused.
-/

namespace EventSourcing

variable {κ : Type} [EventFamily κ]

namespace Binding

variable {σ : Type}

def name (binding : Binding κ σ) : String :=
  EventFamily.name binding.kind

/-- The last of some bindings under a name. -/
def lastNamed (name : String) (bindings : List (Binding κ σ)) : Option (Binding κ σ) :=
  (bindings.filter fun binding => binding.name = name).getLast?

theorem lastNamed_concat (name : String) (bindings : List (Binding κ σ)) (last : Binding κ σ) :
    lastNamed name (bindings ++ [last]) =
      if name = last.name then some last else lastNamed name bindings := by
  unfold lastNamed
  rw [List.filter_append]
  by_cases same : name = last.name
  · simp [same]
  · simp [same, Ne.symm same]

theorem lastNamed_isSome_iff (name : String) (bindings : List (Binding κ σ)) :
    (lastNamed name bindings).isSome ↔ ∃ binding ∈ bindings, binding.name = name := by
  simp [lastNamed]

end Binding

namespace Registry

variable {σ : Type}

/-- Binds one kind after the other. -/
def ofBindings (bindings : List (Binding κ σ)) : Registry κ σ :=
  bindings.foldl (fun registry binding => registry.on binding.kind binding.handle) {}

theorem ofBindings_concat (bindings : List (Binding κ σ)) (last : Binding κ σ) :
    ofBindings (bindings ++ [last]) = (ofBindings bindings).on last.kind last.handle := by
  simp [ofBindings]

/-- What is found under a name is what was bound to it last. -/
theorem find?_ofBindings (bindings : List (Binding κ σ)) (name : String) :
    (ofBindings bindings).find? name = Binding.lastNamed name bindings := by
  induction bindings using List.reverseRecOn with
  | nil => rfl
  | append_singleton bindings last ih =>
    calc (ofBindings (bindings ++ [last])).find? name
      _ = ((ofBindings bindings).on last.kind last.handle).find? name := by rw [ofBindings_concat]
      _ = if name = last.name then some last else (ofBindings bindings).find? name :=
          Keyed.find?_set _ _ _ _
      _ = Binding.lastNamed name (bindings ++ [last]) := by rw [ih, Binding.lastNamed_concat]

theorem handles_ofBindings (bindings : List (Binding κ σ)) (name : String) :
    (ofBindings bindings).handles name ↔ ∃ binding ∈ bindings, binding.name = name := by
  rw [handles, find?_ofBindings, Binding.lastNamed_isSome_iff]

/-- Each name that was registered is a key, once. -/
theorem keys_ofBindings (bindings : List (Binding κ σ)) :
    (ofBindings bindings).bindings.keys.Nodup ∧
      ∀ name, name ∈ (ofBindings bindings).bindings.keys ↔ name ∈ bindings.map Binding.name := by
  induction bindings using List.reverseRecOn with
  | nil => exact ⟨List.nodup_nil, fun _ => Iff.rfl⟩
  | append_singleton bindings last ih =>
    obtain ⟨distinct, members⟩ := ih
    rw [ofBindings_concat]
    refine ⟨Keyed.nodup_keys_set distinct _ _, ?_⟩
    intro name
    rw [on, Keyed.keys_set, List.map_append, List.mem_append, ← members]
    split
    case isTrue present =>
      have (here : name = last.name) : name ∈ (ofBindings bindings).bindings.keys := here ▸ present
      simpa using this
    case isFalse => simp [Binding.name]

theorem size_ofBindings (bindings : List (Binding κ σ)) :
    (ofBindings bindings).size = (bindings.map Binding.name).dedup.length := by
  obtain ⟨distinct, members⟩ := keys_ofBindings bindings
  have same : (ofBindings bindings).bindings.keys.Perm (bindings.map Binding.name).dedup :=
    (List.perm_ext_iff_of_nodup distinct (List.nodup_dedup _)).mpr fun name =>
      (members name).trans List.mem_dedup.symm
  calc (ofBindings bindings).size
    _ = (ofBindings bindings).bindings.keys.length := (List.length_map _).symm
    _ = (bindings.map Binding.name).dedup.length := same.length_eq

end Registry

namespace AggregateType

/-- A stored event that reads back as it was is replayed by the handler that it was applied with. -/
theorem replay_of_bound {type : AggregateType κ} {event : Event κ}
    {handle : Aggregate κ type.State → EventFamily.Payload event.kind → Aggregate κ type.State}
    (bound : type.registry.find? event.name = some ⟨event.kind, handle⟩) {encoded : NewEvent}
    (made : event.encode = .ok encoded)
    (readable : EventFamily.decode event.kind encoded.payload = .ok event.payload)
    {stored : StoredEvent} (content : stored.content = encoded) (strict : Bool)
    (target : Aggregate κ type.State) :
    type.replay strict target [stored] = ⟨handle target event.payload, .ok 1⟩ := by
  obtain rfl := content
  have named : stored.eventType = event.name := by
    unfold Event.encode at made
    split at made
    · exact congrArg NewEvent.eventType (Except.ok.inj made).symm
    · exact nomatch made
  have carried : EventFamily.decode event.kind stored.payload = .ok event.payload := readable
  simp [replay, named, bound, Binding.replay, StoredEvent.decode, carried, Replayed.counted,
    Except.map]

section Application

variable [DecidableEq κ] {type : AggregateType κ}

/-- An event whose own kind is bound to its name is handled and waits to be saved. -/
theorem apply_of_bound {event : Event κ}
    {handle : Aggregate κ type.State → EventFamily.Payload event.kind → Aggregate κ type.State}
    (bound : type.registry.find? event.name = some ⟨event.kind, handle⟩)
    (target : Aggregate κ type.State) :
    type.apply target event = .ok { handle target event.payload with
      pending := (handle target event.payload).pending ++ [event] } := by
  simp [apply, bound, Binding.tryHandle]

/-- An event whose own kind is not bound to its name is refused. -/
theorem apply_of_unbound {event : Event κ}
    (unbound : ∀ binding, type.registry.find? event.name = some binding → binding.kind ≠ event.kind)
    (target : Aggregate κ type.State) :
    type.apply target event = .error (.missingEventHandler type.name event.name) := by
  unfold apply
  cases found : type.registry.find? event.name with
  | none => rfl
  | some binding => simp [Binding.tryHandle, Ne.symm (unbound binding found)]

/-- Whether its own kind is bound to an event's name decides between the two. -/
theorem bound_or_unbound (type : AggregateType κ) (event : Event κ) :
    (∃ handle, type.registry.find? event.name = some ⟨event.kind, handle⟩) ∨
      ∀ binding, type.registry.find? event.name = some binding → binding.kind ≠ event.kind := by
  by_cases bound : ∃ binding, type.registry.find? event.name = some binding ∧
      binding.kind = event.kind
  · obtain ⟨⟨kind, handle⟩, found, rfl⟩ := bound
    exact .inl ⟨handle, found⟩
  · exact .inr fun binding found same => bound ⟨binding, found, same⟩

/-- Application and replay go by the same handler, whatever was registered and in whatever order. An
event is applied exactly if the last registration under its name was made for its own kind. It is
then handled once by that registration's handler and put behind what is pending, and stored it is
replayed to the same state, provided that it can be written and reads back. Otherwise its name is
reported and whoever holds the aggregate keeps it as it is. The names that are handled are those
that were registered, each counted once. -/
theorem apply_agrees_with_replay (type : AggregateType κ)
    (bindings : List (Binding κ type.State)) :
    let bound : AggregateType κ := { type with registry := .ofBindings bindings }
    (∀ (target : Aggregate κ type.State) (event : Event κ),
      ((∃ changed, bound.apply target event = .ok changed) ↔
        ∃ last, Binding.lastNamed event.name bindings = some last ∧ last.kind = event.kind) ∧
      (∀ changed, bound.apply target event = .ok changed →
        ∃ handle, Binding.lastNamed event.name bindings = some ⟨event.kind, handle⟩ ∧
          changed = { handle target event.payload with
            pending := (handle target event.payload).pending ++ [event] } ∧
          ∀ encoded, event.encode = .ok encoded →
            EventFamily.decode event.kind encoded.payload = .ok event.payload →
            ∀ stored : StoredEvent, stored.content = encoded → ∀ strict,
              bound.replay strict target [stored] = ⟨handle target event.payload, .ok 1⟩ ∧
              (bound.replay strict target [stored]).target.state = changed.state) ∧
      (∀ error, bound.apply target event = .error error →
        error = .missingEventHandler type.name event.name ∧
        ∀ (desk : Desk fun _ : Unit => bound) (held : Held bound), desk.held () = some held →
          held.snapshot.aggregate = target → desk.act (.apply () event) = desk)) ∧
    (∀ name, bound.registry.handles name ↔ ∃ binding ∈ bindings, binding.name = name) ∧
    bound.registry.size = (bindings.map Binding.name).dedup.length := by
  intro bound
  have found (name : String) :
      bound.registry.find? name = Binding.lastNamed name bindings :=
    Registry.find?_ofBindings bindings name
  refine ⟨?_, Registry.handles_ofBindings bindings, Registry.size_ofBindings bindings⟩
  intro target event
  rcases bound_or_unbound bound event with ⟨handle, own⟩ | foreign
  · have applied := apply_of_bound own target
    rw [applied]
    refine ⟨⟨?_, ?_⟩, ?_, ?_⟩
    · exact fun _ => ⟨⟨event.kind, handle⟩, found event.name ▸ own, rfl⟩
    · exact fun _ => ⟨_, rfl⟩
    · intro changed same
      obtain rfl := Except.ok.inj same
      refine ⟨handle, found event.name ▸ own, rfl, ?_⟩
      intro encoded made readable stored content strict
      have replayed := replay_of_bound own made readable content strict target
      exact ⟨replayed, congrArg (fun left => left.target.state) replayed⟩
    · exact fun error failed => nomatch failed
  · have refused := apply_of_unbound foreign target
    rw [refused]
    refine ⟨⟨?_, ?_⟩, ?_, ?_⟩
    · exact fun ⟨changed, done⟩ => nomatch done
    · rintro ⟨last, named, same⟩
      exact absurd same (foreign last ((found event.name).trans named))
    · exact fun changed done => nomatch done
    · intro error same
      obtain rfl := Except.error.inj same
      refine ⟨rfl, ?_⟩
      intro desk held taken same
      subst same
      simp only [Desk.act, taken, refused]

end Application

end AggregateType

end EventSourcing
