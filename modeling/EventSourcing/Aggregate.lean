import EventSourcing.Event
import EventSourcing.Keyed

/-!
Aggregates. The kinds of events form a family. An aggregate type binds names of events to handlers;
an aggregate is a state and the events that were applied to it since it was last saved.
-/

namespace EventSourcing

/-- Kinds of events: what an event of each kind carries, the name it is stored under, and its form
as data. Two kinds may share a name. -/
class EventFamily (κ : Type) where
  Payload : κ → Type
  name : κ → String
  encode (kind : κ) : Payload kind → Except String Json
  decode (kind : κ) : Json → Except Mismatch (Payload kind)

structure Event (κ : Type) [EventFamily κ] where
  kind : κ
  payload : EventFamily.Payload kind

namespace Event

variable {κ : Type} [EventFamily κ]

def name (event : Event κ) : String :=
  EventFamily.name event.kind

def encode (event : Event κ) : Except Error NewEvent :=
  match EventFamily.encode event.kind event.payload with
  | .ok payload => .ok ⟨event.name, payload⟩
  | .error reason => .error (.serialization (.encodeEvent event.name reason))

/-- The first event that cannot be encoded fails all. -/
def encodeAll : List (Event κ) → Except Error (List NewEvent)
  | [] => .ok []
  | event :: rest => do
    let first ← event.encode
    let others ← encodeAll rest
    pure (first :: others)

theorem length_of_encodeAll {events : List (Event κ)} {encoded : List NewEvent}
    (done : encodeAll events = .ok encoded) : encoded.length = events.length := by
  induction events generalizing encoded with
  | nil =>
    cases done
    rfl
  | cons event rest ih =>
    cases head : event.encode with
    | error fault =>
      simp [encodeAll, head, bind, Except.bind] at done
    | ok first =>
      cases tail : encodeAll rest with
      | error fault => simp [encodeAll, head, tail, bind, Except.bind] at done
      | ok others =>
        simp only [encodeAll, head, tail, bind, Except.bind, pure, Except.pure] at done
        cases done
        simp [ih tail]

end Event

/-- Reads the payload as an event of the given kind, whatever name the event is stored under. -/
def StoredEvent.decode {κ : Type} [EventFamily κ] (event : StoredEvent) (kind : κ) :
    Except Error (EventFamily.Payload kind) :=
  match EventFamily.decode kind event.payload with
  | .ok payload => .ok payload
  | .error mismatch =>
    .error (.serialization (.decodeEvent event.eventType event.stream event.position mismatch))

/-- A state and the events applied to it that are not saved yet. -/
structure Aggregate (κ : Type) [EventFamily κ] (σ : Type) where
  state : σ
  pending : List (Event κ) := []

/-- What to do with events of one kind. -/
structure Binding (κ : Type) [EventFamily κ] (σ : Type) where
  kind : κ
  handle : Aggregate κ σ → EventFamily.Payload kind → Aggregate κ σ

namespace Binding

variable {κ : Type} [EventFamily κ] {σ : Type}

/-- Handles an event of the bound kind; an event of another kind is not handled. -/
def tryHandle [DecidableEq κ] (binding : Binding κ σ) (target : Aggregate κ σ) (event : Event κ) :
    Option (Aggregate κ σ) :=
  if same : event.kind = binding.kind then some (binding.handle target (same ▸ event.payload))
  else none

theorem tryHandle_isSome [DecidableEq κ] (binding : Binding κ σ) (target : Aggregate κ σ)
    (event : Event κ) : (binding.tryHandle target event).isSome ↔ event.kind = binding.kind := by
  by_cases same : event.kind = binding.kind <;> simp [tryHandle, same]

/-- Handles a stored event, read as one of the bound kind. -/
def replay (binding : Binding κ σ) (target : Aggregate κ σ) (event : StoredEvent) :
    Except Error (Aggregate κ σ) :=
  (event.decode binding.kind).map (binding.handle target)

end Binding

/-- At most one binding for each name. -/
structure Registry (κ : Type) [EventFamily κ] (σ : Type) where
  bindings : Keyed String (Binding κ σ) := {}

namespace Registry

variable {κ : Type} [EventFamily κ] {σ : Type}

def find? (registry : Registry κ σ) (name : String) : Option (Binding κ σ) :=
  registry.bindings.find? name

/-- Binds a kind under its name; a binding that was there before is replaced. -/
def on (registry : Registry κ σ) (kind : κ)
    (handle : Aggregate κ σ → EventFamily.Payload kind → Aggregate κ σ) : Registry κ σ :=
  ⟨registry.bindings.set (EventFamily.name kind) ⟨kind, handle⟩⟩

/-- Binds a kind to a change of the state alone. -/
def onState (registry : Registry κ σ) (kind : κ)
    (change : σ → EventFamily.Payload kind → σ) : Registry κ σ :=
  registry.on kind fun target payload => { target with state := change target.state payload }

def handles (registry : Registry κ σ) (name : String) : Bool :=
  (registry.find? name).isSome

def size (registry : Registry κ σ) : Nat :=
  registry.bindings.size

@[simp] theorem find?_on_self (registry : Registry κ σ) (kind : κ)
    (handle : Aggregate κ σ → EventFamily.Payload kind → Aggregate κ σ) :
    (registry.on kind handle).find? (EventFamily.name kind) = some ⟨kind, handle⟩ :=
  registry.bindings.find?_set_self _ _

@[simp] theorem find?_on_of_ne (registry : Registry κ σ) (kind : κ)
    (handle : Aggregate κ σ → EventFamily.Payload kind → Aggregate κ σ) {name : String}
    (different : name ≠ EventFamily.name kind) :
    (registry.on kind handle).find? name = registry.find? name :=
  registry.bindings.find?_set_of_ne different _

end Registry

/-- What all aggregates of one type share. -/
structure AggregateType (κ : Type) [EventFamily κ] where
  name : String
  Id : Type
  State : Type
  idText : Id → String
  initial : Id → State
  registry : Registry κ State

namespace AggregateType

variable {κ : Type} [EventFamily κ]

/-- An aggregate without a history. -/
def blank (type : AggregateType κ) (id : type.Id) : Aggregate κ type.State :=
  { state := type.initial id }

/-- Handles a new event and puts it at the end of the pending ones. -/
def apply [DecidableEq κ] (type : AggregateType κ) (target : Aggregate κ type.State)
    (event : Event κ) : Except Error (Aggregate κ type.State) :=
  match (type.registry.find? event.name).bind fun binding => binding.tryHandle target event with
  | some changed => .ok { changed with pending := changed.pending ++ [event] }
  | none => .error (.missingEventHandler type.name event.name)

end AggregateType

end EventSourcing
