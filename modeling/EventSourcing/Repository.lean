import EventSourcing.Aggregate.Replay
import EventSourcing.Store.Planner

/-!
Repositories. An aggregate is loaded by replaying its stream, and saved by writing its pending
events there. What a caller expects of the stream is held against the version that the aggregate
was loaded at, before the storage is asked.
-/

namespace EventSourcing

/-- Storage of event streams whose state is a `σ`. -/
structure StreamStorage (σ : Type) where
  read : StreamKey → σ → Except Error (List StoredEvent) × σ
  write : Write → σ → Except Error Version × σ

/-- Whether a stream at version `retrieved` is as expected. -/
def ExpectedVersion.Admits (expected : ExpectedVersion) (retrieved : Version) : Prop :=
  match expected with
  | .none => ¬retrieved.IsPresent
  | .any => True
  | .exact version => retrieved.IsPresent ∧ version = retrieved

instance (expected : ExpectedVersion) (retrieved : Version) :
    Decidable (expected.Admits retrieved) :=
  match expected with
  | .none => inferInstanceAs (Decidable (¬_))
  | .any => inferInstanceAs (Decidable True)
  | .exact _ => inferInstanceAs (Decidable (_ ∧ _))

/-- An aggregate and the version of the stream it stands for. -/
structure Snapshot {κ : Type} [EventFamily κ] (type : AggregateType κ) where
  aggregate : Aggregate κ type.State
  version : Version := Version.absent

variable {κ : Type} [EventFamily κ]

namespace Snapshot

variable {type : AggregateType κ}

/-- The aggregate after a save that brought the stream to `version`. -/
def saved (snapshot : Snapshot type) (version : Version) : Snapshot type where
  aggregate := { snapshot.aggregate with pending := [] }
  version := version

end Snapshot

namespace AggregateType

/-- The aggregate that a stream with these events stands for; none if there are no events. Events
without a handler count for the version. -/
def rehydrate (type : AggregateType κ) (id : type.Id) (events : List StoredEvent) :
    Except Error (Option (Snapshot type)) :=
  match events with
  | [] => .ok none
  | _ :: _ =>
    let replayed := type.replay false (type.blank id) events
    replayed.outcome.map fun _ => some ⟨replayed.target, Version.ofCount events.length⟩

/-- The origin of a save: it names type and identifier of the aggregate, unless the caller set these
properties. -/
def signed (type : AggregateType κ) (id : type.Id) (origin : Origin) : Origin :=
  { origin with
    properties :=
      (origin.properties.setNew "aggregate-type" type.name).setNew "aggregate-id"
        (type.idText id) }

/-- The write that saves an aggregate; none if nothing is pending. -/
def saveRequest (type : AggregateType κ) (stream : StreamKey) (id : type.Id)
    (snapshot : Snapshot type) (expected : ExpectedVersion) (origin : Origin) :
    Except Error (Option Write) :=
  if expected.Admits snapshot.version then
    match snapshot.aggregate.pending with
    | [] => .ok none
    | pending =>
      (Event.encodeAll pending).map fun events =>
        some
          { stream := stream
            events := events
            retrieved := snapshot.version
            expected := expected
            origin := type.signed id origin }
  else .error (.unexpectedVersion stream expected snapshot.version none)

end AggregateType

structure Repository (κ : Type) [EventFamily κ] (σ : Type) where
  type : AggregateType κ
  naming : StreamNaming := StreamNaming.byType
  storage : StreamStorage σ

namespace Repository

variable {σ : Type}

def stream (repository : Repository κ σ) (id : repository.type.Id) : StreamKey :=
  repository.naming repository.type.name (repository.type.idText id)

/-- Loads an aggregate, if its stream has events. -/
def tryGet (repository : Repository κ σ) (id : repository.type.Id) (state : σ) :
    Except Error (Option (Snapshot repository.type)) × σ :=
  let (answer, state) := repository.storage.read (repository.stream id) state
  (answer.bind (repository.type.rehydrate id), state)

/-- Loads an aggregate whose stream has to have events. -/
def get (repository : Repository κ σ) (id : repository.type.Id) (state : σ) :
    Except Error (Snapshot repository.type) × σ :=
  let (answer, state) := repository.tryGet id state
  match answer with
  | .ok (some snapshot) => (.ok snapshot, state)
  | .ok none =>
    (.error (.aggregateNotFound repository.type.name (repository.type.idText id)), state)
  | .error error => (.error error, state)

/-- Saves the pending events of an aggregate. A failed save leaves the aggregate as it is. -/
def save (repository : Repository κ σ) (id : repository.type.Id)
    (snapshot : Snapshot repository.type) (expected : ExpectedVersion) (origin : Origin)
    (state : σ) : Except Error Unit × Snapshot repository.type × σ :=
  match repository.type.saveRequest (repository.stream id) id snapshot expected origin with
  | .error error => (.error error, snapshot, state)
  | .ok none => (.ok (), snapshot, state)
  | .ok (some request) =>
    let (answer, state) := repository.storage.write request state
    match answer with
    | .ok version => (.ok (), snapshot.saved version, state)
    | .error error => (.error error, snapshot, state)

end Repository

end EventSourcing
