import EventSourcing.Proofs.Bureau
import EventSourcing.Proofs.Foreground
import EventSourcing.Proofs.Submission
import EventSourcing.Sample.Counter

/-!
Saves that fail. What keeps a save from being done may be found before the database is asked or by
the database, in any round of the write; either way the aggregate stays as it was, nobody can tell
from a database in memory that something was to be written there, and its consumers get nothing.
-/

namespace EventSourcing

variable {κ : Type} [EventFamily κ] {σ : Type}

/-- The first event that cannot be encoded says what is wrong. -/
theorem Event.encodeAll_of_fault {before : List (Event κ)} {event : Event κ} {error : Error}
    (encodable : ∀ other ∈ before, ∃ encoded, other.encode = .ok encoded)
    (fault : event.encode = .error error) (behind : List (Event κ)) :
    encodeAll (before ++ event :: behind) = .error error := by
  induction before with
  | nil => simp only [List.nil_append, encodeAll, fault, bind, Except.bind]
  | cons other rest ih =>
    obtain ⟨encoded, made⟩ := encodable other List.mem_cons_self
    have later := ih fun another member => encodable another (List.mem_cons_of_mem _ member)
    simp only [List.cons_append, encodeAll, made, later, bind, Except.bind]

namespace AggregateType

variable {type : AggregateType κ} {stream : StreamKey} {id : type.Id} {snapshot : Snapshot type}
  {expected : ExpectedVersion} {origin : Origin}

theorem saveRequest_of_misfit (misfit : ¬expected.Admits snapshot.version) :
    type.saveRequest stream id snapshot expected origin =
      .error (.unexpectedVersion stream expected snapshot.version none) :=
  if_neg misfit

theorem saveRequest_of_idle (admitted : expected.Admits snapshot.version)
    (idle : snapshot.aggregate.pending = []) :
    type.saveRequest stream id snapshot expected origin = .ok none := by
  rw [saveRequest, if_pos admitted, idle]

theorem saveRequest_of_fault (admitted : expected.Admits snapshot.version) {error : Error}
    (fault : Event.encodeAll snapshot.aggregate.pending = .error error) :
    type.saveRequest stream id snapshot expected origin = .error error := by
  rw [saveRequest, if_pos admitted]
  split
  · rename_i idle
    rw [idle] at fault
    cases fault
  · rw [fault]
    rfl

theorem saveRequest_of_encoded (admitted : expected.Admits snapshot.version)
    (waiting : snapshot.aggregate.pending ≠ []) {events : List NewEvent}
    (encoded : Event.encodeAll snapshot.aggregate.pending = .ok events) :
    type.saveRequest stream id snapshot expected origin =
      .ok (some
        { stream := stream
          events := events
          retrieved := snapshot.version
          expected := expected
          origin := type.signed id origin }) := by
  rw [saveRequest, if_pos admitted]
  split
  · exact absurd ‹_› waiting
  · rw [encoded]
    rfl

end AggregateType

/-- A call of a database. -/
inductive StreamStorage.Call where
  | read (key : StreamKey)
  | write (request : Write)

/-- A database that notes down how it is called. -/
def StreamStorage.noting (storage : StreamStorage σ) : StreamStorage (σ × List Call) where
  read key state :=
    let (answer, after) := storage.read key state.1
    (answer, after, state.2 ++ [.read key])
  write request state :=
    let (answer, after) := storage.write request state.1
    (answer, after, state.2 ++ [.write request])

namespace Repository

/-- How a save that asks for a write ends, or one that asks for none and so does not call the
database. -/
inductive Ends (repository : Repository κ σ) (snapshot : Snapshot repository.type) (state : σ) :
    Except Error (Option Write) → Except Error Unit × Snapshot repository.type × σ → Prop where
  | refused {error : Error} :
      Ends repository snapshot state (.error error) (.error error, snapshot, state)
  | idle : Ends repository snapshot state (.ok none) (.ok (), snapshot, state)
  | failed {request : Write} {error : Error} {left : σ}
      (answered : repository.storage.write request state = (.error error, left)) :
      Ends repository snapshot state (.ok (some request)) (.error error, snapshot, left)
  | saved {request : Write} {version : Version} {left : σ}
      (answered : repository.storage.write request state = (.ok version, left)) :
      Ends repository snapshot state (.ok (some request)) (.ok (), snapshot.saved version, left)

theorem ends_save (repository : Repository κ σ) (id : repository.type.Id)
    (snapshot : Snapshot repository.type) (expected : ExpectedVersion) (origin : Origin)
    (state : σ) :
    repository.Ends snapshot state
      (repository.type.saveRequest (repository.stream id) id snapshot expected origin)
      (repository.save id snapshot expected origin state) := by
  rw [save]
  cases repository.type.saveRequest (repository.stream id) id snapshot expected origin with
  | error error => exact .refused
  | ok asked =>
    cases asked with
    | none => exact .idle
    | some request =>
      cases answered : repository.storage.write request state with
      | mk answer left =>
        cases answer with
        | ok version =>
          simp only [answered]
          exact .saved answered
        | error error =>
          simp only [answered]
          exact .failed answered

/-- A failed save leaves the aggregate as it was; if it has changed the database, that has failed to
write. -/
theorem of_failed (repository : Repository κ σ) {id : repository.type.Id}
    {snapshot after : Snapshot repository.type} {expected : ExpectedVersion} {origin : Origin}
    {state left : σ} {error : Error}
    (failed : repository.save id snapshot expected origin state = (.error error, after, left)) :
    after = snapshot ∧ (left = state ∨
      ∃ request, repository.storage.write request state = (.error error, left)) := by
  have ends := repository.ends_save id snapshot expected origin state
  rw [failed] at ends
  generalize repository.type.saveRequest _ _ _ _ _ = asked at ends
  cases ends with
  | refused => exact ⟨rfl, .inl rfl⟩
  | failed answered => exact ⟨rfl, .inr ⟨_, answered⟩⟩

/-- Noting down changes nothing. -/
theorem save_noting (type : AggregateType κ) (naming : StreamNaming) (storage : StreamStorage σ)
    (id : type.Id) (snapshot : Snapshot type) (expected : ExpectedVersion) (origin : Origin)
    (state : σ) (calls : List StreamStorage.Call) :
    let (answer, after, left, _) :=
      (mk type naming storage.noting).save id snapshot expected origin (state, calls)
    (mk type naming storage).save id snapshot expected origin state = (answer, after, left) := by
  cases made : type.saveRequest (naming type.name (type.idText id)) id snapshot expected origin with
  | error error => simp only [save, stream, made]
  | ok asked =>
    cases asked with
    | none => simp only [save, stream, made]
    | some request =>
      simp only [save, stream, made, StreamStorage.noting]
      cases (storage.write request state).1 <;> rfl

end Repository

/-- A write that has failed has committed nothing, and the store answers as before. -/
theorem Backend.Keeps.write_failed {backend : Backend Store} (keeps : backend.Keeps)
    {planner : Planner} {request : Write} {store : Store} (distinct : store.Distinct)
    {error : Error} (failed : (backend.write planner request store).result = .error error) :
    (backend.write planner request store).committed = none ∧
      (backend.write planner request store).state.AnswersAs store := by
  obtain ⟨effect, kept⟩ := keeps.write planner request store
  rw [failed] at effect
  cases committed : (backend.write planner request store).committed with
  | none =>
    rw [committed] at effect
    exact ⟨rfl, .of_stream (kept distinct) distinct effect⟩
  | some transaction =>
    rw [committed] at effect
    cases effect.1

/-- A database in front of a storage and a dispatcher, as a repository sees it. -/
def Bureau.access (backend : Backend σ) : StreamStorage (Bureau σ) where
  read key bureau := ((backend.read key bureau.storage).1, bureau.read backend key)
  write request bureau :=
    ((backend.write bureau.planner request bureau.storage).result, bureau.write backend request)

/-- Whether nobody can tell two databases apart by their streams or by what was published. -/
structure Bureau.Resembles (bureau other : Bureau Store) : Prop where
  storage : bureau.storage.AnswersAs other.storage
  dispatcher : bureau.dispatcher = other.dispatcher
  published : bureau.published = other.published

theorem Bureau.resembles_of_failed {backend : Backend Store} (keeps : backend.Keeps)
    {bureau : Bureau Store} (distinct : bureau.storage.Distinct) {request : Write} {error : Error}
    (failed : (backend.write bureau.planner request bureau.storage).result = .error error) :
    (bureau.write backend request).Resembles bureau := by
  obtain ⟨nothing, same⟩ := keeps.write_failed distinct failed
  rw [write, nothing, Option.map_none, publish_none]
  exact ⟨same, rfl, rfl⟩

namespace Simulation

theorem World.resembles_of_failed {world : World} (rests : world.AtRest)
    (distinct : world.stored.store.Distinct) {request : Write} {error : Error}
    (failed : (world.write request).1 = .error error) :
    (world.write request).2.stored.store.AnswersAs world.stored.store ∧
      (world.write request).2.dispatcher = world.dispatcher := by
  obtain ⟨after, wrote, store, -, -, -, dispatcher⟩ := world.write_of_atRest rests request
  rw [wrote] at failed ⊢
  obtain ⟨nothing, same⟩ := Store.keeps_backend.write_failed distinct failed
  refine ⟨store ▸ same, ?_⟩
  rw [dispatcher, nothing]
  exact Option.map_id'

/-- A database in memory writes what its world writes. -/
theorem Database.write_of_memory {database : Database} (memory : database.storage = .memory)
    (request : Write) :
    database.write request =
      ((database.world.write request).1, database.inWorld (database.world.write request).2) := by
  simp only [Database.write, memory]

end Simulation

namespace Repository

/-- What a save leaves alone: `after` is the aggregate after it, and `left` is the state of the
database, which was called in these ways. -/
structure Spares {type : AggregateType κ} (storage : StreamStorage σ) (snapshot : Snapshot type)
    (expected : ExpectedVersion) (state : σ) (answer : Except Error Unit) (after : Snapshot type)
    (left : σ) (calls : List StreamStorage.Call) : Prop where
  failed : ∀ error, answer = .error error → after = snapshot
  misfit : ¬expected.Admits snapshot.version →
    (∃ error, answer = .error error) ∧ left = state ∧ calls = []
  idle : snapshot.aggregate.pending = [] →
    (answer = .ok () ↔ expected.Admits snapshot.version) ∧ after = snapshot ∧ left = state ∧
      calls = []
  /-- The first event that cannot be encoded may be anywhere. -/
  faulty : ∀ before event behind error, expected.Admits snapshot.version →
    snapshot.aggregate.pending = before ++ event :: behind →
    (∀ other ∈ before, ∃ encoded, other.encode = .ok encoded) → event.encode = .error error →
    answer = .error error ∧ left = state ∧ calls = []
  /-- Any other save calls the database once and answers what that answers. -/
  asks : ∀ events, expected.Admits snapshot.version → snapshot.aggregate.pending ≠ [] →
    Event.encodeAll snapshot.aggregate.pending = .ok events →
    ∃ request : Write, calls = [.write request] ∧ request.events = events ∧
      request.retrieved = snapshot.version ∧ request.expected = expected ∧
      left = (storage.write request state).2 ∧
      answer = (storage.write request state).1.map fun _ => ()

theorem spares_save (type : AggregateType κ) (naming : StreamNaming) (storage : StreamStorage σ)
    (id : type.Id) (snapshot : Snapshot type) (expected : ExpectedVersion) (origin : Origin)
    (state : σ) :
    let (answer, after, left, calls) :=
      (mk type naming storage.noting).save id snapshot expected origin (state, [])
    Spares storage snapshot expected state answer after left calls := by
  let noted := mk type naming storage.noting
  have ends := noted.ends_save id snapshot expected origin (state, [])
  change noted.Ends _ _ (type.saveRequest (naming type.name (type.idText id)) id snapshot expected
    origin) _ at ends
  generalize result : noted.save id snapshot expected origin (state, []) = saved at ends
  obtain ⟨answer, after, left, calls⟩ := saved
  refine { failed := ?failed, misfit := fun misfit => ?misfit, idle := fun idle => ?idle,
           faulty := ?faulty, asks := fun events admitted waiting encoded => ?asks }
  case failed =>
    rintro error rfl
    exact (of_failed noted result).1
  case misfit =>
    rw [AggregateType.saveRequest_of_misfit misfit] at ends
    cases ends
    exact ⟨⟨_, rfl⟩, rfl, rfl⟩
  case idle =>
    by_cases admitted : expected.Admits snapshot.version
    · rw [AggregateType.saveRequest_of_idle admitted idle] at ends
      cases ends
      exact ⟨iff_of_true rfl admitted, rfl, rfl, rfl⟩
    · rw [AggregateType.saveRequest_of_misfit admitted] at ends
      cases ends
      exact ⟨iff_of_false nofun admitted, rfl, rfl, rfl⟩
  case faulty =>
    intro before event behind error admitted waiting encodable fault
    have unencoded := waiting ▸ Event.encodeAll_of_fault encodable fault behind
    rw [AggregateType.saveRequest_of_fault admitted unencoded] at ends
    cases ends
    exact ⟨rfl, rfl, rfl⟩
  case asks =>
    rw [AggregateType.saveRequest_of_encoded admitted waiting encoded] at ends
    cases ends with
    | failed answered | saved answered =>
      obtain ⟨wrote, listed⟩ := Prod.mk.inj answered
      obtain ⟨rfl, rfl⟩ := Prod.mk.inj listed
      refine ⟨_, rfl, rfl, rfl, rfl, rfl, ?_⟩
      rw [wrote]
      rfl

/-- A save that fails changes nothing, wherever it fails. -/
theorem failed_save_changes_nothing (type : AggregateType κ) (naming : StreamNaming)
    (id : type.Id) (snapshot : Snapshot type) (expected : ExpectedVersion) (origin : Origin) :
    (∀ {σ : Type} (storage : StreamStorage σ) (state : σ),
      let (answer, after, left, calls) :=
        (mk type naming storage.noting).save id snapshot expected origin (state, [])
      (mk type naming storage).save id snapshot expected origin state = (answer, after, left) ∧
        Spares storage snapshot expected state answer after left calls) ∧
    (∀ backend, backend = Store.backend ∨ backend = Store.reserving → ∀ bureau : Bureau Store,
      bureau.storage.Reached → ∀ error after left,
      (mk type naming (Bureau.access backend)).save id snapshot expected origin bureau =
        (.error error, after, left) → left.Resembles bureau) ∧
    ∀ database : Simulation.Database, database.storage = .memory → database.world.AtRest →
      database.world.stored.store.Reached → ∀ error after left,
      (mk type naming Simulation.Database.access).save id snapshot expected origin database =
        (.error error, after, left) →
      left.world.stored.store.AnswersAs database.world.stored.store ∧
        left.world.dispatcher = database.world.dispatcher := by
  refine ⟨fun storage state => ⟨?_, ?_⟩, ?_, ?_⟩
  · exact save_noting type naming storage id snapshot expected origin state []
  · exact spares_save type naming storage id snapshot expected origin state
  · intro backend memory bureau reached error after left failed
    rcases (of_failed _ failed).2 with rfl | ⟨request, answered⟩
    · exact ⟨.refl _, rfl, rfl⟩
    · obtain ⟨wrong, rfl⟩ := Prod.mk.inj answered
      exact Bureau.resembles_of_failed (Store.keeps_of_memory memory) reached.distinct wrong
  · intro database memory rests reached error after left failed
    rcases (of_failed _ failed).2 with rfl | ⟨request, answered⟩
    · exact ⟨.refl _, rfl⟩
    · have wrote := (database.write_of_memory memory request).symm.trans answered
      obtain ⟨wrong, rfl⟩ := Prod.mk.inj wrote
      exact Simulation.World.resembles_of_failed rests reached.distinct wrong

/-- A counter that was never saved, with these events. -/
def unsaved (events : List (Event Sample.Kind)) : Snapshot Sample.counter where
  aggregate := { Sample.counter.blank "account" with pending := events }

/-- A database in memory with consumers, and one stream that somebody else has written to. -/
def blocked : Simulation.Database where
  world :=
    { planner := .plain
      stored := { store := (({} : Store).submit Store.strays).1 }
      dispatcher := some Bureau.desk }

/-- A save of a new aggregate to that stream is refused. One that comes to an event without an
encoding does not get so far. -/
theorem failed_save_changes_nothing_blocked :
    let step : Event Sample.Kind := ⟨.incremented, (2 : Int32)⟩
    let cells : Event Sample.Kind := ⟨.grid, ([([1], 2)] : Sample.Cells)⟩
    let naming : StreamNaming := fun _ id => ⟨id⟩
    let access := Simulation.Database.access
    let bureau := Bureau.opened blocked.world.planner blocked.world.stored.store (some Bureau.desk)
    let (answer, after, left) :=
      (mk Sample.counter naming access).save "account" (unsaved [step]) .any {} blocked
    let (fault, same, _, calls) := (mk Sample.counter naming access.noting).save "account"
      (unsaved [step, cells, step]) .any {} (blocked, [])
    let (_, _, reserved) := (mk Sample.counter naming (Bureau.access Store.reserving)).save
      "account" (unsaved [step]) .any {} bureau
    (answer = .error (.unexpectedVersion ⟨"account"⟩ .any Version.absent (some ⟨4⟩)) ∧
      after = unsaved [step] ∧
      left.world.stored.store.AnswersAs blocked.world.stored.store ∧
      left.world.dispatcher = some Bureau.desk) ∧
      ((∃ error, fault = .error error) ∧ same = unsaved [step, cells, step] ∧ calls = []) ∧
      reserved.Resembles bureau := by
  intro step cells naming access bureau
  obtain ⟨spared, opened, memory⟩ :=
    failed_save_changes_nothing Sample.counter naming "account" (unsaved [step]) .any {}
  obtain ⟨always, -⟩ := failed_save_changes_nothing Sample.counter naming "account"
    (unsaved [step, cells, step]) .any {}
  have reached : blocked.world.stored.store.Reached := Store.Reached.empty.submitted Store.strays
  obtain ⟨-, spares⟩ := spared access blocked
  obtain ⟨store, dispatcher⟩ := memory blocked rfl ⟨rfl, rfl⟩ reached _ _ _ rfl
  obtain ⟨-, careful⟩ := always access blocked
  have encodable : ∀ other ∈ [step], ∃ encoded, other.encode = .ok encoded :=
    fun other member => List.mem_singleton.mp member ▸ ⟨_, rfl⟩
  obtain ⟨fault, -, uncalled⟩ :=
    careful.faulty [step] cells [step] _ trivial rfl encodable rfl
  exact ⟨⟨rfl, spares.failed _ rfl, store, dispatcher⟩,
    ⟨⟨_, fault⟩, careful.failed _ fault, uncalled⟩,
    opened Store.reserving (.inr rfl) bureau reached _ _ _ rfl⟩

end Repository

end EventSourcing
