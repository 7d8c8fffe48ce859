import EventSourcing.Proofs.Undisturbed

/-!
A desk where whole operations are done one after the other, over one database. Aggregates are taken
in hand blank or loaded; events are applied to them, and they are saved. Others may write to the
same store.
-/

namespace EventSourcing

/-- A save of pending events that ended well: the stream it went to, the version that was held until
then, and the version that its transaction went on from. If there was no transaction, the save was
taken for a repetition. -/
structure Landing where
  stream : StreamKey
  held : Version
  base : Option Version
  deriving DecidableEq

variable {κ : Type} [EventFamily κ]

/-- An aggregate in hand, with the stream and the identifier that it was taken up under. -/
structure Held (type : AggregateType κ) where
  stream : StreamKey
  id : type.Id
  snapshot : Snapshot type
  /-- The saves since it was taken up, the earliest first. No operation looks at them. -/
  landings : List Landing := []

variable {ι : Type}

structure Desk (types : ι → AggregateType κ) where
  planner : Planner
  store : Store := {}
  held : (h : ι) → Option (Held (types h)) := fun _ => none

/-- What can be done next. -/
inductive Desk.Operation (types : ι → AggregateType κ) where
  /-- Takes up an aggregate without a history. -/
  | create (h : ι) (naming : StreamNaming) (id : (types h).Id)
  | get (h : ι) (naming : StreamNaming) (id : (types h).Id)
  | tryGet (h : ι) (naming : StreamNaming) (id : (types h).Id)
  | apply (h : ι) (event : Event κ)
  | save (h : ι) (naming : StreamNaming) (id : (types h).Id) (expected : ExpectedVersion)
      (origin : Origin)
  /-- Somebody writes who holds no aggregate. -/
  | write (request : Write) (proper : request.retrieved.Proper)

/-- Aggregates of one type in a database in front of a store. -/
def AggregateType.over (type : AggregateType κ) (naming : StreamNaming) :
    Repository κ (Planner × Store) where
  type := type
  naming := naming
  storage := Store.storage

namespace Desk

variable {types : ι → AggregateType κ}

def opened (types : ι → AggregateType κ) (planner : Planner) : Desk types :=
  { planner := planner }

/-- What a save of pending events leaves in the hand's record. -/
def landing? {type : AggregateType κ} (stream : StreamKey) (id : type.Id)
    (snapshot : Snapshot type) (expected : ExpectedVersion) (origin : Origin) (planner : Planner)
    (store : Store) : Option Landing :=
  match type.saveRequest stream id snapshot expected origin with
  | .ok (some request) =>
    let written := Store.backend.write planner request store
    match written.result with
    | .ok _ => some ⟨stream, snapshot.version, written.committed.map Transaction.baseline⟩
    | .error _ => none
  | _ => none

variable [DecidableEq ι]

def place (desk : Desk types) (h : ι) (held : Held (types h)) : Desk types :=
  { desk with held := Function.update desk.held h (some held) }

@[simp] theorem place_planner (desk : Desk types) (h : ι) (held : Held (types h)) :
    (desk.place h held).planner = desk.planner := rfl

@[simp] theorem place_store (desk : Desk types) (h : ι) (held : Held (types h)) :
    (desk.place h held).store = desk.store := rfl

@[simp] theorem place_self (desk : Desk types) (h : ι) (held : Held (types h)) :
    (desk.place h held).held h = some held := by
  simp [place]

@[simp] theorem place_of_ne (desk : Desk types) {h other : ι} (different : other ≠ h)
    (held : Held (types h)) : (desk.place h held).held other = desk.held other := by
  simp [place, different]

/-- Takes up what was found, if anything was. -/
def load (desk : Desk types) (h : ι) (naming : StreamNaming) (id : (types h).Id) :
    Except Error (Option (Snapshot (types h))) → Desk types
  | .ok (some snapshot) =>
    desk.place h
      { stream := ((types h).over naming).stream id, id := id, snapshot := snapshot }
  | _ => desk

/-- Saves an aggregate in hand, and says how the save has ended. -/
def save (desk : Desk types) (h : ι) (held : Held (types h)) (naming : StreamNaming)
    (id : (types h).Id) (expected : ExpectedVersion) (origin : Origin) :
    Except Error Unit × Desk types :=
  let repository := (types h).over naming
  let (answer, snapshot, planner, store) :=
    repository.save id held.snapshot expected origin (desk.planner, desk.store)
  let landing := landing? (repository.stream id) id held.snapshot expected origin desk.planner
    desk.store
  (answer, { desk with planner := planner, store := store }.place h
    { held with snapshot := snapshot, landings := held.landings ++ landing.toList })

variable [DecidableEq κ]

def act (desk : Desk types) : Operation types → Desk types
  | .create h naming id =>
    desk.load h naming id (.ok (some { aggregate := (types h).blank id }))
  | .get h naming id =>
    desk.load h naming id
      ((((types h).over naming).get id (desk.planner, desk.store)).1.map some)
  | .tryGet h naming id =>
    desk.load h naming id (((types h).over naming).tryGet id (desk.planner, desk.store)).1
  | .apply h event =>
    match desk.held h with
    | none => desk
    | some held =>
      match (types h).apply held.snapshot.aggregate event with
      | .ok changed =>
        desk.place h { held with snapshot := { held.snapshot with aggregate := changed } }
      | .error _ => desk
  | .save h naming id expected origin =>
    match desk.held h with
    | none => desk
    | some held => (desk.save h held naming id expected origin).2
  | .write request _ =>
    let (_, planner, store) := Store.storage.write request (desk.planner, desk.store)
    { desk with planner := planner, store := store }

def run (desk : Desk types) (operations : List (Operation types)) : Desk types :=
  operations.foldl act desk

end Desk

end EventSourcing
