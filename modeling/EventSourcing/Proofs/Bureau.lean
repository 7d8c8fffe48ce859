import EventSourcing.Dispatch.Dispatcher
import EventSourcing.Proofs.Delivery.Course
import EventSourcing.Proofs.Outlet.Alone
import EventSourcing.Store.Backend

/-!
A database whose requests follow one another. Each write has gone through its gate, ended and
published what it committed before anything else is asked; what was answered, and what was given to
the dispatcher, is noted down.
-/

namespace EventSourcing

namespace Bureau

/-- A request with its answer. -/
inductive Entry where
  | written (write : Write) (result : Except Error Version)
  | read (key : StreamKey) (events : Except Error (List StoredEvent))

inductive Request where
  | write (write : Write)
  | read (key : StreamKey)
  /-- Something happens to the consumer at a place. -/
  | attend (place : Nat) (act : Consumer.Act)
  | shutdown

end Bureau

/-- The journal holds the answers, and the groups that were published while the dispatcher was
running are listed; both come with the earliest first. -/
structure Bureau (σ : Type) where
  planner : Planner
  storage : σ
  dispatcher : Option Dispatcher := none
  journal : List Bureau.Entry := []
  published : List (List StoredEvent) := []

namespace Bureau

variable {σ : Type}

/-- Publishes the events that were committed. Without a dispatcher there is nobody to give them
to. -/
def publish (bureau : Bureau σ) (committed : Option (List StoredEvent)) : Bureau σ :=
  match bureau.dispatcher, committed with
  | some dispatcher, some events =>
    { bureau with
      dispatcher := some (dispatcher.publish events)
      published :=
        if dispatcher.stopping then bureau.published else bureau.published ++ [events] }
  | _, _ => bureau

@[simp] theorem journal_publish (bureau : Bureau σ) (committed : Option (List StoredEvent)) :
    (bureau.publish committed).journal = bureau.journal := by
  unfold publish
  split <;> rfl

@[simp] theorem storage_publish (bureau : Bureau σ) (committed : Option (List StoredEvent)) :
    (bureau.publish committed).storage = bureau.storage := by
  unfold publish
  split <;> rfl

@[simp] theorem planner_publish (bureau : Bureau σ) (committed : Option (List StoredEvent)) :
    (bureau.publish committed).planner = bureau.planner := by
  unfold publish
  split <;> rfl

theorem publish_none (bureau : Bureau σ) : bureau.publish none = bureau := by
  unfold publish
  split
  · rename_i committed
    cases committed
  · rfl

theorem publish_some {bureau : Bureau σ} {dispatcher : Dispatcher}
    (attached : bureau.dispatcher = some dispatcher) (going : dispatcher.stopping = false)
    (events : List StoredEvent) :
    bureau.publish (some events) =
      { bureau with
        dispatcher := some (dispatcher.publish events)
        published := bureau.published ++ [events] } := by
  simp [publish, attached, going]

def write (backend : Backend σ) (bureau : Bureau σ) (write : Write) : Bureau σ :=
  let written := backend.write bureau.planner write bureau.storage
  { bureau with
    planner := written.planner
    storage := written.state
    journal := bureau.journal ++ [Entry.written write written.result] }.publish
    (written.committed.map Transaction.events)

theorem journal_write (backend : Backend σ) (bureau : Bureau σ) (write : Write) :
    (bureau.write backend write).journal = bureau.journal ++
      [.written write (backend.write bureau.planner write bureau.storage).result] :=
  journal_publish _ _

theorem storage_write (backend : Backend σ) (bureau : Bureau σ) (write : Write) :
    (bureau.write backend write).storage =
      (backend.write bureau.planner write bureau.storage).state :=
  storage_publish _ _

def read (backend : Backend σ) (bureau : Bureau σ) (key : StreamKey) : Bureau σ :=
  let (events, storage) := backend.read key bureau.storage
  { bureau with storage := storage, journal := bureau.journal ++ [.read key events] }

def act (backend : Backend σ) (bureau : Bureau σ) : Request → Bureau σ
  | .write write => bureau.write backend write
  | .read key => bureau.read backend key
  | .attend place act =>
    { bureau with
      dispatcher := bureau.dispatcher.map fun dispatcher =>
        { dispatcher with consumers := dispatcher.consumers.modify place (·.act act) } }
  | .shutdown =>
    { bureau with dispatcher := bureau.dispatcher.map fun dispatcher => dispatcher.beginShutdown.2 }

def run (backend : Backend σ) (bureau : Bureau σ) (requests : List Request) : Bureau σ :=
  requests.foldl (act backend) bureau

/-- A database in front of a storage, before it is asked anything. -/
def opened (planner : Planner) (storage : σ) (dispatcher : Option Dispatcher) : Bureau σ where
  planner := planner
  storage := storage
  dispatcher := dispatcher

/-- What is in the journal stays there. -/
theorem journal_act (backend : Backend σ) (bureau : Bureau σ) (request : Request) :
    bureau.journal <+: (bureau.act backend request).journal := by
  cases request with
  | write write =>
    rw [act, journal_write]
    exact List.prefix_append _ _
  | read key => exact List.prefix_append _ _
  | attend place act => exact List.prefix_rfl
  | shutdown => exact List.prefix_rfl

theorem journal_run (backend : Backend σ) (bureau : Bureau σ) (requests : List Request) :
    bureau.journal <+: (bureau.run backend requests).journal := by
  induction requests generalizing bureau with
  | nil => exact List.prefix_rfl
  | cons request rest ih => exact (bureau.journal_act backend request).trans (ih _)

/-- Whether a database with gates has come to the same. -/
structure Matches (bureau : Bureau Store) (outlet : Outlet) : Prop where
  planner : bureau.planner = outlet.planner
  storage : bureau.storage = outlet.store
  dispatcher : bureau.dispatcher = some outlet.dispatcher

/-- A write is what becomes of it behind its gate, where nobody comes between. -/
theorem Matches.write {bureau : Bureau Store} {outlet : Outlet} (matching : bureau.Matches outlet)
    (write : Write) (sound : outlet.gates.Sound) (nobody : outlet.gates.visits = {}) :
    ∃ after, Outlet.LeadsTo outlet.jobs.length (outlet.launch write) after ∧
      (bureau.write Store.backend write).Matches after := by
  obtain ⟨after, leads, carried⟩ := outlet.leadsTo_done write sound nobody
  obtain ⟨planner, storage, dispatcher⟩ := matching
  have storing := bureau.storage_write Store.backend write
  refine ⟨after, leads, ?_⟩
  rw [planner, storage] at storing
  refine ⟨?_, storing.trans carried.store.symm, ?_⟩
  · rw [carried.planner, ← planner, ← storage]
    exact planner_publish _ _
  · rw [carried.dispatcher, Bureau.write, planner, storage]
    cases (Store.backend.write outlet.planner write outlet.store).committed with
    | none =>
      rw [Option.map_none, publish_none]
      exact dispatcher
    | some transaction => simp only [Option.map_some, publish, dispatcher, Option.elim_some]

/-- Somebody to publish to. -/
def audience : List Subscription :=
  [{ name := "all", handlers := [(.any, ⟨"seen", fun _ _ => .alone {}⟩)] }]

def desk : Dispatcher :=
  (Dispatcher.start {} audience).toOption.get (by decide)

end Bureau

end EventSourcing
