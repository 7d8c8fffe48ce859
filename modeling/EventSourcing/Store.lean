import EventSourcing.Keyed
import EventSourcing.Store.Transaction

/-!
A store of streams. A transaction is applied as a whole, if the header of its stream is as it says
and no position and no identity of its events is taken; otherwise the store stays as it is.
-/

namespace EventSourcing

/-- Whether the keys differ from one another and from those in use. -/
def fresh {α : Type} [DecidableEq α] (used : List α) : List α → Bool
  | [] => true
  | key :: rest => !used.contains key && fresh (key :: used) rest

structure Stream where
  version : Option Version := none
  records : List Record := []
  positions : List Int := []
  ids : List Uuid := []
  deriving Inhabited

namespace Stream

def events (stream : Stream) : List StoredEvent :=
  stream.records.flatMap Record.events

/-- A header is created where there is none, and advanced from the version that it holds. -/
def meets (stream : Stream) : HeaderChange → Bool
  | .create _ => stream.version.isNone
  | .advance expected _ => stream.version = some expected

def accepts (stream : Stream) (transaction : Transaction) : Bool :=
  stream.meets transaction.header &&
    fresh stream.positions (transaction.events.map (·.position)) &&
    fresh stream.ids (transaction.events.map (·.id))

def apply (stream : Stream) (transaction : Transaction) : Stream where
  version := some transaction.newVersion
  records := stream.records ++ transaction.records
  positions := stream.positions ++ transaction.events.map (·.position)
  ids := stream.ids ++ transaction.events.map (·.id)

theorem events_apply (stream : Stream) (transaction : Transaction) :
    (stream.apply transaction).events = stream.events ++ transaction.events := by
  simp [events, apply, Transaction.events]

end Stream

structure Store where
  streams : Keyed StreamKey Stream := {}
  deriving Inhabited

namespace Store

/-- A stream that nothing was written to is empty. -/
def stream (store : Store) (key : StreamKey) : Stream :=
  (store.streams.find? key).getD {}

def records (store : Store) (key : StreamKey) : List Record :=
  (store.stream key).records

def header (store : Store) (key : StreamKey) : Option Version :=
  (store.stream key).version

/-- Whether some record of the stream was written by `initiator`. -/
def containsInitiator (store : Store) (key : StreamKey) (initiator : Uuid) : Bool :=
  (store.records key).any fun record => record.initiator = initiator

/-- Streams with a header. -/
def streamCount (store : Store) : Nat :=
  (store.streams.entries.filter fun entry => entry.2.version.isSome).length

def submit (store : Store) (transaction : Transaction) : Store × Outcome :=
  let stream := store.stream transaction.stream
  if stream.accepts transaction then
    (⟨store.streams.set transaction.stream (stream.apply transaction)⟩, .committed)
  else (store, .conflict)

theorem submit_of_accepts {store : Store} {transaction : Transaction}
    (accepted : (store.stream transaction.stream).accepts transaction = true) :
    store.submit transaction =
      (⟨store.streams.set transaction.stream
        ((store.stream transaction.stream).apply transaction)⟩, .committed) := by
  simp [submit, accepted]

theorem submit_of_refuses {store : Store} {transaction : Transaction}
    (refused : (store.stream transaction.stream).accepts transaction = false) :
    store.submit transaction = (store, .conflict) := by
  simp [submit, refused]

/-- A transaction changes no stream but its own, and that one only if it is accepted. -/
theorem stream_submit (store : Store) (transaction : Transaction) (key : StreamKey) :
    (store.submit transaction).1.stream key =
      if key = transaction.stream ∧ (store.stream key).accepts transaction then
        (store.stream key).apply transaction
      else store.stream key := by
  cases answered : (store.stream transaction.stream).accepts transaction with
  | true =>
    rw [submit_of_accepts answered]
    by_cases same : key = transaction.stream
    · subst same
      rw [if_pos ⟨rfl, answered⟩]
      simp [stream]
    · simp [stream, same]
  | false =>
    rw [submit_of_refuses answered]
    by_cases same : key = transaction.stream
    · subst same
      simp [answered]
    · simp [same]

end Store

end EventSourcing
