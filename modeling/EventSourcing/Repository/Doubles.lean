import EventSourcing.Repository

/-!
Databases that stand in for a real one: one that answers every read with a fixed history and writes
down every write, one that is always empty, and one that always fails.
-/

namespace EventSourcing.StreamStorage

/-- The state is the list of the writes so far. -/
def recording (history : List StoredEvent) : StreamStorage (List Write) where
  read _ writes := (.ok history, writes)
  write request writes :=
    (.ok (request.retrieved.advance request.events.length), writes ++ [request])

/-- Takes every write and keeps none. -/
def empty : StreamStorage Unit where
  read _ state := (.ok [], state)
  write request state := (.ok (request.retrieved.advance request.events.length), state)

def failing : StreamStorage Unit where
  read _ state := (.error (.infrastructure "connection refused"), state)
  write _ state := (.error (.infrastructure "connection refused"), state)

end EventSourcing.StreamStorage
