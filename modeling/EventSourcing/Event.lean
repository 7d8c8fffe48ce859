import EventSourcing.Error
import EventSourcing.Time.Instant
import EventSourcing.Uuid

/-!
Events on their way to a stream and as they stand in it. What all events of one write share is the
write's origin; what tells them apart is position and identity.
-/

namespace EventSourcing

/-- Texts under text keys, in the order of the keys. -/
structure Properties where
  entries : List (String × String) := []
  ordered : Sorted.Ordered entries := by exact Sorted.ordered_nil
  deriving DecidableEq, Repr

namespace Properties

instance : Inhabited Properties := ⟨{}⟩

def find? (properties : Properties) (key : String) : Option String :=
  Sorted.find? key properties.entries

def set (properties : Properties) (key value : String) : Properties :=
  ⟨Sorted.insert key value properties.entries, properties.ordered.insert key value⟩

/-- Leaves a value that is already there. -/
def setNew (properties : Properties) (key value : String) : Properties :=
  ⟨Sorted.insertNew key value properties.entries, properties.ordered.insertNew key value⟩

@[simp] theorem find?_set_self (properties : Properties) (key value : String) :
    (properties.set key value).find? key = some value :=
  Sorted.find?_insert_self key value properties.entries

@[simp] theorem find?_set_of_ne (properties : Properties) {key other : String}
    (different : other ≠ key) (value : String) :
    (properties.set key value).find? other = properties.find? other :=
  Sorted.find?_insert_of_ne different value properties.entries

theorem find?_setNew (properties : Properties) (key value other : String) :
    (properties.setNew key value).find? other =
      if other = key then some ((properties.find? key).getD value) else properties.find? other := by
  simp only [setNew, find?, Sorted.insertNew]
  cases present : Sorted.find? key properties.entries with
  | some old =>
    by_cases same : other = key
    · subst same
      simp [present]
    · simp [same]
  | none =>
    by_cases same : other = key
    · subst same
      simp
    · simp [same]

end Properties

/-- What caused a write, and what its author attached to it. The nil identifier stands for an
unknown conversation or initiator. -/
structure Origin where
  conversation : Uuid := Uuid.nil
  initiator : Uuid := Uuid.nil
  properties : Properties := {}
  deriving DecidableEq, Repr, Inhabited

/-- An event that has no place in a stream yet. -/
structure NewEvent where
  eventType : String
  payload : Json
  deriving Inhabited

/-- An event in its place. -/
structure StoredEvent where
  id : Uuid
  stream : StreamKey
  position : Int
  eventType : String
  payload : Json
  conversation : Uuid
  initiator : Uuid
  properties : Properties
  occurredAt : Instant
  deriving Inhabited

end EventSourcing
