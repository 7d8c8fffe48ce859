/-!
Names of event streams. By default the stream of an aggregate is named for its type and its
identifier, with a hyphen between them.
-/

namespace EventSourcing

structure StreamKey where
  text : String
  deriving DecidableEq, Repr, Inhabited

/-- How the stream of an aggregate is named from its type and its identifier. -/
abbrev StreamNaming := String → String → StreamKey

namespace StreamNaming

def byType : StreamNaming := fun aggregateType id => ⟨aggregateType ++ "-" ++ id⟩

/-- One fixed start for all streams, whatever the aggregate type. -/
def startingWith (start : String) : StreamNaming := fun _ id => ⟨start ++ id⟩

end StreamNaming

/-- Whether the stream's name starts with `start`. -/
def StreamKey.startsWith (key : StreamKey) (start : String) : Bool :=
  start.toList.isPrefixOf key.text.toList

end EventSourcing
