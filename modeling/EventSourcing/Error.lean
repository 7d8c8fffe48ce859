import EventSourcing.Json.Shape
import EventSourcing.StreamKey
import EventSourcing.Version

/-!
The ways in which loading, replaying and saving can fail, and their wording.
-/

namespace EventSourcing

/-- What could not be written as data or read from it. -/
inductive CodecFault where
  | encodeEvent (eventType reason : String)
  | decodeEvent (eventType : String) (stream : StreamKey) (position : Int) (mismatch : Mismatch)
  | decodeRecord (mismatch : Mismatch)
  | emptyPacket
  | malformedRecord (kind : String) (count : Nat)
  deriving DecidableEq, Repr

namespace CodecFault

def message : CodecFault → String
  | .encodeEvent eventType reason => "failed to encode " ++ eventType ++ ": " ++ reason
  | .decodeEvent eventType stream position mismatch =>
    "failed to decode " ++ eventType ++ " at " ++ stream.text ++ "#" ++ toString position ++ ": " ++
      mismatch.message
  | .decodeRecord mismatch => "failed to decode record: " ++ mismatch.message
  | .emptyPacket => "empty packet record"
  | .malformedRecord kind count =>
    "malformed " ++ kind ++ " record with " ++ toString count ++ " events"

end CodecFault

inductive Error where
  | aggregateNotFound (aggregateType id : String)
  | unexpectedVersion (stream : StreamKey) (expected : ExpectedVersion) (retrieved : Version)
      (actual : Option Version)
  | missingEventHandler (aggregateType eventType : String)
  | invalidVersion (value : Int)
  | nilCausation
  | packingLimitExceeded (count limit : Nat)
  | serialization (fault : CodecFault)
  | infrastructure (reason : String)
  deriving Repr

namespace Error

/-- The version found in the stream, if it was read. -/
def actualText : Option Version → String
  | some version => version.text
  | none => "unknown"

def message : Error → String
  | .aggregateNotFound aggregateType id => "aggregate not found: " ++ aggregateType ++ " " ++ id
  | .unexpectedVersion stream expected retrieved actual =>
    "unexpected version on stream " ++ stream.text ++ ": expected " ++ expected.text ++
      ", retrieved " ++ retrieved.text ++ ", actual " ++ actualText actual
  | .missingEventHandler aggregateType eventType =>
    "aggregate " ++ aggregateType ++ " has no handler for event " ++ eventType
  | .invalidVersion value => "invalid version: " ++ toString value
  | .nilCausation => "idempotent event identity requires a non-nil causation id"
  | .packingLimitExceeded count limit =>
    toString count ++ " events exceed the per-transaction limit of " ++ toString limit
  | .serialization fault => "serialization error: " ++ fault.message
  | .infrastructure reason => "infrastructure error: " ++ reason

end Error

end EventSourcing
