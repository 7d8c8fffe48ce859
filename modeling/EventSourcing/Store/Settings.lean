import EventSourcing.Environment

/-!
Limits and switches of a store, and how they are set from the environment.
-/

namespace EventSourcing

structure StoreSettings where
  /-- Operations that a transaction may hold, the header change included. -/
  maxOperations : Nat := 100
  maxPerPacket : Nat := 100
  /-- Whether a write too large for single records is packed. -/
  packing : Bool := true
  /-- Whether the events of a write with a known cause get derived identities. -/
  idempotency : Bool := true
  /-- How often a write at any version may be planned again after a conflict. -/
  retryLimit : Nat := 0
  deriving DecidableEq, Repr

namespace StoreSettings

/-- The first variable without a valid value is reported, in the order of the fields. -/
def ofEnvironment (environment : Environment) : Except SettingError StoreSettings := do
  let defaults : StoreSettings := {}
  let maxOperations ←
    environment.unsigned 64 "CHRONICLE_MAX_OPERATIONS_PER_TRANSACTION" defaults.maxOperations
  let maxPerPacket ←
    environment.unsigned 64 "CHRONICLE_MAX_EVENTS_PER_PACKET" defaults.maxPerPacket
  let packing ← environment.switch "CHRONICLE_PACKING_ENABLED" defaults.packing
  let idempotency ← environment.switch "CHRONICLE_IDEMPOTENCY_ENABLED" defaults.idempotency
  let retryLimit ←
    environment.unsigned 32 "CHRONICLE_ANY_VERSION_RETRY_LIMIT" defaults.retryLimit
  pure { maxOperations, maxPerPacket, packing, idempotency, retryLimit }

end StoreSettings

end EventSourcing
