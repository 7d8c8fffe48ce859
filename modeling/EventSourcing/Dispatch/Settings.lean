import EventSourcing.Environment

/-!
Settings of a dispatcher.
-/

namespace EventSourcing

structure DispatchSettings where
  /-- The pause before a failed delivery is tried again, in milliseconds. -/
  backoff : Nat := 1000
  deriving DecidableEq, Repr

def DispatchSettings.ofEnvironment (environment : Environment) :
    Except SettingError DispatchSettings :=
  let defaults : DispatchSettings := {}
  (environment.unsigned 64 "CHRONICLE_DISPATCH_RETRY_BACKOFF_MS" defaults.backoff).map
    DispatchSettings.mk

end EventSourcing
