import EventSourcing.Dispatch.Subscription
import EventSourcing.Sample.Events

/-!
Handlers of sample events that behave as they are told, call by call.
-/

namespace EventSourcing.Simulation

structure Behaviour where
  /-- Whether each call waits for the stop signal first. -/
  block : Bool := false
  sleep : Nat := 0
  /-- So many calls fail before one can succeed. -/
  failFirst : Nat := 0
  /-- The numbers of calls that fail. -/
  failAt : List Nat := []
  /-- The kind that every event has to be readable as. -/
  decodes : Option Sample.Kind := none
  /-- The numbers of calls that panic. -/
  panicAt : List Nat := []

namespace Behaviour

/-- The first event that cannot be read as `kind` fails the call. -/
def readAll (kind : Sample.Kind) : List StoredEvent → Verdict
  | [] => .ok
  | event :: rest =>
    match event.decode kind with
    | .ok _ => readAll kind rest
    | .error error => .failed error.message

def verdict (behaviour : Behaviour) (call : Nat) (events : List StoredEvent) : Verdict :=
  if call ∈ behaviour.panicAt then .panicked
  else if call < behaviour.failFirst ∨ call ∈ behaviour.failAt then
    .failed ("call " ++ toString call ++ " failed")
  else
    match behaviour.decodes with
    | none => .ok
    | some kind => readAll kind events

/-- A call that panics does so at once. -/
def course (behaviour : Behaviour) (call : Nat) (events : List StoredEvent) : Course :=
  match behaviour.verdict call events with
  | .panicked => .alone { verdict := .panicked }
  | verdict =>
    let ending : Ending := { pause := behaviour.sleep, verdict := verdict }
    if behaviour.block then .awaits ending else .alone ending

def handler (behaviour : Behaviour) (name : String) : Handler where
  name := name
  respond := behaviour.course

end Behaviour

end EventSourcing.Simulation
