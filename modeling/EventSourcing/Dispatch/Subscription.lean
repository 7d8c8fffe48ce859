import EventSourcing.Event

/-!
Subscriptions. A subscription names its handlers and what each of them receives: the events of a
commit as a whole, every event, or the events of one type. How a call of a handler goes is a
function of the number of calls before it and of the events it receives.
-/

namespace EventSourcing

/-- How a call of a handler ends. -/
inductive Verdict where
  | ok
  | failed (reason : String)
  | panicked
  deriving DecidableEq, Repr

namespace Verdict

def text : Verdict → String
  | ok => "ok"
  | failed reason => reason
  | panicked => "panic"

end Verdict

/-- An end that a call comes to after so many milliseconds. -/
structure Ending where
  pause : Nat := 0
  verdict : Verdict := .ok
  deriving DecidableEq, Repr

/-- The course of a call. It may take no notice of the stop signal, do nothing until the signal
comes, or come to an end of its own unless the signal comes before it. -/
inductive Course where
  | alone (ending : Ending)
  | awaits (stopped : Ending)
  | races (ending stopped : Ending)
  deriving DecidableEq, Repr

namespace Course

/-- How the call ends without the stop signal, if it does. -/
def ending? : Course → Option Ending
  | alone ending => some ending
  | awaits _ => none
  | races ending _ => some ending

/-- How the call goes on from the stop signal to its end, if it looks out for the signal. -/
def stopped? : Course → Option Ending
  | alone _ => none
  | awaits stopped => some stopped
  | races _ stopped => some stopped

/-- The verdict that the call comes to, unless the stop signal is still to change it. -/
def verdict : Course → Verdict
  | alone ending => ending.verdict
  | awaits stopped => stopped.verdict
  | races ending _ => ending.verdict

end Course

structure Handler where
  name : String
  respond : Nat → List StoredEvent → Course

/-- What a handler receives. -/
inductive Trigger where
  | batch
  | any
  | ofType (eventType : String)
  deriving DecidableEq, Repr

structure Subscription where
  name : String
  /-- The start of the streams whose published events are received; without one, all are. -/
  start : Option String := none
  handlers : List (Trigger × Handler) := []

namespace Subscription

/-- A later restriction replaces an earlier one. -/
def restrictedTo (subscription : Subscription) (start : String) : Subscription :=
  { subscription with start := some start }

def observes (subscription : Subscription) (key : StreamKey) : Bool :=
  match subscription.start with
  | none => true
  | some start => key.startsWith start

/-- The published events that the subscription receives. -/
def observed (subscription : Subscription) (events : List StoredEvent) : List StoredEvent :=
  events.filter fun event => subscription.observes event.stream

end Subscription

inductive DispatchError where
  | unknownSubscription (name : String)
  | duplicateSubscription (name : String)
  | stopped (name : String)
  deriving DecidableEq, Repr

namespace DispatchError

def message : DispatchError → String
  | unknownSubscription name => "unknown subscription: " ++ name
  | duplicateSubscription name => "subscription configured twice: " ++ name
  | stopped name => "subscription stopped: " ++ name

end DispatchError

end EventSourcing
