import EventSourcing.Dispatch.Settings
import EventSourcing.Dispatch.Consumer

/-!
The dispatcher of a set of subscriptions. Groups of events are published to all subscriptions that
observe their streams, or sent to one subscription by name. The first shutdown takes the consumers
that have to exit before it is over; a later one finds none to wait for.
-/

namespace EventSourcing

structure Dispatcher where
  consumers : List Consumer := []
  stopping : Bool := false
  /-- The places of the consumers that no shutdown waits for. -/
  unclaimed : List Nat := []

namespace Dispatcher

/-- The first name that stands in the list a second time. -/
def firstRepeated (seen : List String) : List String → Option String
  | [] => none
  | name :: rest => if name ∈ seen then some name else firstRepeated (name :: seen) rest

/-- Starts a consumer for each subscription. Their names have to differ. -/
def start (settings : DispatchSettings) (subscriptions : List Subscription) :
    Except DispatchError Dispatcher :=
  match firstRepeated [] (subscriptions.map (·.name)) with
  | some name => .error (.duplicateSubscription name)
  | none =>
    .ok
      { consumers := subscriptions.map fun subscription =>
          { subscription := subscription, backoff := settings.backoff }
        unclaimed := List.range subscriptions.length }

/-- Each subscription gets a consumer, and nobody waits for any of them. -/
theorem eq_of_start {settings : DispatchSettings} {subscriptions : List Subscription}
    {dispatcher : Dispatcher} (started : start settings subscriptions = .ok dispatcher) :
    dispatcher =
      { consumers := subscriptions.map fun subscription =>
          { subscription := subscription, backoff := settings.backoff }
        unclaimed := List.range subscriptions.length } := by
  unfold start at started
  split at started
  · cases started
  · exact (Except.ok.inj started).symm

def names (dispatcher : Dispatcher) : List String :=
  dispatcher.consumers.map fun consumer => consumer.subscription.name

/-- Puts the events that a consumer's subscription observes into its queue, if there are any. -/
def offer (events : List StoredEvent) (consumer : Consumer) : Consumer :=
  match consumer.subscription.observed events with
  | [] => consumer
  | observed => consumer.enqueue observed

/-- After the stop signal nothing is published. -/
def publish (dispatcher : Dispatcher) (events : List StoredEvent) : Dispatcher :=
  if dispatcher.stopping then dispatcher
  else { dispatcher with consumers := dispatcher.consumers.map (offer events) }

def consumer? (dispatcher : Dispatcher) (name : String) : Option Consumer :=
  dispatcher.consumers.find? fun consumer => consumer.subscription.name = name

/-- Queues a group for one subscription, whatever it observes. -/
def sendBatch (dispatcher : Dispatcher) (name : String) (events : List StoredEvent) :
    Except DispatchError Dispatcher :=
  match dispatcher.consumer? name with
  | none => .error (.unknownSubscription name)
  | some consumer =>
    if dispatcher.stopping || consumer.hasExited then .error (.stopped name)
    else
      .ok
        { dispatcher with
          consumers := dispatcher.consumers.map fun consumer =>
            if consumer.subscription.name = name then consumer.enqueue events else consumer }

def send (dispatcher : Dispatcher) (name : String) (event : StoredEvent) :
    Except DispatchError Dispatcher :=
  dispatcher.sendBatch name [event]

def advance (dispatcher : Dispatcher) (time : Nat) : Dispatcher :=
  { dispatcher with consumers := dispatcher.consumers.map fun consumer => consumer.advance time }

def reach (dispatcher : Dispatcher) (time : Nat) : Dispatcher :=
  { dispatcher with consumers := dispatcher.consumers.map fun consumer => consumer.reach time }

/-- The places of the consumers that have something to do at the present time. -/
def awake (dispatcher : Dispatcher) : List Nat :=
  ((dispatcher.consumers.zipIdx).filter fun entry => entry.1.isAwake).map (·.2)

/-- Lets the consumers at the given places do all that they can do at the present time. -/
def settleAt (dispatcher : Dispatcher) (places : List Nat) : Dispatcher :=
  { dispatcher with
    consumers := (dispatcher.consumers.zipIdx).map fun (consumer, place) =>
      if place ∈ places then consumer.settle else consumer }

/-- Sets the stop signal. The result names the consumers that this shutdown has to wait for. -/
def beginShutdown (dispatcher : Dispatcher) : List Nat × Dispatcher :=
  (dispatcher.unclaimed,
    { consumers := dispatcher.consumers.map Consumer.signal, stopping := true, unclaimed := [] })

/-- Whether all of the given consumers have exited. -/
def haveExited (dispatcher : Dispatcher) (awaited : List Nat) : Bool :=
  awaited.all fun place =>
    match dispatcher.consumers[place]? with
    | some consumer => consumer.hasExited
    | none => true

/-- The earliest time that some consumer waits for. -/
def wake? (dispatcher : Dispatcher) : Option Nat :=
  (dispatcher.consumers.filterMap Consumer.wake?).min?

end Dispatcher

end EventSourcing
