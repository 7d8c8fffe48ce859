import EventSourcing.Proofs.Delivery.Dispatch

/-!
A dispatcher and those who shut it down. A shutdown sets the stop signal, takes the consumers that
nobody waits for yet, and is over once they have exited; it may be given up before. Shutdowns may
overlap, and meanwhile groups are published and sent and the consumers go on.
-/

namespace EventSourcing

namespace Closing

inductive Standing where
  | waiting
  | ended
  | givenUp
  deriving DecidableEq, Repr

/-- A shutdown with the places of the consumers that it waits for. -/
structure Wait where
  awaited : List Nat
  standing : Standing := .waiting
  deriving DecidableEq, Repr

/-- What can happen next. A single event is sent as a batch. -/
inductive Action where
  | publish (events : List StoredEvent)
  | sendBatch (name : String) (events : List StoredEvent)
  | shutdown
  /-- A shutdown looks whether its consumers have exited. -/
  | look (number : Nat)
  | giveUp (number : Nat)
  /-- The consumer at a place does what it can do now. -/
  | serve (place : Nat)
  | clock (place : Nat) (time : Nat)

end Closing

/-- The shutdowns are numbered in the order in which they began. -/
structure Closing where
  dispatcher : Dispatcher
  waits : List Closing.Wait := []

namespace Closing

def shutdown (closing : Closing) : Closing :=
  let (awaited, dispatcher) := closing.dispatcher.beginShutdown
  { dispatcher := dispatcher, waits := closing.waits ++ [{ awaited := awaited }] }

/-- Only a shutdown that waits can come to an end. -/
def leave (closing : Closing) (number : Nat) (standing : Standing) : Closing :=
  { closing with
    waits := closing.waits.modify number fun wait =>
      if wait.standing = .waiting then { wait with standing := standing } else wait }

def look (closing : Closing) (number : Nat) : Closing :=
  match closing.waits[number]? with
  | some wait =>
    if closing.dispatcher.haveExited wait.awaited then closing.leave number .ended else closing
  | none => closing

def attend (closing : Closing) (place : Nat) (act : Consumer.Act) : Closing :=
  { closing with
    dispatcher := { closing.dispatcher with
      consumers := closing.dispatcher.consumers.modify place (·.act act) } }

def act (closing : Closing) : Action → Closing
  | .publish events => { closing with dispatcher := closing.dispatcher.publish events }
  | .sendBatch name events =>
    match closing.dispatcher.sendBatch name events with
    | .ok dispatcher => { closing with dispatcher := dispatcher }
    | .error _ => closing
  | .shutdown => closing.shutdown
  | .look number => closing.look number
  | .giveUp number => closing.leave number .givenUp
  | .serve place => closing.attend place .step
  | .clock place time => closing.attend place (.clock time)

def run (closing : Closing) (actions : List Action) : Closing :=
  actions.foldl act closing

def opened (dispatcher : Dispatcher) : Closing := { dispatcher := dispatcher }

end Closing

namespace Closing

theorem goesOn_act (closing : Closing) (action : Action) :
    closing.dispatcher.GoesOn (closing.act action).dispatcher := by
  cases action with
  | publish events => exact .publish _ events
  | sendBatch name events =>
    rw [act]
    cases sent : closing.dispatcher.sendBatch name events with
    | ok dispatcher => exact .sendBatch sent
    | error error => exact .refl _
  | shutdown => exact .beginShutdown _
  | look number =>
    rw [act, look]
    split
    · split <;> exact .refl _
    · exact .refl _
  | giveUp number => exact .refl _
  | serve place => exact .modify _ place fun _ => rfl
  | clock place time => exact .modify _ place fun _ => rfl

theorem goesOn_run (closing : Closing) (actions : List Action) :
    closing.dispatcher.GoesOn (closing.run actions).dispatcher := by
  induction actions generalizing closing with
  | nil => exact .refl _
  | cons action rest ih => exact (closing.goesOn_act action).trans (ih _)

/-- Each event goes to a handler that takes its time, and then to one that does not. -/
def crew : List Subscription :=
  [{ name := "all"
     handlers := [(.any, ⟨"slow", fun _ _ => .alone { pause := 50 }⟩),
       (.any, ⟨"quick", fun _ _ => .alone {}⟩)] }]

def staff : Dispatcher :=
  (Dispatcher.start {} crew).toOption.get (by decide)

def parcel (position : Int) : StoredEvent :=
  { (default : StoredEvent) with position := position }

/-- The first call of the first of two groups is under way. -/
def working : List Action :=
  [.sendBatch "all" [parcel 0, parcel 1], .sendBatch "all" [parcel 2], .serve 0, .serve 0, .serve 0]

end Closing

end EventSourcing
