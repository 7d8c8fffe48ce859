import EventSourcing.Dispatch.Subscription
import EventSourcing.Time.Deadline

/-!
The consumer of a subscription. It takes groups of events from its queue one after the other. A
group goes to the batch handlers as a whole and then, event by event, to the handlers of every
event and to those of the event's type. Each of these stages is attempted again from its first
handler, after a pause, until no handler fails. The stop signal is looked at before a group is
taken and before and during a pause; a call that goes on is not cut short.
-/

namespace EventSourcing

/-- What the handlers of one attempt receive. -/
inductive Stage where
  | batch (events : List StoredEvent)
  | single (event : StoredEvent)

namespace Stage

def events : Stage → List StoredEvent
  | batch events => events
  | single event => [event]

def admits : Stage → Trigger → Bool
  | batch _, .batch => true
  | single _, .any => true
  | single event, .ofType eventType => event.eventType = eventType
  | _, _ => false

end Stage

/-- The place of a handler among those of its subscription. -/
abbrev Slot := Nat

namespace Subscription

/-- The slots of the handlers that have the given kind of trigger and receive the stage. -/
def slotsWhere (subscription : Subscription) (wanted : Trigger → Bool) (stage : Stage) :
    List Slot :=
  (List.range subscription.handlers.length).filter fun slot =>
    match subscription.handlers[slot]? with
    | some (trigger, _) => wanted trigger && stage.admits trigger
    | none => false

/-- The handlers of a stage in the order of their calls: those of one event type come last, and
otherwise the order is that of registration. -/
def slots (subscription : Subscription) (stage : Stage) : List Slot :=
  subscription.slotsWhere (fun trigger => trigger = .batch || trigger = .any) stage ++
    subscription.slotsWhere (fun trigger => trigger ≠ .batch && trigger ≠ .any) stage

def hasBatch (subscription : Subscription) : Bool :=
  subscription.handlers.any fun handler => handler.1 = .batch

/-- The stages of a group. -/
def stages (subscription : Subscription) (group : List StoredEvent) : List Stage :=
  (if subscription.hasBatch then [.batch group] else []) ++ group.map .single

end Subscription

/-- A finished call. Times are in milliseconds. -/
structure Call where
  slot : Slot
  handler : String
  stage : Stage
  started : Nat
  ended : Nat
  /-- Whether the stop signal was set when the call ended. -/
  cancelled : Bool
  verdict : Verdict

/-- A group that is being delivered: the handlers that the current attempt has still to call, the
stage it belongs to, and the stages after it. -/
structure Delivery where
  slots : List Slot
  stage : Stage
  later : List Stage

/-- A call under way, on a course that it has been on since some time. -/
structure Running where
  slot : Slot
  handler : String
  started : Nat
  course : Course
  since : Nat

namespace Running

/-- The time at which the call ends; none while it does nothing but wait for the stop signal. -/
def due (running : Running) : Option Nat :=
  running.course.ending?.map fun ending => deadline running.since ending.pause

/-- The call as it goes on after it has seen the stop signal. -/
def stop (running : Running) (now : Nat) (stopped : Ending) : Running :=
  { running with course := .alone stopped, since := now }

@[simp] theorem slot_stop (running : Running) (now : Nat) (stopped : Ending) :
    (running.stop now stopped).slot = running.slot := rfl

@[simp] theorem stopped?_stop (running : Running) (now : Nat) (stopped : Ending) :
    (running.stop now stopped).course.stopped? = none := rfl

end Running

namespace Consumer

inductive Phase where
  /-- Has not looked at the queue yet. -/
  | starting
  | idle
  | ready (delivery : Delivery)
  | calling (running : Running) (delivery : Delivery)
  | pausing (due : Nat) (delivery : Delivery)
  | exited (time : Nat)

end Consumer

structure Consumer where
  subscription : Subscription
  backoff : Nat
  queue : List (List StoredEvent) := []
  phase : Consumer.Phase := .starting
  stopping : Bool := false
  now : Nat := 0
  log : List Call := []

namespace Consumer

def hasExited (consumer : Consumer) : Bool :=
  match consumer.phase with
  | .exited _ => true
  | _ => false

def exit (consumer : Consumer) : Consumer :=
  { consumer with phase := .exited consumer.now }

/-- Calls of a handler that have ended. -/
def calls (consumer : Consumer) (slot : Slot) : Nat :=
  (consumer.log.filter fun call => call.slot = slot).length

/-- The next stage with its whole list of handlers; after the last one the group is done. -/
def begin (consumer : Consumer) : List Stage → Consumer
  | [] => { consumer with phase := .idle }
  | stage :: later =>
    { consumer with phase := .ready ⟨consumer.subscription.slots stage, stage, later⟩ }

/-- Writes down a call that ends now. -/
def record (consumer : Consumer) (running : Running) (delivery : Delivery) : Consumer :=
  { consumer with
    log := consumer.log ++
      [{ slot := running.slot
         handler := running.handler
         stage := delivery.stage
         started := running.started
         ended := consumer.now
         cancelled := consumer.stopping
         verdict := running.course.verdict }] }

/-- Goes on after a call that ended. A failure pauses the delivery, or ends the consumer if the stop
signal is set; a pause of no length is over at once. -/
def afterCall (consumer : Consumer) (verdict : Verdict) (delivery : Delivery) : Consumer :=
  match verdict with
  | .ok => { consumer with phase := .ready delivery }
  | .failed _ =>
    if consumer.stopping then consumer.exit
    else { consumer with phase := .pausing (deadline consumer.now consumer.backoff) delivery }
  | .panicked => consumer.exit

def finish (consumer : Consumer) (running : Running) (delivery : Delivery) : Consumer :=
  (consumer.record running delivery).afterCall running.course.verdict delivery

def call (consumer : Consumer) (slot : Slot) (handler : Handler) (delivery : Delivery) :
    Consumer :=
  let course := handler.respond (consumer.calls slot) delivery.stage.events
  { consumer with
    phase := .calling ⟨slot, handler.name, consumer.now, course, consumer.now⟩ delivery }

/-- What the consumer does next at the present time; nothing if it has to wait. -/
def step? (consumer : Consumer) : Option Consumer :=
  match consumer.phase with
  | .exited _ => none
  | .starting => some { consumer with phase := .idle }
  | .idle =>
    if consumer.stopping then some consumer.exit
    else
      match consumer.queue with
      | [] => none
      | group :: rest =>
        some ({ consumer with queue := rest }.begin (consumer.subscription.stages group))
  | .ready delivery =>
    match delivery.slots with
    | [] => some (consumer.begin delivery.later)
    | slot :: rest =>
      let delivery := { delivery with slots := rest }
      match consumer.subscription.handlers[slot]? with
      | none => some { consumer with phase := .ready delivery }
      | some (_, handler) => some (consumer.call slot handler delivery)
  | .calling running delivery =>
    if running.due.any (· ≤ consumer.now) then some (consumer.finish running delivery)
    else if consumer.stopping then
      running.course.stopped?.map fun stopped =>
        { consumer with phase := .calling (running.stop consumer.now stopped) delivery }
    else none
  | .pausing due delivery =>
    if consumer.stopping then some consumer.exit
    else if due ≤ consumer.now then
      let slots := consumer.subscription.slots delivery.stage
      some { consumer with phase := .ready { delivery with slots := slots } }
    else none

/-- The time that the consumer waits for, if it waits for one. -/
def wake? (consumer : Consumer) : Option Nat :=
  match consumer.phase with
  | .calling running _ => running.due
  | .pausing due _ => some due
  | _ => none

/-- Takes up to `fuel` steps at the present time. -/
def settleWithin : Nat → Consumer → Consumer
  | 0, consumer => consumer
  | fuel + 1, consumer =>
    match consumer.step? with
    | none => consumer
    | some next => settleWithin fuel next

/-- Steps that the stages of a group can take if no handler fails. -/
def stageWork (subscription : Subscription) (stages : List Stage) : Nat :=
  (stages.map fun stage => 3 * (subscription.slots stage).length + 1).foldr (· + ·) 0

/-- Steps that are left in the current group if no handler fails. -/
def currentWork (consumer : Consumer) : Nat :=
  let left (delivery : Delivery) : Nat :=
    3 * (consumer.subscription.slots delivery.stage).length + 4 +
      stageWork consumer.subscription delivery.later
  match consumer.phase with
  | .starting => 1
  | .ready delivery => left delivery
  | .calling _ delivery => left delivery
  | .pausing _ delivery => left delivery
  | _ => 0

/-- Steps that are left in the queue and the current group if no handler fails. -/
def work (consumer : Consumer) : Nat :=
  consumer.currentWork + 2 +
    (consumer.queue.map fun group =>
      stageWork consumer.subscription (consumer.subscription.stages group) + 2).foldr (· + ·) 0

/-- Attempts of a stage that are made at one time, at most. With a pause between attempts there is
only one. Without, a stage that always fails is attempted for ever while no time passes: `settle`
and `advance` stop there after ten thousand attempts, although the program would go on. -/
def patience (consumer : Consumer) : Nat :=
  if consumer.backoff = 0 then 10000 else 1

/-- Does all that can be done at the present time. -/
def settle (consumer : Consumer) : Consumer :=
  settleWithin (consumer.work * consumer.patience) consumer

/-- Lets time pass, stopping at up to `fuel` times that are waited for. -/
def advanceWithin : Nat → Nat → Consumer → Consumer
  | 0, _, consumer => consumer
  | fuel + 1, time, consumer =>
    let settled := consumer.settle
    match settled.wake? with
    | none => { settled with now := max settled.now time }
    | some due =>
      if due ≤ time then advanceWithin fuel time { settled with now := max settled.now due }
      else { settled with now := max settled.now time }

/-- Does all that can be done until `time`, that time included. -/
def advance (consumer : Consumer) (time : Nat) : Consumer :=
  advanceWithin (time - consumer.now + 1) time consumer

/-- Does all that can be done before `time`, and comes to that time with what is due then still to
be done. -/
def reach (consumer : Consumer) (time : Nat) : Consumer :=
  if time ≤ consumer.now then consumer else { consumer.advance (time - 1) with now := time }

/-- Whether there is something to do at the present time. -/
def isAwake (consumer : Consumer) : Bool :=
  consumer.step?.isSome

/-- A consumer that has exited takes nothing more. -/
def enqueue (consumer : Consumer) (group : List StoredEvent) : Consumer :=
  if consumer.hasExited then consumer else { consumer with queue := consumer.queue ++ [group] }

def signal (consumer : Consumer) : Consumer :=
  { consumer with stopping := true }

end Consumer

end EventSourcing
