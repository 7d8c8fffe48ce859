import EventSourcing.Dispatch.Dispatcher
import EventSourcing.Simulation.Script
import EventSourcing.Store.Gates

/-!
Writers, storage and consumers on one virtual clock, which shows milliseconds. Writers run one at
a time until they have to wait; when all wait, the clock jumps to the next time that somebody
waits for, and those who wait for that time go on in the order in which they began to wait. With a
dispatcher, a writer goes through the gate of its stream and stays inside until
its events are published.
-/

namespace EventSourcing.Simulation

structure World where
  now : Nat := 0
  planner : Planner
  stored : ScriptedStore := {}
  gates : Gates := {}
  dispatcher : Option Dispatcher := none

namespace World

/-- Lets the consumers do all that they can do by now. -/
def settle (world : World) : World :=
  { world with dispatcher := world.dispatcher.map fun dispatcher => dispatcher.advance world.now }

/-- Brings the clock to `time`. The consumers have still to do what is due then. -/
def reach (world : World) (time : Nat) : World :=
  { world with
    now := max world.now time
    dispatcher := world.dispatcher.map fun dispatcher => dispatcher.reach time }

/-- Lets a pause go by. -/
def pause (world : World) (millis : Nat) : World :=
  world.reach (deadline world.now millis)

def publish (world : World) (events : List StoredEvent) : World :=
  { world with dispatcher := world.dispatcher.map fun dispatcher => dispatcher.publish events }

end World

/-- Where a writer's task stands. -/
inductive TaskStage where
  | delayed (millis : Nat)
  | starting
  | queueing
  | working
  | applying (plan : SubmitPlan) (transaction : Transaction)
  | answering (transaction : Transaction) (answer : Except Error Outcome)
  | done (result : Except Error Version) (time : Nat)

/-- A writer under way, with its number as a visitor of the gates. -/
structure Task where
  visitor : Nat
  writer : Writer
  stage : TaskStage := .starting

/-- What a task does after a step. -/
inductive Motion where
  | goesOn
  | sleeps (due : Nat)
  | waits
  | stops
  deriving DecidableEq, Repr

namespace Task

def isDone (task : Task) : Bool :=
  match task.stage with
  | .done _ _ => true
  | _ => false

/-- Goes on at once, or after a delay. -/
def after (delay : Nat) (task : Task) (world : World) : Task × World × Motion :=
  (task, world, if delay = 0 then .goesOn else .sleeps (deadline world.now delay))

/-- Goes to the gate of the stream. Without a dispatcher there is none, and a write without events
needs none. -/
def start (task : Task) (world : World) : Task × World × Motion :=
  match task.writer.write.events, world.dispatcher with
  | _ :: _, some _ =>
    let gates := world.gates.visit task.visitor task.writer.write.stream
    if gates.stage? task.visitor = some .inside then
      ({ task with stage := .working }, { world with gates := gates }, .goesOn)
    else ({ task with stage := .queueing }, { world with gates := gates }, .waits)
  | _, _ => ({ task with stage := .working }, world, .goesOn)

/-- Publishes what was committed and leaves the gate. -/
def finish (task : Task) (result : Except Error Version) (committed : Option Transaction)
    (world : World) : Task × World × Motion :=
  let world := match committed with
    | some transaction => world.publish transaction.events
    | none => world
  ({ task with stage := .done result world.now },
    { world with gates := world.gates.leave task.visitor }, .stops)

/-- A step of the writer. Only a submit can take time. -/
def work (task : Task) (world : World) : Task × World × Motion :=
  match task.writer.phase with
  | .finished result committed => task.finish result committed world
  | .submitting transaction =>
    let (received, stored) := world.stored.receive transaction
    let world := { world with stored := stored }
    match received with
    | .ok plan => after plan.delay { task with stage := .applying plan transaction } world
    | .error error =>
      ({ task with stage := .answering transaction (.error error) }, world, .goesOn)
  | _ =>
    let (writer, planner, stored) :=
      task.writer.step ScriptedStore.backend world.planner world.stored
    ({ task with writer := writer }, { world with planner := planner, stored := stored }, .goesOn)

def step (task : Task) (world : World) : Task × World × Motion :=
  match task.stage with
  | .delayed millis => after millis { task with stage := .starting } world
  | .starting => task.start world
  | .queueing =>
    match world.gates.move task.visitor .enter with
    | some gates => ({ task with stage := .working }, { world with gates := gates }, .goesOn)
    | none => (task, world, .waits)
  | .working => task.work world
  | .applying plan transaction =>
    let (answer, stored) := world.stored.decide plan transaction
    after (if plan.refusal.isSome then 0 else plan.ackDelay)
      { task with stage := .answering transaction answer } { world with stored := stored }
  | .answering transaction answer =>
    ({ task with stage := .working, writer := task.writer.submitted transaction answer }, world,
      .goesOn)
  | .done _ _ => (task, world, .stops)

/-- Steps that a task can still take. -/
def stepsLeft (task : Task) : Nat :=
  3 * task.writer.stepsLeft +
    match task.stage with
    | .delayed _ => 4
    | .starting => 3
    | .queueing => 3
    | .working => 2
    | .applying _ _ => 1
    | .answering _ _ => 0
    | .done _ _ => 0

/-- Runs until the task has to wait or is done. -/
def runWithin : Nat → Task → World → Task × World × Motion
  | 0, task, world => (task, world, .stops)
  | fuel + 1, task, world =>
    match task.step world with
    | (task, world, .goesOn) => runWithin fuel task world
    | blocked => blocked

def run (task : Task) (world : World) : Task × World × Motion :=
  runWithin (task.stepsLeft + 1) task world

end Task

/-- Tasks in the order of their numbers, those that can run, and those that sleep with the times
they wait for, in the order in which they went to sleep. -/
structure Schedule where
  world : World
  tasks : List Task
  ready : List Nat := []
  sleeping : List (Nat × Nat) := []

namespace Schedule

def isDone (schedule : Schedule) : Bool :=
  schedule.tasks.all Task.isDone

/-- The visitors that were handed a gate and have not gone in yet. -/
def called (gates : Gates) : List Nat :=
  (gates.visits.entries.filter fun entry => entry.2.stage = .called).map (·.1)

/-- Runs a task that is not waiting. Whoever is handed the gate by it can run after those that can
run already. -/
def runTask (schedule : Schedule) (place : Nat) : Schedule :=
  match schedule.tasks[place]? with
  | none => schedule
  | some task =>
    let waitingBefore := called schedule.world.gates
    let (task, world, motion) := task.run schedule.world
    let newlyCalled := (called world.gates).filter fun visitor => visitor ∉ waitingBefore
    { world := world
      tasks := schedule.tasks.set place task
      ready := schedule.ready ++ newlyCalled
      sleeping := match motion with
        | .sleeps due => schedule.sleeping ++ [(due, place)]
        | _ => schedule.sleeping }

/-- Those who wait for the earliest time wake up when it comes. -/
def wake (schedule : Schedule) : Schedule :=
  match (schedule.sleeping.map (·.1)).min? with
  | none => schedule
  | some due =>
    { schedule with
      world := schedule.world.reach due
      ready := (schedule.sleeping.filter fun sleeper => sleeper.1 = due).map (·.2)
      sleeping := schedule.sleeping.filter fun sleeper => sleeper.1 ≠ due }

def step (schedule : Schedule) : Schedule :=
  match schedule.ready with
  | place :: rest => { schedule with ready := rest }.runTask place
  | [] => { schedule with world := schedule.world.settle }.wake

def runWithin : Nat → Schedule → Schedule
  | 0, schedule => schedule
  | fuel + 1, schedule => if schedule.isDone then schedule else runWithin fuel schedule.step

/-- Each step of a task that sleeps or waits takes one turn to wake it and one to run it. -/
def turns (schedule : Schedule) : Nat :=
  (schedule.tasks.map fun task => 4 * task.stepsLeft + 8).foldr (· + ·) 0

def run (schedule : Schedule) : Schedule :=
  runWithin schedule.turns schedule

end Schedule

namespace World

/-- Runs one write in the foreground. -/
def write (world : World) (request : Write) : Except Error Version × World :=
  let task : Task :=
    { visitor := 0, writer := Writer.start request world.planner.settings.retryLimit }
  let schedule := Schedule.run { world := world, tasks := [task], ready := [0] }
  match schedule.tasks with
  | [{ stage := .done result _, .. }] => (result, schedule.world)
  | _ => (.ok request.retrieved, schedule.world)

/-- Runs writes side by side, each of them after a delay of its own. The answers come with the times
at which they were ready. -/
def writeAll (world : World) (requests : List (Nat × Write)) :
    List (Except Error Version × Nat) × World :=
  let tasks := (requests.zipIdx).map fun ((delay, request), place) =>
    { visitor := place
      writer := Writer.start request world.planner.settings.retryLimit
      stage := .delayed delay : Task }
  let schedule :=
    Schedule.run { world := world, tasks := tasks, ready := List.range tasks.length }
  (schedule.tasks.filterMap fun task =>
    match task.stage with
    | .done result time => some (result, time)
    | _ => none, schedule.world)

def read (world : World) (key : StreamKey) : Except Error (List StoredEvent) × World :=
  let (answer, stored) := ScriptedStore.backend.read key world.stored
  (answer, { world with stored := stored })

/-- A shutdown that waits, for as long as `fuel` wakings take, until the given consumers exited. -/
def awaitExits : Nat → List Nat → World → World
  | 0, _, world => world
  | fuel + 1, awaited, world =>
    match world.dispatcher with
    | none => world
    | some dispatcher =>
      let dispatcher := dispatcher.advance world.now
      let world := { world with dispatcher := some dispatcher }
      if dispatcher.haveExited awaited then world
      else
        match dispatcher.wake? with
        | none => world
        | some due => awaitExits fuel awaited { world with now := max world.now due }

/-- Wakings that the consumers can need to come to an end. -/
def exitFuel (dispatcher : Dispatcher) : Nat :=
  (dispatcher.consumers.map Consumer.work).foldr (· + ·) 1

def beginShutdown (world : World) : List Nat × World :=
  match world.dispatcher with
  | none => ([], world)
  | some dispatcher =>
    let (awaited, dispatcher) := dispatcher.beginShutdown
    (awaited, { world with dispatcher := some dispatcher })

/-- Waits until the consumers of a shutdown have exited. -/
def endShutdown (world : World) (awaited : List Nat) : World :=
  match world.dispatcher with
  | none => world
  | some dispatcher => world.awaitExits (exitFuel dispatcher) awaited

end World

end EventSourcing.Simulation
