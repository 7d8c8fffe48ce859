import EventSourcing.Sample.Events
import EventSourcing.Simulation.Database

/-!
Sessions: steps taken one after the other by somebody who holds loaded aggregates, writes to
streams, and looks at the storage and at the calls of handlers.
-/

namespace EventSourcing.Simulation

open EventSourcing.Sample

/-- Plans that take the place of those not used yet; a kind of call that is not named keeps its
own. -/
structure ScriptChange where
  submits : Option (List SubmitPlan) := none
  headers : Option (List (Option (Except Error (Option Version)))) := none
  initiators : Option (List (Option (Except Error Bool))) := none
  records : Option (List (Option (Except Error (List Record)))) := none

def Script.changed (script : Script) (change : ScriptChange) : Script where
  submits := change.submits.getD script.submits
  headers := change.headers.getD script.headers
  initiators := change.initiators.getD script.initiators
  records := change.records.getD script.records

/-- Sent and published while a shutdown waits. -/
structure Interlude where
  after : Nat
  recipient : String
  event : StoredEvent
  published : List StoredEvent

/-- What can be done with a loaded aggregate. -/
inductive HandleStep (type : AggregateType Kind) where
  | create (id : type.Id)
  | get (id : type.Id)
  | tryGet (id : type.Id)
  | command (event : Event Kind)
  | look
  | clear
  | unwrap
  | pending
  | concrete
  | save (id : type.Id) (expected : ExpectedVersion) (origin : Origin)

/-- What can be done with the storage. -/
inductive StoreStep where
  | settings
  | write (request : Write)
  | read (stream : StreamKey)
  | concurrent (requests : List (Nat × Except Error Write))
  | writes
  | issued
  | records (stream : StreamKey)
  | header (stream : StreamKey)
  | contains (stream : StreamKey) (initiator : Uuid)
  | streamCount
  | submit (transaction : Transaction)
  | script (change : ScriptChange)
  | submitted

/-- What can be done with the dispatcher and the clock. -/
inductive DispatchStep where
  | send (recipient : String) (event : StoredEvent)
  | sendBatch (recipient : String) (events : List StoredEvent)
  | publish (events : List StoredEvent)
  | subscriptions
  | advance (millis : Nat)
  | shutdown
  | shutdownDuring (interlude : Interlude)

inductive Answer (type : AggregateType Kind) where
  | nothing
  | failed (error : Error)
  | notDispatched (error : DispatchError)
  | handle (snapshot : Snapshot type)
  | saved (error : Option Error) (snapshot : Snapshot type)
  | newEvents (events : List NewEvent)
  | names (names : List String)
  | settings (settings : StoreSettings)
  | version (version : Version)
  | header (version : Option Version)
  | events (events : List StoredEvent)
  | results (results : List (Except Error Version × Nat))
  | writes (writes : List Write)
  | count (count : Nat)
  | records (records : List Record)
  | flag (value : Bool)
  | submission (outcome : Outcome) (transaction : Transaction)
  | transactions (transactions : List Transaction)
  | time (now : Nat)
  | shutdown (now : Nat) (error : Option DispatchError)

structure Session (type : AggregateType Kind) where
  naming : StreamNaming := StreamNaming.byType
  database : Database
  handles : Keyed String (Snapshot type) := {}
  /-- How many calls of each consumer have been reported. -/
  reported : List Nat := []

namespace Session

variable {type : AggregateType Kind}

def repository (session : Session type) : Repository Kind Database where
  type := type
  naming := session.naming
  storage := Database.access

def stream (session : Session type) (id : type.Id) : StreamKey :=
  session.repository.stream id

def inWorld (session : Session type) (world : World) : Session type :=
  { session with database := session.database.inWorld world }

/-- Puts an aggregate under a handle and shows it. -/
def put (session : Session type) (handle : String) (snapshot : Snapshot type) :
    Answer type × Session type :=
  (.handle snapshot, { session with handles := session.handles.set handle snapshot })

/-- Steps that need an aggregate under the handle. -/
def useHandle (session : Session type) (handle : String) (snapshot : Snapshot type) :
    HandleStep type → Answer type × Session type
  | .command event =>
    match type.apply snapshot.aggregate event with
    | .ok aggregate => session.put handle { snapshot with aggregate := aggregate }
    | .error error => (.failed error, session)
  | .look => (.handle snapshot, session)
  | .clear =>
    session.put handle { snapshot with aggregate := { snapshot.aggregate with pending := [] } }
  | .unwrap => session.put handle { aggregate := snapshot.aggregate }
  | .pending =>
    match Event.encodeAll snapshot.aggregate.pending with
    | .ok events => (.newEvents events, session)
    | .error error => (.failed error, session)
  | .concrete => (.names (snapshot.aggregate.pending.map fun event => event.kind.typeName), session)
  | .save id expected origin =>
    let (answer, snapshot, database) :=
      session.repository.save id snapshot expected origin session.database
    let session := { session with
      database := database, handles := session.handles.set handle snapshot }
    match answer with
    | .ok () => (.saved none snapshot, session)
    | .error error => (.saved (some error) snapshot, session)
  | _ => (.nothing, session)

def performHandle (session : Session type) (handle : String) (step : HandleStep type) :
    Answer type × Session type :=
  match step with
  | .create id => session.put handle { aggregate := type.blank id }
  | .get id =>
    let (answer, database) := session.repository.get id session.database
    let session := { session with database := database }
    match answer with
    | .ok snapshot => session.put handle snapshot
    | .error error => (.failed error, session)
  | .tryGet id =>
    let (answer, database) := session.repository.tryGet id session.database
    let session := { session with database := database }
    match answer with
    | .ok (some snapshot) => session.put handle snapshot
    | .ok none => (.nothing, session)
    | .error error => (.failed error, session)
  | step =>
    match session.handles.find? handle with
    | some snapshot => session.useHandle handle snapshot step
    | none => (.nothing, session)

def answered {α : Type} (make : α → Answer type) : Except Error α → Answer type
  | .ok value => make value
  | .error error => .failed error

/-- Steps that look at the world around the storage. -/
def useWorld (world : World) : StoreStep → Answer type × World
  | .settings => (.settings world.planner.settings, world)
  | .issued => (.count world.planner.ids.issued, world)
  | .records stream =>
    let (answer, stored) := world.stored.records stream
    (answered .records answer, { world with stored := stored })
  | .header stream =>
    let (answer, stored) := world.stored.header stream
    (answered .header answer, { world with stored := stored })
  | .contains stream initiator =>
    let (answer, stored) := world.stored.containsInitiator stream initiator
    (answered .flag answer, { world with stored := stored })
  | .streamCount => (.count world.stored.store.streamCount, world)
  | .submit transaction =>
    let (outcome, stored) := world.stored.apply transaction
    (.submission outcome transaction, { world with stored := stored })
  | .script change =>
    (.nothing,
      { world with
        stored := { world.stored with script := world.stored.script.changed change } })
  | .submitted =>
    (.transactions world.stored.submitted,
      { world with stored := { world.stored with submitted := [] } })
  | _ => (.nothing, world)

def useDatabase (database : Database) : StoreStep → Answer type × Database
  | .write request =>
    let (answer, database) := database.write request
    (answered .version answer, database)
  | .read stream =>
    let (answer, database) := database.read stream
    (answered .events answer, database)
  | .concurrent requests =>
    let (results, database) := database.performAll requests
    (.results results, database)
  | .writes =>
    match database.storage with
    | .recording _ writes => (.writes writes, database)
    | _ => (.nothing, database)
  | step =>
    let (answer, world) := useWorld database.world step
    (answer, database.inWorld world)

def performStore (session : Session type) (step : StoreStep) : Answer type × Session type :=
  let (answer, database) := useDatabase session.database step
  (answer, { session with database := database })

def sent (world : World) :
    Except DispatchError Dispatcher → Option DispatchError × World
  | .ok dispatcher => (none, { world with dispatcher := some dispatcher })
  | .error error => (some error, world)

def sentAnswer : Option DispatchError × World → Answer type × World
  | (none, world) => (.nothing, world)
  | (some error, world) => (.notDispatched error, world)

/-- Publishes and sends what the interlude says. -/
def interrupt (world : World) (interlude : Interlude) : Option DispatchError × World :=
  let world := world.publish interlude.published
  match world.dispatcher with
  | none => (none, world)
  | some dispatcher => sent world (dispatcher.send interlude.recipient interlude.event)

/-- A shutdown, and what is sent while it waits. The consumers that have something to do go on until
they wait before the stop signal is set. An interlude that does not wait itself comes before all
that. -/
def shutdownDuring (world : World) (dispatcher : Dispatcher) (interlude : Interlude) :
    Answer type × World :=
  let shut (world : World) : List Nat × World :=
    let settled := world.dispatcher.map fun changed => changed.settleAt dispatcher.awake
    { world with dispatcher := settled }.beginShutdown
  if interlude.after = 0 then
    let (refused, world) := interrupt world interlude
    let (awaited, world) := shut world
    let world := world.endShutdown awaited
    (.shutdown world.now refused, world)
  else
    let (awaited, world) := shut world
    let (refused, world) := interrupt (world.pause interlude.after) interlude
    let world := world.endShutdown awaited
    (.shutdown world.now refused, world)

/-- Time passes without a dispatcher too. -/
def useDispatcher (world : World) : Option Dispatcher → DispatchStep → Answer type × World
  | _, .advance millis =>
    let world := (world.pause millis).settle
    (.time world.now, world)
  | none, _ => (.nothing, world)
  | some dispatcher, .send recipient event =>
    sentAnswer (sent world (dispatcher.send recipient event))
  | some dispatcher, .sendBatch recipient events =>
    sentAnswer (sent world (dispatcher.sendBatch recipient events))
  | some _, .publish events => (.nothing, world.publish events)
  | some dispatcher, .subscriptions => (.names dispatcher.names, world)
  | some _, .shutdown =>
    let (awaited, world) := world.beginShutdown
    let world := world.endShutdown awaited
    (.time world.now, world)
  | some dispatcher, .shutdownDuring interlude => shutdownDuring world dispatcher interlude

def performDispatch (session : Session type) (step : DispatchStep) :
    Answer type × Session type :=
  let world := session.database.world
  let (answer, world) := useDispatcher world world.dispatcher step
  (answer, session.inWorld world)

/-- Lets the consumers do what they can do by now. -/
def settle (session : Session type) : Session type :=
  session.inWorld session.database.world.settle

/-- The calls of each subscription that have ended since the last report. -/
def report (session : Session type) : List (String × List Call) × Session type :=
  match session.database.world.dispatcher with
  | none => ([], session)
  | some dispatcher =>
    let fresh := (dispatcher.consumers.zipIdx).map fun (consumer, place) =>
      (consumer.subscription.name, consumer.log.drop (session.reported[place]?.getD 0))
    (fresh.filter fun entry => !entry.2.isEmpty,
      { session with reported := dispatcher.consumers.map fun consumer => consumer.log.length })

end Session

end EventSourcing.Simulation
