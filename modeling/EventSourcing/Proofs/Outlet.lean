import EventSourcing.Dispatch.Dispatcher
import EventSourcing.Proofs.Delivery.Course
import EventSourcing.Proofs.History
import EventSourcing.Store.Backend
import EventSourcing.Store.Gates

/-!
A database that publishes what it commits. A write goes through the gate of its stream and stays
inside until what it has committed is in the queues of the consumers. What the storage makes of a
call is settled at one moment, and the writer hears of it at any later one; between any two things
that a write does, other writes and the consumers may go on.
-/

namespace EventSourcing

/-- How a storage takes a call. Only a call that it serves can change anything. -/
inductive Reaction where
  | serves
  /-- A submit is answered with a conflict. -/
  | refuses
  | fails (error : Error)

def Store.under : Reaction → Backend Store
  | .serves => backend
  | .refuses => { backend with submit _ store := (.ok .conflict, store) }
  | .fails error =>
    { submit _ store := (.error error, store)
      readHeader _ store := (.error error, store)
      containsInitiator _ _ store := (.error error, store)
      readRecords _ store := (.error error, store) }

/-- The transaction that the writer knows to be committed. -/
def Writer.committed? (writer : Writer) : Option Transaction :=
  match writer.phase with
  | .finished _ committed => committed
  | _ => none

theorem modify_take_append_drop {α : Type} (f : α → α) {items : List α} {count : Nat}
    (inside : count < items.length) :
    ((items.take count).map f ++ items.drop count).modify count f =
      (items.take (count + 1)).map f ++ items.drop (count + 1) := by
  induction items generalizing count with
  | nil => cases inside
  | cons item rest ih =>
    cases count with
    | zero => rfl
    | succ count => simpa using ih (Nat.lt_of_succ_lt_succ inside)

namespace Dispatcher

/-- What a publication adds to the queue of a consumer. -/
def offered (events : List StoredEvent) (consumer : Consumer) : List (List StoredEvent) :=
  if consumer.hasExited then []
  else
    match consumer.subscription.observed events with
    | [] => []
    | observed => [observed]

theorem offer_eq (events : List StoredEvent) (consumer : Consumer) :
    offer events consumer =
      { consumer with queue := consumer.queue ++ offered events consumer } := by
  unfold offer offered Consumer.enqueue
  cases consumer.subscription.observed events with
  | nil => simp
  | cons first rest => cases consumer.hasExited <;> simp

/-- What the consumer at one place gets of a publication. -/
def offerAt (dispatcher : Dispatcher) (place : Nat) (events : List StoredEvent) : Dispatcher :=
  if dispatcher.stopping then dispatcher
  else { dispatcher with consumers := dispatcher.consumers.modify place (offer events) }

theorem offerAt_eq {dispatcher : Dispatcher} (going : dispatcher.stopping = false) (place : Nat)
    (events : List StoredEvent) :
    dispatcher.offerAt place events =
      { dispatcher with consumers := dispatcher.consumers.modify place (offer events) } :=
  if_neg (by simp [going])

/-- The first consumers have got their parts. -/
def offerTo (dispatcher : Dispatcher) (events : List StoredEvent) : Nat → Dispatcher
  | 0 => dispatcher
  | count + 1 => (dispatcher.offerTo events count).offerAt count events

theorem offerTo_of_stopping {dispatcher : Dispatcher} (stopping : dispatcher.stopping = true)
    (events : List StoredEvent) (count : Nat) : dispatcher.offerTo events count = dispatcher := by
  induction count with
  | zero => rfl
  | succ count ih => rw [offerTo, ih, offerAt, if_pos stopping]

theorem offerTo_of_going {dispatcher : Dispatcher} (going : dispatcher.stopping = false)
    (events : List StoredEvent) {count : Nat} (inside : count ≤ dispatcher.consumers.length) :
    dispatcher.offerTo events count =
      { dispatcher with
        consumers := (dispatcher.consumers.take count).map (offer events) ++
          dispatcher.consumers.drop count } := by
  induction count with
  | zero => rfl
  | succ count ih =>
    rw [offerTo, ih (Nat.le_of_succ_le inside), offerAt_eq (by exact going)]
    simp only [modify_take_append_drop _ inside]

theorem length_offerTo (dispatcher : Dispatcher) (events : List StoredEvent) (count : Nat) :
    (dispatcher.offerTo events count).consumers.length = dispatcher.consumers.length := by
  induction count with
  | zero => rfl
  | succ count ih =>
    rw [offerTo, offerAt]
    split
    · exact ih
    · exact (List.length_modify _ _ _).trans ih

/-- To publish is to offer the events to one consumer after the other. -/
theorem publish_eq_offerTo (dispatcher : Dispatcher) (events : List StoredEvent) :
    dispatcher.publish events = dispatcher.offerTo events dispatcher.consumers.length := by
  cases stopping : dispatcher.stopping with
  | true => rw [publish, if_pos stopping, offerTo_of_stopping stopping]
  | false =>
    rw [offerTo_of_going stopping events (Nat.le_refl _), publish, if_neg (by simp [stopping]),
      List.take_length, List.drop_length, List.append_nil]

def queueAt (dispatcher : Dispatcher) (place : Nat) : List (List StoredEvent) :=
  match dispatcher.consumers[place]? with
  | some consumer => consumer.queue
  | none => []

theorem queueAt_offerAt {dispatcher : Dispatcher} (going : dispatcher.stopping = false)
    {place : Nat} {consumer : Consumer} (found : dispatcher.consumers[place]? = some consumer)
    (events : List StoredEvent) :
    (dispatcher.offerAt place events).queueAt place =
      dispatcher.queueAt place ++ offered events consumer := by
  rw [offerAt_eq going]
  simp only [queueAt, List.getElem?_modify_eq, found, Option.map_eq_map, Option.map_some, offer_eq]

end Dispatcher

namespace Outlet

/-- Where a job stands. -/
inductive Standing where
  | fresh
  | entering
  | working
  /-- The storage has taken a call of the writer; once the writer hears of it, it is `next`. -/
  | hearing (next : Writer)
  /-- The consumers before `place` have got their part. -/
  | publishing (transaction : Transaction) (place : Nat)
  | leaving
  | done

structure Job where
  writer : Writer
  standing : Standing := .fresh

def Job.isDone (job : Job) : Bool :=
  match job.standing with
  | .done => true
  | _ => false

/-- A group that was put into the queue of the consumer at `place`. -/
structure Arrival where
  place : Nat
  group : List StoredEvent

def groupsAt (place : Nat) (arrivals : List Arrival) : List (List StoredEvent) :=
  (arrivals.filter fun arrival => arrival.place = place).map (·.group)

theorem groupsAt_append (here place : Nat) (arrivals : List Arrival)
    (groups : List (List StoredEvent)) :
    groupsAt place (arrivals ++ groups.map (Arrival.mk here)) =
      groupsAt place arrivals ++ if place = here then groups else [] := by
  rw [groupsAt, List.filter_append, List.map_append, groupsAt, List.append_cancel_left_eq]
  split
  · rename_i same
    rw [List.filter_eq_self.mpr, List.map_map]
    · exact List.map_id groups
    · simp [same]
  · rename_i different
    rw [List.filter_eq_nil_iff.mpr]
    · rfl
    · simp [Ne.symm different]

end Outlet

/-- The number of a job is its number as a visitor of the gates. No step looks at what was committed
and put into queues so far; both come with the earliest first. -/
structure Outlet where
  planner : Planner
  store : Store := {}
  gates : Gates := {}
  dispatcher : Dispatcher
  jobs : List Outlet.Job := []
  commits : List Commit := []
  arrivals : List Outlet.Arrival := []

namespace Outlet

/-- The groups that were put into the queue of the consumer at a place. -/
def received (outlet : Outlet) (place : Nat) : List (List StoredEvent) :=
  groupsAt place outlet.arrivals

def put (outlet : Outlet) (number : Nat) (job : Job) : Outlet :=
  { outlet with jobs := outlet.jobs.set number job }

/-- Where a job stands that is let in, or still has to wait. -/
def Standing.inward : Option Gates.Stage → Standing
  | some .inside => working
  | _ => entering

/-- Where a job stands that is on its way out, or has gone. -/
def Standing.outward : Option Gates.Stage → Standing
  | some _ => leaving
  | none => done

/-- Makes the first of the moves that the job can make at its gate now. -/
def pass (outlet : Outlet) (number : Nat) (job : Job) (moves : List Gates.Move)
    (standing : Option Gates.Stage → Standing) : Outlet :=
  match moves.findSome? (outlet.gates.move number) with
  | none => outlet
  | some gates =>
    { outlet with gates := gates }.put number
      { job with standing := standing (gates.stage? number) }

/-- A write without events is done at once; any other goes to the gate of its stream. -/
def arrive (outlet : Outlet) (number : Nat) (job : Job) : Outlet :=
  match job.writer.write.events with
  | [] => outlet.put number { job with standing := .done }
  | _ :: _ => outlet.pass number job [.arrive job.writer.write.stream] .inward

/-- One step of the writer, up to the answer. -/
def work (outlet : Outlet) (number : Nat) (job : Job) (reaction : Reaction) : Outlet :=
  match job.writer.phase with
  | .finished _ none => outlet.put number { job with standing := .leaving }
  | .finished _ (some transaction) =>
    outlet.put number { job with standing := .publishing transaction 0 }
  | _ =>
    let (next, planner, store) :=
      job.writer.step (Store.under reaction) outlet.planner outlet.store
    { outlet with
      planner := planner
      store := store
      commits := outlet.commits ++
        (next.committed?.map (Commit.mk number job.writer.write)).toList }.put
      number { job with standing := .hearing next }

/-- The consumer at one place gets its part of the publication. -/
def publish (outlet : Outlet) (number : Nat) (job : Job) (transaction : Transaction)
    (place : Nat) : Outlet :=
  if place < outlet.dispatcher.consumers.length then
    let dispatcher := outlet.dispatcher.offerAt place transaction.events
    let gained := (dispatcher.queueAt place).drop (outlet.dispatcher.queueAt place).length
    { outlet with
      dispatcher := dispatcher
      arrivals := outlet.arrivals ++ gained.map (Arrival.mk place) }.put
      number { job with standing := .publishing transaction (place + 1) }
  else outlet.put number { job with standing := .leaving }

/-- The next thing that a job does. -/
def advance (outlet : Outlet) (number : Nat) (reaction : Reaction) : Outlet :=
  match outlet.jobs[number]? with
  | none => outlet
  | some job =>
    match job.standing with
    | .fresh => outlet.arrive number job
    | .entering => outlet.pass number job [.ask, .enter] .inward
    | .working => outlet.work number job reaction
    | .hearing next => outlet.put number ⟨next, .working⟩
    | .publishing transaction place => outlet.publish number job transaction place
    | .leaving => outlet.pass number job [.release, .forget, .tidy] .outward
    | .done => outlet

def launch (outlet : Outlet) (write : Write) : Outlet :=
  { outlet with
    jobs := outlet.jobs ++ [{ writer := Writer.start write outlet.planner.settings.retryLimit }] }

def attend (outlet : Outlet) (place : Nat) (act : Consumer.Act) : Outlet :=
  { outlet with
    dispatcher := { outlet.dispatcher with
      consumers := outlet.dispatcher.consumers.modify place (·.act act) } }

/-- What can happen next. Nobody can name a version below that of a stream without events. -/
inductive Action where
  | launch (write : Write) (proper : write.retrieved.Proper)
  | advance (job : Nat) (reaction : Reaction)
  /-- The consumer at a place does what it can do now. -/
  | serve (place : Nat)
  | clock (place : Nat) (time : Nat)

def act (outlet : Outlet) : Action → Outlet
  | .launch write _ => outlet.launch write
  | .advance job reaction => outlet.advance job reaction
  | .serve place => outlet.attend place .step
  | .clock place time => outlet.attend place (.clock time)

def run (outlet : Outlet) (actions : List Action) : Outlet :=
  actions.foldl act outlet

/-- A database over a store that nothing was written to. -/
def opened (planner : Planner) (dispatcher : Dispatcher) : Outlet :=
  { planner := planner, dispatcher := dispatcher }

end Outlet

end EventSourcing
