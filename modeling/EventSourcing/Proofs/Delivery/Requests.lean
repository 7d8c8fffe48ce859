import EventSourcing.Proofs.Delivery.Dispatch

/-!
What can be asked of a dispatcher, and what it means for each of the consumers: they get a group, or
the stop signal, or nothing. Only the one that a group is sent to decides about the answer.
-/

namespace EventSourcing

namespace Dispatcher

inductive Request where
  | publish (events : List StoredEvent)
  | send (name : String) (event : StoredEvent)
  | sendBatch (name : String) (events : List StoredEvent)
  | shutdown
  /-- Time passes, and that is all. -/
  | nothing

/-- The subscription that something is sent to. -/
def Request.recipient? : Request → Option String
  | .send name _ | .sendBatch name _ => some name
  | .publish _ | .shutdown | .nothing => none

def Request.isShutdown : Request → Bool
  | .shutdown => true
  | .publish _ | .send _ _ | .sendBatch _ _ | .nothing => false

/-- Nothing changes if a group is turned away. -/
def sent (dispatcher : Dispatcher) :
    Except DispatchError Dispatcher → Option DispatchError × Dispatcher
  | .ok next => (none, next)
  | .error error => (some error, dispatcher)

/-- Does what is asked, and says why if it does not. -/
def perform (dispatcher : Dispatcher) : Request → Option DispatchError × Dispatcher
  | .publish events => (none, dispatcher.publish events)
  | .send name event => dispatcher.sent (dispatcher.send name event)
  | .sendBatch name events => dispatcher.sent (dispatcher.sendBatch name events)
  | .shutdown => (none, dispatcher.beginShutdown.2)
  | .nothing => (none, dispatcher)

/-- What a group that is sent means for a consumer. -/
def deliveries (subscription : Subscription) (stopping : Bool) (name : String)
    (events : List StoredEvent) : List Consumer.Act :=
  if stopping = false ∧ subscription.name = name then [.enqueue events] else []

/-- What a request means for a consumer. -/
def Request.acts (subscription : Subscription) (stopping : Bool) : Request → List Consumer.Act
  | .publish events => if stopping then [] else subscription.offers events
  | .send name event => deliveries subscription stopping name [event]
  | .sendBatch name events => deliveries subscription stopping name events
  | .shutdown => [.signal]
  | .nothing => []

variable {dispatcher : Dispatcher} {place : Nat} {consumer : Consumer}

theorem nodup_of_firstRepeated {seen names : List String}
    (none : firstRepeated seen names = none) : names.Nodup ∧ ∀ name ∈ names, name ∉ seen := by
  induction names generalizing seen with
  | nil => exact ⟨List.nodup_nil, fun _ member => nomatch member⟩
  | cons name rest ih =>
    rw [firstRepeated] at none
    split at none
    · cases none
    · rename_i new
      obtain ⟨distinct, others⟩ := ih none
      refine ⟨List.nodup_cons.mpr ⟨fun again => ?_, distinct⟩, fun other member => ?_⟩
      · exact others name again List.mem_cons_self
      · rcases List.mem_cons.mp member with rfl | later
        · exact new
        · exact fun before => others other later (List.mem_cons_of_mem _ before)

/-- A dispatcher starts only with names that differ from each other. -/
theorem nodup_of_start {settings : DispatchSettings} {subscriptions : List Subscription}
    (started : start settings subscriptions = .ok dispatcher) : dispatcher.names.Nodup := by
  have same : dispatcher.names = subscriptions.map (·.name) := by
    rw [eq_of_start started, names, List.map_map]
    rfl
  rw [same]
  unfold start at started
  split at started
  · cases started
  · exact (nodup_of_firstRepeated ‹_›).1

/-- With different names each consumer is found by its name. -/
theorem consumer?_eq (distinct : dispatcher.names.Nodup)
    (found : dispatcher.consumers[place]? = some consumer) :
    dispatcher.consumer? consumer.subscription.name = some consumer := by
  obtain ⟨inside, same⟩ := List.getElem?_eq_some_iff.mp found
  refine List.find?_eq_some_iff_getElem.mpr ⟨decide_eq_true rfl, place, inside, same, ?_⟩
  intro earlier before
  have bound : place < dispatcher.names.length := by rwa [names, List.length_map]
  have apart : dispatcher.names[place]? ≠ dispatcher.names[earlier]? := fun equal =>
    Nat.ne_of_gt before ((List.getElem?_inj bound distinct).mp equal)
  rw [names, List.getElem?_map, List.getElem?_map, found,
    List.getElem?_eq_getElem (Nat.lt_trans before inside)] at apart
  rw [Bool.not_eq_true', decide_eq_false_iff_not]
  exact fun equal => apart (congrArg some equal.symm)

/-- A group that is sent comes to the consumer with that name, if it is still there. -/
theorem sent_sendBatch (distinct : dispatcher.names.Nodup) (name : String)
    (events : List StoredEvent) :
    (dispatcher.sent (dispatcher.sendBatch name events)).2 =
      { dispatcher with
        consumers := dispatcher.consumers.map fun consumer =>
          consumer.run (deliveries consumer.subscription dispatcher.stopping name events) } := by
  have still (same : ∀ consumer ∈ dispatcher.consumers,
      consumer.run (deliveries consumer.subscription dispatcher.stopping name events) = consumer) :
      dispatcher = { dispatcher with
        consumers := dispatcher.consumers.map fun consumer =>
          consumer.run (deliveries consumer.subscription dispatcher.stopping name events) } := by
    rw [List.map_congr_left same, List.map_id']
  have kept {consumer : Consumer} (turned : ¬(dispatcher.stopping = false ∧
      consumer.subscription.name = name)) :
      consumer.run (deliveries consumer.subscription dispatcher.stopping name events) =
        consumer := by
    rw [deliveries, if_neg turned]
    rfl
  unfold sendBatch
  cases found : dispatcher.consumer? name with
  | none =>
    refine still fun consumer member => kept fun both => ?_
    exact List.find?_eq_none.mp found consumer member (decide_eq_true both.2)
  | some served =>
    dsimp only
    split
    · rename_i refused
      refine still fun consumer member => ?_
      by_cases gets : dispatcher.stopping = false ∧ consumer.subscription.name = name
      · obtain ⟨going, rfl⟩ := gets
        obtain ⟨place, here⟩ := List.mem_iff_getElem?.mp member
        rw [consumer?_eq distinct here] at found
        obtain rfl := Option.some.inj found
        rw [going, Bool.false_or] at refused
        rw [deliveries, if_pos ⟨going, rfl⟩]
        exact if_pos refused
      · exact kept gets
    · rename_i going
      rw [Bool.not_eq_true, Bool.or_eq_false_iff] at going
      simp only [sent]
      congr 1
      refine List.map_congr_left fun consumer member => ?_
      by_cases own : consumer.subscription.name = name
      · rw [if_pos own, deliveries, if_pos ⟨going.1, own⟩]
        rfl
      · rw [if_neg own]
        exact (kept fun both => own both.2).symm

/-- What a request means for a dispatcher is what it means for each of its consumers. -/
theorem consumers_perform (distinct : dispatcher.names.Nodup) (request : Request) :
    (dispatcher.perform request).2.consumers =
      dispatcher.consumers.map fun consumer =>
        consumer.run (request.acts consumer.subscription dispatcher.stopping) := by
  cases request with
  | publish events =>
    simp only [perform, publish, Request.acts]
    split
    · exact (List.map_id _).symm
    · exact List.map_congr_left fun consumer _ => offer_eq_run events consumer
  | send name event => exact congrArg consumers (sent_sendBatch distinct name [event])
  | sendBatch name events => exact congrArg consumers (sent_sendBatch distinct name events)
  | shutdown => rfl
  | nothing => exact (List.map_id _).symm

theorem names_perform (distinct : dispatcher.names.Nodup) (request : Request) :
    (dispatcher.perform request).2.names = dispatcher.names := by
  rw [names, consumers_perform distinct, List.map_map, names]
  refine List.map_congr_left fun consumer _ => ?_
  rw [Function.comp_apply, Consumer.run_subscription]

theorem stopping_perform (distinct : dispatcher.names.Nodup) (request : Request) :
    (dispatcher.perform request).2.stopping = (dispatcher.stopping || request.isShutdown) := by
  cases request with
  | publish events =>
    rw [Request.isShutdown, Bool.or_false, perform, publish]
    split <;> rfl
  | send name event =>
    rw [Request.isShutdown, Bool.or_false, perform, Dispatcher.send, sent_sendBatch distinct]
  | sendBatch name events =>
    rw [Request.isShutdown, Bool.or_false, perform, sent_sendBatch distinct]
  | shutdown => exact (Bool.or_true _).symm
  | nothing => exact (Bool.or_false _).symm

/-- The consumer that something is sent to takes it, unless it has exited or the stop signal is
set. -/
theorem answer_perform (distinct : dispatcher.names.Nodup)
    (found : dispatcher.consumers[place]? = some consumer) {request : Request}
    (own : request.recipient? = some consumer.subscription.name) :
    (dispatcher.perform request).1 =
      if dispatcher.stopping || consumer.hasExited then
        some (.stopped consumer.subscription.name)
      else none := by
  have answer (events : List StoredEvent) :
      (dispatcher.sent (dispatcher.sendBatch consumer.subscription.name events)).1 =
        if dispatcher.stopping || consumer.hasExited then
          some (.stopped consumer.subscription.name)
        else none := by
    simp only [sendBatch, consumer?_eq distinct found]
    split <;> rfl
  cases request with
  | send name event =>
    obtain rfl := Option.some.inj own
    exact answer [event]
  | sendBatch name events =>
    obtain rfl := Option.some.inj own
    exact answer events
  | _ => cases own

end Dispatcher

end EventSourcing
