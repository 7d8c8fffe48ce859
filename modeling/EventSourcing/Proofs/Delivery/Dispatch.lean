import EventSourcing.Dispatch.Dispatcher
import EventSourcing.Proofs.Delivery.Course

/-!
What happens to a dispatcher. Whatever it is, each consumer has done something of its own.
-/

namespace EventSourcing

namespace Subscription

/-- What the subscription receives of groups that are published. -/
def shares (subscription : Subscription) (groups : List (List StoredEvent)) :
    List (List StoredEvent) :=
  (groups.map subscription.observed).filter fun share => !share.isEmpty

theorem shares_append (subscription : Subscription) (groups more : List (List StoredEvent)) :
    subscription.shares (groups ++ more) =
      subscription.shares groups ++ subscription.shares more := by
  rw [shares, List.map_append, List.filter_append, ← shares, ← shares]

/-- What a publication means for a consumer. -/
def offers (subscription : Subscription) (events : List StoredEvent) : List Consumer.Act :=
  match subscription.observed events with
  | [] => []
  | observed => [.enqueue observed]

theorem offered_offers (subscription : Subscription) (events : List StoredEvent) :
    Consumer.offered (subscription.offers events) = subscription.shares [events] := by
  unfold offers shares
  cases observed : subscription.observed events <;>
    simp [observed, Consumer.offered, Consumer.Act.groups]

end Subscription

theorem Dispatcher.offer_eq_run (events : List StoredEvent) (consumer : Consumer) :
    offer events consumer = consumer.run (consumer.subscription.offers events) := by
  unfold offer Subscription.offers
  cases consumer.subscription.observed events <;> rfl

/-- Whether one dispatcher can become the other: each consumer does something of its own, and after
the stop signal it gets no group. -/
structure Dispatcher.GoesOn (before after : Dispatcher) : Prop where
  stopping : before.stopping = true → after.stopping = true
  consumers : ∀ place : Nat, ∃ acts : Consumer → List Consumer.Act,
    after.consumers[place]? =
      (before.consumers[place]?).map (fun consumer => consumer.run (acts consumer)) ∧
    (before.stopping = true → ∀ consumer, Consumer.offered (acts consumer) = [])

namespace Dispatcher.GoesOn

variable {before middle after : Dispatcher}

theorem refl (dispatcher : Dispatcher) : dispatcher.GoesOn dispatcher where
  stopping := id
  consumers _ := ⟨fun _ => [], by simp [Consumer.run], fun _ _ => rfl⟩

theorem trans (first : before.GoesOn middle) (second : middle.GoesOn after) :
    before.GoesOn after where
  stopping signalled := second.stopping (first.stopping signalled)
  consumers place := by
    obtain ⟨acts, here, quiet⟩ := first.consumers place
    obtain ⟨more, there, still⟩ := second.consumers place
    refine ⟨fun consumer => acts consumer ++ more (consumer.run (acts consumer)), ?_, ?_⟩
    · rw [there, here, Option.map_map]
      simp only [Function.comp_def, Consumer.run_append]
    · intro signalled consumer
      rw [Consumer.offered, List.flatMap_append, ← Consumer.offered, ← Consumer.offered,
        quiet signalled, still (first.stopping signalled), List.append_nil]

/-- Everywhere the same happens. -/
theorem of_map {signal : Bool} {unclaimed : List Nat} (acts : Consumer → List Consumer.Act)
    (stopping : before.stopping = true → signal = true)
    (quiet : before.stopping = true → ∀ consumer, Consumer.offered (acts consumer) = []) :
    before.GoesOn
      { consumers := before.consumers.map fun consumer => consumer.run (acts consumer)
        stopping := signal
        unclaimed := unclaimed } where
  stopping := stopping
  consumers _ := ⟨acts, List.getElem?_map, quiet⟩

theorem publish (dispatcher : Dispatcher) (events : List StoredEvent) :
    dispatcher.GoesOn (dispatcher.publish events) := by
  unfold Dispatcher.publish
  split
  · exact .refl dispatcher
  · rename_i going
    rw [funext (offer_eq_run events)]
    exact .of_map _ id fun signalled => absurd signalled going

theorem sendBatch {dispatcher next : Dispatcher} {name : String} {events : List StoredEvent}
    (sent : dispatcher.sendBatch name events = .ok next) : dispatcher.GoesOn next := by
  unfold Dispatcher.sendBatch at sent
  split at sent
  · cases sent
  · split at sent
    · cases sent
    · rename_i going
      obtain rfl := Except.ok.inj sent
      let acts (consumer : Consumer) : List Consumer.Act :=
        if consumer.subscription.name = name then [.enqueue events] else []
      have same : (fun consumer : Consumer =>
          if consumer.subscription.name = name then consumer.enqueue events else consumer) =
          fun consumer => consumer.run (acts consumer) := by
        funext consumer
        simp only [acts]
        split <;> rfl
      rw [same]
      exact .of_map acts id fun signalled => absurd (by simp [signalled]) going

theorem beginShutdown (dispatcher : Dispatcher) :
    dispatcher.GoesOn dispatcher.beginShutdown.2 :=
  .of_map (fun _ => [.signal]) (fun _ => rfl) fun _ _ => rfl

/-- Something happens to the consumer at one place. -/
theorem modify (dispatcher : Dispatcher) (place : Nat) {act : Consumer.Act}
    (quiet : dispatcher.stopping = true → act.groups = []) :
    dispatcher.GoesOn
      { dispatcher with consumers := dispatcher.consumers.modify place (·.act act) } where
  stopping := id
  consumers other := by
    by_cases here : place = other
    · subst here
      refine ⟨fun _ => [act], ?_, fun signalled _ => ?_⟩
      · exact List.getElem?_modify_eq ..
      · rw [Consumer.offered, List.flatMap_singleton, quiet signalled]
    · refine ⟨fun _ => [], ?_, fun _ _ => rfl⟩
      simp [here, Consumer.run]

/-- A subscription keeps its place and its name. -/
theorem names_eq (goes : before.GoesOn after) : after.names = before.names := by
  refine List.ext_getElem? fun place => ?_
  obtain ⟨acts, same, -⟩ := goes.consumers place
  simp only [names, List.getElem?_map, same, Option.map_map, Function.comp_def,
    Consumer.run_subscription]

theorem at_place (goes : before.GoesOn after) {place : Nat} {consumer : Consumer}
    (found : before.consumers[place]? = some consumer) :
    ∃ acts, after.consumers[place]? = some (consumer.run acts) ∧
      (before.stopping = true → Consumer.offered acts = []) := by
  obtain ⟨acts, same, quiet⟩ := goes.consumers place
  rw [found] at same
  exact ⟨acts consumer, same, fun signalled => quiet signalled consumer⟩

end Dispatcher.GoesOn

end EventSourcing
