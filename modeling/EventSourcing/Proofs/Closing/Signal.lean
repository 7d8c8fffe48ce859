import EventSourcing.Proofs.Closing
import EventSourcing.Proofs.Delivery.Exit

/-!
After the stop signal. Nothing more is queued, and each consumer is done once it has made the calls
that were left of the group it was at.
-/

namespace EventSourcing

/-- What a consumer has become since the stop signal was set. -/
structure Consumer.Stopped (consumer last : Consumer) : Prop where
  /-- No group was taken. -/
  queue : last.queue = consumer.queue
  /-- Of the calls that were left the first were made, each once, and none after one that failed. -/
  calls : ∃ since, last.made = consumer.trials ++ since ∧
    since.map Trial.target <+: consumer.left ∧ ∀ trial ∈ since.dropLast, trial.ok = true
  /-- There is something to do, unless a call takes its time. -/
  waits : last.step? = none → last.hasExited = true ∨ ∃ running delivery due,
    last.phase = .calling running delivery ∧ running.due = some due ∧ last.now < due
  /-- Every call ends, so the consumer exits. -/
  exits : ∃ time, ∀ late, time ≤ late → (last.advance late).hasExited = true

namespace Dispatcher

variable {dispatcher : Dispatcher}

theorem sendBatch_of_stopping (stopping : dispatcher.stopping = true) {name : String}
    (known : name ∈ dispatcher.names) (events : List StoredEvent) :
    dispatcher.sendBatch name events = .error (.stopped name) := by
  obtain ⟨consumer, member, same⟩ := List.mem_map.mp known
  cases found : dispatcher.consumer? name with
  | none => exact absurd (decide_eq_true same) (List.find?_eq_none.mp found consumer member)
  | some consumer => simp only [sendBatch, found, stopping, Bool.true_or, if_true]

end Dispatcher

namespace Consumer

variable {subscription : Subscription} {backoff : Nat}

/-- A consumer that has got some groups and done some things has one of the groups in hand. -/
theorem holds_run (subscription : Subscription) (backoff : Nat) (acts : List Act) :
    (run { subscription := subscription, backoff := backoff } acts).Holds (offered acts) := by
  have empty : Holds { subscription := subscription, backoff := backoff } [] := List.suffix_rfl
  exact empty.run acts

/-- Without new groups a consumer that was signalled comes to its exit. -/
theorem Holds.stopped {consumer : Consumer} {groups : List (List StoredEvent)}
    (holds : consumer.Holds groups) {acts : List Act} (quiet : offered acts = []) :
    consumer.Stopped (consumer.signal.run acts) := by
  have signalled : consumer.signal.Holds groups := holds
  have begun : consumer.signal.Winds consumer.signal := .refl rfl
  have winds := begun.run signalled quiet
  have ended := signalled.run acts
  exact ⟨winds.queue, winds.made, exited_or_calling winds.stopping,
    ended.exists_exit winds.stopping⟩

end Consumer

namespace Closing

/-- Once the stop signal is set, no consumer takes a group and none tries a stage again. Each makes
calls that are left of its group in progress, in their order and once, and exits when they end. What
is sent is turned away, and what is published comes to nobody. -/
theorem nothing_new_after_signal {settings : DispatchSettings} {subscriptions : List Subscription}
    {dispatcher : Dispatcher} (started : Dispatcher.start settings subscriptions = .ok dispatcher)
    (before after : List Action) :
    let closing := (opened dispatcher).run before
    let last := (closing.act .shutdown).run after
    (∀ (place : Nat) (consumer : Consumer), closing.dispatcher.consumers[place]? = some consumer →
      (∃ subscription acts, subscriptions[place]? = some subscription ∧
        consumer = Consumer.run { subscription := subscription, backoff := settings.backoff } acts ∧
        (consumer.remaining ≠ [] → consumer.Midway (Consumer.offered acts)) ∧
        ∀ part ∈ consumer.remaining, part.slots.Nodup) ∧
      ∃ ended, last.dispatcher.consumers[place]? = some ended ∧ consumer.Stopped ended) ∧
    (∀ name ∈ dispatcher.names,
      (∀ events, last.dispatcher.sendBatch name events = .error (.stopped name)) ∧
        ∀ event, last.dispatcher.send name event = .error (.stopped name)) ∧
    ∀ events, last.dispatcher.publish events = last.dispatcher := by
  intro closing last
  have opening := (opened dispatcher).goesOn_run before
  have closes := (closing.act .shutdown).goesOn_run after
  have stopping : last.dispatcher.stopping = true := closes.stopping rfl
  have names : last.dispatcher.names = dispatcher.names :=
    ((opening.trans (closing.goesOn_act .shutdown)).trans closes).names_eq
  refine ⟨fun place consumer found => ?_, fun name known => ?_, fun events => if_pos stopping⟩
  · obtain ⟨acts, course, -⟩ := opening.consumers place
    rw [found, opened, Dispatcher.eq_of_start started, List.getElem?_map, Option.map_map] at course
    obtain ⟨subscription, listed, same⟩ := Option.map_eq_some_iff.mp course.symm
    let fresh : Consumer := { subscription := subscription, backoff := settings.backoff }
    obtain rfl : fresh.run (acts fresh) = consumer := same
    have holds := Consumer.holds_run subscription settings.backoff (acts fresh)
    have signalled : (closing.act .shutdown).dispatcher.consumers[place]? =
        some (fresh.run (acts fresh)).signal := by
      rw [act, shutdown, Dispatcher.beginShutdown, List.getElem?_map, found, Option.map_some]
    obtain ⟨rest, ended, quiet⟩ := closes.at_place signalled
    refine ⟨⟨subscription, acts fresh, listed, rfl, holds.midway, fun part member => ?_⟩, _, ended,
      holds.stopped (quiet rfl)⟩
    obtain ⟨-, -, -, -, order⟩ := holds.midway (List.ne_nil_of_mem member)
    exact (order part member).sublist.nodup (Subscription.nodup_recipients _ _)
  · have turned := last.dispatcher.sendBatch_of_stopping stopping (names ▸ known)
    exact ⟨turned, fun event => turned [event]⟩

/-- The first call of two events is under way, and another group is queued. -/
theorem nothing_new_after_signal_staff :
    let closing := (opened staff).run working
    let last := (closing.act .shutdown).run [.sendBatch "all" [parcel 3], .clock 0 50, .serve 0]
    (closing.dispatcher.consumers.map fun consumer =>
      (consumer.left.map Prod.fst, consumer.queue.length)) = [([0, 1, 0, 1], 1)] ∧
      ∃ consumer ended, closing.dispatcher.consumers[0]? = some consumer ∧
        last.dispatcher.consumers[0]? = some ended ∧ consumer.Stopped ended ∧
        last.dispatcher.sendBatch "all" [parcel 3] = .error (.stopped "all") := by
  intro closing last
  have started : Dispatcher.start {} crew = .ok staff := rfl
  obtain ⟨consumers, sends, -⟩ := nothing_new_after_signal started working
    [.sendBatch "all" [parcel 3], .clock 0 50, .serve 0]
  have there : closing.dispatcher.consumers[0]?.isSome = true := by decide
  obtain ⟨consumer, found⟩ := Option.isSome_iff_exists.mp there
  obtain ⟨-, ended, reached, stopped⟩ := consumers 0 consumer found
  have known : "all" ∈ staff.names := by decide
  exact ⟨by decide, consumer, ended, found, reached, stopped, (sends "all" known).1 _⟩

end Closing

end EventSourcing
