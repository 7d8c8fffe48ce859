import EventSourcing.Proofs.Bureau
import EventSourcing.Proofs.Bureau.Reports
import EventSourcing.Proofs.Delivery.Dispatch
import EventSourcing.Proofs.Fleet

/-!
What a success says of the publication. A write that commits publishes its events before it
succeeds. One that finds its initiator in the stream publishes nothing, so what was committed by a
write that has failed is stored without having been published.
-/

namespace EventSourcing

/-- Whether a dispatcher is running and has given to each consumer, in their order, what its
subscription observes of these groups. -/
structure Dispatcher.Serves (dispatcher : Dispatcher) (backoff : Nat)
    (subscriptions : List Subscription) (groups : List (List StoredEvent)) : Prop where
  going : dispatcher.stopping = false
  given : ∀ (place : Nat) (subscription : Subscription), subscriptions[place]? = some subscription →
    ∃ acts, dispatcher.consumers[place]? =
        some (Consumer.run { subscription := subscription, backoff := backoff } acts) ∧
      (subscription.shares groups).Sublist (Consumer.offered acts)

namespace Dispatcher.Serves

variable {dispatcher : Dispatcher} {backoff : Nat} {subscriptions : List Subscription}
  {groups : List (List StoredEvent)}

theorem of_start {settings : DispatchSettings}
    (started : start settings subscriptions = .ok dispatcher) :
    dispatcher.Serves settings.backoff subscriptions [] := by
  obtain rfl := eq_of_start started
  refine ⟨rfl, fun place subscription listed => ⟨[], ?_, List.nil_sublist _⟩⟩
  rw [List.getElem?_map, listed]
  rfl

theorem publish (serves : dispatcher.Serves backoff subscriptions groups)
    (events : List StoredEvent) :
    (dispatcher.publish events).Serves backoff subscriptions (groups ++ [events]) := by
  obtain ⟨going, given⟩ := serves
  rw [Dispatcher.publish, if_neg (by simp [going])]
  refine ⟨going, fun place subscription listed => ?_⟩
  obtain ⟨acts, found, before⟩ := given place subscription listed
  refine ⟨acts ++ subscription.offers events, ?_, ?_⟩
  · rw [List.getElem?_map, found, Option.map_some, offer_eq_run, Consumer.run_append,
      Consumer.run_subscription]
  · rw [Subscription.shares_append, Consumer.offered, List.flatMap_append, ← Consumer.offered,
      ← Consumer.offered, Subscription.offered_offers]
    exact before.append_right _

theorem modify (serves : dispatcher.Serves backoff subscriptions groups) (place : Nat)
    (act : Consumer.Act) :
    Dispatcher.Serves
      { dispatcher with consumers := dispatcher.consumers.modify place (·.act act) }
      backoff subscriptions groups where
  going := serves.going
  given other subscription listed := by
    obtain ⟨acts, found, before⟩ := serves.given other subscription listed
    have going : dispatcher.stopping = true → act.groups = [] :=
      fun signalled => absurd signalled (by simp [serves.going])
    obtain ⟨more, there, -⟩ := (GoesOn.modify dispatcher place going).at_place found
    refine ⟨acts ++ more, by rw [there, Consumer.run_append], ?_⟩
    rw [Consumer.offered, List.flatMap_append]
    exact before.trans (List.sublist_append_left _ _)

end Dispatcher.Serves

variable {σ : Type}

namespace Bureau

/-- Whether a write to a stream was reported to its initiator as failed. -/
def HasFailed (bureau : Bureau σ) (key : StreamKey) (initiator : Uuid) : Prop :=
  ∃ write error, Entry.written write (.error error) ∈ bureau.journal ∧ write.stream = key ∧
    write.origin.initiator = initiator

/-- Whether an event is in a group that was published. -/
def HasPublished (bureau : Bureau σ) (event : StoredEvent) : Prop :=
  ∃ group ∈ bureau.published, event ∈ group

/-- Whether all that was published was given to those who observe it. -/
def Serves (bureau : Bureau σ) (backoff : Nat) (subscriptions : List Subscription) : Prop :=
  ∃ dispatcher, bureau.dispatcher = some dispatcher ∧
    dispatcher.Serves backoff subscriptions bureau.published

/-- Every stored event was published, unless a write by its initiator has failed. -/
structure Accounted (sound : σ → Prop) (store : σ → Store) (backoff : Nat)
    (subscriptions : List Subscription) (bureau : Bureau σ) : Prop where
  serves : bureau.Serves backoff subscriptions
  sound : sound bureau.storage
  told : ∀ key, ∀ event ∈ ((store bureau.storage).stream key).events,
    bureau.HasPublished event ∨ bureau.HasFailed key event.initiator

variable {backend : Backend σ} {sound : σ → Prop} {store : σ → Store} {bureau further : Bureau σ}
  {backoff : Nat} {subscriptions : List Subscription}

theorem HasFailed.later {key : StreamKey} {initiator : Uuid}
    (failed : bureau.HasFailed key initiator) (grows : bureau.journal <+: further.journal) :
    further.HasFailed key initiator := by
  obtain ⟨write, error, member, stream, same⟩ := failed
  exact ⟨write, error, grows.subset member, stream, same⟩

theorem HasPublished.later {event : StoredEvent} (published : bureau.HasPublished event)
    (grows : bureau.published <+: further.published) : further.HasPublished event := by
  obtain ⟨group, member, inside⟩ := published
  exact ⟨group, grows.subset member, inside⟩

/-- While the dispatcher is running, all that is committed is published. -/
theorem Serves.publish (serves : bureau.Serves backoff subscriptions)
    (committed : Option (List StoredEvent)) :
    (bureau.publish committed).Serves backoff subscriptions ∧
      (bureau.publish committed).published = bureau.published ++ committed.toList := by
  obtain ⟨dispatcher, attached, serving⟩ := serves
  cases committed with
  | none =>
    rw [publish_none]
    exact ⟨⟨dispatcher, attached, serving⟩, (List.append_nil _).symm⟩
  | some events =>
    rw [publish_some attached serving.going]
    exact ⟨⟨_, rfl, serving.publish events⟩, rfl⟩

theorem Serves.write (serves : bureau.Serves backoff subscriptions) (backend : Backend σ)
    (write : Write) :
    (bureau.write backend write).Serves backoff subscriptions ∧
      (bureau.write backend write).published = bureau.published ++
        ((backend.write bureau.planner write bureau.storage).committed.map
          Transaction.events).toList := by
  let written := backend.write bureau.planner write bureau.storage
  let noted : Bureau σ :=
    { bureau with
      planner := written.planner
      storage := written.state
      journal := bureau.journal ++ [.written write written.result] }
  have before : noted.Serves backoff subscriptions := serves
  exact before.publish _

namespace Accounted

theorem write (accounted : Accounted sound store backoff subscriptions bureau)
    (fronts : backend.Fronts sound store) (write : Write) :
    Accounted sound store backoff subscriptions (bureau.write backend write) := by
  obtain ⟨serves, fit, told⟩ := accounted
  obtain ⟨still, reports⟩ := fronts.write fit bureau.planner write
  obtain ⟨serving, published⟩ := serves.write backend write
  have journal := bureau.journal_write backend write
  refine ⟨serving, by rwa [storage_write], ?_⟩
  intro key event member
  rw [storage_write] at member
  have kept (old : event ∈ ((store bureau.storage).stream key).events) :
      (bureau.write backend write).HasPublished event ∨
        (bureau.write backend write).HasFailed key event.initiator :=
    (told key event old).imp (·.later (published ▸ List.prefix_append _ _))
      (·.later (journal ▸ List.prefix_append _ _))
  generalize backend.write bureau.planner write bureau.storage = written at *
  obtain ⟨result, committed, planner, state⟩ := written
  generalize store state = after at member reports
  cases reports with
  | rests empty => exact kept member
  | repeats known found => exact kept member
  | fails => exact kept member
  | @commits _ _ transaction planned accepted =>
    rcases Store.mem_events_submit member with old | ⟨-, new⟩
    · exact kept old
    · exact .inl ⟨transaction.events, by simp [published], new⟩
  | @loses error _ _ transaction planned =>
    rcases Store.mem_events_submit member with old | ⟨same, new⟩
    · exact kept old
    · refine .inr ⟨write, error, by simp [journal], ?_, (planned.origin new).2.symm⟩
      exact planned.stream.symm.trans same.symm

theorem act (accounted : Accounted sound store backoff subscriptions bureau)
    (fronts : backend.Fronts sound store) {request : Request} (going : request ≠ .shutdown) :
    Accounted sound store backoff subscriptions (bureau.act backend request) := by
  cases request with
  | write write => exact accounted.write fronts write
  | read key =>
    rcases taken : backend.readRecords key bureau.storage with ⟨answer, after⟩
    obtain ⟨still, kept⟩ := fronts.readRecords accounted.sound taken
    have same : (bureau.act backend (.read key)).storage = after := by
      simp only [Bureau.act, Bureau.read, Backend.read, taken]
    refine ⟨accounted.serves, same ▸ still, fun key event member => ?_⟩
    rw [same, kept] at member
    refine (accounted.told key event member).imp_right fun failed => failed.later ?_
    exact bureau.journal_act backend (.read _)
  | attend place act =>
    obtain ⟨dispatcher, attached, serving⟩ := accounted.serves
    refine ⟨⟨_, ?_, serving.modify place act⟩, accounted.sound, accounted.told⟩
    rw [Bureau.act, attached]
    rfl
  | shutdown => exact absurd rfl going

theorem run (accounted : Accounted sound store backoff subscriptions bureau)
    (fronts : backend.Fronts sound store) {requests : List Request}
    (going : .shutdown ∉ requests) :
    Accounted sound store backoff subscriptions (bureau.run backend requests) := by
  induction requests generalizing bureau with
  | nil => exact accounted
  | cons request rest ih =>
    obtain ⟨other, others⟩ := List.ne_and_not_mem_of_not_mem_cons going
    exact ih (accounted.act fronts other.symm) others

end Accounted

/-- While the dispatcher runs, those who observe events are given all that is published. A write
with events that succeeds has published them, or finds events of its initiator in the stream. Those
were all published, unless a write by the initiator has failed before. -/
theorem published_unless_failed (fronts : backend.Fronts sound store) (planner : Planner)
    {state : σ} (fit : sound state) (fresh : ∀ key, ((store state).stream key).events = [])
    {settings : DispatchSettings} {dispatcher : Dispatcher}
    (started : Dispatcher.start settings subscriptions = .ok dispatcher) {requests : List Request}
    (going : .shutdown ∉ requests) {write : Write} (filled : write.events ≠ [])
    {version : Version} :
    let bureau := (opened planner state (some dispatcher)).run backend requests
    let after := bureau.write backend write
    let stored := ((store after.storage).stream write.stream).events
    after.journal = bureau.journal ++ [.written write (.ok version)] →
      after.Serves settings.backoff subscriptions ∧
        ((∃ group ∈ after.published, group.map StoredEvent.content = write.events ∧
            ∀ event ∈ group, event ∈ stored ∧ event.initiator = write.origin.initiator) ∨
          write.origin.initiator ≠ Uuid.nil ∧
            (∃ event ∈ stored, event.initiator = write.origin.initiator) ∧
            (bureau.HasFailed write.stream write.origin.initiator ∨
              ∀ event ∈ stored, event.initiator = write.origin.initiator →
                after.HasPublished event)) := by
  intro bureau after stored succeeded
  have begun : Accounted sound store settings.backoff subscriptions
      (opened planner state (some dispatcher)) :=
    ⟨⟨_, rfl, .of_start started⟩, fit, fun key event member => by simp [opened, fresh] at member⟩
  have accounted : Accounted sound store settings.backoff subscriptions bureau :=
    begun.run fronts going
  obtain ⟨-, reports⟩ := fronts.write accounted.sound bureau.planner write
  obtain ⟨serves, published⟩ := accounted.serves.write backend write
  have result := (bureau.journal_write backend write).symm.trans succeeded
  have left : stored = ((store (backend.write bureau.planner write bureau.storage).state).stream
      write.stream).events := by rw [← storage_write]
  refine ⟨serves, ?_⟩
  generalize backend.write bureau.planner write bureau.storage = written
    at result published left reports
  obtain ⟨outcome, committed, later, rest⟩ := written
  obtain rfl : outcome = .ok version := by simpa using result
  generalize store rest = ending at left reports
  cases reports with
  | rests empty => exact absurd empty filled
  | commits planned accepted =>
    refine .inl ⟨_, published ▸ List.mem_append_right _ List.mem_cons_self, planned.content, ?_⟩
    intro event inside
    refine ⟨?_, (planned.origin inside).2⟩
    rw [left, ← planned.stream]
    exact Store.mem_events_of_accepts accepted inside
  | repeats known found =>
    rw [left]
    refine .inr ⟨known, Store.exists_of_containsInitiator found, ?_⟩
    by_cases failed : bureau.HasFailed write.stream write.origin.initiator
    · exact .inl failed
    · refine .inr fun event inside own => ?_
      rcases accounted.told _ event inside with told | other
      · exact told.later (published ▸ List.prefix_append _ _)
      · exact absurd (own ▸ other) failed

/-- The answer to the first submit is lost. -/
def losing : Simulation.ScriptedStore where
  script := { submits := [{ report := some (.error (.infrastructure "connection lost")) }] }

def opening : Write where
  stream := ⟨"account"⟩
  events := [⟨"Opened", .null⟩]
  retrieved := Version.absent
  expected := .none
  origin := { initiator := Uuid.ofNat 7 }

/-- The repeated write succeeds, and what it is about was stored and never published. -/
theorem lost_report_unpublished :
    let bureau := (opened .plain losing (some desk)).run Simulation.ScriptedStore.backend
      [.write opening, .write opening]
    bureau.journal = [.written opening (.error (.infrastructure "connection lost")),
        .written opening (.ok ⟨0⟩)] ∧
      (bureau.storage.store.stream ⟨"account"⟩).events.map (·.initiator) = [Uuid.ofNat 7] ∧
      bureau.published = [] ∧
      bureau.dispatcher.map (·.consumers.map (·.queue)) = some [[]] :=
  ⟨rfl, rfl, rfl, rfl⟩

/-- So it has to be the write before that has failed. -/
theorem published_unless_failed_repeated :
    let bureau := (opened .plain losing (some desk)).run Simulation.ScriptedStore.backend
      [.write opening]
    (bureau.write Simulation.ScriptedStore.backend opening).journal =
        bureau.journal ++ [.written opening (.ok ⟨0⟩)] ∧
      bureau.HasFailed ⟨"account"⟩ (Uuid.ofNat 7) := by
  intro bureau
  have lossy : losing.script.Lossy := by
    constructor <;> simp [losing]
  have succeeded : (bureau.write Simulation.ScriptedStore.backend opening).journal =
      bureau.journal ++ [.written opening (.ok ⟨0⟩)] := rfl
  have unpublished : (bureau.write Simulation.ScriptedStore.backend opening).published = [] := rfl
  refine ⟨succeeded, ?_⟩
  have started : Dispatcher.start {} audience = .ok desk := rfl
  have going : Request.shutdown ∉ [.write opening] := by simp
  obtain ⟨-, told | found⟩ := published_unless_failed Simulation.ScriptedStore.fronts .plain lossy
    (fun _ => rfl) started going (show opening.events ≠ [] by decide) succeeded
  · obtain ⟨group, member, -⟩ := told
    exact absurd member (unpublished ▸ List.not_mem_nil)
  · obtain ⟨-, ⟨event, stored, own⟩, failed | told⟩ := found
    · exact failed
    · obtain ⟨group, member, -⟩ := told event stored own
      exact absurd member (unpublished ▸ List.not_mem_nil)

end Bureau

end EventSourcing
