import EventSourcing.Proofs.Fleet
import EventSourcing.Proofs.Outlet.Course

/-!
The order of publication. What is put into the queues of the consumers comes in the order in which
it was committed, however late the writers hear of their commits.
-/

namespace EventSourcing

/-- The groups that hold an event of a stream. -/
def groupsOf (key : StreamKey) (groups : List (List StoredEvent)) : List (List StoredEvent) :=
  groups.filter fun group => group.any fun event => event.stream = key

theorem Commit.Sound.yields {settings : List StoreSettings} {commit : Commit}
    (sound : commit.Sound settings) :
    ∃ chosen, commit.write.Yields chosen commit.transaction := by
  obtain ⟨chosen, -, planned⟩ := sound.planned
  exact ⟨chosen, sound.filled, commit.transaction.baseline, sound.proper, planned⟩

/-- The groups of a stream are those of the transactions onto it. -/
theorem groupsOf_map {settings : List StoreSettings} {commits : List Commit}
    (sound : ∀ commit ∈ commits, commit.Sound settings) {given : List Transaction}
    (committed : ∀ transaction ∈ given, ∃ commit ∈ commits, commit.transaction = transaction)
    (key : StreamKey) :
    groupsOf key (given.map (·.events)) = (given.filter (·.stream = key)).map (·.events) := by
  rw [groupsOf, List.filter_map]
  refine congrArg _ (List.filter_congr fun transaction member => ?_)
  obtain ⟨commit, among, rfl⟩ := committed transaction member
  obtain ⟨chosen, yields⟩ := (sound commit among).yields
  rw [Function.comp_apply, Bool.eq_iff_iff, List.any_eq_true]
  simp only [decide_eq_true_eq]
  constructor
  · rintro ⟨event, inside, onto⟩
    exact (yields.own inside).symm.trans onto
  · intro onto
    obtain ⟨event, inside⟩ := List.exists_mem_of_ne_nil _ yields.events_ne_nil
    exact ⟨event, inside, (yields.own inside).trans onto⟩

namespace Outlet

theorem inv_opened (planner : Planner) {options : DispatchSettings}
    {subscriptions : List Subscription} {dispatcher : Dispatcher}
    (started : Dispatcher.start options subscriptions = .ok dispatcher) :
    (opened planner dispatcher).Inv subscriptions := by
  obtain rfl := Dispatcher.eq_of_start started
  have staffed : Staffed planner.settings {} [] :=
    { gatesSound := Gates.sound_empty
      jobsSound := fun _ _ busy => nomatch busy
      vacant := fun _ _ => rfl }
  refine { follows := Store.follows_empty _, staffed := staffed, going := rfl, served := ?_,
           fed := ?_ }
  · exact List.length_map _
  · intro place consumer found
    change (subscriptions.map _)[place]? = _ at found
    rw [List.getElem?_map, Option.map_eq_some_iff] at found
    obtain ⟨subscription, listed, rfl⟩ := found
    refine ⟨listed, List.nil_suffix, fun _ => ⟨[], rfl, Subscription.supplied_nil ?_⟩⟩
    rintro transaction ⟨number, job, busy, -⟩
    cases busy

namespace Inv

variable {subscriptions : List Subscription} {outlet : Outlet} {place : Nat} {consumer : Consumer}
  {key : StreamKey}

/-- Every group that a consumer has got is the whole of a commit. -/
theorem commit_of_received (inv : outlet.Inv subscriptions)
    (found : outlet.dispatcher.consumers[place]? = some consumer)
    (live : consumer.hasExited = false) {group : List StoredEvent}
    (member : group ∈ outlet.received place) :
    ∃ commit ∈ outlet.commits,
      consumer.subscription.observes commit.transaction.stream = true ∧
        group = commit.transaction.events := by
  obtain ⟨given, same, supplied⟩ := (inv.fed place consumer found).supplied live
  rw [same] at member
  obtain ⟨transaction, inside, rfl⟩ := List.mem_map.mp member
  obtain ⟨commit, among, rfl⟩ := supplied.exists_commit inside
  exact ⟨commit, among, supplied.observed _ inside, rfl⟩

/-- The commits to an observed stream are those that the consumer has got, and the one that is owed
to it, if there is one. -/
theorem committed_eq (inv : outlet.Inv subscriptions)
    (found : outlet.dispatcher.consumers[place]? = some consumer)
    (live : consumer.hasExited = false) (observes : consumer.subscription.observes key = true) :
    ∃ owed : Option Transaction,
      (commitsTo key outlet.commits).map (·.transaction.events) =
        groupsOf key (outlet.received place) ++ owed.toList.map (·.events) ∧
      ∀ transaction, owed = some transaction →
        transaction.stream = key ∧ Owed outlet.jobs place transaction := by
  obtain ⟨given, same, supplied⟩ := (inv.fed place consumer found).supplied live
  obtain ⟨owed, line, dues⟩ := supplied.whole key observes
  refine ⟨owed, ?_, ?_⟩
  · have events := congrArg (List.map (·.events)) line
    rw [List.map_map, List.map_append] at events
    rw [same, groupsOf_map inv.follows.commits fun _ => supplied.exists_commit]
    exact events
  · rintro transaction rfl
    have onto := Subscription.stream_of_owed line
    exact ⟨onto, (dues transaction onto).mp rfl⟩

/-- Nothing is owed of a stream when the writes to it are done. -/
theorem not_owed_of_done (inv : outlet.Inv subscriptions)
    (quiet : ∀ job ∈ outlet.jobs, job.writer.write.stream = key → job.isDone = true)
    {transaction : Transaction} (onto : transaction.stream = key) :
    ¬Owed outlet.jobs place transaction := by
  rintro ⟨number, job, busy, owes⟩
  have stream := ((inv.staffed.jobsSound number job busy).yields_of_owes owes).stream
  have done := quiet job (List.mem_of_getElem? busy) (stream.symm.trans onto)
  cases (job.owes_of_isDone done place).symm.trans owes

end Inv

/-- A writer acknowledged late is still published first: it stays inside the gate of its stream
until it has published, and no commit to the stream comes from outside. -/
theorem publishes_in_order (planner : Planner) {options : DispatchSettings}
    {subscriptions : List Subscription} {dispatcher : Dispatcher}
    (started : Dispatcher.start options subscriptions = .ok dispatcher) (actions : List Action) :
    let outlet := (opened planner dispatcher).run actions
    ∀ (place : Nat) (subscription : Subscription), subscriptions[place]? = some subscription →
      ∃ consumer, outlet.dispatcher.consumers[place]? = some consumer ∧
        consumer.subscription = subscription ∧
        (consumer.hasExited = false →
          consumer.queue <:+ outlet.received place ∧
          (∀ group ∈ outlet.received place, ∃ commit ∈ outlet.commits,
            subscription.observes commit.transaction.stream = true ∧
              group = commit.transaction.events) ∧
          ∀ key, subscription.observes key = true →
            let groups := groupsOf key (outlet.received place)
            let committed := (commitsTo key outlet.commits).map (·.transaction.events)
            groups <+: committed ∧
            ((∀ job ∈ outlet.jobs, job.writer.write.stream = key → job.isDone = true) →
              groups = committed) ∧
            committed.flatten = (outlet.store.stream key).events ∧
            committed.flatten.map (·.position) = places 0 committed.flatten.length) := by
  intro outlet place subscription listed
  have inv : outlet.Inv subscriptions := (inv_opened planner started).run actions
  obtain ⟨inside, -⟩ := List.getElem?_eq_some_iff.mp listed
  obtain ⟨consumer, found⟩ : ∃ consumer, outlet.dispatcher.consumers[place]? = some consumer :=
    ⟨_, List.getElem?_eq_getElem (inv.served.symm ▸ inside)⟩
  have fed := inv.fed place consumer found
  obtain rfl := Option.some.inj (listed.symm.trans fed.subscription)
  refine ⟨consumer, found, rfl, fun live => ⟨fed.queue, ?_, ?_⟩⟩
  · exact fun group member => inv.commit_of_received found live member
  · intro key observes groups committed
    obtain ⟨owed, split, owes⟩ := inv.committed_eq found live observes
    have whole : committed.flatten = (outlet.store.stream key).events := by
      rw [inv.follows.events_eq, List.flatMap_def]
    refine ⟨⟨_, split.symm⟩, ?_, whole, ?_⟩
    · intro quiet
      cases owed with
      | none => simpa using split.symm
      | some transaction =>
        obtain ⟨onto, owed⟩ := owes transaction rfl
        exact absurd owed (inv.not_owed_of_done quiet onto)
    · rw [whole]
      exact (inv.follows.streams key).places

/-- A write of one event to the stream of some stock. -/
def movement (retrieved : Version) (proper : retrieved.Proper) : Action :=
  .launch ⟨⟨"stock"⟩, [⟨"Moved", .null⟩], retrieved, .any, {}⟩ proper

def steps (job count : Nat) : List Action :=
  List.replicate count (.advance job .serves)

/-- The first of two writes has committed and has not heard of it yet; the second waits at the
gate. -/
def unheard : List Action :=
  [movement Version.absent (by decide), movement ⟨0⟩ (by decide)] ++ steps 0 5 ++ steps 1 3

/-- The second finds the gate open once the first has published. -/
def settled : List Action :=
  unheard ++ steps 0 8 ++ [.serve 0, .clock 0 5, .serve 0] ++ steps 1 12

def listeners : List Subscription :=
  [{ name := "all" }, { name := "orders", start := some "order" }]

def news : Dispatcher :=
  (Dispatcher.start {} listeners).toOption.get (by decide)

/-- The first write is published before the second, which has waited for it. -/
theorem publishes_unheard_first :
    let before := (opened .plain news).run unheard
    let after := (opened .plain news).run settled
    Dispatcher.start {} listeners = .ok news ∧
      before.commits.length = 1 ∧ before.received 0 = [] ∧ before.gates.line = [1] ∧
      (after.received 0).map (·.map (·.position)) = [[0], [1]] ∧
      groupsOf ⟨"stock"⟩ (after.received 0) =
        (commitsTo ⟨"stock"⟩ after.commits).map (·.transaction.events) := by
  intro before after
  have started : Dispatcher.start {} listeners = .ok news := rfl
  obtain ⟨consumer, found, -, ordered⟩ :=
    publishes_in_order .plain started settled 0 ⟨"all", none, []⟩ rfl
  have live : consumer.hasExited = false := by
    have shown : after.dispatcher.consumers[0]?.map Consumer.hasExited = some false := by decide
    rw [found] at shown
    exact Option.some.inj shown
  have quiet : ∀ job ∈ after.jobs, job.isDone = true := List.all_eq_true.mp (by decide)
  obtain ⟨-, -, streams⟩ := ordered live
  refine ⟨started, rfl, rfl, rfl, rfl, ?_⟩
  exact (streams ⟨"stock"⟩ rfl).2.1 fun job member _ => quiet job member

end Outlet

end EventSourcing
