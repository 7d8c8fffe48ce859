import EventSourcing.Proofs.Delivery.Requests
import EventSourcing.Proofs.Delivery.Schedule

/-!
Subscriptions side by side. Requests come at certain times, and nothing that a consumer does depends
on the subscriptions beside its own: neither on how many there are nor on what their handlers do,
which may fail for ever, wait for the stop signal, take their time or panic.
-/

namespace EventSourcing

namespace Consumer

def HasPanicked (consumer : Consumer) : Prop :=
  ∃ call ∈ consumer.log, call.verdict = .panicked

theorem Step.hasExited_eq {consumer next : Consumer} (step : consumer.Step next) :
    consumer.hasExited = false := by
  cases step <;> simp only [hasExited, *]

/-- A panic is the end. -/
theorem Step.hasExited_of_hasPanicked {consumer next : Consumer} (step : consumer.Step next)
    (ends : consumer.HasPanicked → consumer.hasExited = true) (panicked : next.HasPanicked) :
    next.hasExited = true := by
  have none : ¬consumer.HasPanicked := fun before => by
    cases step.hasExited_eq.symm.trans (ends before)
  cases step with
  | takes phase going waiting =>
    obtain ⟨later, same⟩ := begin_eq { consumer with queue := _ } _
    rw [same] at panicked
    exact absurd panicked none
  | completes phase next =>
    obtain ⟨later, same⟩ := consumer.begin_eq _
    rw [same] at panicked
    exact absurd panicked none
  | @returns running delivery due phase waiting elapsed =>
    obtain ⟨later, same⟩ := consumer.finish_eq running delivery
    obtain ⟨call, member, panic⟩ := panicked
    rw [same] at member
    have verdict : running.course.verdict = .panicked := by
      rcases List.mem_append.mp member with before | now
      · exact absurd ⟨call, before, panic⟩ none
      · rw [List.mem_singleton.mp now] at panic
        exact panic
    rw [finish, verdict, afterCall]
    rfl
  | _ => exact absurd panicked none

theorem hasExited_of_hasPanicked {consumer : Consumer}
    (ends : consumer.HasPanicked → consumer.hasExited = true) (acts : List Act) :
    (consumer.run acts).HasPanicked → (consumer.run acts).hasExited = true := by
  induction acts generalizing consumer with
  | nil => exact ends
  | cons act rest ih =>
    refine ih fun panicked => ?_
    cases act with
    | enqueue group =>
      have same : (consumer.enqueue group).log = consumer.log := by
        unfold enqueue
        split <;> rfl
      refine act_of_hasExited (ends ?_) _
      rw [HasPanicked, Consumer.act, same] at panicked
      exact panicked
    | step =>
      rw [Consumer.act] at panicked ⊢
      cases taken : consumer.step? with
      | none =>
        rw [taken] at panicked
        exact ends panicked
      | some next =>
        rw [taken] at panicked
        exact (step_of_step? taken).hasExited_of_hasPanicked ends panicked
    | _ => exact ends panicked

end Consumer

namespace Dispatcher

/-- A request at a time, which comes before what is due then or after it. -/
structure Visit where
  time : Nat
  settled : Bool
  request : Request

/-- How time passes for the consumers: for each by itself, or for all under one clock, where they
take their steps in any order. -/
inductive Pace where
  | apart
  | together

/-- Lets each consumer do by itself what comes before a visit. -/
def meet (dispatcher : Dispatcher) (visit : Visit) : Dispatcher :=
  if visit.settled then dispatcher.advance visit.time else dispatcher.reach visit.time

/-- Lets each consumer go on by itself from visit to visit. -/
def attend (dispatcher : Dispatcher) : List Visit → List (Option DispatchError) × Dispatcher
  | [] => ([], dispatcher)
  | visit :: rest =>
    let (answer, next) := (dispatcher.meet visit).perform visit.request
    let (answers, last) := next.attend rest
    (answer :: answers, last)

/-- Whether a dispatcher has come to a visit. Under one clock that is for the consumer at a place to
say: the others may have done a part of what is due. -/
inductive Meets (place : Nat) (visit : Visit) (dispatcher : Dispatcher) :
    Pace → Dispatcher → Prop where
  | apart : Meets place visit dispatcher .apart (dispatcher.meet visit)
  | early {last : Dispatcher} (early : visit.settled = false)
      (attains : Attains place visit.time dispatcher last) :
      Meets place visit dispatcher .together last
  | settled {middle last : Dispatcher} (settled : visit.settled = true)
      (attains : Attains place visit.time dispatcher middle) (rests : Rests place middle last) :
      Meets place visit dispatcher .together last

/-- What comes of several visits, with the answers to their requests. -/
inductive Runs (place : Nat) (pace : Pace) :
    List Visit → Dispatcher → List (Option DispatchError) → Dispatcher → Prop where
  | done {dispatcher : Dispatcher} : Runs place pace [] dispatcher [] dispatcher
  | visits {visit : Visit} {rest : List Visit} {dispatcher middle last : Dispatcher}
      {answers : List (Option DispatchError)} (meets : Meets place visit dispatcher pace middle)
      (onwards : Runs place pace rest (middle.perform visit.request).2 answers last) :
      Runs place pace (visit :: rest) dispatcher
        ((middle.perform visit.request).1 :: answers) last

end Dispatcher

namespace Consumer

def meet (consumer : Consumer) (visit : Dispatcher.Visit) : Consumer :=
  if visit.settled then consumer.advance visit.time else consumer.reach visit.time

/-- Whether a consumer has come to a visit. -/
inductive Meets (visit : Dispatcher.Visit) (consumer : Consumer) :
    Dispatcher.Pace → Consumer → Prop where
  | apart : Meets visit consumer .apart (consumer.meet visit)
  | early {last : Consumer} (early : visit.settled = false)
      (attains : consumer.Attains visit.time last) : Meets visit consumer .together last
  | settled {middle last : Consumer} (settled : visit.settled = true)
      (attains : consumer.Attains visit.time middle) (settles : middle.Settles last) :
      Meets visit consumer .together last

namespace Meets

variable {visit : Dispatcher.Visit} {consumer last other : Consumer} {pace : Dispatcher.Pace}

theorem unique (meets : Meets visit consumer pace last) (too : Meets visit consumer pace other) :
    last = other := by
  cases meets with
  | apart =>
    cases too with
    | apart => rfl
  | early early attains =>
    cases too with
    | early _ also => exact attains.unique also
    | settled settled => cases early.symm.trans settled
  | settled settled attains settles =>
    cases too with
    | early early => cases early.symm.trans settled
    | settled _ also further =>
      obtain rfl := attains.unique also
      exact settles.unique further

theorem becomes (meets : Meets visit consumer pace last) : consumer.Becomes last := by
  cases meets with
  | apart =>
    rw [meet]
    split
    · exact consumer.becomes_advance visit.time
    · exact consumer.becomes_reach visit.time
  | early early attains => exact .of_ticks attains.ticks
  | settled settled attains settles => exact .of_ticks (attains.ticks.trans settles.ticks)

end Meets

end Consumer

namespace Dispatcher

variable {dispatcher middle last : Dispatcher} {place : Nat} {visit : Visit} {pace : Pace}
  {consumer : Consumer} {visits : List Visit} {answers : List (Option DispatchError)}

/-- A consumer in its place, which nobody with its name has too. -/
structure Seats (dispatcher : Dispatcher) (place : Nat) (consumer : Consumer) : Prop where
  distinct : dispatcher.names.Nodup
  found : dispatcher.consumers[place]? = some consumer

theorem Seats.consumer?_eq (seats : dispatcher.Seats place consumer) :
    dispatcher.consumer? consumer.subscription.name = some consumer :=
  Dispatcher.consumer?_eq seats.distinct seats.found

theorem meet_eq (dispatcher : Dispatcher) (visit : Visit) :
    dispatcher.meet visit = { dispatcher with
      consumers := dispatcher.consumers.map fun consumer => consumer.meet visit } := by
  unfold meet Consumer.meet
  split <;> rfl

theorem Meets.frame_eq (meets : Meets place visit dispatcher pace last) :
    last.frame = dispatcher.frame := by
  cases meets with
  | apart =>
    have same (consumer : Consumer) :
        (consumer.meet visit).subscription = consumer.subscription := by
      have meets : consumer.Meets visit .apart (consumer.meet visit) := .apart
      obtain ⟨acts, -, becomes⟩ := meets.becomes
      rw [becomes, Consumer.run_subscription]
    simp only [meet_eq, frame, names, List.map_map, Function.comp_def, same]
  | early early attains => exact attains.frame_eq
  | settled settled attains rests => exact rests.turns.frame_eq.trans attains.frame_eq

/-- Whatever the others do, a consumer comes to a visit as it would alone. -/
theorem Meets.seats (meets : Meets place visit dispatcher pace last)
    (seats : dispatcher.Seats place consumer) :
    ∃ ended, last.Seats place ended ∧ consumer.Meets visit pace ended := by
  have frame := meets.frame_eq
  simp only [Dispatcher.frame, Prod.mk.injEq] at frame
  have distinct : last.names.Nodup := frame.2.2 ▸ seats.distinct
  cases meets with
  | apart =>
    refine ⟨consumer.meet visit, ⟨distinct, ?_⟩, .apart⟩
    rw [meet_eq, List.getElem?_map, seats.found, Option.map_some]
  | early early attains =>
    obtain ⟨ended, reached, own⟩ := attains.at_place seats.found
    exact ⟨ended, ⟨distinct, reached⟩, .early early own⟩
  | settled settled attains rests =>
    obtain ⟨middle, between, own⟩ := attains.at_place seats.found
    obtain ⟨ended, reached, settles⟩ := rests.at_place between
    exact ⟨ended, ⟨distinct, reached⟩, .settled settled own settles⟩

theorem Seats.perform (seats : dispatcher.Seats place consumer) (request : Request) :
    (dispatcher.perform request).2.Seats place
      (consumer.run (request.acts consumer.subscription dispatcher.stopping)) where
  distinct := (names_perform seats.distinct request).symm ▸ seats.distinct
  found := by rw [consumers_perform seats.distinct, List.getElem?_map, seats.found, Option.map_some]

/-- A consumer does something of its own. -/
theorem Runs.seats (runs : Runs place pace visits dispatcher answers last)
    (seats : dispatcher.Seats place consumer) : ∃ acts, last.Seats place (consumer.run acts) := by
  induction runs generalizing consumer with
  | done => exact ⟨[], seats⟩
  | @visits visit rest dispatcher middle last answers meets onwards ih =>
    obtain ⟨ended, between, own⟩ := meets.seats seats
    obtain ⟨acts, -, rfl⟩ := own.becomes
    obtain ⟨more, reached⟩ := ih (between.perform visit.request)
    rw [← Consumer.run_append, ← Consumer.run_append] at reached
    exact ⟨_, reached⟩

/-- The same consumer in two dispatchers remains the same. -/
theorem Runs.alike {other lastOther : Dispatcher} {there : Nat}
    {others : List (Option DispatchError)}
    (runs : Runs place pace visits dispatcher answers last)
    (also : Runs there pace visits other others lastOther)
    (seats : dispatcher.Seats place consumer) (too : other.Seats there consumer)
    (same : dispatcher.stopping = other.stopping) :
    (∃ ended, last.Seats place ended ∧ lastOther.Seats there ended ∧
        ended.subscription = consumer.subscription) ∧
      ∀ (number : Nat) (asked : Visit), visits[number]? = some asked →
        asked.request.recipient? = some consumer.subscription.name →
          answers[number]? = others[number]? := by
  induction runs generalizing consumer other others lastOther with
  | done =>
    cases also with
    | done => exact ⟨⟨consumer, seats, too, rfl⟩, fun _ _ _ _ => rfl⟩
  | @visits visit rest dispatcher middle last answers meets onwards ih =>
    cases also with
    | @visits _ _ _ between _ others meetsToo onwardsToo =>
      obtain ⟨ended, here, own⟩ := meets.seats seats
      obtain ⟨endedToo, beside, ownToo⟩ := meetsToo.seats too
      obtain rfl := own.unique ownToo
      have frame := congrArg Prod.fst meets.frame_eq
      have frameToo := congrArg Prod.fst meetsToo.frame_eq
      have signal : middle.stopping = between.stopping := frame.trans (same.trans frameToo.symm)
      have name : ended.subscription = consumer.subscription := by
        obtain ⟨acts, -, rfl⟩ := own.becomes
        exact consumer.run_subscription acts
      have next := here.perform visit.request
      have nextToo := beside.perform visit.request
      rw [← signal] at nextToo
      obtain ⟨⟨final, reached, reachedToo, kept⟩, told⟩ := ih onwardsToo next nextToo (by
        rw [stopping_perform here.distinct, stopping_perform beside.distinct, signal])
      rw [Consumer.run_subscription, name] at kept told
      refine ⟨⟨final, reached, reachedToo, kept⟩, ?_⟩
      intro number asked listed mine
      cases number with
      | zero =>
        obtain rfl := Option.some.inj listed
        rw [← name] at mine
        rw [List.getElem?_cons_zero, List.getElem?_cons_zero,
          answer_perform here.distinct here.found mine,
          answer_perform beside.distinct beside.found mine, signal]
      | succ number => exact told number asked listed mine

/-- What is sent to a consumer that has exited is turned away. -/
theorem Runs.stopped (runs : Runs place pace visits dispatcher answers last)
    (seats : dispatcher.Seats place consumer) (exited : consumer.hasExited = true) :
    ∀ (number : Nat) (asked : Visit), visits[number]? = some asked →
      asked.request.recipient? = some consumer.subscription.name →
        answers[number]? = some (some (.stopped consumer.subscription.name)) := by
  induction runs generalizing consumer with
  | done => exact fun _ _ listed => nomatch listed
  | @visits visit rest dispatcher middle last answers meets onwards ih =>
    obtain ⟨ended, here, own⟩ := meets.seats seats
    obtain ⟨acts, -, rfl⟩ := own.becomes
    have name := consumer.run_subscription acts
    have still : (consumer.run acts).hasExited = true := Consumer.hasExited_run exited acts
    intro number asked listed mine
    cases number with
    | zero =>
      obtain rfl := Option.some.inj listed
      rw [← name] at mine ⊢
      rw [List.getElem?_cons_zero, answer_perform here.distinct here.found mine, still,
        Bool.or_true, if_pos rfl]
    | succ number =>
      have after := ih (here.perform visit.request) (Consumer.hasExited_run still _)
      rw [Consumer.run_subscription, name] at after
      exact after number asked listed mine

theorem now_run_acts (consumer : Consumer) (request : Request) (stopping : Bool) :
    (consumer.run (request.acts consumer.subscription stopping)).now = consumer.now := by
  have queued (group : List StoredEvent) : (consumer.enqueue group).now = consumer.now := by
    unfold Consumer.enqueue
    split <;> rfl
  have sent (name : String) (group : List StoredEvent) :
      (consumer.run (deliveries consumer.subscription stopping name group)).now =
        consumer.now := by
    unfold deliveries
    split
    · exact queued group
    · rfl
  cases request with
  | publish events =>
    rw [Request.acts, Subscription.offers]
    split
    · rfl
    · split
      · rfl
      · exact queued _
  | send name event => exact sent name [event]
  | sendBatch name events => exact sent name events
  | shutdown => rfl
  | nothing => rfl

theorem InStep.perform {now : Nat} (inStep : dispatcher.InStep now)
    (distinct : dispatcher.names.Nodup) (request : Request) :
    (dispatcher.perform request).2.InStep now := by
  intro consumer member
  rw [consumers_perform distinct] at member
  obtain ⟨past, before, rfl⟩ := List.mem_map.mp member
  obtain ⟨same, unhurried⟩ := inStep past before
  exact ⟨(now_run_acts past request _).trans same, unhurried.run _⟩

theorem InStep.meets {now : Nat} (inStep : dispatcher.InStep now) (place : Nat) (visit : Visit) :
    Meets place visit dispatcher .together (dispatcher.meet visit) ∧
      (dispatcher.meet visit).InStep (max now visit.time) := by
  have reached := inStep.reach visit.time
  have attains := inStep.attains_reach place visit.time
  unfold meet
  split
  · rw [inStep.advance_eq]
    exact ⟨.settled ‹_› attains (reached.rests_settle place), reached.settle.1⟩
  · exact ⟨.early (Bool.eq_false_iff.mpr ‹_›) attains, reached⟩

/-- To let each consumer go on by itself is one of the ways to go on under one clock. -/
theorem Runs.together {now : Nat} (runs : Runs place .apart visits dispatcher answers last)
    (inStep : dispatcher.InStep now) (distinct : dispatcher.names.Nodup) :
    Runs place .together visits dispatcher answers last := by
  induction runs generalizing now with
  | done => exact .done
  | @visits visit rest dispatcher middle last answers meets onwards ih =>
    have frame := meets.frame_eq
    simp only [Dispatcher.frame, Prod.mk.injEq] at frame
    have distinct : middle.names.Nodup := frame.2.2 ▸ distinct
    cases meets with
    | apart =>
      obtain ⟨meets, reached⟩ := inStep.meets place visit
      refine .visits meets (ih (reached.perform distinct _) ?_)
      exact (names_perform distinct _).symm ▸ distinct

theorem inStep_start {settings : DispatchSettings} {subscriptions : List Subscription}
    (started : start settings subscriptions = .ok dispatcher) (pauses : 0 < settings.backoff) :
    dispatcher.InStep 0 := by
  rw [eq_of_start started]
  intro consumer member
  obtain ⟨subscription, -, rfl⟩ := List.mem_map.mp member
  exact ⟨rfl, pauses, [], List.suffix_rfl⟩

theorem runs_attend (place : Nat) (dispatcher : Dispatcher) (visits : List Visit) :
    Runs place .apart visits dispatcher (dispatcher.attend visits).1
      (dispatcher.attend visits).2 := by
  induction visits generalizing dispatcher with
  | nil => exact .done
  | cons visit rest ih => exact .visits .apart (ih _)

/-- A subscription has the same calls, with the same events, times and verdicts, the same groups in
its queue and the same answers to what is sent to it, whatever subscriptions are beside it and
however the steps of all of them follow each other. One that has panicked makes no further call and
takes nothing more. -/
theorem subscriptions_isolated {settings : DispatchSettings} {first second : List Subscription}
    {one other : Dispatcher} (started : start settings first = .ok one)
    (startedToo : start settings second = .ok other) {subscription : Subscription}
    {place there : Nat} (listed : first[place]? = some subscription)
    (listedToo : second[there]? = some subscription) (visits : List Visit) :
    Runs place .apart visits one (one.attend visits).1 (one.attend visits).2 ∧
      (0 < settings.backoff →
        Runs place .together visits one (one.attend visits).1 (one.attend visits).2) ∧
      ∀ (pace : Pace) (answers others : List (Option DispatchError))
          (last lastOther : Dispatcher),
        Runs place pace visits one answers last →
          Runs there pace visits other others lastOther →
            (∀ (number : Nat) (asked : Visit), visits[number]? = some asked →
              asked.request.recipient? = some subscription.name →
                answers[number]? = others[number]?) ∧
            ∃ consumer, last.consumer? subscription.name = some consumer ∧
              lastOther.consumer? subscription.name = some consumer ∧
              consumer.subscription = subscription ∧
              (consumer.HasPanicked →
                ∀ (more : List Visit) (told : List (Option DispatchError)) (final : Dispatcher),
                  Runs place pace more last told final →
                    (∃ ended, final.consumer? subscription.name = some ended ∧
                      ended.hasExited = true ∧ ended.log = consumer.log ∧
                      ended.queue = consumer.queue) ∧
                    ∀ (number : Nat) (asked : Visit), more[number]? = some asked →
                      asked.request.recipient? = some subscription.name →
                        told[number]? = some (some (.stopped subscription.name))) := by
  let fresh : Consumer := { subscription := subscription, backoff := settings.backoff }
  have opening {subscriptions : List Subscription} {dispatcher : Dispatcher} {place : Nat}
      (started : start settings subscriptions = .ok dispatcher)
      (listed : subscriptions[place]? = some subscription) : dispatcher.Seats place fresh := by
    refine ⟨nodup_of_start started, ?_⟩
    rw [eq_of_start started, List.getElem?_map, listed, Option.map_some]
  have seats := opening started listed
  have seatsToo := opening startedToo listedToo
  have idle : one.stopping = other.stopping := by
    rw [eq_of_start started, eq_of_start startedToo]
  have apart := runs_attend place one visits
  refine ⟨apart, fun pauses => apart.together (inStep_start started pauses) seats.distinct, ?_⟩
  intro pace answers others last lastOther runs runsToo
  obtain ⟨⟨consumer, here, beside, same⟩, told⟩ := runs.alike runsToo seats seatsToo idle
  have same : consumer.subscription = subscription := same
  refine ⟨told, consumer, same ▸ here.consumer?_eq, same ▸ beside.consumer?_eq, same, ?_⟩
  intro panicked more told final onwards
  obtain ⟨acts, alone⟩ := runs.seats seats
  obtain rfl := Option.some.inj (here.found.symm.trans alone.found)
  have silent : ¬fresh.HasPanicked := fun ⟨call, member, _⟩ => by cases member
  have exited : (fresh.run acts).hasExited = true :=
    Consumer.hasExited_of_hasPanicked (fun panic => absurd panic silent) acts panicked
  obtain ⟨after, reached⟩ := onwards.seats here
  obtain ⟨time, phase⟩ := Consumer.hasExited_iff.mp exited
  obtain ⟨still, queue, log⟩ := Consumer.run_of_exited phase after
  have name : ((fresh.run acts).run after).subscription = subscription :=
    (Consumer.run_subscription _ after).trans same
  have ended := name ▸ reached.consumer?_eq
  refine ⟨⟨_, ended, Consumer.hasExited_iff.mpr ⟨time, still⟩, log, queue⟩, ?_⟩
  have turned := onwards.stopped here exited
  rwa [same] at turned

/-- Takes its time with each event. -/
def listener : Subscription where
  name := "slow"
  handlers := [(.any, ⟨"listen", fun _ _ => .alone { pause := 50 }⟩)]

/-- Panics over each event. -/
def stumbler : Subscription where
  name := "faulty"
  handlers := [(.any, ⟨"stumble", fun _ _ => .alone { verdict := .panicked }⟩)]

def quiet : Dispatcher := (start {} [listener]).toOption.get (by decide)

def crowded : Dispatcher := (start {} [stumbler, listener]).toOption.get (by decide)

def news : List Visit :=
  [⟨0, false, .publish [default]⟩, ⟨20, true, .send "faulty" default⟩,
    ⟨30, false, .send "slow" default⟩, ⟨200, true, .nothing⟩]

/-- The second event comes while the first is handled, and long after the other handler has
panicked. -/
theorem listener_isolated :
    (quiet.attend news).2.consumer? "slow" = (crowded.attend news).2.consumer? "slow" ∧
      Runs 0 .together news quiet (quiet.attend news).1 (quiet.attend news).2 ∧
      ((quiet.attend news).2.consumer? "slow").map (fun consumer =>
        consumer.log.map fun call => (call.started, call.ended)) = some [(0, 50), (50, 100)] ∧
      (crowded.attend news).1 = [none, some (.stopped "faulty"), none, none] := by
  obtain ⟨apart, together, alike⟩ :=
    subscriptions_isolated (show start {} [listener] = .ok quiet from rfl)
      (show start {} [stumbler, listener] = .ok crowded from rfl)
      (show [listener][0]? = some listener from rfl)
      (show [stumbler, listener][1]? = some listener from rfl) news
  obtain ⟨-, consumer, here, beside, -⟩ := alike _ _ _ _ _ apart (runs_attend 1 crowded news)
  exact ⟨here.trans beside.symm, together (by decide), by decide, by decide⟩

end Dispatcher

end EventSourcing
