import EventSourcing.Proofs.Delivery.Requests

/-!
Where groups go. A dispatcher starts with names that differ from each other. Then each call puts a
group behind those that wait for a subscription, or none: of a publication what the subscription
covers, and whatever is sent to its name. What the consumers do in between takes groups from the
front only.
-/

namespace EventSourcing

namespace Subscription

/-- Whether published events of a stream are for the subscription: if it names a start, the name of
the stream starts so. -/
def Covers (subscription : Subscription) (key : StreamKey) : Prop :=
  ∀ start ∈ subscription.start, start.toList <+: key.text.toList

instance (subscription : Subscription) : DecidablePred subscription.Covers := fun key =>
  inferInstanceAs (Decidable (∀ start ∈ subscription.start, start.toList <+: key.text.toList))

theorem observes_eq (subscription : Subscription) (key : StreamKey) :
    subscription.observes key = decide (subscription.Covers key) := by
  rw [Bool.eq_iff_iff, decide_eq_true_iff, observes, Covers]
  cases subscription.start with
  | none => simp
  | some start => simp [StreamKey.startsWith]

end Subscription

namespace Consumer

/-- A consumer that is there takes every group. -/
theorem run_enqueue {consumer : Consumer} (live : consumer.hasExited = false)
    (groups : List (List StoredEvent)) :
    consumer.run (groups.map .enqueue) = { consumer with queue := consumer.queue ++ groups } := by
  induction groups generalizing consumer with
  | nil =>
    rw [List.append_nil]
    rfl
  | cons group rest ih =>
    have taken : consumer.act (.enqueue group) =
        { consumer with queue := consumer.queue ++ [group] } := by
      rw [act, enqueue, if_neg (Bool.eq_false_iff.mp live)]
    have still : (consumer.act (.enqueue group)).hasExited = false := by
      rw [taken]
      exact live
    rw [List.map_cons, run, List.foldl_cons, ← run, ih still, taken, List.append_assoc]
    rfl

end Consumer

namespace Dispatcher

/-- What a request brings to a subscription: one group or none. -/
def Request.brings (subscription : Subscription) : Request → List (List StoredEvent)
  | .publish events =>
    let covered := events.filter fun event => subscription.Covers event.stream
    if covered.isEmpty then [] else [covered]
  | .send name event => if name = subscription.name then [[event]] else []
  | .sendBatch name events => if name = subscription.name then [events] else []
  | .shutdown | .nothing => []

/-- What can happen next: somebody asks for something, or a consumer does something of its own. -/
inductive Move where
  | call (request : Request)
  /-- The consumer at a place does what it can do now. -/
  | serve (place : Nat)
  | clock (place : Nat) (time : Nat)

def Move.brings (subscription : Subscription) : Move → List (List StoredEvent)
  | .call request => request.brings subscription
  | .serve _ | .clock _ _ => []

def move (dispatcher : Dispatcher) : Move → Dispatcher
  | .call request => (dispatcher.perform request).2
  | .serve place =>
    { dispatcher with consumers := dispatcher.consumers.modify place (·.act .step) }
  | .clock place time =>
    { dispatcher with consumers := dispatcher.consumers.modify place (·.act (.clock time)) }

def follow (dispatcher : Dispatcher) (moves : List Move) : Dispatcher :=
  moves.foldl move dispatcher

/-- The groups that wait for the consumer at a place. -/
def waiting? (dispatcher : Dispatcher) (place : Nat) : Option (List (List StoredEvent)) :=
  (dispatcher.consumers[place]?).map (·.queue)

/-- What comes to the queue at a place with each of several moves. A call leaves what waits, and its
groups stand behind that; the other moves only take from the front. -/
inductive Receives (place : Nat) :
    Dispatcher → List Move → List (List (List StoredEvent)) → Prop where
  | done {dispatcher : Dispatcher} : Receives place dispatcher [] []
  | called {dispatcher : Dispatcher} {request : Request} {rest : List Move}
      {waiting groups : List (List StoredEvent)} {later : List (List (List StoredEvent))}
      (before : dispatcher.waiting? place = some waiting)
      (after : (dispatcher.move (.call request)).waiting? place = some (waiting ++ groups))
      (onwards : Receives place (dispatcher.move (.call request)) rest later) :
      Receives place dispatcher (.call request :: rest) (groups :: later)
  | between {dispatcher : Dispatcher} {move : Move} {rest : List Move}
      {taken left : List (List StoredEvent)} {later : List (List (List StoredEvent))}
      (own : ∀ request, move ≠ .call request)
      (before : dispatcher.waiting? place = some (taken ++ left))
      (after : (dispatcher.move move).waiting? place = some left)
      (onwards : Receives place (dispatcher.move move) rest later) :
      Receives place dispatcher (move :: rest) ([] :: later)

/-- Whether groups are still taken at a place: the stop signal is not set, and the consumer has not
exited. -/
structure Open (dispatcher : Dispatcher) (place : Nat) : Prop where
  going : dispatcher.stopping = false
  live : ∀ consumer, dispatcher.consumers[place]? = some consumer → consumer.hasExited = false

variable {dispatcher last : Dispatcher} {place : Nat} {consumer : Consumer}
  {subscription : Subscription} {settings : DispatchSettings} {subscriptions : List Subscription}

/-- The name that is found is the first that stands in the list a second time. -/
theorem exists_of_firstRepeated {seen names : List String} {name : String}
    (found : firstRepeated seen names = some name) :
    ∃ earlier later, names = earlier ++ name :: later ∧ earlier.Nodup ∧
      (∀ other ∈ earlier, other ∉ seen) ∧ (name ∈ seen ∨ name ∈ earlier) := by
  induction names generalizing seen with
  | nil => cases found
  | cons first rest ih =>
    rw [firstRepeated] at found
    split at found
    · rename_i known
      obtain rfl := Option.some.inj found
      exact ⟨[], rest, rfl, List.nodup_nil, List.forall_mem_nil _, .inl known⟩
    · rename_i new
      obtain ⟨earlier, later, rfl, distinct, unseen, again⟩ := ih found
      have absent : first ∉ earlier := fun member => unseen first member List.mem_cons_self
      refine ⟨first :: earlier, later, rfl, List.nodup_cons.mpr ⟨absent, distinct⟩, ?_, ?_⟩
      · intro other member
        rcases List.mem_cons.mp member with rfl | later
        · exact new
        · exact fun before => unseen other later (List.mem_cons_of_mem _ before)
      · rcases again with before | member
        · rcases List.mem_cons.mp before with rfl | before
          · exact .inr List.mem_cons_self
          · exact .inl before
        · exact .inr (List.mem_cons_of_mem _ member)

theorem firstRepeated_eq_none_iff {names : List String} :
    firstRepeated [] names = none ↔ names.Nodup := by
  constructor
  · exact fun none => (nodup_of_firstRepeated none).1
  · intro distinct
    refine Option.eq_none_iff_forall_ne_some.mpr fun name found => ?_
    obtain ⟨earlier, later, rfl, -, -, seen | again⟩ := exists_of_firstRepeated found
    · cases seen
    · exact (List.nodup_append.mp distinct).2.2 name again name List.mem_cons_self rfl

theorem start_ok_iff :
    (∃ dispatcher, start settings subscriptions = .ok dispatcher) ↔
      (subscriptions.map (·.name)).Nodup := by
  rw [← firstRepeated_eq_none_iff, start]
  cases firstRepeated [] (subscriptions.map (·.name)) with
  | none => simp
  | some name => simp

/-- The subscription that is named is the first with a name that occurred before. -/
theorem exists_of_start_error {error : DispatchError}
    (failed : start settings subscriptions = .error error) :
    ∃ earlier subscription later, subscriptions = earlier ++ subscription :: later ∧
      (earlier.map (·.name)).Nodup ∧ (∃ previous ∈ earlier, previous.name = subscription.name) ∧
      error = .duplicateSubscription subscription.name := by
  rw [start] at failed
  split at failed
  · rename_i name found
    obtain rfl := Except.error.inj failed
    obtain ⟨before, after, names, distinct, -, seen | again⟩ := exists_of_firstRepeated found
    · cases seen
    · obtain ⟨earlier, others, rfl, rfl, rest⟩ := List.map_eq_append_iff.mp names
      obtain ⟨subscription, later, rfl, rfl, -⟩ := List.map_eq_cons_iff.mp rest
      exact ⟨earlier, subscription, later, rfl, distinct, List.mem_map.mp again, rfl⟩
  · cases failed

theorem names_of_start (started : start settings subscriptions = .ok dispatcher) :
    dispatcher.names = subscriptions.map (·.name) := by
  rw [eq_of_start started, names, List.map_map]
  rfl

/-- What a request brings is what it means for a consumer, while groups are taken. -/
theorem acts_eq_brings {request : Request} (quiet : request.isShutdown = false) :
    request.acts subscription false = (request.brings subscription).map .enqueue := by
  cases request with
  | publish events =>
    have same : subscription.observed events =
        events.filter fun event => subscription.Covers event.stream := by
      simp only [Subscription.observed, Subscription.observes_eq]
    simp only [Request.acts, Request.brings, Bool.false_eq_true, if_false, Subscription.offers,
      same]
    cases events.filter fun event => subscription.Covers event.stream <;> rfl
  | send name event =>
    simp only [Request.acts, Request.brings, deliveries, true_and, eq_comm (a := name)]
    split <;> rfl
  | sendBatch name events =>
    simp only [Request.acts, Request.brings, deliveries, true_and, eq_comm (a := name)]
    split <;> rfl
  | shutdown => cases quiet
  | nothing => rfl

theorem GoesOn.perform (dispatcher : Dispatcher) (request : Request) :
    dispatcher.GoesOn (dispatcher.perform request).2 := by
  have sends (name : String) (events : List StoredEvent) :
      dispatcher.GoesOn (dispatcher.sent (dispatcher.sendBatch name events)).2 := by
    cases answer : dispatcher.sendBatch name events with
    | ok next => exact .sendBatch answer
    | error error => exact .refl dispatcher
  cases request with
  | publish events => exact .publish dispatcher events
  | send name event => exact sends name [event]
  | sendBatch name events => exact sends name events
  | shutdown => exact .beginShutdown dispatcher
  | nothing => exact .refl dispatcher

theorem goesOn_move (dispatcher : Dispatcher) (move : Move) :
    dispatcher.GoesOn (dispatcher.move move) := by
  cases move with
  | call request => exact .perform dispatcher request
  | serve place => exact .modify dispatcher place fun _ => rfl
  | clock place time => exact .modify dispatcher place fun _ => rfl

theorem goesOn_follow (dispatcher : Dispatcher) (moves : List Move) :
    dispatcher.GoesOn (dispatcher.follow moves) := by
  induction moves generalizing dispatcher with
  | nil => exact .refl dispatcher
  | cons move rest ih => exact (dispatcher.goesOn_move move).trans (ih _)

/-- What is open at the end was open all the time. -/
theorem Open.of_goesOn (isOpen : last.Open place) (goes : dispatcher.GoesOn last) :
    dispatcher.Open place where
  going := by
    cases stopping : dispatcher.stopping with
    | false => rfl
    | true => exact (goes.stopping stopping).symm.trans isOpen.going
  live consumer found := by
    obtain ⟨acts, reached, -⟩ := goes.at_place found
    cases exited : consumer.hasExited with
    | false => rfl
    | true => exact (Consumer.hasExited_run exited acts).symm.trans (isOpen.live _ reached)

/-- A call puts what it brings behind the groups that wait. -/
theorem Open.perform (isOpen : dispatcher.Open place) (distinct : dispatcher.names.Nodup)
    (found : dispatcher.consumers[place]? = some consumer) {request : Request}
    (quiet : request.isShutdown = false) :
    (dispatcher.perform request).2.consumers[place]? =
      some { consumer with
        queue := consumer.queue ++ request.brings consumer.subscription } := by
  rw [consumers_perform distinct, List.getElem?_map, found, Option.map_some, isOpen.going,
    acts_eq_brings quiet, Consumer.run_enqueue (isOpen.live consumer found)]

theorem Open.answer (isOpen : dispatcher.Open place) (distinct : dispatcher.names.Nodup)
    (found : dispatcher.consumers[place]? = some consumer) {request : Request}
    (own : request.recipient? = some consumer.subscription.name) :
    (dispatcher.perform request).1 = none := by
  rw [answer_perform distinct found own, isOpen.going, isOpen.live consumer found]
  rfl

/-- What happens to a consumer besides calls takes groups from the front of its queue. -/
theorem waiting?_modify (found : dispatcher.consumers[place]? = some consumer) (other : Nat)
    (act : Consumer.Act) (quiet : act.groups = []) :
    ∃ taken left, dispatcher.waiting? place = some (taken ++ left) ∧
      Dispatcher.waiting?
        { dispatcher with consumers := dispatcher.consumers.modify other (·.act act) } place =
          some left := by
  by_cases here : other = place
  · subst here
    obtain ⟨taken, same⟩ := consumer.act_queue_suffix quiet
    refine ⟨taken, (consumer.act act).queue, ?_, ?_⟩
    · rw [waiting?, found, same]
      rfl
    · rw [waiting?, List.getElem?_modify_eq, found]
      rfl
  · refine ⟨[], consumer.queue, ?_, ?_⟩
    · rw [waiting?, found]
      rfl
    · simp only [waiting?, List.getElem?_modify_ne _ _ here, found, Option.map_some]

/-- Each move brings to a queue what it has for the subscription. -/
theorem receives_follow (moves : List Move) (distinct : dispatcher.names.Nodup)
    (found : dispatcher.consumers[place]? = some consumer)
    (isOpen : (dispatcher.follow moves).Open place) :
    Receives place dispatcher moves (moves.map (Move.brings consumer.subscription)) := by
  induction moves generalizing dispatcher consumer with
  | nil => exact .done
  | cons move rest ih =>
    have goes := dispatcher.goesOn_move move
    have onwards := (dispatcher.move move).goesOn_follow rest
    have between : (dispatcher.move move).Open place := isOpen.of_goesOn onwards
    obtain ⟨acts, reached, -⟩ := goes.at_place found
    have later := ih (goes.names_eq.symm ▸ distinct) reached isOpen
    rw [Consumer.run_subscription] at later
    cases move with
    | call request =>
      have quiet : request.isShutdown = false :=
        (Bool.or_eq_false_iff.mp ((stopping_perform distinct request).symm.trans between.going)).2
      have before : dispatcher.waiting? place = some consumer.queue := by
        rw [waiting?, found, Option.map_some]
      refine .called before ?_ later
      rw [waiting?, move, (between.of_goesOn goes).perform distinct found quiet]
      rfl
    | serve other =>
      obtain ⟨taken, left, before, after⟩ := waiting?_modify found other .step rfl
      exact .between nofun before after later
    | clock other time =>
      obtain ⟨taken, left, before, after⟩ := waiting?_modify found other (.clock time) rfl
      exact .between nofun before after later

/-- A name that nobody has is turned away, whatever else is the case, and nothing changes. -/
theorem perform_of_unknown {request : Request} {name : String}
    (recipient : request.recipient? = some name) (unknown : name ∉ dispatcher.names) :
    dispatcher.perform request = (some (.unknownSubscription name), dispatcher) := by
  have nobody : dispatcher.consumer? name = none := by
    refine List.find?_eq_none.mpr fun consumer member named => unknown ?_
    exact of_decide_eq_true named ▸ List.mem_map_of_mem member
  have refused (events : List StoredEvent) :
      dispatcher.sent (dispatcher.sendBatch name events) =
        (some (.unknownSubscription name), dispatcher) := by
    rw [sendBatch, nobody]
    rfl
  cases request with
  | send named event =>
    obtain rfl := Option.some.inj recipient
    exact refused [event]
  | sendBatch named events =>
    obtain rfl := Option.some.inj recipient
    exact refused events
  | _ => cases recipient

/-- A dispatcher starts exactly if the names of its subscriptions differ; otherwise the first whose
name occurred before is named. While the stop signal is not set and its consumer has not exited, the
queue of a subscription receives from each publication the events that it covers, in their order and
as one group, if there are any, and from what is sent exactly the groups for its name. What is sent
to a name that nobody has is turned away and leaves everything as it was. -/
theorem groups_routed (settings : DispatchSettings) (subscriptions : List Subscription) :
    ((∃ dispatcher, start settings subscriptions = .ok dispatcher) ↔
      (subscriptions.map (·.name)).Nodup) ∧
    (∀ error, start settings subscriptions = .error error →
      ∃ earlier subscription later, subscriptions = earlier ++ subscription :: later ∧
        (earlier.map (·.name)).Nodup ∧
        (∃ previous ∈ earlier, previous.name = subscription.name) ∧
        error = .duplicateSubscription subscription.name) ∧
    ∀ dispatcher, start settings subscriptions = .ok dispatcher → ∀ moves,
      (∀ (place : Nat) (subscription : Subscription), subscriptions[place]? = some subscription →
        (dispatcher.follow moves).Open place →
          Receives place dispatcher moves (moves.map (Move.brings subscription)) ∧
          ∀ request : Request, request.recipient? = some subscription.name →
            ((dispatcher.follow moves).perform request).1 = none) ∧
      ∀ (request : Request) (name : String), request.recipient? = some name →
        name ∉ subscriptions.map (·.name) →
          (dispatcher.follow moves).perform request =
            (some (.unknownSubscription name), dispatcher.follow moves) := by
  refine ⟨start_ok_iff, fun error => exists_of_start_error, fun dispatcher started moves => ?_⟩
  have goes := dispatcher.goesOn_follow moves
  have distinct := nodup_of_start started
  refine ⟨fun place subscription listed isOpen => ?_, fun request name recipient unknown => ?_⟩
  · have found : dispatcher.consumers[place]? =
        some { subscription := subscription, backoff := settings.backoff } := by
      rw [eq_of_start started, List.getElem?_map, listed, Option.map_some]
    refine ⟨receives_follow moves distinct found isOpen, fun request recipient => ?_⟩
    obtain ⟨acts, reached, -⟩ := goes.at_place found
    refine isOpen.answer (goes.names_eq.symm ▸ distinct) reached ?_
    rw [Consumer.run_subscription]
    exact recipient
  · refine perform_of_unknown recipient ?_
    rwa [goes.names_eq, names_of_start started]

/-- One subscription for the streams of one kind, and one for all. -/
def departments : List Subscription :=
  [{ name := "stock", start := some "Inventory-" }, { name := "audit" }]

def mailroom : Dispatcher := (start {} departments).toOption.get (by decide)

def entry (stream : String) : StoredEvent := { (default : StoredEvent) with stream := ⟨stream⟩ }

/-- Meanwhile one consumer takes a group. -/
def traffic : List Move :=
  [.call (.publish [entry "Inventory-1", entry "Order-9", entry "Inventory-2"]), .serve 1, .serve 1,
    .call (.publish [entry "Order-9"]), .call (.send "stock" (entry "Order-9")),
    .call (.sendBatch "audit" []), .call (.sendBatch "sales" [entry "Order-9"])]

theorem groups_routed_departments :
    start {} departments = .ok mailroom ∧
      Receives 0 mailroom traffic
        [[[entry "Inventory-1", entry "Inventory-2"]], [], [], [], [[entry "Order-9"]], [], []] ∧
      Receives 1 mailroom traffic
        [[[entry "Inventory-1", entry "Order-9", entry "Inventory-2"]], [], [], [[entry "Order-9"]],
          [], [[]], []] ∧
      (mailroom.follow traffic).perform (.sendBatch "sales" []) =
        (some (.unknownSubscription "sales"), mailroom.follow traffic) ∧
      ((mailroom.follow traffic).consumers.map (·.queue.length)) = [2, 2] := by
  have started : start {} departments = .ok mailroom := rfl
  obtain ⟨known, unknown⟩ := (groups_routed {} departments).2.2 mailroom started traffic
  have isOpen (place : Nat) : (mailroom.follow traffic).Open place := by
    refine ⟨rfl, fun consumer found => ?_⟩
    have all : ∀ consumer ∈ (mailroom.follow traffic).consumers, consumer.hasExited = false := by
      decide
    exact all consumer (List.mem_of_getElem? found)
  have stock := (known 0 _ rfl (isOpen 0)).1
  have audit := (known 1 _ rfl (isOpen 1)).1
  exact ⟨started, stock, audit, unknown _ "sales" rfl (by decide), by decide⟩

end Dispatcher

end EventSourcing
