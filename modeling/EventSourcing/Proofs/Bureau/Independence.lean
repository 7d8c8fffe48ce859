import EventSourcing.Proofs.Bureau
import EventSourcing.Proofs.Separation

/-!
Streams are independent. What there is to see of one stream is the same as if the writes to all
other streams had never been made, so two writes in a row to different streams may change places.
-/

namespace EventSourcing

/-- Whether a group holds an event of a stream. -/
def concerns (key : StreamKey) (group : List StoredEvent) : Bool :=
  group.any fun event => event.stream = key

theorem concerns_eq_false {key : StreamKey} {group : List StoredEvent}
    (apart : ∀ event ∈ group, event.stream ≠ key) : concerns key group = false := by
  simpa [concerns] using apart

/-- A consumer with that part of its queue that concerns a stream. -/
def Consumer.about (key : StreamKey) (consumer : Consumer) : Consumer :=
  { consumer with queue := consumer.queue.filter (concerns key) }

namespace Dispatcher

def about (key : StreamKey) (dispatcher : Dispatcher) : Dispatcher :=
  { dispatcher with consumers := dispatcher.consumers.map (Consumer.about key) }

variable {key : StreamKey} {events : List StoredEvent}

theorem about_offer_of_ne (apart : ∀ event ∈ events, event.stream ≠ key) (consumer : Consumer) :
    (offer events consumer).about key = consumer.about key := by
  unfold offer
  split
  · rfl
  · have missed : concerns key (consumer.subscription.observed events) = false :=
      concerns_eq_false fun event member => apart event (List.mem_filter.mp member).1
    unfold Consumer.enqueue
    split
    · rfl
    · simp [Consumer.about, missed]

theorem about_offer (own : ∀ event ∈ events, event.stream = key) (consumer : Consumer) :
    (offer events consumer).about key = offer events (consumer.about key) := by
  have alike : (consumer.about key).subscription = consumer.subscription := rfl
  unfold offer
  rw [alike]
  split
  · rfl
  · rename_i shown
    have heard : concerns key (consumer.subscription.observed events) = true := by
      obtain ⟨event, rest, filled⟩ := List.exists_cons_of_ne_nil shown
      have member : event ∈ consumer.subscription.observed events := by simp [filled]
      exact List.any_eq_true.mpr
        ⟨event, member, decide_eq_true (own event (List.mem_filter.mp member).1)⟩
    have still : (consumer.about key).hasExited = consumer.hasExited := rfl
    unfold Consumer.enqueue
    rw [still]
    split
    · rfl
    · simp [Consumer.about, heard]

/-- What is published about other streams leaves no trace. -/
theorem about_publish_of_ne (apart : ∀ event ∈ events, event.stream ≠ key)
    (dispatcher : Dispatcher) : (dispatcher.publish events).about key = dispatcher.about key := by
  unfold publish
  split
  · rfl
  · simp only [about, List.map_map]
    congr 1
    exact List.map_congr_left fun consumer _ => about_offer_of_ne apart consumer

theorem about_publish (own : ∀ event ∈ events, event.stream = key) (dispatcher : Dispatcher) :
    (dispatcher.publish events).about key = (dispatcher.about key).publish events := by
  have alike : (dispatcher.about key).stopping = dispatcher.stopping := rfl
  unfold publish
  rw [alike]
  split
  · rfl
  · simp only [about, List.map_map]
    congr 1
    exact List.map_congr_left fun consumer _ => about_offer own consumer

end Dispatcher

namespace Bureau

def Entry.isAbout (key : StreamKey) : Entry → Bool
  | .written write _ => write.stream = key
  | .read other _ => other = key

/-- What there is to see of one stream: the answers, its records with its header, the groups that
were published about it, and the consumers with what is queued for them about it. -/
structure View where
  answers : List Entry
  stream : Stream
  published : List (List StoredEvent)
  dispatcher : Option Dispatcher

def view (bureau : Bureau Store) (key : StreamKey) : View where
  answers := bureau.journal.filter (·.isAbout key)
  stream := bureau.storage.stream key
  published := bureau.published.filter (concerns key)
  dispatcher := bureau.dispatcher.map (·.about key)

variable {backend other : Backend Store} {key : StreamKey} {first second bureau : Bureau Store}

theorem view_publish_of_ne {committed : Option (List StoredEvent)}
    (apart : ∀ events, committed = some events → ∀ event ∈ events, event.stream ≠ key) :
    (bureau.publish committed).view key = bureau.view key := by
  unfold publish
  split
  · rename_i dispatcher events attached
    have away := apart events rfl
    have missed := concerns_eq_false away
    simp only [view, attached, Option.map_some, Dispatcher.about_publish_of_ne away]
    congr 1
    split <;> simp [missed]
  · rfl

/-- What is published about a stream shows in its view, and depends on nothing else. -/
def View.publish (view : View) (key : StreamKey) (events : List StoredEvent) : View :=
  match view.dispatcher with
  | none => view
  | some dispatcher =>
    { view with
      published :=
        if dispatcher.stopping then view.published
        else view.published ++ [events].filter (concerns key)
      dispatcher := some (dispatcher.publish events) }

theorem view_publish {events : List StoredEvent} (own : ∀ event ∈ events, event.stream = key) :
    (bureau.publish (some events)).view key = (bureau.view key).publish key events := by
  cases attached : bureau.dispatcher with
  | none => simp only [publish, View.publish, view, attached, Option.map_none]
  | some dispatcher =>
    have alike : (dispatcher.about key).stopping = dispatcher.stopping := rfl
    simp only [publish, View.publish, view, attached, Option.map_some, alike,
      Dispatcher.about_publish own]
    split
    · rfl
    · rw [List.filter_append]

/-- A database that has noted how a write ended, and has published nothing yet. -/
def noted (bureau : Bureau Store) (write : Write) (written : Written Store) : Bureau Store :=
  { bureau with
    planner := written.planner
    storage := written.state
    journal := bureau.journal ++ [.written write written.result] }

theorem write_eq (backend : Backend Store) (bureau : Bureau Store) (write : Write) :
    let written := backend.write bureau.planner write bureau.storage
    bureau.write backend write =
      (bureau.noted write written).publish (written.committed.map Transaction.events) := rfl

theorem view_noted {write : Write} (written : Written Store) :
    (bureau.noted write written).view write.stream =
      { bureau.view write.stream with
        answers := (bureau.view write.stream).answers ++ [.written write written.result]
        stream := written.state.stream write.stream } := by
  simp [view, noted, Entry.isAbout]

theorem view_noted_of_ne {write : Write} (apart : write.stream ≠ key) {written : Written Store}
    (kept : written.state.stream key = bureau.storage.stream key) :
    (bureau.noted write written).view key = bureau.view key := by
  simp [view, noted, Entry.isAbout, apart, kept]

/-- A write leaves no trace in the view of another stream. -/
theorem view_write_of_ne (keeps : backend.Keeps) {write : Write} (apart : write.stream ≠ key) :
    (bureau.write backend write).view key = bureau.view key := by
  have effect := (keeps.write bureau.planner write bureau.storage).1
  rw [write_eq]
  generalize backend.write bureau.planner write bureau.storage = written at effect ⊢
  cases made : written.committed with
  | none =>
    rw [made] at effect
    rw [Option.map_none, publish_none]
    exact view_noted_of_ne apart (effect key)
  | some transaction =>
    rw [made] at effect
    obtain ⟨-, makes, moved⟩ := effect
    rw [view_publish_of_ne, view_noted_of_ne apart]
    · rw [moved, if_neg (Ne.symm apart)]
    · intro events same event member
      obtain rfl := Option.some.inj same
      rw [makes.own member]
      exact apart

/-- A write that was rejected has changed nothing. -/
theorem stream_write_of_error (keeps : backend.Keeps) {write : Write} {error : Error}
    (rejected : (bureau.write backend write).journal =
      bureau.journal ++ [.written write (.error error)]) (key : StreamKey) :
    (bureau.write backend write).storage.stream key = bureau.storage.stream key := by
  have effect := (keeps.write bureau.planner write bureau.storage).1
  rw [journal_write, List.append_cancel_left_eq, List.singleton_inj, Entry.written.injEq]
    at rejected
  rw [storage_write]
  generalize backend.write bureau.planner write bureau.storage = written at effect rejected ⊢
  cases made : written.committed with
  | none =>
    rw [made] at effect
    exact effect key
  | some transaction =>
    rw [made] at effect
    cases rejected.2.symm.trans effect.1

/-- Whether databases plan alike and there is the same to see of a stream. -/
structure Twin (key : StreamKey) (first second : Bureau Store) : Prop where
  planner : first.planner.Twin second.planner
  view : first.view key = second.view key

namespace Twin

theorem symm (twin : first.Twin key second) : second.Twin key first :=
  ⟨twin.planner.symm, twin.view.symm⟩

theorem trans {third : Bureau Store} (twin : first.Twin key second)
    (further : second.Twin key third) : first.Twin key third :=
  ⟨twin.planner.trans further.planner, twin.view.trans further.view⟩

/-- Databases that agree about a stream give a write to it the same answer, and agree still. -/
theorem write {write : Write} (twin : first.Twin write.stream second) (keeps : backend.Keeps)
    (too : other.Keeps) (known : write.origin.initiator ≠ Uuid.nil) :
    (first.write backend write).Twin write.stream (second.write other write) ∧
      ∃ result, (first.write backend write).journal = first.journal ++ [.written write result] ∧
        (second.write other write).journal = second.journal ++ [.written write result] := by
  obtain ⟨result, committed, planner, moved⟩ :=
    twin.planner.write keeps too known (congrArg View.stream twin.view)
  refine ⟨⟨?_, ?_⟩, _, journal_write _ _ _, result ▸ journal_write _ _ _⟩
  · rw [Bureau.write, Bureau.write, planner_publish, planner_publish]
    exact planner
  · have effect := (keeps.write first.planner write first.storage).1
    rw [write_eq, write_eq]
    generalize backend.write first.planner write first.storage = written at *
    generalize other.write second.planner write second.storage = likewise at *
    have noted : (first.noted write written).view write.stream =
        (second.noted write likewise).view write.stream := by
      rw [view_noted, view_noted, twin.view, result, moved]
    rw [← committed]
    cases made : written.committed with
    | none =>
      rw [Option.map_none, publish_none, publish_none]
      exact noted
    | some transaction =>
      rw [made] at effect
      have own : ∀ event ∈ transaction.events, event.stream = write.stream :=
        fun event member => effect.2.1.own member
      rw [Option.map_some, view_publish own, view_publish own, noted]

/-- A write to another stream may as well be left out. -/
theorem skip (twin : first.Twin key second) (keeps : backend.Keeps) {write : Write}
    (apart : write.stream ≠ key) : (first.write backend write).Twin key second where
  planner := by
    rw [Bureau.write, planner_publish]
    exact twin.planner.used backend write first.storage
  view := (view_write_of_ne keeps apart).trans twin.view

end Twin

/-- Writes one after the other. -/
def writeAll (backend : Backend Store) (bureau : Bureau Store) (writes : List Write) :
    Bureau Store :=
  bureau.run backend (writes.map .write)

theorem writeAll_append (backend : Backend Store) (bureau : Bureau Store)
    (early late : List Write) :
    bureau.writeAll backend (early ++ late) =
      (bureau.writeAll backend early).writeAll backend late := by
  rw [writeAll, run, List.map_append, List.foldl_append]
  rfl

variable {writes : List Write}

theorem Twin.purge (twin : first.Twin key second) (keeps : backend.Keeps) (too : other.Keeps)
    (known : ∀ write ∈ writes, write.origin.initiator ≠ Uuid.nil) :
    (first.writeAll backend writes).Twin key
      (second.writeAll other (writes.filter (·.stream = key))) := by
  induction writes generalizing first second with
  | nil => exact twin
  | cons write rest ih =>
    obtain ⟨here, later⟩ := List.forall_mem_cons.mp known
    by_cases own : write.stream = key
    · subst own
      rw [List.filter_cons_of_pos (by simp)]
      exact ih (twin.write keeps too here).1 later
    · rw [List.filter_cons_of_neg (by simpa using own)]
      exact ih (twin.skip keeps own) later

/-- Databases that agree about all streams give the same answers to the same writes. -/
theorem Twin.writeAll (twins : ∀ key, first.Twin key second) (keeps : backend.Keeps)
    (too : other.Keeps) (known : ∀ write ∈ writes, write.origin.initiator ≠ Uuid.nil) :
    (∀ key, (first.writeAll backend writes).Twin key (second.writeAll other writes)) ∧
      ∃ later, (first.writeAll backend writes).journal = first.journal ++ later ∧
        (second.writeAll other writes).journal = second.journal ++ later := by
  induction writes generalizing first second with
  | nil => exact ⟨twins, [], by simp [Bureau.writeAll, run]⟩
  | cons write rest ih =>
    obtain ⟨here, others⟩ := List.forall_mem_cons.mp known
    obtain ⟨own, result, told, likewise⟩ := (twins write.stream).write keeps too here
    have next (key : StreamKey) :
        (first.write backend write).Twin key (second.write other write) := by
      by_cases onto : write.stream = key
      · exact onto ▸ own
      · exact (((twins key).skip keeps onto).symm.skip too onto).symm
    obtain ⟨agree, later, journal, same⟩ := ih next others
    refine ⟨agree, .written write result :: later, ?_, ?_⟩
    · exact journal.trans (by simp [told])
    · exact same.trans (by simp [likewise])

theorem distinct_writeAll (keeps : backend.Keeps) (distinct : bureau.storage.Distinct) :
    (bureau.writeAll backend writes).storage.Distinct := by
  induction writes generalizing bureau with
  | nil => exact distinct
  | cons write rest ih =>
    refine ih ?_
    change (bureau.write backend write).storage.Distinct
    rw [storage_write]
    exact (keeps.write bureau.planner write bureau.storage).2 distinct

/-- Two writes to different streams may change places. -/
theorem Twin.swap (twins : ∀ key, bureau.Twin key bureau) (keeps : backend.Keeps)
    {one two : Write} (known : one.origin.initiator ≠ Uuid.nil)
    (too : two.origin.initiator ≠ Uuid.nil) (apart : one.stream ≠ two.stream) :
    let there := bureau.writeAll backend [one, two]
    let back := bureau.writeAll backend [two, one]
    (∀ key, there.Twin key back) ∧ ∃ result answer,
      there.journal = bureau.journal ++ [.written one result, .written two answer] ∧
        back.journal = bureau.journal ++ [.written two answer, .written one result] := by
  intro there back
  constructor
  · intro key
    have ahead : there.Twin key _ := (twins key).purge keeps keeps (by simp [known, too])
    have behind : back.Twin key _ := (twins key).purge keeps keeps (by simp [known, too])
    have same : [two, one].filter (·.stream = key) = [one, two].filter (·.stream = key) := by
      by_cases here : one.stream = key
      · have away : two.stream ≠ key := here ▸ Ne.symm apart
        simp [here, away]
      · simp [List.filter_cons, here]
    rw [same] at behind
    exact ahead.trans behind.symm
  · obtain ⟨-, answer, second, alone⟩ :=
      ((twins two.stream).skip keeps apart).write keeps keeps too
    obtain ⟨-, result, first, single⟩ :=
      ((twins one.stream).skip keeps (Ne.symm apart)).write keeps keeps known
    refine ⟨result, answer, second.trans ?_, first.trans ?_⟩
    · rw [single, List.append_assoc]
      rfl
    · rw [alone, List.append_assoc]
      rfl

/-- What there is to see of a stream, and the answer to each write to it, is the same without the
writes to other streams. Writes to different streams that follow each other may change places, a
rejected write changes no stream, and nobody can tell whether one has left an empty entry behind. -/
theorem streams_independent {planner : Planner} (idempotent : planner.settings.idempotency = true)
    {instant : Instant} (still : ∀ number, planner.clock.reading number = instant)
    (dispatcher : Option Dispatcher) {writes : List Write}
    (known : ∀ write ∈ writes, write.origin.initiator ≠ Uuid.nil) :
    let run := (opened planner ({} : Store) dispatcher).writeAll
    let whole := run Store.backend writes
    (∀ key, whole.view key = (run Store.backend (writes.filter (·.stream = key))).view key) ∧
      (∀ early one two late, writes = early ++ one :: two :: late → one.stream ≠ two.stream →
        let past := (run Store.backend early).journal
        let swapped := run Store.backend (early ++ two :: one :: late)
        (∃ result answer later,
          whole.journal = past ++ [.written one result, .written two answer] ++ later ∧
            swapped.journal = past ++ [.written two answer, .written one result] ++ later) ∧
          (∀ key, swapped.view key = whole.view key) ∧
          swapped.storage.streamCount = whole.storage.streamCount) ∧
      (∀ early write late error, writes = early ++ write :: late →
        let before := run Store.backend early
        let after := run Store.backend (early ++ [write])
        after.journal = before.journal ++ [.written write (.error error)] →
          (∀ key, after.storage.stream key = before.storage.stream key) ∧
            after.storage.streamCount = before.storage.streamCount) ∧
      (run Store.reserving writes).journal = whole.journal ∧
      (∀ key, (run Store.reserving writes).view key = whole.view key) ∧
      (run Store.reserving writes).storage.streamCount = whole.storage.streamCount := by
  intro run whole
  have begun (key : StreamKey) : (opened planner ({} : Store) dispatcher).Twin key
      (opened planner {} dispatcher) :=
    ⟨⟨rfl, idempotent, fun early late => (still early).trans (still late).symm⟩, rfl⟩
  have keeps := Store.keeps_backend
  have empty : ({} : Store).Distinct := List.nodup_nil
  have distinct (writes : List Write) : (run Store.backend writes).storage.Distinct :=
    distinct_writeAll keeps empty
  refine ⟨fun key => ((begun key).purge keeps keeps known).view, ?_, ?_, ?_⟩
  · intro early one two late split apart past swapped
    subst split
    simp only [List.forall_mem_append, List.forall_mem_cons] at known
    obtain ⟨knownEarly, knownOne, knownTwo, knownLate⟩ := known
    obtain ⟨twins, -⟩ := Twin.writeAll begun keeps keeps knownEarly
    obtain ⟨reached, result, answer, there, back⟩ := Twin.swap twins keeps knownOne knownTwo apart
    obtain ⟨ended, later, journal, same⟩ := Twin.writeAll reached keeps keeps knownLate
    have stages (first second : Write) : run Store.backend (early ++ first :: second :: late) =
        ((run Store.backend early).writeAll Store.backend [first, second]).writeAll Store.backend
          late :=
      (writeAll_append _ _ early _).trans (writeAll_append _ _ [first, second] late)
    rw [← stages, ← stages] at ended
    rw [← stages, there] at journal
    rw [← stages, back] at same
    refine ⟨⟨result, answer, later, journal, same⟩, fun key => (ended key).view.symm, ?_⟩
    exact Store.streamCount_congr (distinct _) (distinct _) fun key =>
      congrArg View.stream (ended key).view.symm
  · intro early write late error split before after rejected
    have last : after = before.write Store.backend write := writeAll_append _ _ early [write]
    have kept (key : StreamKey) : after.storage.stream key = before.storage.stream key := by
      rw [last] at rejected ⊢
      exact stream_write_of_error keeps rejected key
    exact ⟨kept, Store.streamCount_congr (distinct _) (distinct _) kept⟩
  · obtain ⟨twins, later, journal, same⟩ := Twin.writeAll begun Store.keeps_reserving keeps known
    refine ⟨journal.trans same.symm, fun key => (twins key).view, ?_⟩
    exact Store.streamCount_congr (distinct_writeAll Store.keeps_reserving empty) (distinct _)
      fun key => congrArg View.stream (twins key).view

/-- One cause writes to two streams, and another one comes too late to one of them. -/
def transfers : List Write :=
  let moved (stream : String) (expected : ExpectedVersion) (initiator : Nat) : Write :=
    ⟨⟨stream⟩, [⟨"Moved", .null⟩], Version.absent, expected, { initiator := Uuid.ofNat initiator }⟩
  [moved "account" .none 7, moved "ledger" .none 7, moved "ledger" .any 9, moved "account" .none 9]

theorem streams_independent_transfers :
    let run := (opened Planner.plain ({} : Store) (some desk)).writeAll
    let alone := run Store.backend (transfers.filter (·.stream = ⟨"account"⟩))
    (run Store.backend transfers).view ⟨"account"⟩ = alone.view ⟨"account"⟩ ∧
      ((run Store.backend transfers).view ⟨"account"⟩).published.map (·.map (·.id)) =
        ((run Store.backend transfers).view ⟨"ledger"⟩).published.map (·.map (·.id)) ∧
      (run Store.reserving transfers).storage.streamCount = 2 := by
  intro run alone
  obtain ⟨same, -, -, -, -, counted⟩ := streams_independent
    (show Planner.plain.settings.idempotency = true from rfl) (fun _ => rfl) (some desk)
    (show ∀ write ∈ transfers, write.origin.initiator ≠ Uuid.nil by decide)
  exact ⟨same _, by decide, counted.trans (by decide)⟩

end Bureau

end EventSourcing
