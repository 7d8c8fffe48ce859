import EventSourcing.Proofs.Gates
import EventSourcing.Proofs.Outlet

/-!
The jobs of a database that publishes what it commits. A job that has committed a transaction owes
it to the consumers until each of them has got its part, and is inside the gate of its stream as
long as it owes it to any of them.
-/

namespace EventSourcing

/-- A transaction that a database with these settings may have made of a write. -/
structure Write.Yields (settings : StoreSettings) (write : Write) (transaction : Transaction) :
    Prop where
  filled : write.events ≠ []
  planned : ∃ baseline : Version, baseline.Proper ∧ Planned settings write baseline transaction

namespace Write.Yields

variable {settings : StoreSettings} {write : Write} {transaction : Transaction}

theorem stream (yields : write.Yields settings transaction) :
    transaction.stream = write.stream := by
  obtain ⟨-, baseline, -, planned⟩ := yields
  exact planned.stream

theorem own (yields : write.Yields settings transaction) {event : StoredEvent}
    (member : event ∈ transaction.events) : event.stream = transaction.stream := by
  obtain ⟨-, baseline, -, planned⟩ := yields
  rw [planned.stream]
  exact (planned.origin member).1

theorem events_ne_nil (yields : write.Yields settings transaction) : transaction.events ≠ [] := by
  obtain ⟨filled, baseline, -, planned⟩ := yields
  rw [← List.length_pos_iff, planned.length_events, List.length_pos_iff]
  exact filled

/-- A subscription observes all events of a transaction, or none of them. -/
theorem observed_eq (yields : write.Yields settings transaction) (subscription : Subscription) :
    subscription.observed transaction.events =
      if subscription.observes transaction.stream then transaction.events else [] := by
  split
  · rename_i observes
    refine List.filter_eq_self.mpr fun event member => ?_
    rw [yields.own member]
    exact observes
  · rename_i misses
    refine List.filter_eq_nil_iff.mpr fun event member => ?_
    rw [yields.own member]
    exact misses

end Write.Yields

namespace Store

/-- Questions change nothing. -/
theorem containsInitiator_under (reaction : Reaction) (key : StreamKey) (initiator : Uuid)
    (store : Store) : ((under reaction).containsInitiator key initiator store).2 = store := by
  cases reaction <;> rfl

theorem readHeader_under (reaction : Reaction) (key : StreamKey) (store : Store) :
    ((under reaction).readHeader key store).2 = store := by
  cases reaction <;> rfl

theorem proper_of_readHeader {store : Store} {settings : List StoreSettings}
    {commits : List Commit} (follows : store.Follows settings commits) {reaction : Reaction}
    {key : StreamKey} {version : Version}
    (shown : ((under reaction).readHeader key store).1 = .ok (some version)) : version.Proper := by
  have header : store.header key = some version := by
    cases reaction with
    | fails error => cases shown
    | _ => exact Except.ok.inj shown
  rw [(follows.header_eq_some header).1]
  exact Version.proper_ofCount _

end Store

namespace Writer

theorem committed?_start (write : Write) (limit : Nat) : (start write limit).committed? = none := by
  cases filled : write.events <;> simp [start, filled, committed?]

theorem committed?_of_unfinished {writer : Writer} (unfinished : ¬writer.IsFinished) :
    writer.committed? = none := by
  obtain ⟨write, limit, phase, retries⟩ := writer
  cases phase with
  | finished result committed => exact absurd ⟨result, committed, rfl⟩ unfinished
  | _ => rfl

/-- What each phase says about what the writer plans and submits. -/
def Plans (settings : StoreSettings) (write : Write) : Phase → Prop
  | .planning baseline => write.events ≠ [] ∧ baseline.Proper
  | .submitting transaction => write.Yields settings transaction
  | .finished _ (some transaction) => write.Yields settings transaction
  | .finished _ none => True
  | _ => write.events ≠ []

theorem plans_start (settings : StoreSettings) {write : Write} (proper : write.retrieved.Proper)
    (limit : Nat) : Plans settings write (start write limit).phase := by
  cases filled : write.events with
  | nil => simp [start, filled, Plans]
  | cons event rest =>
    simp only [start, filled, Plans]
    exact ⟨by simp, proper⟩

theorem Plans.of_committed {settings : StoreSettings} {write : Write} {writer : Writer}
    {transaction : Transaction} (plans : Plans settings write writer.phase)
    (committed : writer.committed? = some transaction) : write.Yields settings transaction := by
  obtain ⟨write, limit, phase, retries⟩ := writer
  cases phase with
  | finished result known =>
    obtain rfl : known = some transaction := committed
    exact plans
  | _ => cases committed

/-- What a writer and a store may be after a step that the storage has taken in some way. -/
structure Advances (settings : StoreSettings) (writer : Writer) (store : Store) (next : Writer)
    (after : Store) : Prop where
  write : next.write = writer.write
  plans : Plans settings writer.write next.phase
  store : next.committed? = none ∧ after = store ∨
    ∃ transaction, next.committed? = some transaction ∧
      (store.stream transaction.stream).accepts transaction = true ∧
      after = (store.submit transaction).1

theorem Advances.follows {settings : StoreSettings} {writer next : Writer} {store after : Store}
    {commits : List Commit} (advances : Advances settings writer store next after)
    (follows : store.Follows [settings] commits) (number : Nat) :
    after.Follows [settings]
      (commits ++ (next.committed?.map (Commit.mk number writer.write)).toList) := by
  rcases advances.store with ⟨none, rfl⟩ | ⟨transaction, some, accepted, rfl⟩
  · rw [none]
    simpa using follows
  · obtain ⟨filled, baseline, proper, planned⟩ := advances.plans.of_committed some
    rw [some]
    exact follows.submit List.mem_cons_self planned proper filled accepted number

theorem advances_submitted {settings : StoreSettings} {writer : Writer} {transaction : Transaction}
    (yields : writer.write.Yields settings transaction) (reaction : Reaction) (store : Store) :
    let answered := (Store.under reaction).submit transaction store
    Advances settings writer store (writer.submitted transaction answered.1) answered.2 := by
  have refused :
      Advances settings writer store (writer.submitted transaction (.ok .conflict)) store := by
    rw [submitted]
    split
    · exact ⟨rfl, yields.filled, .inl ⟨rfl, rfl⟩⟩
    · exact ⟨rfl, yields.filled, .inl ⟨rfl, rfl⟩⟩
  cases reaction with
  | refuses => exact refused
  | fails error => exact ⟨rfl, trivial, .inl ⟨rfl, rfl⟩⟩
  | serves =>
    cases answered : (store.stream transaction.stream).accepts transaction with
    | true =>
      simp only [Store.under, Store.backend, Store.submit_of_accepts answered]
      refine ⟨rfl, yields, .inr ⟨transaction, rfl, answered, ?_⟩⟩
      rw [Store.submit_of_accepts answered]
    | false =>
      simp only [Store.under, Store.backend, Store.submit_of_refuses answered]
      exact refused

/-- However the storage takes the calls of a writer. -/
theorem advances_step {listed : List StoreSettings} {commits : List Commit} {store : Store}
    (follows : store.Follows listed commits) {writer : Writer} {planner : Planner}
    (plans : Plans planner.settings writer.write writer.phase) (unfinished : ¬writer.IsFinished)
    (reaction : Reaction) :
    let after := writer.step (Store.under reaction) planner store
    Advances planner.settings writer store after.1 after.2.2 ∧
      after.2.1.settings = planner.settings := by
  obtain ⟨write, limit, phase, retries⟩ := writer
  cases phase with
  | planning baseline =>
    obtain ⟨filled, start⟩ := plans
    cases made : planner.plan write baseline with
    | ok both =>
      obtain ⟨planned, same⟩ := Planner.planned_of_plan made
      simp only [step, made]
      exact ⟨⟨rfl, ⟨filled, baseline, start, planned⟩, .inl ⟨rfl, rfl⟩⟩, same⟩
    | error error =>
      simp only [step, made, and_true]
      exact ⟨rfl, trivial, .inl ⟨rfl, rfl⟩⟩
  | submitting transaction => exact ⟨advances_submitted plans reaction store, rfl⟩
  | searching =>
    simp only [step, searched, Store.containsInitiator_under, and_true]
    split
    · exact ⟨rfl, plans, .inl ⟨rfl, rfl⟩⟩
    · exact ⟨rfl, plans, .inl ⟨rfl, rfl⟩⟩
    · exact ⟨rfl, trivial, .inl ⟨rfl, rfl⟩⟩
  | confirming =>
    simp only [step, confirmed, Store.readHeader_under, and_true]
    split
    · exact ⟨rfl, trivial, .inl ⟨rfl, rfl⟩⟩
    · exact ⟨rfl, trivial, .inl ⟨rfl, rfl⟩⟩
  | measuring =>
    simp only [step, measured, Store.readHeader_under, and_true]
    split
    · split
      · split
        · rename_i shown _
          exact ⟨rfl, ⟨plans, Store.proper_of_readHeader follows shown⟩, .inl ⟨rfl, rfl⟩⟩
        · exact ⟨rfl, trivial, .inl ⟨rfl, rfl⟩⟩
      · exact ⟨rfl, trivial, .inl ⟨rfl, rfl⟩⟩
    · exact ⟨rfl, trivial, .inl ⟨rfl, rfl⟩⟩
  | finished result committed => exact absurd ⟨result, committed, rfl⟩ unfinished

end Writer

namespace Outlet

/-- What a standing says of the writer. -/
def Standing.Suits (writer : Writer) : Standing → Prop
  | .fresh | .entering => writer.committed? = none
  | .publishing transaction _ => writer.committed? = some transaction
  | _ => True

def Standing.IsInside : Standing → Prop
  | .working | .hearing _ | .publishing _ _ => True
  | _ => False

/-- How far a job has come at the gate of its stream. -/
def Standing.Allows : Standing → Option Gates.Stage → Prop
  | .fresh, stage? | .done, stage? => stage? = none
  | .entering, stage? => stage? = some .arrived ∨ stage? = some .waiting ∨ stage? = some .called
  | .leaving, stage? => stage? = some .inside ∨ stage? = some .released ∨ stage? = some .leaving
  | _, stage? => stage? = some .inside

namespace Job

/-- The writer, once it has heard of its last call. -/
def upcoming (job : Job) : Writer :=
  match job.standing with
  | .hearing next => next
  | _ => job.writer

/-- The transaction that the job has committed and still has to give to the consumer at a place. -/
def owes (job : Job) (place : Nat) : Option Transaction :=
  match job.standing with
  | .working | .hearing _ => job.upcoming.committed?
  | .publishing transaction next => if next ≤ place then some transaction else none
  | _ => none

theorem isInside_of_owes {job : Job} {place : Nat} {transaction : Transaction}
    (owes : job.owes place = some transaction) : job.standing.IsInside := by
  obtain ⟨writer, standing⟩ := job
  cases standing with
  | working | hearing | publishing => trivial
  | _ => cases owes

theorem owes_of_isDone {job : Job} (done : job.isDone = true) (place : Nat) :
    job.owes place = none := by
  obtain ⟨writer, standing⟩ := job
  cases standing with
  | done => rfl
  | _ => cases done

structure Sound (settings : StoreSettings) (job : Job) (visit? : Option Gates.Visit) : Prop where
  write : job.upcoming.write = job.writer.write
  plans : Writer.Plans settings job.writer.write job.upcoming.phase
  suits : job.standing.Suits job.writer
  allows : job.standing.Allows (visit?.map (·.stage))
  stream : ∀ visit, visit? = some visit → visit.stream = job.writer.write.stream

namespace Sound

variable {settings : StoreSettings} {job : Job} {visit? later? : Option Gates.Visit}

/-- Whatever a job owes, its writer may have made of its write. -/
theorem yields_of_owes (sound : job.Sound settings visit?) {place : Nat}
    {transaction : Transaction} (owes : job.owes place = some transaction) :
    job.writer.write.Yields settings transaction := by
  have plans := sound.plans
  have suits := sound.suits
  obtain ⟨writer, standing⟩ := job
  cases standing with
  | working | hearing => exact plans.of_committed owes
  | publishing published next =>
    change (if next ≤ place then some published else none) = some transaction at owes
    split at owes
    · exact plans.of_committed (suits.trans owes)
    · cases owes
  | _ => cases owes

theorem exists_visit (sound : job.Sound settings visit?) (inside : job.standing.IsInside) :
    ∃ visit, visit? = some visit ∧ visit.stage.ShutsGate ∧
      visit.stream = job.writer.write.stream := by
  have allows : visit?.map (·.stage) = some .inside := by
    have allows := sound.allows
    obtain ⟨writer, standing⟩ := job
    cases standing with
    | working | hearing | publishing => exact allows
    | _ => cases inside
  obtain ⟨visit, rfl, stage⟩ := Option.map_eq_some_iff.mp allows
  exact ⟨visit, rfl, .inr stage, sound.stream visit rfl⟩

/-- A job that is handed the gate goes on waiting to notice it. -/
theorem drifts (sound : job.Sound settings visit?) (drifts : Gates.Drifts visit? later?) :
    job.Sound settings later? := by
  cases drifts with
  | rests => exact sound
  | @called visit stage =>
    refine { sound with allows := ?_, stream := ?_ }
    · have allows := sound.allows
      rw [Option.map_some, stage] at allows
      cases standing : job.standing with
      | entering => exact .inr (.inr rfl)
      | _ => simp [standing, Standing.Allows] at allows
    · rintro _ ⟨⟩
      exact sound.stream visit rfl

/-- A job that hears of nothing may stand elsewhere. -/
theorem stand (sound : job.Sound settings visit?) (heard : job.upcoming = job.writer)
    {standing : Standing} (hears : Job.upcoming ⟨job.writer, standing⟩ = job.writer)
    (suits : standing.Suits job.writer) (allows : standing.Allows (later?.map (·.stage)))
    (stream : ∀ visit, later? = some visit → visit.stream = job.writer.write.stream) :
    Sound settings { job with standing := standing } later? where
  write := by rw [hears]
  plans := by
    rw [hears]
    exact heard ▸ sound.plans
  suits := suits
  allows := allows
  stream := stream

/-- A job on its way in stands at the gate, or inside. -/
theorem inward (sound : job.Sound settings visit?) {move : Gates.Move}
    (leads : Gates.Leads visit? move later?) (heard : job.upcoming = job.writer)
    (nothing : job.writer.committed? = none)
    (inward : move = .arrive job.writer.write.stream ∨ move = .ask ∨ move = .enter) :
    Sound settings { job with standing := .inward (later?.map (·.stage)) } later? := by
  have stream := leads.stream_eq sound.stream (by rintro other rfl; simpa using inward)
  cases leads with
  | arrives => exact sound.stand heard rfl nothing (.inl rfl) stream
  | queues stage => exact sound.stand heard rfl nothing (.inr (.inl rfl)) stream
  | goesIn stage | follows stage => exact sound.stand heard rfl trivial rfl stream
  | _ => simp at inward

/-- A job on its way out refers to the gate, or looks after the table, or has gone. -/
theorem outward (sound : job.Sound settings visit?) {move : Gates.Move}
    (leads : Gates.Leads visit? move later?) (heard : job.upcoming = job.writer)
    (outward : move = .release ∨ move = .forget ∨ move = .tidy) :
    Sound settings { job with standing := .outward (later?.map (·.stage)) } later? := by
  have stream := leads.stream_eq sound.stream (by rintro other rfl; simp at outward)
  cases leads with
  | releases stage => exact sound.stand heard rfl trivial (.inr (.inl rfl)) stream
  | forgets stage => exact sound.stand heard rfl trivial (.inr (.inr rfl)) stream
  | vanishes stage | tidies stage => exact sound.stand heard rfl trivial rfl stream
  | _ => simp at outward

end Sound

end Job

end Outlet

end EventSourcing
