import EventSourcing.Proofs.Capacity
import EventSourcing.Proofs.Fleet.Draws
import EventSourcing.Proofs.Submission

/-!
Transactions as they are drafted. A writer may draft its transaction more than once, and its
database may draft for others in between. Whatever it comes to submit was drafted at one moment,
with one reading of the clock and with the identities that came next from the source at that moment.
-/

namespace EventSourcing

namespace Planner

/-- The identity at a place is derived from the initiator and the place, or it is the one that
comes up there from the source. -/
theorem getElem?_eventIds {planner : Planner} {initiator : Uuid} {count place : Nat} {id : Uuid}
    (found : (planner.eventIds initiator count)[place]? = some id) :
    id = if planner.Derives initiator then initiator.derived place
      else planner.ids.draw (planner.ids.issued + place) := by
  unfold eventIds IdSource.upcoming at found
  split at found
  all_goals
    rw [List.getElem?_map, Option.map_eq_some_iff] at found
    obtain ⟨number, inside, rfl⟩ := found
    obtain ⟨-, rfl⟩ := List.getElem?_eq_some_iff.mp inside
    simp [*]

/-- Whether a database goes on with its settings, its clock and its source. -/
structure GoesOn (planner later : Planner) : Prop where
  draws : planner.DrawsOn later
  clock : planner.clock.GoesOn later.clock

namespace GoesOn

variable {planner later last : Planner}

theorem refl (planner : Planner) : planner.GoesOn planner where
  draws := ⟨rfl, rfl, Nat.le_refl _⟩
  clock := ⟨rfl, Nat.le_refl _⟩

theorem trans (first : planner.GoesOn later) (second : later.GoesOn last) :
    planner.GoesOn last where
  draws := first.draws.trans second.draws
  clock := ⟨second.clock.reading.trans first.clock.reading,
    Nat.le_trans first.clock.taken second.clock.taken⟩

theorem used (planner : Planner) (initiator : Uuid) (count : Nat) :
    planner.GoesOn (planner.used initiator count) where
  draws := by
    unfold Planner.used
    split
    · exact ⟨rfl, rfl, Nat.le_refl _⟩
    · exact ⟨rfl, rfl, Nat.le_add_right _ _⟩
  clock := ⟨rfl, Nat.le_succ _⟩

end GoesOn

end Planner

/-- Whether a transaction was planned for a write to go on from a baseline, at some time between two
states of a database. -/
def Transaction.Drafted (transaction : Transaction) (since now : Planner) (write : Write)
    (baseline : Version) : Prop :=
  ∃ planner layout, since.GoesOn planner ∧
    (planner.used write.origin.initiator write.events.length).GoesOn now ∧
    planner.settings.layoutFor write.events.length = .ok layout ∧
    transaction = planner.transaction write baseline layout

/-- What is planned for a write that is not empty fits into the settings. -/
theorem StoreSettings.length_records_le {settings : StoreSettings} {events : List StoredEvent}
    (filled : events ≠ []) {layout : Layout}
    (planned : settings.layoutFor events.length = .ok layout) :
    (layout.records events).length + 1 ≤ settings.maxOperations := by
  have some : 0 < events.length := List.length_pos_iff.mpr filled
  have fits : (layout.records events).length ≤ settings.recordBudget ∧
      0 < settings.recordBudget := by
    rcases (settings.layoutFor_eq_ok_iff _ layout).mp planned with
      ⟨few, rfl⟩ | ⟨many, -, inside, rfl⟩
    · exact ⟨Nat.le_trans (Nat.le_of_eq (List.length_map _)) few, Nat.lt_of_lt_of_le some few⟩
    · have budgeted : 0 < settings.recordBudget :=
        Nat.pos_of_mul_pos_right (Nat.lt_of_lt_of_le some inside)
      have needed := (settings.packetsFor_le_iff events.length).mpr inside
      refine ⟨?_, budgeted⟩
      calc ((Layout.packets (settings.packetsFor events.length)).records events).length
        _ = ((evenRuns events (settings.packetsFor events.length)).filterMap
              Packet.ofList?).length := List.length_map _
        _ ≤ (evenRuns events (settings.packetsFor events.length)).length :=
            List.length_filterMap_le _ _
        _ = max (settings.packetsFor events.length) 1 := length_evenRuns _ _
        _ ≤ settings.recordBudget := Nat.max_le.mpr ⟨needed, budgeted⟩
  rw [recordBudget] at fits
  omega

namespace Transaction.Drafted

variable {transaction : Transaction} {since now later : Planner} {write : Write}
  {baseline : Version}

theorem goesOn (drafted : transaction.Drafted since now write baseline)
    (goes : now.GoesOn later) : transaction.Drafted since later write baseline := by
  obtain ⟨planner, layout, before, after, rest⟩ := drafted
  exact ⟨planner, layout, before, after.trans goes, rest⟩

theorem planned (drafted : transaction.Drafted since now write baseline) :
    Planned since.settings write baseline transaction := by
  obtain ⟨planner, layout, before, -, fits, same⟩ := drafted
  have kept := before.draws.settings
  exact ⟨planner, layout, kept, kept ▸ fits, same⟩

theorem operationCount_le (drafted : transaction.Drafted since now write baseline)
    (filled : write.events ≠ []) : transaction.operationCount ≤ since.settings.maxOperations := by
  have planned := drafted.planned
  obtain ⟨planner, layout, before, -, fits, rfl⟩ := drafted
  have counted := planned.length_events
  rw [Planner.events_transaction] at counted
  rw [← counted] at fits
  rw [← before.draws.settings]
  refine StoreSettings.length_records_le (fun none => ?_) fits
  rw [none] at counted
  exact filled (List.length_eq_zero_iff.mp counted.symm)

/-- All events were drafted at one moment. The clock was read for them, and what was drawn for them
was drawn in a row; so much is said of the moment by the states of the database before and after. -/
theorem exists_moment (drafted : transaction.Drafted since now write baseline) :
    ∃ number first, (since.clock.taken ≤ number ∧ number < now.clock.taken) ∧
      since.ids.issued ≤ first ∧
      (¬since.Derives write.origin.initiator →
        first + write.events.length ≤ now.ids.issued) ∧
      ∀ place event, transaction.events[place]? = some event →
        ∃ new, write.events[place]? = some new ∧
          event = write.stored baseline (since.clock.reading number) place
            (if since.Derives write.origin.initiator then write.origin.initiator.derived place
              else since.ids.draw (first + place)) new := by
  obtain ⟨planner, layout, before, after, -, rfl⟩ := drafted
  have derives : planner.Derives write.origin.initiator ↔ since.Derives write.origin.initiator := by
    rw [Planner.Derives, before.draws.settings, Planner.Derives]
  refine ⟨planner.clock.taken, planner.ids.issued, ⟨before.clock.taken, ?_⟩, before.draws.issued,
    ?_, ?_⟩
  · exact Nat.lt_of_lt_of_le (Nat.lt_succ_self _) after.clock.taken
  · intro draws
    have issued := after.draws.issued
    rwa [Planner.used, if_neg (mt derives.mp draws)] at issued
  · intro place event found
    rw [Planner.events_transaction] at found
    obtain ⟨id, new, drawn, listed, rfl⟩ := write.getElem?_placed _ _ found
    refine ⟨new, listed, ?_⟩
    rw [Planner.getElem?_eventIds drawn, Nat.zero_add, Clock.now, before.clock.reading,
      before.draws.draw]
    simp only [derives]

end Transaction.Drafted

namespace Writer

theorem goesOn_step (writer : Writer) (planner : Planner) (store : Store) :
    planner.GoesOn (writer.step Store.backend planner store).2.1 := by
  obtain ⟨reading, taken, -⟩ := writer.clock_step planner store
  exact ⟨writer.planner_drawsOn planner store, reading, taken⟩

/-- How far a writer can have come with a write, and its database with it. Between two steps of the
writer, others may change the store and go on with the database. -/
inductive Course (since : Planner) (write : Write) : Writer → Planner → Prop where
  | starts (limit : Nat) : Course since write (start write limit) since
  | waits {writer : Writer} {now later : Planner} (before : Course since write writer now)
      (goes : now.GoesOn later) : Course since write writer later
  | steps {writer : Writer} {now : Planner} (before : Course since write writer now)
      (store : Store) :
      Course since write (writer.step Store.backend now store).1
        (writer.step Store.backend now store).2.1

namespace Course

variable {since now : Planner} {write : Write} {writer : Writer}

theorem write_eq (course : Course since write writer now) : writer.write = write := by
  induction course with
  | starts limit => rfl
  | waits before goes ih => exact ih
  | @steps writer now before store ih => exact (writer.turn_step now store).1.write_eq.trans ih

theorem goesOn (course : Course since write writer now) : since.GoesOn now := by
  induction course with
  | starts limit => exact .refl _
  | waits before goes ih => exact ih.trans goes
  | @steps writer now before store ih => exact ih.trans (writer.goesOn_step now store)

/-- Whatever a writer is about to submit, or has committed, was drafted on its way. -/
theorem drafted (course : Course since write writer now) {transaction : Transaction}
    (held : writer.phase.transaction? = some transaction) :
    ∃ baseline, transaction.Drafted since now write baseline := by
  induction course with
  | starts limit =>
    simp only [start] at held
    split at held <;> cases held
  | waits before goes ih =>
    obtain ⟨baseline, drafted⟩ := ih held
    exact ⟨baseline, drafted.goesOn goes⟩
  | @steps writer now before store ih =>
    by_cases planning : ∃ baseline, writer.phase = .planning baseline
    · obtain ⟨baseline, phase⟩ := planning
      cases fits : now.settings.layoutFor writer.write.events.length with
      | error error =>
        simp only [step, phase, Planner.plan, fits, Except.map] at held
        cases held
      | ok layout =>
        simp only [step, phase, Planner.plan, fits, Except.map] at held ⊢
        obtain rfl := Option.some.inj held
        rw [before.write_eq] at fits ⊢
        exact ⟨baseline, now, layout, before.goesOn, .refl _, fits, rfl⟩
    · have idle : ∀ baseline, writer.phase ≠ .planning baseline :=
        fun baseline phase => planning ⟨baseline, phase⟩
      rw [planner_step idle]
      exact ih (transaction?_of_step idle held)

theorem run (course : Course since write writer now) (fuel : Nat) (store : Store) :
    Course since write (writer.run Store.backend fuel now store).1
      (writer.run Store.backend fuel now store).2.1 := by
  induction fuel generalizing writer now store with
  | zero => exact course
  | succ fuel ih =>
    rw [run_succ]
    exact ih (course.steps store) _

end Course

/-- Without a commit, a writer does not come to know of one. -/
theorem Turn.uncommitted {settings : StoreSettings} {writer writer' : Writer}
    {store store' : Store} (turn : Turn settings writer store writer' store' none)
    (uncommitted : ∀ result transaction, writer.phase ≠ .finished result (some transaction)) :
    ∀ result transaction, writer'.phase ≠ .finished result (some transaction) := by
  intro result transaction
  cases turn with
  | conflicts phase =>
    dsimp only
    split <;> simp
  | searches phase =>
    dsimp only
    split <;> simp
  | rests phase => exact uncommitted result transaction
  | _ => simp [fail]

/-- What a writer that is left to itself has committed was accepted by the store as it was, and is
all that has changed there. -/
theorem commit_of_run {writer : Writer} {fuel : Nat} {planner : Planner} {store : Store}
    (uncommitted : ∀ result transaction, writer.phase ≠ .finished result (some transaction))
    {result : Except Error Version} {transaction : Transaction}
    (done : (writer.run Store.backend fuel planner store).1.phase =
      .finished result (some transaction)) :
    (store.stream transaction.stream).accepts transaction = true ∧
      result = .ok transaction.newVersion ∧
      (writer.run Store.backend fuel planner store).2.2 = (store.submit transaction).1 := by
  induction fuel generalizing writer planner with
  | zero => exact absurd done (uncommitted _ _)
  | succ fuel ih =>
    obtain ⟨turn, -⟩ := writer.turn_step planner store
    rw [run_succ] at done ⊢
    generalize writer.step Store.backend planner store = next at turn done ⊢
    obtain ⟨writer', planner', store'⟩ := next
    dsimp only at turn done ⊢
    cases committing : writer.commits? store with
    | none =>
      rw [committing] at turn
      obtain rfl : store' = store := turn.store_eq
      exact ih (turn.uncommitted uncommitted) done
    | some other =>
      rw [committing] at turn
      cases turn with
      | commits phase accepted =>
        rw [run_of_isFinished ⟨_, _, rfl⟩] at done ⊢
        obtain ⟨rfl, same⟩ := Phase.finished.inj done
        obtain rfl := Option.some.inj same
        exact ⟨accepted, rfl, rfl⟩

end Writer

/-- What a write on its own has committed. -/
theorem Store.drafted_of_write {planner : Planner} {write : Write} {store : Store}
    {transaction : Transaction}
    (committed : (Store.backend.write planner write store).committed = some transaction) :
    let written := Store.backend.write planner write store
    (∃ baseline, transaction.Drafted planner written.planner write baseline) ∧
      (store.stream transaction.stream).accepts transaction = true ∧
      written.result = .ok transaction.newVersion ∧
      written.state = (store.submit transaction).1 := by
  intro written
  obtain ⟨done, later, left⟩ := Store.backend.write_eq planner write store
  let start := Writer.start write planner.settings.retryLimit
  have fresh : ∀ result transaction, start.phase ≠ .finished result (some transaction) := by
    intro result transaction
    by_cases empty : write.events = []
    · rw [Writer.phase_start_of_nil empty]
      simp
    · rw [Writer.phase_start_of_ne_nil empty]
      simp
  rw [committed] at done
  obtain ⟨accepted, same, submitted⟩ := Writer.commit_of_run fresh done
  have course : Writer.Course planner write start planner := .starts _
  have drafted := (course.run start.stepsLeft store).drafted (by rw [done]; rfl)
  exact ⟨later ▸ drafted, accepted, same, left ▸ submitted⟩

namespace Fleet

variable {fleet : Fleet} {since now : Planner} {write : Write} {database number : Nat}

/-- Whether a job of a database is on its way with a write since some state of the database. -/
structure Pursues (fleet : Fleet) (since : Planner) (write : Write) (database number : Nat)
    (now : Planner) : Prop where
  found : fleet.planners[database]? = some now
  course : ∃ writer, fleet.jobs[number]? = some ⟨database, writer⟩ ∧
    Writer.Course since write writer now

theorem pursues_launch (found : fleet.planners[database]? = some since) (write : Write) :
    (fleet.launch database write).Pursues since write database fleet.jobs.length since where
  found := by
    simp only [launch, found]
  course := by
    simp only [launch, found]
    exact ⟨_, List.getElem?_concat_length, .starts _⟩

theorem Pursues.launch (pursues : fleet.Pursues since write database number now) (chosen : Nat)
    (other : Write) : (fleet.launch chosen other).Pursues since write database number now := by
  unfold Fleet.launch
  split
  · exact pursues
  · obtain ⟨writer, busy, course⟩ := pursues.course
    refine ⟨pursues.found, writer, ?_, course⟩
    rw [List.getElem?_append_left (List.getElem?_eq_some_iff.mp busy).1]
    exact busy

theorem Pursues.advance (pursues : fleet.Pursues since write database number now) (other : Nat) :
    ∃ later, (fleet.advance other).Pursues since write database number later := by
  obtain ⟨writer, busy, course⟩ := pursues.course
  cases working : fleet.jobs[other]? with
  | none => exact ⟨now, by simpa only [Fleet.advance, working] using pursues⟩
  | some job =>
    obtain ⟨chosen, worker⟩ := job
    cases found : fleet.planners[chosen]? with
    | none => exact ⟨now, by simpa only [Fleet.advance, working, found] using pursues⟩
    | some known =>
      have inside := (List.getElem?_eq_some_iff.mp busy).1
      rw [advance_eq working found]
      by_cases same : chosen = database
      · -- The database goes on, with the job itself or with another one.
        subst same
        obtain rfl : known = now := Option.some.inj (found.symm.trans pursues.found)
        refine ⟨_, List.getElem?_set_self (List.getElem?_eq_some_iff.mp found).1, ?_⟩
        by_cases here : other = number
        · subst here
          obtain rfl : worker = writer := (Job.mk.inj (Option.some.inj (working.symm.trans busy))).2
          exact ⟨_, List.getElem?_set_self inside, course.steps fleet.store⟩
        · exact ⟨writer, (List.getElem?_set_ne here).trans busy,
            course.waits (worker.goesOn_step known fleet.store)⟩
      · have apart : other ≠ number := by
          rintro rfl
          exact same (Job.mk.inj (Option.some.inj (working.symm.trans busy))).1
        exact ⟨now, (List.getElem?_set_ne same).trans pursues.found, writer,
          (List.getElem?_set_ne apart).trans busy, course⟩

/-- Whatever a fleet does, its store comes of transactions. -/
theorem Step.reached {after : Fleet} (step : fleet.Step after) (reached : fleet.store.Reached) :
    after.store.Reached := by
  cases step with
  | rests => exact reached
  | launches proper found => exact reached
  | @advances _ _ _ _ _ _ committed busy found turn same =>
    cases committed with
    | none => exact turn.store_eq ▸ reached
    | some transaction =>
      obtain ⟨-, -, rfl⟩ := turn.of_commits
      exact reached.submitted transaction

theorem Step.store_of_commit {after : Fleet} (step : fleet.Step after) {commit : Commit}
    (made : after.commits = fleet.commits ++ [commit]) :
    after.store = (fleet.store.submit commit.transaction).1 := by
  cases step with
  | rests => simp at made
  | launches proper found => simp at made
  | @advances number job _ _ _ _ committed busy found turn same =>
    rw [List.append_cancel_left_eq] at made
    cases committed with
    | none => simp at made
    | some transaction =>
      obtain rfl : Commit.mk number job.writer.write transaction = commit := by simpa using made
      exact turn.of_commits.2.2

/-- A job that has committed has ended well, at the version that its transaction goes to. -/
theorem Settled.job_of_commit (settled : fleet.Settled) (inv : fleet.Inv) {commit : Commit}
    (member : commit ∈ fleet.commits) :
    ∃ database writer, fleet.jobs[commit.job]? = some ⟨database, writer⟩ ∧
      writer.phase =
        .finished (.ok commit.transaction.newVersion) (some commit.transaction) := by
  obtain ⟨database, writer, version, busy, done⟩ := settled commit member
  obtain ⟨settings, -, onCourse⟩ := inv.jobs commit.job _ busy
  obtain ⟨rfl, -⟩ := onCourse.at_phase done
  exact ⟨database, writer, busy, done⟩

end Fleet

end EventSourcing
