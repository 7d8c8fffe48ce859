import EventSourcing.Proofs.History
import EventSourcing.Store.Backend

/-!
Writers side by side. Databases with settings, clocks and sources of identities of their own share
one store; each write is a job of one of them. A job does one thing at a time, planning or one call
of the storage, and between any two things of one job all others may go on. Jobs that pass a gate
or that are left alone for ever are covered too: nothing says which job goes on next.
-/

namespace EventSourcing

/-- A database as it comes. -/
def Planner.plain : Planner where
  clock := .fixed default
  ids := .sequential

structure Job where
  database : Nat
  writer : Writer

/-- What one step makes of a writer and of the store, and the transaction that it commits. -/
inductive Writer.Turn (settings : StoreSettings) (writer : Writer) (store : Store) :
    Writer → Store → Option Transaction → Prop where
  | plans {baseline : Version} {transaction : Transaction}
      (phase : writer.phase = .planning baseline)
      (planned : Planned settings writer.write baseline transaction) :
      Turn settings writer store { writer with phase := .submitting transaction } store none
  | misfits {baseline : Version} {error : Error} (phase : writer.phase = .planning baseline)
      (refused : settings.layoutFor writer.write.events.length = .error error) :
      Turn settings writer store (writer.fail error) store none
  | commits {transaction : Transaction} (phase : writer.phase = .submitting transaction)
      (accepted : (store.stream transaction.stream).accepts transaction = true) :
      Turn settings writer store
        { writer with phase := .finished (.ok transaction.newVersion) (some transaction) }
        (store.submit transaction).1 (some transaction)
  | conflicts {transaction : Transaction} (phase : writer.phase = .submitting transaction)
      (refused : (store.stream transaction.stream).accepts transaction = false) :
      Turn settings writer store
        { writer with
          phase := if writer.write.origin.initiator = Uuid.nil then .measuring else .searching }
        store none
  | searches (phase : writer.phase = .searching) :
      Turn settings writer store
        { writer with
          phase :=
            if store.containsInitiator writer.write.stream writer.write.origin.initiator then
              .confirming
            else .measuring }
        store none
  | confirms (phase : writer.phase = .confirming) :
      Turn settings writer store
        { writer with
          phase := .finished (.ok ((store.header writer.write.stream).getD Version.absent)) none }
        store none
  | replans {version : Version} (phase : writer.phase = .measuring)
      (expected : writer.write.expected = .any)
      (shown : store.header writer.write.stream = some version)
      (allowed : writer.retries < writer.retryLimit) :
      Turn settings writer store
        { writer with phase := .planning version, retries := writer.retries + 1 } store none
  | fails (phase : writer.phase = .measuring) :
      Turn settings writer store
        (writer.fail (writer.unexpected (store.header writer.write.stream))) store none
  | rests {result : Except Error Version} {committed : Option Transaction}
      (phase : writer.phase = .finished result committed) :
      Turn settings writer store writer store none

namespace Writer.Turn

variable {settings : StoreSettings} {writer writer' : Writer} {store store' : Store}

/-- What a commit says of the turn that made it. -/
theorem of_commits {transaction : Transaction}
    (turn : Turn settings writer store writer' store' (some transaction)) :
    writer.phase = .submitting transaction ∧
      (store.stream transaction.stream).accepts transaction = true ∧
      store' = (store.submit transaction).1 := by
  cases turn with
  | commits phase accepted => exact ⟨phase, accepted, rfl⟩

/-- A turn without a commit leaves the store alone. -/
theorem store_eq (turn : Turn settings writer store writer' store' none) : store' = store := by
  cases turn <;> rfl

theorem write_eq {committed : Option Transaction}
    (turn : Turn settings writer store writer' store' committed) :
    writer'.write = writer.write := by
  cases turn <;> rfl

end Writer.Turn

theorem Store.outcome_submit (store : Store) (transaction : Transaction) :
    (store.submit transaction).2 =
      if (store.stream transaction.stream).accepts transaction then .committed else .conflict := by
  by_cases accepted : (store.stream transaction.stream).accepts transaction <;>
    simp [submit, accepted]

namespace Writer

/-- The transaction that the next step of a writer commits, if there is one. -/
def commits? (writer : Writer) (store : Store) : Option Transaction :=
  match writer.phase with
  | .submitting transaction =>
    if (store.stream transaction.stream).accepts transaction then some transaction else none
  | _ => none

theorem submitted_conflict (writer : Writer) (transaction : Transaction) :
    writer.submitted transaction (.ok .conflict) =
      { writer with
        phase := if writer.write.origin.initiator = Uuid.nil then .measuring else .searching } := by
  rw [submitted]
  split
  · rfl
  · rfl

theorem searched_ok (writer : Writer) (found : Bool) :
    writer.searched (.ok found) =
      { writer with phase := if found then .confirming else .measuring } := by
  cases found with
  | true => rfl
  | false => rfl

/-- All that a step over a store can do. -/
theorem turn_step (writer : Writer) (planner : Planner) (store : Store) :
    Turn planner.settings writer store (writer.step Store.backend planner store).1
        (writer.step Store.backend planner store).2.2 (writer.commits? store) ∧
      (writer.step Store.backend planner store).2.1.settings = planner.settings := by
  cases phase : writer.phase with
  | planning baseline =>
    cases made : planner.plan writer.write baseline with
    | ok both =>
      obtain ⟨planned, same⟩ := Planner.planned_of_plan made
      simp only [step, phase, made, commits?]
      exact ⟨.plans phase planned, same⟩
    | error error =>
      simp only [step, phase, made, commits?, and_true]
      exact .misfits phase (Planner.misfit_of_plan made)
  | submitting transaction =>
    cases answered : (store.stream transaction.stream).accepts transaction with
    | true =>
      simp only [step, phase, commits?, Store.backend, Store.outcome_submit, answered, submitted,
        if_true, and_true]
      exact .commits phase answered
    | false =>
      simp only [step, phase, commits?, Store.backend, Store.outcome_submit, answered,
        submitted_conflict, Store.submit_of_refuses answered, Bool.false_eq_true, if_false,
        and_true]
      exact .conflicts phase answered
  | searching =>
    simp only [step, phase, commits?, Store.backend, and_true, searched_ok]
    exact .searches phase
  | confirming =>
    simp only [step, phase, commits?, Store.backend, confirmed, and_true]
    exact .confirms phase
  | measuring =>
    simp only [step, phase, commits?, Store.backend, and_true, measured]
    split
    · split
      · exact .replans phase ‹_› ‹_› ‹_›
      · exact .fails phase
    · exact .fails phase
  | finished result committed =>
    simp only [step, phase, commits?, and_true]
    exact .rests phase

end Writer

structure Fleet where
  planners : List Planner
  store : Store := {}
  /-- Jobs in the order in which they were taken on. -/
  jobs : List Job := []
  /-- What the store has taken so far, the earliest first. No step looks at it. -/
  commits : List Commit := []

namespace Fleet

/-- Takes on a write. There is nobody to do so for a database that does not exist. -/
def launch (fleet : Fleet) (database : Nat) (write : Write) : Fleet :=
  match fleet.planners[database]? with
  | none => fleet
  | some planner =>
    { fleet with
      jobs := fleet.jobs ++ [⟨database, Writer.start write planner.settings.retryLimit⟩] }

/-- One step of one job. -/
def advance (fleet : Fleet) (number : Nat) : Fleet :=
  match fleet.jobs[number]? with
  | none => fleet
  | some job =>
    match fleet.planners[job.database]? with
    | none => fleet
    | some planner =>
      let (writer, planner, store) := job.writer.step Store.backend planner fleet.store
      { planners := fleet.planners.set job.database planner
        store := store
        jobs := fleet.jobs.set number { job with writer := writer }
        commits := fleet.commits ++
          ((job.writer.commits? fleet.store).map (Commit.mk number job.writer.write)).toList }

/-- What can happen next. Nobody can name a version below that of a stream without events. -/
inductive Action where
  | launch (database : Nat) (write : Write) (proper : write.retrieved.Proper)
  | advance (job : Nat)

def act (fleet : Fleet) : Action → Fleet
  | .launch database write _ => fleet.launch database write
  | .advance job => fleet.advance job

def run (fleet : Fleet) (actions : List Action) : Fleet :=
  actions.foldl act fleet

/-- Databases over a store that nothing was written to. -/
def opened (planners : List Planner) : Fleet := { planners := planners }

def settings (fleet : Fleet) : List StoreSettings :=
  fleet.planners.map (·.settings)

def events (fleet : Fleet) (key : StreamKey) : List StoredEvent :=
  (fleet.store.stream key).events

/-- All that an action can do. -/
inductive Step (fleet : Fleet) : Fleet → Prop where
  | rests : Step fleet fleet
  | launches {database : Nat} {write : Write} {settings : StoreSettings}
      (proper : write.retrieved.Proper) (found : fleet.settings[database]? = some settings) :
      Step fleet
        { fleet with
          jobs := fleet.jobs ++ [⟨database, Writer.start write settings.retryLimit⟩] }
  | advances {number : Nat} {job : Job} {settings : StoreSettings} {writer : Writer}
      {planners : List Planner} {store : Store} {committed : Option Transaction}
      (busy : fleet.jobs[number]? = some job)
      (found : fleet.settings[job.database]? = some settings)
      (turn : Writer.Turn settings job.writer fleet.store writer store committed)
      (same : planners.map (·.settings) = fleet.settings) :
      Step fleet
        { planners := planners
          store := store
          jobs := fleet.jobs.set number ⟨job.database, writer⟩
          commits := fleet.commits ++
            (committed.map (Commit.mk number job.writer.write)).toList }

theorem launch_step (fleet : Fleet) (database : Nat) {write : Write}
    (proper : write.retrieved.Proper) : fleet.Step (fleet.launch database write) := by
  unfold launch
  cases found : fleet.planners[database]? with
  | none => exact .rests
  | some planner =>
    have listed : fleet.settings[database]? = some planner.settings := by
      rw [settings, List.getElem?_map, found]
      rfl
    exact .launches proper listed

theorem advance_eq {fleet : Fleet} {number : Nat} {job : Job} {planner : Planner}
    (busy : fleet.jobs[number]? = some job)
    (found : fleet.planners[job.database]? = some planner) :
    fleet.advance number =
      { planners := fleet.planners.set job.database
          (job.writer.step Store.backend planner fleet.store).2.1
        store := (job.writer.step Store.backend planner fleet.store).2.2
        jobs := fleet.jobs.set number
          ⟨job.database, (job.writer.step Store.backend planner fleet.store).1⟩
        commits := fleet.commits ++
          ((job.writer.commits? fleet.store).map (Commit.mk number job.writer.write)).toList } := by
  simp only [advance, busy, found]

theorem advance_step (fleet : Fleet) (number : Nat) : fleet.Step (fleet.advance number) := by
  cases busy : fleet.jobs[number]? with
  | none =>
    simp only [advance, busy]
    exact .rests
  | some job =>
    cases found : fleet.planners[job.database]? with
    | none =>
      simp only [advance, busy, found]
      exact .rests
    | some planner =>
      obtain ⟨turn, same⟩ := job.writer.turn_step planner fleet.store
      have listed : fleet.settings[job.database]? = some planner.settings := by
        rw [settings, List.getElem?_map, found]
        rfl
      rw [advance_eq busy found]
      refine .advances busy listed turn ?_
      -- A planner changes its clock and its identities, never its settings.
      obtain ⟨inside, shown⟩ := List.getElem?_eq_some_iff.mp listed
      rw [List.map_set, same, ← shown]
      exact List.set_getElem_self inside

theorem act_step (fleet : Fleet) (action : Action) : fleet.Step (fleet.act action) := by
  cases action with
  | launch database write proper => exact fleet.launch_step database proper
  | advance job => exact fleet.advance_step job

namespace Step

variable {fleet after : Fleet}

theorem settings_eq (step : fleet.Step after) : after.settings = fleet.settings := by
  cases step with
  | rests => rfl
  | launches proper found => rfl
  | advances busy found turn same => exact same

/-- Nothing that was committed is taken back. -/
theorem commits_grow (step : fleet.Step after) : fleet.commits <+: after.commits := by
  cases step with
  | rests => exact List.prefix_refl _
  | launches proper found => exact List.prefix_refl _
  | advances busy found turn same => exact List.prefix_append _ _

/-- A job keeps its database and its write. -/
theorem job (step : fleet.Step after) {number : Nat} {job : Job}
    (busy : fleet.jobs[number]? = some job) :
    ∃ writer, after.jobs[number]? = some ⟨job.database, writer⟩ ∧
      writer.write = job.writer.write := by
  obtain ⟨inside, -⟩ := List.getElem?_eq_some_iff.mp busy
  cases step with
  | rests => exact ⟨job.writer, busy, rfl⟩
  | launches proper found =>
    refine ⟨job.writer, ?_, rfl⟩
    rw [List.getElem?_append_left inside]
    exact busy
  | @advances other task _ writer _ _ _ working found turn same =>
    by_cases here : other = number
    · subst here
      obtain rfl : job = task := Option.some.inj (busy.symm.trans working)
      exact ⟨writer, List.getElem?_set_self inside, turn.write_eq⟩
    · refine ⟨job.writer, ?_, rfl⟩
      rw [List.getElem?_set_ne here]
      exact busy

/-- Every commit is made by a job that was about to submit it. -/
theorem exists_job_of_commit (step : fleet.Step after) {commit : Commit}
    (made : after.commits = fleet.commits ++ [commit]) :
    ∃ job, fleet.jobs[commit.job]? = some job ∧ job.writer.write = commit.write ∧
      job.writer.phase = .submitting commit.transaction ∧
      (fleet.store.stream commit.transaction.stream).accepts commit.transaction = true := by
  cases step with
  | rests => simp at made
  | launches proper found => simp at made
  | @advances number job _ _ _ _ committed busy found turn same =>
    rw [List.append_cancel_left_eq] at made
    cases committed with
    | none => simp at made
    | some transaction =>
      obtain rfl : Commit.mk number job.writer.write transaction = commit := by simpa using made
      obtain ⟨phase, accepted, -⟩ := turn.of_commits
      exact ⟨job, busy, rfl, phase, accepted⟩

end Step

theorem settings_run (fleet : Fleet) (actions : List Action) :
    (fleet.run actions).settings = fleet.settings := by
  induction actions generalizing fleet with
  | nil => rfl
  | cons action rest ih => exact (ih (fleet.act action)).trans (fleet.act_step action).settings_eq

theorem commits_run (fleet : Fleet) (actions : List Action) :
    fleet.commits <+: (fleet.run actions).commits := by
  induction actions generalizing fleet with
  | nil => exact List.prefix_refl _
  | cons action rest ih =>
    exact (fleet.act_step action).commits_grow.trans (ih (fleet.act action))

theorem job_run (fleet : Fleet) (actions : List Action) {number : Nat} {job : Job}
    (busy : fleet.jobs[number]? = some job) :
    ∃ writer, (fleet.run actions).jobs[number]? = some ⟨job.database, writer⟩ ∧
      writer.write = job.writer.write := by
  induction actions generalizing fleet job with
  | nil => exact ⟨job.writer, busy, rfl⟩
  | cons action rest ih =>
    obtain ⟨writer, still, same⟩ := (fleet.act_step action).job busy
    obtain ⟨last, reached, kept⟩ := ih (fleet.act action) still
    exact ⟨last, reached, kept.trans same⟩

end Fleet

end EventSourcing
