import EventSourcing.Store
import EventSourcing.Store.Writer

/-!
Storage behind a store, as the four questions that can be put to it, and writes that run on their
own.
-/

namespace EventSourcing

/-- Answers from a storage whose state is a `σ`. -/
structure Backend (σ : Type) where
  submit : Transaction → σ → Except Error Outcome × σ
  readHeader : StreamKey → σ → Except Error (Option Version) × σ
  containsInitiator : StreamKey → Uuid → σ → Except Error Bool × σ
  readRecords : StreamKey → σ → Except Error (List Record) × σ

/-- A store that is always at hand. -/
def Store.backend : Backend Store where
  submit transaction store := (.ok (store.submit transaction).2, (store.submit transaction).1)
  readHeader key store := (.ok (store.header key), store)
  containsInitiator key initiator store := (.ok (store.containsInitiator key initiator), store)
  readRecords key store := (.ok (store.records key), store)

namespace Writer

variable {σ : Type}

/-- One step of a writer: planning, or one call of the storage. -/
def step (backend : Backend σ) (writer : Writer) (planner : Planner) (state : σ) :
    Writer × Planner × σ :=
  match writer.phase with
  | .planning baseline =>
    match planner.plan writer.write baseline with
    | .ok (transaction, later) => (writer.planned (.ok transaction), later, state)
    | .error error => (writer.planned (.error error), planner, state)
  | .submitting transaction =>
    let (answer, state) := backend.submit transaction state
    (writer.submitted transaction answer, planner, state)
  | .searching =>
    let (answer, state) :=
      backend.containsInitiator writer.write.stream writer.write.origin.initiator state
    (writer.searched answer, planner, state)
  | .confirming =>
    let (answer, state) := backend.readHeader writer.write.stream state
    (writer.confirmed answer, planner, state)
  | .measuring =>
    let (answer, state) := backend.readHeader writer.write.stream state
    (writer.measured answer, planner, state)
  | .finished _ _ => (writer, planner, state)

/-- Takes at most `fuel` steps. -/
def run (backend : Backend σ) : Nat → Writer → Planner → σ → Writer × Planner × σ
  | 0, writer, planner, state => (writer, planner, state)
  | fuel + 1, writer, planner, state =>
    match writer.phase with
    | .finished _ _ => (writer, planner, state)
    | _ =>
      let (writer, planner, state) := writer.step backend planner state
      run backend fuel writer planner state

/-- Each step of an unfinished writer brings it nearer to its end. -/
theorem stepsLeft_step (backend : Backend σ) (writer : Writer) (planner : Planner) (state : σ)
    (unfinished : ¬writer.IsFinished) :
    (writer.step backend planner state).1.stepsLeft < writer.stepsLeft := by
  obtain ⟨write, limit, phase, retries⟩ := writer
  cases phase with
  | planning baseline =>
    cases prepared : planner.plan write baseline <;>
      simp [step, prepared, planned, fail, stepsLeft]
  | submitting transaction =>
    cases answered : (backend.submit transaction state).1 with
    | error error => simp [step, answered, submitted, fail, stepsLeft]
    | ok outcome =>
      cases outcome with
      | committed => simp [step, answered, submitted, stepsLeft]
      | conflict =>
        by_cases absent : write.origin.initiator = Uuid.nil <;>
          simp [step, answered, submitted, absent, stepsLeft]
  | searching =>
    cases answered :
        (backend.containsInitiator write.stream write.origin.initiator state).1 with
    | error error => simp [step, answered, searched, fail, stepsLeft]
    | ok found => cases found <;> simp [step, answered, searched, stepsLeft]
  | confirming =>
    cases answered : (backend.readHeader write.stream state).1 <;>
      simp [step, answered, confirmed, fail, stepsLeft]
  | measuring =>
    cases answered : (backend.readHeader write.stream state).1 with
    | error error => simp [step, answered, measured, fail, stepsLeft]
    | ok actual =>
      cases expected : write.expected <;> cases actual <;>
        simp [step, answered, measured, expected, fail, stepsLeft]
      split
      · simp
        omega
      · simp
  | finished result committed => exact absurd ⟨result, committed, rfl⟩ unfinished

theorem isFinished_of_stepsLeft {writer : Writer} (done : writer.stepsLeft = 0) :
    writer.IsFinished := by
  obtain ⟨write, limit, phase, retries⟩ := writer
  cases phase with
  | finished result committed => exact ⟨result, committed, rfl⟩
  | _ => simp [stepsLeft] at done

theorem run_of_isFinished {writer : Writer} (finished : writer.IsFinished)
    (backend : Backend σ) (fuel : Nat) (planner : Planner) (state : σ) :
    run backend fuel writer planner state = (writer, planner, state) := by
  obtain ⟨result, committed, same⟩ := finished
  cases fuel <;> simp [run, same]

theorem run_succ_of_unfinished {writer : Writer} (unfinished : ¬writer.IsFinished)
    (backend : Backend σ) (fuel : Nat) (planner : Planner) (state : σ) :
    run backend (fuel + 1) writer planner state =
      run backend fuel (writer.step backend planner state).1
        (writer.step backend planner state).2.1 (writer.step backend planner state).2.2 := by
  cases same : writer.phase with
  | finished result committed => exact absurd ⟨result, committed, same⟩ unfinished
  | _ => simp [run, same]

/-- A writer that may take all its steps finishes. -/
theorem isFinished_run (backend : Backend σ) (fuel : Nat) (writer : Writer) (planner : Planner)
    (state : σ) (enough : writer.stepsLeft ≤ fuel) :
    (run backend fuel writer planner state).1.IsFinished := by
  induction fuel generalizing writer planner state with
  | zero =>
    have finished : writer.IsFinished := isFinished_of_stepsLeft (by omega)
    exact finished
  | succ fuel ih =>
    by_cases finished : writer.IsFinished
    · rw [run_of_isFinished finished]
      exact finished
    · rw [run_succ_of_unfinished finished]
      have nearer := stepsLeft_step backend writer planner state finished
      exact ih _ _ _ (by omega)

end Writer

/-- A write that nothing comes between: its result, the transaction that was committed, and what is
left of planner and storage. -/
structure Written (σ : Type) where
  result : Except Error Version
  committed : Option Transaction
  planner : Planner
  state : σ

variable {σ : Type}

/-- A writer that takes all its steps has finished, so the last case never arises. -/
def Backend.write (backend : Backend σ) (planner : Planner) (request : Write) (state : σ) :
    Written σ :=
  let writer := Writer.start request planner.settings.retryLimit
  let (writer, planner, state) := writer.run backend writer.stepsLeft planner state
  match writer.phase with
  | .finished result committed => ⟨result, committed, planner, state⟩
  | _ => ⟨.ok request.retrieved, none, planner, state⟩

/-- All events of a stream in the order of its records. -/
def Backend.read (backend : Backend σ) (key : StreamKey) (state : σ) :
    Except Error (List StoredEvent) × σ :=
  let (answer, state) := backend.readRecords key state
  (answer.map fun records => records.flatMap Record.events, state)

end EventSourcing
