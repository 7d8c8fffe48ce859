import EventSourcing.Proofs.Holders.Alone
import EventSourcing.Proofs.Planned
import EventSourcing.Simulation.Script

/-!
Answers that get lost. A storage may apply a transaction and fail before it says so. The writer then
fails; if the write is repeated, its initiator is found in the stream, and the write succeeds
without a publication, since it has committed nothing itself.
-/

namespace EventSourcing

variable {σ : Type}

/-- A storage that stands in front of a store. Unless it fails, it answers what the store answers; a
submit that fails is applied as a whole or not at all. -/
structure Backend.Fronts (backend : Backend σ) (sound : σ → Prop) (store : σ → Store) : Prop where
  submit : ∀ {transaction state answer after}, sound state →
    backend.submit transaction state = (answer, after) → sound after ∧
      (answer = .ok ((store state).submit transaction).2 ∧
          store after = ((store state).submit transaction).1 ∨
        (∃ error, answer = .error error) ∧
          (store after = store state ∨ store after = ((store state).submit transaction).1))
  readHeader : ∀ {key state answer after}, sound state →
    backend.readHeader key state = (answer, after) → sound after ∧ store after = store state
  containsInitiator : ∀ {key initiator state answer after}, sound state →
    backend.containsInitiator key initiator state = (answer, after) →
      sound after ∧ store after = store state ∧
        ∀ found, answer = .ok found → found = (store state).containsInitiator key initiator
  readRecords : ∀ {key state answer after}, sound state →
    backend.readRecords key state = (answer, after) → sound after ∧ store after = store state

namespace Simulation

/-- Nobody else submits, and a submit or a search that the store does not answer itself fails. -/
structure Script.Lossy (script : Script) : Prop where
  alone : ∀ plan ∈ script.submits, plan.before = none
  refusals : ∀ plan ∈ script.submits, ∀ outcome, plan.refusal ≠ some (.ok outcome)
  reports : ∀ plan ∈ script.submits, ∀ outcome, plan.report ≠ some (.ok outcome)
  initiators : ∀ planned ∈ script.initiators, ∀ found, planned ≠ some (.ok found)

namespace ScriptedStore

variable {stored : ScriptedStore} {transaction : Transaction}

/-- A lossy storage takes a plan for the transaction, and nobody comes first. -/
theorem receive_lossy (lossy : stored.script.Lossy) (transaction : Transaction) :
    ∃ plan noted, stored.receive transaction = (.ok plan, noted) ∧ noted.store = stored.store ∧
      noted.script.Lossy ∧ (∀ outcome, plan.refusal ≠ some (.ok outcome)) ∧
      ∀ outcome, plan.report ≠ some (.ok outcome) := by
  obtain ⟨alone, refusals, reports, initiators⟩ := lossy
  cases planned : stored.script.submits with
  | nil =>
    have received : stored.receive transaction = (.ok {},
        { stored with
          script := { stored.script with submits := [] }
          submitted := stored.submitted ++ [transaction] }) := by
      simp only [receive, planned]
    refine ⟨_, _, received, rfl, ⟨?_, ?_, ?_, initiators⟩, ?_, ?_⟩ <;> simp
  | cons plan rest =>
    rw [planned] at alone refusals reports
    have received : stored.receive transaction = (.ok plan,
        { stored with
          script := { stored.script with submits := rest }
          submitted := stored.submitted ++ [transaction] }) := by
      simp only [receive, planned, alone plan List.mem_cons_self]
    refine ⟨_, _, received, rfl, ⟨?_, ?_, ?_, initiators⟩, refusals plan List.mem_cons_self,
      reports plan List.mem_cons_self⟩
    · exact fun other member => alone other (List.mem_cons_of_mem _ member)
    · exact fun other member => refusals other (List.mem_cons_of_mem _ member)
    · exact fun other member => reports other (List.mem_cons_of_mem _ member)

theorem fronts : backend.Fronts (fun stored => stored.script.Lossy) ScriptedStore.store where
  submit {transaction stored answer after} lossy taken := by
    obtain ⟨plan, noted, received, same, still, refusal, report⟩ := receive_lossy lossy transaction
    simp only [backend, received, decide, apply] at taken
    rw [← same]
    match refused : plan.refusal, reported : plan.report with
    | some (.ok outcome), _ => exact absurd refused (refusal outcome)
    | some (.error error), _ =>
      simp only [refused, Prod.mk.injEq] at taken
      obtain ⟨rfl, rfl⟩ := taken
      exact ⟨still, .inr ⟨⟨error, rfl⟩, .inl rfl⟩⟩
    | none, some (.ok outcome) => exact absurd reported (report outcome)
    | none, some (.error error) =>
      simp only [refused, reported, Prod.mk.injEq] at taken
      obtain ⟨rfl, rfl⟩ := taken
      exact ⟨still, .inr ⟨⟨error, rfl⟩, .inr rfl⟩⟩
    | none, none =>
      simp only [refused, reported, Prod.mk.injEq] at taken
      obtain ⟨rfl, rfl⟩ := taken
      exact ⟨still, .inl ⟨rfl, rfl⟩⟩
  readHeader {key stored answer after} lossy taken := by
    simp only [backend, header] at taken
    split at taken <;> cases taken
    · exact ⟨lossy, rfl⟩
    · exact ⟨⟨lossy.alone, lossy.refusals, lossy.reports, lossy.initiators⟩, rfl⟩
  containsInitiator {key initiator stored answer after} lossy taken := by
    simp only [backend, containsInitiator] at taken
    split at taken
    · cases taken
      exact ⟨lossy, rfl, fun found same => (Except.ok.inj same).symm⟩
    · rename_i planned rest listed
      cases taken
      have honest := listed ▸ lossy.initiators
      refine ⟨⟨lossy.alone, lossy.refusals, lossy.reports,
        fun other member => honest other (List.mem_cons_of_mem _ member)⟩, rfl, ?_⟩
      intro found same
      cases planned with
      | none => exact (Except.ok.inj same).symm
      | some answer => exact absurd (congrArg some same) (honest _ List.mem_cons_self found)
  readRecords {key stored answer after} lossy taken := by
    simp only [backend, records] at taken
    split at taken <;> cases taken
    · exact ⟨lossy, rfl⟩
    · exact ⟨⟨lossy.alone, lossy.refusals, lossy.reports, lossy.initiators⟩, rfl⟩

end ScriptedStore

end Simulation

namespace Writer

/-- What a write has made of the store that it found, and what it can say of it. -/
inductive Reports (write : Write) (before : Store) : Phase → Store → Prop where
  | rests (empty : write.events = []) :
    Reports write before (.finished (.ok write.retrieved) none) before
  | plans (baseline : Version) : Reports write before (.planning baseline) before
  | submits {settings : StoreSettings} {baseline : Version} {transaction : Transaction}
      (planned : Planned settings write baseline transaction) :
      Reports write before (.submitting transaction) before
  | searches (known : write.origin.initiator ≠ Uuid.nil) : Reports write before .searching before
  | confirms (known : write.origin.initiator ≠ Uuid.nil)
      (found : before.containsInitiator write.stream write.origin.initiator = true) :
      Reports write before .confirming before
  | measures : Reports write before .measuring before
  | repeats {version : Version} (known : write.origin.initiator ≠ Uuid.nil)
      (found : before.containsInitiator write.stream write.origin.initiator = true) :
      Reports write before (.finished (.ok version) none) before
  | commits {settings : StoreSettings} {baseline : Version} {transaction : Transaction}
      (planned : Planned settings write baseline transaction)
      (accepted : (before.stream transaction.stream).accepts transaction = true) :
      Reports write before (.finished (.ok transaction.newVersion) (some transaction))
        (before.submit transaction).1
  | fails {error : Error} : Reports write before (.finished (.error error) none) before
  /-- The transaction was submitted, and the answer was lost. -/
  | loses {error : Error} {settings : StoreSettings} {baseline : Version}
      {transaction : Transaction} (planned : Planned settings write baseline transaction) :
      Reports write before (.finished (.error error) none) (before.submit transaction).1

variable {backend : Backend σ} {sound : σ → Prop} {store : σ → Store} {writer : Writer} {state : σ}
  {before : Store}

theorem Reports.step (fronts : backend.Fronts sound store) (fit : sound state)
    (reports : Reports writer.write before writer.phase (store state)) (planner : Planner) :
    let next := writer.step backend planner state
    next.1.write = writer.write ∧ sound next.2.2 ∧
      Reports writer.write before next.1.phase (store next.2.2) := by
  obtain ⟨write, limit, phase, retries⟩ := writer
  dsimp only at reports
  cases phase with
  | planning baseline =>
    cases reports
    cases made : planner.plan write baseline with
    | error error =>
      simp only [Writer.step, made]
      exact ⟨rfl, fit, .fails⟩
    | ok prepared =>
      simp only [Writer.step, made]
      exact ⟨rfl, fit, .submits (Planner.planned_of_plan made).1⟩
  | submitting transaction =>
    rcases taken : backend.submit transaction state with ⟨answer, after⟩
    simp only [Writer.step, taken]
    cases reports with
    | submits planned =>
      obtain ⟨still, ⟨rfl, applied⟩ | ⟨⟨error, rfl⟩, kept | lost⟩⟩ := fronts.submit fit taken
      · cases accepted : ((store state).stream transaction.stream).accepts transaction with
        | true =>
          rw [applied, Store.outcome_submit, if_pos accepted]
          exact ⟨rfl, still, .commits planned accepted⟩
        | false =>
          rw [Store.submit_of_refuses accepted] at applied ⊢
          simp only [Writer.submitted, applied]
          split
          · exact ⟨rfl, still, .measures⟩
          · exact ⟨rfl, still, .searches ‹_›⟩
      · exact ⟨rfl, still, kept ▸ .fails⟩
      · exact ⟨rfl, still, lost ▸ .loses planned⟩
  | searching =>
    rcases taken : backend.containsInitiator write.stream write.origin.initiator state with
      ⟨answer, after⟩
    obtain ⟨still, kept, honest⟩ := fronts.containsInitiator fit taken
    simp only [Writer.step, taken, kept]
    cases reports with
    | searches known =>
      rcases answer with error | _ | _
      · exact ⟨rfl, still, .fails⟩
      · exact ⟨rfl, still, .measures⟩
      · exact ⟨rfl, still, .confirms known (honest true rfl).symm⟩
  | confirming =>
    rcases taken : backend.readHeader write.stream state with ⟨answer, after⟩
    obtain ⟨still, kept⟩ := fronts.readHeader fit taken
    simp only [Writer.step, taken, kept]
    cases reports with
    | confirms known found =>
      cases answer with
      | ok version => exact ⟨rfl, still, .repeats known found⟩
      | error error => exact ⟨rfl, still, .fails⟩
  | measuring =>
    rcases taken : backend.readHeader write.stream state with ⟨answer, after⟩
    obtain ⟨still, kept⟩ := fronts.readHeader fit taken
    simp only [Writer.step, taken, kept]
    cases reports
    cases answer with
    | error error => exact ⟨rfl, still, .fails⟩
    | ok actual =>
      simp only [Writer.measured]
      split
      · split
        · exact ⟨rfl, still, .plans _⟩
        · exact ⟨rfl, still, .fails⟩
      · exact ⟨rfl, still, .fails⟩
  | finished result committed => exact ⟨rfl, fit, reports⟩

theorem Reports.run (fronts : backend.Fronts sound store) (fit : sound state)
    (reports : Reports writer.write before writer.phase (store state)) (planner : Planner)
    (fuel : Nat) :
    let last := writer.run backend fuel planner state
    sound last.2.2 ∧ Reports writer.write before last.1.phase (store last.2.2) := by
  induction fuel generalizing writer planner state with
  | zero => exact ⟨fit, reports⟩
  | succ fuel ih =>
    obtain ⟨same, still, next⟩ := reports.step fronts fit planner
    rw [← same] at next
    rw [run_succ, ← same]
    exact ih still next _

end Writer

/-- All that a write can do through such a storage. -/
theorem Backend.Fronts.write {backend : Backend σ} {sound : σ → Prop} {store : σ → Store}
    (fronts : backend.Fronts sound store) {state : σ} (fit : sound state) (planner : Planner)
    (write : Write) :
    let written := backend.write planner write state
    sound written.state ∧
      Writer.Reports write (store state) (.finished written.result written.committed)
        (store written.state) := by
  let start := Writer.start write planner.settings.retryLimit
  have begun : Writer.Reports start.write (store state) start.phase (store state) := by
    simp only [start, Writer.start]
    split
    · exact .rests ‹_›
    · exact .plans _
  obtain ⟨done, -, left⟩ := backend.write_eq planner write state
  have ran := begun.run fronts fit planner start.stepsLeft
  simp only [start, done, left] at ran
  exact ran

namespace Store

theorem mem_events_submit {before : Store} {transaction : Transaction} {key : StreamKey}
    {event : StoredEvent}
    (member : event ∈ ((before.submit transaction).1.stream key).events) :
    event ∈ (before.stream key).events ∨ key = transaction.stream ∧ event ∈ transaction.events := by
  rw [stream_submit] at member
  split at member
  · rw [Stream.events_apply] at member
    exact (List.mem_append.mp member).imp_right fun new => ⟨‹_ ∧ _›.1, new⟩
  · exact .inl member

theorem mem_events_of_accepts {before : Store} {transaction : Transaction}
    (accepted : (before.stream transaction.stream).accepts transaction = true) {event : StoredEvent}
    (member : event ∈ transaction.events) :
    event ∈ ((before.submit transaction).1.stream transaction.stream).events := by
  rw [stream_submit, if_pos ⟨rfl, accepted⟩, Stream.events_apply]
  exact List.mem_append_right _ member

theorem exists_of_containsInitiator {store : Store} {key : StreamKey} {initiator : Uuid}
    (found : store.containsInitiator key initiator = true) :
    ∃ event ∈ (store.stream key).events, event.initiator = initiator := by
  obtain ⟨record, member, same⟩ := List.any_eq_true.mp found
  refine ⟨record.first, List.mem_flatMap.mpr ⟨record, member, ?_⟩, of_decide_eq_true same⟩
  exact List.mem_of_mem_head? (by rw [record.head?_events]; rfl)

end Store

end EventSourcing
