import EventSourcing.Proofs.Holders

/-!
Jobs and saves that nobody comes between. A writer that takes its steps in a row does what a write
does that runs on its own, and a save whose job does so ends like one through a repository.
-/

namespace EventSourcing

theorem Writer.run_succ {σ : Type} (backend : Backend σ) (fuel : Nat) (writer : Writer)
    (planner : Planner) (state : σ) :
    writer.run backend (fuel + 1) planner state =
      (writer.step backend planner state).1.run backend fuel
        (writer.step backend planner state).2.1 (writer.step backend planner state).2.2 := by
  by_cases finished : writer.IsFinished
  · rw [run_of_isFinished finished]
    obtain ⟨result, committed, same⟩ := finished
    have still : writer.step backend planner state = (writer, planner, state) := by
      simp [step, same]
    rw [still, run_of_isFinished ⟨result, committed, same⟩]
  · exact run_succ_of_unfinished finished backend fuel planner state

theorem Writer.phase_start_of_nil {write : Write} (empty : write.events = []) (limit : Nat) :
    (start write limit).phase = .finished (.ok write.retrieved) none := by
  simp only [start, empty]

theorem Writer.phase_start_of_ne_nil {write : Write} (filled : write.events ≠ []) (limit : Nat) :
    (start write limit).phase = .planning write.retrieved := by
  obtain ⟨event, rest, some⟩ := List.exists_cons_of_ne_nil filled
  simp only [start, some]

/-- A write on its own is a run of its writer. -/
theorem Backend.write_eq {σ : Type} (backend : Backend σ) (planner : Planner) (write : Write)
    (state : σ) :
    let start := Writer.start write planner.settings.retryLimit
    let left := start.run backend start.stepsLeft planner state
    let written := backend.write planner write state
    left.1.phase = .finished written.result written.committed ∧
      left.2.1 = written.planner ∧ left.2.2 = written.state := by
  intro start left written
  obtain ⟨result, committed, done⟩ : left.1.IsFinished :=
    Writer.isFinished_run backend start.stepsLeft start planner state (Nat.le_refl _)
  have same : written = ⟨result, committed, left.2.1, left.2.2⟩ := by
    simp only [written, Backend.write]
    split
    · rename_i other finished
      obtain ⟨rfl, rfl⟩ := Phase.finished.inj (finished.symm.trans done)
      rfl
    · rename_i unfinished
      exact absurd done (unfinished result committed)
  rw [same]
  exact ⟨done, rfl, rfl⟩

theorem Backend.write_of_run {σ : Type} (backend : Backend σ) {planner later : Planner}
    {write : Write} {state after : σ} {start writer : Writer} {result : Except Error Version}
    {committed : Option Transaction}
    (begun : start = Writer.start write planner.settings.retryLimit)
    (ran : start.run backend start.stepsLeft planner state = (writer, later, after))
    (finished : writer.phase = .finished result committed) :
    backend.write planner write state = ⟨result, committed, later, after⟩ := by
  simp only [Backend.write, ← begun, ran, finished]

/-- A write without events asks nothing of the storage. -/
theorem Backend.write_of_nil {σ : Type} (backend : Backend σ) (planner : Planner) {write : Write}
    (empty : write.events = []) (state : σ) :
    backend.write planner write state = ⟨.ok write.retrieved, none, planner, state⟩ := by
  have done := Writer.phase_start_of_nil empty planner.settings.retryLimit
  exact backend.write_of_run rfl (Writer.run_of_isFinished ⟨_, _, done⟩ backend _ planner state)
    done

namespace Fleet

/-- So many steps of one job in a row are a run of its writer. -/
theorem run_replicate {fleet : Fleet} {number : Nat} {job : Job} {planner : Planner}
    (busy : fleet.jobs[number]? = some job)
    (found : fleet.planners[job.database]? = some planner) (count : Nat) :
    let after := fleet.run (List.replicate count (.advance number))
    let left := job.writer.run Store.backend count planner fleet.store
    after.jobs = fleet.jobs.set number ⟨job.database, left.1⟩ ∧
      after.planners = fleet.planners.set job.database left.2.1 ∧ after.store = left.2.2 := by
  induction count generalizing fleet job planner with
  | zero =>
    obtain ⟨inside, same⟩ := List.getElem?_eq_some_iff.mp busy
    obtain ⟨listed, known⟩ := List.getElem?_eq_some_iff.mp found
    refine ⟨?_, ?_, rfl⟩
    · exact (same ▸ List.set_getElem_self inside).symm
    · exact (known ▸ List.set_getElem_self listed).symm
  | succ count ih =>
    obtain ⟨inside, -⟩ := List.getElem?_eq_some_iff.mp busy
    obtain ⟨listed, -⟩ := List.getElem?_eq_some_iff.mp found
    have step := advance_eq busy found
    have stillBusy : (fleet.advance number).jobs[number]? =
        some ⟨job.database, (job.writer.step Store.backend planner fleet.store).1⟩ := by
      rw [step]
      exact List.getElem?_set_self inside
    have stillFound : (fleet.advance number).planners[job.database]? =
        some (job.writer.step Store.backend planner fleet.store).2.1 := by
      rw [step]
      exact List.getElem?_set_self listed
    obtain ⟨jobs, planners, store⟩ := ih stillBusy stillFound
    rw [List.replicate_succ, Writer.run_succ]
    refine ⟨jobs.trans ?_, planners.trans ?_, store.trans ?_⟩ <;> simp [step]

/-- A job that is taken on and left to itself is a write on its own. -/
theorem run_launch {fleet : Fleet} {database : Nat} {planner : Planner}
    (found : fleet.planners[database]? = some planner) (write : Write) :
    ∃ actions after writer, (fleet.launch database write).run actions = after ∧
      let written := Store.backend.write planner write fleet.store
      after.jobs = fleet.jobs ++ [⟨database, writer⟩] ∧
        writer.phase = .finished written.result written.committed ∧
        after.planners = fleet.planners.set database written.planner ∧
        after.store = written.state := by
  let start := Writer.start write planner.settings.retryLimit
  have taken : fleet.launch database write =
      { fleet with jobs := fleet.jobs ++ [⟨database, start⟩] } := by
    simp only [launch, found, start]
  have busy : (fleet.launch database write).jobs[fleet.jobs.length]? = some ⟨database, start⟩ := by
    rw [taken]
    exact List.getElem?_concat_length
  have known : (fleet.launch database write).planners[database]? = some planner := by
    rw [taken]
    exact found
  obtain ⟨jobs, planners, store⟩ := run_replicate busy known start.stepsLeft
  simp only [taken] at jobs planners store
  obtain ⟨done, later, left⟩ := Store.backend.write_eq planner write fleet.store
  refine ⟨_, _, _, rfl, taken ▸ jobs.trans ?_, done, taken ▸ planners.trans ?_,
    taken ▸ store.trans left⟩
  · simp [start]
  · rw [← later]

end Fleet

/-- A database in front of a store, as a repository sees it. -/
def Store.storage : StreamStorage (Planner × Store) where
  read key state := ((Store.backend.read key state.2).1, state)
  write request state :=
    let written := Store.backend.write state.1 request state.2
    (written.result, written.planner, written.state)

namespace Holders

variable {κ : Type} [EventFamily κ] {ι : Type} [DecidableEq ι] {types : ι → AggregateType κ}

/-- Work on one job in a row leaves the handles alone. -/
theorem run_work (holders : Holders types) (actions : List Fleet.Action) :
    holders.run (actions.map .work) = { holders with fleet := holders.fleet.run actions } := by
  induction actions generalizing holders with
  | nil => rfl
  | cons action rest ih => exact ih (holders.act (.work action))

/-- A load is one through a repository. -/
theorem act_load (holders : Holders types) {h : ι} (idle : (holders.handles h).saving = none)
    (naming : StreamNaming) (id : (types h).Id) (planner : Planner) :
    let repository : Repository κ (Planner × Store) :=
      { type := types h, naming := naming, storage := Store.storage }
    (holders.act (.load h naming id)).handles h =
      (holders.handles h).loaded (repository.tryGet id (planner, holders.fleet.store)).1 := by
  simp only [act, idle, Option.isNone_none, if_true, place_self]
  rfl

/-- A save that nobody comes between is a save through a repository. -/
theorem run_save (holders : Holders types) {h : ι} (idle : (holders.handles h).saving = none)
    {snapshot : Snapshot (types h)} (held : (holders.handles h).snapshot = some snapshot)
    {database : Nat} {planner : Planner}
    (found : holders.fleet.planners[database]? = some planner) (naming : StreamNaming)
    (id : (types h).Id) (expected : ExpectedVersion) (origin : Origin) :
    ∃ actions : List Fleet.Action,
      let after := ((holders.act (.save h database naming id expected origin)).run
        (actions.map .work)).act (.conclude h)
      let repository : Repository κ (Planner × Store) :=
        { type := types h, naming := naming, storage := Store.storage }
      let left := (repository.save id snapshot expected origin (planner, holders.fleet.store)).2
      after.handles h = { snapshot := some left.1 } ∧
        after.fleet.planners = holders.fleet.planners.set database left.2.1 ∧
        after.fleet.store = left.2.2 := by
  obtain ⟨listed, same⟩ := List.getElem?_eq_some_iff.mp found
  have allowed : (holders.handles h).saving.isNone ∧ database < holders.fleet.planners.length :=
    ⟨by simp [idle], listed⟩
  have unchanged : holders.fleet.planners.set database planner = holders.fleet.planners :=
    same ▸ List.set_getElem_self listed
  have resting : holders.handles h = { snapshot := some snapshot } :=
    Handle.ext held idle
  have still : (holders.handles h).concluded holders.fleet = holders.handles h := by
    simp only [Handle.concluded, idle, Option.bind_none]
  simp only [act, if_pos allowed, save, held, Repository.save, Repository.stream, Store.storage]
  cases made : (types h).saveRequest (naming (types h).name ((types h).idText id)) id snapshot
      expected origin with
  | error reason =>
    refine ⟨[], ?_, unchanged.symm, rfl⟩
    rw [List.map_nil, run, List.foldl_nil, place_self, still, resting]
  | ok asked =>
    cases asked with
    | none =>
      refine ⟨[], ?_, unchanged.symm, rfl⟩
      rw [List.map_nil, run, List.foldl_nil, place_self, still, resting]
    | some request =>
      obtain ⟨actions, after, writer, ran, jobs, done, planners, store⟩ :=
        Fleet.run_launch found request
      have busy : after.jobs[holders.fleet.jobs.length]? = some ⟨database, writer⟩ := by
        rw [jobs]
        exact List.getElem?_concat_length
      have ended : Handle.concluded
          ⟨some snapshot, some ⟨holders.fleet.jobs.length, database, request⟩⟩ after = _ :=
        Handle.concluded_eq rfl busy done
      refine ⟨actions, ?_⟩
      simp only [run_work, place_fleet, place_self, ran, ended]
      cases answer : (Store.backend.write planner request holders.fleet.store).result with
      | error reason => exact ⟨rfl, planners, store⟩
      | ok version => exact ⟨rfl, planners, store⟩

end Holders

end EventSourcing
