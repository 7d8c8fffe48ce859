import EventSourcing.Proofs.Outlet.Alone
import EventSourcing.Simulation.Database

/-!
Writes in the foreground of a session. Over a storage without a script, and with nobody else at the
gates, such a write never has to wait: its task goes through the gate, does what a write does that
runs on its own, and publishes what was committed.
-/

namespace EventSourcing.Simulation

namespace ScriptedStore

variable {stored : ScriptedStore}

/-- Without a script the storage answers what its store answers, and makes the same of it. -/
theorem step_plain (plain : stored.script = {}) (writer : Writer) (planner : Planner) :
    let next := writer.step backend planner stored
    (next.1, next.2.1, next.2.2.store) = writer.step Store.backend planner stored.store ∧
      next.2.2.script = {} := by
  obtain ⟨write, limit, phase, retries⟩ := writer
  obtain ⟨store, script, submitted⟩ := stored
  cases plain
  cases phase with
  | planning baseline =>
    cases made : planner.plan write baseline <;> simp only [Writer.step, made, and_self]
  | _ => exact ⟨rfl, rfl⟩

theorem run_plain (plain : stored.script = {}) (fuel : Nat) (writer : Writer)
    (planner : Planner) :
    let last := writer.run backend fuel planner stored
    (last.1, last.2.1, last.2.2.store) = writer.run Store.backend fuel planner stored.store ∧
      last.2.2.script = {} := by
  induction fuel generalizing writer planner stored with
  | zero => exact ⟨rfl, plain⟩
  | succ fuel ih =>
    obtain ⟨same, still⟩ := step_plain plain writer planner
    rw [Writer.run_succ, Writer.run_succ, ← same]
    exact ih still _ _

end ScriptedStore

namespace Task

variable {visitor : Nat} {writer : Writer} {world : World}

theorem runWithin_of_goesOn {task next : Task} {after : World}
    (goesOn : task.step world = (next, after, .goesOn)) (fuel : Nat) :
    runWithin (fuel + 1) task world = runWithin fuel next after := by
  simp only [runWithin, goesOn]

/-- A step of the writer takes the task one turn, or three if it is a submit. -/
theorem exists_turns (visitor : Nat) (plain : world.stored.script = {})
    (unfinished : ¬writer.IsFinished) :
    let next := writer.step ScriptedStore.backend world.planner world.stored
    ∃ turns ≤ 3, ∀ fuel, runWithin (fuel + turns) ⟨visitor, writer, .working⟩ world =
      runWithin fuel ⟨visitor, next.1, .working⟩
        { world with planner := next.2.1, stored := next.2.2 } := by
  intro next
  obtain ⟨write, limit, phase, retries⟩ := writer
  cases phase with
  | finished result committed => exact absurd ⟨result, committed, rfl⟩ unfinished
  | submitting transaction =>
    obtain ⟨now, planner, ⟨store, script, submitted⟩, gates, dispatcher⟩ := world
    cases plain
    exact ⟨3, Nat.le_refl _, fun fuel => rfl⟩
  | _ => exact ⟨1, by decide, fun fuel => runWithin_of_goesOn rfl fuel⟩

/-- The end of a task lets go of the gate and shows the consumers what was committed. -/
theorem finish_eq (task : Task) (result : Except Error Version) (committed : Option Transaction)
    (world : World) :
    task.finish result committed world =
      ({ task with stage := .done result world.now },
        { world with
          gates := world.gates.leave task.visitor
          dispatcher := world.dispatcher.map fun dispatcher =>
            committed.elim dispatcher fun transaction => dispatcher.publish transaction.events },
        .stops) := by
  cases committed with
  | none => simp only [finish, Option.elim_none, Option.map_id']
  | some transaction => rfl

/-- Whether a task at work ends as a writer and a storage that have gone on by themselves. -/
def EndsAs (task : Task × World × Motion) (visitor : Nat) (world : World)
    (last : Writer × Planner × ScriptedStore) : Prop :=
  ∃ result committed, last.1.phase = .finished result committed ∧
    task = finish ⟨visitor, last.1, .working⟩ result committed
      { world with planner := last.2.1, stored := last.2.2 }

theorem runWithin_of_isFinished (finished : writer.IsFinished) (count fuel : Nat)
    (world : World) :
    EndsAs (runWithin (fuel + 1) ⟨visitor, writer, .working⟩ world) visitor world
      (writer.run ScriptedStore.backend count world.planner world.stored) := by
  obtain ⟨result, committed, done⟩ := finished
  rw [Writer.run_of_isFinished ⟨_, _, done⟩]
  refine ⟨result, committed, done, ?_⟩
  simp only [runWithin, step, work, done, finish]

/-- A task at work does what its writer does, and publishes what that has committed. -/
theorem runWithin_working (visitor : Nat) (plain : world.stored.script = {}) {count fuel : Nat}
    (enough : writer.stepsLeft ≤ count) (turns : 3 * count ≤ fuel) :
    EndsAs (runWithin (fuel + 1) ⟨visitor, writer, .working⟩ world) visitor world
      (writer.run ScriptedStore.backend count world.planner world.stored) := by
  induction count generalizing writer world fuel with
  | zero =>
    have finished := Writer.isFinished_of_stepsLeft (Nat.le_zero.mp enough)
    exact runWithin_of_isFinished finished 0 fuel world
  | succ count ih =>
    by_cases finished : writer.IsFinished
    · exact runWithin_of_isFinished finished _ fuel world
    · let next := writer.step ScriptedStore.backend world.planner world.stored
      have nearer : next.1.stepsLeft < writer.stepsLeft :=
        writer.stepsLeft_step ScriptedStore.backend world.planner world.stored finished
      let later : World := { world with planner := next.2.1, stored := next.2.2 }
      have still : later.stored.script = {} :=
        (ScriptedStore.step_plain plain writer world.planner).2
      obtain ⟨spent, few, goesOn⟩ := exists_turns visitor plain finished
      obtain ⟨rest, rfl⟩ : ∃ rest, fuel = rest + spent := ⟨fuel - spent, by omega⟩
      have left : next.1.stepsLeft ≤ count := by omega
      have remain : 3 * count ≤ rest := by omega
      rw [Writer.run_succ, Nat.add_right_comm, goesOn]
      exact ih still left remain

end Task

/-- Whether the storage has no script and nobody is at the gates. -/
structure World.AtRest (world : World) : Prop where
  plain : world.stored.script = {}
  nobody : world.gates.visits = {}

namespace World

variable {world : World}

/-- Where nobody else is at the gates, a task goes to work at once. -/
theorem start_of_atRest (rests : world.AtRest) (task : Task) :
    ∃ gates, { task with stage := .starting }.step world =
      ({ task with stage := .working }, { world with gates := gates }, .goesOn) := by
  unfold Task.step Task.start
  dsimp only
  split
  · obtain ⟨-, -, -, -, inside⟩ :=
      Gates.visit_moves rests.nobody task.visitor task.writer.write.stream
    rw [if_pos inside]
    exact ⟨_, rfl⟩
  · exact ⟨world.gates, rfl⟩

/-- The task of a write in the foreground. -/
def foreground (world : World) (request : Write) : Task :=
  { visitor := 0, writer := Writer.start request world.planner.settings.retryLimit }

/-- A task that is done when it has run for the first time needs no schedule. -/
theorem write_of_run {request : Write} {task : Task} {after : World}
    {result : Except Error Version} {time : Nat}
    (ran : (world.foreground request).run world = (task, after, .stops))
    (done : task.stage = .done result time) : world.write request = (result, after) := by
  obtain ⟨visitor, writer, stage⟩ := task
  cases done
  let begun : Schedule := { world := world, tasks := [world.foreground request], ready := [0] }
  have turns : begun.turns = 4 * (world.foreground request).stepsLeft + 7 + 1 := rfl
  have unfinished : begun.isDone = false := rfl
  obtain ⟨ready, stepped⟩ : ∃ ready, begun.step =
      { world := after, tasks := [⟨visitor, writer, .done result time⟩], ready := ready } := by
    simp only [begun, Schedule.step, Schedule.runTask, List.getElem?_cons_zero, ran]
    exact ⟨_, rfl⟩
  have whole : begun.run =
      { world := after, tasks := [⟨visitor, writer, .done result time⟩], ready := ready } := by
    rw [Schedule.run, turns, Schedule.runWithin, if_neg (by simp [unfinished]), stepped,
      Schedule.runWithin]
    rfl
  have same : begun.run = Schedule.run
    { world := world
      tasks := [{ visitor := 0, writer := Writer.start request world.planner.settings.retryLimit }]
      ready := [0] } := rfl
  rw [World.write, ← same, whole]

/-- A write in the foreground is a write on its own that publishes what it has committed. -/
theorem write_of_atRest (rests : world.AtRest) (request : Write) :
    let written := Store.backend.write world.planner request world.stored.store
    ∃ after, world.write request = (written.result, after) ∧
      after.stored.store = written.state ∧ after.stored.script = {} ∧
      after.planner = written.planner ∧ after.now = world.now ∧
      after.dispatcher = world.dispatcher.map fun dispatcher =>
        written.committed.elim dispatcher fun transaction =>
          dispatcher.publish transaction.events := by
  intro written
  let start := Writer.start request world.planner.settings.retryLimit
  obtain ⟨gates, starts⟩ := start_of_atRest rests (world.foreground request)
  let entered : World := { world with gates := gates }
  have unscripted : entered.stored.script = {} := rests.plain
  obtain ⟨result, committed, done, ran⟩ := Task.runWithin_working 0 unscripted
    (Nat.le_refl start.stepsLeft) (Nat.le_add_right (3 * start.stepsLeft) 2)
  have whole : (world.foreground request).run world = _ :=
    (Task.runWithin_of_goesOn starts (3 * start.stepsLeft + 3)).trans
      (ran.trans (Task.finish_eq ..))
  obtain ⟨same, plain⟩ :=
    ScriptedStore.run_plain rests.plain start.stepsLeft start world.planner
  obtain ⟨finished, planner, state⟩ :=
    Store.backend.write_eq world.planner request world.stored.store
  rw [← same] at finished planner state
  obtain ⟨rfl, rfl⟩ := Phase.finished.inj (done.symm.trans finished)
  exact ⟨_, write_of_run whole rfl, state, plain, planner, rfl, rfl⟩

end World

end EventSourcing.Simulation
