import EventSourcing.Proofs.Holders.Alone
import EventSourcing.Proofs.Outlet.Jobs

/-!
Writes that nobody comes between. Such a write goes through its gate, does what a write does that
runs on its own, and publishes what it has committed to all consumers at once.
-/

namespace EventSourcing

namespace Gates

/-- A visitor inside leaves in three moves. -/
theorem Sound.leave_moves {gates : Gates} (sound : gates.Sound) {visitor : Nat} {visit : Visit}
    (there : gates.visits.find? visitor = some visit) (stage : visit.stage = .inside) :
    let moves : List Move := [.release, .forget, .tidy]
    ∃ first second, moves.findSome? (gates.move visitor) = some first ∧
      moves.findSome? (first.move visitor) = some second ∧
      moves.findSome? (second.move visitor) = some (gates.leave visitor) ∧
      first.stage? visitor = some .released ∧ second.stage? visitor = some .leaving ∧
      (gates.leave visitor).stage? visitor = none := by
  let first := (gates.atStage visitor visit .released).handOver visit.gate
  let second := first.atStage visitor { visit with stage := .released } .leaving
  let third := (second.tidyUp visit.stream).dismiss visitor
  have released : gates.move visitor .release = some first := by
    simp [move, there, stage, first]
  have here : first.visits.find? visitor = some { visit with stage := .released } :=
    (sound.letGo there (.inr stage) .released (by decide)).1.find?_handOver visit.gate
      (Keyed.find?_set_self _ _ _) nofun
  have forgot : first.move visitor .forget = some second := by
    simp [move, here, second]
  have still : second.visits.find? visitor = some { visit with stage := .leaving } :=
    Keyed.find?_set_self _ _ _
  have tidied : second.move visitor .tidy = some third := by
    simp [move, still, third]
  have gone : third.visits.find? visitor = none := by
    rw [show third = (second.tidyUp visit.stream).dismiss visitor from rfl, Gates.dismiss,
      Keyed.find?_erase, if_pos rfl]
  have left : gates.leave visitor = third := by
    simp [leave, moves, released, forgot, tidied]
  have unreleased : first.move visitor .release = none := by simp [move, here]
  have neither : second.move visitor .release = none ∧ second.move visitor .forget = none := by
    simp [move, still]
  refine ⟨first, second, ?_, ?_, ?_, ?_, ?_, ?_⟩
  · simp [released]
  · simp [unreleased, forgot]
  · simp [neither, tidied, left]
  · rw [stage?, here, Option.map_some]
  · rw [stage?, still, Option.map_some]
  · rw [left, stage?, gone, Option.map_none]

/-- Where nobody is, a visitor comes in with two moves. -/
theorem visit_moves {gates : Gates} (nobody : gates.visits = {}) (visitor : Nat)
    (stream : StreamKey) :
    ∃ first, gates.move visitor (.arrive stream) = some first ∧
      first.move visitor .ask = some (gates.visit visitor stream) ∧
      first.stage? visitor = some .arrived ∧
      (gates.visit visitor stream).stage? visitor = some .inside := by
  let here : Visit := ⟨stream, (gates.lookUp stream).1, .arrived⟩
  let first : Gates :=
    { (gates.lookUp stream).2 with visits := (gates.lookUp stream).2.visits.set visitor here }
  have absent : gates.visits.find? visitor = none := by
    rw [nobody]
    rfl
  have arrived : gates.move visitor (.arrive stream) = some first := by
    simp [move, absent, first, here]
  have there : first.visits.find? visitor = some here := Keyed.find?_set_self _ _ _
  have free : first.isShut here.gate = false := by
    simp [isShut, first, (visits_lookUp gates stream).1, nobody, Keyed.set, Keyed.put, here,
      Stage.ShutsGate]
  have asked : first.move visitor .ask = some (first.atStage visitor here .inside) := by
    simp [move, there, free, here]
  have whole : gates.visit visitor stream = first.atStage visitor here .inside := by
    simp [visit, moves, arrived, asked]
  rw [whole]
  refine ⟨first, arrived, asked, ?_, ?_⟩
  · rw [stage?, there, Option.map_some]
  · rw [stage?, atStage, Keyed.find?_set_self, Option.map_some]

end Gates

namespace Outlet

theorem run_append (outlet : Outlet) (first second : List Action) :
    outlet.run (first ++ second) = (outlet.run first).run second :=
  List.foldl_append

/-- Whether an outlet becomes another one if nothing but one job goes on, and the storage serves
it. -/
def LeadsTo (number : Nat) (outlet after : Outlet) : Prop :=
  ∃ count, outlet.run (List.replicate count (.advance number .serves)) = after

namespace LeadsTo

variable {number : Nat} {outlet after last : Outlet}

theorem rest {job : Job} (busy : outlet.jobs[number]? = some job) :
    LeadsTo number outlet (outlet.put number job) := by
  obtain ⟨inside, same⟩ := List.getElem?_eq_some_iff.mp busy
  refine ⟨0, ?_⟩
  rw [put, ← same, List.set_getElem_self]
  rfl

theorem of_advance (same : outlet.advance number .serves = after) :
    LeadsTo number outlet after := ⟨1, same⟩

theorem trans (first : LeadsTo number outlet after) (second : LeadsTo number after last) :
    LeadsTo number outlet last := by
  obtain ⟨before, rfl⟩ := first
  obtain ⟨later, rfl⟩ := second
  exact ⟨before + later, by rw [← List.replicate_append_replicate, run_append]⟩

end LeadsTo

variable {outlet : Outlet} {number : Nat}

@[simp] theorem put_put (outlet : Outlet) (number : Nat) (job next : Job) :
    (outlet.put number job).put number next = outlet.put number next := by
  simp [put]

theorem jobs_put (outlet : Outlet) {job : Job} (busy : outlet.jobs[number]? = some job)
    (next : Job) : (outlet.put number next).jobs[number]? = some next := by
  obtain ⟨inside, -⟩ := List.getElem?_eq_some_iff.mp busy
  exact List.getElem?_set_self inside

theorem work_of_unfinished (outlet : Outlet) (number : Nat) {writer : Writer}
    (unfinished : ¬writer.IsFinished) (reaction : Reaction) :
    let after := writer.step (Store.under reaction) outlet.planner outlet.store
    outlet.work number ⟨writer, .working⟩ reaction =
      { outlet with
        planner := after.2.1
        store := after.2.2
        commits := outlet.commits ++
          (after.1.committed?.map (Commit.mk number writer.write)).toList }.put number
        ⟨writer, .hearing after.1⟩ := by
  intro after
  unfold work
  split
  · exact absurd ⟨_, _, ‹_›⟩ unfinished
  · exact absurd ⟨_, _, ‹_›⟩ unfinished
  · rfl

/-- A call, and hearing of it, is a step of the writer. -/
theorem leadsTo_call {writer : Writer} (busy : outlet.jobs[number]? = some ⟨writer, .working⟩)
    (unfinished : ¬writer.IsFinished) :
    let after := writer.step Store.backend outlet.planner outlet.store
    ∃ commits, LeadsTo number outlet
      ({ outlet with planner := after.2.1, store := after.2.2, commits := commits }.put number
        ⟨after.1, .working⟩) := by
  intro after
  let taken : Outlet :=
    { outlet with
      planner := after.2.1
      store := after.2.2
      commits := outlet.commits ++ (after.1.committed?.map (Commit.mk number writer.write)).toList }
  have listed : taken.jobs[number]? = some ⟨writer, .working⟩ := busy
  have called : LeadsTo number outlet (taken.put number ⟨writer, .hearing after.1⟩) := by
    refine .of_advance ?_
    rw [advance, busy]
    exact work_of_unfinished outlet number unfinished .serves
  refine ⟨taken.commits, called.trans (.of_advance ?_)⟩
  rw [advance, jobs_put _ listed]
  exact put_put _ _ _ _

/-- Calls in a row are a run of the writer. -/
theorem leadsTo_run {writer : Writer} (busy : outlet.jobs[number]? = some ⟨writer, .working⟩)
    (fuel : Nat) :
    let left := writer.run Store.backend fuel outlet.planner outlet.store
    ∃ commits, LeadsTo number outlet
      ({ outlet with planner := left.2.1, store := left.2.2, commits := commits }.put number
        ⟨left.1, .working⟩) := by
  -- Each call changes the outlet and the writer, so the hypothesis is about any of them.
  induction fuel generalizing outlet writer with
  | zero => exact ⟨outlet.commits, .rest busy⟩
  | succ fuel ih =>
    by_cases finished : writer.IsFinished
    · rw [Writer.run_of_isFinished finished]
      exact ⟨outlet.commits, .rest busy⟩
    · rw [Writer.run_succ_of_unfinished finished]
      obtain ⟨commits, called⟩ := leadsTo_call busy finished
      obtain ⟨more, ran⟩ := ih (jobs_put
        { outlet with planner := _, store := _, commits := commits } busy _)
      exact ⟨more, called.trans (by simpa [put] using ran)⟩

/-- The consumers get their parts one after the other. -/
theorem leadsTo_publish {writer : Writer} {transaction : Transaction}
    (busy : outlet.jobs[number]? = some ⟨writer, .publishing transaction 0⟩) {place : Nat}
    (inside : place ≤ outlet.dispatcher.consumers.length) :
    ∃ arrivals, LeadsTo number outlet
      ({ outlet with
        dispatcher := outlet.dispatcher.offerTo transaction.events place
        arrivals := arrivals }.put number ⟨writer, .publishing transaction place⟩) := by
  induction place with
  | zero => exact ⟨outlet.arrivals, .rest busy⟩
  | succ place ih =>
    obtain ⟨arrivals, before⟩ := ih (by omega)
    let reached : Outlet :=
      { outlet with
        dispatcher := outlet.dispatcher.offerTo transaction.events place
        arrivals := arrivals }
    have listed : reached.jobs[number]? = some ⟨writer, .publishing transaction 0⟩ := busy
    have more : place < reached.dispatcher.consumers.length := by
      rw [Dispatcher.length_offerTo]
      omega
    let gained := ((reached.dispatcher.offerAt place transaction.events).queueAt place).drop
      (reached.dispatcher.queueAt place).length
    refine ⟨arrivals ++ gained.map (Arrival.mk place), before.trans (.of_advance ?_)⟩
    rw [advance, jobs_put _ listed]
    refine (if_pos more).trans ?_
    exact put_put { reached with dispatcher := _, arrivals := _ } number _ _

/-- Together they get what is published at once. -/
theorem leadsTo_published {writer : Writer} {transaction : Transaction}
    (busy : outlet.jobs[number]? = some ⟨writer, .publishing transaction 0⟩) :
    ∃ arrivals, LeadsTo number outlet
      ({ outlet with
        dispatcher := outlet.dispatcher.publish transaction.events
        arrivals := arrivals }.put number ⟨writer, .leaving⟩) := by
  obtain ⟨arrivals, given⟩ := leadsTo_publish busy (Nat.le_refl _)
  rw [← Dispatcher.publish_eq_offerTo] at given
  let reached : Outlet :=
    { outlet with
      dispatcher := outlet.dispatcher.publish transaction.events
      arrivals := arrivals }
  have listed : reached.jobs[number]? = some ⟨writer, .publishing transaction 0⟩ := busy
  have all : ¬outlet.dispatcher.consumers.length < reached.dispatcher.consumers.length := by
    change ¬_ < (outlet.dispatcher.publish transaction.events).consumers.length
    rw [Dispatcher.publish_eq_offerTo, Dispatcher.length_offerTo]
    exact Nat.lt_irrefl _
  refine ⟨arrivals, given.trans (.of_advance ?_)⟩
  rw [advance, jobs_put _ listed]
  exact (if_neg all).trans (put_put reached number _ _)

/-- A writer that has finished publishes what it has committed. -/
theorem leadsTo_finish {writer : Writer} (busy : outlet.jobs[number]? = some ⟨writer, .working⟩)
    {result : Except Error Version} {committed : Option Transaction}
    (phase : writer.phase = .finished result committed) :
    ∃ arrivals, LeadsTo number outlet
      ({ outlet with
        dispatcher := committed.elim outlet.dispatcher (outlet.dispatcher.publish ·.events)
        arrivals := arrivals }.put number ⟨writer, .leaving⟩) := by
  cases committed with
  | none =>
    refine ⟨outlet.arrivals, .of_advance ?_⟩
    rw [advance, busy]
    simp only [work, phase, Option.elim]
  | some transaction =>
    have begun : LeadsTo number outlet (outlet.put number ⟨writer, .publishing transaction 0⟩) := by
      refine .of_advance ?_
      rw [advance, busy]
      simp only [work, phase]
    obtain ⟨arrivals, published⟩ := leadsTo_published (jobs_put _ busy _)
    refine ⟨arrivals, begun.trans ?_⟩
    simpa [put] using published

theorem leadsTo_pass {job old : Job} (busy : outlet.jobs[number]? = some old)
    {moves : List Gates.Move} {standing : Option Gates.Stage → Standing}
    (does : ∀ outlet : Outlet, outlet.jobs[number]? = some job →
      outlet.advance number .serves = outlet.pass number job moves standing)
    {before after : Gates} (moved : moves.findSome? (before.move number) = some after) :
    LeadsTo number ({ outlet with gates := before }.put number job)
      ({ outlet with gates := after }.put number
        { job with standing := standing (after.stage? number) }) := by
  refine .of_advance ?_
  rw [does _ (jobs_put { outlet with gates := before } busy job), pass]
  simp only [put, moved, List.set_set]

/-- Nothing keeps a job from leaving. -/
theorem leadsTo_leave {writer : Writer} (busy : outlet.jobs[number]? = some ⟨writer, .leaving⟩)
    (sound : outlet.gates.Sound) {visit : Gates.Visit}
    (there : outlet.gates.visits.find? number = some visit) (stage : visit.stage = .inside) :
    LeadsTo number outlet
      ({ outlet with gates := outlet.gates.leave number }.put number ⟨writer, .done⟩) := by
  obtain ⟨first, second, released, forgot, tidied, here, still, gone⟩ :=
    sound.leave_moves there stage
  have does (outlet : Outlet) (busy : outlet.jobs[number]? = some ⟨writer, .leaving⟩) :
      outlet.advance number .serves =
        outlet.pass number ⟨writer, .leaving⟩ [.release, .forget, .tidy] .outward := by
    rw [advance, busy]
  have one := leadsTo_pass busy does released
  have two := leadsTo_pass busy does forgot
  have three := leadsTo_pass busy does tidied
  rw [here] at one
  rw [still] at two
  rw [gone] at three
  exact (LeadsTo.rest busy).trans (one.trans (two.trans three))

theorem leadsTo_enter {writer : Writer} (busy : outlet.jobs[number]? = some ⟨writer, .fresh⟩)
    (filled : writer.write.events ≠ []) (nobody : outlet.gates.visits = {}) :
    LeadsTo number outlet
      ({ outlet with gates := outlet.gates.visit number writer.write.stream }.put number
        ⟨writer, .working⟩) := by
  obtain ⟨first, arrived, asked, here, inside⟩ :=
    Gates.visit_moves nobody number writer.write.stream
  have arrives (outlet : Outlet) (busy : outlet.jobs[number]? = some ⟨writer, .fresh⟩) :
      outlet.advance number .serves =
        outlet.pass number ⟨writer, .fresh⟩ [.arrive writer.write.stream] .inward := by
    rw [advance, busy]
    obtain ⟨event, rest, events⟩ := List.exists_cons_of_ne_nil filled
    simp only [arrive, events]
  have asks (outlet : Outlet) (busy : outlet.jobs[number]? = some ⟨writer, .entering⟩) :
      outlet.advance number .serves =
        outlet.pass number ⟨writer, .entering⟩ [.ask, .enter] .inward := by
    rw [advance, busy]
  have came : [Gates.Move.arrive writer.write.stream].findSome? (outlet.gates.move number) =
      some first := by
    simp [arrived]
  have entered : [Gates.Move.ask, .enter].findSome? (first.move number) =
      some (outlet.gates.visit number writer.write.stream) := by
    simp [asked]
  have one := leadsTo_pass busy arrives came
  have two := leadsTo_pass busy asks entered
  rw [here] at one
  rw [inside] at two
  exact (LeadsTo.rest busy).trans (one.trans two)

/-- What a write on its own leaves of a database that publishes what the write has committed. -/
structure CarriesOut (outlet : Outlet) (write : Write) (after : Outlet) : Prop where
  job : ∃ writer : Writer, after.jobs = outlet.jobs ++ [⟨writer, .done⟩] ∧
    writer.phase = .finished (Store.backend.write outlet.planner write outlet.store).result
      (Store.backend.write outlet.planner write outlet.store).committed
  planner : after.planner = (Store.backend.write outlet.planner write outlet.store).planner
  store : after.store = (Store.backend.write outlet.planner write outlet.store).state
  dispatcher : after.dispatcher =
    (Store.backend.write outlet.planner write outlet.store).committed.elim outlet.dispatcher
      (outlet.dispatcher.publish ·.events)

theorem launched (outlet : Outlet) (write : Write) :
    (outlet.launch write).jobs[outlet.jobs.length]? =
      some ⟨Writer.start write outlet.planner.settings.retryLimit, .fresh⟩ :=
  List.getElem?_concat_length

theorem leadsTo_of_nil (outlet : Outlet) {write : Write} (nothing : write.events = []) :
    ∃ after, LeadsTo outlet.jobs.length (outlet.launch write) after ∧
      outlet.CarriesOut write after := by
  let start := Writer.start write outlet.planner.settings.retryLimit
  obtain ⟨finished, planner, store⟩ := Store.backend.write_eq outlet.planner write outlet.store
  have phase : start.phase = .finished (.ok write.retrieved) none := by
    simp only [start, Writer.start, nothing]
  rw [Writer.run_of_isFinished ⟨_, _, phase⟩] at finished planner store
  have uncommitted : (Store.backend.write outlet.planner write outlet.store).committed = none :=
    (Phase.finished.inj (phase.symm.trans finished)).2.symm
  have done : LeadsTo outlet.jobs.length (outlet.launch write)
      ((outlet.launch write).put outlet.jobs.length ⟨start, .done⟩) := by
    refine .of_advance ?_
    rw [advance, outlet.launched write]
    simp only [arrive, start, Writer.start, nothing]
  refine ⟨_, done, ⟨start, ?_, finished⟩, planner, store, ?_⟩
  · simp [put, launch]
  · rw [uncommitted]
    rfl

theorem leadsTo_of_filled (outlet : Outlet) {write : Write} (filled : write.events ≠ [])
    (sound : outlet.gates.Sound) (nobody : outlet.gates.visits = {}) :
    ∃ after, LeadsTo outlet.jobs.length (outlet.launch write) after ∧
      outlet.CarriesOut write after := by
  let number := outlet.jobs.length
  let start := Writer.start write outlet.planner.settings.retryLimit
  let left := start.run Store.backend start.stepsLeft outlet.planner outlet.store
  obtain ⟨finished, planner, store⟩ := Store.backend.write_eq outlet.planner write outlet.store
  obtain ⟨first, arrived, asked, -, inside⟩ := Gates.visit_moves nobody number write.stream
  obtain ⟨visit, there, stage⟩ := Option.map_eq_some_iff.mp inside
  have still : (outlet.gates.visit number write.stream).Sound :=
    (sound.step (Gates.step_of_move arrived)).step (Gates.step_of_move asked)
  have entered := leadsTo_enter (outlet.launched write) filled nobody
  let within : Outlet :=
    { outlet.launch write with gates := outlet.gates.visit number write.stream }.put number
      ⟨start, .working⟩
  have begun : within.jobs[number]? = some ⟨start, .working⟩ :=
    jobs_put { outlet.launch write with gates := _ } (outlet.launched write) _
  obtain ⟨commits, ran⟩ := leadsTo_run begun start.stepsLeft
  let worked : Outlet :=
    { within with planner := left.2.1, store := left.2.2, commits := commits }.put number
      ⟨left.1, .working⟩
  have ended : worked.jobs[number]? = some ⟨left.1, .working⟩ :=
    jobs_put { within with planner := _, store := _, commits := _ } begun _
  obtain ⟨arrivals, published⟩ := leadsTo_finish ended finished
  let told : Outlet :=
    { worked with
      dispatcher := (Store.backend.write outlet.planner write outlet.store).committed.elim
        outlet.dispatcher (outlet.dispatcher.publish ·.events)
      arrivals := arrivals }.put number ⟨left.1, .leaving⟩
  have leaving : told.jobs[number]? = some ⟨left.1, .leaving⟩ :=
    jobs_put { worked with dispatcher := _, arrivals := _ } ended _
  have gone := leadsTo_leave leaving still there stage
  refine ⟨_, entered.trans (ran.trans (published.trans gone)), ⟨left.1, ?_, finished⟩, planner,
    store, rfl⟩
  simp [put, launch, told, worked, within, number]

/-- A write that is taken on where nobody else writes, and left to itself, is a write on its own;
what it has committed is published as a whole. -/
theorem leadsTo_done (outlet : Outlet) (write : Write) (sound : outlet.gates.Sound)
    (nobody : outlet.gates.visits = {}) :
    ∃ after, LeadsTo outlet.jobs.length (outlet.launch write) after ∧
      outlet.CarriesOut write after := by
  by_cases nothing : write.events = []
  · exact outlet.leadsTo_of_nil nothing
  · exact outlet.leadsTo_of_filled nothing sound nobody

end Outlet

end EventSourcing
