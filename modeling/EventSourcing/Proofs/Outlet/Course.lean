import EventSourcing.Proofs.Outlet.Jobs
import EventSourcing.Proofs.Outlet.Ledger

/-!
What stays true of a database that publishes what it commits. Only one job at a time is inside the
gate of a stream, so each consumer has got all commits to a stream but the one that such a job owes
it.
-/

namespace EventSourcing.Outlet

/-- Whether some job owes the transaction to the consumer at a place. -/
def Owed (jobs : List Job) (place : Nat) (transaction : Transaction) : Prop :=
  ∃ (number : Nat) (job : Job), jobs[number]? = some job ∧ job.owes place = some transaction

theorem owed_set {jobs : List Job} {number : Nat} {job : Job} (busy : jobs[number]? = some job)
    (next : Job) (place : Nat) (transaction : Transaction) :
    Owed (jobs.set number next) place transaction ↔
      next.owes place = some transaction ∨
        ∃ (other : Nat) (task : Job), other ≠ number ∧ jobs[other]? = some task ∧
          task.owes place = some transaction := by
  obtain ⟨inside, -⟩ := List.getElem?_eq_some_iff.mp busy
  constructor
  · rintro ⟨other, task, found, owes⟩
    rw [List.getElem?_set] at found
    split at found
    · obtain rfl := Option.some.inj found
      exact .inl owes
    · exact .inr ⟨other, task, Ne.symm ‹_›, found, owes⟩
  · rintro (owes | ⟨other, task, different, found, owes⟩)
    · exact ⟨number, next, List.getElem?_set_self inside, owes⟩
    · exact ⟨other, task, by rwa [List.getElem?_set_ne (Ne.symm different)], owes⟩

theorem owed_iff {jobs : List Job} {number : Nat} {job : Job} (busy : jobs[number]? = some job)
    (place : Nat) (transaction : Transaction) :
    Owed jobs place transaction ↔
      job.owes place = some transaction ∨
        ∃ (other : Nat) (task : Job), other ≠ number ∧ jobs[other]? = some task ∧
          task.owes place = some transaction := by
  obtain ⟨inside, here⟩ := List.getElem?_eq_some_iff.mp busy
  rw [← owed_set busy, ← here, List.set_getElem_self]

/-- A job that owes what it owed changes nothing. -/
theorem owed_set_of_eq {jobs : List Job} {number : Nat} {job next : Job}
    (busy : jobs[number]? = some job) {place : Nat} (same : next.owes place = job.owes place)
    (transaction : Transaction) :
    Owed (jobs.set number next) place transaction ↔ Owed jobs place transaction := by
  rw [owed_set busy, owed_iff busy, same]

theorem owed_set_of_none {jobs : List Job} {number : Nat} {job : Job}
    (busy : jobs[number]? = some job) {place : Nat} (nothing : job.owes place = none)
    (next : Job) (transaction : Transaction) :
    Owed (jobs.set number next) place transaction ↔
      next.owes place = some transaction ∨ Owed jobs place transaction := by
  rw [owed_set busy, owed_iff busy, nothing]
  simp

theorem owed_snoc {jobs : List Job} {next : Job} {place : Nat} (nothing : next.owes place = none)
    (transaction : Transaction) :
    Owed (jobs ++ [next]) place transaction ↔ Owed jobs place transaction := by
  constructor
  · rintro ⟨number, job, found, owes⟩
    rw [List.getElem?_append] at found
    split at found
    · exact ⟨number, job, found, owes⟩
    · obtain rfl := List.mem_singleton.mp (List.mem_of_getElem? found)
      cases nothing.symm.trans owes
  · rintro ⟨number, job, found, owes⟩
    obtain ⟨inside, -⟩ := List.getElem?_eq_some_iff.mp found
    exact ⟨number, job, by rwa [List.getElem?_append_left inside], owes⟩

/-- Whether the jobs stand at the gates as they should. -/
structure Staffed (settings : StoreSettings) (gates : Gates) (jobs : List Job) : Prop where
  gatesSound : gates.Sound
  jobsSound : ∀ (number : Nat) (job : Job), jobs[number]? = some job →
    job.Sound settings (gates.visits.find? number)
  vacant : ∀ number, jobs.length ≤ number → gates.visits.find? number = none

namespace Staffed

variable {settings : StoreSettings} {gates after : Gates} {jobs : List Job} {number : Nat}
  {job next : Job}

/-- Of the jobs for one stream, one at most is inside the gate. -/
theorem eq_of_inside (staffed : Staffed settings gates jobs) {other : Nat} {task : Job}
    (busy : jobs[number]? = some job) (inside : job.standing.IsInside)
    (working : jobs[other]? = some task) (too : task.standing.IsInside)
    (same : job.writer.write.stream = task.writer.write.stream) : number = other := by
  obtain ⟨visit, there, shuts, onto⟩ := (staffed.jobsSound number job busy).exists_visit inside
  obtain ⟨second, elsewhere, also, along⟩ := (staffed.jobsSound other task working).exists_visit too
  exact staffed.gatesSound.alone there shuts elsewhere also (onto.trans (same.trans along.symm))

/-- Whatever is owed of the stream of a job that is inside, the job owes it. -/
theorem owes_of_owed (staffed : Staffed settings gates jobs) (busy : jobs[number]? = some job)
    (inside : job.standing.IsInside) {place : Nat} {transaction : Transaction}
    (owed : Owed jobs place transaction)
    (onto : transaction.stream = job.writer.write.stream) :
    job.owes place = some transaction := by
  obtain ⟨other, task, working, owes⟩ := owed
  have stream := ((staffed.jobsSound other task working).yields_of_owes owes).stream
  obtain rfl := staffed.eq_of_inside busy inside working (Job.isInside_of_owes owes)
    (onto.symm.trans stream)
  obtain rfl := Option.some.inj (busy.symm.trans working)
  exact owes

/-- A job that owes a transaction no more leaves only what is owed of other streams. -/
theorem owed_set_of_given (staffed : Staffed settings gates jobs)
    (busy : jobs[number]? = some job) {place : Nat} {transaction : Transaction}
    (owes : job.owes place = some transaction) (nothing : next.owes place = none)
    (other : Transaction) :
    Owed (jobs.set number next) place other ↔
      Owed jobs place other ∧ other.stream ≠ transaction.stream := by
  have stream := ((staffed.jobsSound number job busy).yields_of_owes owes).stream
  rw [owed_set busy, nothing]
  constructor
  · rintro (owed | ⟨elsewhere, task, different, working, owed⟩)
    · cases owed
    · refine ⟨⟨elsewhere, task, working, owed⟩, fun onto => different ?_⟩
      have along := ((staffed.jobsSound elsewhere task working).yields_of_owes owed).stream
      exact staffed.eq_of_inside working (Job.isInside_of_owes owed) busy
        (Job.isInside_of_owes owes) (along.symm.trans (onto.trans stream))
  · rintro ⟨owed, different⟩
    rcases (owed_iff busy place other).mp owed with same | others
    · obtain rfl := Option.some.inj (owes.symm.trans same)
      exact absurd rfl different
    · exact .inr others

theorem snoc (staffed : Staffed settings gates jobs)
    (sound : next.Sound settings none) : Staffed settings gates (jobs ++ [next]) := by
  refine { gatesSound := staffed.gatesSound, jobsSound := ?_, vacant := ?_ }
  · intro number job found
    rw [List.getElem?_append] at found
    split at found
    · exact staffed.jobsSound number job found
    · obtain rfl := List.mem_singleton.mp (List.mem_of_getElem? found)
      rw [staffed.vacant number (by omega)]
      exact sound
  · intro number beyond
    rw [List.length_append] at beyond
    exact staffed.vacant number (by omega)

/-- A job goes on, whether it moves at its gate or not; others drift at most. -/
theorem set (staffed : Staffed settings gates jobs) (busy : jobs[number]? = some job)
    (sound : after.Sound)
    (drifts : ∀ other, other ≠ number →
      Gates.Drifts (gates.visits.find? other) (after.visits.find? other))
    (next_sound : next.Sound settings (after.visits.find? number)) :
    Staffed settings after (jobs.set number next) := by
  obtain ⟨inside, -⟩ := List.getElem?_eq_some_iff.mp busy
  refine { gatesSound := sound, jobsSound := ?_, vacant := ?_ }
  · intro other task found
    rw [List.getElem?_set] at found
    split at found
    · rename_i here
      subst here
      obtain rfl := Option.some.inj found
      exact next_sound
    · exact (staffed.jobsSound other task found).drifts (drifts other (Ne.symm ‹_›))
  · intro other beyond
    rw [List.length_set] at beyond
    exact (staffed.vacant other beyond ▸ drifts other (by omega)).eq_none

end Staffed

/-- What the consumer at a place has got, and what it has still to get. -/
structure Fed (subscriptions : List Subscription) (commits : List Commit) (jobs : List Job)
    (received : List (List StoredEvent)) (place : Nat) (consumer : Consumer) : Prop where
  subscription : subscriptions[place]? = some consumer.subscription
  queue : consumer.queue <:+ received
  supplied : consumer.hasExited = false → ∃ given : List Transaction,
    received = given.map (·.events) ∧
      consumer.subscription.Supplied commits given (Owed jobs place)

structure Inv (subscriptions : List Subscription) (outlet : Outlet) : Prop where
  follows : outlet.store.Follows [outlet.planner.settings] outlet.commits
  staffed : Staffed outlet.planner.settings outlet.gates outlet.jobs
  going : outlet.dispatcher.stopping = false
  served : outlet.dispatcher.consumers.length = subscriptions.length
  fed : ∀ (place : Nat) (consumer : Consumer),
    outlet.dispatcher.consumers[place]? = some consumer →
      Fed subscriptions outlet.commits outlet.jobs (outlet.received place) place consumer

namespace Fed

variable {subscriptions : List Subscription} {commits : List Commit} {jobs : List Job}
  {received : List (List StoredEvent)} {place : Nat} {consumer : Consumer}

theorem congr (fed : Fed subscriptions commits jobs received place consumer) {others : List Job}
    (same : ∀ transaction, Owed others place transaction ↔ Owed jobs place transaction) :
    Fed subscriptions commits others received place consumer := by
  refine { fed with supplied := fun live => ?_ }
  obtain ⟨given, groups, supplied⟩ := fed.supplied live
  exact ⟨given, groups, supplied.congr fun transaction _ => same transaction⟩

/-- Whatever a call commits is owed to the consumer. -/
theorem hear (fed : Fed subscriptions commits jobs received place consumer)
    {settings : StoreSettings} {gates : Gates} (staffed : Staffed settings gates jobs)
    {number : Nat} {writer next : Writer} (busy : jobs[number]? = some ⟨writer, .working⟩)
    (nothing : writer.committed? = none) {visit? : Option Gates.Visit}
    (sound : Job.Sound settings ⟨writer, .hearing next⟩ visit?) :
    Fed subscriptions (commits ++ (next.committed?.map (Commit.mk number writer.write)).toList)
      (jobs.set number ⟨writer, .hearing next⟩) received place consumer := by
  cases committed : next.committed? with
  | none =>
    rw [Option.map_none, Option.toList_none, List.append_nil]
    exact fed.congr (owed_set_of_eq busy (committed.trans nothing.symm))
  | some transaction =>
    have now : Job.owes ⟨writer, .hearing next⟩ place = some transaction := committed
    have stream := (sound.yields_of_owes now).stream
    refine { fed with supplied := fun live => ?_ }
    obtain ⟨given, groups, supplied⟩ := fed.supplied live
    refine ⟨given, groups, supplied.commit ⟨number, writer.write, transaction⟩ ?_ ?_⟩
    · intro other onto owed
      -- Only this job could owe something of its stream, and its writer knows of no commit.
      have owes := staffed.owes_of_owed busy trivial owed (onto.trans stream)
      cases nothing.symm.trans owes
    · intro other
      refine (owed_set_of_none busy nothing _ other).trans ?_
      rw [now, Option.some.injEq, eq_comm]

/-- A consumer gets its part of a transaction that is owed to it. -/
theorem offer (fed : Fed subscriptions commits jobs received place consumer)
    {settings : StoreSettings} {gates : Gates} (staffed : Staffed settings gates jobs)
    {number : Nat} {job next : Job} (busy : jobs[number]? = some job) {transaction : Transaction}
    (owes : job.owes place = some transaction) (nothing : next.owes place = none) :
    Fed subscriptions commits (jobs.set number next)
      (received ++ Dispatcher.offered transaction.events consumer) place
      (Dispatcher.offer transaction.events consumer) := by
  have yields := (staffed.jobsSound number job busy).yields_of_owes owes
  have fewer := staffed.owed_set_of_given busy owes nothing
  rw [Dispatcher.offer_eq]
  refine { subscription := fed.subscription, queue := ?_, supplied := ?_ }
  · obtain ⟨taken, rfl⟩ := fed.queue
    exact ⟨taken, by simp⟩
  · intro live
    change consumer.hasExited = false at live
    obtain ⟨given, rfl, supplied⟩ := fed.supplied live
    rw [Dispatcher.offered, if_neg (by simp [live]), yields.observed_eq]
    cases observes : consumer.subscription.observes transaction.stream with
    | true =>
      obtain ⟨first, rest, filled⟩ := List.exists_cons_of_ne_nil yields.events_ne_nil
      refine ⟨given ++ [transaction], ?_, supplied.give observes ⟨number, job, busy, owes⟩ fewer⟩
      simp [filled]
    | false =>
      refine ⟨given, by simp, supplied.congr ?_⟩
      · intro other seen
        rw [fewer]
        refine and_iff_left ?_
        intro same
        rw [same, observes] at seen
        cases seen

end Fed

namespace Inv

variable {subscriptions : List Subscription} {outlet : Outlet} {number : Nat} {job next : Job}

theorem put (inv : outlet.Inv subscriptions) (busy : outlet.jobs[number]? = some job)
    (sound : next.Sound outlet.planner.settings (outlet.gates.visits.find? number))
    (same : ∀ place < outlet.dispatcher.consumers.length, next.owes place = job.owes place) :
    (outlet.put number next).Inv subscriptions := by
  refine { inv with staffed := ?_, fed := ?_ }
  · exact inv.staffed.set busy inv.staffed.gatesSound (fun _ _ => .rests) sound
  · intro place consumer found
    obtain ⟨inside, -⟩ := List.getElem?_eq_some_iff.mp found
    exact (inv.fed place consumer found).congr (owed_set_of_eq busy (same place inside))

/-- A job moves at its gate, and owes nothing before and after. -/
theorem pass (inv : outlet.Inv subscriptions) (busy : outlet.jobs[number]? = some job)
    {moves : List Gates.Move} {standing : Option Gates.Stage → Standing}
    (owes : ∀ place stage?,
      Job.owes { job with standing := standing stage? } place = job.owes place)
    (sound : ∀ visit? later? move, job.Sound outlet.planner.settings visit? → move ∈ moves →
      Gates.Leads visit? move later? →
      Job.Sound outlet.planner.settings
        { job with standing := standing (later?.map (·.stage)) } later?) :
    (outlet.pass number job moves standing).Inv subscriptions := by
  unfold Outlet.pass
  split
  · exact inv
  · rename_i after found
    obtain ⟨move, member, moved⟩ := List.exists_of_findSome?_eq_some found
    have step := Gates.step_of_move moved
    have here := inv.staffed.jobsSound number job busy
    have gates := inv.staffed.gatesSound
    refine { inv with staffed := ?_, fed := ?_ }
    · exact inv.staffed.set busy (gates.step step) (fun other => gates.drifts step)
        (sound _ _ move here member (gates.leads step))
    · intro place consumer found
      exact (inv.fed place consumer found).congr (owed_set_of_eq busy (owes place _))

/-- The storage takes a call of the writer. -/
theorem calls (inv : outlet.Inv subscriptions) {writer : Writer}
    (busy : outlet.jobs[number]? = some ⟨writer, .working⟩) (unfinished : ¬writer.IsFinished)
    (reaction : Reaction) :
    let after := writer.step (Store.under reaction) outlet.planner outlet.store
    ({ outlet with
      planner := after.2.1
      store := after.2.2
      commits := outlet.commits ++
        (after.1.committed?.map (Commit.mk number writer.write)).toList }.put number
      ⟨writer, .hearing after.1⟩).Inv subscriptions := by
  intro after
  have here := inv.staffed.jobsSound number _ busy
  obtain ⟨advances, settings⟩ :=
    Writer.advances_step inv.follows here.plans unfinished reaction
  have sound : Job.Sound outlet.planner.settings ⟨writer, .hearing after.1⟩
      (outlet.gates.visits.find? number) :=
    ⟨advances.write, advances.plans, trivial, here.allows, here.stream⟩
  refine { follows := ?_, staffed := ?_, going := inv.going, served := inv.served, fed := ?_ }
  · change after.2.2.Follows [after.2.1.settings] _
    rw [settings]
    exact advances.follows inv.follows number
  · change Staffed after.2.1.settings _ _
    rw [settings]
    exact inv.staffed.set busy inv.staffed.gatesSound (fun _ _ => .rests) sound
  · intro place consumer found
    exact (inv.fed place consumer found).hear inv.staffed busy
      (Writer.committed?_of_unfinished unfinished) sound

/-- A consumer gets its part of a transaction, which is then owed to those after it only. -/
theorem publishes (inv : outlet.Inv subscriptions) {writer : Writer} {transaction : Transaction}
    {place : Nat} (busy : outlet.jobs[number]? = some ⟨writer, .publishing transaction place⟩) :
    (outlet.publish number ⟨writer, .publishing transaction place⟩ transaction place).Inv
      subscriptions := by
  have here := inv.staffed.jobsSound number _ busy
  unfold Outlet.publish
  split
  · rename_i inside
    have found := List.getElem?_eq_getElem inside
    generalize outlet.dispatcher.consumers[place] = consumer at found
    have gained : ((outlet.dispatcher.offerAt place transaction.events).queueAt place).drop
        (outlet.dispatcher.queueAt place).length =
          Dispatcher.offered transaction.events consumer := by
      rw [Dispatcher.queueAt_offerAt inv.going found, List.drop_left]
    simp only [gained]
    rw [Dispatcher.offerAt_eq inv.going]
    refine { follows := inv.follows, staffed := ?_, going := inv.going, served := ?_, fed := ?_ }
    · exact inv.staffed.set busy inv.staffed.gatesSound (fun _ _ => .rests)
        (here.stand rfl rfl here.suits here.allows here.stream)
    · exact (List.length_modify _ _ _).trans inv.served
    · intro other another served
      change (outlet.dispatcher.consumers.modify place _)[other]? = _ at served
      rw [List.getElem?_modify] at served
      change Fed subscriptions outlet.commits (outlet.jobs.set number _)
        (groupsAt other (outlet.arrivals ++ _)) other another
      rw [groupsAt_append]
      by_cases same : other = place
      · subst same
        rw [found] at served
        simp only [if_true, Option.map_eq_map, Option.map_some, Option.some.injEq] at served
        subst served
        rw [if_pos rfl]
        have owes : Job.owes ⟨writer, .publishing transaction other⟩ other = some transaction :=
          if_pos (Nat.le_refl _)
        exact (inv.fed other consumer found).offer inv.staffed busy owes
          (if_neg (Nat.not_succ_le_self _))
      · -- The job moves on by one place, which changes what it owes at that place only.
        rw [if_neg same, List.append_nil]
        simp only [Ne.symm same, if_false, Option.map_eq_map, Option.map_id'] at served
        refine (inv.fed other another served).congr (owed_set_of_eq busy ?_)
        have later : place + 1 ≤ other ↔ place ≤ other := by omega
        simp only [Job.owes, later]
  · refine inv.put busy (here.stand rfl rfl trivial (.inl here.allows) here.stream) ?_
    intro other inside
    change none = if place ≤ other then some transaction else none
    rw [if_neg (by omega)]

/-- A consumer gets something done, or its clock is set. -/
theorem attends (inv : outlet.Inv subscriptions) (place : Nat) {act : Consumer.Act}
    (quiet : act.groups = []) : (outlet.attend place act).Inv subscriptions := by
  refine { inv with served := (List.length_modify _ _ _).trans inv.served, fed := ?_ }
  intro other another served
  change (outlet.dispatcher.consumers.modify place _)[other]? = _ at served
  rw [List.getElem?_modify] at served
  by_cases same : place = other
  · simp only [same, if_true, Option.map_eq_map, Option.map_eq_some_iff] at served
    obtain ⟨consumer, found, rfl⟩ := served
    have fed := inv.fed other consumer found
    have subscription := consumer.act_subscription act
    refine { subscription := ?_, queue := ?_, supplied := ?_ }
    · exact subscription.symm ▸ fed.subscription
    · exact (consumer.act_queue_suffix quiet).trans fed.queue
    · intro live
      rw [subscription]
      refine fed.supplied ?_
      cases exited : consumer.hasExited with
      | false => rfl
      | true => exact (Consumer.act_of_hasExited exited act).symm.trans live
  · simp only [same, if_false, Option.map_eq_map, Option.map_id'] at served
    exact inv.fed other another served

theorem launches (inv : outlet.Inv subscriptions) {write : Write}
    (proper : write.retrieved.Proper) : (outlet.launch write).Inv subscriptions := by
  refine { inv with staffed := ?_, fed := ?_ }
  · refine inv.staffed.snoc ⟨rfl, ?_, ?_, rfl, nofun⟩
    · exact Writer.plans_start _ proper _
    · exact Writer.committed?_start _ _
  · intro place consumer found
    exact (inv.fed place consumer found).congr fun transaction => owed_snoc rfl transaction

/-- A job that has committed nothing goes in. -/
theorem goesIn (inv : outlet.Inv subscriptions) (busy : outlet.jobs[number]? = some job)
    (heard : job.upcoming = job.writer) (nothing : job.writer.committed? = none)
    (free : ∀ place, job.owes place = none) {moves : List Gates.Move}
    (inward : ∀ move ∈ moves,
      move = .arrive job.writer.write.stream ∨ move = .ask ∨ move = .enter) :
    (outlet.pass number job moves .inward).Inv subscriptions := by
  refine inv.pass busy ?_ ?_
  · intro place stage?
    rw [free]
    unfold Standing.inward
    split
    · exact nothing
    · rfl
  · intro visit? later? move sound member leads
    exact sound.inward leads heard nothing (inward move member)

theorem arrives (inv : outlet.Inv subscriptions) {writer : Writer}
    (busy : outlet.jobs[number]? = some ⟨writer, .fresh⟩) :
    (outlet.arrive number ⟨writer, .fresh⟩).Inv subscriptions := by
  have here := inv.staffed.jobsSound number _ busy
  unfold Outlet.arrive
  split
  · exact inv.put busy (here.stand rfl rfl trivial here.allows here.stream) fun _ _ => rfl
  · refine inv.goesIn busy rfl here.suits (fun _ => rfl) fun move member => ?_
    exact .inl (List.mem_singleton.mp member)

theorem leaves (inv : outlet.Inv subscriptions) {writer : Writer}
    (busy : outlet.jobs[number]? = some ⟨writer, .leaving⟩) :
    (outlet.pass number ⟨writer, .leaving⟩ [.release, .forget, .tidy] .outward).Inv
      subscriptions := by
  refine inv.pass busy ?_ ?_
  · intro place stage?
    cases stage? <;> rfl
  · intro visit? later? move sound member leads
    exact sound.outward leads rfl (by simpa using member)

theorem works (inv : outlet.Inv subscriptions) {writer : Writer}
    (busy : outlet.jobs[number]? = some ⟨writer, .working⟩) (reaction : Reaction) :
    (outlet.work number ⟨writer, .working⟩ reaction).Inv subscriptions := by
  have here := inv.staffed.jobsSound number _ busy
  unfold Outlet.work
  split
  · rename_i phase
    have nothing : writer.committed? = none := by rw [Writer.committed?, phase]
    exact inv.put busy (here.stand rfl rfl trivial (.inl here.allows) here.stream)
      fun _ _ => nothing.symm
  · rename_i transaction phase
    have committed : writer.committed? = some transaction := by rw [Writer.committed?, phase]
    refine inv.put busy (here.stand rfl rfl committed here.allows here.stream) fun place _ => ?_
    change (if 0 ≤ place then some transaction else none) = writer.committed?
    rw [if_pos (Nat.zero_le place), committed]
  · rename_i failed succeeded
    refine inv.calls busy ?_ reaction
    rintro ⟨result, committed, phase⟩
    cases committed with
    | none => exact failed result phase
    | some transaction => exact succeeded result transaction phase

/-- The writer hears what the storage has made of its call. -/
theorem hears (inv : outlet.Inv subscriptions) {writer next : Writer}
    (busy : outlet.jobs[number]? = some ⟨writer, .hearing next⟩) :
    (outlet.put number ⟨next, .working⟩).Inv subscriptions := by
  have here := inv.staffed.jobsSound number _ busy
  have write : next.write = writer.write := here.write
  refine inv.put busy ⟨rfl, ?_, trivial, here.allows, ?_⟩ fun _ _ => rfl
  · exact write ▸ here.plans
  · intro visit there
    exact (here.stream visit there).trans (congrArg Write.stream write.symm)

/-- The next thing that a job does. -/
theorem advances (inv : outlet.Inv subscriptions) (number : Nat) (reaction : Reaction) :
    (outlet.advance number reaction).Inv subscriptions := by
  unfold Outlet.advance
  split
  · exact inv
  · rename_i job busy
    have here := inv.staffed.jobsSound number job busy
    obtain ⟨writer, standing⟩ := job
    cases standing with
    | fresh => exact inv.arrives busy
    | entering =>
      refine inv.goesIn busy rfl here.suits (fun _ => rfl) fun move member => ?_
      exact .inr (by simpa using member)
    | working => exact inv.works busy reaction
    | hearing next => exact inv.hears busy
    | publishing transaction place => exact inv.publishes busy
    | leaving => exact inv.leaves busy
    | done => exact inv

theorem act (inv : outlet.Inv subscriptions) (action : Action) :
    (outlet.act action).Inv subscriptions := by
  cases action with
  | launch write proper => exact inv.launches proper
  | advance job reaction => exact inv.advances job reaction
  | serve place => exact inv.attends place rfl
  | clock place time => exact inv.attends place rfl

/-- However writes are taken on and go on, and consumers between them. -/
theorem run (inv : outlet.Inv subscriptions) (actions : List Action) :
    (outlet.run actions).Inv subscriptions := by
  induction actions generalizing outlet with
  | nil => exact inv
  | cons action rest ih => exact ih (inv.act action)

end Inv

end EventSourcing.Outlet
