import EventSourcing.Proofs.Fleet.Draws
import EventSourcing.Proofs.Fleet.Success
import EventSourcing.Proofs.Layouts

/-!
Writes at any version beside other writers. Whenever such a write is refused, somebody else has
committed to its stream since its baseline was read. So each of its retries can be charged to a
commit of its own, and a write that may be retried as often as others commit gets through.
-/

namespace EventSourcing

/-- The version of a stream after so many of the commits to it. -/
def versionAfter (commits : List Commit) (count : Nat) : Version :=
  Version.ofCount ((commits.take count).flatMap fun commit => commit.transaction.events).length

theorem versionAfter_append {commits : List Commit} (more : List Commit) {count : Nat}
    (inside : count ≤ commits.length) :
    versionAfter (commits ++ more) count = versionAfter commits count := by
  rw [versionAfter, versionAfter, List.take_append_of_le_length inside]

namespace Store.Follows

variable {store : Store} {listed : List StoreSettings} {commits : List Commit}

theorem versionAfter_all (follows : store.Follows listed commits) (key : StreamKey) :
    versionAfter (commitsTo key commits) (commitsTo key commits).length =
      Version.ofCount (store.stream key).events.length := by
  rw [versionAfter, List.take_length, follows.events_eq]

/-- A stream with commits has a header. -/
theorem header_of_commits (follows : store.Follows listed commits) {key : StreamKey}
    (some : 0 < (commitsTo key commits).length) :
    store.header key = .some (Version.ofCount (store.stream key).events.length) := by
  obtain ⟨commit, member⟩ := List.exists_mem_of_length_pos some
  have sound := follows.commits commit (mem_commitsTo.mp member).1
  obtain ⟨chosen, -, planned⟩ := sound.planned
  have filled : 0 < commit.transaction.events.length := by
    rw [planned.length_events]
    exact List.length_pos_iff.mpr sound.filled
  obtain ⟨event, inside⟩ := List.exists_mem_of_length_pos filled
  have held : event ∈ (store.stream key).events := by
    rw [follows.events_eq]
    exact List.mem_flatMap.mpr ⟨commit, member, inside⟩
  rw [header, (follows.streams key).version, Version.header_eq_some_iff]
  exact ⟨(Version.isPresent_ofCount _).mpr (List.length_pos_of_mem held), rfl⟩

end Store.Follows

namespace Writer

/-- What each phase of a write at any version says about the commits to its stream. It has started
from the version after `since` of them, and every retry so far has taken one more. -/
def Charged (limit since retries : Nat) (commits : List Commit) : Phase → Prop
  | .planning baseline =>
    ∃ count ≤ commits.length, since + retries ≤ count ∧ baseline = versionAfter commits count
  | .submitting transaction =>
    ∃ count ≤ commits.length, since + retries ≤ count ∧
      transaction.baseline = versionAfter commits count
  | .measuring => retries < limit ∧ since + retries < commits.length
  | _ => False

theorem Charged.mono {limit since retries : Nat} {commits : List Commit} {phase : Phase}
    (charged : Charged limit since retries commits phase) (more : List Commit) :
    Charged limit since retries (commits ++ more) phase := by
  have longer : commits.length ≤ (commits ++ more).length := by
    rw [List.length_append]
    exact Nat.le_add_right _ _
  cases phase with
  | planning baseline =>
    obtain ⟨count, inside, above, same⟩ := charged
    exact ⟨count, Nat.le_trans inside longer, above, same.trans (versionAfter_append _ inside).symm⟩
  | submitting transaction =>
    obtain ⟨count, inside, above, same⟩ := charged
    exact ⟨count, Nat.le_trans inside longer, above, same.trans (versionAfter_append _ inside).symm⟩
  | measuring => exact ⟨charged.1, Nat.lt_of_lt_of_le charged.2 longer⟩
  | _ => exact charged

variable {writer : Writer} {planner : Planner} {store : Store} {listed : List StoreSettings}
  {commits : List Commit} {number since : Nat}

/-- The step of a write at any version: it commits, or the charge goes on. -/
theorem Charged.step (follows : store.Follows listed commits)
    (onCourse : writer.OnCourse planner.settings commits number)
    (anywhere : writer.write.expected = .any) (unknown : writer.write.origin.initiator = Uuid.nil)
    (fits : planner.settings.Fits writer.write.events.length)
    (calm : ∀ transaction, writer.phase = .submitting transaction →
      (commitsTo writer.write.stream commits).length ≤ since + planner.settings.retryLimit ∧
        transaction.ids.Nodup ∧
        ∀ id ∈ transaction.ids, id ∉ (store.stream writer.write.stream).events.map (·.id))
    (charged : Charged planner.settings.retryLimit since writer.retries
      (commitsTo writer.write.stream commits) writer.phase) :
    let next := writer.step Store.backend planner store
    (∃ transaction, writer.phase = .submitting transaction ∧
        writer.commits? store = some transaction) ∨
      writer.commits? store = none ∧
        Charged planner.settings.retryLimit since next.1.retries
          (commitsTo writer.write.stream commits) next.1.phase := by
  intro next
  cases phase : writer.phase with
  | planning baseline =>
    obtain ⟨layout, fitting⟩ := fits
    have planned : Planned planner.settings writer.write baseline
        (planner.transaction writer.write baseline layout) := ⟨planner, layout, rfl, fitting, rfl⟩
    rw [phase] at charged
    simp only [next, Writer.step, phase, commits?, Planner.plan, fitting, Except.map, Writer.planned]
    refine .inr ⟨trivial, ?_⟩
    rw [Charged, planned.baseline_eq (onCourse.at_phase phase).proper]
    exact charged
  | submitting transaction =>
    obtain ⟨baseline, starts, planned⟩ := onCourse.at_phase phase
    obtain ⟨few, distinct, unused⟩ := calm transaction phase
    rw [phase] at charged
    obtain ⟨count, inside, above, same⟩ := charged
    have sound := follows.streams writer.write.stream
    cases answered : (store.stream transaction.stream).accepts transaction with
    | true =>
      refine .inl ⟨transaction, rfl, ?_⟩
      simp only [commits?, phase, answered, if_true]
    | false =>
      -- From the end of the stream it would have been accepted.
      have behind : count ≠ (commitsTo writer.write.stream commits).length := by
        rintro rfl
        rw [planned.baseline_eq starts.proper, follows.versionAfter_all] at same
        have accepted := (sound.accepts_planned_iff planned starts.proper).mpr
          ⟨same, distinct, unused⟩
        rw [planned.stream, accepted] at answered
        cases answered
      simp only [next, Writer.step, phase, commits?, Store.backend, Store.outcome_submit, answered,
        Bool.false_eq_true, if_false, submitted, if_pos unknown]
      refine .inr ⟨trivial, ?_⟩
      rw [Charged]
      omega
  | measuring =>
    rw [phase] at charged
    obtain ⟨allowed, taken⟩ := charged
    rw [← onCourse.limit] at allowed
    have shown := follows.header_of_commits (Nat.zero_lt_of_lt taken)
    simp only [next, Writer.step, phase, commits?, Store.backend, shown, measured, anywhere,
      if_pos allowed]
    refine .inr ⟨trivial, _, Nat.le_refl _, ?_, (follows.versionAfter_all _).symm⟩
    omega
  | _ =>
    rw [phase] at charged
    exact charged.elim

end Writer

namespace Fleet

/-- What others than a job have committed to a stream, the first commits left aside. -/
def foreign (fleet : Fleet) (key : StreamKey) (since number : Nat) : List Commit :=
  ((commitsTo key fleet.commits).drop since).filter fun commit => commit.job ≠ number

/-- Whether the next step of a job is a submit. -/
def Submits (fleet : Fleet) (number : Nat) : Prop :=
  ∃ job transaction, fleet.jobs[number]? = some job ∧ job.writer.phase = .submitting transaction

/-- Whether the next thing to happen is a step of a job. -/
def Action.isTurn (number : Nat) : Action → Bool
  | .advance job => job = number
  | .launch _ _ _ => false

def turns (number : Nat) (actions : List Action) : Nat :=
  actions.countP (Action.isTurn number)

/-- A job of a write at any version, before it has committed. -/
structure Underway (planner : Planner) (database number since : Nat) (write : Write)
    (fleet : Fleet) : Prop where
  inv : fleet.Inv
  settled : fleet.Settled
  drawing : ∃ now, fleet.Drawing planner database now
  working : ∃ writer, fleet.jobs[number]? = some ⟨database, writer⟩ ∧ writer.write = write ∧
    Writer.Charged planner.settings.retryLimit since writer.retries
      (commitsTo write.stream fleet.commits) writer.phase

/-- Whether no more was committed by others than a write may be retried, and none of it with an
identity that its database can draw. -/
structure Calm (planner : Planner) (database number since : Nat) (key : StreamKey)
    (fleet : Fleet) : Prop where
  few : (fleet.foreign key since number).length ≤ planner.settings.retryLimit
  reserves : ∀ now, fleet.planners[database]? = some now → fleet.Reserves now database key

/-- Who is calm in the end has been calm before. -/
theorem Calm.of_run {planner now : Planner} {database number since : Nat} {key : StreamKey}
    {fleet : Fleet} (drawing : fleet.Drawing planner database now) {actions : List Action}
    (calm : (fleet.run actions).Calm planner database number since key) :
    fleet.Calm planner database number since key := by
  obtain ⟨later, goes, drawn⟩ := drawing.run actions
  obtain ⟨once, unused⟩ := calm.reserves later drawn.found
  obtain ⟨more, grown⟩ := fleet.commits_run actions
  constructor
  · refine Nat.le_trans (List.Sublist.length_le ?_) calm.few
    rw [foreign, foreign, ← grown, commitsTo_append]
    exact ((List.sublist_append_left _ _).drop since).filter _
  · intro known found
    obtain rfl := Option.some.inj (drawing.found.symm.trans found)
    refine ⟨goes.distinct once, ?_⟩
    intro commit listed job busy derives event inside draw before
    obtain ⟨writer, still, same⟩ := fleet.job_run actions busy
    have kept : commit ∈ commitsTo key (fleet.run actions).commits := by
      rw [← grown, commitsTo_append]
      exact List.mem_append_left _ listed
    rw [← goes.draw]
    refine unused commit kept _ still ?_ event inside draw (Nat.lt_of_lt_of_le before goes.issued)
    rw [Planner.Derives, goes.settings, same]
    exact derives

namespace Underway

variable {planner : Planner} {database number since : Nat} {write : Write} {fleet after : Fleet}

theorem charged (underway : fleet.Underway planner database number since write) {chosen : Nat}
    {writer : Writer} (busy : fleet.jobs[number]? = some ⟨chosen, writer⟩) :
    writer.write = write ∧
      Writer.Charged planner.settings.retryLimit since writer.retries
        (commitsTo write.stream fleet.commits) writer.phase := by
  obtain ⟨same, working, rest⟩ := underway.working
  obtain ⟨-, rfl⟩ := Job.mk.inj (Option.some.inj (working.symm.trans busy))
  exact rest

/-- What others do leaves a job underway. -/
theorem beside (underway : fleet.Underway planner database number since write)
    (step : fleet.Step after) (drawing : ∃ now, after.Drawing planner database now)
    (same : after.jobs[number]? = fleet.jobs[number]?) :
    after.Underway planner database number since write where
  inv := underway.inv.step step
  settled := underway.settled.step step
  drawing := drawing
  working := by
    obtain ⟨writer, busy, own, charged⟩ := underway.working
    obtain ⟨more, grown⟩ := step.commits_grow
    refine ⟨writer, same.trans busy, own, ?_⟩
    rw [← grown, commitsTo_append]
    exact charged.mono _

/-- Nor does anything else that is not a step of it. -/
theorem act_other (underway : fleet.Underway planner database number since write)
    {action : Action} (other : action.isTurn number = false) :
    (fleet.act action).Underway planner database number since write ∧
      (fleet.act action).jobs[number]? = fleet.jobs[number]? := by
  obtain ⟨now, drawing⟩ := underway.drawing
  obtain ⟨later, -, drawing⟩ := drawing.act action
  have same : (fleet.act action).jobs[number]? = fleet.jobs[number]? := by
    cases action with
    | launch chosen later proper =>
      obtain ⟨writer, busy, -⟩ := underway.working
      rw [act, Fleet.launch]
      split
      · rfl
      · exact List.getElem?_append_left (List.getElem?_eq_some_iff.mp busy).1
    | advance job =>
      have different : job ≠ number := of_decide_eq_false other
      rw [act, Fleet.advance]
      split
      · rfl
      · split
        · rfl
        · exact List.getElem?_set_ne different
  exact ⟨underway.beside (fleet.act_step action) ⟨later, drawing⟩ same, same⟩

/-- A job that is underway has committed nothing. -/
theorem foreign_eq (underway : fleet.Underway planner database number since write)
    (key : StreamKey) :
    fleet.foreign key since number = (commitsTo key fleet.commits).drop since := by
  refine List.filter_eq_self.mpr fun commit member => decide_eq_true ?_
  rintro rfl
  obtain ⟨chosen, other, version, working, done⟩ :=
    underway.settled commit (mem_commitsTo.mp (List.mem_of_mem_drop member)).1
  have charged := (underway.charged working).2
  rw [done] at charged
  exact charged

/-- A step of the job commits, or leaves it underway and nearer to its end. -/
theorem advance (underway : fleet.Underway planner database number since write)
    (anywhere : write.expected = .any) (unknown : write.origin.initiator = Uuid.nil)
    (fits : planner.settings.Fits write.events.length)
    (calm : fleet.Submits number → fleet.Calm planner database number since write.stream)
    {writer : Writer} (busy : fleet.jobs[number]? = some ⟨database, writer⟩) :
    (∃ transaction, writer.phase = .submitting transaction ∧
        writer.commits? fleet.store = some transaction) ∨
      (fleet.advance number).Underway planner database number since write ∧
        ∃ next, (fleet.advance number).jobs[number]? = some ⟨database, next⟩ ∧
          next.stepsLeft < writer.stepsLeft := by
  obtain ⟨known, drawing⟩ := underway.drawing
  have found := drawing.found
  have draws := drawing.draws
  obtain ⟨own, charged⟩ := underway.charged busy
  obtain ⟨settings, listed, onCourse⟩ := underway.inv.jobs number _ busy
  obtain rfl : known.settings = settings := by
    rw [Fleet.settings, List.getElem?_map, found] at listed
    exact Option.some.inj listed
  subst own
  rw [← draws.settings] at charged fits
  have gentle : ∀ transaction, writer.phase = .submitting transaction →
      (commitsTo writer.write.stream fleet.commits).length ≤ since + known.settings.retryLimit ∧
        transaction.ids.Nodup ∧ ∀ id ∈ transaction.ids,
          id ∉ (fleet.store.stream writer.write.stream).events.map (·.id) := by
    intro transaction phase
    obtain ⟨few, reserves⟩ := calm ⟨_, transaction, busy, phase⟩
    rw [underway.foreign_eq, List.length_drop, ← draws.settings] at few
    have drawn : ¬planner.Derives writer.write.origin.initiator := fun derives => derives.2 unknown
    exact ⟨by omega, drawing.fresh underway.inv underway.settled (reserves known found) busy rfl
      drawn phase⟩
  rcases charged.step underway.inv.follows onCourse anywhere unknown fits gentle with
    commits | ⟨rests, next⟩
  · exact .inl commits
  · have step := advance_eq busy found
    have inside := (List.getElem?_eq_some_iff.mp busy).1
    have still : (fleet.advance number).jobs[number]? =
        some ⟨database, (writer.step Store.backend known fleet.store).1⟩ := by
      rw [step]
      exact List.getElem?_set_self inside
    have unfinished : ¬writer.IsFinished := by
      rintro ⟨result, committed, done⟩
      rw [done] at charged
      exact charged
    refine .inr ⟨?_, _, still, writer.stepsLeft_step Store.backend known fleet.store unfinished⟩
    obtain ⟨turn, -⟩ := writer.turn_step known fleet.store
    refine { inv := underway.inv.step (fleet.advance_step number),
             settled := underway.settled.step (fleet.advance_step number),
             drawing := ?_,
             working := ⟨_, still, turn.write_eq, ?_⟩ }
    · obtain ⟨later, -, drawing⟩ := drawing.advance number
      exact ⟨later, drawing⟩
    · rw [← draws.settings, step, rests]
      simpa using next

/-- A job with as many turns as it can take commits in one of them. -/
theorem exists_commit (underway : fleet.Underway planner database number since write)
    (anywhere : write.expected = .any) (unknown : write.origin.initiator = Uuid.nil)
    (fits : planner.settings.Fits write.events.length) {later : List Action}
    (calm : ∀ before after, later = before ++ .advance number :: after →
      (fleet.run before).Submits number →
        (fleet.run before).Calm planner database number since write.stream)
    {writer : Writer} (busy : fleet.jobs[number]? = some ⟨database, writer⟩)
    (enough : writer.stepsLeft ≤ turns number later) :
    ∃ before after, later = before ++ .advance number :: after ∧
      (fleet.run before).Underway planner database number since write ∧
      ∃ last transaction, (fleet.run before).jobs[number]? = some ⟨database, last⟩ ∧
        last.phase = .submitting transaction ∧
        last.commits? (fleet.run before).store = some transaction := by
  induction later generalizing fleet writer with
  | nil =>
    obtain ⟨result, committed, done⟩ := Writer.isFinished_of_stepsLeft (Nat.le_zero.mp enough)
    have charged := (underway.charged busy).2
    rw [done] at charged
    exact charged.elim
  | cons action rest ih =>
    have onwards (next : (fleet.act action).Underway planner database number since write)
        {after : Writer} (still : (fleet.act action).jobs[number]? = some ⟨database, after⟩)
        (left : after.stepsLeft ≤ turns number rest) :=
      ih next (fun before after whole => calm (action :: before) after (congrArg _ whole)) still left
    have shift {goal : List Action → Prop} (found : ∃ before after,
        rest = before ++ .advance number :: after ∧ goal (action :: before)) :
        ∃ before after, action :: rest = before ++ .advance number :: after ∧ goal before := by
      obtain ⟨before, after, whole, reached⟩ := found
      exact ⟨action :: before, after, congrArg _ whole, reached⟩
    by_cases turn : action.isTurn number = true
    · obtain rfl : action = .advance number := by
        cases action with
        | launch => cases turn
        | advance job => exact congrArg _ (of_decide_eq_true turn)
      rcases underway.advance anywhere unknown fits (calm [] rest rfl) busy with
        ⟨transaction, phase, commits⟩ | ⟨next, after, still, nearer⟩
      · exact ⟨[], rest, rfl, underway, writer, transaction, busy, phase, commits⟩
      · rw [turns, List.countP_cons_of_pos turn, ← turns] at enough
        exact shift (onwards next still (by omega))
    · rw [turns, List.countP_cons_of_neg turn, ← turns] at enough
      obtain ⟨next, same⟩ := underway.act_other (Bool.eq_false_iff.mpr turn)
      exact shift (onwards next (same.trans busy) enough)

/-- What the commit of a job leaves, whatever happens after it. -/
theorem lands (underway : fleet.Underway planner database number since write) {writer : Writer}
    (busy : fleet.jobs[number]? = some ⟨database, writer⟩) {transaction : Transaction}
    (phase : writer.phase = .submitting transaction)
    (commits : writer.commits? fleet.store = some transaction) (after : List Action) :
    let version := (fleet.store.header write.stream).getD Version.absent
    let last := (fleet.advance number).run after
    (fleet.advance number).commits = fleet.commits ++ [⟨number, write, transaction⟩] ∧
      transaction.events.map (·.position) = places (version.value + 1) write.events.length ∧
      transaction.events.map StoredEvent.content = write.events ∧
      (∃ rest, last.events write.stream =
        fleet.events write.stream ++ transaction.events ++ rest) ∧
      ∃ job, last.jobs[number]? = some job ∧ job.writer.phase =
        .finished (.ok (version.advance write.events.length)) (some transaction) := by
  intro version last
  obtain ⟨known, drawing⟩ := underway.drawing
  obtain ⟨rfl, -⟩ := underway.charged busy
  obtain ⟨settings, -, onCourse⟩ := underway.inv.jobs number _ busy
  obtain ⟨baseline, starts, planned⟩ := onCourse.at_phase phase
  have grown : (fleet.advance number).commits =
      fleet.commits ++ [⟨number, writer.write, transaction⟩] := by
    rw [advance_eq busy drawing.found, commits]
    rfl
  have start : version = baseline := by
    obtain ⟨turn, -⟩ := writer.turn_step known fleet.store
    rw [commits] at turn
    have here := (underway.inv.follows.streams _).start_eq planned starts.proper turn.of_commits.2.1
    rw [here, planned.stream]
    exact underway.inv.follows.header_getD _
  have inv : last.Inv := (underway.inv.step (fleet.advance_step number)).run after
  have settled : last.Settled := (underway.settled.step (fleet.advance_step number)).run after
  obtain ⟨more, whole⟩ := (fleet.advance number).commits_run after
  rw [grown] at whole
  refine ⟨grown, start ▸ planned.positions, planned.content, ?_, ?_⟩
  · refine ⟨(commitsTo writer.write.stream more).flatMap fun commit => commit.transaction.events, ?_⟩
    have own : commitsTo writer.write.stream [⟨number, writer.write, transaction⟩] =
        [⟨number, writer.write, transaction⟩] := by
      simp [commitsTo, planned.stream]
    rw [Fleet.events, Fleet.events, inv.follows.events_eq, underway.inv.follows.events_eq, ← whole,
      commitsTo_append, commitsTo_append, own, List.flatMap_append, List.flatMap_append,
      List.flatMap_singleton]
  · have member : ⟨number, writer.write, transaction⟩ ∈ last.commits := by
      rw [← whole]
      exact List.mem_append_left _ (List.mem_append_right _ List.mem_cons_self)
    obtain ⟨chosen, other, reached, working, done⟩ := settled _ member
    obtain ⟨_, -, course⟩ := inv.jobs number _ working
    refine ⟨_, working, ?_⟩
    rw [done, (course.at_phase done).1, planned.newVersion, start]

end Underway

/-- A write that is taken on is underway from a version that its stream had at an earlier moment. -/
theorem underway_launch {seen : Fleet} {planner known : Planner} {database : Nat}
    (inv : seen.Inv) (settled : seen.Settled) (drawing : seen.Drawing planner database known)
    (middle : List Action) {write : Write} (filled : write.events ≠ [])
    (read : write.retrieved = (seen.store.header write.stream).getD Version.absent) :
    let taken := seen.run middle
    (taken.launch database write).Underway planner database taken.jobs.length
        (commitsTo write.stream seen.commits).length write ∧
      (taken.launch database write).jobs[taken.jobs.length]? =
        some ⟨database, .start write planner.settings.retryLimit⟩ := by
  intro taken
  have proper : write.retrieved.Proper := by
    rw [read, inv.follows.header_getD]
    exact Version.proper_ofCount _
  obtain ⟨now, goes, drawing⟩ := drawing.run middle
  have launched : taken.launch database write = { taken with
      jobs := taken.jobs ++ [⟨database, .start write planner.settings.retryLimit⟩] } := by
    rw [launch, drawing.found]
    simp only [drawing.draws.settings]
  have busy : (taken.launch database write).jobs[taken.jobs.length]? =
      some ⟨database, .start write planner.settings.retryLimit⟩ := by
    rw [launched]
    exact List.getElem?_concat_length
  have step := taken.launch_step database proper
  refine ⟨⟨(inv.run middle).step step, (settled.run middle).step step,
    ⟨now, drawing.launch database write⟩, _, busy, rfl, ?_⟩, busy⟩
  obtain ⟨more, grown⟩ := seen.commits_run middle
  rw [Writer.phase_start_of_ne_nil filled, launched, ← grown, commitsTo_append]
  refine ⟨(commitsTo write.stream seen.commits).length, ?_, Nat.le_refl _, ?_⟩
  · rw [List.length_append]
    exact Nat.le_add_right _ _
  · rw [versionAfter_append _ (Nat.le_refl _), inv.follows.versionAfter_all, read,
      inv.follows.header_getD]

/-- A write at any version that nobody can put down to a cause gets through, however the jobs take
turns, if until its last submit others commit no more to its stream than it may be retried. What
they have committed only grows, so to ask at each submit is to ask at the last. Its events come
right after what is there when it is committed, and whatever else was committed stays. -/
theorem any_write_gets_through {planners : List Planner} {database : Nat} {planner : Planner}
    (found : planners[database]? = some planner) (early middle later : List Action)
    {write : Write} (filled : write.events ≠ [])
    (fits : planner.settings.Fits write.events.length) (anywhere : write.expected = .any)
    (unknown : write.origin.initiator = Uuid.nil) :
    let seen := (opened planners).run early
    let since := (commitsTo write.stream seen.commits).length
    let number := (seen.run middle).jobs.length
    let launched := (seen.run middle).launch database write
    let last := launched.run later
    write.retrieved = (seen.store.header write.stream).getD Version.absent →
      (∀ before after, later = before ++ .advance number :: after →
        (launched.run before).Submits number →
          (launched.run before).Calm planner database number since write.stream) →
        4 * (planner.settings.retryLimit + 1) ≤ turns number later →
          (∃ before after transaction,
            later = before ++ .advance number :: after ∧
              let current := launched.run before
              let version := (current.store.header write.stream).getD Version.absent
              (current.advance number).commits =
                  current.commits ++ [⟨number, write, transaction⟩] ∧
                transaction.events.map (·.position) =
                  places (version.value + 1) write.events.length ∧
                transaction.events.map StoredEvent.content = write.events ∧
                (∃ rest, last.events write.stream =
                  current.events write.stream ++ transaction.events ++ rest) ∧
                ∃ job, last.jobs[number]? = some job ∧ job.writer.phase =
                  .finished (.ok (version.advance write.events.length)) (some transaction)) ∧
            (∀ key, last.events key =
              (commitsTo key last.commits).flatMap fun commit => commit.transaction.events) ∧
            ∀ other job reached transaction, last.jobs[other]? = some job →
              job.writer.phase = .finished (.ok reached) (some transaction) →
                ⟨other, job.writer.write, transaction⟩ ∈ last.commits := by
  intro seen since number launched last read calm enough
  obtain ⟨now, -, drawing⟩ := (drawing_opened found).run early
  have inv : seen.Inv := (inv_opened planners).run early
  have settled : seen.Settled := (settled_opened planners).run early
  obtain ⟨underway, busy⟩ := underway_launch inv settled drawing middle filled read
  have lastInv : last.Inv := underway.inv.run later
  refine ⟨?_, lastInv.follows.events_eq, fun other job reached transaction working done =>
    lastInv.mem_of_committed working done⟩
  have left : (Writer.start write planner.settings.retryLimit).stepsLeft ≤ turns number later := by
    refine Nat.le_trans (Nat.le_of_eq ?_) enough
    rw [Writer.stepsLeft, Writer.phase_start_of_ne_nil filled]
    simp only [Writer.start]
    omega
  obtain ⟨before, after, whole, underway, writer, transaction, working, phase, commits⟩ :=
    underway.exists_commit anywhere unknown fits calm busy left
  have ran : last = ((launched.run before).advance number).run after := by
    simp only [last, whole, Fleet.run, List.foldl_append, List.foldl_cons]
    rfl
  refine ⟨before, after, transaction, whole, ?_⟩
  rw [ran]
  exact underway.lands working phase commits after

def retrying : Planner := { Planner.plain with settings := { retryLimit := 1 } }

/-- A payment into an account, whatever has happened to it. -/
def deposit : Write :=
  { opening with events := [⟨"Deposited", .null⟩], expected := .any, origin := {} }

/-- While a payment is planned, the account is opened. -/
def openMeanwhile : List Action :=
  [.launch 0 opening Version.proper_absent, .advance 0, .advance 1, .advance 1] ++
    List.replicate 7 (.advance 0)

def openedMeanwhile : Fleet := ((opened [retrying]).launch 0 deposit).run openMeanwhile

/-- The account knows neither of the two identities that were drawn for the payment. -/
theorem calm_openedMeanwhile : openedMeanwhile.Calm retrying 0 0 0 ⟨"account"⟩ where
  few := by decide
  reserves now found := by
    obtain ⟨draw_eq, issued⟩ : now.ids.draw = IdSource.sequential.draw ∧ now.ids.issued = 2 := by
      cases found
      exact ⟨rfl, rfl⟩
    constructor
    · have apart : ∀ first < 2, ∀ second < 2, IdSource.sequential.draw first =
          IdSource.sequential.draw second → first = second := by decide
      intro first second early late
      rw [issued] at early late
      rw [draw_eq]
      exact apart first early second late
    · intro commit listed job busy derives event inside draw before
      have pair : (commit.job, commit.transaction.ids) ∈
          [(1, [(Uuid.ofNat 7).derived 0]), (0, [Uuid.ofNat 2])] :=
        List.mem_map_of_mem (f := fun commit => (commit.job, commit.transaction.ids)) listed
      simp only [List.mem_cons, Prod.mk.injEq, List.not_mem_nil, or_false] at pair
      rcases pair with ⟨-, ids⟩ | ⟨first, -⟩
      · have own : event.id ∈ commit.transaction.ids := List.mem_map.mpr ⟨event, inside, rfl⟩
        rw [ids, List.mem_singleton] at own
        rw [draw_eq, own]
        rw [issued] at before
        revert draw
        decide
      · -- What is committed for the payment is drawn, not derived.
        have own : openedMeanwhile.jobs[0]?.map
            (fun job => (job.database, job.writer.write.origin.initiator)) = some (0, Uuid.nil) :=
          rfl
        rw [first] at busy
        rw [busy] at own
        obtain ⟨here, unknown⟩ := Prod.mk.inj (Option.some.inj own)
        exact absurd unknown (derives here).2

theorem deposit_gets_through :
    (∃ job version transaction, openedMeanwhile.jobs[0]? = some job ∧
        job.writer.phase = .finished (.ok version) (some transaction)) ∧
      (openedMeanwhile.events ⟨"account"⟩).map StoredEvent.content =
        [⟨"Opened", .null⟩, ⟨"Deposited", .null⟩] := by
  have found : [retrying][0]? = some retrying := rfl
  obtain ⟨⟨before, after, transaction, -, -, -, -, -, job, busy, done⟩, -, -⟩ :=
    any_write_gets_through found [] [] openMeanwhile (show deposit.events ≠ [] by decide)
      ⟨_, rfl⟩ rfl rfl rfl (by
        intro before after whole submits
        obtain ⟨now, -, drawing⟩ := ((drawing_opened found).launch 0 deposit).run before
        refine Calm.of_run drawing (?_ : (Fleet.run _ (.advance 0 :: after)).Calm _ _ _ _ _)
        have same := calm_openedMeanwhile
        rw [openedMeanwhile, whole, Fleet.run, List.foldl_append] at same
        exact same) (by decide)
  exact ⟨⟨job, _, transaction, busy, done⟩, rfl⟩

end Fleet

end EventSourcing
