import EventSourcing.Proofs.Fleet.Course
import Mathlib.Data.List.Pairwise

/-!
Timestamps over one database. A transaction is stamped while it is planned, long before it is known
who goes first; but the version that it goes on from was reached by then, so whatever stands in the
stream up to there was stamped earlier. If the stream goes on meanwhile, the transaction is refused.
-/

namespace EventSourcing

theorem Commit.Sound.exists_stampedAt {settings : List StoreSettings} {commit : Commit}
    (sound : commit.Sound settings) : ∃ instant, commit.transaction.StampedAt instant := by
  obtain ⟨chosen, -, planner, layout, -, -, same⟩ := sound.planned
  exact ⟨planner.clock.now, same ▸ planner.stampedAt_transaction _ _ layout⟩

namespace Writer

/-- Only a writer that plans asks the planner for anything. -/
theorem planner_step {writer : Writer} (planned : ∀ baseline, writer.phase ≠ .planning baseline)
    (planner : Planner) (store : Store) :
    (writer.step Store.backend planner store).2.1 = planner := by
  cases phase : writer.phase with
  | planning baseline => exact absurd phase (planned baseline)
  | _ => simp only [step, phase]

/-- Readings follow each other, and each transaction that comes to be submitted has one of its
own. -/
theorem clock_step (writer : Writer) (planner : Planner) (store : Store) :
    let next := writer.step Store.backend planner store
    next.2.1.clock.reading = planner.clock.reading ∧
      planner.clock.taken ≤ next.2.1.clock.taken ∧
      ∀ transaction, next.1.phase = .submitting transaction →
        transaction.StampedAt planner.clock.now ∧ planner.clock.taken < next.2.1.clock.taken := by
  intro next
  by_cases planning : ∃ baseline, writer.phase = .planning baseline
  · obtain ⟨baseline, phase⟩ := planning
    cases fitting : planner.settings.layoutFor writer.write.events.length with
    | error error =>
      simp only [next, step, phase, Planner.plan, fitting, Except.map, planned, fail]
      exact ⟨trivial, Nat.le_refl _, fun _ submits => by cases submits⟩
    | ok layout =>
      simp only [next, step, phase, Planner.plan, fitting, Except.map, planned]
      refine ⟨rfl, Nat.le_succ _, ?_⟩
      intro transaction same
      cases same
      exact ⟨planner.stampedAt_transaction _ _ layout, Nat.lt_succ_self _⟩
  · have same : next.2.1 = planner :=
      planner_step (fun baseline phase => planning ⟨baseline, phase⟩) planner store
    rw [same]
    refine ⟨rfl, Nat.le_refl _, ?_⟩
    intro transaction submitting
    obtain ⟨turn, -⟩ := writer.turn_step planner store
    change Turn _ _ _ next.1 next.2.2 _ at turn
    generalize next.1 = writer', next.2.2 = after, writer.commits? store = committed at turn submitting
    cases turn with
    | plans phase => exact absurd ⟨_, phase⟩ planning
    | conflicts phase =>
      dsimp only at submitting
      split at submitting <;> cases submitting
    | searches phase =>
      dsimp only at submitting
      split at submitting <;> cases submitting
    | rests phase => cases phase.symm.trans submitting
    | _ => cases submitting

end Writer

namespace Store

/-- Whether a stream has come to a version, or past it. -/
def Reaches (store : Store) (key : StreamKey) (version : Version) : Prop :=
  version.value < (store.stream key).events.length

theorem reaches_absent (store : Store) (key : StreamKey) : store.Reaches key Version.absent := by
  simp only [Reaches, Version.absent]
  omega

theorem reaches_ofCount {store : Store} {key : StreamKey} {count : Nat}
    (inside : count ≤ (store.stream key).events.length) :
    store.Reaches key (Version.ofCount count) := by
  simp only [Reaches, Version.ofCount]
  omega

/-- Whether each stream of a store is a first part of the one in another. -/
def Within (first second : Store) : Prop :=
  ∀ key, (first.stream key).events <+: (second.stream key).events

variable {store later : Store} {key : StreamKey} {version : Version}

theorem Reaches.mono (reaches : store.Reaches key version) (within : store.Within later) :
    later.Reaches key version :=
  Int.lt_of_lt_of_le reaches (Int.ofNat_le.mpr (within key).length_le)

end Store

/-- Whether a clock shows the same, and has been read as often at least. -/
structure Clock.GoesOn (clock later : Clock) : Prop where
  reading : later.reading = clock.reading
  taken : clock.taken ≤ later.taken

theorem Clock.Steady.goesOn {clock later : Clock} (steady : clock.Steady)
    (goes : clock.GoesOn later) : later.Steady := by
  rw [Steady, goes.reading]
  exact steady

namespace Writer

/-- What each phase says about the stream of the write and about the readings taken so far. A
planned transaction comes after all that is stamped, unless its stream has gone past the version
that it goes on from. -/
def InTime (write : Write) (store : Store) (clock : Clock) : Phase → Prop
  | .planning baseline => store.Reaches write.stream baseline
  | .submitting transaction =>
    store.Reaches write.stream transaction.baseline ∧
      ∃ number < clock.taken, transaction.StampedAt (clock.reading number) ∧
        (store.Reaches write.stream (transaction.baseline.advance 1) ∨
          ∀ event ∈ (store.stream write.stream).events,
            event.occurredAt.NotAfter (clock.reading number))
  | .finished (.ok version) _ => store.Reaches write.stream version
  | _ => True

variable {write : Write} {store later : Store} {clock after : Clock} {phase : Phase}

theorem InTime.mono (inTime : InTime write store clock phase) (within : store.Within later)
    (goes : clock.GoesOn after) : InTime write later after phase := by
  cases phase with
  | planning baseline => exact Store.Reaches.mono inTime within
  | submitting transaction =>
    obtain ⟨reaches, number, past, stamped, order⟩ := inTime
    refine ⟨reaches.mono within, number, Nat.lt_of_lt_of_le past goes.taken, ?_, ?_⟩
    · rw [goes.reading]
      exact stamped
    rcases order with beyond | order
    · exact .inl (beyond.mono within)
    · by_cases longer : (store.stream write.stream).events.length <
          (later.stream write.stream).events.length
      · refine .inl ?_
        simp only [Store.Reaches, Version.advance] at reaches ⊢
        omega
      · have same := (within write.stream).eq_of_length_le (Nat.le_of_not_lt longer)
        rw [← same, goes.reading]
        exact .inr order
  | finished result committed =>
    cases result with
    | ok version => exact Store.Reaches.mono inTime within
    | error error => trivial
  | _ => trivial

theorem inTime_start {limit : Nat} (reaches : store.Reaches write.stream write.retrieved) :
    InTime write store clock (start write limit).phase := by
  cases filled : write.events with
  | nil =>
    simp only [start, filled]
    exact reaches
  | cons event rest =>
    simp only [start, filled]
    exact reaches

end Writer

/-- Whether all that is in a store was stamped with readings that a clock has shown, and in every
stream in the order of the events. -/
structure Store.InTime (store : Store) (clock : Clock) : Prop where
  past : ∀ key, ∀ event ∈ (store.stream key).events,
    ∃ number < clock.taken, event.occurredAt = clock.reading number
  ordered : ∀ key, (store.stream key).events.Pairwise fun first second =>
    first.occurredAt.NotAfter second.occurredAt

namespace Store

theorem within_submit (store : Store) (transaction : Transaction) :
    store.Within (store.submit transaction).1 :=
  fun key => store.prefix_submit transaction key

variable {store : Store} {clock after : Clock}

theorem inTime_empty (clock : Clock) : InTime {} clock where
  past _ _ member := nomatch member
  ordered _ := List.Pairwise.nil

theorem InTime.goesOn (inTime : store.InTime clock) (goes : clock.GoesOn after) :
    store.InTime after where
  past key event member := by
    obtain ⟨number, past, same⟩ := inTime.past key event member
    exact ⟨number, Nat.lt_of_lt_of_le past goes.taken, same.trans (congrFun goes.reading _).symm⟩
  ordered := inTime.ordered

/-- A transaction that was stamped after all that stands in its stream. -/
theorem InTime.submit (inTime : store.InTime clock) {transaction : Transaction} {number : Nat}
    (past : number < clock.taken) (stamped : transaction.StampedAt (clock.reading number))
    (order : ∀ event ∈ (store.stream transaction.stream).events,
      event.occurredAt.NotAfter (clock.reading number)) :
    (store.submit transaction).1.InTime clock := by
  have moved (key : StreamKey) : (store.submit transaction).1.stream key = store.stream key ∨
      key = transaction.stream ∧ ((store.submit transaction).1.stream key).events =
        (store.stream key).events ++ transaction.events := by
    rw [stream_submit]
    split
    · rename_i both
      exact .inr ⟨both.1, Stream.events_apply _ _⟩
    · exact .inl rfl
  constructor
  · intro key event member
    rcases moved key with same | ⟨rfl, same⟩
    · exact inTime.past key event (same ▸ member)
    · rw [same] at member
      rcases List.mem_append.mp member with old | new
      · exact inTime.past _ event old
      · exact ⟨number, past, stamped event new⟩
  · intro key
    rcases moved key with same | ⟨rfl, same⟩
    · rw [same]
      exact inTime.ordered key
    · rw [same, List.pairwise_append]
      refine ⟨inTime.ordered _, ?_, ?_⟩
      · apply List.pairwise_of_forall_mem_list
        intro first firstIn second secondIn
        rw [stamped first firstIn, stamped second secondIn]
        exact .refl _
      · intro old oldIn new newIn
        rw [stamped new newIn]
        exact order old oldIn

end Store

namespace Writer

variable {writer writer' : Writer} {store store' : Store} {settings : StoreSettings}
  {listed : List StoreSettings} {commits : List Commit} {number : Nat} {clock after : Clock}
  {committed : Option Transaction}

theorem Turn.within (turn : Turn settings writer store writer' store' committed) :
    store.Within store' := by
  cases committed with
  | none => exact turn.store_eq ▸ fun _ => List.prefix_refl _
  | some transaction =>
    obtain ⟨-, -, rfl⟩ := turn.of_commits
    exact store.within_submit transaction

/-- What a turn does to the store comes in time. -/
theorem InTime.store_turn (inTime : InTime writer.write store clock writer.phase)
    (stored : store.InTime clock) (onCourse : writer.OnCourse settings commits number)
    (follows : store.Follows listed commits)
    (turn : Turn settings writer store writer' store' committed) : store'.InTime clock := by
  cases committed with
  | none => exact turn.store_eq ▸ stored
  | some transaction =>
    obtain ⟨phase, accepted, rfl⟩ := turn.of_commits
    obtain ⟨baseline, starts, planned⟩ := onCourse.at_phase phase
    rw [phase] at inTime
    obtain ⟨-, taken, past, stamped, order⟩ := inTime
    rw [← planned.stream] at order
    refine stored.submit past stamped ?_
    rcases order with beyond | order
    · -- The stream would have gone on, and the header would not be as the transaction says.
      have here := (follows.streams _).start_eq planned starts.proper accepted
      rw [planned.baseline_eq starts.proper, here] at beyond
      simp only [Store.Reaches, Version.advance, Version.ofCount] at beyond
      omega
    · exact order

/-- The step that keeps a writer in time. -/
theorem InTime.turn (inTime : InTime writer.write store clock writer.phase)
    (stored : store.InTime clock) (steady : clock.Steady)
    (onCourse : writer.OnCourse settings commits number) (follows : store.Follows listed commits)
    (turn : Turn settings writer store writer' store' committed) (goes : clock.GoesOn after)
    (stamped : ∀ transaction, writer'.phase = .submitting transaction →
      transaction.StampedAt clock.now ∧ clock.taken < after.taken) :
    InTime writer'.write store' after writer'.phase := by
  rw [turn.write_eq]
  cases turn with
  | plans phase planned =>
    have starts := onCourse.at_phase phase
    obtain ⟨now, more⟩ := stamped _ rfl
    rw [phase] at inTime
    refine ⟨planned.baseline_eq starts.proper ▸ inTime, clock.taken, more, ?_, .inr ?_⟩
    · rw [goes.reading]
      exact now
    · intro event member
      obtain ⟨past, earlier, same⟩ := stored.past _ event member
      rw [same, goes.reading]
      exact steady past clock.taken (Nat.le_of_lt earlier)
  | @commits transaction phase accepted =>
    obtain ⟨baseline, starts, planned⟩ := onCourse.at_phase phase
    have here := (follows.streams _).start_eq planned starts.proper accepted
    have stored : (store.submit transaction).1.stream writer.write.stream =
        (store.stream transaction.stream).apply transaction := by
      rw [← planned.stream, Store.stream_submit, if_pos ⟨rfl, accepted⟩]
    change Store.Reaches _ _ transaction.newVersion
    rw [planned.newVersion_eq here, ← stored]
    exact Store.reaches_ofCount (Nat.le_refl _)
  | confirms phase =>
    change Store.Reaches _ _ _
    rw [follows.header_getD]
    exact Store.reaches_ofCount (Nat.le_refl _)
  | replans phase expected shown allowed =>
    change Store.Reaches _ _ _
    rw [(follows.header_eq_some shown).1]
    exact Store.reaches_ofCount (Nat.le_refl _)
  | conflicts phase refused =>
    dsimp only
    split <;> trivial
  | searches phase =>
    dsimp only
    split <;> trivial
  | misfits phase refused => trivial
  | fails phase => trivial
  | rests phase => exact inTime.mono (fun _ => List.prefix_refl _) goes

end Writer

/-- Whether a fleet of one database is in time with the clock that it reads. -/
structure Fleet.InTime (fleet : Fleet) (planner : Planner) : Prop where
  sole : fleet.planners = [planner]
  store : fleet.store.InTime planner.clock
  jobs : ∀ (number : Nat) (job : Job), fleet.jobs[number]? = some job →
    Writer.InTime job.writer.write fleet.store planner.clock job.writer.phase

namespace Fleet

theorem inTime_opened (planner : Planner) : (opened [planner]).InTime planner where
  sole := rfl
  store := Store.inTime_empty _
  jobs _ _ busy := nomatch busy

variable {fleet : Fleet} {planner : Planner}

/-- A write may be taken on once its stream has come to the version that it goes on from. -/
theorem InTime.launch (inTime : fleet.InTime planner) (database : Nat) {write : Write}
    (reaches : fleet.store.Reaches write.stream write.retrieved) :
    (fleet.launch database write).InTime planner := by
  unfold Fleet.launch
  split
  · exact inTime
  · refine { inTime with jobs := ?_ }
    intro number job busy
    rw [List.getElem?_append] at busy
    split at busy
    · exact inTime.jobs number job busy
    · obtain rfl := List.mem_singleton.mp (List.mem_of_getElem? busy)
      exact Writer.inTime_start reaches

/-- Whoever goes on, all stays in time. -/
theorem InTime.advance (inTime : fleet.InTime planner) (inv : fleet.Inv)
    (steady : planner.clock.Steady) (number : Nat) :
    ∃ later, planner.clock.GoesOn later.clock ∧ (fleet.advance number).InTime later := by
  have still : ∃ later, planner.clock.GoesOn later.clock ∧ fleet.InTime later :=
    ⟨planner, ⟨rfl, Nat.le_refl _⟩, inTime⟩
  cases busy : fleet.jobs[number]? with
  | none => simpa only [Fleet.advance, busy] using still
  | some job =>
    cases found : fleet.planners[job.database]? with
    | none => simpa only [Fleet.advance, busy, found] using still
    | some known =>
      obtain ⟨rfl, first⟩ : known = planner ∧ job.database = 0 := by
        rw [inTime.sole, List.getElem?_singleton] at found
        split at found
        · exact ⟨(Option.some.inj found).symm, ‹_›⟩
        · cases found
      obtain ⟨settings, listed, onCourse⟩ := inv.jobs number job busy
      obtain rfl : known.settings = settings := by
        rw [Fleet.settings, List.getElem?_map, found] at listed
        exact Option.some.inj listed
      obtain ⟨turn, -⟩ := job.writer.turn_step known fleet.store
      obtain ⟨reading, taken, stamped⟩ := job.writer.clock_step known fleet.store
      have step := advance_eq busy found
      generalize job.writer.step Store.backend known fleet.store = next at *
      obtain ⟨writer, later, store⟩ := next
      have goes : known.clock.GoesOn later.clock := ⟨reading, taken⟩
      have own := inTime.jobs number job busy
      have within : fleet.store.Within store := turn.within
      refine ⟨later, goes, ?_⟩
      rw [step]
      refine ⟨?_, (own.store_turn inTime.store onCourse inv.follows turn).goesOn goes, ?_⟩
      · rw [inTime.sole, first]
        rfl
      · intro other task working
        rw [List.getElem?_set] at working
        split at working
        · split at working
          · obtain rfl := Option.some.inj working
            exact own.turn inTime.store steady onCourse inv.follows turn goes stamped
          · cases working
        · exact (inTime.jobs other task working).mono within goes

theorem Step.within {after : Fleet} (step : fleet.Step after) :
    fleet.store.Within after.store := by
  cases step with
  | advances busy found turn same => exact turn.within
  | _ => exact fun _ => List.prefix_refl _

/-- Whether every commit is the last thing that its job has done. -/
def Settled (fleet : Fleet) : Prop :=
  ∀ commit ∈ fleet.commits, ∃ database writer version,
    fleet.jobs[commit.job]? = some ⟨database, writer⟩ ∧
      writer.phase = .finished (.ok version) (some commit.transaction)

theorem settled_opened (planners : List Planner) : (opened planners).Settled :=
  fun _ member => nomatch member

theorem Settled.step (settled : fleet.Settled) {after : Fleet} (step : fleet.Step after) :
    after.Settled := by
  intro commit member
  cases step with
  | rests => exact settled commit member
  | launches proper found =>
    obtain ⟨database, writer, version, busy, done⟩ := settled commit member
    refine ⟨database, writer, version, ?_, done⟩
    rw [List.getElem?_append_left (List.getElem?_eq_some_iff.mp busy).1]
    exact busy
  | @advances number job settings writer planners store committed working found turn same =>
    have inside := (List.getElem?_eq_some_iff.mp working).1
    rcases List.mem_append.mp member with old | new
    · obtain ⟨database, known, version, busy, done⟩ := settled commit old
      by_cases here : number = commit.job
      · -- The job has finished, and its turn changes nothing.
        subst here
        obtain rfl : job = ⟨database, known⟩ := Option.some.inj (working.symm.trans busy)
        refine ⟨database, writer, version, List.getElem?_set_self inside, ?_⟩
        cases turn with
        | rests phase => exact done
        | _ phase => cases phase.symm.trans done
      · refine ⟨database, known, version, ?_, done⟩
        rw [List.getElem?_set_ne here]
        exact busy
    · cases turn with
      | commits phase accepted =>
        obtain rfl := List.mem_singleton.mp new
        exact ⟨_, _, _, List.getElem?_set_self inside, rfl⟩
      | _ => cases new

theorem Settled.run (settled : fleet.Settled) (actions : List Action) :
    (fleet.run actions).Settled := by
  induction actions generalizing fleet with
  | nil => exact settled
  | cons action rest ih => exact ih (settled.step (fleet.act_step action))

/-- No job commits twice. -/
theorem Settled.unique (settled : fleet.Settled) {first second : Commit}
    (firstIn : first ∈ fleet.commits) (secondIn : second ∈ fleet.commits)
    (same : first.job = second.job) : first.transaction = second.transaction := by
  obtain ⟨_, _, _, busy, done⟩ := settled first firstIn
  obtain ⟨_, _, _, still, finished⟩ := settled second secondIn
  rw [same] at busy
  obtain ⟨-, rfl⟩ := Job.mk.inj (Option.some.inj (busy.symm.trans still))
  exact Option.some.inj (Phase.finished.inj (done.symm.trans finished)).2

end Fleet

end EventSourcing
