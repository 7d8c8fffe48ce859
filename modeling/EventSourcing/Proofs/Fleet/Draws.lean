import EventSourcing.Proofs.Fleet.Timestamps

/-!
Identities that a database draws. Its source is asked anew for each transaction that is planned, so
no identity comes up twice among those that the jobs of the database are about to submit and those
that they have committed.
-/

namespace EventSourcing

/-- The transaction that a writer is about to submit, or has committed. -/
def Phase.transaction? : Phase → Option Transaction
  | .submitting transaction => some transaction
  | .finished _ committed => committed
  | _ => none

def Transaction.ids (transaction : Transaction) : List Uuid :=
  transaction.events.map (·.id)

namespace IdSource

theorem mem_upcoming {source : IdSource} {count : Nat} {id : Uuid} :
    id ∈ source.upcoming count ↔ ∃ number < count, source.draw (source.issued + number) = id := by
  simp only [upcoming, List.mem_map, List.mem_range]

/-- Whether the identities that were handed out so far differ from each other. -/
def Distinct (source : IdSource) : Prop :=
  ∀ first second, first < source.issued → second < source.issued →
    source.draw first = source.draw second → first = second

end IdSource

/-- Whether a database goes on with its settings and its source, of which it takes nothing back. -/
structure Planner.DrawsOn (planner later : Planner) : Prop where
  settings : later.settings = planner.settings
  draw : later.ids.draw = planner.ids.draw
  issued : planner.ids.issued ≤ later.ids.issued

theorem Planner.DrawsOn.distinct {planner later : Planner} (draws : planner.DrawsOn later)
    (distinct : later.ids.Distinct) : planner.ids.Distinct := by
  intro first second early late same
  rw [← draws.draw] at same
  exact distinct first second (Nat.lt_of_lt_of_le early draws.issued)
    (Nat.lt_of_lt_of_le late draws.issued) same

theorem Planner.DrawsOn.trans {planner later last : Planner} (first : planner.DrawsOn later)
    (second : later.DrawsOn last) : planner.DrawsOn last where
  settings := second.settings.trans first.settings
  draw := second.draw.trans first.draw
  issued := Nat.le_trans first.issued second.issued

namespace Writer

theorem planner_drawsOn (writer : Writer) (planner : Planner) (store : Store) :
    planner.DrawsOn (writer.step Store.backend planner store).2.1 := by
  by_cases planning : ∃ baseline, writer.phase = .planning baseline
  · obtain ⟨baseline, phase⟩ := planning
    cases fitting : planner.settings.layoutFor writer.write.events.length with
    | error error =>
      simp only [step, phase, Planner.plan, fitting, Except.map]
      exact ⟨rfl, rfl, Nat.le_refl _⟩
    | ok layout =>
      simp only [step, phase, Planner.plan, fitting, Except.map, Planner.used]
      split
      · exact ⟨rfl, rfl, Nat.le_refl _⟩
      · exact ⟨rfl, rfl, Nat.le_add_right _ _⟩
  · rw [planner_step (fun baseline phase => planning ⟨baseline, phase⟩) planner store]
    exact ⟨rfl, rfl, Nat.le_refl _⟩

/-- Only a writer that plans comes to hold another transaction. -/
theorem transaction?_of_step {writer : Writer}
    (planned : ∀ baseline, writer.phase ≠ .planning baseline) {planner : Planner} {store : Store}
    {transaction : Transaction}
    (held : (writer.step Store.backend planner store).1.phase.transaction? = some transaction) :
    writer.phase.transaction? = some transaction := by
  obtain ⟨turn, -⟩ := writer.turn_step planner store
  generalize (writer.step Store.backend planner store).1 = writer',
    (writer.step Store.backend planner store).2.2 = after,
    writer.commits? store = committed at turn held
  cases turn with
  | plans phase => exact absurd phase (planned _)
  | commits phase => rw [phase]; exact held
  | conflicts phase =>
    dsimp only at held
    split at held <;> cases held
  | searches phase =>
    dsimp only at held
    split at held <;> cases held
  | rests => exact held
  | _ => cases held

/-- A transaction that a writer comes to hold is one that it has held before, or one that it has
planned with what comes next from the source. -/
theorem transaction?_step (writer : Writer) (planner : Planner) (store : Store)
    {transaction : Transaction} :
    let next := writer.step Store.backend planner store
    next.1.phase.transaction? = some transaction →
      writer.phase.transaction? = some transaction ∨
        (¬planner.Derives writer.write.origin.initiator →
          transaction.ids = planner.ids.upcoming writer.write.events.length ∧
            next.2.1.ids.issued = planner.ids.issued + writer.write.events.length) := by
  intro next held
  by_cases planning : ∃ baseline, writer.phase = .planning baseline
  · obtain ⟨baseline, phase⟩ := planning
    cases fitting : planner.settings.layoutFor writer.write.events.length with
    | error error =>
      simp only [next, step, phase, Planner.plan, fitting, Except.map] at held
      cases held
    | ok layout =>
      simp only [next, step, phase, Planner.plan, fitting, Except.map] at held ⊢
      obtain rfl := Option.some.inj held
      refine .inr fun draws => ⟨?_, ?_⟩
      · rw [Transaction.ids, Planner.events_transaction,
          Write.ids_placed _ _ _ _ _ _ (planner.length_eventIds _ _), Planner.eventIds,
          if_neg draws]
      · simp only [Planner.used, if_neg draws, IdSource.skip]
  · exact .inl (transaction?_of_step (fun baseline phase => planning ⟨baseline, phase⟩) held)

end Writer

namespace Fleet

variable {fleet after : Fleet} {planner : Planner} {database : Nat}

/-- Whether a job holds a transaction with identities from the source of a database. -/
def Drew (fleet : Fleet) (planner : Planner) (database number : Nat) (transaction : Transaction) :
    Prop :=
  ∃ job, fleet.jobs[number]? = some job ∧ job.database = database ∧
    ¬planner.Derives job.writer.write.origin.initiator ∧
    job.writer.phase.transaction? = some transaction

/-- Whether, as long as a source repeats itself nowhere, nothing that was drawn from it comes up
twice. -/
structure Drawing (planner : Planner) (database : Nat) (fleet : Fleet) (now : Planner) : Prop where
  found : fleet.planners[database]? = some now
  draws : planner.DrawsOn now
  taken : ∀ number transaction, fleet.Drew planner database number transaction →
    ∀ id ∈ transaction.ids, ∃ draw < now.ids.issued, now.ids.draw draw = id
  distinct : now.ids.Distinct → ∀ number transaction,
    fleet.Drew planner database number transaction → transaction.ids.Nodup
  apart : now.ids.Distinct → ∀ number other first second, number ≠ other →
    fleet.Drew planner database number first → fleet.Drew planner database other second →
      ∀ id ∈ first.ids, id ∉ second.ids

theorem drawing_opened {planners : List Planner} (listed : planners[database]? = some planner) :
    (opened planners).Drawing planner database planner := by
  have nobody {number : Nat} {transaction : Transaction} :
      ¬(opened planners).Drew planner database number transaction := by
    rintro ⟨job, busy, -⟩
    cases busy
  exact { found := listed, draws := ⟨rfl, rfl, Nat.le_refl _⟩,
          taken := fun _ _ drew => absurd drew nobody,
          distinct := fun _ _ _ drew => absurd drew nobody,
          apart := fun _ _ _ _ _ _ drew => absurd drew nobody }

variable {now : Planner}

/-- Where nobody comes to hold a transaction, nothing is drawn. -/
theorem Drawing.of_drew (drawing : fleet.Drawing planner database now)
    (same : after.planners[database]? = fleet.planners[database]?)
    (held : ∀ number transaction, after.Drew planner database number transaction →
      fleet.Drew planner database number transaction) : after.Drawing planner database now where
  found := same.trans drawing.found
  draws := drawing.draws
  taken _ _ drew := drawing.taken _ _ (held _ _ drew)
  distinct once _ _ drew := drawing.distinct once _ _ (held _ _ drew)
  apart once _ _ _ _ different drew too :=
    drawing.apart once _ _ _ _ different (held _ _ drew) (held _ _ too)

theorem Drawing.launch (drawing : fleet.Drawing planner database now) (chosen : Nat)
    (write : Write) : (fleet.launch chosen write).Drawing planner database now := by
  unfold Fleet.launch
  split
  · exact drawing
  · refine drawing.of_drew rfl ?_
    rintro number transaction ⟨job, busy, own, draws, held⟩
    rw [List.getElem?_append] at busy
    split at busy
    · exact ⟨job, busy, own, draws, held⟩
    · obtain rfl := List.mem_singleton.mp (List.mem_of_getElem? busy)
      simp only [Writer.start] at held
      split at held <;> cases held

/-- What a job holds after a step, it has held before or has drawn in that step. -/
theorem drew_of_advance {number : Nat} {job : Job} {known : Planner}
    (busy : fleet.jobs[number]? = some job) (found : fleet.planners[job.database]? = some known)
    (same : job.database = database → known.settings = planner.settings) {other : Nat}
    {transaction : Transaction}
    (drew : (fleet.advance number).Drew planner database other transaction) :
    fleet.Drew planner database other transaction ∨
      other = number ∧ job.database = database ∧
        transaction.ids = known.ids.upcoming job.writer.write.events.length ∧
        (job.writer.step Store.backend known fleet.store).2.1.ids.issued =
          known.ids.issued + job.writer.write.events.length := by
  obtain ⟨task, working, own, draws, held⟩ := drew
  rw [advance_eq busy found, List.getElem?_set] at working
  split at working
  · rename_i here
    subst here
    split at working
    · obtain rfl := Option.some.inj working
      obtain ⟨turn, -⟩ := job.writer.turn_step known fleet.store
      rw [turn.write_eq] at draws
      rcases job.writer.transaction?_step known fleet.store held with before | drawn
      · exact .inl ⟨job, busy, own, draws, before⟩
      · rw [Planner.Derives, same own] at drawn
        exact .inr ⟨rfl, own, drawn draws⟩
    · cases working
  · exact .inl ⟨task, working, own, draws, held⟩

theorem Drawing.advance (drawing : fleet.Drawing planner database now) (number : Nat) :
    ∃ later, now.DrawsOn later ∧ (fleet.advance number).Drawing planner database later := by
  have still : ∃ later, now.DrawsOn later ∧ fleet.Drawing planner database later :=
    ⟨now, ⟨rfl, rfl, Nat.le_refl _⟩, drawing⟩
  cases busy : fleet.jobs[number]? with
  | none => simpa only [Fleet.advance, busy] using still
  | some job =>
    cases found : fleet.planners[job.database]? with
    | none => simpa only [Fleet.advance, busy, found] using still
    | some known =>
      have same (here : job.database = database) : known = now := by
        subst here
        exact Option.some.inj (found.symm.trans drawing.found)
      have drawn {other : Nat} {transaction : Transaction}
          (drew : (fleet.advance number).Drew planner database other transaction) :=
        drew_of_advance busy found (fun here => same here ▸ drawing.draws.settings) drew
      have step := advance_eq busy found
      have goes := job.writer.planner_drawsOn known fleet.store
      generalize job.writer.step Store.backend known fleet.store = next at drawn step goes
      by_cases here : job.database = database
      · obtain rfl := same here
        -- Where the source repeats nothing, what comes next from it was not drawn before.
        have unlike (once : next.2.1.ids.Distinct) {transaction second : Transaction} {other : Nat}
            (ids : transaction.ids = known.ids.upcoming job.writer.write.events.length)
            (issued : next.2.1.ids.issued = known.ids.issued + job.writer.write.events.length)
            (drew : fleet.Drew planner database other second) {id : Uuid}
            (member : id ∈ transaction.ids) : id ∉ second.ids := by
          intro held
          obtain ⟨early, before, shown⟩ := drawing.taken other second drew id held
          rw [ids, IdSource.mem_upcoming] at member
          obtain ⟨late, inside, rfl⟩ := member
          rw [← goes.draw] at shown
          have equal := once _ _ (by omega) (by omega) shown
          omega
        refine ⟨next.2.1, goes, ?_, drawing.draws.trans goes, ?_, ?_, ?_⟩
        · rw [step, ← here]
          exact List.getElem?_set_self (List.getElem?_eq_some_iff.mp found).1
        · intro other transaction drew id member
          rw [goes.draw]
          rcases drawn drew with old | ⟨-, -, ids, issued⟩
          · obtain ⟨draw, before, shown⟩ := drawing.taken other transaction old id member
            exact ⟨draw, Nat.lt_of_lt_of_le before goes.issued, shown⟩
          · rw [ids, IdSource.mem_upcoming] at member
            obtain ⟨place, inside, shown⟩ := member
            exact ⟨_, by omega, shown⟩
        · intro once other transaction drew
          rcases drawn drew with old | ⟨-, -, ids, issued⟩
          · exact drawing.distinct (goes.distinct once) other transaction old
          · rw [ids, IdSource.upcoming, List.Nodup, List.pairwise_map]
            refine List.nodup_range.imp_of_mem ?_
            intro first second early late different shown
            rw [List.mem_range] at early late
            rw [← goes.draw] at shown
            have equal := once _ _ (by omega) (by omega) shown
            omega
        · intro once one other first second different drew too id member
          rcases drawn drew with old | ⟨rfl, -, ids, issued⟩
          · rcases drawn too with older | ⟨rfl, -, ids, issued⟩
            · exact drawing.apart (goes.distinct once) one other _ _ different old older id member
            · exact fun held => unlike once ids issued old held member
          · rcases drawn too with older | ⟨rfl, -⟩
            · exact unlike once ids issued older member
            · exact absurd rfl different
      · refine ⟨now, ⟨rfl, rfl, Nat.le_refl _⟩, drawing.of_drew ?_ fun other transaction drew =>
          (drawn drew).resolve_right fun new => here new.2.1⟩
        rw [step]
        exact List.getElem?_set_ne here

theorem Drawing.act (drawing : fleet.Drawing planner database now) (action : Action) :
    ∃ later, now.DrawsOn later ∧ (fleet.act action).Drawing planner database later := by
  cases action with
  | launch chosen write proper =>
    exact ⟨now, ⟨rfl, rfl, Nat.le_refl _⟩, drawing.launch chosen write⟩
  | advance number => exact drawing.advance number

theorem Drawing.run (drawing : fleet.Drawing planner database now) (actions : List Action) :
    ∃ later, now.DrawsOn later ∧ (fleet.run actions).Drawing planner database later := by
  induction actions generalizing fleet now with
  | nil => exact ⟨now, ⟨rfl, rfl, Nat.le_refl _⟩, drawing⟩
  | cons action rest ih =>
    obtain ⟨next, goes, drawing⟩ := drawing.act action
    obtain ⟨later, further, drawing⟩ := ih drawing
    exact ⟨later, goes.trans further, drawing⟩

/-- Whether the source of a database has repeated nothing: neither itself, nor an identity that
others use in a stream, which are other databases and jobs whose identities are derived. -/
structure Reserves (fleet : Fleet) (now : Planner) (database : Nat) (key : StreamKey) : Prop where
  once : now.ids.Distinct
  unused : ∀ commit ∈ commitsTo key fleet.commits, ∀ job, fleet.jobs[commit.job]? = some job →
    (job.database = database → now.Derives job.writer.write.origin.initiator) →
      ∀ event ∈ commit.transaction.events, ∀ draw < now.ids.issued, now.ids.draw draw ≠ event.id

/-- From such a source a database submits identities that the stream does not know. -/
theorem Drawing.fresh (drawing : fleet.Drawing planner database now) (inv : fleet.Inv)
    (settled : fleet.Settled) {key : StreamKey} (reserves : fleet.Reserves now database key)
    {number : Nat} {job : Job} {transaction : Transaction}
    (busy : fleet.jobs[number]? = some job) (own : job.database = database)
    (draws : ¬planner.Derives job.writer.write.origin.initiator)
    (phase : job.writer.phase = .submitting transaction) :
    transaction.ids.Nodup ∧ ∀ id ∈ transaction.ids, id ∉ (fleet.events key).map (·.id) := by
  have drew : fleet.Drew planner database number transaction :=
    ⟨job, busy, own, draws, by rw [phase]; rfl⟩
  refine ⟨drawing.distinct reserves.once number transaction drew, ?_⟩
  intro id member used
  rw [Fleet.events, inv.follows.events_eq] at used
  obtain ⟨event, inside, rfl⟩ := List.mem_map.mp used
  obtain ⟨commit, listed, inside⟩ := List.mem_flatMap.mp inside
  obtain ⟨chosen, writer, version, working, done⟩ :=
    settled commit (mem_commitsTo.mp listed).1
  by_cases drawn : chosen = database ∧ ¬planner.Derives writer.write.origin.initiator
  · have held : fleet.Drew planner database commit.job commit.transaction :=
      ⟨_, working, drawn.1, drawn.2, by rw [done]; rfl⟩
    have different : number ≠ commit.job := by
      rintro rfl
      rw [Option.some.inj (busy.symm.trans working)] at phase
      cases phase.symm.trans done
    exact drawing.apart reserves.once number commit.job _ _ different drew held _ member
      (List.mem_map.mpr ⟨event, inside, rfl⟩)
  · obtain ⟨draw, before, shown⟩ := drawing.taken number transaction drew _ member
    refine reserves.unused commit listed _ working ?_ event inside draw before shown
    intro here
    rw [Planner.Derives, drawing.draws.settings]
    exact Classical.byContradiction fun derives => drawn ⟨here, derives⟩

end Fleet

end EventSourcing
