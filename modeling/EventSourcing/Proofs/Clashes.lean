import EventSourcing.Proofs.Derived
import EventSourcing.Proofs.Layouts
import EventSourcing.Proofs.Undisturbed

/-!
Conflicts that no other writer causes. At the version of its stream a write by a new initiator goes
through unless its identities clash: with one another, which takes more events than there are 32-bit
words, or with an event of the stream. Identities of two known initiators meet only if these agree
in their first twelve bytes.
-/

namespace EventSourcing

/-- Whether two of the identities derived for a write are the same, or one of them is taken. -/
def Write.Clashes (write : Write) (stream : Stream) : Prop :=
  UInt32.size < write.events.length ∨
    ∃ index < write.events.length, ∃ event ∈ stream.events,
      event.id = write.origin.initiator.derived index

/-- Whether two identifiers have their first twelve bytes in common. -/
def Uuid.Near (first second : Uuid) : Prop :=
  first.bits.extractLsb' 32 96 = second.bits.extractLsb' 32 96

instance (first second : Uuid) : Decidable (first.Near second) :=
  inferInstanceAs (Decidable (_ = _))

/-- With derived identities, the version and the clashes decide about a planned transaction. -/
theorem Stream.Sound.accepts_derived_iff {key : StreamKey} {stream : Stream}
    (sound : stream.Sound key) {settings : StoreSettings} {write : Write} {baseline : Version}
    {transaction : Transaction} (planned : Planned settings write baseline transaction)
    (proper : baseline.Proper) (idempotent : settings.idempotency = true)
    (known : write.origin.initiator ≠ Uuid.nil) :
    stream.accepts transaction = true ↔
      baseline = Version.ofCount stream.events.length ∧ ¬write.Clashes stream := by
  rw [sound.accepts_planned_iff planned proper, planned.ids idempotent known,
    Uuid.nodup_derived_iff, Write.Clashes, not_or, Nat.not_lt]
  refine and_congr_right fun _ => and_congr_right fun _ => ?_
  constructor
  · rintro unused ⟨index, inside, event, member, met⟩
    refine unused (write.origin.initiator.derived index) ?_ ?_
    · exact List.mem_map.mpr ⟨index, List.mem_range.mpr inside, rfl⟩
    · exact List.mem_map.mpr ⟨event, member, met⟩
  · intro apart id derived taken
    obtain ⟨index, inside, rfl⟩ := List.mem_map.mp derived
    obtain ⟨event, member, met⟩ := List.mem_map.mp taken
    exact apart ⟨index, List.mem_range.mp inside, event, member, met⟩

/-- Who wrote an event that an identity derived for another write meets. -/
theorem Store.Follows.near_of_met {store : Store} {settings : List StoreSettings}
    {commits : List Commit} (follows : store.Follows settings commits)
    (idempotent : ∀ chosen ∈ settings, chosen.idempotency = true) {key : StreamKey}
    {event : StoredEvent} (member : event ∈ (store.stream key).events) {initiator : Uuid}
    {index : Nat} (met : event.id = initiator.derived index) :
    event.initiator = Uuid.nil ∨ event.initiator.Near initiator := by
  rw [follows.events_eq] at member
  obtain ⟨commit, listed, inside⟩ := List.mem_flatMap.mp member
  obtain ⟨chosen, among, planned⟩ :=
    (follows.commits commit (mem_commitsTo.mp listed).1).planned
  have author := (planned.origin inside).2
  by_cases unknown : commit.write.origin.initiator = Uuid.nil
  · exact .inl (author.trans unknown)
  · have own : event.id ∈ commit.transaction.events.map (·.id) :=
      List.mem_map.mpr ⟨event, inside, rfl⟩
    rw [planned.ids (idempotent chosen among) unknown] at own
    obtain ⟨other, -, same⟩ := List.mem_map.mp own
    exact .inr (author ▸ Uuid.high_eq_of_derived_eq (same.trans met))

namespace Writer

variable {settings : StoreSettings} {listed : List StoreSettings} {commits : List Commit}
  {store store' : Store} {writer writer' : Writer}

/-- What a writer that is left to itself keeps from turn to turn, it still has when it finishes
without a commit. -/
theorem kept_of_run {kept : Writer → Prop}
    (keeps : ∀ {writer writer'}, kept writer → Turn settings writer store writer' store none →
      kept writer')
    (now : kept writer) {fuel : Nat} {planner : Planner} (same : planner.settings = settings)
    {result : Except Error Version} :
    let left := writer.run Store.backend fuel planner store
    left.1.phase = .finished result none → kept left.1 := by
  intro left done
  induction fuel generalizing writer planner with
  | zero => exact now
  | succ fuel ih =>
    obtain ⟨turn, after⟩ := writer.turn_step planner store
    have step := writer.run_succ Store.backend fuel planner store
    generalize writer.step Store.backend planner store = next at turn after step
    obtain ⟨writer', planner', store'⟩ := next
    simp only [left, step] at turn after done ⊢
    rw [same] at turn after
    cases committing : writer.commits? store with
    | none =>
      rw [committing] at turn
      obtain rfl : store' = store := turn.store_eq
      exact ih (keeps now turn) after done
    | some transaction =>
      rw [committing] at turn
      cases turn with
      | commits phase accepted =>
        rw [run_of_isFinished ⟨_, _, rfl⟩] at done
        cases done

/-- What each phase says about a conflict that nobody else causes: at the version of the stream it
comes from a clash. -/
def Blames (settings : StoreSettings) (write : Write) (stream : Stream) : Phase → Prop
  | .planning baseline => stream.version = write.retrieved.header → baseline = write.retrieved
  | .submitting transaction =>
    stream.version = write.retrieved.header → transaction.baseline = write.retrieved
  | .finished (.ok _) _ => True
  | .finished (.error error) _ =>
    settings.layoutFor write.events.length = .error error ∨
      error = .unexpectedVersion write.stream write.expected write.retrieved stream.version ∧
        (stream.version = write.retrieved.header → write.Clashes stream)
  | _ => stream.version = write.retrieved.header → write.Clashes stream

theorem Blames.turn (follows : store.Follows listed commits)
    (idempotent : settings.idempotency = true) (known : writer.write.origin.initiator ≠ Uuid.nil)
    (onCourse : writer.OnCourse settings commits 0)
    (blames : Blames settings writer.write (store.stream writer.write.stream) writer.phase)
    (turn : Turn settings writer store writer' store' none) :
    Blames settings writer'.write (store.stream writer'.write.stream) writer'.phase := by
  have sound := follows.streams writer.write.stream
  rw [turn.write_eq]
  cases turn with
  | plans phase planned =>
    intro here
    rw [phase] at blames
    rw [planned.baseline_eq (onCourse.at_phase phase).proper]
    exact blames here
  | misfits phase refused => exact .inl refused
  | @conflicts transaction phase refused =>
    obtain ⟨baseline, starts, planned⟩ := onCourse.at_phase phase
    rw [phase] at blames
    have clash : (store.stream writer.write.stream).version = writer.write.retrieved.header →
        writer.write.Clashes (store.stream writer.write.stream) := by
      intro here
      apply Classical.byContradiction
      intro free
      have start : baseline = Version.ofCount (store.stream writer.write.stream).events.length := by
        rw [← follows.header_getD, Store.header, here, Version.header_getD onCourse.proper]
        exact (planned.baseline_eq starts.proper).symm.trans (blames here)
      rw [planned.stream, (sound.accepts_derived_iff planned starts.proper idempotent known).mpr
        ⟨start, free⟩] at refused
      cases refused
    dsimp only
    split
    · exact clash
    · exact clash
  | searches phase =>
    rw [phase] at blames
    dsimp only
    split
    · exact blames
    · exact blames
  | confirms phase => trivial
  | replans phase expected shown allowed =>
    intro here
    rw [Store.header, here, Version.header_eq_some_iff] at shown
    exact shown.2.symm
  | fails phase =>
    rw [phase] at blames
    exact .inr ⟨rfl, blames⟩
  | rests phase => exact blames

end Writer

namespace Store.Follows

variable {store : Store} {listed : List StoreSettings} {commits : List Commit}
  {planner : Planner} {write : Write}

/-- The errors of a write that nobody comes between. -/
theorem blames_of_error (follows : store.Follows listed commits)
    (idempotent : planner.settings.idempotency = true)
    (known : write.origin.initiator ≠ Uuid.nil) (proper : write.retrieved.Proper)
    (filled : write.events ≠ []) {error : Error}
    (failed : (Store.backend.write planner write store).result = .error error) :
    planner.settings.layoutFor write.events.length = .error error ∨
      error = .unexpectedVersion write.stream write.expected write.retrieved
          (store.header write.stream) ∧
        (store.header write.stream = write.retrieved.header →
          write.Clashes (store.stream write.stream)) := by
  obtain ⟨done, -, -⟩ := Store.backend.write_eq planner write store
  have nothing : (Store.backend.write planner write store).committed = none := by
    have wrote := (follows.wrote planner proper).1
    generalize Store.backend.write planner write store = written at wrote failed ⊢
    cases wrote with
    | fails => rfl
    | _ => cases failed
  rw [failed, nothing] at done
  let kept (writer : Writer) : Prop := writer.write = write ∧
    writer.OnCourse planner.settings commits 0 ∧
      Writer.Blames planner.settings write (store.stream write.stream) writer.phase
  have keeps {writer writer' : Writer} : kept writer →
      Writer.Turn planner.settings writer store writer' store none → kept writer' := by
    rintro ⟨rfl, onCourse, blames⟩ turn
    have blames := blames.turn follows idempotent known onCourse turn
    rw [turn.write_eq] at blames
    have onCourse := onCourse.turn follows turn (List.Subset.refl _) fun _ made => by cases made
    exact ⟨turn.write_eq, onCourse, blames⟩
  have now : kept (Writer.start write planner.settings.retryLimit) := by
    refine ⟨rfl, Writer.onCourse_start _ _ _ proper, ?_⟩
    rw [Writer.phase_start_of_ne_nil filled]
    exact fun _ => rfl
  obtain ⟨-, -, blames⟩ := Writer.kept_of_run keeps now rfl done
  rw [done] at blames
  exact blames

/-- At the version of its stream, a write by a new initiator that does not clash is committed. -/
theorem commits_of_not_clashes (follows : store.Follows listed commits)
    (idempotent : planner.settings.idempotency = true)
    (known : write.origin.initiator ≠ Uuid.nil) (proper : write.retrieved.Proper)
    (filled : write.events ≠ []) (fits : planner.settings.Fits write.events.length)
    (here : store.header write.stream = write.retrieved.header)
    (new : store.containsInitiator write.stream write.origin.initiator = false)
    (free : ¬write.Clashes (store.stream write.stream)) :
    let written := Store.backend.write planner write store
    written.result = .ok (write.retrieved.advance write.events.length) ∧
      ∃ transaction, written.committed = some transaction ∧
        transaction.events.map StoredEvent.content = write.events ∧
        (written.state.stream write.stream).events =
          (store.stream write.stream).events ++ transaction.events := by
  intro written
  have errors {error : Error}
      (failed : (Store.backend.write planner write store).result = .error error) :=
    follows.blames_of_error idempotent known proper filled failed
  have wrote := (follows.wrote planner proper).1
  simp only [written]
  generalize Store.backend.write planner write store = written at errors wrote ⊢
  cases wrote with
  | rests empty => exact absurd empty filled
  | fails =>
    obtain ⟨layout, fitting⟩ := fits
    rcases errors rfl with misfit | ⟨-, clash⟩
    · cases fitting.symm.trans misfit
    · exact absurd (clash here) free
  | repeats known found => cases new.symm.trans found
  | @commits transaction planner filled starts planned accepted once =>
    have start := (follows.streams transaction.stream).start_eq planned starts accepted
    have same : transaction.baseline = write.retrieved := by
      rw [start, planned.stream, ← follows.header_getD, here, Version.header_getD proper]
    refine ⟨by rw [planned.newVersion, same], transaction, rfl, planned.content, ?_⟩
    rw [stream_submit, if_pos ⟨planned.stream.symm, planned.stream ▸ accepted⟩,
      Stream.events_apply]

/-- One that clashes is refused with the version that it has named itself. -/
theorem unexpected_of_clashes (follows : store.Follows listed commits)
    (idempotent : planner.settings.idempotency = true)
    (known : write.origin.initiator ≠ Uuid.nil) (proper : write.retrieved.Proper)
    (filled : write.events ≠ []) (fits : planner.settings.Fits write.events.length)
    (new : store.containsInitiator write.stream write.origin.initiator = false)
    (clash : write.Clashes (store.stream write.stream)) :
    let written := Store.backend.write planner write store
    written.result = .error (.unexpectedVersion write.stream write.expected write.retrieved
        (store.header write.stream)) ∧ written.committed = none ∧ written.state = store := by
  intro written
  have errors {error : Error}
      (failed : (Store.backend.write planner write store).result = .error error) :=
    follows.blames_of_error idempotent known proper filled failed
  have wrote := (follows.wrote planner proper).1
  simp only [written]
  generalize Store.backend.write planner write store = written at errors wrote ⊢
  cases wrote with
  | rests empty => exact absurd empty filled
  | fails =>
    obtain ⟨layout, fitting⟩ := fits
    rcases errors rfl with misfit | ⟨same, -⟩
    · cases fitting.symm.trans misfit
    · exact ⟨congrArg Except.error same, rfl, rfl⟩
  | repeats known found => cases new.symm.trans found
  | commits filled starts planned accepted once =>
    have sound := follows.streams write.stream
    rw [planned.stream, sound.accepts_derived_iff planned starts idempotent known] at accepted
    exact absurd clash accepted.2

end Store.Follows

namespace Fleet

/-- Where all databases keep identities idempotent, a write by a known initiator that nobody comes
between is told of a conflict at the version that it has named only if it clashes. At the version of
its stream, one by a new initiator is committed if it does not clash and refused if it does. What it
can clash with was written by a nil initiator or by one near its own. -/
theorem conflicts_only_where_identities_clash {planners : List Planner}
    (idempotent : ∀ planner ∈ planners, planner.settings.idempotency = true)
    (actions : List Action) {planner : Planner} (own : planner.settings.idempotency = true)
    {write : Write} (proper : write.retrieved.Proper) (filled : write.events ≠ [])
    (known : write.origin.initiator ≠ Uuid.nil) :
    let store := ((opened planners).run actions).store
    let stream := store.stream write.stream
    let written := Store.backend.write planner write store
    (∀ key expected retrieved actual,
        written.result = .error (.unexpectedVersion key expected retrieved actual) →
          key = write.stream ∧ expected = write.expected ∧ retrieved = write.retrieved ∧
            actual = store.header write.stream ∧
            (actual = retrieved.header → write.Clashes stream)) ∧
      (store.header write.stream = write.retrieved.header →
        store.containsInitiator write.stream write.origin.initiator = false →
          planner.settings.Fits write.events.length →
            (¬write.Clashes stream →
              written.result = .ok (write.retrieved.advance write.events.length) ∧
                ∃ transaction, written.committed = some transaction ∧
                  transaction.events.map StoredEvent.content = write.events ∧
                  (written.state.stream write.stream).events =
                    stream.events ++ transaction.events) ∧
            (write.Clashes stream →
              written.result = .error (.unexpectedVersion write.stream write.expected
                  write.retrieved write.retrieved.header) ∧
                written.committed = none ∧ written.state = store)) ∧
      ∀ event ∈ stream.events, ∀ index, event.id = write.origin.initiator.derived index →
        event.initiator = Uuid.nil ∨ event.initiator.Near write.origin.initiator := by
  intro store stream written
  have follows := ((inv_opened planners).run actions).follows
  refine ⟨?_, ?_, ?_⟩
  · intro key expected retrieved actual failed
    rcases follows.blames_of_error own known proper filled failed with misfit | ⟨same, clash⟩
    · rcases planner.settings.fits_or write.events.length with
        ⟨layout, fitting⟩ | ⟨limit, exceeded⟩
      · cases fitting.symm.trans misfit
      · cases exceeded.symm.trans misfit
    · cases same
      exact ⟨rfl, rfl, rfl, rfl, clash⟩
  · intro here new fits
    refine ⟨follows.commits_of_not_clashes own known proper filled fits here new, ?_⟩
    intro clash
    rw [← here]
    exact follows.unexpected_of_clashes own known proper filled fits new clash
  · intro event member index met
    refine follows.near_of_met ?_ member met
    rw [settings_run]
    exact List.forall_mem_map.mpr idempotent

/-- Payments to one account, put down to one cause. -/
def payments (initiator : Uuid) (count : Nat) (retrieved : Version) : Write where
  stream := ⟨"account"⟩
  events := List.replicate count ⟨"Paid", .null⟩
  retrieved := retrieved
  expected := .any
  origin := { initiator := initiator }

/-- An account with one payment. -/
def paidBy (initiator : Uuid) : Fleet :=
  (opened [.plain]).run
    [.launch 0 (payments initiator 1 Version.absent) Version.proper_absent,
      .advance 0, .advance 0]

theorem second_payment_by_another :
    let written := Store.backend.write .plain (payments (Uuid.ofNat 8) 2 ⟨0⟩)
      (paidBy (Uuid.ofNat 7)).store
    written.result = .ok ⟨2⟩ ∧ ∃ transaction, written.committed = some transaction := by
  have idempotent : ∀ planner ∈ [Planner.plain], planner.settings.idempotency = true := by decide
  have free : ¬(payments (Uuid.ofNat 8) 2 ⟨0⟩).Clashes
      ((paidBy (Uuid.ofNat 7)).store.stream ⟨"account"⟩) := by
    rintro (many | ⟨index, inside, event, member, met⟩)
    · exact absurd many (by decide)
    · have taken : event.id ∈ [(Uuid.ofNat 7).derived 0] := List.mem_map.mpr ⟨event, member, rfl⟩
      rw [List.mem_singleton.mp taken] at met
      match index, inside with
      | 0, _ => exact absurd met (by decide)
      | 1, _ => exact absurd met (by decide)
  obtain ⟨-, decided, -⟩ := conflicts_only_where_identities_clash idempotent
    [.launch 0 (payments (Uuid.ofNat 7) 1 Version.absent) (by decide), .advance 0, .advance 0]
    (show Planner.plain.settings.idempotency = true from rfl)
    (show (payments (Uuid.ofNat 8) 2 ⟨0⟩).retrieved.Proper by decide) (by decide) (by decide)
  obtain ⟨result, transaction, committed, -⟩ := (decided rfl rfl ⟨_, rfl⟩).1 free
  exact ⟨result, transaction, committed⟩

/-- A conflict at the version that a write has named, though its initiator is new and it fits. -/
structure Spurious (fleet : Fleet) (planner : Planner) (write : Write) : Prop where
  known : write.origin.initiator ≠ Uuid.nil
  new : fleet.store.containsInitiator write.stream write.origin.initiator = false
  fits : planner.settings.Fits write.events.length
  here : fleet.store.header write.stream = write.retrieved.header
  refused : (Store.backend.write planner write fleet.store).result =
    .error (.unexpectedVersion write.stream write.expected write.retrieved write.retrieved.header)

theorem Inv.spurious {fleet : Fleet} (inv : fleet.Inv) {planner : Planner} {write : Write}
    (idempotent : planner.settings.idempotency = true)
    (known : write.origin.initiator ≠ Uuid.nil) (proper : write.retrieved.Proper)
    (filled : write.events ≠ []) (fits : planner.settings.Fits write.events.length)
    (here : fleet.store.header write.stream = write.retrieved.header)
    (new : fleet.store.containsInitiator write.stream write.origin.initiator = false)
    (clash : write.Clashes (fleet.store.stream write.stream)) : fleet.Spurious planner write where
  known := known
  new := new
  fits := fits
  here := here
  refused := by
    rw [← here]
    exact (inv.follows.unexpected_of_clashes idempotent known proper filled fits new clash).1

/-- A database with room for all identities that can be derived from one cause, and for one more
event. -/
def roomy : Planner :=
  { Planner.plain with settings := { maxOperations := UInt32.size + 2 } }

/-- Initiators that differ in one of their last four bytes meet, a derived identity meets one from
a source, and too many events meet one another. -/
theorem spurious_conflicts :
    (paidBy (Uuid.ofNat 7)).Spurious .plain (payments (Uuid.ofNat 16777223) 2 ⟨0⟩) ∧
      (paidBy Uuid.nil).Spurious .plain (payments ⟨identityMask ^^^ 1⟩ 1 ⟨0⟩) ∧
      (opened [roomy]).Spurious roomy
        (payments (Uuid.ofNat 7) (UInt32.size + 1) Version.absent) := by
  have paid (initiator : Uuid) : (paidBy initiator).Inv := (inv_opened _).run _
  refine ⟨?_, ?_, ?_⟩
  · refine (paid _).spurious rfl (by decide) (by decide) (by decide) ⟨_, rfl⟩ rfl rfl (.inr ?_)
    exact ⟨1, by decide, _, List.mem_cons_self, by decide⟩
  · refine (paid _).spurious rfl (by decide) (by decide) (by decide) ⟨_, rfl⟩ rfl rfl (.inr ?_)
    exact ⟨0, by decide, _, List.mem_cons_self, by decide⟩
  · have many : (payments (Uuid.ofNat 7) (UInt32.size + 1) Version.absent).events.length =
        UInt32.size + 1 := List.length_replicate
    refine (inv_opened _).spurious rfl (by decide) Version.proper_absent ?_ ?_
      rfl rfl (.inl ?_)
    · intro none
      rw [none] at many
      cases many
    · rw [many]
      exact ⟨.individual, if_pos (by decide)⟩
    · rw [many]
      exact Nat.lt_succ_self _

end Fleet

end EventSourcing
