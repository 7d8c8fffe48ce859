import EventSourcing.Proofs.Fleet.Commits
import EventSourcing.Proofs.Holders.Course
import EventSourcing.Sample.Counter

/-!
No update is lost. What a caller expects is held against the version that the aggregate was loaded
at, and the store holds that version against its header; between the two the stream may move on,
and then the save commits nothing.
-/

namespace EventSourcing

namespace Snapshot.Asks

variable {κ : Type} [EventFamily κ] {type : AggregateType κ} {snapshot : Snapshot type}
  {request : Write}

theorem header_of_exact (asks : snapshot.Asks request) {version : Version}
    (exact : request.expected = .exact version) :
    request.retrieved.header = some version ∧ version = snapshot.version := by
  have admitted := asks.admitted
  rw [exact] at admitted
  obtain ⟨present, rfl⟩ := admitted
  exact ⟨(Version.header_eq_some_iff _ _).mpr ⟨asks.retrieved ▸ present, asks.retrieved⟩, rfl⟩

theorem header_of_none (asks : snapshot.Asks request) (none : request.expected = .none) :
    request.retrieved.header = .none := by
  have admitted := asks.admitted
  rw [none] at admitted
  exact (Version.header_eq_none_iff _).mpr (asks.retrieved ▸ admitted)

end Snapshot.Asks

namespace Holders

variable {κ : Type} [EventFamily κ] {ι : Type} [DecidableEq ι]

/-- The commits to a stream are one line, each from where the one before it has ended; and a save
that commits finds the stream as its caller expects it, at the version that its handle holds. -/
theorem no_lost_update (types : ι → AggregateType κ) (planners : List Planner)
    (deeds : List (Deed types)) (next : Deed types) :
    let holders := (opened types planners).run deeds
    let fleet := holders.fleet
    (∀ key,
      fleet.store.records key =
          (commitsTo key fleet.commits).flatMap (fun commit => commit.transaction.records) ∧
        Chain Version.absent ((commitsTo key fleet.commits).map (·.transaction))
          ((fleet.store.header key).getD Version.absent) ∧
        ((commitsTo key fleet.commits).map (·.transaction.baseline)).Nodup) ∧
      ∀ commit, (holders.act next).fleet.commits = fleet.commits ++ [commit] →
        ∀ h snapshot saving, (holders.handles h).snapshot = some snapshot →
          (holders.handles h).saving = some saving → saving.job = commit.job →
            let request := saving.request
            let shown := fleet.store.header request.stream
            commit.transaction.stream = request.stream ∧
              (∀ version, request.expected = .exact version →
                shown = some version ∧ version = snapshot.version) ∧
              (request.expected = .none → shown = none) ∧
              (request.expected = .any → ∀ settings,
                fleet.settings[saving.database]? = some settings → settings.retryLimit = 0 →
                  shown = snapshot.version.header) := by
  intro holders fleet
  have inv : holders.Inv := (inv_opened types planners).run deeds
  have follows := inv.fleet.follows
  refine ⟨fun key => ⟨follows.kept key, follows.linear key⟩, ?_⟩
  intro commit made h snapshot saving held waiting own request shown
  obtain ⟨waited, writer, again, asks, busy, same⟩ := (inv.handles h).waits saving waiting
  obtain rfl : waited = snapshot := Option.some.inj (again.symm.trans held)
  obtain ⟨job, settings, working, found, written, onto, start, once⟩ :=
    inv.fleet.header_of_commit (inv.fleet_step next) made
  -- The commit is that of the save, so its job carries the request of the handle.
  rw [own] at busy
  obtain rfl : Job.mk saving.database writer = job := Option.some.inj (busy.symm.trans working)
  have asked : commit.write = request := written.symm.trans same
  rw [asked] at onto start once
  have met : request.expected ≠ .any ∨ settings.retryLimit = 0 →
      shown = request.retrieved.header := fun fixed => start.trans (congrArg _ (once fixed))
  refine ⟨onto, ?_, ?_, ?_⟩
  · intro version exact
    obtain ⟨present, same⟩ := asks.header_of_exact exact
    exact ⟨(met (.inl (by simp [exact]))).trans present, same⟩
  · intro none
    exact (met (.inl (by simp [none]))).trans (asks.header_of_none none)
  · intro any chosen known never
    obtain rfl : settings = chosen := Option.some.inj (found.symm.trans known)
    exact (met (.inr never)).trans (congrArg _ asks.retrieved)

/-- A counter that was never saved, about to be committed. -/
def counting : List (Deed fun _ : Unit => Sample.counter) :=
  [.create () { state := { id := "t" }, pending := [⟨.incremented, (1 : Int32)⟩] },
    .save () 0 StreamNaming.byType "t" .none {}, .work (.advance 0)]

theorem no_lost_update_counter :
    let holders := (opened (fun _ : Unit => Sample.counter) [.plain]).run counting
    ∃ commit, (holders.act (.work (.advance 0))).fleet.commits = [commit] ∧
      commit.transaction.stream = ⟨"Counter-t"⟩ ∧
      holders.fleet.store.header ⟨"Counter-t"⟩ = none := by
  obtain ⟨-, commits⟩ := no_lost_update (fun _ : Unit => Sample.counter) [.plain] counting
    (.work (.advance 0))
  obtain ⟨onto, -, none, -⟩ := commits _ rfl () _ _ rfl rfl rfl
  exact ⟨_, rfl, onto, none rfl⟩

end Holders

end EventSourcing
