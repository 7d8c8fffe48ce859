import EventSourcing.Proofs.Fleet.Commits
import EventSourcing.Proofs.Holders.Alone

/-!
Writes that nothing comes between. As long as a writer has committed nothing, the store stays as the
writer found it; so a write ends without a change to the store, or with one commit to it.
-/

namespace EventSourcing

/-- All that a write on its own can do to a store. -/
inductive Store.Wrote (settings : StoreSettings) (store : Store) (write : Write) :
    Written Store → Prop where
  | rests {planner : Planner} (empty : write.events = []) :
      Wrote settings store write ⟨.ok write.retrieved, none, planner, store⟩
  | fails {error : Error} {planner : Planner} :
      Wrote settings store write ⟨.error error, none, planner, store⟩
  | repeats {planner : Planner} (known : write.origin.initiator ≠ Uuid.nil)
      (found : store.containsInitiator write.stream write.origin.initiator = true) :
      Wrote settings store write
        ⟨.ok ((store.header write.stream).getD Version.absent), none, planner, store⟩
  | commits {transaction : Transaction} {planner : Planner} (filled : write.events ≠ [])
      (proper : transaction.baseline.Proper)
      (planned : Planned settings write transaction.baseline transaction)
      (accepted : (store.stream transaction.stream).accepts transaction = true)
      (once : write.expected ≠ .any ∨ settings.retryLimit = 0 →
        transaction.baseline = write.retrieved) :
      Wrote settings store write
        ⟨.ok transaction.newVersion, some transaction, planner, (store.submit transaction).1⟩

namespace Writer

/-- What a phase before the commit says of a store that nobody else changes. -/
def Alone (write : Write) (store : Store) : Phase → Prop
  | .confirming =>
    write.origin.initiator ≠ Uuid.nil ∧
      store.containsInitiator write.stream write.origin.initiator = true
  | .finished (.ok version) none =>
    write.origin.initiator ≠ Uuid.nil ∧
      store.containsInitiator write.stream write.origin.initiator = true ∧
      version = (store.header write.stream).getD Version.absent
  | .finished _ (some _) => False
  | _ => True

variable {settings : StoreSettings} {listed : List StoreSettings} {commits : List Commit}
  {store store' : Store} {writer writer' : Writer}

theorem Alone.turn (alone : Alone writer.write store writer.phase)
    (onCourse : writer.OnCourse settings commits 0)
    (turn : Turn settings writer store writer' store' none) :
    Alone writer'.write store writer'.phase := by
  rw [turn.write_eq]
  cases turn with
  | plans phase planned => trivial
  | misfits phase refused => trivial
  | conflicts phase refused =>
    dsimp only
    split <;> trivial
  | searches phase =>
    have known := (onCourse.at_phase phase).2
    dsimp only
    split
    · exact ⟨known, ‹_›⟩
    · trivial
  | confirms phase =>
    rw [phase] at alone
    exact ⟨alone.1, alone.2, rfl⟩
  | replans phase expected shown allowed => trivial
  | fails phase => trivial
  | rests phase => exact alone

/-- A writer that is left to itself until it has finished. -/
theorem wrote_of_run (follows : store.Follows listed commits) {fuel : Nat} {planner : Planner}
    (onCourse : writer.OnCourse planner.settings commits 0) (filled : writer.write.events ≠ [])
    (alone : Alone writer.write store writer.phase) {result : Except Error Version}
    {committed : Option Transaction} :
    let left := writer.run Store.backend fuel planner store
    left.1.phase = .finished result committed →
      store.Wrote planner.settings writer.write ⟨result, committed, left.2.1, left.2.2⟩ ∧
        left.2.1.settings = planner.settings := by
  intro left done
  induction fuel generalizing writer planner with
  | zero =>
    have stands := onCourse.at_phase done
    change writer.phase = _ at done
    rw [done] at alone
    refine ⟨?_, rfl⟩
    match result, committed with
    | .ok version, none =>
      obtain ⟨known, found, rfl⟩ := alone
      exact .repeats known found
    | .error error, none => exact .fails
    | .ok _, some _ => exact alone.elim
    | .error _, some _ => exact alone.elim
  | succ fuel ih =>
    obtain ⟨turn, same⟩ := writer.turn_step planner store
    have step := writer.run_succ Store.backend fuel planner store
    generalize writer.step Store.backend planner store = next at turn same step
    obtain ⟨writer', planner', store'⟩ := next
    simp only [left, step] at turn same done ⊢
    cases committing : writer.commits? store with
    | none =>
      rw [committing] at turn
      obtain rfl : store' = store := turn.store_eq
      have later := onCourse.turn follows turn (List.Subset.refl _) fun _ made => nomatch made
      rw [← same] at later ⊢
      rw [← turn.write_eq] at filled ⊢
      exact ih later filled (alone.turn onCourse turn) done
    | some transaction =>
      rw [committing] at turn
      cases turn with
      | commits phase accepted =>
        obtain ⟨baseline, starts, planned⟩ := onCourse.at_phase phase
        have start := planned.baseline_eq starts.proper
        rw [run_of_isFinished ⟨_, _, rfl⟩] at done ⊢
        obtain ⟨rfl, rfl⟩ := Phase.finished.inj done
        exact ⟨.commits filled (start ▸ starts.proper) (start ▸ planned) accepted
          fun once => start.trans (onCourse.baseline_eq starts once), same⟩

end Writer

/-- What comes of a write, from any version that a stream can have. -/
theorem Store.Follows.wrote {store : Store} {listed : List StoreSettings} {commits : List Commit}
    (follows : store.Follows listed commits) (planner : Planner) {write : Write}
    (proper : write.retrieved.Proper) :
    store.Wrote planner.settings write (Store.backend.write planner write store) ∧
      (Store.backend.write planner write store).planner.settings = planner.settings := by
  by_cases empty : write.events = []
  · rw [Store.backend.write_of_nil planner empty]
    exact ⟨.rests empty, rfl⟩
  · obtain ⟨done, planned, left⟩ := Store.backend.write_eq planner write store
    generalize Store.backend.write planner write store = written at done planned left ⊢
    obtain ⟨result, committed, later, after⟩ := written
    have alone : Writer.Alone write store
        (Writer.start write planner.settings.retryLimit).phase := by
      rw [Writer.phase_start_of_ne_nil empty]
      trivial
    have wrote := Writer.wrote_of_run follows
      (Writer.onCourse_start planner.settings commits 0 proper) empty alone done
    rwa [planned, left] at wrote

end EventSourcing
