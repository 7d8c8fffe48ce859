import EventSourcing.Proofs.Fleet

/-!
What stays true however writers take turns: the store follows its history, and every writer stands
where the turns that it took can have brought it.
-/

namespace EventSourcing

namespace Writer

/-- A version from which a writer can plan: that of its write, or one that it has read since. -/
structure StartsAt (writer : Writer) (baseline : Version) : Prop where
  filled : writer.write.events ≠ []
  proper : baseline.Proper
  first : writer.retries = 0 → baseline = writer.write.retrieved

/-- What each phase says about the way that has led to it. -/
def Stands (settings : StoreSettings) (commits : List Commit) (number : Nat) (writer : Writer) :
    Phase → Prop
  | .planning baseline => writer.StartsAt baseline
  | .submitting transaction =>
    ∃ baseline, writer.StartsAt baseline ∧ Planned settings writer.write baseline transaction
  | .searching => writer.write.events ≠ [] ∧ writer.write.origin.initiator ≠ Uuid.nil
  | .confirming => writer.write.Repeats commits
  | .measuring => writer.write.events ≠ []
  | .finished (.ok version) (some transaction) =>
    version = transaction.newVersion ∧ ⟨number, writer.write, transaction⟩ ∈ commits
  | .finished (.ok version) none =>
    version.Proper ∧ (writer.write.events = [] ∨ writer.write.Repeats commits)
  | .finished (.error _) committed => committed = none

structure OnCourse (settings : StoreSettings) (commits : List Commit) (number : Nat)
    (writer : Writer) : Prop where
  limit : writer.retryLimit = settings.retryLimit
  bounded : writer.retries ≤ writer.retryLimit
  replanned : writer.retries ≠ 0 → writer.write.expected = .any
  proper : writer.write.retrieved.Proper
  stands : writer.Stands settings commits number writer.phase

theorem onCourse_start (settings : StoreSettings) (commits : List Commit) (number : Nat)
    {write : Write} (proper : write.retrieved.Proper) :
    (start write settings.retryLimit).OnCourse settings commits number where
  limit := rfl
  bounded := Nat.zero_le _
  replanned again := absurd rfl again
  proper := proper
  stands := by
    cases filled : write.events with
    | nil => simp [start, filled, Stands, proper]
    | cons event rest =>
      simp only [start, filled, Stands]
      exact ⟨by simp [filled], proper, fun _ => rfl⟩

namespace OnCourse

variable {settings : StoreSettings} {commits : List Commit} {number : Nat} {writer : Writer}

/-- Further commits take nothing back. -/
theorem mono {more : List Commit} (onCourse : writer.OnCourse settings commits number)
    (kept : commits ⊆ more) : writer.OnCourse settings more number := by
  refine { onCourse with stands := ?_ }
  have stands := onCourse.stands
  revert stands
  cases writer.phase with
  | confirming => exact fun repeats => repeats.mono kept
  | finished result committed =>
    match result, committed with
    | .ok version, some transaction => exact fun stands => ⟨stands.1, kept stands.2⟩
    | .ok version, none => exact fun stands => ⟨stands.1, stands.2.imp_right (·.mono kept)⟩
    | .error error, committed => exact id
  | _ => exact id

theorem at_phase (onCourse : writer.OnCourse settings commits number) {phase : Phase}
    (same : writer.phase = phase) : writer.Stands settings commits number phase :=
  same ▸ onCourse.stands

variable {listed : List StoreSettings} {more : List Commit} {store store' : Store}
  {writer' : Writer} {committed : Option Transaction}

/-- The step that keeps a writer on its course. -/
theorem turn (onCourse : writer.OnCourse settings commits number)
    (follows : store.Follows listed commits)
    (turn : Turn settings writer store writer' store' committed) (kept : commits ⊆ more)
    (taken : ∀ transaction, committed = some transaction →
      ⟨number, writer.write, transaction⟩ ∈ more) :
    writer'.OnCourse settings more number := by
  have onCourse := onCourse.mono kept
  cases turn with
  | plans phase planned =>
    have starts := onCourse.at_phase phase
    exact { onCourse with stands := ⟨_, ⟨starts.filled, starts.proper, starts.first⟩, planned⟩ }
  | misfits phase refused => exact { onCourse with stands := rfl }
  | commits phase accepted => exact { onCourse with stands := ⟨rfl, taken _ rfl⟩ }
  | conflicts phase refused =>
    obtain ⟨baseline, starts, -⟩ := onCourse.at_phase phase
    refine { onCourse with stands := ?_ }
    dsimp only
    split
    · exact starts.filled
    · exact ⟨starts.filled, ‹_›⟩
  | searches phase =>
    obtain ⟨filled, known⟩ := onCourse.at_phase phase
    refine { onCourse with stands := ?_ }
    dsimp only
    split
    · exact (follows.repeats known ‹_›).mono kept
    · exact filled
  | confirms phase =>
    -- The commit that was found stays, though the stream may have gone on since.
    refine { onCourse with stands := ⟨?_, .inr (onCourse.at_phase phase)⟩ }
    rw [follows.header_getD]
    exact Version.proper_ofCount _
  | replans phase expected shown allowed =>
    have filled := onCourse.at_phase phase
    have here : Version.Proper _ := (follows.header_eq_some shown).1 ▸ Version.proper_ofCount _
    refine { onCourse with bounded := allowed, replanned := fun _ => expected, stands := ?_ }
    exact ⟨filled, here, fun none => absurd none (Nat.succ_ne_zero _)⟩
  | fails phase => exact { onCourse with stands := rfl }
  | rests phase => exact onCourse

end OnCourse

end Writer

namespace Fleet

structure Inv (fleet : Fleet) : Prop where
  follows : fleet.store.Follows fleet.settings fleet.commits
  jobs : ∀ (number : Nat) (job : Job), fleet.jobs[number]? = some job →
    ∃ settings, fleet.settings[job.database]? = some settings ∧
      job.writer.OnCourse settings fleet.commits number

theorem inv_opened (planners : List Planner) : (opened planners).Inv where
  follows := Store.follows_empty _
  jobs _ _ busy := nomatch busy

namespace Inv

variable {fleet after : Fleet}

theorem step (inv : fleet.Inv) (step : fleet.Step after) : after.Inv := by
  cases step with
  | rests => exact inv
  | launches proper found =>
    refine { inv with jobs := ?_ }
    intro number job busy
    rw [List.getElem?_append] at busy
    split at busy
    · exact inv.jobs number job busy
    · obtain rfl := List.mem_singleton.mp (List.mem_of_getElem? busy)
      exact ⟨_, found, Writer.onCourse_start _ fleet.commits number proper⟩
  | @advances number job settings writer planners store committed busy found turn same =>
    obtain ⟨chosen, known, onCourse⟩ := inv.jobs number job busy
    obtain rfl : chosen = settings := Option.some.inj (known.symm.trans found)
    have kept := List.subset_append_left fleet.commits
      (committed.map (Commit.mk number job.writer.write)).toList
    constructor
    · rw [settings, same]
      cases committed with
      | none =>
        rw [turn.store_eq]
        simpa using inv.follows
      | some transaction =>
        obtain ⟨phase, accepted, rfl⟩ := turn.of_commits
        obtain ⟨baseline, starts, planned⟩ := onCourse.at_phase phase
        exact inv.follows.submit (List.mem_of_getElem? found) planned starts.proper starts.filled
          accepted number
    · intro other task working
      rw [settings, same]
      rw [List.getElem?_set] at working
      split at working
      · rename_i here
        subst here
        split at working
        · obtain rfl := Option.some.inj working
          exact ⟨chosen, found, onCourse.turn inv.follows turn kept fun _ made => by simp [made]⟩
        · cases working
      · obtain ⟨settings, known, onCourse⟩ := inv.jobs other task working
        exact ⟨settings, known, onCourse.mono kept⟩

/-- However jobs are taken on and go on. -/
theorem run (inv : fleet.Inv) (actions : List Action) : (fleet.run actions).Inv := by
  induction actions generalizing fleet with
  | nil => exact inv
  | cons action rest ih => exact ih (inv.step (fleet.act_step action))

end Inv

end Fleet

end EventSourcing
