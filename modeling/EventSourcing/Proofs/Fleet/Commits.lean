import EventSourcing.Proofs.Fleet.Course

/-!
The moment of a commit. A transaction goes through only while its stream is at the version that the
transaction was planned from, so the commits to a stream form one line.
-/

namespace EventSourcing

/-- The commits to a stream lead to its header one after the other, no two from one version. -/
theorem Store.Follows.linear {store : Store} {settings : List StoreSettings}
    {commits : List Commit} (follows : store.Follows settings commits) (key : StreamKey) :
    Chain Version.absent ((commitsTo key commits).map (·.transaction))
        ((store.header key).getD Version.absent) ∧
      ((commitsTo key commits).map (·.transaction.baseline)).Nodup := by
  have chained := follows.chained key
  refine ⟨follows.header_getD key ▸ chained, ?_⟩
  obtain ⟨increasing, -⟩ := chained.increasing (List.forall_mem_map.mpr fun commit member =>
    (follows.commits commit (mem_commitsTo.mp member).1).growing)
  rw [List.map_map, List.pairwise_map] at increasing
  apply List.pairwise_map.mpr
  apply increasing.imp
  intro first second less same
  exact Int.ne_of_lt less (congrArg Version.value same)

namespace Writer

/-- A write at a fixed version, and one that is not planned again, starts where its writer has seen
the stream. -/
theorem OnCourse.baseline_eq {settings : StoreSettings} {commits : List Commit} {number : Nat}
    {writer : Writer} (onCourse : writer.OnCourse settings commits number) {baseline : Version}
    (starts : writer.StartsAt baseline)
    (once : writer.write.expected ≠ .any ∨ settings.retryLimit = 0) :
    baseline = writer.write.retrieved := by
  apply starts.first
  apply Classical.byContradiction
  intro again
  rcases once with fixed | never
  · exact fixed (onCourse.replanned again)
  · have bounded := onCourse.bounded
    rw [onCourse.limit, never] at bounded
    omega

end Writer

namespace Fleet

theorem Inv.header_of_commit {fleet after : Fleet} (inv : fleet.Inv) (step : fleet.Step after)
    {commit : Commit} (made : after.commits = fleet.commits ++ [commit]) :
    ∃ job settings, fleet.jobs[commit.job]? = some job ∧
      fleet.settings[job.database]? = some settings ∧ job.writer.write = commit.write ∧
      commit.transaction.stream = commit.write.stream ∧
      fleet.store.header commit.write.stream = commit.transaction.baseline.header ∧
      (commit.write.expected ≠ .any ∨ settings.retryLimit = 0 →
        commit.transaction.baseline = commit.write.retrieved) := by
  obtain ⟨job, busy, same, phase, accepted⟩ := step.exists_job_of_commit made
  obtain ⟨settings, found, onCourse⟩ := inv.jobs commit.job job busy
  obtain ⟨baseline, starts, planned⟩ := onCourse.at_phase phase
  have sound := inv.follows.streams commit.transaction.stream
  have here := sound.start_eq planned starts.proper accepted
  rw [planned.baseline_eq starts.proper, ← same]
  refine ⟨job, settings, busy, found, rfl, planned.stream, ?_, onCourse.baseline_eq starts⟩
  rw [← planned.stream, here, Store.header, sound.version]

end Fleet

end EventSourcing
