import EventSourcing.Proofs.Fleet.Course

/-!
What a write that ends without an error says. If its transaction went through, its events are in the
stream. If it was taken for a repetition, some write by its initiator is in the stream, and nobody
has compared the events of the two.
-/

namespace EventSourcing

/-- Whether events in a row say what a write says and are put down to its initiator. -/
def Store.Holds (store : Store) (write : Write) : Prop :=
  ∃ row, row <:+: (store.stream write.stream).events ∧
    row.map StoredEvent.content = write.events ∧
    ∀ event ∈ row, event.initiator = write.origin.initiator

/-- What is committed stays in its stream. -/
theorem Store.Follows.holds {store : Store} {settings : List StoreSettings}
    {commits : List Commit} (follows : store.Follows settings commits) {commit : Commit}
    (member : commit ∈ commits) : store.Holds commit.write := by
  have sound := follows.commits commit member
  obtain ⟨chosen, -, planned⟩ := sound.planned
  refine ⟨commit.transaction.events, ?_, planned.content, fun event inside =>
    (planned.origin inside).2⟩
  obtain ⟨before, after, whole⟩ :=
    List.append_of_mem (mem_commitsTo.mpr ⟨member, sound.stream⟩)
  rw [follows.events_eq, whole]
  exact ⟨before.flatMap (·.transaction.events), after.flatMap (·.transaction.events), by simp⟩

namespace Fleet

/-- Whether the initiator of a write has written nothing else to its stream. -/
def WroteOnly (fleet : Fleet) (write : Write) : Prop :=
  ∀ commit ∈ fleet.commits, commit.write.stream = write.stream →
    commit.write.origin.initiator = write.origin.initiator → commit.write.events = write.events

/-- A write, or another by its initiator, is in its stream. A nil initiator repeats nothing, and one
that always writes the same can rely on it. -/
structure Landed (fleet : Fleet) (write : Write) : Prop where
  present : ∃ commit ∈ fleet.commits, commit.write.stream = write.stream ∧
    commit.write.origin.initiator = write.origin.initiator ∧ fleet.store.Holds commit.write
  own : write.origin.initiator = Uuid.nil ∨ fleet.WroteOnly write → fleet.store.Holds write

theorem WroteOnly.holds {fleet : Fleet} {write : Write} (only : fleet.WroteOnly write)
    {commit : Commit} (member : commit ∈ fleet.commits)
    (onto : commit.write.stream = write.stream)
    (same : commit.write.origin.initiator = write.origin.initiator)
    (held : fleet.store.Holds commit.write) : fleet.store.Holds write := by
  obtain ⟨row, inside, content, initiator⟩ := held
  exact ⟨row, onto ▸ inside, content.trans (only commit member onto same),
    fun event member => (initiator event member).trans same⟩

namespace Inv

variable {fleet : Fleet} {number : Nat} {job : Job} {version : Version}

theorem mem_of_committed (inv : fleet.Inv) (busy : fleet.jobs[number]? = some job)
    {transaction : Transaction}
    (done : job.writer.phase = .finished (.ok version) (some transaction)) :
    ⟨number, job.writer.write, transaction⟩ ∈ fleet.commits := by
  obtain ⟨settings, -, onCourse⟩ := inv.jobs number job busy
  exact (onCourse.at_phase done).2

theorem holds_of_committed (inv : fleet.Inv) (busy : fleet.jobs[number]? = some job)
    {transaction : Transaction}
    (done : job.writer.phase = .finished (.ok version) (some transaction)) :
    fleet.store.Holds job.writer.write :=
  inv.follows.holds (inv.mem_of_committed busy done)

/-- Only what has a known cause can be taken for a repetition. -/
theorem repeats_of_uncommitted (inv : fleet.Inv) (busy : fleet.jobs[number]? = some job)
    (done : job.writer.phase = .finished (.ok version) none)
    (filled : job.writer.write.events ≠ []) : job.writer.write.Repeats fleet.commits := by
  obtain ⟨settings, -, onCourse⟩ := inv.jobs number job busy
  exact (onCourse.at_phase done).2.resolve_left filled

theorem landed_of_ok (inv : fleet.Inv) (busy : fleet.jobs[number]? = some job)
    {committed : Option Transaction} (done : job.writer.phase = .finished (.ok version) committed)
    (filled : job.writer.write.events ≠ []) : fleet.Landed job.writer.write := by
  cases committed with
  | some transaction =>
    have held := inv.holds_of_committed busy done
    exact ⟨⟨_, inv.mem_of_committed busy done, rfl, rfl, held⟩, fun _ => held⟩
  | none =>
    obtain ⟨known, commit, member, onto, same⟩ := inv.repeats_of_uncommitted busy done filled
    have held := inv.follows.holds member
    refine ⟨⟨commit, member, onto, same, held⟩, ?_⟩
    rintro (unknown | only)
    · exact absurd unknown known
    · exact only.holds member onto same held

end Inv

/-- Two writes to one account, both put down to one cause. -/
def opening : Write where
  stream := ⟨"account"⟩
  events := [⟨"Opened", .null⟩]
  retrieved := Version.absent
  expected := .none
  origin := { initiator := Uuid.ofNat 7 }

def closing : Write := { opening with events := [⟨"Closed", .null⟩] }

/-- The second write starts once the first is done. -/
def openThenClose : List Action :=
  [.launch 0 opening (by decide), .advance 0, .advance 0, .launch 0 closing (by decide),
    .advance 1, .advance 1, .advance 1, .advance 1]

def openedThenClosed : Fleet := (opened [.plain]).run openThenClose

/-- A write can end well and leave nothing of what it says: here nobody has closed the account. -/
theorem not_forall_holds_of_ok :
    ¬∀ (planners : List Planner) (actions : List Action) (number : Nat) (job : Job)
        (version : Version) (committed : Option Transaction),
      let fleet := (opened planners).run actions
      fleet.jobs[number]? = some job →
        job.writer.phase = .finished (.ok version) committed →
          job.writer.write.events ≠ [] → fleet.store.Holds job.writer.write := by
  intro always
  obtain ⟨job, busy, same, done⟩ : ∃ job, openedThenClosed.jobs[1]? = some job ∧
      job.writer.write = closing ∧ job.writer.phase = .finished (.ok ⟨0⟩) none :=
    ⟨_, rfl, rfl, rfl⟩
  have held : openedThenClosed.store.Holds closing :=
    same ▸ always _ _ 1 job ⟨0⟩ none busy done (by simp [same, closing])
  obtain ⟨row, inside, content, -⟩ := held
  have found : ⟨"Closed", .null⟩ ∈
      (openedThenClosed.events ⟨"account"⟩).map StoredEvent.content := by
    refine (inside.map StoredEvent.content).subset ?_
    rw [content]
    exact List.mem_singleton.mpr rfl
  have stored : (openedThenClosed.events ⟨"account"⟩).map StoredEvent.content =
      [⟨"Opened", .null⟩] := rfl
  rw [stored] at found
  simp at found

end Fleet

end EventSourcing
