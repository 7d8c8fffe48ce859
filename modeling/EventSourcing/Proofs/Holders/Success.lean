import EventSourcing.Proofs.Fleet.Success
import EventSourcing.Proofs.Holders.Course
import EventSourcing.Sample.Counter

/-!
What a save that ends without an error says, and when an aggregate forgets its pending events.
-/

namespace EventSourcing.Holders

variable {κ : Type} [EventFamily κ] {ι : Type} [DecidableEq ι]

/-- A write that ends well is in its stream if it was committed; else its initiator is known and
another of its writes is there. A save takes the pending events away on no other ground. -/
theorem landed_of_success (types : ι → AggregateType κ) (planners : List Planner)
    (deeds : List (Deed types)) :
    let holders := (opened types planners).run deeds
    let fleet := holders.fleet
    (∀ (number : Nat) (job : Job) (version : Version) (committed : Option Transaction),
        fleet.jobs[number]? = some job → job.writer.phase = .finished (.ok version) committed →
          job.writer.write.events ≠ [] →
          fleet.Landed job.writer.write ∧
            (committed ≠ none → fleet.store.Holds job.writer.write) ∧
            (committed = none → job.writer.write.origin.initiator ≠ Uuid.nil)) ∧
      ∀ h before after, (holders.handles h).snapshot = some before →
        before.aggregate.pending ≠ [] →
          ((holders.act (.conclude h)).handles h).snapshot = some after →
            after.aggregate.pending = [] →
              ∃ saving, (holders.handles h).saving = some saving ∧
                Event.encodeAll before.aggregate.pending = .ok saving.request.events ∧
                fleet.Landed saving.request := by
  intro holders fleet
  have inv : holders.Inv := (inv_opened types planners).run deeds
  constructor
  · intro number job version committed busy done filled
    refine ⟨inv.fleet.landed_of_ok busy done filled, ?_, ?_⟩
    · intro some
      obtain ⟨transaction, rfl⟩ := Option.ne_none_iff_exists'.mp some
      exact inv.fleet.holds_of_committed busy done
    · rintro rfl
      exact (inv.fleet.repeats_of_uncommitted busy done filled).1
  · intro h before after held waits now cleared
    have kept : (holders.handles h).snapshot ≠ some after := by
      rw [held]
      rintro same
      exact waits ((Option.some.inj same) ▸ cleared)
    rw [act, place_self] at now
    rcases (holders.handles h).concluded_cases holders.fleet with
      same | same | ⟨saving, job, version, committed, waiting, busy, done, same⟩
    · exact absurd (same ▸ now) kept
    · rw [same] at now
      exact absurd now kept
    · obtain ⟨snapshot, writer, again, asks, working, asked⟩ :=
        (inv.handles h).waits saving waiting
      obtain rfl : before = snapshot := Option.some.inj (held.symm.trans again)
      obtain rfl : job = ⟨saving.database, writer⟩ := Option.some.inj (busy.symm.trans working)
      have landed := inv.fleet.landed_of_ok busy done (asked ▸ asks.filled)
      exact ⟨saving, waiting, asks.encoded, asked ▸ landed⟩

/-- The account that nobody has closed: its cause has opened it. -/
theorem landed_closing : Fleet.openedThenClosed.Landed Fleet.closing := by
  obtain ⟨writes, -⟩ := landed_of_success (fun _ : Unit => Sample.counter) [.plain]
    (Fleet.openThenClose.map .work)
  obtain ⟨job, busy, same, done⟩ : ∃ job, Fleet.openedThenClosed.jobs[1]? = some job ∧
      job.writer.write = Fleet.closing ∧ job.writer.phase = .finished (.ok ⟨0⟩) none :=
    ⟨_, rfl, rfl, rfl⟩
  exact same ▸ (writes 1 job ⟨0⟩ none busy done (by simp [same, Fleet.closing])).1

end EventSourcing.Holders
