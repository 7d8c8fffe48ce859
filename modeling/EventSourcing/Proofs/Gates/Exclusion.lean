import EventSourcing.Proofs.Gates.View

/-!
One visitor at a time. At each stream one visitor at most has the gate, all others refer to the same
gate, which stays in the table for as long as anybody does, and nobody waits for the visitors of
another stream.
-/

namespace EventSourcing

namespace Gates

theorem stage?_eq_of_onlyAt {gates : Gates} {stream : StreamKey} (only : gates.OnlyAt stream)
    (visitor : Nat) : gates.stage? visitor = gates.stageAt stream visitor := by
  rw [stage?, stageAt]
  cases there : gates.visits.find? visitor with
  | none => rfl
  | some visit => exact (if_pos (only.stream_eq there)).symm

/-- A gate to which a visitor refers is in the table after any step, also one of its own. -/
theorem Sound.kept {gates after : Gates} (sound : gates.Sound) {visitor other : Nat} {visit : Visit}
    {move : Move} (there : gates.visits.find? visitor = some visit)
    (refers : visit.stage.RefersToGate) (step : gates.Step other move after) :
    after.table.find? visit.stream = some visit.gate := by
  have known := sound.known visitor visit there refers
  cases step with
  | @arrives stream absent =>
    rw [← (visits_lookUp gates stream).1] at there
    exact (sound.lookUp stream).known visitor visit there refers
  | @tidies task found stage =>
    rw [← visits_tidyUp gates task.stream] at there
    exact (sound.tidyUp task.stream).known visitor visit there refers
  | releases found stage | declines found stage =>
    rw [table_handOver]
    exact known
  | _ => exact known

namespace Orderly

variable {gates : Gates} {stream : StreamKey}

theorem alone (orderly : gates.Orderly) {first second : Nat} {one another : Stage}
    (there : gates.stageAt stream first = some one) (shuts : one.ShutsGate)
    (elsewhere : gates.stageAt stream second = some another) (too : another.ShutsGate) :
    first = second := by
  obtain ⟨visit, found, own, rfl⟩ := stageAt_eq_some_iff.mp there
  obtain ⟨task, also, onto, rfl⟩ := stageAt_eq_some_iff.mp elsewhere
  exact orderly.sound.alone found shuts also too (own.trans onto.symm)

theorem kept (orderly : gates.Orderly) {visitor : Nat} {visit : Visit}
    (there : gates.visits.find? visitor = some visit) (refers : visit.stage.RefersToGate)
    (turn : Turn) : (gates.take turn).table.find? visit.stream = some visit.gate := by
  rcases gates.step_or_eq_take turn with step | same
  · exact orderly.sound.kept there refers step
  · rw [same]
    exact orderly.sound.known visitor visit there refers

/-- Whoever waits does so for a visitor of the same stream. -/
theorem exists_ahead (orderly : gates.Orderly) {visitor : Nat}
    (waits : gates.stageAt stream visitor = some .waiting) :
    ∃ other stage, gates.stageAt stream other = some stage ∧ stage.ShutsGate := by
  obtain ⟨visit, there, own, stage⟩ := stageAt_eq_some_iff.mp waits
  have held := orderly.served.isHeld there stage
  have refers : visit.stage.RefersToGate := by rw [stage]; decide
  rw [← own, ← orderly.isShut_iff_view there refers, isShut_iff orderly.filed]
  exact held

/-- Whoever asks is let in at once if no visitor of the same stream has the gate. -/
theorem goesIn (orderly : gates.Orderly) {visitor : Nat}
    (arrived : gates.stageAt stream visitor = some .arrived)
    (free : ∀ other stage, gates.stageAt stream other = some stage → ¬stage.ShutsGate) :
    (gates.take ⟨visitor, .ask⟩).stageAt stream visitor = some .inside := by
  obtain ⟨visit, there, own, stage⟩ := stageAt_eq_some_iff.mp arrived
  have open_ : gates.isShut visit.gate = false := by
    rw [← Bool.not_eq_true, orderly.isShut_iff_view there (by rw [stage]; decide), own]
    rintro ⟨other, next, seen, shuts⟩
    exact free other next seen shuts
  have after := orderly.view_take there own .ask
  rw [open_, stage] at after
  exact (congrFun (congrArg View.stages after) visitor).trans (Function.update_self _ _ _)

end Orderly

/-- However the visitors take their turns, at each stream one at most has the gate. The gate to
which a visitor refers is the one in the table, and no turn takes it away. Whoever asks is let in
unless a visitor of the same stream has the gate, and nobody waits for another; the visitors are
where they would be if no other stream had been visited. -/
theorem one_at_a_time (turns : List Turn) (stream : StreamKey) :
    let gates := run {} turns
    (∀ first second one another, gates.stageAt stream first = some one → one.ShutsGate →
      gates.stageAt stream second = some another → another.ShutsGate → first = second) ∧
    (∀ visitor visit, gates.visits.find? visitor = some visit → visit.stream = stream →
      visit.stage.RefersToGate →
      gates.table.find? stream = some visit.gate ∧
        ∀ turn, (gates.take turn).table.find? stream = some visit.gate) ∧
    (∀ visitor, gates.stageAt stream visitor = some .arrived →
      (∀ other stage, gates.stageAt stream other = some stage → ¬stage.ShutsGate) →
      (gates.take ⟨visitor, .ask⟩).stageAt stream visitor = some .inside) ∧
    (∀ visitor, gates.stageAt stream visitor = some .waiting →
      ∃ other stage, gates.stageAt stream other = some stage ∧ stage.ShutsGate) ∧
    ∀ visitor, gates.stageAt stream visitor =
      (run {} (turnsAt stream {} turns)).stage? visitor := by
  intro gates
  have orderly : gates.Orderly := orderly_empty.run turns
  refine ⟨fun _ _ _ _ => orderly.alone, ?_, fun _ => orderly.goesIn, fun _ =>
    orderly.exists_ahead, ?_⟩
  · rintro visitor visit there rfl refers
    exact ⟨orderly.sound.known visitor visit there refers, orderly.kept there refers⟩
  · intro visitor
    obtain ⟨same, only⟩ :=
      view_run_alike orderly_empty orderly_empty rfl (onlyAt_empty stream) turns
    rw [stage?_eq_of_onlyAt only]
    exact stageAt_eq_of_alike same visitor

end Gates

end EventSourcing
