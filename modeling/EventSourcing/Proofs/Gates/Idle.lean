import EventSourcing.Proofs.Gates.View
import Mathlib.Data.List.Dedup
import Mathlib.Data.List.Perm.Subperm

/-!
Gates that nobody needs. Whoever comes out takes the gate of its stream from the table if nobody
else refers to it; whoever has given up does not. So a gate for nobody stays in the table exactly if
the last visitor to go had given up.
-/

namespace EventSourcing

namespace Gates

def IsIdle (gates : Gates) (stream : StreamKey) : Prop :=
  ∀ visitor, gates.stageAt stream visitor = none

theorem IsIdle.ne {gates : Gates} {stream : StreamKey} (idle : gates.IsIdle stream) {visitor : Nat}
    {visit : Visit} (there : gates.visits.find? visitor = some visit) : visit.stream ≠ stream := by
  intro own
  cases (stageAt_eq there own).symm.trans (idle visitor)

/-- The visit that a turn ends, as it was before. -/
def endedBy (gates : Gates) (turn : Turn) : Option Visit :=
  match (gates.take turn).visits.find? turn.visitor with
  | some _ => none
  | none => gates.visits.find? turn.visitor

/-- Gates, and the visits that are over as they were at their end, beginning with the last. -/
structure Watch where
  gates : Gates := {}
  gone : List Visit := []

namespace Watch

def take (watch : Watch) (turn : Turn) : Watch where
  gates := watch.gates.take turn
  gone := (watch.gates.endedBy turn).toList ++ watch.gone

def run (watch : Watch) (turns : List Turn) : Watch :=
  turns.foldl take watch

theorem gates_run (watch : Watch) (turns : List Turn) :
    (watch.run turns).gates = watch.gates.run turns := by
  induction turns generalizing watch with
  | nil => rfl
  | cons turn turns ih => exact ih (watch.take turn)

/-- The last visit to a stream that is over. -/
def lastGone (watch : Watch) (stream : StreamKey) : Option Visit :=
  watch.gone.find? fun visit => visit.stream = stream

/-- The streams from which the last visitor to go had given up. -/
def abandoned (watch : Watch) : List StreamKey :=
  (watch.gone.map (·.stream)).dedup.filter fun stream =>
    (watch.lastGone stream).any fun visit => visit.stage = .quitting

theorem of_lastGone {watch : Watch} {stream : StreamKey} {visit : Visit}
    (last : watch.lastGone stream = some visit) : visit ∈ watch.gone ∧ visit.stream = stream := by
  rw [lastGone] at last
  have own := List.find?_some last
  exact ⟨List.mem_of_find?_eq_some last, of_decide_eq_true own⟩

theorem mem_abandoned_iff (watch : Watch) (stream : StreamKey) :
    stream ∈ watch.abandoned ↔
      ∃ visit, watch.lastGone stream = some visit ∧ visit.stage = .quitting := by
  rw [abandoned, List.mem_filter, List.mem_dedup, List.mem_map, Option.any_eq_true]
  constructor
  · rintro ⟨-, visit, last, stage⟩
    exact ⟨visit, last, of_decide_eq_true stage⟩
  · rintro ⟨visit, last, stage⟩
    exact ⟨⟨visit, of_lastGone last⟩, visit, last, decide_eq_true stage⟩

end Watch

section Table

variable {gates : Gates} {stream : StreamKey}

/-- A gate is in the table once. -/
theorem length_entries (filed : gates.Filed) {gate : Nat}
    (kept : gates.table.find? stream = some gate) :
    (gates.table.entries.filter fun entry => entry.2 = gate).length = 1 := by
  have single : ∀ entry ∈ gates.table.entries,
      decide (entry.2 = gate) = (entry == (stream, gate)) := by
    rintro ⟨other, found⟩ member
    rw [Bool.eq_iff_iff, decide_eq_true_iff, beq_iff_eq, Prod.mk.injEq]
    have listed := (Keyed.find?_eq_some_iff filed.streams _ _).mpr member
    constructor
    · rintro rfl
      exact ⟨filed.apart _ _ _ listed kept, rfl⟩
    · exact And.right
  rw [List.filter_congr single, ← List.count_eq_length_filter]
  exact List.count_eq_one_of_mem (List.Nodup.of_map _ filed.streams) (Keyed.mem_of_find? kept)

/-- Nobody refers to the gate of a stream unless one of its visitors does. -/
theorem filter_visits_eq_nil (sound : gates.Sound) (filed : gates.Filed) {gate : Nat}
    (kept : gates.table.find? stream = some gate)
    (nobody : ∀ visitor visit, gates.visits.find? visitor = some visit → visit.stream = stream →
      ¬visit.stage.RefersToGate) :
    (gates.visits.entries.filter fun entry =>
      entry.2.gate = gate ∧ entry.2.stage.RefersToGate) = [] := by
  rw [List.filter_eq_nil_iff]
  rintro ⟨visitor, visit⟩ member found
  obtain ⟨same, refers⟩ := of_decide_eq_true found
  have there := (Keyed.find?_eq_some_iff filed.visitors _ _).mpr member
  exact nobody visitor visit there ((gate_eq_iff sound filed kept there refers).mp same) refers

theorem tidyUp_of_nobody (sound : gates.Sound) (filed : gates.Filed)
    (nobody : ∀ visitor visit, gates.visits.find? visitor = some visit → visit.stream = stream →
      ¬visit.stage.RefersToGate) :
    (gates.tidyUp stream).table.find? stream = none := by
  unfold tidyUp
  split
  · rename_i gate kept
    have one : gates.references gate = 1 := by
      rw [references, length_entries filed kept, filter_visits_eq_nil sound filed kept nobody]
      rfl
    rw [if_pos one, Keyed.find?_erase, if_pos rfl]
  · assumption

end Table

namespace Orderly

variable {gates : Gates} {stream : StreamKey}

/-- A visit ends with a visitor that has given up and leaves the table alone, or with one that looks
after the table. -/
theorem endedBy_cases (orderly : gates.Orderly) {turn : Turn} {visit : Visit}
    (ended : gates.endedBy turn = some visit) :
    gates.visits.find? turn.visitor = some visit ∧
      (visit.stage = .quitting ∧ gates.take turn = gates.dismiss turn.visitor ∨
        visit.stage = .leaving ∧
          gates.take turn = (gates.tidyUp visit.stream).dismiss turn.visitor) := by
  rw [endedBy] at ended
  split at ended
  · cases ended
  · rename_i gone
    refine ⟨ended, ?_⟩
    rcases gates.step_or_eq_take turn with step | same
    · have leads := orderly.sound.leads step
      rw [ended, gone] at leads
      generalize gates.take turn = after at step gone
      obtain ⟨visitor, move⟩ := turn
      dsimp only at *
      cases leads with
      | vanishes stage =>
        cases step with
        | forgets there released =>
          obtain rfl := Option.some.inj (ended.symm.trans there)
          cases stage.symm.trans released
        | vanishes there _ => exact .inl ⟨stage, rfl⟩
      | tidies stage =>
        cases step with
        | tidies there _ =>
          obtain rfl := Option.some.inj (ended.symm.trans there)
          exact .inr ⟨stage, rfl⟩
    · rw [same, ended] at gone
      cases gone

/-- A turn at a stream after which nobody is there ends a visit to it. -/
theorem exists_endedBy (orderly : gates.Orderly) {turn : Turn}
    (own : gates.streamOf turn = some stream) (idle : (gates.take turn).IsIdle stream) :
    ∃ visit, gates.endedBy turn = some visit ∧ visit.stream = stream := by
  rcases streamOf_eq_some_iff.mp own with ⟨visit, there, onto⟩ | ⟨absent, arrives⟩
  · have gone : (gates.take turn).visits.find? turn.visitor = none := by
      rw [Option.eq_none_iff_forall_ne_some]
      intro later found
      refine idle.ne found ?_
      rcases gates.step_or_eq_take turn with step | same
      · refine (orderly.sound.leads step).stream_eq ?_ ?_ later found
        · intro before here
          obtain rfl := Option.some.inj (there.symm.trans here)
          exact onto
        · intro another arrives
          have leads := orderly.sound.leads step
          rw [there, arrives] at leads
          cases leads
      · rw [same, there] at found
        exact Option.some.inj found ▸ onto
    refine ⟨visit, ?_, onto⟩
    rw [endedBy, gone]
    exact there
  · obtain ⟨visitor, move⟩ := turn
    obtain rfl : move = .arrive stream := arrives
    have entered : (gates.take ⟨visitor, .arrive stream⟩).view stream =
        (gates.view stream).put visitor (some .arrived) := orderly.view_arrive absent
    have seen := congrFun (congrArg View.stages entered) visitor
    cases (idle visitor).symm.trans (seen.trans (Function.update_self _ _ _))

/-- If nobody is left at a stream, its gate is in the table exactly if the visitor that goes had
given up: such a visitor has referred to the gate until now, and leaves it there. -/
theorem contains_iff_of_ended (orderly : gates.Orderly) {turn : Turn} {visit : Visit}
    (ended : gates.endedBy turn = some visit) (idle : (gates.take turn).IsIdle visit.stream) :
    (gates.take turn).table.contains visit.stream = true ↔ visit.stage = .quitting := by
  obtain ⟨there, ⟨stage, after⟩ | ⟨stage, after⟩⟩ := orderly.endedBy_cases ended
  · refine iff_of_true ?_ stage
    rw [after]
    exact Option.isSome_of_eq_some
      (orderly.sound.known turn.visitor visit there (by rw [stage]; decide))
  · refine iff_of_false ?_ (by rw [stage]; decide)
    rw [after]
    refine Option.not_isSome_iff_eq_none.mpr (tidyUp_of_nobody orderly.sound orderly.filed ?_)
    intro other task found onto refers
    have different : other ≠ turn.visitor := by
      rintro rfl
      obtain rfl := Option.some.inj (there.symm.trans found)
      exact refers stage
    have still : (gates.take turn).visits.find? other = some task := by
      rw [after, dismiss, Keyed.find?_erase, if_neg different, visits_tidyUp]
      exact found
    exact idle.ne still onto

end Orderly

/-- A turn elsewhere leaves the entry of a stream alone. -/
theorem find?_take_beside {gates : Gates} {stream : StreamKey} {turn : Turn}
    (beside : gates.streamOf turn ≠ some stream) :
    (gates.take turn).table.find? stream = gates.table.find? stream := by
  obtain ⟨visitor, move⟩ := turn
  rcases gates.step_or_eq_take ⟨visitor, move⟩ with step | same
  · generalize gates.take ⟨visitor, move⟩ = after at step
    cases step with
    | @arrives another absent =>
      have away : stream ≠ another := fun own =>
        beside (streamOf_eq_some_iff.mpr (.inr ⟨absent, own ▸ rfl⟩))
      dsimp only [lookUp]
      split
      · rfl
      · exact Keyed.find?_set_of_ne _ away _
    | @tidies visit there stage =>
      have away : stream ≠ visit.stream := fun own =>
        beside (streamOf_eq_some_iff.mpr (.inl ⟨visit, there, own.symm⟩))
      dsimp only [dismiss, tidyUp]
      split
      · split
        · exact (Keyed.find?_erase _ _ _).trans (if_neg away)
        · rfl
      · rfl
    | releases there stage | declines there stage => rw [table_handOver]; rfl
    | _ => rfl
  · rw [same]

/-- What is told of a watch: the gate of a stream without visitors is in the table exactly if the
last of them had given up. -/
structure Watch.Told (watch : Watch) : Prop where
  orderly : watch.gates.Orderly
  kept : ∀ stream, watch.gates.IsIdle stream →
    (watch.gates.table.contains stream = true ↔
      ∃ visit, watch.lastGone stream = some visit ∧ visit.stage = .quitting)

namespace Watch

theorem told_empty : Told {} where
  orderly := orderly_empty
  kept _ _ := ⟨nofun, nofun⟩

theorem lastGone_take (watch : Watch) {turn : Turn} {visit : Visit}
    (ended : watch.gates.endedBy turn = some visit) :
    (watch.take turn).lastGone visit.stream = some visit := by
  rw [lastGone, take, ended]
  exact List.find?_cons_of_pos (decide_eq_true rfl)

theorem lastGone_take_beside (watch : Watch) (orderly : watch.gates.Orderly) {turn : Turn}
    {stream : StreamKey} (beside : watch.gates.streamOf turn ≠ some stream) :
    (watch.take turn).lastGone stream = watch.lastGone stream := by
  rw [lastGone, take]
  cases ended : watch.gates.endedBy turn with
  | none => rfl
  | some visit =>
    have there := (orderly.endedBy_cases ended).1
    have away : ¬decide (visit.stream = stream) = true := fun own =>
      beside (streamOf_eq_some_iff.mpr (.inl ⟨visit, there, of_decide_eq_true own⟩))
    exact List.find?_cons_of_neg away

namespace Told

variable {watch : Watch}

theorem take (told : watch.Told) (turn : Turn) : (watch.take turn).Told := by
  refine { orderly := told.orderly.take turn, kept := ?_ }
  intro stream idle
  by_cases own : watch.gates.streamOf turn = some stream
  · -- Nobody is left: what was told before of the stream is of no use.
    obtain ⟨visit, ended, rfl⟩ := told.orderly.exists_endedBy own idle
    rw [watch.lastGone_take ended]
    constructor
    · exact fun kept => ⟨visit, rfl, (told.orderly.contains_iff_of_ended ended idle).mp kept⟩
    · rintro ⟨_, ⟨⟩, quitting⟩
      exact (told.orderly.contains_iff_of_ended ended idle).mpr quitting
  · have before : watch.gates.IsIdle stream := fun visitor =>
      (stageAt_eq_of_alike (told.orderly.view_take_beside own) visitor).symm.trans (idle visitor)
    rw [watch.lastGone_take_beside told.orderly own, Keyed.contains, Watch.take,
      find?_take_beside own]
    exact told.kept stream before

theorem run (told : watch.Told) (turns : List Turn) : (watch.run turns).Told := by
  induction turns generalizing watch with
  | nil => exact told
  | cons turn turns ih => exact ih (told.take turn)

/-- A gate in the table is there for a visitor, or its stream is abandoned. -/
theorem size_le (told : watch.Told) :
    watch.gates.table.size ≤ watch.gates.visits.size + watch.abandoned.length := by
  have covered : watch.gates.table.keys ⊆
      watch.gates.visits.entries.map (·.2.stream) ++ watch.abandoned := by
    intro stream listed
    obtain ⟨⟨stream, gate⟩, member, rfl⟩ := List.mem_map.mp listed
    dsimp only
    have kept := (Keyed.find?_eq_some_iff told.orderly.filed.streams _ _).mpr member
    rw [List.mem_append]
    by_cases idle : watch.gates.IsIdle stream
    · refine .inr ((watch.mem_abandoned_iff stream).mpr ?_)
      exact (told.kept stream idle).mp (Option.isSome_of_eq_some kept)
    · obtain ⟨visitor, present⟩ := not_forall.mp idle
      obtain ⟨stage, seen⟩ := Option.ne_none_iff_exists'.mp present
      obtain ⟨visit, there, own, -⟩ := stageAt_eq_some_iff.mp seen
      exact .inl (List.mem_map.mpr ⟨_, Keyed.mem_of_find? there, own⟩)
  have short := (told.orderly.filed.streams.subperm covered).length_le
  simpa [Keyed.size, Keyed.keys] using short

end Told

end Watch

/-- Whoever does not give up is not at the stage at which those are who have given up. -/
theorem Leads.stage_ne {visit? later? : Option Visit} {move : Move}
    (leads : Leads visit? move later?) (stays : move ≠ .giveUp) :
    ∀ visit, later? = some visit → visit.stage ≠ .quitting := by
  cases leads with
  | vanishes stage | tidies stage => exact nofun
  | givesUp stage => exact absurd rfl stays
  | _ =>
    rintro _ ⟨⟩
    exact nofun

theorem Drifts.stage_ne {visit? later? : Option Visit} (drifts : Drifts visit? later?)
    (before : ∀ visit, visit? = some visit → visit.stage ≠ .quitting) :
    ∀ visit, later? = some visit → visit.stage ≠ .quitting := by
  cases drifts with
  | rests => exact before
  | called stage =>
    rintro _ ⟨⟩
    exact nofun

namespace Watch

/-- Nobody has given up. -/
structure Patient (watch : Watch) : Prop where
  here : ∀ visitor visit, watch.gates.visits.find? visitor = some visit → visit.stage ≠ .quitting
  gone : ∀ visit ∈ watch.gone, visit.stage ≠ .quitting

theorem patient_empty : Patient {} where
  here _ _ there := nomatch there
  gone _ member := nomatch member

namespace Patient

variable {watch : Watch}

theorem take (patient : watch.Patient) (orderly : watch.gates.Orderly) {turn : Turn}
    (stays : turn.move ≠ .giveUp) : (watch.take turn).Patient := by
  refine { here := ?here, gone := ?gone }
  case here =>
    intro visitor visit found
    rcases watch.gates.step_or_eq_take turn with step | same
    · by_cases own : visitor = turn.visitor
      · subst own
        exact (orderly.sound.leads step).stage_ne stays visit found
      · exact (orderly.sound.drifts step own).stage_ne (patient.here _) visit found
    · exact patient.here visitor visit (by rw [← same]; exact found)
  case gone =>
    intro visit member
    rcases List.mem_append.mp member with ended | gone
    · have there := (orderly.endedBy_cases (Option.mem_toList.mp ended)).1
      exact patient.here _ visit there
    · exact patient.gone visit gone

theorem run (patient : watch.Patient) (orderly : watch.gates.Orderly) {turns : List Turn}
    (stay : ∀ turn ∈ turns, turn.move ≠ .giveUp) : (watch.run turns).Patient := by
  induction turns generalizing watch with
  | nil => exact patient
  | cons turn turns ih =>
    exact ih (patient.take orderly (stay turn List.mem_cons_self)) (orderly.take turn)
      fun other member => stay other (List.mem_cons_of_mem _ member)

theorem abandoned_eq_nil (patient : watch.Patient) : watch.abandoned = [] := by
  rw [List.eq_nil_iff_forall_not_mem]
  intro stream member
  obtain ⟨visit, last, stage⟩ := (watch.mem_abandoned_iff stream).mp member
  exact patient.gone visit (of_lastGone last).1 stage

end Patient

end Watch

/-- With nobody at a stream, its gate is in the table exactly if the stream is abandoned, and so
there are no more gates than visitors and abandoned streams. If nobody gives up, none is
abandoned. -/
theorem kept_iff_abandoned (turns : List Turn) :
    let gates := run {} turns
    let watch := Watch.run {} turns
    (∀ stream, gates.IsIdle stream →
      (gates.table.contains stream = true ↔ stream ∈ watch.abandoned)) ∧
    gates.table.size ≤ gates.visits.size + watch.abandoned.length ∧
    ((∀ turn ∈ turns, turn.move ≠ .giveUp) → watch.abandoned = []) := by
  intro gates watch
  have told : watch.Told := Watch.told_empty.run turns
  have same : watch.gates = gates := Watch.gates_run {} turns
  rw [← same]
  refine ⟨fun stream idle => ?_, told.size_le, fun stay => ?_⟩
  · rw [watch.mem_abandoned_iff]
    exact told.kept stream idle
  · exact (Watch.patient_empty.run orderly_empty stay).abandoned_eq_nil

/-- The first visitor comes out while the second waits, which gives up before it has noticed. -/
def missed (stream : StreamKey) : List Turn :=
  [⟨0, .arrive stream⟩, ⟨0, .ask⟩, ⟨1, .arrive stream⟩, ⟨1, .ask⟩,
   ⟨0, .release⟩, ⟨0, .forget⟩, ⟨0, .tidy⟩, ⟨1, .giveUp⟩, ⟨1, .forget⟩]

/-- A gate that stays in the table although nobody is there any more. -/
theorem gate_kept_for_nobody :
    let gates := run {} (missed ⟨"account"⟩)
    gates.IsIdle ⟨"account"⟩ ∧ gates.table.contains ⟨"account"⟩ = true ∧
      gates.visits.size < gates.table.size := by
  intro gates
  have nobody : gates.visits = {} := by decide
  refine ⟨fun visitor => ?_, by decide, by decide⟩
  rw [stageAt, nobody]
  rfl

end Gates

end EventSourcing
