import EventSourcing.Proofs.Gates.Course
import Mathlib.Logic.Function.Basic

/-!
One stream among others. All streams share a table and a line, but what there is to see of a stream
changes with the turns of its own visitors only, and in a way that depends on nothing else. So its
visitors are at any time where they would be if no other stream had been visited.
-/

namespace EventSourcing

namespace Gates

/-- How far a visitor of a stream has come; nothing if it is not there. -/
def stageAt (gates : Gates) (stream : StreamKey) (visitor : Nat) : Option Stage :=
  match gates.visits.find? visitor with
  | some visit => if visit.stream = stream then some visit.stage else none
  | none => none

theorem stageAt_eq {gates : Gates} {stream : StreamKey} {visitor : Nat} {visit : Visit}
    (there : gates.visits.find? visitor = some visit) (own : visit.stream = stream) :
    gates.stageAt stream visitor = some visit.stage := by
  rw [stageAt, there]
  exact if_pos own

theorem stageAt_eq_some_iff {gates : Gates} {stream : StreamKey} {visitor : Nat} {stage : Stage} :
    gates.stageAt stream visitor = some stage ↔
      ∃ visit, gates.visits.find? visitor = some visit ∧ visit.stream = stream ∧
        visit.stage = stage := by
  constructor
  · intro seen
    rw [stageAt] at seen
    split at seen
    · split at seen
      · exact ⟨_, ‹_›, ‹_›, Option.some.inj seen⟩
      · cases seen
    · cases seen
  · rintro ⟨visit, there, own, rfl⟩
    exact stageAt_eq there own

theorem stageAt_of_ne {gates : Gates} {stream : StreamKey} {visitor : Nat}
    (elsewhere : ∀ visit, gates.visits.find? visitor = some visit → visit.stream ≠ stream) :
    gates.stageAt stream visitor = none := by
  rw [Option.eq_none_iff_forall_ne_some]
  intro stage seen
  obtain ⟨visit, there, own, -⟩ := stageAt_eq_some_iff.mp seen
  exact elsewhere visit there own

theorem stageAt_set (gates : Gates) (stream : StreamKey) (visitor : Nat) (visit : Visit)
    (line : List Nat) :
    stageAt { gates with visits := gates.visits.set visitor visit, line := line } stream =
      Function.update (gates.stageAt stream) visitor
        (if visit.stream = stream then some visit.stage else none) := by
  funext other
  rw [stageAt, Keyed.find?_set, Function.update_apply]
  by_cases same : other = visitor
  · rw [if_pos same, if_pos same]
  · rw [if_neg same, if_neg same, stageAt]

theorem stageAt_dismiss (gates : Gates) (stream : StreamKey) (visitor : Nat) :
    (gates.dismiss visitor).stageAt stream =
      Function.update (gates.stageAt stream) visitor none := by
  funext other
  rw [stageAt, dismiss, Keyed.find?_erase, Function.update_apply]
  by_cases same : other = visitor
  · rw [if_pos same, if_pos same]
  · rw [if_neg same, if_neg same, stageAt]

/-- What there is to see of one stream: how far its visitors have come, and those of them that are
in line. -/
structure View where
  stages : Nat → Option Stage
  line : List Nat

def view (gates : Gates) (stream : StreamKey) : View where
  stages := gates.stageAt stream
  line := gates.line.filter fun visitor => (gates.stageAt stream visitor).isSome

theorem stageAt_eq_of_alike {gates other : Gates} {stream : StreamKey}
    (same : gates.view stream = other.view stream) (visitor : Nat) :
    gates.stageAt stream visitor = other.stageAt stream visitor :=
  congrFun (congrArg View.stages same) visitor

namespace View

def put (view : View) (visitor : Nat) (stage? : Option Stage) : View :=
  { view with stages := Function.update view.stages visitor stage? }

/-- The gate goes to the first in line. -/
def handOver (view : View) : View :=
  match view.line with
  | [] => view
  | first :: rest => { view.put first (some .called) with line := rest }

/-- What a move of a visitor at some stage makes of its stream, whose gate may be shut. -/
def after (view : View) (visitor : Nat) (stage : Stage) (shut : Bool) : Move → View
  | .arrive _ => view
  | .ask =>
    if stage = .arrived then
      if shut then { view.put visitor (some .waiting) with line := view.line ++ [visitor] }
      else view.put visitor (some .inside)
    else view
  | .enter => if stage = .called then view.put visitor (some .inside) else view
  | .release => if stage = .inside then (view.put visitor (some .released)).handOver else view
  | .forget =>
    match stage with
    | .released => view.put visitor (some .leaving)
    | .quitting => view.put visitor none
    | _ => view
  | .tidy => if stage = .leaving then view.put visitor none else view
  | .giveUp =>
    match stage with
    | .arrived => view.put visitor (some .quitting)
    | .waiting => { view.put visitor (some .quitting) with line := view.line.erase visitor }
    | .called => (view.put visitor (some .quitting)).handOver
    | _ => view

end View

section Own

variable {gates : Gates} {stream : StreamKey} {visitor : Nat} {visit : Visit}

/-- Whoever is at a stream is counted among its visitors at any stage. -/
theorem isSome_update (there : gates.visits.find? visitor = some visit)
    (own : visit.stream = stream) (next : Stage) (other : Nat) :
    (Function.update (gates.stageAt stream) visitor (some next) other).isSome =
      (gates.stageAt stream other).isSome := by
  rw [Function.update_apply]
  split
  · rename_i same
    rw [same, stageAt_eq there own]
    rfl
  · rfl

/-- A visitor goes on to another stage, and the line changes. -/
theorem view_advanced (there : gates.visits.find? visitor = some visit)
    (own : visit.stream = stream) (next : Stage) (line : List Nat) :
    view { gates.atStage visitor visit next with line := line } stream =
      { (gates.view stream).put visitor (some next) with
        line := line.filter fun other => (gates.stageAt stream other).isSome } := by
  have stages := stageAt_set gates stream visitor { visit with stage := next } line
  rw [if_pos own] at stages
  simp only [view, View.put, atStage, stages, isSome_update there own]

theorem view_atStage (there : gates.visits.find? visitor = some visit) (own : visit.stream = stream)
    (next : Stage) :
    (gates.atStage visitor visit next).view stream =
      (gates.view stream).put visitor (some next) :=
  view_advanced there own next gates.line

theorem view_queued (there : gates.visits.find? visitor = some visit)
    (own : visit.stream = stream) (next : Stage) :
    view { gates.atStage visitor visit next with line := gates.line ++ [visitor] } stream =
      { (gates.view stream).put visitor (some next) with
        line := (gates.view stream).line ++ [visitor] } := by
  have seen : (gates.stageAt stream visitor).isSome = true := by
    rw [stageAt_eq there own]
    rfl
  rw [view_advanced there own, List.filter_append, List.filter_singleton, seen]
  rfl

theorem view_unqueued (there : gates.visits.find? visitor = some visit)
    (own : visit.stream = stream) (next : Stage) :
    view { gates.atStage visitor visit next with line := gates.line.erase visitor } stream =
      { (gates.view stream).put visitor (some next) with
        line := (gates.view stream).line.erase visitor } := by
  rw [view_advanced there own, ← List.erase_filter]
  rfl

/-- Whoever is not in line comes or goes without a change of the line. -/
theorem filter_update (absent : visitor ∉ gates.line) (stage? : Option Stage) :
    (gates.line.filter fun other =>
        (Function.update (gates.stageAt stream) visitor stage? other).isSome) =
      (gates.view stream).line := by
  refine List.filter_congr fun other member => ?_
  rw [Function.update_of_ne]
  rintro rfl
  exact absent member

theorem view_dismiss (absent : visitor ∉ gates.line) :
    (gates.dismiss visitor).view stream = (gates.view stream).put visitor none := by
  rw [view, stageAt_dismiss, dismiss, filter_update absent]
  rfl

theorem view_entered (absent : visitor ∉ gates.line) (visit : Visit) (own : visit.stream = stream) :
    view { gates with visits := gates.visits.set visitor visit } stream =
      (gates.view stream).put visitor (some visit.stage) := by
  have stages := stageAt_set gates stream visitor visit gates.line
  rw [if_pos own] at stages
  rw [view, stages, filter_update absent]
  rfl

/-- Whoever refers to the gate of a stream is one of its visitors. -/
theorem gate_eq_iff (sound : gates.Sound) (filed : gates.Filed) {gate : Nat}
    (kept : gates.table.find? stream = some gate)
    (there : gates.visits.find? visitor = some visit) (refers : visit.stage.RefersToGate) :
    visit.gate = gate ↔ visit.stream = stream := by
  have known := sound.known visitor visit there refers
  constructor
  · rintro rfl
    exact filed.apart _ _ _ known kept
  · rintro rfl
    exact Option.some.inj (known.symm.trans kept)

/-- Those in line for the gate of a stream are those of its visitors that are in line. -/
theorem find?_waitsAt (sound : gates.Sound) (filed : gates.Filed) {gate : Nat}
    (kept : gates.table.find? stream = some gate) :
    gates.line.find? (gates.waitsAt gate) = (gates.view stream).line.head? := by
  rw [← List.head?_filter, view]
  refine congrArg List.head? (List.filter_congr fun other member => ?_)
  obtain ⟨task, there, stage⟩ := sound.waiting other member
  have same := gate_eq_iff sound filed kept there (by rw [stage]; decide)
  rw [waitsAt, stageAt, there]
  by_cases own : task.stream = stream
  · simp [own, same.mpr own]
  · simp [own, mt same.mp own]

theorem view_handOver (sound : gates.Sound) (filed : gates.Filed) {gate : Nat}
    (kept : gates.table.find? stream = some gate) :
    (gates.handOver gate).view stream = (gates.view stream).handOver := by
  have first := find?_waitsAt sound filed kept
  rw [handOver, View.handOver]
  cases line : (gates.view stream).line with
  | nil =>
    rw [first, line]
    rfl
  | cons next rest =>
    rw [line] at first
    obtain ⟨task, there, stage, same, -⟩ := sound.of_first first
    have own := (gate_eq_iff sound filed kept there (by rw [stage]; decide)).mp same
    rw [first]
    simp only [List.head?_cons, there]
    rw [view_unqueued there own, line, List.erase_cons_head]

end Own

section Elsewhere

variable {gates : Gates} {stream : StreamKey} {visitor : Nat}

/-- A visitor of another stream arrives or goes on to another stage. -/
theorem view_beside {line : List Nat} (visit : Visit)
    (before : gates.stageAt stream visitor = none) (beside : visit.stream ≠ stream)
    (others : line.filter (fun other => (gates.stageAt stream other).isSome) =
      (gates.view stream).line) :
    view { gates with visits := gates.visits.set visitor visit, line := line } stream =
      gates.view stream := by
  have stages := stageAt_set gates stream visitor visit line
  rw [if_neg beside, ← before, Function.update_eq_self] at stages
  rw [view, stages, others]
  rfl

theorem view_dismiss_beside (before : gates.stageAt stream visitor = none) :
    (gates.dismiss visitor).view stream = gates.view stream := by
  have stages := stageAt_dismiss gates stream visitor
  rw [← before, Function.update_eq_self] at stages
  rw [view, stages]
  rfl

theorem filter_erase_beside (before : gates.stageAt stream visitor = none) :
    (gates.line.erase visitor).filter (fun other => (gates.stageAt stream other).isSome) =
      (gates.view stream).line := by
  rw [← List.erase_filter, List.erase_of_not_mem]
  · rfl
  · intro member
    rw [List.mem_filter, before] at member
    exact absurd member.2 nofun

theorem view_handOver_beside (sound : gates.Sound) (filed : gates.Filed) {another : StreamKey}
    {gate : Nat} (kept : gates.table.find? another = some gate) (beside : another ≠ stream) :
    (gates.handOver gate).view stream = gates.view stream := by
  rcases sound.handOver_cases gate with same | ⟨first, task, there, stage, gate, same⟩
  · rw [same]
  · have onto := (gate_eq_iff sound filed kept there (by rw [stage]; decide)).mp gate
    have before : gates.stageAt stream first = none := by
      refine stageAt_of_ne fun visit found => ?_
      obtain rfl := Option.some.inj (there.symm.trans found)
      exact onto ▸ beside
    rw [same]
    exact view_beside _ before (onto ▸ beside) (filter_erase_beside before)

end Elsewhere

theorem view_lookUp (gates : Gates) (stream another : StreamKey) :
    (gates.lookUp stream).2.view another = gates.view another := by
  unfold lookUp
  split <;> rfl

theorem line_tidyUp (gates : Gates) (stream : StreamKey) :
    (gates.tidyUp stream).line = gates.line := by
  unfold tidyUp
  split
  · split <;> rfl
  · rfl

theorem view_tidyUp (gates : Gates) (stream another : StreamKey) :
    (gates.tidyUp stream).view another = gates.view another := by
  unfold tidyUp
  split
  · split <;> rfl
  · rfl

namespace Orderly

variable {gates : Gates} {stream : StreamKey} {visitor : Nat} {visit : Visit}

/-- Between letting a gate go and handing it over: the gates are sound, and the gate is in the
table. -/
theorem letGo (orderly : gates.Orderly) (there : gates.visits.find? visitor = some visit)
    (shuts : visit.stage.ShutsGate) (next : Stage) (opens : ¬next.ShutsGate) :
    (gates.atStage visitor visit next).Sound ∧ (gates.atStage visitor visit next).Filed ∧
      (gates.atStage visitor visit next).table.find? visit.stream = some visit.gate :=
  ⟨(orderly.sound.letGo there shuts next opens).1,
    orderly.filed.withVisits (Keyed.nodup_keys_set orderly.filed.visitors _ _) _,
    orderly.sound.known visitor visit there shuts.refers⟩

/-- What a move makes of the visitor's own stream depends on nothing else. -/
theorem view_take (orderly : gates.Orderly) (there : gates.visits.find? visitor = some visit)
    (own : visit.stream = stream) (move : Move) :
    (gates.take ⟨visitor, move⟩).view stream =
      (gates.view stream).after visitor visit.stage (gates.isShut visit.gate) move := by
  have absent (stage : visit.stage ≠ .waiting) : visitor ∉ gates.line :=
    orderly.sound.not_mem_line there stage
  have letGo (shuts : visit.stage.ShutsGate) (next : Stage) (opens : ¬next.ShutsGate) :
      ((gates.atStage visitor visit next).handOver visit.gate).view stream =
        ((gates.view stream).put visitor (some next)).handOver := by
    obtain ⟨sound, filed, kept⟩ := orderly.letGo there shuts next opens
    rw [view_handOver sound filed (own ▸ kept), view_atStage there own]
  rw [Gates.take]
  cases move with
  | arrive another => simp only [Gates.move, there, View.after, Option.getD_none]
  | ask =>
    simp only [Gates.move, there, View.after]
    split
    · split
      · exact view_queued there own .waiting
      · exact view_atStage there own .inside
    · rfl
  | enter =>
    simp only [Gates.move, there, View.after]
    split
    · exact view_atStage there own .inside
    · rfl
  | release =>
    simp only [Gates.move, there, View.after]
    split
    · exact letGo (.inr ‹_›) .released (by decide)
    · rfl
  | forget =>
    simp only [Gates.move, there, View.after]
    cases stage : visit.stage with
    | released => exact view_atStage there own .leaving
    | quitting => exact view_dismiss (absent (by rw [stage]; decide))
    | _ => rfl
  | tidy =>
    simp only [Gates.move, there, View.after]
    split
    · rename_i stage
      have outside : visitor ∉ (gates.tidyUp visit.stream).line := by
        rw [line_tidyUp]
        exact absent (by rw [stage]; decide)
      rw [Option.getD_some, view_dismiss outside, view_tidyUp]
    · rfl
  | giveUp =>
    simp only [Gates.move, there, View.after]
    cases stage : visit.stage with
    | arrived => exact view_atStage there own .quitting
    | waiting => exact view_unqueued there own .quitting
    | called => exact letGo (.inl stage) .quitting (by decide)
    | _ => rfl

theorem view_arrive (orderly : gates.Orderly) (absent : gates.visits.find? visitor = none) :
    (gates.take ⟨visitor, .arrive stream⟩).view stream =
      (gates.view stream).put visitor (some .arrived) := by
  have outside : visitor ∉ (gates.lookUp stream).2.line := by
    intro member
    rw [(visits_lookUp gates stream).2.1] at member
    obtain ⟨task, there, -⟩ := orderly.sound.waiting visitor member
    cases absent.symm.trans there
  simp only [Gates.take, Gates.move, absent, Option.getD_some]
  rw [view_entered outside ⟨stream, (gates.lookUp stream).1, .arrived⟩ rfl, view_lookUp]

end Orderly

/-- The stream at which a turn takes place. -/
def streamOf (gates : Gates) (turn : Turn) : Option StreamKey :=
  match gates.visits.find? turn.visitor, turn.move with
  | some visit, _ => some visit.stream
  | none, .arrive stream => some stream
  | none, _ => none

theorem streamOf_eq_some_iff {gates : Gates} {turn : Turn} {stream : StreamKey} :
    gates.streamOf turn = some stream ↔
      (∃ visit, gates.visits.find? turn.visitor = some visit ∧ visit.stream = stream) ∨
        gates.visits.find? turn.visitor = none ∧ turn.move = .arrive stream := by
  rw [streamOf]
  cases there : gates.visits.find? turn.visitor with
  | some visit => simp
  | none => cases turn.move <;> simp

namespace Orderly

variable {gates : Gates} {stream : StreamKey}

/-- A turn at another stream, or at none, is not to be seen. -/
theorem view_take_beside (orderly : gates.Orderly) {turn : Turn}
    (beside : gates.streamOf turn ≠ some stream) :
    (gates.take turn).view stream = gates.view stream := by
  obtain ⟨visitor, move⟩ := turn
  rcases gates.step_or_eq_take ⟨visitor, move⟩ with step | same
  · have away (visit : Visit) (there : gates.visits.find? visitor = some visit) :
        visit.stream ≠ stream :=
      fun own => beside (streamOf_eq_some_iff.mpr (.inl ⟨visit, there, own⟩))
    have before : gates.stageAt stream visitor = none := stageAt_of_ne away
    have atStage {visit : Visit} (there : gates.visits.find? visitor = some visit)
        (next : Stage) : (gates.atStage visitor visit next).view stream = gates.view stream :=
      view_beside _ before (away visit there) rfl
    have letGo {visit : Visit} (there : gates.visits.find? visitor = some visit)
        (shuts : visit.stage.ShutsGate) (next : Stage) (opens : ¬next.ShutsGate) :
        ((gates.atStage visitor visit next).handOver visit.gate).view stream =
          gates.view stream := by
      obtain ⟨sound, filed, kept⟩ := orderly.letGo there shuts next opens
      rw [view_handOver_beside sound filed kept (away visit there), atStage there]
    generalize gates.take ⟨visitor, move⟩ = after at step
    cases step with
    | @arrives another absent =>
      have beside : another ≠ stream := fun own =>
        beside (streamOf_eq_some_iff.mpr (.inr ⟨absent, own ▸ rfl⟩))
      have seen := stageAt_eq_of_alike (view_lookUp gates another stream) visitor
      exact (view_beside _ (seen.trans before) beside rfl).trans (view_lookUp gates another stream)
    | @queues visit there stage =>
      refine view_beside _ before (away visit there) ?_
      rw [List.filter_append, List.filter_singleton, before]
      exact List.append_nil _
    | @leavesLine visit there stage =>
      exact view_beside _ before (away visit there) (filter_erase_beside before)
    | releases there stage => exact letGo there (.inr stage) .released (by decide)
    | declines there stage => exact letGo there (.inl stage) .quitting (by decide)
    | vanishes there stage => exact view_dismiss_beside before
    | @tidies visit there stage =>
      have seen := stageAt_eq_of_alike (view_tidyUp gates visit.stream stream) visitor
      exact (view_dismiss_beside (seen.trans before)).trans (view_tidyUp gates visit.stream stream)
    | _ => exact atStage ‹_› _
  · rw [same]

/-- Whether a gate is shut is to be seen at its stream. -/
theorem isShut_iff_view (orderly : gates.Orderly) {visitor : Nat} {visit : Visit}
    (there : gates.visits.find? visitor = some visit) (refers : visit.stage.RefersToGate) :
    gates.isShut visit.gate = true ↔
      ∃ other stage, gates.stageAt visit.stream other = some stage ∧ stage.ShutsGate := by
  have kept := orderly.sound.known visitor visit there refers
  rw [isShut_iff orderly.filed]
  constructor
  · rintro ⟨other, task, found, same, shuts⟩
    have onto := (gate_eq_iff orderly.sound orderly.filed kept found shuts.refers).mp same
    exact ⟨other, task.stage, stageAt_eq found onto, shuts⟩
  · rintro ⟨other, stage, seen, shuts⟩
    obtain ⟨task, found, onto, rfl⟩ := stageAt_eq_some_iff.mp seen
    have same := (gate_eq_iff orderly.sound orderly.filed kept found shuts.refers).mpr onto
    exact ⟨other, task, found, same, shuts⟩

end Orderly

/-- Only whoever asks to go in looks at the gate. -/
theorem View.after_congr (view : View) (visitor : Nat) {stage : Stage} {shut other : Bool}
    (same : stage = .arrived → shut = other) (move : Move) :
    view.after visitor stage shut move = view.after visitor stage other move := by
  cases move with
  | ask =>
    simp only [View.after]
    split
    · rw [same ‹_›]
    · rfl
  | _ => rfl

/-- Whether all visitors are at one stream. -/
def OnlyAt (gates : Gates) (stream : StreamKey) : Prop :=
  ∀ another, another ≠ stream → ∀ visitor, gates.stageAt another visitor = none

theorem onlyAt_empty (stream : StreamKey) : OnlyAt {} stream := fun _ _ _ => rfl

namespace OnlyAt

variable {gates : Gates} {stream : StreamKey}

theorem stream_eq (only : gates.OnlyAt stream) {visitor : Nat} {visit : Visit}
    (there : gates.visits.find? visitor = some visit) : visit.stream = stream := by
  by_contra away
  cases (stageAt_eq there rfl).symm.trans (only visit.stream away visitor)

theorem take (only : gates.OnlyAt stream) (orderly : gates.Orderly) {turn : Turn}
    (own : gates.streamOf turn = some stream) : (gates.take turn).OnlyAt stream := by
  intro another away visitor
  have beside : gates.streamOf turn ≠ some another := by
    rw [own]
    exact fun same => away (Option.some.inj same).symm
  rw [stageAt_eq_of_alike (orderly.view_take_beside beside)]
  exact only another away visitor

end OnlyAt

section Alike

variable {gates other : Gates} {stream : StreamKey}

theorem exists_of_alike (same : gates.view stream = other.view stream) {visitor : Nat}
    {visit : Visit} (there : gates.visits.find? visitor = some visit)
    (own : visit.stream = stream) :
    ∃ task, other.visits.find? visitor = some task ∧ task.stream = stream ∧
      task.stage = visit.stage := by
  rw [← stageAt_eq_some_iff, ← stageAt_eq_of_alike same]
  exact stageAt_eq there own

theorem absent_of_alike (same : gates.view stream = other.view stream) (only : other.OnlyAt stream)
    {visitor : Nat} (absent : gates.visits.find? visitor = none) :
    other.visits.find? visitor = none := by
  rw [Option.eq_none_iff_forall_ne_some]
  intro task found
  obtain ⟨visit, there, -⟩ := exists_of_alike same.symm found (only.stream_eq found)
  cases absent.symm.trans there

/-- A turn at a stream is one there too in gates that look alike and are visited nowhere else. -/
theorem streamOf_of_alike (same : gates.view stream = other.view stream)
    (only : other.OnlyAt stream) {turn : Turn} (own : gates.streamOf turn = some stream) :
    other.streamOf turn = some stream := by
  refine streamOf_eq_some_iff.mpr ?_
  rcases streamOf_eq_some_iff.mp own with ⟨visit, there, onto⟩ | ⟨absent, arrives⟩
  · obtain ⟨task, found, onto, -⟩ := exists_of_alike same there onto
    exact .inl ⟨task, found, onto⟩
  · exact .inr ⟨absent_of_alike same only absent, arrives⟩

theorem view_take_alike (orderly : gates.Orderly) (too : other.Orderly)
    (same : gates.view stream = other.view stream) (only : other.OnlyAt stream) {turn : Turn}
    (own : gates.streamOf turn = some stream) :
    (gates.take turn).view stream = (other.take turn).view stream := by
  obtain ⟨visitor, move⟩ := turn
  rcases streamOf_eq_some_iff.mp own with ⟨visit, there, onto⟩ | ⟨absent, arrives⟩
  · obtain ⟨task, found, also, stage⟩ := exists_of_alike same there onto
    rw [orderly.view_take there onto, too.view_take found also, same, stage]
    refine View.after_congr _ _ (fun arrived => ?_) move
    have refers : visit.stage.RefersToGate := by rw [arrived]; decide
    rw [Bool.eq_iff_iff, orderly.isShut_iff_view there refers,
      too.isShut_iff_view found (stage ▸ refers), onto, also]
    simp only [stageAt_eq_of_alike same]
  · obtain rfl : move = .arrive stream := arrives
    rw [orderly.view_arrive absent, too.view_arrive (absent_of_alike same only absent), same]

end Alike

/-- Those of the turns that take place at a stream. -/
def turnsAt (stream : StreamKey) (gates : Gates) : List Turn → List Turn
  | [] => []
  | turn :: turns =>
    if gates.streamOf turn = some stream then turn :: turnsAt stream (gates.take turn) turns
    else turnsAt stream (gates.take turn) turns

theorem view_run_alike {gates other : Gates} (orderly : gates.Orderly) (too : other.Orderly)
    {stream : StreamKey} (same : gates.view stream = other.view stream)
    (only : other.OnlyAt stream) (turns : List Turn) :
    (gates.run turns).view stream = (other.run (turnsAt stream gates turns)).view stream ∧
      (other.run (turnsAt stream gates turns)).OnlyAt stream := by
  induction turns generalizing gates other with
  | nil => exact ⟨same, only⟩
  | cons turn turns ih =>
    rw [turnsAt]
    split
    · rename_i own
      exact ih (orderly.take turn) (too.take turn) (view_take_alike orderly too same only own)
        (only.take too (streamOf_of_alike same only own))
    · rename_i beside
      exact ih (orderly.take turn) too ((orderly.view_take_beside beside).trans same) only

end Gates

end EventSourcing
