import EventSourcing.Proofs.Gates
import EventSourcing.Proofs.Separation

/-!
Gates in the course of time. Visitors take their turns in any order, and after each turn the gates
are orderly: the gates of different streams are different, and everybody who waits is in line for a
gate that somebody keeps shut.
-/

namespace EventSourcing

namespace Keyed

variable {κ α : Type} [DecidableEq κ]

theorem nodup_keys_erase {table : Keyed κ α} (distinct : table.keys.Nodup) (key : κ) :
    (table.erase key).keys.Nodup :=
  distinct.sublist (List.filter_sublist.map _)

theorem find?_set_cases {table : Keyed κ α} {key other : κ} {value result : α}
    (found : (table.set key value).find? other = some result) :
    other = key ∧ result = value ∨ other ≠ key ∧ table.find? other = some result := by
  rw [find?_set] at found
  split at found
  · exact .inl ⟨‹_›, (Option.some.inj found).symm⟩
  · exact .inr ⟨‹_›, found⟩

theorem find?_of_erase {table : Keyed κ α} {key other : κ} {result : α}
    (found : (table.erase key).find? other = some result) : table.find? other = some result := by
  rw [find?_erase] at found
  split at found
  · cases found
  · exact found

end Keyed

namespace Gates

/-- A visitor and what it does. -/
structure Turn where
  visitor : Nat
  move : Move
  deriving DecidableEq, Repr

/-- Nothing happens if the visitor cannot make its move now. -/
def take (gates : Gates) (turn : Turn) : Gates :=
  (gates.move turn.visitor turn.move).getD gates

def run (gates : Gates) (turns : List Turn) : Gates :=
  turns.foldl take gates

/-- A turn is a step, or it changes nothing. -/
theorem step_or_eq_take (gates : Gates) (turn : Turn) :
    gates.Step turn.visitor turn.move (gates.take turn) ∨ gates.take turn = gates := by
  rw [take]
  cases moved : gates.move turn.visitor turn.move with
  | none => exact .inr rfl
  | some after => exact .inl (step_of_move moved)

theorem table_handOver (gates : Gates) (gate : Nat) :
    (gates.handOver gate).table = gates.table := by
  unfold handOver
  split
  · rfl
  · split <;> rfl

/-- No key has two entries, and no two streams have the same gate. -/
structure Filed (gates : Gates) : Prop where
  visitors : gates.visits.keys.Nodup
  streams : gates.table.keys.Nodup
  numbered : ∀ stream gate, gates.table.find? stream = some gate → gate < gates.nextGate
  apart : ∀ first second gate, gates.table.find? first = some gate →
    gates.table.find? second = some gate → first = second

theorem filed_empty : Filed {} where
  visitors := List.nodup_nil
  streams := List.nodup_nil
  numbered _ _ kept := nomatch kept
  apart _ _ _ kept := nomatch kept

namespace Filed

variable {gates : Gates}

theorem withVisits (filed : gates.Filed) {visits : Keyed Nat Visit} (visitors : visits.keys.Nodup)
    (line : List Nat) : Filed { gates with visits := visits, line := line } :=
  { filed with visitors := visitors }

theorem handOver (filed : gates.Filed) (gate : Nat) : (gates.handOver gate).Filed := by
  unfold Gates.handOver
  split
  · exact filed
  · split
    · exact filed
    · exact filed.withVisits (Keyed.nodup_keys_set filed.visitors _ _) _

theorem lookUp (filed : gates.Filed) (stream : StreamKey) : (gates.lookUp stream).2.Filed := by
  unfold Gates.lookUp
  split
  · exact filed
  · refine { filed with streams := ?streams, numbered := ?numbered, apart := ?apart }
    case streams => exact Keyed.nodup_keys_set filed.streams _ _
    case numbered =>
      intro other gate kept
      rcases Keyed.find?_set_cases kept with ⟨-, rfl⟩ | ⟨-, kept⟩
      · exact Nat.lt_succ_self _
      · exact Nat.lt_succ_of_lt (filed.numbered other gate kept)
    case apart =>
      -- The number of the new gate is above those of all others.
      have new {other : StreamKey} (kept : gates.table.find? other = some gates.nextGate) : False :=
        Nat.lt_irrefl _ (filed.numbered other _ kept)
      intro first second gate one another
      rcases Keyed.find?_set_cases one with ⟨rfl, rfl⟩ | ⟨-, one⟩
      · rcases Keyed.find?_set_cases another with ⟨rfl, -⟩ | ⟨-, another⟩
        · rfl
        · exact (new another).elim
      · rcases Keyed.find?_set_cases another with ⟨-, rfl⟩ | ⟨-, another⟩
        · exact (new one).elim
        · exact filed.apart first second gate one another

theorem tidyUp (filed : gates.Filed) (stream : StreamKey) : (gates.tidyUp stream).Filed := by
  unfold Gates.tidyUp
  split
  · split
    · exact {
        visitors := filed.visitors
        streams := Keyed.nodup_keys_erase filed.streams stream
        numbered := fun other gate kept => filed.numbered other gate (Keyed.find?_of_erase kept)
        apart := fun first second gate one another =>
          filed.apart first second gate (Keyed.find?_of_erase one) (Keyed.find?_of_erase another) }
    · exact filed
  · exact filed

theorem step (filed : gates.Filed) {visitor : Nat} {move : Move} {after : Gates}
    (step : gates.Step visitor move after) : after.Filed := by
  have put (gates : Gates) (filed : gates.Filed) (visit : Visit) (line : List Nat) :
      Filed { gates with visits := gates.visits.set visitor visit, line := line } :=
    filed.withVisits (Keyed.nodup_keys_set filed.visitors _ _) line
  have dismiss (gates : Gates) (filed : gates.Filed) : (gates.dismiss visitor).Filed :=
    filed.withVisits (Keyed.nodup_keys_erase filed.visitors _) gates.line
  cases step with
  | arrives absent => exact put _ (filed.lookUp _) _ _
  | releases there stage => exact (put _ filed _ _).handOver _
  | declines there stage => exact (put _ filed _ _).handOver _
  | vanishes there stage => exact dismiss _ filed
  | tidies there stage => exact dismiss _ (filed.tidyUp _)
  | _ => exact put _ filed _ _

end Filed

theorem Stage.ShutsGate.refers {stage : Stage} (shuts : stage.ShutsGate) : stage.RefersToGate := by
  rcases shuts with rfl | rfl <;> decide

/-- Whether somebody keeps a gate shut. -/
def IsHeld (gates : Gates) (gate : Nat) : Prop :=
  ∃ visitor visit, gates.visits.find? visitor = some visit ∧ visit.gate = gate ∧
    visit.stage.ShutsGate

theorem isShut_iff {gates : Gates} (filed : gates.Filed) (gate : Nat) :
    gates.isShut gate = true ↔ gates.IsHeld gate := by
  rw [isShut, List.any_eq_true]
  constructor
  · rintro ⟨⟨visitor, visit⟩, member, shuts⟩
    obtain ⟨same, stage⟩ := of_decide_eq_true shuts
    exact ⟨visitor, visit, (Keyed.find?_eq_some_iff filed.visitors _ _).mpr member, same, stage⟩
  · rintro ⟨visitor, visit, there, same, stage⟩
    exact ⟨(visitor, visit), Keyed.mem_of_find? there, decide_eq_true ⟨same, stage⟩⟩

/-- A visitor is put in line for no gate but one that is shut. -/
theorem isShut_of_queued {gates after : Gates} {visitor : Nat} {visit : Visit}
    (there : gates.visits.find? visitor = some visit)
    (moved : gates.move visitor .ask = some after)
    (queued : after.visits.find? visitor = some { visit with stage := .waiting }) :
    gates.isShut visit.gate = true := by
  simp only [Gates.move, there] at moved
  split at moved
  · split at moved
    · assumption
    · obtain rfl := Option.some.inj moved
      rw [Gates.atStage, Keyed.find?_set_self] at queued
      cases queued
  · cases moved

/-- Everybody who waits is in line for a gate that somebody keeps shut, if it is not the one that
has just been let go. -/
structure Served (gates : Gates) (idle : Option Nat) : Prop where
  lined : ∀ visitor visit, gates.visits.find? visitor = some visit → visit.stage = .waiting →
    visitor ∈ gates.line
  held : ∀ visitor visit, gates.visits.find? visitor = some visit → visit.stage = .waiting →
    idle = some visit.gate ∨ gates.IsHeld visit.gate

theorem served_empty : Served {} none where
  lined _ _ there := nomatch there
  held _ _ there := nomatch there

namespace Served

variable {gates : Gates} {visitor : Nat} {visit : Visit}

theorem isHeld (served : gates.Served none) (there : gates.visits.find? visitor = some visit)
    (stage : visit.stage = .waiting) : gates.IsHeld visit.gate := by
  rcases served.held visitor visit there stage with idle | held
  · cases idle
  · exact held

/-- A visitor comes or goes on. If it kept a gate shut and does so no more, that gate is `next`; and
if a gate has been let go before, it keeps that one shut. -/
theorem put {idle next : Option Nat} (served : gates.Served idle) {line : List Nat} (visit : Visit)
    (stays : ∀ other ∈ gates.line, other ≠ visitor → other ∈ line)
    (waits : visit.stage = .waiting → visitor ∈ line ∧ gates.IsHeld visit.gate)
    (shuts : ∀ before, gates.visits.find? visitor = some before → before.stage.ShutsGate →
      next = some before.gate ∨ visit.gate = before.gate ∧ visit.stage.ShutsGate)
    (takes : ∀ gate, idle = some gate → visit.gate = gate ∧ visit.stage.ShutsGate) :
    Served { gates with visits := gates.visits.set visitor visit, line := line } next := by
  have still {gate : Nat} (held : gates.IsHeld gate) : next = some gate ∨
      IsHeld { gates with visits := gates.visits.set visitor visit, line := line } gate := by
    obtain ⟨holder, there, found, rfl, stage⟩ := held
    by_cases same : holder = visitor
    · subst same
      rcases shuts there found stage with free | ⟨gate, shut⟩
      · exact .inl free
      · exact .inr ⟨holder, visit, Keyed.find?_set_self _ _ _, gate, shut⟩
    · exact .inr ⟨holder, there, (Keyed.find?_set_of_ne _ same _).trans found, rfl, stage⟩
  refine { lined := ?lined, held := ?held }
  case lined =>
    intro other there found stage
    rcases Keyed.find?_set_cases found with ⟨rfl, rfl⟩ | ⟨different, found⟩
    · exact (waits stage).1
    · exact stays other (served.lined other there found stage) different
  case held =>
    intro other there found stage
    rcases Keyed.find?_set_cases found with ⟨rfl, rfl⟩ | ⟨-, found⟩
    · exact still (waits stage).2
    · rcases served.held other there found stage with free | held
      · obtain ⟨gate, shut⟩ := takes _ free
        exact .inr ⟨visitor, visit, Keyed.find?_set_self _ _ _, gate, shut⟩
      · exact still held

/-- The gate that has been let go is handed over, or nobody waits for it. -/
theorem handOver {gate : Nat} (served : gates.Served (some gate)) (sound : gates.Sound) :
    (gates.handOver gate).Served none := by
  unfold Gates.handOver
  split
  · rename_i nobody
    refine { served with held := ?_ }
    intro visitor visit there stage
    refine .inr ((served.held visitor visit there stage).resolve_left ?_)
    intro same
    have waits := List.find?_eq_none.mp nobody visitor (served.lined visitor visit there stage)
    rw [waitsAt, there] at waits
    exact waits (decide_eq_true (Option.some.inj same).symm)
  · rename_i first found
    obtain ⟨visit, there, stage, same, -⟩ := sound.of_first found
    rw [there]
    refine served.put { visit with stage := .called } ?stays ?waits ?shuts ?takes
    case stays => exact fun _ member different => (List.mem_erase_of_ne different).mpr member
    case waits =>
      intro waits
      cases waits
    case shuts =>
      intro before found shuts
      obtain rfl := Option.some.inj (there.symm.trans found)
      exact absurd (stage ▸ shuts) (by decide)
    case takes =>
      intro free taken
      exact ⟨same.trans (Option.some.inj taken), .inl rfl⟩

theorem dismiss (served : gates.Served none) (there : gates.visits.find? visitor = some visit)
    (opens : ¬visit.stage.ShutsGate) : (gates.dismiss visitor).Served none := by
  refine { lined := ?lined, held := ?held }
  case lined => exact fun other task found => served.lined other task (Keyed.find?_of_erase found)
  case held =>
    intro other task found stage
    obtain ⟨holder, held, here, onto, shuts⟩ := served.isHeld (Keyed.find?_of_erase found) stage
    refine .inr ⟨holder, held, ?_, onto, shuts⟩
    rw [Gates.dismiss, Keyed.find?_erase, if_neg]
    · exact here
    · rintro rfl
      obtain rfl := Option.some.inj (there.symm.trans here)
      exact opens shuts

theorem lookUp (served : gates.Served none) (stream : StreamKey) :
    (gates.lookUp stream).2.Served none := by
  unfold Gates.lookUp
  split
  · exact served
  · exact ⟨served.lined, served.held⟩

theorem tidyUp (served : gates.Served none) (stream : StreamKey) :
    (gates.tidyUp stream).Served none := by
  unfold Gates.tidyUp
  split
  · split
    · exact ⟨served.lined, served.held⟩
    · exact served
  · exact served

/-- A visitor goes on to a stage at which it keeps its gate shut if it did so before. -/
theorem atStage (served : gates.Served none) (there : gates.visits.find? visitor = some visit)
    {line : List Nat} (stays : ∀ other ∈ gates.line, other ≠ visitor → other ∈ line) (next : Stage)
    (outside : next ≠ .waiting) (shuts : visit.stage.ShutsGate → next.ShutsGate) :
    Served { gates.atStage visitor visit next with line := line } none := by
  refine served.put _ stays (fun waits => absurd waits outside) ?_ nofun
  intro before found shut
  obtain rfl := Option.some.inj (there.symm.trans found)
  exact .inr ⟨rfl, shuts shut⟩

/-- A visitor lets its gate go, which is handed over. -/
theorem letGo (served : gates.Served none) (sound : gates.Sound)
    (there : gates.visits.find? visitor = some visit) (shuts : visit.stage.ShutsGate) (next : Stage)
    (opens : ¬next.ShutsGate) (outside : next ≠ .waiting) :
    ((gates.atStage visitor visit next).handOver visit.gate).Served none := by
  refine handOver ?_ (sound.letGo there shuts next opens).1
  refine served.put _ (fun _ member _ => member) (fun waits => absurd waits outside) ?_ nofun
  intro before found _
  obtain rfl := Option.some.inj (there.symm.trans found)
  exact .inl rfl

theorem move (served : gates.Served none) (sound : gates.Sound) (filed : gates.Filed) {move : Move}
    {after : Gates} (moved : gates.move visitor move = some after) : after.Served none := by
  have here : ∀ other ∈ gates.line, other ≠ visitor → other ∈ gates.line := fun _ member _ => member
  cases step_of_move moved with
  | @arrives stream absent =>
    refine (served.lookUp stream).put _ (fun _ member _ => member) nofun ?_ nofun
    intro before found
    rw [(visits_lookUp gates stream).1, absent] at found
    cases found
  | @queues visit there stage =>
    have shut := isShut_of_queued there moved (Keyed.find?_set_self _ _ _)
    refine served.put _ (fun _ member _ => List.mem_append_left _ member) (fun _ => ?_) ?_ nofun
    · exact ⟨List.mem_append_right _ List.mem_cons_self, (isShut_iff filed _).mp shut⟩
    · intro before found shuts
      obtain rfl := Option.some.inj (there.symm.trans found)
      exact absurd (stage ▸ shuts) (by decide)
  | goesIn there stage free => exact served.atStage there here .inside (by decide) fun _ => .inr rfl
  | follows there stage => exact served.atStage there here .inside (by decide) fun _ => .inr rfl
  | releases there stage =>
    exact served.letGo sound there (.inr stage) .released (by decide) (by decide)
  | forgets there stage =>
    exact served.atStage there here .leaving (by decide) fun shuts =>
      absurd (stage ▸ shuts) (by decide)
  | vanishes there stage =>
    exact served.dismiss there fun shuts => absurd (stage ▸ shuts) (by decide)
  | @tidies visit there stage =>
    rw [← visits_tidyUp gates visit.stream] at there
    exact (served.tidyUp _).dismiss there fun shuts => absurd (stage ▸ shuts) (by decide)
  | turnsBack there stage =>
    exact served.atStage there here .quitting (by decide) fun shuts =>
      absurd (stage ▸ shuts) (by decide)
  | leavesLine there stage =>
    refine served.atStage there ?_ .quitting (by decide) fun shuts =>
      absurd (stage ▸ shuts) (by decide)
    exact fun _ member different => (List.mem_erase_of_ne different).mpr member
  | declines there stage =>
    exact served.letGo sound there (.inl stage) .quitting (by decide) (by decide)

end Served

structure Orderly (gates : Gates) : Prop where
  sound : gates.Sound
  filed : gates.Filed
  served : gates.Served none

theorem orderly_empty : Orderly {} where
  sound := sound_empty
  filed := filed_empty
  served := served_empty

namespace Orderly

variable {gates : Gates}

theorem take (orderly : gates.Orderly) (turn : Turn) : (gates.take turn).Orderly := by
  rw [Gates.take]
  cases moved : gates.move turn.visitor turn.move with
  | none => exact orderly
  | some after =>
    have step := step_of_move moved
    exact {
      sound := orderly.sound.step step
      filed := orderly.filed.step step
      served := orderly.served.move orderly.sound orderly.filed moved }

theorem run (orderly : gates.Orderly) (turns : List Turn) : (gates.run turns).Orderly := by
  induction turns generalizing gates with
  | nil => exact orderly
  | cons turn turns ih => exact ih (orderly.take turn)

end Orderly

end Gates

end EventSourcing
