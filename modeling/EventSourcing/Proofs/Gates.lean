import EventSourcing.Store.Gates

/-!
Gates that are sound: a visitor that refers to a gate finds it in the table under its stream, a gate
is shut because of one visitor at most, and those in line are those that wait. So of the visitors of
a stream one at most is inside.
-/

namespace EventSourcing

namespace Keyed

variable {κ α : Type} [DecidableEq κ]

theorem mem_of_find? {table : Keyed κ α} {key : κ} {value : α}
    (found : table.find? key = some value) : (key, value) ∈ table.entries := by
  obtain ⟨entries⟩ := table
  induction entries with
  | nil => cases found
  | cons entry rest ih =>
    obtain ⟨other, here⟩ := entry
    rw [find?, lookup] at found
    split at found
    · rename_i same
      obtain rfl := Option.some.inj found
      rw [same]
      exact List.mem_cons_self
    · exact List.mem_cons_of_mem _ (ih found)

end Keyed

namespace Gates

/-- All that a move can do. -/
inductive Step (gates : Gates) (visitor : Nat) : Move → Gates → Prop where
  | arrives {stream : StreamKey} (absent : gates.visits.find? visitor = none) :
      Step gates visitor (.arrive stream)
        { (gates.lookUp stream).2 with
          visits := (gates.lookUp stream).2.visits.set visitor
            ⟨stream, (gates.lookUp stream).1, .arrived⟩ }
  | queues {visit : Visit} (there : gates.visits.find? visitor = some visit)
      (stage : visit.stage = .arrived) :
      Step gates visitor .ask
        { gates.atStage visitor visit .waiting with line := gates.line ++ [visitor] }
  | goesIn {visit : Visit} (there : gates.visits.find? visitor = some visit)
      (stage : visit.stage = .arrived) (free : gates.isShut visit.gate = false) :
      Step gates visitor .ask (gates.atStage visitor visit .inside)
  | follows {visit : Visit} (there : gates.visits.find? visitor = some visit)
      (stage : visit.stage = .called) :
      Step gates visitor .enter (gates.atStage visitor visit .inside)
  | releases {visit : Visit} (there : gates.visits.find? visitor = some visit)
      (stage : visit.stage = .inside) :
      Step gates visitor .release
        ((gates.atStage visitor visit .released).handOver visit.gate)
  | forgets {visit : Visit} (there : gates.visits.find? visitor = some visit)
      (stage : visit.stage = .released) :
      Step gates visitor .forget (gates.atStage visitor visit .leaving)
  | vanishes {visit : Visit} (there : gates.visits.find? visitor = some visit)
      (stage : visit.stage = .quitting) : Step gates visitor .forget (gates.dismiss visitor)
  | tidies {visit : Visit} (there : gates.visits.find? visitor = some visit)
      (stage : visit.stage = .leaving) :
      Step gates visitor .tidy ((gates.tidyUp visit.stream).dismiss visitor)
  | turnsBack {visit : Visit} (there : gates.visits.find? visitor = some visit)
      (stage : visit.stage = .arrived) :
      Step gates visitor .giveUp (gates.atStage visitor visit .quitting)
  | leavesLine {visit : Visit} (there : gates.visits.find? visitor = some visit)
      (stage : visit.stage = .waiting) :
      Step gates visitor .giveUp
        { gates.atStage visitor visit .quitting with line := gates.line.erase visitor }
  | declines {visit : Visit} (there : gates.visits.find? visitor = some visit)
      (stage : visit.stage = .called) :
      Step gates visitor .giveUp
        ((gates.atStage visitor visit .quitting).handOver visit.gate)

theorem step_of_move {gates after : Gates} {visitor : Nat} {move : Move}
    (moved : gates.move visitor move = some after) : gates.Step visitor move after := by
  unfold Gates.move at moved
  split at moved
  · obtain rfl := Option.some.inj moved
    exact .arrives ‹_›
  · split at moved
    · split at moved
      · obtain rfl := Option.some.inj moved
        exact .queues ‹_› ‹_›
      · obtain rfl := Option.some.inj moved
        exact .goesIn ‹_› ‹_› ((Bool.not_eq_true _).mp ‹_›)
    · cases moved
  · split at moved
    · obtain rfl := Option.some.inj moved
      exact .follows ‹_› ‹_›
    · cases moved
  · split at moved
    · obtain rfl := Option.some.inj moved
      exact .releases ‹_› ‹_›
    · cases moved
  · split at moved
    · obtain rfl := Option.some.inj moved
      exact .forgets ‹_› ‹_›
    · obtain rfl := Option.some.inj moved
      exact .vanishes ‹_› ‹_›
    · cases moved
  · split at moved
    · obtain rfl := Option.some.inj moved
      exact .tidies ‹_› ‹_›
    · cases moved
  · split at moved
    · obtain rfl := Option.some.inj moved
      exact .turnsBack ‹_› ‹_›
    · obtain rfl := Option.some.inj moved
      exact .leavesLine ‹_› ‹_›
    · obtain rfl := Option.some.inj moved
      exact .declines ‹_› ‹_›
    · cases moved
  · cases moved

/-- Whether nobody but perhaps `visitor` keeps a gate shut. -/
def FreeFor (gates : Gates) (visitor gate : Nat) : Prop :=
  ∀ other visit, other ≠ visitor → gates.visits.find? other = some visit → visit.gate = gate →
    ¬visit.stage.ShutsGate

theorem freeFor_of_not_isShut {gates : Gates} {gate : Nat} (free : gates.isShut gate = false)
    (visitor : Nat) : gates.FreeFor visitor gate := by
  intro other visit _ there same shuts
  rw [isShut, List.any_eq_false] at free
  exact free _ (Keyed.mem_of_find? there) (by simpa using ⟨same, shuts⟩)

theorem visits_tidyUp (gates : Gates) (stream : StreamKey) :
    (gates.tidyUp stream).visits = gates.visits := by
  unfold Gates.tidyUp
  split
  · split <;> rfl
  · rfl

theorem visits_lookUp (gates : Gates) (stream : StreamKey) :
    (gates.lookUp stream).2.visits = gates.visits ∧
      (gates.lookUp stream).2.line = gates.line ∧
      (gates.lookUp stream).2.table.find? stream = some (gates.lookUp stream).1 := by
  unfold Gates.lookUp
  split
  · exact ⟨rfl, rfl, ‹_›⟩
  · exact ⟨rfl, rfl, Keyed.find?_set_self _ _ _⟩

structure Sound (gates : Gates) : Prop where
  known : ∀ visitor visit, gates.visits.find? visitor = some visit → visit.stage.RefersToGate →
    gates.table.find? visit.stream = some visit.gate
  single : ∀ visitor visit, gates.visits.find? visitor = some visit → visit.stage.ShutsGate →
    gates.FreeFor visitor visit.gate
  waiting : ∀ visitor ∈ gates.line,
    ∃ visit, gates.visits.find? visitor = some visit ∧ visit.stage = .waiting
  distinct : gates.line.Nodup

theorem sound_empty : Sound {} where
  known _ _ there := nomatch there
  single _ _ there := nomatch there
  waiting _ member := nomatch member
  distinct := List.nodup_nil

/-- What becomes of the visitor that moves. -/
inductive Leads : Option Visit → Move → Option Visit → Prop where
  | arrives {stream : StreamKey} {gate : Nat} :
      Leads none (.arrive stream) (some ⟨stream, gate, .arrived⟩)
  | queues {visit : Visit} (stage : visit.stage = .arrived) :
      Leads (some visit) .ask (some { visit with stage := .waiting })
  | goesIn {visit : Visit} (stage : visit.stage = .arrived) :
      Leads (some visit) .ask (some { visit with stage := .inside })
  | follows {visit : Visit} (stage : visit.stage = .called) :
      Leads (some visit) .enter (some { visit with stage := .inside })
  | releases {visit : Visit} (stage : visit.stage = .inside) :
      Leads (some visit) .release (some { visit with stage := .released })
  | forgets {visit : Visit} (stage : visit.stage = .released) :
      Leads (some visit) .forget (some { visit with stage := .leaving })
  | vanishes {visit : Visit} (stage : visit.stage = .quitting) : Leads (some visit) .forget none
  | tidies {visit : Visit} (stage : visit.stage = .leaving) : Leads (some visit) .tidy none
  | givesUp {visit : Visit}
      (stage : visit.stage = .arrived ∨ visit.stage = .waiting ∨ visit.stage = .called) :
      Leads (some visit) .giveUp (some { visit with stage := .quitting })

/-- A visitor stays at the stream at which it has arrived. -/
theorem Leads.stream_eq {visit? later? : Option Visit} {move : Move}
    (leads : Leads visit? move later?) {stream : StreamKey}
    (here : ∀ visit, visit? = some visit → visit.stream = stream)
    (there : ∀ other, move = .arrive other → other = stream) :
    ∀ visit, later? = some visit → visit.stream = stream := by
  cases leads with
  | arrives =>
    rintro _ ⟨⟩
    exact there _ rfl
  | vanishes stage | tidies stage => exact nofun
  | queues stage | goesIn stage | follows stage | releases stage | forgets stage | givesUp stage =>
    have same := here _ rfl
    rintro _ ⟨⟩
    exact same

/-- What a move of somebody else can do to a visitor: hand it the gate that it waits for. -/
inductive Drifts : Option Visit → Option Visit → Prop where
  | rests {visit? : Option Visit} : Drifts visit? visit?
  | called {visit : Visit} (stage : visit.stage = .waiting) :
      Drifts (some visit) (some { visit with stage := .called })

theorem Drifts.eq_of_ne {visit : Visit} {visit? : Option Visit}
    (drifts : Drifts (some visit) visit?) (stage : visit.stage ≠ .waiting) :
    visit? = some visit := by
  cases drifts with
  | rests => rfl
  | called waiting => exact absurd waiting stage

theorem Drifts.eq_none {visit? : Option Visit} (drifts : Drifts none visit?) : visit? = none := by
  cases drifts with
  | rests => rfl

namespace Sound

variable {gates : Gates} {visitor : Nat} {visit : Visit}

/-- A visit may come or change if its gate is in the table, and free if it shuts the gate. -/
theorem put (sound : gates.Sound) {line : List Nat} (visit : Visit)
    (known : visit.stage.RefersToGate → gates.table.find? visit.stream = some visit.gate)
    (free : visit.stage.ShutsGate → gates.FreeFor visitor visit.gate)
    (waiting : ∀ other ∈ line, other = visitor ∧ visit.stage = .waiting ∨
      other ≠ visitor ∧ other ∈ gates.line) (distinct : line.Nodup) :
    Sound { gates with visits := gates.visits.set visitor visit, line := line } := by
  refine { known := ?known, single := ?single, waiting := ?waiting, distinct := distinct }
  case known =>
    intro other there found refers
    dsimp only at found ⊢
    rw [Keyed.find?_set] at found
    split at found
    · obtain rfl := Option.some.inj found
      exact known refers
    · exact sound.known other there found refers
  case single =>
    intro first there found shuts second other different elsewhere same
    dsimp only at found elsewhere
    rw [Keyed.find?_set] at found elsewhere
    split at found <;> split at elsewhere
    · rename_i here also
      exact absurd (also.trans here.symm) different
    · obtain rfl := Option.some.inj found
      exact free shuts second other ‹_› elsewhere same
    · obtain rfl := Option.some.inj elsewhere
      intro too
      exact free too first there ‹_› found same.symm shuts
    · exact sound.single first there found shuts second other different elsewhere same
  case waiting =>
    intro other member
    rcases waiting other member with ⟨rfl, stage⟩ | ⟨different, member⟩
    · exact ⟨visit, Keyed.find?_set_self _ _ _, stage⟩
    · obtain ⟨there, found, stage⟩ := sound.waiting other member
      exact ⟨there, (Keyed.find?_set_of_ne _ different _).trans found, stage⟩

/-- Whoever does not wait is not in line. -/
theorem not_mem_line (sound : gates.Sound) (there : gates.visits.find? visitor = some visit)
    (stage : visit.stage ≠ .waiting) : visitor ∉ gates.line := by
  intro member
  obtain ⟨other, found, waits⟩ := sound.waiting visitor member
  obtain rfl := Option.some.inj (there.symm.trans found)
  exact stage waits

/-- A visitor that does not wait goes on to another stage. -/
theorem atStage (sound : gates.Sound) (there : gates.visits.find? visitor = some visit)
    (stage : visit.stage ≠ .waiting) (refers : visit.stage.RefersToGate) (next : Stage)
    (free : next.ShutsGate → gates.FreeFor visitor visit.gate) :
    (gates.atStage visitor visit next).Sound := by
  refine sound.put _ (fun _ => sound.known visitor visit there refers) free ?_ sound.distinct
  intro other member
  refine .inr ⟨?_, member⟩
  rintro rfl
  exact sound.not_mem_line there stage member

/-- Whoever is first in line for a gate waits for it. -/
theorem of_first (sound : gates.Sound) {gate : Nat}
    (first : gates.line.find? (gates.waitsAt gate) = some visitor) :
    ∃ visit, gates.visits.find? visitor = some visit ∧ visit.stage = .waiting ∧
      visit.gate = gate ∧ visitor ∈ gates.line := by
  have member := List.mem_of_find?_eq_some first
  obtain ⟨visit, there, stage⟩ := sound.waiting visitor member
  have waits := List.find?_some first
  rw [waitsAt, there] at waits
  exact ⟨visit, there, stage, by simpa using waits, member⟩

/-- A gate goes to nobody, or to one who waits for it. -/
theorem handOver_cases (sound : gates.Sound) (gate : Nat) :
    gates.handOver gate = gates ∨
      ∃ visitor visit, gates.visits.find? visitor = some visit ∧ visit.stage = .waiting ∧
        visit.gate = gate ∧ gates.handOver gate =
          { gates.atStage visitor visit .called with line := gates.line.erase visitor } := by
  unfold Gates.handOver
  split
  · exact .inl rfl
  · rename_i visitor first
    obtain ⟨visit, there, stage, same, -⟩ := sound.of_first first
    refine .inr ⟨visitor, visit, there, stage, same, ?_⟩
    rw [there]

/-- Somebody who waits leaves the line and goes on to another stage. -/
theorem leaveLine (sound : gates.Sound) (there : gates.visits.find? visitor = some visit)
    (stage : visit.stage = .waiting) (next : Stage)
    (free : next.ShutsGate → gates.FreeFor visitor visit.gate) :
    Sound { gates.atStage visitor visit next with line := gates.line.erase visitor } := by
  have refers : visit.stage.RefersToGate := by rw [stage]; decide
  refine sound.put _ (fun _ => sound.known visitor visit there refers) free ?_
    (sound.distinct.erase visitor)
  intro other member
  obtain ⟨different, member⟩ := (List.Nodup.mem_erase_iff sound.distinct).mp member
  exact .inr ⟨different, member⟩

theorem handOver (sound : gates.Sound) {gate : Nat}
    (free : ∀ visitor, gates.FreeFor visitor gate) : (gates.handOver gate).Sound := by
  rcases sound.handOver_cases gate with same | ⟨visitor, visit, there, stage, rfl, same⟩
  · rw [same]
    exact sound
  · rw [same]
    exact sound.leaveLine there stage .called fun _ => free visitor

/-- Whoever keeps a gate shut lets it go. -/
theorem letGo (sound : gates.Sound) (there : gates.visits.find? visitor = some visit)
    (shuts : visit.stage.ShutsGate) (next : Stage) (opens : ¬next.ShutsGate) :
    (gates.atStage visitor visit next).Sound ∧
      ((gates.atStage visitor visit next).handOver visit.gate).Sound := by
  have stage : visit.stage ≠ .waiting ∧ visit.stage.RefersToGate := by
    rcases shuts with same | same <;> rw [same] <;> decide
  have after := sound.atStage there stage.1 stage.2 next fun shuts => absurd shuts opens
  refine ⟨after, after.handOver ?_⟩
  intro first other task _ found same
  rw [Gates.atStage, Keyed.find?_set] at found
  split at found
  · obtain rfl := Option.some.inj found
    exact opens
  · exact sound.single visitor visit there shuts other task ‹_› found same

theorem dismiss (sound : gates.Sound) (there : gates.visits.find? visitor = some visit)
    (stage : visit.stage ≠ .waiting) : (gates.dismiss visitor).Sound := by
  have kept {other : Nat} {task : Visit}
      (found : (gates.dismiss visitor).visits.find? other = some task) :
      gates.visits.find? other = some task := by
    rw [Gates.dismiss, Keyed.find?_erase] at found
    split at found
    · cases found
    · exact found
  refine { known := ?known, single := ?single, waiting := ?waiting, distinct := sound.distinct }
  case known => exact fun other task found => sound.known other task (kept found)
  case single =>
    intro first task found shuts second other different elsewhere
    exact sound.single first task (kept found) shuts second other different (kept elsewhere)
  case waiting =>
    intro other member
    obtain ⟨task, found, waits⟩ := sound.waiting other member
    refine ⟨task, ?_, waits⟩
    rw [Gates.dismiss, Keyed.find?_erase, if_neg]
    · exact found
    · rintro rfl
      exact sound.not_mem_line there stage member

/-- If one reference to a gate is left, it is that of the table. -/
theorem not_refers_of_references (sound : gates.Sound) {stream : StreamKey} {gate : Nat}
    (kept : gates.table.find? stream = some gate) (one : gates.references gate = 1)
    (there : gates.visits.find? visitor = some visit) (onto : visit.stream = stream) :
    ¬visit.stage.RefersToGate := by
  intro refers
  have same : visit.gate = gate := by
    have found := sound.known visitor visit there refers
    rw [onto, kept] at found
    exact (Option.some.inj found).symm
  -- The entry of the table and the visitor would be two references.
  have table : 0 < (gates.table.entries.filter fun entry => entry.2 = gate).length :=
    List.length_pos_of_mem
      (List.mem_filter.mpr ⟨Keyed.mem_of_find? kept, decide_eq_true rfl⟩)
  have visits : 0 < (gates.visits.entries.filter fun entry =>
      entry.2.gate = gate ∧ entry.2.stage.RefersToGate).length :=
    List.length_pos_of_mem
      (List.mem_filter.mpr ⟨Keyed.mem_of_find? there, decide_eq_true ⟨same, refers⟩⟩)
  rw [references] at one
  omega

theorem tidyUp (sound : gates.Sound) (stream : StreamKey) : (gates.tidyUp stream).Sound := by
  unfold Gates.tidyUp
  split
  · rename_i gate kept
    split
    · rename_i one
      refine { sound with known := ?_ }
      intro other task there refers
      dsimp only
      rw [Keyed.find?_erase, if_neg]
      · exact sound.known other task there refers
      · intro onto
        exact sound.not_refers_of_references kept one there onto refers
    · exact sound
  · exact sound

theorem lookUp (sound : gates.Sound) (stream : StreamKey) : (gates.lookUp stream).2.Sound := by
  unfold Gates.lookUp
  split
  · exact sound
  · rename_i unknown
    refine { sound with known := ?_ }
    intro other task there refers
    have found := sound.known other task there refers
    have different : task.stream ≠ stream := by
      rintro rfl
      rw [unknown] at found
      cases found
    exact (Keyed.find?_set_of_ne _ different _).trans found

/-- The step that keeps gates sound. -/
theorem step (sound : gates.Sound) {move : Move} {after : Gates}
    (step : gates.Step visitor move after) : after.Sound := by
  cases step with
  | @arrives stream absent =>
    obtain ⟨visits, line, kept⟩ := visits_lookUp gates stream
    have later := sound.lookUp stream
    refine later.put _ (fun _ => kept) ?_ ?_ later.distinct
    · intro shuts
      exact absurd (show Stage.ShutsGate .arrived from shuts) (by decide)
    · intro other member
      refine .inr ⟨?_, member⟩
      rintro rfl
      obtain ⟨task, found, -⟩ := later.waiting other member
      rw [visits, absent] at found
      cases found
  | @queues visit there stage =>
    have refers : visit.stage.RefersToGate := by rw [stage]; decide
    have outside := sound.not_mem_line there (by rw [stage]; decide)
    refine sound.put _ (fun _ => sound.known visitor visit there refers) ?_ ?_ ?_
    · intro shuts
      exact absurd (show Stage.ShutsGate .waiting from shuts) (by decide)
    · intro other member
      rcases List.mem_append.mp member with member | last
      · refine .inr ⟨fun same => outside (same ▸ member), member⟩
      · exact .inl ⟨List.mem_singleton.mp last, rfl⟩
    · refine List.nodup_append.mpr ⟨sound.distinct, by simp, ?_⟩
      rintro other member _ last rfl
      exact outside (List.mem_singleton.mp last ▸ member)
  | goesIn there stage free =>
    exact sound.atStage there (by rw [stage]; decide) (by rw [stage]; decide) .inside
      fun _ => freeFor_of_not_isShut free visitor
  | follows there stage =>
    exact sound.atStage there (by rw [stage]; decide) (by rw [stage]; decide) .inside
      fun _ => sound.single visitor _ there (.inl stage)
  | releases there stage =>
    exact (sound.letGo there (.inr stage) .released (by decide)).2
  | forgets there stage =>
    exact sound.atStage there (by rw [stage]; decide) (by rw [stage]; decide) .leaving
      fun shuts => absurd shuts (by decide)
  | vanishes there stage => exact sound.dismiss there (by rw [stage]; decide)
  | @tidies visit there stage =>
    rw [← visits_tidyUp gates visit.stream] at there
    exact (sound.tidyUp visit.stream).dismiss there (by rw [stage]; decide)
  | turnsBack there stage =>
    exact sound.atStage there (by rw [stage]; decide) (by rw [stage]; decide) .quitting
      fun shuts => absurd shuts (by decide)
  | leavesLine there stage =>
    exact sound.leaveLine there stage .quitting fun shuts => absurd shuts (by decide)
  | declines there stage =>
    exact (sound.letGo there (.inl stage) .quitting (by decide)).2

theorem drifts_handOver (sound : gates.Sound) (gate other : Nat) :
    Drifts (gates.visits.find? other) ((gates.handOver gate).visits.find? other) := by
  rcases sound.handOver_cases gate with same | ⟨visitor, visit, there, stage, -, same⟩
  · rw [same]
    exact .rests
  · rw [same, Gates.atStage, Keyed.find?_set]
    split
    · rename_i here
      rw [here, there]
      exact .called stage
    · exact .rests

theorem find?_handOver (sound : gates.Sound) (gate : Nat)
    (there : gates.visits.find? visitor = some visit) (stage : visit.stage ≠ .waiting) :
    (gates.handOver gate).visits.find? visitor = some visit :=
  (there ▸ sound.drifts_handOver gate visitor).eq_of_ne stage

theorem leads (sound : gates.Sound) {move : Move} {after : Gates}
    (step : gates.Step visitor move after) :
    Leads (gates.visits.find? visitor) move (after.visits.find? visitor) := by
  have here (visit : Visit) (stage : Stage) :
      (gates.atStage visitor visit stage).visits.find? visitor =
        some { visit with stage := stage } :=
    Keyed.find?_set_self _ _ _
  have gone (gates : Gates) : (gates.dismiss visitor).visits.find? visitor = none := by
    rw [Gates.dismiss, Keyed.find?_erase, if_pos rfl]
  cases step with
  | @arrives stream absent =>
    rw [absent, Keyed.find?_set_self]
    exact .arrives
  | @queues visit there stage =>
    rw [there, here]
    exact .queues stage
  | @goesIn visit there stage free =>
    rw [there, here]
    exact .goesIn stage
  | @follows visit there stage =>
    rw [there, here]
    exact .follows stage
  | @releases visit there stage =>
    have after := (sound.letGo there (.inr stage) .released (by decide)).1
    rw [after.find?_handOver visit.gate (here visit .released) nofun, there]
    exact .releases stage
  | @forgets visit there stage =>
    rw [there, here]
    exact .forgets stage
  | @vanishes visit there stage =>
    rw [there, gone]
    exact .vanishes stage
  | @tidies visit there stage =>
    rw [there, gone]
    exact .tidies stage
  | @turnsBack visit there stage =>
    rw [there, here]
    exact .givesUp (.inl stage)
  | @leavesLine visit there stage =>
    rw [there, here]
    exact .givesUp (.inr (.inl stage))
  | @declines visit there stage =>
    have after := (sound.letGo there (.inl stage) .quitting (by decide)).1
    rw [after.find?_handOver visit.gate (here visit .quitting) nofun, there]
    exact .givesUp (.inr (.inr stage))

theorem drifts (sound : gates.Sound) {move : Move} {after : Gates}
    (step : gates.Step visitor move after) {other : Nat} (different : other ≠ visitor) :
    Drifts (gates.visits.find? other) (after.visits.find? other) := by
  have elsewhere (visit : Visit) (stage : Stage) :
      (gates.atStage visitor visit stage).visits.find? other = gates.visits.find? other :=
    Keyed.find?_set_of_ne _ different _
  have stays (gates : Gates) :
      (gates.dismiss visitor).visits.find? other = gates.visits.find? other := by
    rw [Gates.dismiss, Keyed.find?_erase, if_neg different]
  cases step with
  | @arrives stream absent =>
    rw [Keyed.find?_set_of_ne _ different, (visits_lookUp gates stream).1]
    exact .rests
  | @releases visit there stage =>
    rw [← elsewhere visit .released]
    exact (sound.letGo there (.inr stage) .released (by decide)).1.drifts_handOver _ other
  | @declines visit there stage =>
    rw [← elsewhere visit .quitting]
    exact (sound.letGo there (.inl stage) .quitting (by decide)).1.drifts_handOver _ other
  | vanishes there stage =>
    rw [stays]
    exact .rests
  | tidies there stage =>
    rw [stays, visits_tidyUp]
    exact .rests
  | _ =>
    rw [elsewhere]
    exact .rests

/-- Of the visitors of one stream, one at most is inside or about to go in. -/
theorem alone (sound : gates.Sound) {first second : Nat} {one another : Visit}
    (there : gates.visits.find? first = some one) (shuts : one.stage.ShutsGate)
    (elsewhere : gates.visits.find? second = some another) (too : another.stage.ShutsGate)
    (same : one.stream = another.stream) : first = second := by
  have refers {visit : Visit} (shuts : visit.stage.ShutsGate) : visit.stage.RefersToGate := by
    rcases shuts with stage | stage <;> rw [stage] <;> decide
  have found := sound.known first one there (refers shuts)
  rw [same, sound.known second another elsewhere (refers too)] at found
  apply Classical.byContradiction
  intro different
  exact sound.single first one there shuts second another (Ne.symm different) elsewhere
    (Option.some.inj found) too

end Sound

end Gates

end EventSourcing
