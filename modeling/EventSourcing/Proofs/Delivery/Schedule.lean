import EventSourcing.Proofs.Delivery.Dispatch
import EventSourcing.Proofs.Delivery.Instant

/-!
The consumers of a dispatcher under one clock. They take their steps in any order, and the clock
goes on when nobody has anything to do. Whatever the others do, what becomes of a consumer is what
becomes of it alone; and to let each of them go on by itself is one of the orders.
-/

namespace EventSourcing.Dispatcher

open Relation

/-- The consumer at a place takes a step. -/
inductive StepsAt (place : Nat) (dispatcher : Dispatcher) : Dispatcher → Prop where
  | steps {consumer next : Consumer} (found : dispatcher.consumers[place]? = some consumer)
      (taken : consumer.step? = some next) :
      StepsAt place dispatcher { dispatcher with consumers := dispatcher.consumers.set place next }

/-- The clock goes on to a time before which nobody has anything to do. -/
inductive Passes (time : Nat) (dispatcher : Dispatcher) : Dispatcher → Prop where
  | passes (waits : ∀ consumer ∈ dispatcher.consumers, consumer.Waits time)
      (onward : ∀ consumer ∈ dispatcher.consumers, consumer.now < time) :
      Passes time dispatcher
        { dispatcher with
          consumers := dispatcher.consumers.map fun consumer => { consumer with now := time } }

/-- What can happen under one clock. -/
def Tick (before after : Dispatcher) : Prop :=
  (∃ place, StepsAt place before after) ∨ ∃ time, Passes time before after

/-- Some consumers take steps. -/
def Turns : Dispatcher → Dispatcher → Prop :=
  ReflTransGen fun before after => ∃ place, StepsAt place before after

/-- Some consumers take steps, but not the one at a place. -/
def Spares (place : Nat) : Dispatcher → Dispatcher → Prop :=
  ReflTransGen fun before after => ∃ other, other ≠ place ∧ StepsAt other before after

/-- The clock comes to a time, unless that is past, and the consumer at a place has not taken a step
since. The others may have. -/
inductive Attains (place time : Nat) (dispatcher : Dispatcher) : Dispatcher → Prop where
  | past {last : Dispatcher} (past : ∀ consumer ∈ dispatcher.consumers, time ≤ consumer.now)
      (spares : Spares place dispatcher last) : Attains place time dispatcher last
  | later {before there last : Dispatcher} (ticks : ReflTransGen Tick dispatcher before)
      (passes : Passes time before there) (spares : Spares place there last) :
      Attains place time dispatcher last

/-- The consumer at a place does all that it can do now, and others do something. -/
structure Rests (place : Nat) (dispatcher last : Dispatcher) : Prop where
  turns : Turns dispatcher last
  quiet : ∀ consumer : Consumer, last.consumers[place]? = some consumer → consumer.step? = none

/-- What nobody changes by going on. -/
def frame (dispatcher : Dispatcher) : Bool × List Nat × List String :=
  (dispatcher.stopping, dispatcher.unclaimed, dispatcher.names)

variable {dispatcher last : Dispatcher} {place other time : Nat} {consumer : Consumer}

theorem StepsAt.frame_eq (step : StepsAt place dispatcher last) :
    last.frame = dispatcher.frame := by
  cases step with
  | @steps consumer next found taken =>
    obtain ⟨inside, same⟩ := List.getElem?_eq_some_iff.mp found
    have name := congrArg Subscription.name (Consumer.step_of_step? taken).keeps.subscription
    simp only [frame, names, List.map_set, name, ← same]
    rw [← List.getElem_map (fun consumer : Consumer => consumer.subscription.name),
      List.set_getElem_self]
    rwa [List.length_map]

theorem Passes.frame_eq (passes : Passes time dispatcher last) :
    last.frame = dispatcher.frame := by
  cases passes with
  | passes waits onward => simp only [frame, names, List.map_map, Function.comp_def]

theorem frame_eq_of_many {step : Dispatcher → Dispatcher → Prop}
    (one : ∀ {before after}, step before after → after.frame = before.frame)
    (many : ReflTransGen step dispatcher last) : last.frame = dispatcher.frame := by
  induction many with
  | refl => rfl
  | tail steps step ih => exact (one step).trans ih

theorem Tick.frame_eq (tick : Tick dispatcher last) : last.frame = dispatcher.frame := by
  rcases tick with ⟨_, step⟩ | ⟨_, passes⟩
  · exact step.frame_eq
  · exact passes.frame_eq

theorem Turns.frame_eq (turns : Turns dispatcher last) : last.frame = dispatcher.frame :=
  frame_eq_of_many (fun ⟨_, step⟩ => step.frame_eq) turns

theorem Spares.frame_eq (spares : Spares place dispatcher last) :
    last.frame = dispatcher.frame :=
  frame_eq_of_many (fun ⟨_, _, step⟩ => step.frame_eq) spares

theorem Attains.frame_eq (attains : Attains place time dispatcher last) :
    last.frame = dispatcher.frame := by
  cases attains with
  | past past spares => exact spares.frame_eq
  | later ticks passes spares =>
    exact spares.frame_eq.trans (passes.frame_eq.trans (frame_eq_of_many Tick.frame_eq ticks))

/-- A step belongs to the consumer at a place, or leaves it as it is. -/
theorem StepsAt.at_place (step : StepsAt other dispatcher last)
    (found : dispatcher.consumers[place]? = some consumer) :
    last.consumers[place]? = some consumer ∨
      ∃ next, consumer.step? = some next ∧ last.consumers[place]? = some next := by
  cases step with
  | @steps served next there taken =>
    by_cases here : other = place
    · subst here
      obtain rfl := Option.some.inj (there.symm.trans found)
      exact .inr ⟨next, taken, List.getElem?_set_self (List.getElem?_eq_some_iff.mp found).1⟩
    · exact .inl ((List.getElem?_set_ne here).trans found)

theorem Passes.at_place (passes : Passes time dispatcher last)
    (found : dispatcher.consumers[place]? = some consumer) :
    consumer.Waits time ∧ consumer.now < time ∧
      last.consumers[place]? = some { consumer with now := time } := by
  cases passes with
  | passes waits onward =>
    have member := List.mem_of_getElem? found
    refine ⟨waits consumer member, onward consumer member, ?_⟩
    rw [List.getElem?_map, found, Option.map_some]

/-- What the consumer at a place does while the dispatcher goes on. -/
theorem exists_of_many {step : Dispatcher → Dispatcher → Prop} {own : Consumer → Consumer → Prop}
    (one : ∀ {before after consumer}, step before after →
      before.consumers[place]? = some consumer →
        ∃ next, after.consumers[place]? = some next ∧ ReflTransGen own consumer next)
    (many : ReflTransGen step dispatcher last)
    (found : dispatcher.consumers[place]? = some consumer) :
    ∃ ended, last.consumers[place]? = some ended ∧ ReflTransGen own consumer ended := by
  induction many with
  | refl => exact ⟨consumer, found, .refl⟩
  | tail steps step ih =>
    obtain ⟨middle, reached, before⟩ := ih
    obtain ⟨next, there, after⟩ := one step reached
    exact ⟨next, there, before.trans after⟩

theorem exists_of_ticks (ticks : ReflTransGen Tick dispatcher last)
    (found : dispatcher.consumers[place]? = some consumer) :
    ∃ ended, last.consumers[place]? = some ended ∧ ReflTransGen Consumer.Tick consumer ended := by
  refine exists_of_many ?_ ticks found
  intro before after consumer tick found
  rcases tick with ⟨other, step⟩ | ⟨time, passes⟩
  · rcases step.at_place found with same | ⟨next, taken, there⟩
    · exact ⟨consumer, same, .refl⟩
    · exact ⟨next, there, .single (.steps taken)⟩
  · obtain ⟨waits, onward, there⟩ := passes.at_place found
    exact ⟨_, there, .single (.passes waits onward)⟩

theorem Spares.at_place (spares : Spares place dispatcher last)
    (found : dispatcher.consumers[place]? = some consumer) :
    last.consumers[place]? = some consumer := by
  induction spares with
  | refl => exact found
  | tail steps step ih =>
    obtain ⟨other, elsewhere, step⟩ := step
    cases step with
    | steps there taken => exact (List.getElem?_set_ne elsewhere).trans ih

/-- Whatever the others do, a consumer comes to a time as it would alone. -/
theorem Attains.at_place (attains : Attains place time dispatcher last)
    (found : dispatcher.consumers[place]? = some consumer) :
    ∃ ended, last.consumers[place]? = some ended ∧ consumer.Attains time ended := by
  cases attains with
  | past past spares =>
    exact ⟨consumer, spares.at_place found, .past (past consumer (List.mem_of_getElem? found))⟩
  | later ticks passes spares =>
    obtain ⟨middle, reached, own⟩ := exists_of_ticks ticks found
    obtain ⟨waits, onward, there⟩ := passes.at_place reached
    exact ⟨_, spares.at_place there, .of_ticks own waits onward⟩

theorem Rests.at_place (rests : Rests place dispatcher last)
    (found : dispatcher.consumers[place]? = some consumer) :
    ∃ ended, last.consumers[place]? = some ended ∧ consumer.Settles ended := by
  obtain ⟨ended, reached, steps⟩ : ∃ ended, last.consumers[place]? = some ended ∧
      ReflTransGen (fun first second => first.step? = some second) consumer ended := by
    refine exists_of_many ?_ rests.turns found
    rintro before after consumer ⟨other, step⟩ found
    rcases step.at_place found with same | ⟨next, taken, there⟩
    · exact ⟨consumer, same, .refl⟩
    · exact ⟨next, there, .single taken⟩
  exact ⟨ended, reached, .of_steps steps (rests.quiet ended reached)⟩

/-! Each consumer by itself. -/

/-- Whether all consumers have come to the same time, and none of them goes on without a pause. -/
def InStep (dispatcher : Dispatcher) (now : Nat) : Prop :=
  ∀ consumer ∈ dispatcher.consumers, consumer.now = now ∧ consumer.Unhurried

variable {now : Nat}

def settle (dispatcher : Dispatcher) : Dispatcher :=
  { dispatcher with consumers := dispatcher.consumers.map Consumer.settle }

theorem Turns.settles {consumer ended : Consumer} (settles : consumer.Settles ended)
    (before after : List Consumer) :
    Turns { dispatcher with consumers := before ++ consumer :: after }
      { dispatcher with consumers := before ++ ended :: after } := by
  induction settles with
  | rests quiet => exact .refl
  | @steps consumer next ended taken onwards ih =>
    refine .head ⟨before.length, ?_⟩ ih
    have found : (before ++ consumer :: after)[before.length]? = some consumer := by simp
    have served : before ++ next :: after =
        (before ++ consumer :: after).set before.length next := by simp
    rw [served]
    exact .steps found taken

/-- One consumer after the other comes to rest. -/
theorem turns_settle (inStep : dispatcher.InStep now) : Turns dispatcher dispatcher.settle := by
  have onwards (later earlier : List Consumer)
      (unhurried : ∀ consumer ∈ later, consumer.Unhurried) :
      Turns { dispatcher with consumers := earlier ++ later }
        { dispatcher with consumers := earlier ++ later.map Consumer.settle } := by
    induction later generalizing earlier with
    | nil => exact .refl
    | cons consumer rest ih =>
      have settles := (unhurried consumer List.mem_cons_self).settles
      have others := ih (earlier ++ [consumer.settle])
        fun other member => unhurried other (List.mem_cons_of_mem _ member)
      rw [List.append_assoc, List.append_assoc] at others
      exact (Turns.settles settles earlier rest).trans others
  exact onwards dispatcher.consumers [] fun consumer member => (inStep consumer member).2

theorem InStep.settle (inStep : dispatcher.InStep now) :
    dispatcher.settle.InStep now ∧ ∀ consumer ∈ dispatcher.settle.consumers,
      consumer.step? = none := by
  have settled {consumer : Consumer} (member : consumer ∈ dispatcher.settle.consumers) :
      ∃ past ∈ dispatcher.consumers, past.Settles consumer ∧ consumer.Unhurried := by
    obtain ⟨past, before, rfl⟩ := List.mem_map.mp member
    have unhurried := (inStep past before).2
    exact ⟨past, before, unhurried.settles, unhurried.becomes past.becomes_settle⟩
  refine ⟨fun consumer member => ?_, fun consumer member => ?_⟩
  · obtain ⟨past, before, settles, unhurried⟩ := settled member
    exact ⟨settles.now_eq.trans (inStep past before).1, unhurried⟩
  · obtain ⟨past, before, settles, -⟩ := settled member
    exact settles.quiet

theorem Turns.ticks (turns : Turns dispatcher last) : ReflTransGen Tick dispatcher last :=
  ReflTransGen.mono (fun _ _ served => .inl served) _ _ turns

/-- Nobody waits for a time before the earliest. -/
theorem wake?_le {due later : Nat} (earliest : dispatcher.wake? = some due)
    (member : consumer ∈ dispatcher.consumers) (waits : consumer.wake? = some later) :
    due ≤ later :=
  (List.min?_eq_some_iff.mp earliest).2 later (List.mem_filterMap.mpr ⟨consumer, member, waits⟩)

/-- There is an order in which the clock comes to a time. -/
theorem InStep.exists_ticks (inStep : dispatcher.InStep now) (ahead : now < time) :
    ∃ before there, ReflTransGen Tick dispatcher before ∧ Passes time before there := by
  induction left : time - now using Nat.strongRecOn generalizing dispatcher now with
  | ind left ih =>
    obtain ⟨together, quiet⟩ := inStep.settle
    have turns := (turns_settle inStep).ticks
    have passes {due : Nat} (later : now < due) (first : ∀ consumer ∈ dispatcher.settle.consumers,
        ∀ other, consumer.wake? = some other → due ≤ other) :
        ∃ there, Passes due dispatcher.settle there ∧ there.InStep due := by
      refine ⟨_, .passes (fun consumer member => ⟨quiet consumer member, first consumer member⟩)
        fun consumer member => (together consumer member).1 ▸ later, ?_⟩
      intro consumer member
      obtain ⟨past, before, rfl⟩ := List.mem_map.mp member
      exact ⟨rfl, (together past before).2.becomes (.clock past due)⟩
    cases earliest : dispatcher.settle.wake? with
    | none =>
      obtain ⟨there, passes, -⟩ := passes ahead fun consumer member other waits => by
        have nobody := List.min?_eq_none_iff.mp earliest
        exact absurd (List.mem_filterMap.mpr ⟨consumer, member, waits⟩) (nobody ▸ List.not_mem_nil)
      exact ⟨_, there, turns, passes⟩
    | some due =>
      by_cases before : due < time
      · have later : now < due := by
          obtain ⟨consumer, member, waits⟩ :=
            List.mem_filterMap.mp (List.min?_eq_some_iff.mp earliest).1
          exact (together consumer member).1 ▸ Consumer.lt_of_wake? (quiet consumer member) waits
        obtain ⟨there, passes, next⟩ := passes later fun consumer member other waits =>
          wake?_le earliest member waits
        obtain ⟨last, ended, ticks, finish⟩ := ih (time - due) (by omega) next before rfl
        exact ⟨last, ended, turns.trans (.head (.inr ⟨due, passes⟩) ticks), finish⟩
      · obtain ⟨there, passes, -⟩ := passes ahead fun consumer member other waits =>
          Nat.le_trans (Nat.le_of_not_lt before) (wake?_le earliest member waits)
        exact ⟨_, there, turns, passes⟩

/-- Each place has a consumer before if it has one after. -/
theorem length_eq_of_frame (same : last.frame = dispatcher.frame) :
    last.consumers.length = dispatcher.consumers.length := by
  have names := congrArg (fun frame => frame.2.2.length) same
  simpa only [frame, Dispatcher.names, List.length_map] using names

/-- If each consumer goes on by itself, it is as if they had gone on under one clock. -/
theorem InStep.attains_reach (inStep : dispatcher.InStep now) (place time : Nat) :
    Attains place time dispatcher (dispatcher.reach time) := by
  by_cases past : time ≤ now
  · have still : dispatcher.reach time = dispatcher := by
      have same : dispatcher.consumers.map (·.reach time) = dispatcher.consumers := by
        refine (List.map_congr_left fun consumer member => ?_).trans (List.map_id _)
        exact if_pos ((inStep consumer member).1 ▸ past)
      rw [reach, same]
    rw [still]
    exact .past (fun consumer member => (inStep consumer member).1 ▸ past) .refl
  · obtain ⟨before, there, ticks, passes⟩ := inStep.exists_ticks (Nat.lt_of_not_le past)
    have attains (place : Nat) : Attains place time dispatcher there := .later ticks passes .refl
    have frame := (attains place).frame_eq
    have same : there.consumers = dispatcher.consumers.map (·.reach time) := by
      refine List.ext_getElem? fun place => ?_
      rw [List.getElem?_map]
      cases found : dispatcher.consumers[place]? with
      | none =>
        rw [List.getElem?_eq_none_iff] at found
        rw [Option.map_none, List.getElem?_eq_none_iff, length_eq_of_frame frame]
        exact found
      | some consumer =>
        obtain ⟨ended, reached, own⟩ := (attains place).at_place found
        have unhurried := (inStep consumer (List.mem_of_getElem? found)).2
        rw [reached, own.unique (unhurried.attains_reach time), Option.map_some]
    have whole : there = dispatcher.reach time := by
      obtain ⟨consumers, stopping, unclaimed⟩ := there
      simp only [Dispatcher.frame, Prod.mk.injEq] at frame
      simp only [reach, mk.injEq]
      exact ⟨same, frame.1, frame.2.1⟩
    exact whole ▸ attains place

theorem InStep.reach (inStep : dispatcher.InStep now) (time : Nat) :
    (dispatcher.reach time).InStep (max now time) := by
  intro consumer member
  obtain ⟨past, before, rfl⟩ := List.mem_map.mp member
  obtain ⟨same, unhurried⟩ := inStep past before
  exact ⟨same ▸ (unhurried.attains_reach time).now_eq, unhurried.becomes (past.becomes_reach time)⟩

theorem InStep.advance_eq (inStep : dispatcher.InStep now) (time : Nat) :
    dispatcher.advance time = (dispatcher.reach time).settle := by
  have same : dispatcher.consumers.map (·.advance time) =
      dispatcher.consumers.map fun consumer => (consumer.reach time).settle :=
    List.map_congr_left fun consumer member => (inStep consumer member).2.advance_eq time
  rw [advance, same, Dispatcher.settle, Dispatcher.reach, List.map_map]
  rfl

theorem InStep.rests_settle (inStep : dispatcher.InStep now) (place : Nat) :
    Rests place dispatcher dispatcher.settle where
  turns := turns_settle inStep
  quiet consumer found := inStep.settle.2 consumer (List.mem_of_getElem? found)

end EventSourcing.Dispatcher
