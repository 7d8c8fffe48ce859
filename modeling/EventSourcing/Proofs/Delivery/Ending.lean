import EventSourcing.Proofs.Delivery.Course

/-!
A consumer after the stop signal. It takes no group and tries no stage again; what it still calls
are handlers that are left of the group it is at, each of them once, and the first that fails is the
last.
-/

namespace EventSourcing

namespace Subscription

theorem nodup_slotsOn (subscription : Subscription) (trigger : Trigger) :
    (subscription.slotsOn trigger).Nodup :=
  List.nodup_range.filter _

/-- No handler receives a stage twice. -/
theorem nodup_recipients (subscription : Subscription) (stage : Stage) :
    (subscription.recipients stage).Nodup := by
  cases stage with
  | batch group => exact subscription.nodup_slotsOn .batch
  | single event =>
    refine List.nodup_append.mpr ⟨subscription.nodup_slotsOn _, subscription.nodup_slotsOn _, ?_⟩
    rintro slot any other typed rfl
    obtain ⟨first, found⟩ := exists_of_mem_slotsOn any
    obtain ⟨second, again⟩ := exists_of_mem_slotsOn typed
    rw [found] at again
    cases again

end Subscription

/-- What a call is made for. -/
def Trial.target (trial : Trial) : Slot × Stage := (trial.slot, trial.stage)

namespace Consumer

/-- A stage with those of its handlers that are still to be called. -/
structure Part where
  stage : Stage
  slots : List Slot

def Part.targets (part : Part) : List (Slot × Stage) :=
  part.slots.map fun slot => (slot, part.stage)

/-- A delivery that has these handlers to call at its stage. -/
def parts (subscription : Subscription) (delivery : Delivery) (slots : List Slot) : List Part :=
  ⟨delivery.stage, slots⟩ ::
    delivery.later.map fun stage => ⟨stage, subscription.recipients stage⟩

/-- What is left of the group in progress, with the call that is under way. Nothing is left of a
group that waits for an attempt to be made again. -/
def remaining (consumer : Consumer) : List Part :=
  match consumer.phase with
  | .ready delivery => parts consumer.subscription delivery delivery.slots
  | .calling running delivery =>
    parts consumer.subscription delivery (running.slot :: delivery.slots)
  | _ => []

/-- The calls that are left of the group in progress. -/
def left (consumer : Consumer) : List (Slot × Stage) :=
  consumer.remaining.flatMap Part.targets

/-- A group that was taken and is being delivered: where it stands among the groups so far, and what
is left of it. -/
structure Partway (subscription : Subscription) (queue groups : List (List StoredEvent))
    (delivery : Delivery) (slots : List Slot) : Prop where
  taken : ∃ earlier group, groups = earlier ++ group :: queue ∧
    delivery.stage :: delivery.later <:+ subscription.stages group
  order : slots <:+ subscription.recipients delivery.stage

/-- A group that is queued comes after all the others. -/
theorem Partway.enqueue {subscription : Subscription} {queue groups : List (List StoredEvent)}
    {delivery : Delivery} {slots : List Slot}
    (partway : Partway subscription queue groups delivery slots) (group : List StoredEvent) :
    Partway subscription (queue ++ [group]) (groups ++ [group]) delivery slots := by
  obtain ⟨⟨earlier, current, rfl, rest⟩, order⟩ := partway
  exact ⟨⟨earlier, current, by simp, rest⟩, order⟩

/-- Which of the groups so far is in progress. -/
def Phase.Holds (subscription : Subscription) (queue groups : List (List StoredEvent)) :
    Phase → Prop
  | .starting | .idle => queue <:+ groups
  | .ready delivery => Partway subscription queue groups delivery delivery.slots
  | .calling running delivery =>
    Partway subscription queue groups delivery (running.slot :: delivery.slots)
  | .pausing _ delivery => Partway subscription queue groups delivery []
  | .exited _ => True

/-- The group in progress is the last that was taken. Some of its last stages are left, each with
some of the last of its handlers. -/
def Midway (consumer : Consumer) (groups : List (List StoredEvent)) : Prop :=
  ∃ earlier group, groups = earlier ++ group :: consumer.queue ∧
    consumer.remaining.map Part.stage <:+ consumer.subscription.stages group ∧
    ∀ part ∈ consumer.remaining, part.slots <:+ consumer.subscription.recipients part.stage

def Holds (consumer : Consumer) (groups : List (List StoredEvent)) : Prop :=
  consumer.phase.Holds consumer.subscription consumer.queue groups

namespace Holds

variable {consumer next : Consumer} {groups : List (List StoredEvent)}

theorem at_phase (holds : consumer.Holds groups) {phase : Phase} (same : consumer.phase = phase) :
    phase.Holds consumer.subscription consumer.queue groups :=
  same ▸ holds

/-- The stages that follow are begun with all of their handlers. -/
theorem begin {stages : List Stage} {earlier : List (List StoredEvent)} {group : List StoredEvent}
    (taken : groups = earlier ++ group :: consumer.queue)
    (rest : stages <:+ consumer.subscription.stages group) :
    (consumer.begin stages).Holds groups := by
  cases stages with
  | nil => exact taken ▸ ⟨earlier ++ [group], by simp [Consumer.begin]⟩
  | cons stage later =>
    exact ⟨⟨earlier, group, taken, rest⟩,
      (consumer.subscription.slots_eq stage) ▸ List.suffix_rfl⟩

theorem finish (holds : consumer.Holds groups) {running : Running} {delivery : Delivery}
    (phase : consumer.phase = .calling running delivery) :
    (consumer.finish running delivery).Holds groups := by
  obtain ⟨taken, order⟩ := holds.at_phase phase
  have rest : delivery.slots <:+ consumer.subscription.recipients delivery.stage :=
    (List.suffix_cons _ _).trans order
  unfold Consumer.finish afterCall
  split
  · exact ⟨taken, rest⟩
  · split
    · trivial
    · exact ⟨taken, List.nil_suffix⟩
  · trivial

theorem step (holds : consumer.Holds groups) (step : consumer.Step next) : next.Holds groups := by
  cases step with
  | starts phase =>
    have suffix := holds.at_phase phase
    exact suffix
  | stops phase stopping => trivial
  | @takes group rest phase going waiting =>
    obtain ⟨earlier, same⟩ := holds.at_phase phase
    rw [waiting] at same
    let fewer : Consumer := { consumer with queue := rest }
    have begun : (fewer.begin (fewer.subscription.stages group)).Holds groups :=
      begin same.symm List.suffix_rfl
    exact begun
  | completes phase none =>
    obtain ⟨⟨earlier, group, taken, rest⟩, -⟩ := holds.at_phase phase
    exact begin taken ((List.suffix_cons _ _).trans rest)
  | @skips delivery slot rest phase order missing =>
    obtain ⟨taken, inside⟩ := holds.at_phase phase
    have fewer : rest <:+ delivery.slots := order ▸ List.suffix_cons slot rest
    exact ⟨taken, fewer.trans inside⟩
  | calls phase order found =>
    obtain ⟨taken, inside⟩ := holds.at_phase phase
    exact ⟨taken, order ▸ inside⟩
  | resumes phase heeds stopping =>
    have partway := holds.at_phase phase
    exact partway
  | returns phase waiting elapsed => exact holds.finish phase
  | surrenders phase stopping => trivial
  | retries phase going elapsed =>
    obtain ⟨taken, -⟩ := holds.at_phase phase
    exact ⟨taken, (consumer.subscription.slots_eq _) ▸ List.suffix_rfl⟩

theorem enqueue (holds : consumer.Holds groups) (group : List StoredEvent) :
    (consumer.enqueue group).Holds (groups ++ [group]) := by
  obtain ⟨subscription, backoff, queue, phase, stopping, now, log⟩ := consumer
  cases phase with
  | exited time => trivial
  | ready delivery => exact Partway.enqueue holds group
  | calling running delivery => exact Partway.enqueue holds group
  | pausing due delivery => exact Partway.enqueue holds group
  | _ =>
    obtain ⟨earlier, rfl⟩ := holds
    exact ⟨earlier, (List.append_assoc _ _ _).symm⟩

theorem act (holds : consumer.Holds groups) (act : Act) :
    (consumer.act act).Holds (groups ++ act.groups) := by
  cases act with
  | enqueue group => exact holds.enqueue group
  | signal =>
    rw [Act.groups, List.append_nil]
    exact holds
  | clock time =>
    rw [Act.groups, List.append_nil]
    exact holds
  | step =>
    rw [Act.groups, List.append_nil, Consumer.act]
    cases taken : consumer.step? with
    | none => exact holds
    | some next => exact holds.step (step_of_step? taken)

/-- However steps, groups, time and the stop signal follow each other. -/
theorem run (holds : consumer.Holds groups) (acts : List Act) :
    (consumer.run acts).Holds (groups ++ offered acts) := by
  induction acts generalizing consumer groups with
  | nil =>
    rw [offered, List.flatMap_nil, List.append_nil]
    exact holds
  | cons next rest ih =>
    have after := ih (holds.act next)
    rw [List.append_assoc] at after
    exact after

theorem midway (holds : consumer.Holds groups) (busy : consumer.remaining ≠ []) :
    consumer.Midway groups := by
  have of_parts {delivery : Delivery} {slots : List Slot}
      (partway : Partway consumer.subscription consumer.queue groups delivery slots)
      (same : consumer.remaining = parts consumer.subscription delivery slots) :
      consumer.Midway groups := by
    obtain ⟨⟨earlier, group, taken, rest⟩, order⟩ := partway
    refine ⟨earlier, group, taken, ?_, ?_⟩
    · rw [same]
      simpa [parts, Function.comp_def] using rest
    · intro part member
      rw [same] at member
      rcases List.mem_cons.mp member with rfl | later
      · exact order
      · obtain ⟨stage, -, rfl⟩ := List.mem_map.mp later
        exact List.suffix_rfl
  cases phase : consumer.phase with
  | ready delivery => exact of_parts (holds.at_phase phase) (by simp [remaining, phase])
  | calling running delivery => exact of_parts (holds.at_phase phase) (by simp [remaining, phase])
  | _ => exact absurd (by simp [remaining, phase]) busy

end Holds

theorem left_of_ready {consumer : Consumer} {delivery : Delivery}
    (phase : consumer.phase = .ready delivery) :
    consumer.left = (parts consumer.subscription delivery delivery.slots).flatMap Part.targets := by
  simp only [left, remaining, phase]

theorem left_of_calling {consumer : Consumer} {running : Running} {delivery : Delivery}
    (phase : consumer.phase = .calling running delivery) :
    consumer.left = (running.slot, delivery.stage) ::
      (parts consumer.subscription delivery delivery.slots).flatMap Part.targets := by
  simp [left, remaining, phase, parts, Part.targets]

/-- A stage that has called all of its handlers leaves the stages after it. -/
theorem left_begin {consumer : Consumer} {delivery : Delivery}
    (phase : consumer.phase = .ready delivery) (none : delivery.slots = []) :
    (consumer.begin delivery.later).left = consumer.left := by
  rw [left_of_ready phase]
  cases later : delivery.later with
  | nil => simp [begin, left, remaining, parts, Part.targets, later, none]
  | cons stage rest =>
    simp [begin, left, remaining, parts, Part.targets, later, none, consumer.subscription.slots_eq]

/-- What has come of a consumer since the stop signal was set: some of the calls that were left, in
their order, of which all but the last went well. -/
structure Winds (consumer last : Consumer) : Prop where
  stopping : last.stopping = true
  subscription : last.subscription = consumer.subscription
  queue : last.queue = consumer.queue
  calls : ∃ since, last.trials = consumer.trials ++ since ∧
    since.map Trial.target ++ last.left <+: consumer.left ∧
    (∀ trial ∈ since.dropLast, trial.ok = true) ∧
    (last.left ≠ [] → ∀ trial ∈ since, trial.ok = true)

namespace Winds

variable {consumer last next : Consumer} {groups : List (List StoredEvent)}

theorem refl {consumer : Consumer} (stopping : consumer.stopping = true) :
    consumer.Winds consumer where
  stopping := stopping
  subscription := rfl
  queue := rfl
  calls := ⟨[], by simp, by simp, by simp, by simp⟩

/-- A step without a call leaves what was left, or nothing. -/
theorem goes (winds : consumer.Winds last) (stopping : next.stopping = last.stopping)
    (subscription : next.subscription = last.subscription) (queue : next.queue = last.queue)
    (trials : next.trials = last.trials) (left : next.left = last.left ∨ next.left = []) :
    consumer.Winds next where
  stopping := stopping.trans winds.stopping
  subscription := subscription.trans winds.subscription
  queue := queue.trans winds.queue
  calls := by
    obtain ⟨since, made, first, well, all⟩ := winds.calls
    refine ⟨since, trials.trans made, ?_, well, ?_⟩
    · rcases left with same | none
      · rwa [same]
      · rw [none, List.append_nil]
        exact (List.prefix_append _ _).trans first
    · rcases left with same | none
      · rwa [same]
      · exact fun some => absurd none some

/-- A call that is under way is the next of those that were left, and all before it went well. -/
theorem under (winds : consumer.Winds last) {running : Running} {delivery : Delivery}
    (phase : last.phase = .calling running delivery) :
    let trial : Trial := ⟨running.slot, delivery.stage, running.course.verdict = .ok⟩
    ∃ since, last.trials = consumer.trials ++ since ∧ (∀ past ∈ since, past.ok = true) ∧
      (since ++ [trial]).map Trial.target ++
        (parts last.subscription delivery delivery.slots).flatMap Part.targets <+:
          consumer.left := by
  obtain ⟨since, trials, first, -, all⟩ := winds.calls
  rw [left_of_calling phase] at first all
  refine ⟨since, trials, all (List.cons_ne_nil _ _), ?_⟩
  rw [List.map_append, List.append_assoc]
  exact first

/-- If a call that ends went well, the others are left. -/
theorem finish (winds : consumer.Winds last) {running : Running} {delivery : Delivery}
    (phase : last.phase = .calling running delivery) :
    consumer.Winds (last.finish running delivery) := by
  obtain ⟨since, trials, all, others⟩ := winds.under phase
  let trial : Trial := ⟨running.slot, delivery.stage, running.course.verdict = .ok⟩
  have written : (last.record running delivery).trials = consumer.trials ++ (since ++ [trial]) := by
    rw [← List.append_assoc, ← trials]
    exact List.map_append
  have well : ∀ past ∈ (since ++ [trial]).dropLast, past.ok = true := by
    rwa [List.dropLast_concat]
  have stopped : consumer.Winds
      { last.record running delivery with phase := .exited last.now } := by
    refine ⟨winds.stopping, winds.subscription, winds.queue, since ++ [trial], written, ?_, well,
      fun some => absurd rfl some⟩
    change _ ++ [] <+: _
    rw [List.append_nil]
    exact (List.prefix_append _ _).trans others
  unfold Consumer.finish
  cases verdict : running.course.verdict with
  | ok =>
    refine ⟨winds.stopping, winds.subscription, winds.queue, since ++ [trial], written, others,
      well, fun _ past member => ?_⟩
    rcases List.mem_append.mp member with before | now
    · exact all past before
    · obtain rfl := List.mem_singleton.mp now
      exact decide_eq_true verdict
  | failed reason =>
    have signalled : (last.record running delivery).stopping = true := winds.stopping
    rw [afterCall, if_pos signalled]
    exact stopped
  | panicked => exact stopped

/-- The step that keeps a consumer to what was left. -/
theorem step (winds : consumer.Winds last) (holds : last.Holds groups) (step : last.Step next) :
    consumer.Winds next := by
  have signalled := winds.stopping
  cases step with
  | starts phase => exact winds.goes rfl rfl rfl rfl (.inr rfl)
  | stops phase stopping => exact winds.goes rfl rfl rfl rfl (.inr rfl)
  | takes phase going waiting =>
    rw [going] at signalled
    cases signalled
  | @completes delivery phase none =>
    have left := left_begin phase none
    obtain ⟨later, same⟩ := last.begin_eq delivery.later
    rw [same] at left ⊢
    exact winds.goes rfl rfl rfl rfl (.inl left)
  | skips phase order missing =>
    -- Every slot of a stage holds a handler.
    obtain ⟨-, inside⟩ := holds.at_phase phase
    obtain ⟨trigger, handler, found⟩ := Subscription.exists_of_mem_recipients
      (inside.subset (order ▸ List.mem_cons_self))
    rw [missing] at found
    cases found
  | calls phase order found =>
    refine winds.goes rfl rfl rfl rfl (.inl ?_)
    rw [left_of_ready phase, left_of_calling rfl]
    simp [parts, Part.targets, order, Consumer.call]
  | resumes phase heeds stopping =>
    refine winds.goes rfl rfl rfl rfl (.inl ?_)
    rw [left_of_calling phase, left_of_calling rfl, Running.slot_stop]
  | returns phase waiting elapsed => exact winds.finish phase
  | surrenders phase stopping => exact winds.goes rfl rfl rfl rfl (.inr rfl)
  | retries phase going elapsed =>
    rw [going] at signalled
    cases signalled

theorem act (winds : consumer.Winds last) (holds : last.Holds groups) {act : Act}
    (quiet : act.groups = []) : consumer.Winds (last.act act) := by
  cases act with
  | enqueue group => cases quiet
  | signal => exact winds.goes winds.stopping.symm rfl rfl rfl (.inl rfl)
  | clock time => exact winds.goes rfl rfl rfl rfl (.inl rfl)
  | step =>
    rw [Consumer.act]
    cases taken : last.step? with
    | none => exact winds
    | some next => exact winds.step holds (step_of_step? taken)

theorem run (winds : consumer.Winds last) (holds : last.Holds groups) {acts : List Act}
    (quiet : offered acts = []) : consumer.Winds (last.run acts) := by
  induction acts generalizing last groups with
  | nil => exact winds
  | cons next rest ih =>
    obtain ⟨here, later⟩ := List.append_eq_nil_iff.mp quiet
    exact ih (winds.act holds here) (holds.act next) later

/-- The calls that have begun since, with one that may be under way. -/
theorem made (winds : consumer.Winds last) :
    ∃ since, last.made = consumer.trials ++ since ∧ since.map Trial.target <+: consumer.left ∧
      ∀ trial ∈ since.dropLast, trial.ok = true := by
  by_cases busy : ∃ running delivery, last.phase = .calling running delivery
  · obtain ⟨running, delivery, phase⟩ := busy
    obtain ⟨since, trials, all, others⟩ := winds.under phase
    refine ⟨since ++ [⟨running.slot, delivery.stage, running.course.verdict = .ok⟩], ?_,
      (List.prefix_append _ _).trans others, ?_⟩
    · simp only [Consumer.made, phase, trials, List.append_assoc]
    · rwa [List.dropLast_concat]
  · obtain ⟨since, trials, first, well, -⟩ := winds.calls
    refine ⟨since, ?_, (List.prefix_append _ _).trans first, well⟩
    unfold Consumer.made
    split
    · exact absurd ⟨_, _, ‹_›⟩ busy
    · rw [List.append_nil, trials]

end Winds

end Consumer

end EventSourcing
