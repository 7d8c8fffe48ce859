import EventSourcing.Proofs.Delivery

/-!
What stays true of a consumer, whatever its handlers do: its calls are those of the stages that it
is done with, and then some of those of the stage it is at. Groups may be queued, time may pass and
the stop signal may come between any two steps.
-/

namespace EventSourcing.Consumer

/-- What can happen next. -/
inductive Act where
  | enqueue (group : List StoredEvent)
  | signal
  /-- The consumer does what it can do at the present time, if there is something. -/
  | step
  | clock (time : Nat)

def act (consumer : Consumer) : Act → Consumer
  | .enqueue group => consumer.enqueue group
  | .signal => consumer.signal
  | .step => consumer.step?.getD consumer
  | .clock time => { consumer with now := time }

def run (consumer : Consumer) (acts : List Act) : Consumer :=
  acts.foldl act consumer

def Act.groups : Act → List (List StoredEvent)
  | .enqueue group => [group]
  | .signal | .step | .clock _ => []

/-- The groups that are queued. -/
def offered (acts : List Act) : List (List StoredEvent) :=
  acts.flatMap Act.groups

/-- All that a step can do. -/
inductive Step (consumer : Consumer) : Consumer → Prop where
  | starts (phase : consumer.phase = .starting) : Step consumer { consumer with phase := .idle }
  | stops (phase : consumer.phase = .idle) (stopping : consumer.stopping = true) :
      Step consumer consumer.exit
  | takes {group : List StoredEvent} {rest : List (List StoredEvent)}
      (phase : consumer.phase = .idle) (going : consumer.stopping = false)
      (waiting : consumer.queue = group :: rest) :
      Step consumer ({ consumer with queue := rest }.begin (consumer.subscription.stages group))
  | completes {delivery : Delivery} (phase : consumer.phase = .ready delivery)
      (none : delivery.slots = []) : Step consumer (consumer.begin delivery.later)
  | skips {delivery : Delivery} {slot : Slot} {rest : List Slot}
      (phase : consumer.phase = .ready delivery) (next : delivery.slots = slot :: rest)
      (missing : consumer.subscription.handlers[slot]? = none) :
      Step consumer { consumer with phase := .ready { delivery with slots := rest } }
  | calls {delivery : Delivery} {slot : Slot} {rest : List Slot} {trigger : Trigger}
      {handler : Handler} (phase : consumer.phase = .ready delivery)
      (next : delivery.slots = slot :: rest)
      (found : consumer.subscription.handlers[slot]? = some (trigger, handler)) :
      Step consumer (consumer.call slot handler { delivery with slots := rest })
  | resumes {running : Running} {delivery : Delivery} {stopped : Ending}
      (phase : consumer.phase = .calling running delivery)
      (heeds : running.course.stopped? = some stopped) (stopping : consumer.stopping = true) :
      Step consumer
        { consumer with phase := .calling (running.stop consumer.now stopped) delivery }
  | returns {running : Running} {delivery : Delivery} {due : Nat}
      (phase : consumer.phase = .calling running delivery) (waiting : running.due = some due)
      (elapsed : due ≤ consumer.now) : Step consumer (consumer.finish running delivery)
  | surrenders {due : Nat} {delivery : Delivery} (phase : consumer.phase = .pausing due delivery)
      (stopping : consumer.stopping = true) : Step consumer consumer.exit
  | retries {due : Nat} {delivery : Delivery} (phase : consumer.phase = .pausing due delivery)
      (going : consumer.stopping = false) (elapsed : due ≤ consumer.now) :
      Step consumer
        { consumer with
          phase :=
            .ready { delivery with slots := consumer.subscription.slots delivery.stage } }

theorem step_of_step? {consumer next : Consumer} (taken : consumer.step? = some next) :
    consumer.Step next := by
  unfold step? at taken
  split at taken
  · cases taken
  · obtain rfl := Option.some.inj taken
    exact .starts ‹_›
  · split at taken
    · obtain rfl := Option.some.inj taken
      exact .stops ‹_› ‹_›
    · rename_i phase going
      split at taken
      · cases taken
      · obtain rfl := Option.some.inj taken
        exact .takes phase (by simpa using going) ‹_›
  · split at taken
    · obtain rfl := Option.some.inj taken
      exact .completes ‹_› ‹_›
    · rename_i next
      dsimp only at taken
      split at taken
      · obtain rfl := Option.some.inj taken
        exact .skips ‹_› next ‹_›
      · obtain rfl := Option.some.inj taken
        exact .calls ‹_› next ‹_›
  · split at taken
    · rename_i elapsed
      obtain ⟨due, waiting, elapsed⟩ := (Option.any_eq_true _ _).mp elapsed
      obtain rfl := Option.some.inj taken
      exact .returns ‹_› waiting (of_decide_eq_true elapsed)
    · split at taken
      · obtain ⟨stopped, heeds, rfl⟩ := Option.map_eq_some_iff.mp taken
        exact .resumes ‹_› heeds ‹_›
      · cases taken
  · split at taken
    · obtain rfl := Option.some.inj taken
      exact .surrenders ‹_› ‹_›
    · rename_i going
      split at taken
      · obtain rfl := Option.some.inj taken
        exact .retries ‹_› (by simpa using going) ‹_›
      · cases taken

/-- A call keeps a consumer waiting as long as it is not due and takes no notice of the stop signal,
or the signal has not come. -/
theorem step?_eq_none_iff_of_calling {consumer : Consumer} {running : Running}
    {delivery : Delivery} (phase : consumer.phase = .calling running delivery) :
    consumer.step? = none ↔ (∀ due, running.due = some due → consumer.now < due) ∧
      (consumer.stopping = true → running.course.stopped? = none) := by
  simp only [step?, phase]
  split
  next elapsed =>
    obtain ⟨due, waiting, elapsed⟩ := (Option.any_eq_true _ _).mp elapsed
    apply iff_of_false (Option.some_ne_none _)
    intro early
    exact Nat.not_lt_of_le (of_decide_eq_true elapsed) (early.1 due waiting)
  next early =>
    have ahead : ∀ due, running.due = some due → consumer.now < due := by
      intro due waiting
      simpa [waiting] using early
    rw [and_iff_right ahead]
    split
    next stopping =>
      rw [Option.map_eq_none_iff]
      exact ⟨fun heedless _ => heedless, fun heedless => heedless stopping⟩
    next going => exact iff_of_true rfl fun stopping => absurd stopping going

/-- The calls that have ended. -/
def trials (consumer : Consumer) : List Trial := consumer.log.map Call.trial

/-- The calls that have begun: those that have ended, and one that may be under way, with the
verdict that it is coming to. -/
def made (consumer : Consumer) : List Trial :=
  consumer.trials ++
    match consumer.phase with
    | .calling running delivery =>
      [⟨running.slot, delivery.stage, running.course.verdict = .ok⟩]
    | _ => []

/-- The stages of the groups that are still in the queue. -/
def ahead (consumer : Consumer) : List Stage :=
  consumer.queue.flatMap consumer.subscription.stages

/-- Calls that have delivered some stages and failed at another so many times, and of which the
current attempt at it has gone well with the handlers `called`. -/
def Underway (subscription : Subscription) (done : List Stage) (stage : Stage) (called : List Slot)
    (trials : List Trial) : Prop :=
  ∃ (earlier : List Trial) (attempts : List (List Trial)), subscription.Word done earlier ∧
    (∀ attempt ∈ attempts, stage.FailedAttempt (subscription.recipients stage) attempt) ∧
      trials = earlier ++ attempts.flatten ++ stage.allWell called

namespace Underway

variable {subscription : Subscription} {done : List Stage} {stage : Stage} {called : List Slot}
  {trials : List Trial}

theorem start (word : subscription.Word done trials) (stage : Stage) :
    Underway subscription done stage [] trials :=
  ⟨trials, [], word, by simp, by simp⟩

theorem well (underway : Underway subscription done stage called trials) (slot : Slot) :
    Underway subscription done stage (called ++ [slot]) (trials ++ [⟨slot, stage, true⟩]) := by
  obtain ⟨earlier, attempts, word, failed, rfl⟩ := underway
  refine ⟨earlier, attempts, word, failed, ?_⟩
  rw [stage.allWell_snoc, ← List.append_assoc]

/-- After a failure the stage is begun again. -/
theorem failed (underway : Underway subscription done stage called trials) {slot : Slot}
    {rest : List Slot} (next : subscription.recipients stage = called ++ slot :: rest) :
    Underway subscription done stage [] (trials ++ [⟨slot, stage, false⟩]) := by
  obtain ⟨earlier, attempts, word, failed, rfl⟩ := underway
  refine ⟨earlier, attempts ++ [stage.allWell called ++ [⟨slot, stage, false⟩]], word, ?_, ?_⟩
  · intro attempt member
    rcases List.mem_append.mp member with old | new
    · exact failed attempt old
    · obtain rfl := List.mem_singleton.mp new
      exact ⟨called, slot, rest, next, rfl⟩
  · simp

/-- An attempt that has called all of its handlers delivers the stage. -/
theorem word (underway : Underway subscription done stage (subscription.recipients stage) trials) :
    subscription.Word (done ++ [stage]) trials := by
  obtain ⟨earlier, attempts, word, failed, rfl⟩ := underway
  rw [List.append_assoc]
  exact word.snoc ⟨attempts, failed, rfl⟩

/-- An attempt may always go on to its end, and so may all that comes after it. -/
theorem exists_word (underway : Underway subscription done stage called trials) {rest : List Slot}
    (next : subscription.recipients stage = called ++ rest) (later : List Stage) :
    ∃ word, subscription.Word (done ++ stage :: later) word ∧ trials <+: word := by
  obtain ⟨earlier, attempts, word, failed, rfl⟩ := underway
  obtain ⟨others, there⟩ := Subscription.Word.exists_of_stages subscription later
  have here : stage.Delivers (subscription.recipients stage)
      (attempts.flatten ++ stage.allWell (subscription.recipients stage)) := ⟨attempts, failed, rfl⟩
  refine ⟨_, word.append (.cons here there), stage.allWell rest ++ others, ?_⟩
  rw [next, stage.allWell_append]
  simp only [List.append_assoc]

end Underway

/-- Where the delivery of these stages stands in each phase. -/
def Stands (consumer : Consumer) (stages : List Stage) : Phase → Prop
  | .starting | .idle =>
    ∃ done, stages = done ++ consumer.ahead ∧ consumer.subscription.Word done consumer.trials
  | .ready delivery =>
    ∃ done called, stages = done ++ delivery.stage :: (delivery.later ++ consumer.ahead) ∧
      consumer.subscription.recipients delivery.stage = called ++ delivery.slots ∧
      Underway consumer.subscription done delivery.stage called consumer.trials
  | .calling running delivery =>
    ∃ done called, stages = done ++ delivery.stage :: (delivery.later ++ consumer.ahead) ∧
      consumer.subscription.recipients delivery.stage = called ++ running.slot :: delivery.slots ∧
      Underway consumer.subscription done delivery.stage called consumer.trials
  | .pausing _ delivery =>
    ∃ done, stages = done ++ delivery.stage :: (delivery.later ++ consumer.ahead) ∧
      Underway consumer.subscription done delivery.stage [] consumer.trials
  | .exited _ =>
    ∃ word, consumer.subscription.Word stages word ∧ consumer.trials <+: word

/-- In every phase the calls that have begun are the first of those that deliver the stages. -/
theorem Stands.exists_word {consumer : Consumer} {stages : List Stage}
    (stands : consumer.Stands stages consumer.phase) :
    ∃ word, consumer.subscription.Word stages word ∧ consumer.made <+: word := by
  unfold made
  cases phase : consumer.phase with
  | calling running delivery =>
    rw [phase] at stands
    obtain ⟨done, called, rfl, next, underway⟩ := stands
    by_cases well : running.course.verdict = .ok
    · have further := underway.well running.slot
      rw [List.append_cons] at next
      simpa [well] using further.exists_word next (delivery.later ++ consumer.ahead)
    · have again := underway.failed next
      simpa [well] using
        again.exists_word (List.nil_append _).symm (delivery.later ++ consumer.ahead)
  | ready delivery =>
    rw [phase] at stands
    obtain ⟨done, called, rfl, next, underway⟩ := stands
    simpa using underway.exists_word next (delivery.later ++ consumer.ahead)
  | pausing due delivery =>
    rw [phase] at stands
    obtain ⟨done, rfl, underway⟩ := stands
    simpa using underway.exists_word (List.nil_append _).symm (delivery.later ++ consumer.ahead)
  | exited time =>
    rw [phase] at stands
    simpa [Stands] using stands
  | _ =>
    rw [phase] at stands
    obtain ⟨done, rfl, word⟩ := stands
    obtain ⟨others, there⟩ :=
      Subscription.Word.exists_of_stages consumer.subscription consumer.ahead
    exact ⟨_, word.append there, by simp⟩

/-- The next stage is begun once those before it are delivered. -/
theorem stands_begin (consumer : Consumer) {done : List Stage} (later : List Stage)
    (word : consumer.subscription.Word done consumer.trials) :
    (consumer.begin later).Stands (done ++ (later ++ consumer.ahead))
      (consumer.begin later).phase := by
  cases later with
  | nil => exact ⟨done, rfl, word⟩
  | cons stage later =>
    refine ⟨done, [], rfl, ?_, .start word stage⟩
    exact (consumer.subscription.slots_eq stage).symm

/-- Whoever leaves keeps what was called. -/
theorem stands_exit {consumer : Consumer} {stages : List Stage}
    (stands : consumer.Stands stages consumer.phase) :
    consumer.exit.Stands stages consumer.exit.phase := by
  obtain ⟨word, whole, first⟩ := stands.exists_word
  exact ⟨word, whole, (List.prefix_append _ _).trans first⟩

namespace Stands

variable {consumer next : Consumer} {stages : List Stage}

theorem at_phase (stands : consumer.Stands stages consumer.phase) {phase : Phase}
    (same : consumer.phase = phase) : consumer.Stands stages phase :=
  same ▸ stands

/-- A call that ends goes on with its attempt, or ends it. -/
theorem finish (stands : consumer.Stands stages consumer.phase) {running : Running}
    {delivery : Delivery} (phase : consumer.phase = .calling running delivery) :
    (consumer.finish running delivery).Stands stages (consumer.finish running delivery).phase := by
  obtain ⟨done, called, whole, next, underway⟩ := stands.at_phase phase
  have written : (consumer.record running delivery).trials =
      consumer.trials ++ [⟨running.slot, delivery.stage, running.course.verdict = .ok⟩] :=
    List.map_append
  by_cases well : running.course.verdict = .ok
  · have further : Underway consumer.subscription done delivery.stage (called ++ [running.slot])
        (consumer.record running delivery).trials := by
      rw [written, decide_eq_true well]
      exact underway.well running.slot
    rw [List.append_cons] at next
    rw [Consumer.finish, well]
    exact ⟨done, called ++ [running.slot], whole, next, further⟩
  · have again : Underway consumer.subscription done delivery.stage []
        (consumer.record running delivery).trials := by
      rw [written, decide_eq_false well]
      exact underway.failed next
    have left : (consumer.record running delivery).exit.Stands stages (.exited consumer.now) := by
      rw [whole]
      exact again.exists_word (List.nil_append _).symm _
    rw [Consumer.finish]
    cases verdict : running.course.verdict with
    | ok => exact absurd verdict well
    | panicked => exact left
    | failed reason =>
      rw [afterCall]
      split
      · exact left
      · exact ⟨done, whole, again⟩

/-- The step that keeps a consumer on its course. -/
theorem step (stands : consumer.Stands stages consumer.phase) (step : consumer.Step next) :
    next.Stands stages next.phase := by
  cases step with
  | starts phase => exact stands.at_phase phase
  | stops phase stopping => exact stands_exit stands
  | @takes group rest phase going waiting =>
    obtain ⟨done, whole, word⟩ := stands.at_phase phase
    rw [whole, ahead, waiting, List.flatMap_cons]
    exact stands_begin { consumer with queue := rest } _ word
  | completes phase none =>
    obtain ⟨done, called, rfl, next, underway⟩ := stands.at_phase phase
    rw [none, List.append_nil] at next
    rw [List.append_cons]
    exact stands_begin _ _ (next ▸ underway).word
  | skips phase next missing =>
    -- Every slot of a stage holds a handler.
    obtain ⟨done, called, whole, order, underway⟩ := stands.at_phase phase
    rw [next] at order
    obtain ⟨trigger, handler, found⟩ := Subscription.exists_of_mem_recipients
      (order ▸ List.mem_append_right called List.mem_cons_self)
    rw [missing] at found
    cases found
  | calls phase next found =>
    obtain ⟨done, called, whole, order, underway⟩ := stands.at_phase phase
    exact ⟨done, called, whole, next ▸ order, underway⟩
  | resumes phase heeds stopping => exact stands.at_phase phase
  | returns phase waiting elapsed => exact stands.finish phase
  | surrenders phase stopping => exact stands_exit stands
  | retries phase going elapsed =>
    obtain ⟨done, whole, underway⟩ := stands.at_phase phase
    exact ⟨done, [], whole, (consumer.subscription.slots_eq _).symm, underway⟩

/-- A group that is queued adds its stages; a consumer that has left takes no notice. -/
theorem enqueue (stands : consumer.Stands stages consumer.phase) (group : List StoredEvent) :
    (consumer.enqueue group).Stands (stages ++ consumer.subscription.stages group)
      (consumer.enqueue group).phase := by
  obtain ⟨subscription, backoff, queue, phase, stopping, now, log⟩ := consumer
  cases phase with
  | exited time =>
    obtain ⟨word, whole, first⟩ := stands
    obtain ⟨others, there⟩ :=
      Subscription.Word.exists_of_stages subscription (subscription.stages group)
    exact ⟨_, whole.append there, first.trans (List.prefix_append _ _)⟩
  | ready delivery =>
    obtain ⟨done, called, rfl, rest⟩ := stands
    exact ⟨done, called, by simp [ahead, Consumer.enqueue, hasExited], rest⟩
  | calling running delivery =>
    obtain ⟨done, called, rfl, rest⟩ := stands
    exact ⟨done, called, by simp [ahead, Consumer.enqueue, hasExited], rest⟩
  | pausing due delivery =>
    obtain ⟨done, rfl, rest⟩ := stands
    exact ⟨done, by simp [ahead, Consumer.enqueue, hasExited], rest⟩
  | _ =>
    obtain ⟨done, rfl, rest⟩ := stands
    exact ⟨done, by simp [ahead, Consumer.enqueue, hasExited], rest⟩

theorem act (stands : consumer.Stands stages consumer.phase) (next : Act) :
    (consumer.act next).Stands (stages ++ next.groups.flatMap consumer.subscription.stages)
      (consumer.act next).phase := by
  cases next with
  | enqueue group =>
    rw [Act.groups, List.flatMap_singleton]
    exact stands.enqueue group
  | signal =>
    rw [Act.groups, List.flatMap_nil, List.append_nil]
    exact stands
  | clock time =>
    rw [Act.groups, List.flatMap_nil, List.append_nil]
    exact stands
  | step =>
    rw [Act.groups, List.flatMap_nil, List.append_nil, Consumer.act]
    cases taken : consumer.step? with
    | none => exact stands
    | some next => exact stands.step (step_of_step? taken)

end Stands

theorem begin_eq (consumer : Consumer) (stages : List Stage) :
    ∃ phase, consumer.begin stages = { consumer with phase := phase } := by
  cases stages with
  | nil => exact ⟨_, rfl⟩
  | cons stage later => exact ⟨_, rfl⟩

theorem finish_eq (consumer : Consumer) (running : Running) (delivery : Delivery) :
    ∃ phase, consumer.finish running delivery =
      { consumer.record running delivery with phase := phase } := by
  unfold finish afterCall
  split
  · exact ⟨_, rfl⟩
  · split
    · exact ⟨_, rfl⟩
    · exact ⟨_, rfl⟩
  · exact ⟨_, rfl⟩

/-- What a step leaves as it is. From the queue it takes at most the first group. -/
structure Keeps (consumer next : Consumer) : Prop where
  subscription : next.subscription = consumer.subscription
  backoff : next.backoff = consumer.backoff
  stopping : next.stopping = consumer.stopping
  now : next.now = consumer.now
  queue : next.queue <:+ consumer.queue

theorem Step.keeps {consumer next : Consumer} (step : consumer.Step next) :
    consumer.Keeps next := by
  cases step with
  | takes phase going waiting =>
    obtain ⟨later, same⟩ := begin_eq { consumer with queue := _ } _
    rw [same]
    exact ⟨rfl, rfl, rfl, rfl, waiting ▸ List.suffix_cons _ _⟩
  | completes phase none =>
    obtain ⟨later, same⟩ := consumer.begin_eq _
    rw [same]
    exact ⟨rfl, rfl, rfl, rfl, List.suffix_rfl⟩
  | returns phase waiting elapsed =>
    obtain ⟨later, same⟩ := consumer.finish_eq _ _
    rw [same]
    exact ⟨rfl, rfl, rfl, rfl, List.suffix_rfl⟩
  | _ => exact ⟨rfl, rfl, rfl, rfl, List.suffix_rfl⟩

theorem act_subscription (consumer : Consumer) (next : Act) :
    (consumer.act next).subscription = consumer.subscription := by
  cases next with
  | enqueue group =>
    rw [act, enqueue]
    split <;> rfl
  | step =>
    rw [act]
    cases taken : consumer.step? with
    | none => rfl
    | some next => exact (step_of_step? taken).keeps.subscription
  | _ => rfl

theorem run_subscription (consumer : Consumer) (acts : List Act) :
    (consumer.run acts).subscription = consumer.subscription := by
  induction acts generalizing consumer with
  | nil => rfl
  | cons next rest ih => exact (ih (consumer.act next)).trans (consumer.act_subscription next)

theorem act_queue_suffix (consumer : Consumer) {next : Act} (quiet : next.groups = []) :
    (consumer.act next).queue <:+ consumer.queue := by
  cases next with
  | enqueue group => cases quiet
  | step =>
    rw [act]
    cases taken : consumer.step? with
    | none => exact List.suffix_rfl
    | some next => exact (step_of_step? taken).keeps.queue
  | _ => exact List.suffix_rfl

/-- Nobody comes back from an exit. -/
theorem act_of_hasExited {consumer : Consumer} (exited : consumer.hasExited = true) (next : Act) :
    (consumer.act next).hasExited = true := by
  cases next with
  | enqueue group => rwa [act, enqueue, if_pos exited]
  | step =>
    unfold hasExited at exited
    split at exited
    · rename_i phase
      simp only [act, step?, phase, Option.getD_none, hasExited]
    · cases exited
  | _ => exact exited

theorem hasExited_iff {consumer : Consumer} :
    consumer.hasExited = true ↔ ∃ time, consumer.phase = .exited time := by
  unfold hasExited
  cases consumer.phase <;> simp

/-- Who has left can only see the time pass and the stop signal come. -/
theorem run_of_exited {consumer : Consumer} {time : Nat} (phase : consumer.phase = .exited time)
    (acts : List Act) :
    (consumer.run acts).phase = .exited time ∧ (consumer.run acts).queue = consumer.queue ∧
      (consumer.run acts).log = consumer.log := by
  induction acts generalizing consumer with
  | nil => exact ⟨phase, rfl, rfl⟩
  | cons next rest ih =>
    have same : (consumer.act next).phase = .exited time ∧
        (consumer.act next).queue = consumer.queue ∧ (consumer.act next).log = consumer.log := by
      cases next with
      | enqueue group => simp only [act, enqueue, hasExited, phase, if_true, and_self]
      | step => simp only [act, step?, phase, Option.getD_none, and_self]
      | _ => exact ⟨phase, rfl, rfl⟩
    obtain ⟨exited, queue, log⟩ := ih same.1
    exact ⟨exited, queue.trans same.2.1, log.trans same.2.2⟩

theorem hasExited_run {consumer : Consumer} (exited : consumer.hasExited = true)
    (acts : List Act) : (consumer.run acts).hasExited = true := by
  obtain ⟨time, phase⟩ := hasExited_iff.mp exited
  exact hasExited_iff.mpr ⟨time, (run_of_exited phase acts).1⟩

/-- However steps, groups, time and the stop signal follow each other. -/
theorem Stands.run {consumer : Consumer} {stages : List Stage}
    (stands : consumer.Stands stages consumer.phase) (acts : List Act) :
    (consumer.run acts).Stands
      (stages ++ (offered acts).flatMap consumer.subscription.stages)
      (consumer.run acts).phase := by
  induction acts generalizing consumer stages with
  | nil =>
    rw [offered, List.flatMap_nil, List.flatMap_nil, List.append_nil]
    exact stands
  | cons next rest ih =>
    have after := ih (stands.act next)
    rw [act_subscription, List.append_assoc, ← List.flatMap_append] at after
    exact after

theorem run_append (consumer : Consumer) (first second : List Act) :
    consumer.run (first ++ second) = (consumer.run first).run second :=
  List.foldl_append

/-- Whether a consumer can become another one without new groups. -/
def Becomes (consumer later : Consumer) : Prop :=
  ∃ acts, offered acts = [] ∧ later = consumer.run acts

namespace Becomes

variable {consumer later last : Consumer}

theorem refl (consumer : Consumer) : consumer.Becomes consumer := ⟨[], rfl, rfl⟩

theorem trans (first : consumer.Becomes later) (second : later.Becomes last) :
    consumer.Becomes last := by
  obtain ⟨acts, quiet, rfl⟩ := first
  obtain ⟨more, still, rfl⟩ := second
  refine ⟨acts ++ more, ?_, (consumer.run_append acts more).symm⟩
  rw [offered, List.flatMap_append, ← offered, ← offered, quiet, still, List.append_nil]

theorem clock (consumer : Consumer) (time : Nat) :
    consumer.Becomes { consumer with now := time } :=
  ⟨[.clock time], rfl, rfl⟩

theorem step (taken : consumer.step? = some later) : consumer.Becomes later := by
  refine ⟨[.step], rfl, ?_⟩
  simp only [run, List.foldl_cons, List.foldl_nil, act, taken, Option.getD_some]

end Becomes

theorem becomes_settleWithin (fuel : Nat) (consumer : Consumer) :
    consumer.Becomes (settleWithin fuel consumer) := by
  induction fuel generalizing consumer with
  | zero => exact .refl consumer
  | succ fuel ih =>
    rw [settleWithin]
    cases taken : consumer.step? with
    | none => exact .refl consumer
    | some next => exact (Becomes.step taken).trans (ih next)

theorem becomes_settle (consumer : Consumer) : consumer.Becomes consumer.settle :=
  becomes_settleWithin _ consumer

theorem becomes_advanceWithin (fuel time : Nat) (consumer : Consumer) :
    consumer.Becomes (advanceWithin fuel time consumer) := by
  induction fuel generalizing consumer with
  | zero => exact .refl consumer
  | succ fuel ih =>
    have wait (due : Nat) : consumer.Becomes { consumer.settle with now := due } :=
      consumer.becomes_settle.trans (.clock _ due)
    rw [advanceWithin]
    split
    · exact wait _
    · split
      · exact (wait _).trans (ih _)
      · exact wait _

theorem becomes_advance (consumer : Consumer) (time : Nat) :
    consumer.Becomes (consumer.advance time) :=
  becomes_advanceWithin _ time consumer

theorem becomes_reach (consumer : Consumer) (time : Nat) :
    consumer.Becomes (consumer.reach time) := by
  unfold reach
  split
  · exact .refl consumer
  · exact (consumer.becomes_advance _).trans (.clock _ time)

end EventSourcing.Consumer
