import EventSourcing.Dispatch.Consumer

/-!
The calls that deliver groups of events. Each stage of a group takes any number of failed attempts
and then one that succeeds; an attempt calls the handlers of the stage in their order and ends with
the first that fails. The calls of several stages are written one after the other.
-/

namespace EventSourcing

/-- An item of two lists in a row stands in the second of them or in the first. -/
theorem append_eq_append_cons {α : Type} {first second before after : List α} {item : α}
    (same : first ++ second = before ++ item :: after) :
    (∃ middle, before = first ++ middle ∧ second = middle ++ item :: after) ∨
      ∃ tail, first = before ++ item :: tail ∧ after = tail ++ second := by
  rcases List.append_eq_append_iff.mp same with later | ⟨tail, rfl, rest⟩
  · exact .inl later
  · rcases List.cons_eq_append_iff.mp rest with ⟨rfl, rfl⟩ | ⟨tail, rfl, rfl⟩
    · exact .inl ⟨[], by simp, rfl⟩
    · exact .inr ⟨tail, rfl, rfl⟩

/-- A call of a handler: what it was made for, and whether it went well. -/
structure Trial where
  slot : Slot
  stage : Stage
  ok : Bool

def Call.trial (call : Call) : Trial := ⟨call.slot, call.stage, call.verdict = .ok⟩

namespace Stage

/-- All of these handlers are called, and none fails. -/
def allWell (stage : Stage) (slots : List Slot) : List Trial :=
  slots.map fun slot => ⟨slot, stage, true⟩

@[simp] theorem allWell_nil (stage : Stage) : stage.allWell [] = [] := rfl

theorem allWell_append (stage : Stage) (first second : List Slot) :
    stage.allWell (first ++ second) = stage.allWell first ++ stage.allWell second :=
  List.map_append

theorem allWell_snoc (stage : Stage) (slots : List Slot) (slot : Slot) :
    stage.allWell (slots ++ [slot]) = stage.allWell slots ++ [⟨slot, stage, true⟩] :=
  stage.allWell_append slots [slot]

theorem mem_allWell {stage : Stage} {slots : List Slot} {slot : Slot} (member : slot ∈ slots) :
    (⟨slot, stage, true⟩ : Trial) ∈ stage.allWell slots :=
  List.mem_map.mpr ⟨slot, member, rfl⟩

theorem of_mem_allWell {stage : Stage} {slots : List Slot} {trial : Trial}
    (member : trial ∈ stage.allWell slots) : trial.stage = stage ∧ trial.slot ∈ slots := by
  obtain ⟨slot, inside, rfl⟩ := List.mem_map.mp member
  exact ⟨rfl, inside⟩

/-- An attempt that ends with the first handler that fails. -/
def FailedAttempt (stage : Stage) (slots : List Slot) (trials : List Trial) : Prop :=
  ∃ before slot after, slots = before ++ slot :: after ∧
    trials = stage.allWell before ++ [⟨slot, stage, false⟩]

/-- Any number of failed attempts, and then one that succeeds. -/
def Delivers (stage : Stage) (slots : List Slot) (trials : List Trial) : Prop :=
  ∃ attempts : List (List Trial), (∀ attempt ∈ attempts, stage.FailedAttempt slots attempt) ∧
    trials = attempts.flatten ++ stage.allWell slots

/-- Whatever has failed before, the stage can still be delivered. -/
theorem delivers_allWell (stage : Stage) (slots : List Slot) :
    stage.Delivers slots (stage.allWell slots) :=
  ⟨[], by simp, rfl⟩

namespace FailedAttempt

variable {stage : Stage} {slots : List Slot} {trials : List Trial}

theorem of_mem (failed : stage.FailedAttempt slots trials) {trial : Trial}
    (member : trial ∈ trials) : trial.stage = stage ∧ trial.slot ∈ slots := by
  obtain ⟨before, slot, after, rfl, rfl⟩ := failed
  rcases List.mem_append.mp member with well | last
  · obtain ⟨same, inside⟩ := of_mem_allWell well
    exact ⟨same, List.mem_append_left _ inside⟩
  · obtain rfl := List.mem_singleton.mp last
    exact ⟨rfl, List.mem_append_right _ List.mem_cons_self⟩

end FailedAttempt

namespace Delivers

variable {stage : Stage} {slots : List Slot} {trials : List Trial}

theorem of_mem (delivers : stage.Delivers slots trials) {trial : Trial}
    (member : trial ∈ trials) : trial.stage = stage ∧ trial.slot ∈ slots := by
  obtain ⟨attempts, failed, rfl⟩ := delivers
  rcases List.mem_append.mp member with earlier | last
  · obtain ⟨attempt, inside, member⟩ := List.mem_flatten.mp earlier
    exact (failed attempt inside).of_mem member
  · exact of_mem_allWell last

/-- A stage is delivered to each of its handlers. -/
theorem reaches (delivers : stage.Delivers slots trials) {slot : Slot} (member : slot ∈ slots) :
    (⟨slot, stage, true⟩ : Trial) ∈ trials := by
  obtain ⟨attempts, -, rfl⟩ := delivers
  exact List.mem_append_right _ (mem_allWell member)

end Delivers

end Stage

namespace Subscription

/-- The places of the handlers with one trigger, in the order of their registration. -/
def slotsOn (subscription : Subscription) (trigger : Trigger) : List Slot :=
  (List.range subscription.handlers.length).filter fun slot =>
    (subscription.handlers[slot]?).any fun handler => handler.1 = trigger

/-- Who receives a stage: the batch handlers a group; an event the handlers of every event and then
those of its type. -/
def recipients (subscription : Subscription) : Stage → List Slot
  | .batch _ => subscription.slotsOn .batch
  | .single event => subscription.slotsOn .any ++ subscription.slotsOn (.ofType event.eventType)

theorem slotsWhere_eq (subscription : Subscription) (wanted : Trigger → Bool) (stage : Stage)
    (trigger : Trigger) (same : ∀ other, (wanted other && stage.admits other) = (other = trigger)) :
    subscription.slotsWhere wanted stage = subscription.slotsOn trigger := by
  apply List.filter_congr
  intro slot _
  cases subscription.handlers[slot]? with
  | none => rfl
  | some handler => exact Bool.eq_iff_iff.mpr (by simp [same])

theorem slotsWhere_eq_nil (subscription : Subscription) (wanted : Trigger → Bool) (stage : Stage)
    (none : ∀ other, (wanted other && stage.admits other) = false) :
    subscription.slotsWhere wanted stage = [] := by
  apply List.filter_eq_nil_iff.mpr
  intro slot _
  cases subscription.handlers[slot]? with
  | none => simp
  | some handler => simp [none]

/-- The handlers of a stage are called in the order of its recipients. -/
theorem slots_eq (subscription : Subscription) (stage : Stage) :
    subscription.slots stage = subscription.recipients stage := by
  cases stage with
  | batch group =>
    rw [slots, recipients, slotsWhere_eq _ _ _ .batch, slotsWhere_eq_nil, List.append_nil]
    · intro trigger
      cases trigger <;> rfl
    · intro trigger
      cases trigger <;> simp [Stage.admits]
  | single event =>
    rw [slots, recipients, slotsWhere_eq _ _ _ .any,
      slotsWhere_eq _ _ _ (.ofType event.eventType)]
    · intro trigger
      cases trigger <;> simp [Stage.admits, eq_comm]
    · intro trigger
      cases trigger <;> simp [Stage.admits]

theorem exists_of_mem_slotsOn {subscription : Subscription} {trigger : Trigger} {slot : Slot}
    (member : slot ∈ subscription.slotsOn trigger) :
    ∃ handler, subscription.handlers[slot]? = some (trigger, handler) := by
  obtain ⟨-, bound⟩ := List.mem_filter.mp member
  cases found : subscription.handlers[slot]? with
  | none => simp [found] at bound
  | some both =>
    rw [found, Option.any_some, decide_eq_true_eq] at bound
    exact ⟨both.2, by rw [← bound]⟩

/-- There is a handler wherever a stage goes. -/
theorem exists_of_mem_recipients {subscription : Subscription} {stage : Stage} {slot : Slot}
    (member : slot ∈ subscription.recipients stage) :
    ∃ trigger handler, subscription.handlers[slot]? = some (trigger, handler) := by
  cases stage with
  | batch group => exact ⟨_, exists_of_mem_slotsOn member⟩
  | single event =>
    rcases List.mem_append.mp member with any | typed
    · exact ⟨_, exists_of_mem_slotsOn any⟩
    · exact ⟨_, exists_of_mem_slotsOn typed⟩

/-- The calls that deliver one stage after the other. -/
inductive Word (subscription : Subscription) : List Stage → List Trial → Prop where
  | nil : Word subscription [] []
  | cons {stage : Stage} {later : List Stage} {trials others : List Trial}
      (here : stage.Delivers (subscription.recipients stage) trials)
      (there : Word subscription later others) :
      Word subscription (stage :: later) (trials ++ others)

namespace Word

variable {subscription : Subscription} {stages later : List Stage} {trials others : List Trial}

theorem append (here : subscription.Word stages trials) (there : subscription.Word later others) :
    subscription.Word (stages ++ later) (trials ++ others) := by
  induction here with
  | nil => exact there
  | cons first rest ih =>
    rw [List.cons_append, List.append_assoc]
    exact .cons first ih

theorem snoc (here : subscription.Word stages trials) {stage : Stage} {last : List Trial}
    (delivers : stage.Delivers (subscription.recipients stage) last) :
    subscription.Word (stages ++ [stage]) (trials ++ last) := by
  have one : subscription.Word [stage] (last ++ []) := .cons delivers .nil
  rw [List.append_nil] at one
  exact here.append one

/-- Nothing that has happened keeps later stages from being delivered. -/
theorem exists_of_stages (subscription : Subscription) (stages : List Stage) :
    ∃ trials, subscription.Word stages trials := by
  induction stages with
  | nil => exact ⟨[], .nil⟩
  | cons stage later ih =>
    obtain ⟨others, there⟩ := ih
    exact ⟨_, .cons (stage.delivers_allWell _) there⟩

/-- Every handler of every stage has its turn. -/
theorem reaches (word : subscription.Word stages trials) {stage : Stage} (member : stage ∈ stages)
    {slot : Slot} (inside : slot ∈ subscription.recipients stage) :
    (⟨slot, stage, true⟩ : Trial) ∈ trials := by
  induction word with
  | nil => cases member
  | cons here there ih =>
    rcases List.mem_cons.mp member with rfl | later
    · exact List.mem_append_left _ (here.reaches inside)
    · exact List.mem_append_right _ (ih later)

/-- A call belongs to a stage, and by then the stages before it are delivered to all of their
handlers. -/
theorem exists_stage (word : subscription.Word stages trials) {before after : List Trial}
    {trial : Trial} (split : trials = before ++ trial :: after) :
    ∃ done later, stages = done ++ trial.stage :: later ∧
      trial.slot ∈ subscription.recipients trial.stage ∧
      ∀ stage ∈ done, ∀ slot ∈ subscription.recipients stage,
        (⟨slot, stage, true⟩ : Trial) ∈ before := by
  induction word generalizing before with
  | nil => simp at split
  | @cons stage later first others here there ih =>
    rcases append_eq_append_cons split with ⟨middle, rfl, rest⟩ | ⟨tail, rfl, -⟩
    · obtain ⟨done, last, rfl, inside, reached⟩ := ih rest
      refine ⟨stage :: done, last, rfl, inside, ?_⟩
      intro other member slot receives
      rcases List.mem_cons.mp member with rfl | later
      · exact List.mem_append_left _ (here.reaches receives)
      · exact List.mem_append_right _ (reached other later slot receives)
    · obtain ⟨rfl, inside⟩ := here.of_mem (List.mem_append_right before List.mem_cons_self)
      exact ⟨[], later, rfl, inside, by simp⟩

end Word

end Subscription

end EventSourcing
