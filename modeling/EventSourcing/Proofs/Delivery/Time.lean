import EventSourcing.Proofs.Delivery.Exit
import Mathlib.Logic.Relation

/-!
A consumer in time. The clock stands still while the consumer has something to do. Else it goes on,
but not past the time that the consumer waits for. It may stop on its way as often as it likes: to
each time the consumer comes in one way only.
-/

namespace EventSourcing.Consumer

/-- Whether there is nothing to do before a time. -/
structure Waits (consumer : Consumer) (time : Nat) : Prop where
  quiet : consumer.step? = none
  later : ∀ due, consumer.wake? = some due → time ≤ due

/-- All that is done at one time. -/
inductive Settles : Consumer → Consumer → Prop where
  | rests {consumer : Consumer} (quiet : consumer.step? = none) : Settles consumer consumer
  | steps {consumer next last : Consumer} (taken : consumer.step? = some next)
      (onwards : Settles next last) : Settles consumer last

/-- All that is done before a time; then the clock shows that time. -/
inductive Comes (time : Nat) : Consumer → Consumer → Prop where
  | arrives {consumer : Consumer} (waits : consumer.Waits time) :
      Comes time consumer { consumer with now := time }
  | steps {consumer next last : Consumer} (taken : consumer.step? = some next)
      (onwards : Comes time next last) : Comes time consumer last
  | wakes {consumer last : Consumer} {due : Nat} (quiet : consumer.step? = none)
      (waits : consumer.wake? = some due) (before : due < time)
      (onwards : Comes time { consumer with now := due } last) : Comes time consumer last

/-- A consumer comes to a time, unless that time is past. -/
inductive Attains (time : Nat) (consumer : Consumer) : Consumer → Prop where
  | past (past : time ≤ consumer.now) : Attains time consumer consumer
  | later {last : Consumer} (ahead : consumer.now < time) (comes : consumer.Comes time last) :
      Attains time consumer last

/-- What comes next: a step, or a stretch of time in which there is nothing to do. -/
inductive Tick : Consumer → Consumer → Prop where
  | steps {consumer next : Consumer} (taken : consumer.step? = some next) : Tick consumer next
  | passes {consumer : Consumer} {time : Nat} (waits : consumer.Waits time)
      (onward : consumer.now < time) : Tick consumer { consumer with now := time }

variable {consumer next last other : Consumer} {time : Nat}

/-- What is waited for lies ahead. -/
theorem lt_of_wake? (quiet : consumer.step? = none) {due : Nat}
    (waits : consumer.wake? = some due) : consumer.now < due := by
  unfold wake? at waits
  split at waits
  · rename_i running delivery phase
    exact ((step?_eq_none_iff_of_calling phase).mp quiet).1 due waits
  · rename_i late delivery phase
    obtain rfl := Option.some.inj waits
    simp only [step?, phase] at quiet
    split at quiet
    · cases quiet
    · split at quiet
      · cases quiet
      · omega
  · cases waits

/-- Until the time that is waited for there is nothing to do. -/
theorem step?_of_before (quiet : consumer.step? = none)
    (before : ∀ due, consumer.wake? = some due → time < due) :
    step? { consumer with now := time } = none := by
  cases phase : consumer.phase with
  | exited => rfl
  | starting => simp only [step?, phase, reduceCtorEq] at quiet
  | idle =>
    simp only [step?, phase] at quiet ⊢
    split at quiet
    · cases quiet
    · rw [if_neg ‹_›]
      split at quiet
      · rfl
      · cases quiet
  | ready delivery =>
    simp only [step?, phase] at quiet
    split at quiet
    · cases quiet
    · split at quiet <;> cases quiet
  | calling running delivery =>
    obtain ⟨-, heedless⟩ := (step?_eq_none_iff_of_calling phase).mp quiet
    refine (step?_eq_none_iff_of_calling rfl).mpr ⟨fun due waiting => before due ?_, heedless⟩
    simp only [wake?, phase, waiting]
  | pausing due delivery =>
    have ahead := before due (by simp only [wake?, phase])
    simp only [step?, phase] at quiet ⊢
    split at quiet
    · cases quiet
    · rw [if_neg ‹_›]
      exact if_neg (Nat.not_le_of_lt ahead)

namespace Settles

theorem quiet (settles : consumer.Settles last) : last.step? = none := by
  induction settles with
  | rests quiet => exact quiet
  | steps taken onwards ih => exact ih

theorem unique (settles : consumer.Settles last) (too : consumer.Settles other) : last = other := by
  induction settles with
  | rests quiet =>
    cases too with
    | rests => rfl
    | steps taken => cases quiet.symm.trans taken
  | steps taken onwards ih =>
    cases too with
    | rests quiet => cases quiet.symm.trans taken
    | steps also further =>
      obtain rfl := Option.some.inj (taken.symm.trans also)
      exact ih further

theorem now_eq (settles : consumer.Settles last) : last.now = consumer.now := by
  induction settles with
  | rests quiet => rfl
  | steps taken onwards ih => exact ih.trans (step_of_step? taken).keeps.now

theorem ticks (settles : consumer.Settles last) : Relation.ReflTransGen Tick consumer last := by
  induction settles with
  | rests quiet => exact .refl
  | steps taken onwards ih => exact .head (.steps taken) ih

theorem comes (settles : consumer.Settles last) (onwards : last.Comes time other) :
    consumer.Comes time other := by
  induction settles with
  | rests quiet => exact onwards
  | steps taken further ih => exact .steps taken (ih onwards)

/-- In whatever goes it is done. -/
theorem of_steps (steps : Relation.ReflTransGen (fun first second => first.step? = some second)
    consumer last) (quiet : last.step? = none) : consumer.Settles last := by
  induction steps using Relation.ReflTransGen.head_induction_on with
  | refl => exact .rests quiet
  | head taken onwards ih => exact .steps taken ih

end Settles

namespace Comes

theorem unique (comes : consumer.Comes time last) (too : consumer.Comes time other) :
    last = other := by
  induction comes with
  | arrives waits =>
    cases too with
    | arrives => rfl
    | steps taken => cases waits.quiet.symm.trans taken
    | wakes quiet due before => exact absurd (waits.later _ due) (Nat.not_le_of_lt before)
  | steps taken onwards ih =>
    cases too with
    | arrives waits => cases waits.quiet.symm.trans taken
    | steps also further =>
      obtain rfl := Option.some.inj (taken.symm.trans also)
      exact ih further
    | wakes quiet => cases quiet.symm.trans taken
  | wakes quiet due before onwards ih =>
    cases too with
    | arrives waits => exact absurd (waits.later _ due) (Nat.not_le_of_lt before)
    | steps taken => cases quiet.symm.trans taken
    | wakes also same earlier further =>
      obtain rfl := Option.some.inj (due.symm.trans same)
      exact ih further

theorem now_eq (comes : consumer.Comes time last) : last.now = time := by
  induction comes with
  | arrives waits => rfl
  | steps taken onwards ih => exact ih
  | wakes quiet due before onwards ih => exact ih

theorem ticks (comes : consumer.Comes time last) (ahead : consumer.now < time) :
    Relation.ReflTransGen Tick consumer last := by
  induction comes with
  | arrives waits => exact .single (.passes waits ahead)
  | steps taken onwards ih =>
    exact .head (.steps taken) (ih ((step_of_step? taken).keeps.now ▸ ahead))
  | wakes quiet waits before onwards ih =>
    refine .head (.passes ⟨quiet, fun due same => ?_⟩ (lt_of_wake? quiet waits)) (ih before)
    exact Nat.le_of_eq (Option.some.inj (waits.symm.trans same))

/-- If the clock stops before, nothing changes. -/
theorem of_passes {middle : Nat} (waits : consumer.Waits middle) (ahead : middle < time)
    (onwards : Comes time { consumer with now := middle } last) : consumer.Comes time last := by
  by_cases woken : consumer.wake? = some middle
  · exact .wakes waits.quiet woken ahead onwards
  · have still : step? { consumer with now := middle } = none := by
      refine step?_of_before waits.quiet fun due same => ?_
      refine Nat.lt_of_le_of_ne (waits.later due same) ?_
      rintro rfl
      exact woken same
    cases onwards with
    | arrives rests => exact .arrives ⟨waits.quiet, rests.later⟩
    | steps taken => cases still.symm.trans taken
    | wakes quiet due before further => exact .wakes waits.quiet due before further

end Comes

theorem Attains.unique (attains : consumer.Attains time last)
    (too : consumer.Attains time other) : last = other := by
  cases attains with
  | past past =>
    cases too with
    | past => rfl
    | later ahead => exact absurd past (Nat.not_le_of_lt ahead)
  | later ahead comes =>
    cases too with
    | past past => exact absurd past (Nat.not_le_of_lt ahead)
    | later ahead also => exact comes.unique also

theorem Tick.now_le (tick : consumer.Tick next) : consumer.now ≤ next.now := by
  cases tick with
  | steps taken => exact Nat.le_of_eq (step_of_step? taken).keeps.now.symm
  | passes waits onward => exact Nat.le_of_lt onward

/-- However often the clock stops on its way to a time. -/
theorem Attains.of_ticks (ticks : Relation.ReflTransGen Tick consumer last)
    (waits : last.Waits time) (onward : last.now < time) :
    consumer.Attains time { last with now := time } := by
  suffices both : consumer.now ≤ last.now ∧ consumer.Comes time { last with now := time } from
    .later (Nat.lt_of_le_of_lt both.1 onward) both.2
  induction ticks using Relation.ReflTransGen.head_induction_on with
  | refl => exact ⟨Nat.le_refl _, .arrives waits⟩
  | head tick onwards ih =>
    obtain ⟨earlier, comes⟩ := ih
    refine ⟨Nat.le_trans tick.now_le earlier, ?_⟩
    cases tick with
    | steps taken => exact .steps taken comes
    | passes rests ahead => exact .of_passes rests (Nat.lt_of_le_of_lt earlier onward) comes

theorem Attains.now_eq (attains : consumer.Attains time last) :
    last.now = max consumer.now time := by
  cases attains with
  | past past => exact (Nat.max_eq_left past).symm
  | later ahead comes => exact comes.now_eq.trans (Nat.max_eq_right (Nat.le_of_lt ahead)).symm

theorem Attains.ticks (attains : consumer.Attains time last) :
    Relation.ReflTransGen Tick consumer last := by
  cases attains with
  | past past => exact .refl
  | later ahead comes => exact comes.ticks ahead

theorem Tick.becomes (tick : consumer.Tick next) : consumer.Becomes next := by
  cases tick with
  | steps taken => exact .step taken
  | passes waits onward => exact .clock consumer _

theorem Becomes.of_ticks (ticks : Relation.ReflTransGen Tick consumer last) :
    consumer.Becomes last := by
  induction ticks with
  | refl => exact .refl consumer
  | tail ticks tick ih => exact ih.trans tick.becomes

end EventSourcing.Consumer
