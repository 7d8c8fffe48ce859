import EventSourcing.Proofs.Delivery.Ending

/-!
The exit of a consumer. After the stop signal each step brings it nearer, so all that can keep it is
a call under way; and as every call ends, there is a time by which the consumer has left.
-/

namespace EventSourcing.Consumer

/-- Steps that a delivery can take, at most, before it comes to its next call. -/
def deliveryWork (subscription : Subscription) (delivery : Delivery) : Nat :=
  3 * delivery.slots.length + 2 + stageWork subscription delivery.later

/-- Steps that a consumer can take, at most, once the stop signal is set. -/
def ending (consumer : Consumer) : Nat :=
  match consumer.phase with
  | .exited _ => 0
  | .idle | .pausing _ _ => 1
  | .starting => 2
  | .ready delivery => deliveryWork consumer.subscription delivery
  | .calling running delivery =>
    deliveryWork consumer.subscription delivery +
      if running.course.stopped?.isSome then 2 else 1

variable {consumer next : Consumer} {groups : List (List StoredEvent)}

theorem stageWork_cons (subscription : Subscription) (stage : Stage) (later : List Stage) :
    stageWork subscription (stage :: later) =
      3 * (subscription.slots stage).length + 1 + stageWork subscription later := rfl

/-- However many handlers of a stage are left, an attempt of it is no less work. -/
theorem deliveryWork_le {subscription : Subscription} {delivery : Delivery}
    (order : delivery.slots <:+ subscription.recipients delivery.stage) :
    deliveryWork subscription delivery + 2 ≤
      3 * (subscription.slots delivery.stage).length + 4 +
        stageWork subscription delivery.later := by
  have length := order.length_le
  rw [← subscription.slots_eq] at length
  unfold deliveryWork
  omega

theorem ending_begin (consumer : Consumer) (stages : List Stage) :
    (consumer.begin stages).ending ≤ stageWork consumer.subscription stages + 1 := by
  cases stages with
  | nil => exact Nat.le_refl _
  | cons stage later =>
    rw [stageWork_cons]
    simp only [begin, ending, deliveryWork]
    omega

/-- A call may take one more step to see the stop signal. -/
theorem ending_of_calling {running : Running} {delivery : Delivery}
    (phase : consumer.phase = .calling running delivery) :
    deliveryWork consumer.subscription delivery + 1 ≤ consumer.ending ∧
      consumer.ending ≤ deliveryWork consumer.subscription delivery + 2 := by
  simp only [ending, phase]
  split <;> omega

theorem ending_call_lt {delivery : Delivery} {slot : Slot} {rest : List Slot}
    (phase : consumer.phase = .ready delivery) (order : delivery.slots = slot :: rest)
    (handler : Handler) :
    (consumer.call slot handler { delivery with slots := rest }).ending < consumer.ending := by
  have before : consumer.ending = deliveryWork consumer.subscription delivery := by
    simp only [ending, phase]
  have begun : (consumer.call slot handler { delivery with slots := rest }).ending ≤
      deliveryWork consumer.subscription { delivery with slots := rest } + 2 :=
    (ending_of_calling rfl).2
  rw [before]
  simp only [deliveryWork, order, List.length_cons] at begun ⊢
  omega

/-- Each step after the stop signal is one less. -/
theorem Step.ending_lt (step : consumer.Step next) (stopping : consumer.stopping = true) :
    next.ending < consumer.ending := by
  cases step with
  | starts phase => simp [ending, phase]
  | stops phase _ => simp [ending, phase, exit]
  | takes phase going waiting =>
    rw [going] at stopping
    cases stopping
  | @completes delivery phase none =>
    have begun := consumer.ending_begin delivery.later
    simp only [ending, phase, deliveryWork] at begun ⊢
    omega
  | skips phase order missing =>
    simp only [ending, phase, deliveryWork, order, List.length_cons]
    omega
  | calls phase order found => exact ending_call_lt phase order _
  | resumes phase heeds _ => simp [ending, phase, heeds]
  | @returns running delivery due phase waiting elapsed =>
    have signalled : (consumer.record running delivery).stopping = true := stopping
    refine Nat.lt_of_lt_of_le ?_ (ending_of_calling phase).1
    rw [finish]
    cases running.course.verdict with
    | ok => exact Nat.lt_succ_self _
    | failed reason =>
      rw [afterCall, if_pos signalled]
      exact Nat.succ_pos _
    | panicked => exact Nat.succ_pos _
  | surrenders phase _ => simp [ending, phase, exit]
  | retries phase going elapsed =>
    rw [going] at stopping
    cases stopping

/-- Only a call that is under way can keep a consumer after the stop signal. -/
theorem exited_or_calling (stopping : consumer.stopping = true) (stuck : consumer.step? = none) :
    consumer.hasExited = true ∨ ∃ running delivery due,
      consumer.phase = .calling running delivery ∧ running.due = some due ∧ consumer.now < due := by
  cases phase : consumer.phase with
  | exited time => exact .inl (by simp [hasExited, phase])
  | starting => simp [step?, phase] at stuck
  | idle => simp [step?, phase, stopping] at stuck
  | pausing due delivery => simp [step?, phase, stopping] at stuck
  | ready delivery =>
    cases order : delivery.slots with
    | nil => simp [step?, phase, order] at stuck
    | cons slot rest =>
      cases found : consumer.subscription.handlers[slot]? <;>
        simp [step?, phase, order, found] at stuck
  | calling running delivery =>
    obtain ⟨early, heedless⟩ := (step?_eq_none_iff_of_calling phase).mp stuck
    have alone := heedless stopping
    cases course : running.course with
    | alone ending =>
      have waiting : running.due = some (deadline running.since ending.pause) := by
        rw [Running.due, course]
        rfl
      exact .inr ⟨running, delivery, _, rfl, waiting, early _ waiting⟩
    | awaits stopped => simp [course, Course.stopped?] at alone
    | races ending stopped => simp [course, Course.stopped?] at alone

/-- What can be done at one time brings a consumer no further from its exit. -/
theorem settleWithin_nearer (fuel : Nat) (stopping : consumer.stopping = true) :
    (settleWithin fuel consumer).stopping = true ∧
      (settleWithin fuel consumer).now = consumer.now ∧
      (settleWithin fuel consumer).ending ≤ consumer.ending := by
  induction fuel generalizing consumer with
  | zero => exact ⟨stopping, rfl, Nat.le_refl _⟩
  | succ fuel ih =>
    rw [settleWithin]
    cases taken : consumer.step? with
    | none => exact ⟨stopping, rfl, Nat.le_refl _⟩
    | some next =>
      have step := step_of_step? taken
      obtain ⟨signalled, now, nearer⟩ := ih (step.keeps.stopping.trans stopping)
      have less := step.ending_lt stopping
      exact ⟨signalled, now.trans step.keeps.now, Nat.le_trans nearer (Nat.le_of_lt less)⟩

theorem step?_settleWithin {fuel : Nat} (stopping : consumer.stopping = true)
    (enough : consumer.ending ≤ fuel) : (settleWithin fuel consumer).step? = none := by
  induction fuel generalizing consumer with
  | zero =>
    cases taken : consumer.step? with
    | none => exact taken
    | some next =>
      have less := (step_of_step? taken).ending_lt stopping
      omega
  | succ fuel ih =>
    rw [settleWithin]
    cases taken : consumer.step? with
    | none => exact taken
    | some next =>
      have step := step_of_step? taken
      have less := step.ending_lt stopping
      exact ih (step.keeps.stopping.trans stopping) (by omega)

/-- A consumer may take as many steps at one time as bring it to its exit. -/
theorem Holds.ending_le (holds : consumer.Holds groups) :
    consumer.ending ≤ consumer.work * consumer.patience := by
  have many : consumer.work ≤ consumer.work * consumer.patience := by
    refine Nat.le_mul_of_pos_right _ ?_
    unfold patience
    split <;> omega
  refine Nat.le_trans ?_ many
  unfold ending work currentWork
  cases phase : consumer.phase with
  | ready delivery =>
    have bound := deliveryWork_le (holds.at_phase phase).order
    dsimp only
    omega
  | calling running delivery =>
    have bound := deliveryWork_le ((List.suffix_cons _ _).trans (holds.at_phase phase).order)
    dsimp only
    split <;> omega
  | _ =>
    dsimp only
    omega

/-- Whoever can do something comes nearer. -/
theorem Holds.ending_settle_lt (holds : consumer.Holds groups) (stopping : consumer.stopping = true)
    (taken : consumer.step? = some next) : consumer.settle.ending < consumer.ending := by
  have less := (step_of_step? taken).ending_lt stopping
  have bound := holds.ending_le
  obtain ⟨fuel, same⟩ : ∃ fuel, consumer.work * consumer.patience = fuel + 1 :=
    Nat.exists_eq_succ_of_ne_zero (by omega)
  have signalled := (step_of_step? taken).keeps.stopping.trans stopping
  obtain ⟨-, -, nearer⟩ := settleWithin_nearer fuel signalled
  rw [settle, same, settleWithin]
  simp only [taken]
  omega

theorem Holds.settle (holds : consumer.Holds groups) : consumer.settle.Holds groups := by
  obtain ⟨acts, quiet, same⟩ := consumer.becomes_settle
  have after := holds.run acts
  rwa [quiet, List.append_nil, ← same] at after

/-- What is done at one time ends with the exit, or with a call that takes longer. -/
theorem Holds.settled (holds : consumer.Holds groups) (stopping : consumer.stopping = true) :
    consumer.settle.stopping = true ∧ (consumer.settle.hasExited = true ∨
      ∃ running delivery due, consumer.settle.phase = .calling running delivery ∧
        running.due = some due ∧ consumer.settle.now = consumer.now ∧ consumer.now < due) := by
  obtain ⟨signalled, now, -⟩ := settleWithin_nearer (consumer.work * consumer.patience) stopping
  refine ⟨signalled, (exited_or_calling signalled ?_).imp_right ?_⟩
  · exact step?_settleWithin stopping holds.ending_le
  · rintro ⟨running, delivery, due, phase, waits, later⟩
    exact ⟨running, delivery, due, phase, waits, now, now ▸ later⟩

theorem wake?_of_hasExited (exited : consumer.hasExited = true) : consumer.wake? = none := by
  unfold hasExited at exited
  split at exited
  · rename_i phase
    simp only [wake?, phase]
  · cases exited

/-- Each call that is waited for brings the exit nearer, so not many times have to be waited for. -/
theorem Holds.exists_exit_within (holds : consumer.Holds groups)
    (stopping : consumer.stopping = true) :
    ∃ time, consumer.now ≤ time ∧ ∀ late fuel, time ≤ late → late - consumer.now < fuel →
      (advanceWithin fuel late consumer).hasExited = true := by
  induction near : consumer.settle.ending using Nat.strongRecOn generalizing consumer with
  | ind _ ih =>
    obtain ⟨signalled, exited | ⟨running, delivery, due, phase, waits, now, later⟩⟩ :=
      holds.settled stopping
    · refine ⟨consumer.now, Nat.le_refl _, fun late fuel _ enough => ?_⟩
      obtain ⟨fuel, rfl⟩ := Nat.exists_eq_succ_of_ne_zero (Nat.ne_of_gt (Nat.zero_lt_of_lt enough))
      rw [advanceWithin]
      simp only [wake?_of_hasExited exited]
      exact exited
    · -- The call ends at the next time that is waited for.
      let woken : Consumer := { consumer.settle with now := due }
      have held : woken.Holds groups := holds.settle
      have returns : woken.step? = some (woken.finish running delivery) := by
        simp only [step?, woken, phase, waits, Option.any_some, Nat.le_refl, decide_true, if_true]
      have less : woken.settle.ending < consumer.settle.ending :=
        held.ending_settle_lt signalled returns
      obtain ⟨time, after, exits⟩ := ih _ (near ▸ less) held signalled rfl
      have after : due ≤ time := after
      refine ⟨time, by omega, fun late fuel past enough => ?_⟩
      obtain ⟨fuel, rfl⟩ := Nat.exists_eq_succ_of_ne_zero (Nat.ne_of_gt (Nat.zero_lt_of_lt enough))
      have wakes : consumer.settle.wake? = some due := by
        simp only [wake?, phase, waits]
      have next : max consumer.settle.now due = due := by omega
      rw [advanceWithin]
      simp only [wakes, next]
      rw [if_pos (Nat.le_trans after past)]
      refine exits late fuel past ?_
      change late - due < fuel
      omega

/-- After the stop signal there is a time by which a consumer has exited, whatever it is at. -/
theorem Holds.exists_exit (holds : consumer.Holds groups) (stopping : consumer.stopping = true) :
    ∃ time, ∀ late, time ≤ late → (consumer.advance late).hasExited = true := by
  obtain ⟨time, -, exits⟩ := holds.exists_exit_within stopping
  exact ⟨time, fun late after => exits late _ after (Nat.lt_succ_self _)⟩

end EventSourcing.Consumer
