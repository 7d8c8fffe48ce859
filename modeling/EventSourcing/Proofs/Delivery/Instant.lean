import EventSourcing.Proofs.Delivery.Time

/-!
What a consumer does at one time, and until a time. If it pauses at all before it tries again, it
comes to rest at each time, so all that is due by a time is done then.
-/

namespace EventSourcing.Consumer

/-- Steps that the groups in the queue can take. -/
def backlog (consumer : Consumer) : Nat :=
  (consumer.queue.map fun group =>
    stageWork consumer.subscription (consumer.subscription.stages group) + 2).foldr (· + ·) 0

/-- Steps that a pause can be followed by at the present time. -/
def resumption (consumer : Consumer) : Nat :=
  match consumer.phase with
  | .pausing due delivery =>
    if due ≤ consumer.now then
      3 * (consumer.subscription.slots delivery.stage).length + 2 +
        stageWork consumer.subscription delivery.later
    else 0
  | _ => 0

/-- Steps that a consumer can take, at most, at the present time. -/
def pressing (consumer : Consumer) : Nat :=
  consumer.ending + consumer.backlog + consumer.resumption

variable {consumer next last : Consumer} {groups : List (List StoredEvent)} {time : Nat}

theorem resumption_begin (consumer : Consumer) (stages : List Stage) :
    (consumer.begin stages).resumption = 0 := by
  cases stages <;> rfl

theorem backlog_begin (consumer : Consumer) (stages : List Stage) :
    (consumer.begin stages).backlog = consumer.backlog := by
  obtain ⟨later, same⟩ := consumer.begin_eq stages
  rw [same]
  rfl

theorem lt_deadline (now : Nat) {pause : Nat} (some : 0 < pause) : now < deadline now pause := by
  unfold deadline longestPause
  omega

/-- Each step is one less, if a failure is followed by a pause. -/
theorem Step.pressing_lt (step : consumer.Step next) (pauses : 0 < consumer.backoff) :
    next.pressing < consumer.pressing := by
  cases step with
  | starts phase => simp [pressing, ending, backlog, resumption, phase]
  | stops phase stopping => simp [pressing, ending, backlog, resumption, phase, exit]
  | @takes group rest phase going waiting =>
    let fewer : Consumer := { consumer with queue := rest }
    let stages := consumer.subscription.stages group
    have begun : (fewer.begin stages).ending ≤ stageWork consumer.subscription stages + 1 :=
      fewer.ending_begin stages
    have before : consumer.backlog =
        stageWork consumer.subscription stages + 2 + fewer.backlog := by
      simp only [backlog, waiting, List.map_cons, List.foldr_cons, fewer, stages]
    change (fewer.begin stages).pressing < _
    rw [pressing, pressing, resumption_begin, backlog_begin, before]
    omega
  | @completes delivery phase none =>
    have begun := consumer.ending_begin delivery.later
    have before : consumer.ending = deliveryWork consumer.subscription delivery := by
      simp only [ending, phase]
    rw [deliveryWork] at before
    rw [pressing, pressing, resumption_begin, backlog_begin]
    omega
  | skips phase order missing =>
    simp only [pressing, ending, backlog, resumption, phase, deliveryWork, order, List.length_cons]
    omega
  | @calls delivery slot rest trigger handler phase order found =>
    let calling := consumer.call slot handler { delivery with slots := rest }
    have less : calling.ending < consumer.ending := ending_call_lt phase order handler
    have begun : calling.pressing = calling.ending + consumer.backlog := rfl
    change calling.pressing < _
    rw [begun, pressing]
    omega
  | resumes phase heeds stopping =>
    simp [pressing, ending, backlog, resumption, phase, heeds]
  | @returns running delivery due phase waiting elapsed =>
    have before : deliveryWork consumer.subscription delivery + 1 + consumer.backlog ≤
        consumer.pressing := by
      have least := (ending_of_calling phase).1
      rw [pressing]
      omega
    have left : Consumer.pressing (consumer.record running delivery).exit = consumer.backlog :=
      Nat.zero_add _
    refine Nat.lt_of_lt_of_le ?_ before
    rw [finish]
    cases running.course.verdict with
    | ok =>
      change deliveryWork consumer.subscription delivery + consumer.backlog < _
      omega
    | failed reason =>
      rw [afterCall]
      split
      · omega
      · let paused : Consumer := { consumer.record running delivery with
          phase := .pausing (deadline consumer.now consumer.backoff) delivery }
        have ahead := lt_deadline consumer.now pauses
        have rests : paused.resumption = 0 := if_neg (Nat.not_le_of_lt ahead)
        have here : paused.pressing = 1 + consumer.backlog := by
          rw [pressing, rests]
          rfl
        change paused.pressing < _
        rw [here, deliveryWork]
        omega
    | panicked =>
      rw [afterCall]
      omega
  | surrenders phase stopping =>
    have before : 1 + consumer.backlog ≤ consumer.pressing := by
      simp [pressing, ending, phase]
    have left : consumer.exit.pressing = consumer.backlog := Nat.zero_add _
    omega
  | retries phase going elapsed =>
    simp only [pressing, ending, backlog, resumption, phase, deliveryWork, if_pos elapsed]
    omega

theorem settles_settleWithin {fuel : Nat} (pauses : 0 < consumer.backoff)
    (enough : consumer.pressing ≤ fuel) : consumer.Settles (settleWithin fuel consumer) := by
  induction fuel generalizing consumer with
  | zero =>
    cases taken : consumer.step? with
    | none => exact .rests taken
    | some next =>
      have less := (step_of_step? taken).pressing_lt pauses
      omega
  | succ fuel ih =>
    rw [settleWithin]
    cases taken : consumer.step? with
    | none => exact .rests taken
    | some next =>
      have step := step_of_step? taken
      have less := step.pressing_lt pauses
      exact .steps taken (ih (step.keeps.backoff ▸ pauses) (by omega))

/-- A consumer may take as many steps at one time as bring it to rest. -/
theorem Holds.pressing_le (holds : consumer.Holds groups) (pauses : 0 < consumer.backoff) :
    consumer.pressing ≤ consumer.work * consumer.patience := by
  have once : consumer.patience = 1 := if_neg (Nat.ne_of_gt pauses)
  rw [once, Nat.mul_one]
  change _ ≤ consumer.currentWork + 2 + consumer.backlog
  unfold pressing ending resumption currentWork
  cases phase : consumer.phase with
  | ready delivery =>
    have bound := deliveryWork_le (holds.at_phase phase).order
    dsimp only
    omega
  | calling running delivery =>
    have bound := deliveryWork_le ((List.suffix_cons _ _).trans (holds.at_phase phase).order)
    dsimp only
    split <;> omega
  | pausing due delivery =>
    dsimp only
    split <;> omega
  | _ =>
    dsimp only
    omega

theorem act_backoff (consumer : Consumer) (act : Act) :
    (consumer.act act).backoff = consumer.backoff := by
  cases act with
  | enqueue group =>
    rw [Consumer.act, enqueue]
    split <;> rfl
  | step =>
    rw [Consumer.act]
    cases taken : consumer.step? with
    | none => rfl
    | some next => exact (step_of_step? taken).keeps.backoff
  | _ => rfl

/-- A consumer on its course that pauses before it tries again. -/
structure Unhurried (consumer : Consumer) : Prop where
  pauses : 0 < consumer.backoff
  holds : ∃ groups, consumer.Holds groups

namespace Unhurried

theorem act (unhurried : consumer.Unhurried) (act : Act) : (consumer.act act).Unhurried := by
  obtain ⟨groups, holds⟩ := unhurried.holds
  exact ⟨(consumer.act_backoff act).symm ▸ unhurried.pauses, _, holds.act act⟩

theorem run (unhurried : consumer.Unhurried) (acts : List Act) : (consumer.run acts).Unhurried := by
  induction acts generalizing consumer with
  | nil => exact unhurried
  | cons act rest ih => exact ih (unhurried.act act)

theorem becomes (unhurried : consumer.Unhurried) (becomes : consumer.Becomes last) :
    last.Unhurried := by
  obtain ⟨acts, -, rfl⟩ := becomes
  exact unhurried.run acts

theorem settles (unhurried : consumer.Unhurried) : consumer.Settles consumer.settle := by
  obtain ⟨groups, holds⟩ := unhurried.holds
  exact settles_settleWithin unhurried.pauses (holds.pressing_le unhurried.pauses)

/-- It is enough to stop at as many times as there are on the way. -/
theorem settles_advanceWithin (unhurried : consumer.Unhurried) {fuel : Nat}
    (enough : time - consumer.now < fuel) :
    ∃ middle, consumer.Attains time middle ∧ middle.Settles (advanceWithin fuel time consumer) := by
  induction fuel generalizing consumer with
  | zero => omega
  | succ fuel ih =>
    have settles := unhurried.settles
    have quiet := settles.quiet
    have now := settles.now_eq
    -- Nothing is waited for until that time.
    have rests (ahead : ∀ due, consumer.settle.wake? = some due → time < due) :
        ∃ middle, consumer.Attains time middle ∧
          middle.Settles { consumer.settle with now := max consumer.settle.now time } := by
      by_cases past : time ≤ consumer.now
      · rw [Nat.max_eq_left (now ▸ past)]
        exact ⟨consumer, .past past, settles⟩
      · have later : consumer.now < time := Nat.lt_of_not_le past
        rw [Nat.max_eq_right (now ▸ Nat.le_of_lt later)]
        refine ⟨_, .later later (settles.comes (.arrives ⟨quiet, fun due same => ?_⟩)),
          .rests (step?_of_before quiet ahead)⟩
        exact Nat.le_of_lt (ahead due same)
    rw [advanceWithin]
    cases waits : consumer.settle.wake? with
    | none =>
      dsimp only
      exact rests fun due same => by cases waits.symm.trans same
    | some due =>
      dsimp only
      split
      · rename_i before
        have ahead := lt_of_wake? quiet waits
        rw [Nat.max_eq_right (Nat.le_of_lt ahead)]
        have woken : Unhurried { consumer.settle with now := due } :=
          unhurried.becomes (consumer.becomes_settle.trans (.clock _ due))
        obtain ⟨middle, attains, ends⟩ := ih woken (show time - due < fuel by omega)
        refine ⟨middle, .later (by omega) (settles.comes ?_), ends⟩
        have first (other : Nat) (same : consumer.settle.wake? = some other) : due ≤ other :=
          Nat.le_of_eq (Option.some.inj (waits.symm.trans same))
        cases attains with
        | past past =>
          obtain rfl : due = time := Nat.le_antisymm before past
          exact .arrives ⟨quiet, first⟩
        | later further comes => exact .wakes quiet waits further comes
      · refine rests fun other same => ?_
        obtain rfl := Option.some.inj (waits.symm.trans same)
        omega

theorem attains_reach (unhurried : consumer.Unhurried) (time : Nat) :
    consumer.Attains time (consumer.reach time) := by
  unfold reach
  split
  · exact .past ‹_›
  · obtain ⟨middle, attains, settles⟩ :
        ∃ middle, consumer.Attains (time - 1) middle ∧ middle.Settles (consumer.advance (time - 1)) :=
      unhurried.settles_advanceWithin (Nat.lt_succ_self _)
    have now : (consumer.advance (time - 1)).now = time - 1 := by
      rw [settles.now_eq, attains.now_eq]
      omega
    refine .of_ticks (attains.ticks.trans settles.ticks) ⟨settles.quiet, fun due waits => ?_⟩ ?_
    · have later := lt_of_wake? settles.quiet waits
      omega
    · omega

/-- To advance to a time is to reach it and to do what is due then. -/
theorem advance_eq (unhurried : consumer.Unhurried) (time : Nat) :
    consumer.advance time = (consumer.reach time).settle := by
  obtain ⟨middle, attains, settles⟩ :
      ∃ middle, consumer.Attains time middle ∧ middle.Settles (consumer.advance time) :=
    unhurried.settles_advanceWithin (Nat.lt_succ_self _)
  obtain rfl := attains.unique (unhurried.attains_reach time)
  exact settles.unique (unhurried.becomes (consumer.becomes_reach time)).settles

end Unhurried

end EventSourcing.Consumer
