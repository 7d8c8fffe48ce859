import EventSourcing.Proofs.Closing

/-!
What a shutdown waits for. The first one waits for every consumer. One that begins while the first
still waits, or after the first was given up, waits for nobody.
-/

namespace EventSourcing

namespace Consumer

/-- Who has left does nothing more. -/
theorem run_of_hasExited {consumer : Consumer} (exited : consumer.hasExited = true)
    (acts : List Act) :
    (consumer.run acts).hasExited = true ∧ (consumer.run acts).made = consumer.made := by
  obtain ⟨time, phase⟩ := hasExited_iff.mp exited
  obtain ⟨still, -, log⟩ := run_of_exited phase acts
  refine ⟨hasExited_iff.mpr ⟨time, still⟩, ?_⟩
  simp only [made, trials, still, log, phase]

end Consumer

namespace Dispatcher

theorem haveExited_iff (dispatcher : Dispatcher) (awaited : List Nat) :
    dispatcher.haveExited awaited = true ↔ ∀ place ∈ awaited, ∀ consumer : Consumer,
      dispatcher.consumers[place]? = some consumer → consumer.hasExited = true := by
  rw [haveExited, List.all_eq_true]
  refine forall₂_congr fun place _ => ?_
  cases dispatcher.consumers[place]? <;> simp

theorem GoesOn.haveExited {before after : Dispatcher} (goes : before.GoesOn after)
    {awaited : List Nat} (exited : before.haveExited awaited = true) :
    after.haveExited awaited = true := by
  rw [haveExited_iff] at exited ⊢
  intro place member consumer found
  obtain ⟨acts, same, -⟩ := goes.consumers place
  rw [found] at same
  obtain ⟨past, there, rfl⟩ := Option.map_eq_some_iff.mp same.symm
  exact (Consumer.run_of_hasExited (exited place member past there) _).1

theorem GoesOn.length_eq {before after : Dispatcher} (goes : before.GoesOn after) :
    after.consumers.length = before.consumers.length := by
  have same := congrArg List.length goes.names_eq
  simpa [names] using same

theorem unclaimed_publish (dispatcher : Dispatcher) (events : List StoredEvent) :
    (dispatcher.publish events).unclaimed = dispatcher.unclaimed := by
  unfold publish
  split <;> rfl

theorem unclaimed_of_sendBatch {dispatcher next : Dispatcher} {name : String}
    {events : List StoredEvent} (sent : dispatcher.sendBatch name events = .ok next) :
    next.unclaimed = dispatcher.unclaimed := by
  unfold sendBatch at sent
  split at sent
  · cases sent
  · split at sent
    · cases sent
    · obtain rfl := Except.ok.inj sent
      rfl

end Dispatcher

namespace Closing

/-- Whoever is told that a shutdown is over can rely on its consumers; the first shutdown waits for
all of them. -/
structure Inv (closing : Closing) : Prop where
  unclaimed : closing.waits = [] →
    closing.dispatcher.unclaimed = List.range closing.dispatcher.consumers.length
  first : ∀ awaited ∈ (closing.waits.map Wait.awaited).head?,
    awaited = List.range closing.dispatcher.consumers.length
  ended : ∀ wait ∈ closing.waits, wait.standing = .ended →
    closing.dispatcher.haveExited wait.awaited = true

variable {closing after : Closing} {number : Nat} {standing : Standing}

theorem awaited_leave (closing : Closing) (number : Nat) (standing : Standing) :
    (closing.leave number standing).waits.map Wait.awaited = closing.waits.map Wait.awaited := by
  refine List.ext_getElem? fun place => ?_
  simp only [leave, List.getElem?_map, List.getElem?_modify]
  cases closing.waits[place]? with
  | none => rfl
  | some wait =>
    by_cases here : number = place
    · by_cases waits : wait.standing = .waiting <;> simp [here, waits]
    · simp [here]

/-- Whoever stands otherwise after a shutdown has come to its end is the one that did. -/
theorem of_mem_leave {wait : Wait} (member : wait ∈ (closing.leave number standing).waits) :
    wait ∈ closing.waits ∨ wait.standing = standing ∧
      ∃ past, closing.waits[number]? = some past ∧ past.awaited = wait.awaited := by
  obtain ⟨place, found⟩ := List.mem_iff_getElem?.mp member
  rw [leave, List.getElem?_modify] at found
  obtain ⟨past, there, same⟩ := Option.map_eq_some_iff.mp found
  by_cases here : number = place ∧ past.standing = .waiting
  · obtain ⟨rfl, waits⟩ := here
    rw [if_pos rfl, if_pos waits] at same
    subst same
    exact .inr ⟨rfl, past, there, rfl⟩
  · have still : past = wait := by
      rw [← same]
      split
      · rw [if_neg fun waits => here ⟨‹_›, waits⟩]
      · rfl
    exact .inl (still ▸ List.mem_of_getElem? there)

namespace Inv

/-- What happens to the consumers changes nothing about those who wait for them. -/
theorem goes (inv : closing.Inv) (goes : closing.dispatcher.GoesOn after.dispatcher)
    (waits : after.waits = closing.waits)
    (unclaimed : after.dispatcher.unclaimed = closing.dispatcher.unclaimed) : after.Inv where
  unclaimed none := by
    rw [unclaimed, goes.length_eq]
    exact inv.unclaimed (waits ▸ none)
  first := by
    rw [waits, goes.length_eq]
    exact inv.first
  ended wait member ended := goes.haveExited (inv.ended wait (waits ▸ member) ended)

theorem shutdown (inv : closing.Inv) : closing.shutdown.Inv where
  unclaimed none := absurd none (List.append_ne_nil_of_right_ne_nil _ (List.cons_ne_nil _ _))
  first := by
    have length : closing.shutdown.dispatcher.consumers.length =
        closing.dispatcher.consumers.length := List.length_map _
    rw [length]
    cases waits : closing.waits with
    | nil =>
      intro awaited same
      rw [← inv.unclaimed waits]
      simpa [Closing.shutdown, waits, Dispatcher.beginShutdown, eq_comm] using same
    | cons wait rest =>
      have before := inv.first
      rw [waits] at before
      simpa [Closing.shutdown, waits] using before
  ended wait member ended := by
    rcases List.mem_append.mp member with old | new
    · exact (Dispatcher.GoesOn.beginShutdown _).haveExited (inv.ended wait old ended)
    · obtain rfl := List.mem_singleton.mp new
      cases ended

theorem leave (inv : closing.Inv)
    (told : standing = .ended → ∀ wait, closing.waits[number]? = some wait →
      closing.dispatcher.haveExited wait.awaited = true) :
    (closing.leave number standing).Inv where
  unclaimed none := by
    have same := closing.awaited_leave number standing
    rw [none, List.map_nil] at same
    exact inv.unclaimed (List.map_eq_nil_iff.mp same.symm)
  first := by
    rw [awaited_leave]
    exact inv.first
  ended wait member ended := by
    rcases of_mem_leave member with old | ⟨rfl, past, found, same⟩
    · exact inv.ended wait old ended
    · exact same ▸ told ended past found

theorem act (inv : closing.Inv) (action : Action) : (closing.act action).Inv := by
  have goes := closing.goesOn_act action
  cases action with
  | publish events => exact inv.goes goes rfl (Dispatcher.unclaimed_publish _ events)
  | sendBatch name events =>
    rw [Closing.act] at goes ⊢
    cases sent : closing.dispatcher.sendBatch name events with
    | ok dispatcher =>
      rw [sent] at goes
      exact inv.goes goes rfl (Dispatcher.unclaimed_of_sendBatch sent)
    | error error => exact inv
  | shutdown => exact inv.shutdown
  | look number =>
    rw [Closing.act, look]
    split
    · rename_i wait found
      split
      · refine inv.leave fun _ other same => ?_
        rw [found] at same
        obtain rfl := Option.some.inj same
        assumption
      · exact inv
    · exact inv
  | giveUp number => exact inv.leave fun same => Standing.noConfusion same
  | serve place => exact inv.goes goes rfl rfl
  | clock place time => exact inv.goes goes rfl rfl

theorem run (inv : closing.Inv) (actions : List Action) : (closing.run actions).Inv := by
  induction actions generalizing closing with
  | nil => exact inv
  | cons action rest ih => exact ih (inv.act action)

end Inv

theorem inv_opened {settings : DispatchSettings} {subscriptions : List Subscription}
    {dispatcher : Dispatcher} (started : Dispatcher.start settings subscriptions = .ok dispatcher) :
    (opened dispatcher).Inv where
  unclaimed _ := by
    rw [opened, Dispatcher.eq_of_start started, List.length_map]
  first := nofun
  ended _ member := nomatch member

/-- Once the first shutdown is over, every consumer has exited, and whatever follows, none makes a
call. -/
theorem exited_of_first_over {settings : DispatchSettings} {subscriptions : List Subscription}
    {dispatcher : Dispatcher} (started : Dispatcher.start settings subscriptions = .ok dispatcher)
    (actions later : List Action) {wait : Wait} :
    let closing := (opened dispatcher).run actions
    closing.waits.head? = some wait → wait.standing = .ended →
      ∀ (place : Nat) (consumer : Consumer), closing.dispatcher.consumers[place]? = some consumer →
        consumer.hasExited = true ∧
          ∃ last, (closing.run later).dispatcher.consumers[place]? = some last ∧
            last.hasExited = true ∧ last.made = consumer.made := by
  intro closing first ended place consumer found
  have inv : closing.Inv := (inv_opened started).run actions
  have exited : consumer.hasExited = true := by
    have all := inv.ended wait (List.mem_of_mem_head? first) ended
    rw [inv.first wait.awaited (by rw [List.head?_map, first]; rfl),
      Dispatcher.haveExited_iff] at all
    obtain ⟨inside, -⟩ := List.getElem?_eq_some_iff.mp found
    exact all place (List.mem_range.mpr inside) consumer found
  obtain ⟨acts, course, -⟩ := (closing.goesOn_run later).at_place found
  obtain ⟨still, made⟩ := Consumer.run_of_hasExited exited acts
  exact ⟨exited, _, course, still, made⟩

theorem exited_of_first_over_staff :
    let closing := (opened staff).run (working ++ [.shutdown, .clock 0 50] ++
      List.replicate 5 (.serve 0) ++ [.clock 0 100] ++ List.replicate 5 (.serve 0) ++ [.look 0])
    let later : List Action := [.shutdown, .serve 0, .clock 0 200, .serve 0]
    closing.waits.map Wait.standing = [.ended] ∧
      ∃ consumer last, closing.dispatcher.consumers[0]? = some consumer ∧
        (closing.run later).dispatcher.consumers[0]? = some last ∧
        consumer.hasExited = true ∧ consumer.made.length = 4 ∧ last.made = consumer.made := by
  intro closing later
  have started : Dispatcher.start {} crew = .ok staff := rfl
  have first : closing.waits.head? = some ⟨[0], .ended⟩ := by decide
  have calls : closing.dispatcher.consumers[0]?.map (·.made.length) = some 4 := by decide
  obtain ⟨consumer, found, four⟩ := Option.map_eq_some_iff.mp calls
  obtain ⟨exited, last, there, -, same⟩ :=
    exited_of_first_over started _ later first rfl 0 consumer found
  exact ⟨by decide, consumer, last, found, there, exited, four, same⟩

/-- Whether, after these actions, the second shutdown has waited for nobody and is over, while a call
is under way and further calls come after it. -/
def OverEarly (calls : List Action) : Prop :=
  let closing := (opened staff).run (working ++ calls)
  let later := closing.run [.clock 0 50, .serve 0, .serve 0]
  closing.waits[1]? = some ⟨[], .ended⟩ ∧
    closing.dispatcher.consumers.map Consumer.hasExited = [false] ∧
    (closing.dispatcher.consumers.map fun consumer =>
      (consumer.trials.length, consumer.made.length)) = [(0, 1)] ∧
    (later.dispatcher.consumers.map fun consumer =>
      (consumer.trials.length, consumer.made.length)) = [(1, 2)]

instance (calls : List Action) : Decidable (OverEarly calls) :=
  inferInstanceAs (Decidable (_ ∧ _ ∧ _ ∧ _))

/-- It is so while the first shutdown still waits, and after the first was given up. -/
theorem second_shutdown_over_early :
    OverEarly [.shutdown, .shutdown, .look 1] ∧
      OverEarly [.shutdown, .giveUp 0, .shutdown, .look 1] := by
  decide

end Closing

end EventSourcing
