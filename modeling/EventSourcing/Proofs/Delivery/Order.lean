import EventSourcing.Proofs.Delivery.Course

/-!
The order of delivery. However often handlers fail, the calls of a consumer are the first of those
that deliver its groups one after the other, each as a whole and then event by event.
-/

namespace EventSourcing

namespace Subscription

/-- Whether each handler that receives a stage has received it and not failed. -/
def Served (subscription : Subscription) (stage : Stage) (trials : List Trial) : Prop :=
  ∀ slot ∈ subscription.recipients stage, (⟨slot, stage, true⟩ : Trial) ∈ trials

/-- Without batch handlers a group as a whole has nowhere to go. -/
theorem served_batch {subscription : Subscription} {group : List StoredEvent} {done : List Stage}
    {trials : List Trial} (past : subscription.hasBatch = true → .batch group ∈ done)
    (served : ∀ stage ∈ done, subscription.Served stage trials) :
    subscription.Served (.batch group) trials := by
  cases batch : subscription.hasBatch with
  | true => exact served _ (past batch)
  | false =>
    intro slot member
    obtain ⟨handler, found⟩ := exists_of_mem_slotsOn member
    rw [hasBatch, List.any_eq_false] at batch
    exact absurd (decide_eq_true rfl) (batch _ (List.mem_of_getElem? found))

theorem batch_mem_stages {subscription : Subscription} (batch : subscription.hasBatch = true)
    (group : List StoredEvent) : .batch group ∈ subscription.stages group := by
  rw [stages, if_pos batch]
  exact List.mem_cons_self

theorem single_mem_stages (subscription : Subscription) {group : List StoredEvent}
    {event : StoredEvent} (member : event ∈ group) :
    .single event ∈ subscription.stages group :=
  List.mem_append_right _ (List.mem_map_of_mem member)

/-- A stage of a group is the group as a whole, or comes after it and after the earlier events. -/
theorem stages_eq_append {subscription : Subscription} {group : List StoredEvent}
    {before after : List Stage} {stage : Stage}
    (split : subscription.stages group = before ++ stage :: after) :
    stage = .batch group ∨
      ∃ first event others, group = first ++ event :: others ∧ stage = .single event ∧
        (subscription.hasBatch = true → .batch group ∈ before) ∧
        ∀ previous ∈ first, .single previous ∈ before := by
  have events {before : List Stage} (split : group.map Stage.single = before ++ stage :: after) :
      ∃ first event others, group = first ++ event :: others ∧ stage = .single event ∧
        before = first.map .single := by
    obtain ⟨first, rest, rfl, rfl, same⟩ := List.map_eq_append_iff.mp split
    obtain ⟨event, others, rfl, rfl, -⟩ := List.map_eq_cons_iff.mp same
    exact ⟨first, event, others, rfl, rfl, rfl⟩
  unfold stages at split
  split at split
  · rename_i batch
    cases before with
    | nil => exact .inl (List.cons.inj split).1.symm
    | cons opening before =>
      obtain ⟨rfl, rest⟩ := List.cons.inj split
      obtain ⟨first, event, others, whole, same, rfl⟩ := events rest
      refine .inr ⟨first, event, others, whole, same, fun _ => List.mem_cons_self, ?_⟩
      intro previous member
      exact List.mem_cons_of_mem _ (List.mem_map_of_mem member)
  · rename_i none
    obtain ⟨first, event, others, whole, same, rfl⟩ := events split
    refine .inr ⟨first, event, others, whole, same, fun batch => absurd batch none, ?_⟩
    intro previous member
    exact List.mem_map_of_mem member

/-- A stage of several groups is one of a certain group, after all of the groups before it. -/
theorem exists_group_of_stage {subscription : Subscription} {groups : List (List StoredEvent)}
    {done later : List Stage} {stage : Stage}
    (split : groups.flatMap subscription.stages = done ++ stage :: later) :
    ∃ earlier group others before after, groups = earlier ++ group :: others ∧
      subscription.stages group = before ++ stage :: after ∧
      done = earlier.flatMap subscription.stages ++ before := by
  induction groups generalizing done with
  | nil => simp at split
  | cons first rest ih =>
    rw [List.flatMap_cons] at split
    rcases append_eq_append_cons split with ⟨middle, rfl, later⟩ | ⟨after, whole, -⟩
    · obtain ⟨earlier, group, others, before, after, rfl, inside, rfl⟩ := ih later
      exact ⟨first :: earlier, group, others, before, after, rfl, inside, by simp⟩
    · exact ⟨[], first, rest, done, after, rfl, whole, rfl⟩

end Subscription

namespace Consumer

/-- A consumer's calls are the first of those that deliver its groups in their order; when it waits
for a group, they are all of them. So nothing of a group comes to any handler before each event of
the groups before it has been handled by all of its handlers, and no event before the group as a
whole and the earlier events of the group. -/
theorem delivers_in_order (subscription : Subscription) (backoff : Nat) (acts : List Act) :
    let consumer := run { subscription := subscription, backoff := backoff } acts
    let groups := offered acts
    (∃ word, subscription.Word (groups.flatMap subscription.stages) word ∧
        consumer.log.map Call.trial <+: consumer.made ∧ consumer.made <+: word) ∧
      (consumer.phase = .idle → consumer.queue = [] →
        subscription.Word (groups.flatMap subscription.stages) consumer.made) ∧
      ∀ before trial after, consumer.made = before ++ trial :: after →
        trial.slot ∈ subscription.recipients trial.stage ∧
          ∃ earlier group later, groups = earlier ++ group :: later ∧
            (∀ past ∈ earlier, ∀ event ∈ past, subscription.Served (.single event) before) ∧
            (∀ past ∈ earlier, subscription.Served (.batch past) before) ∧
            (trial.stage = .batch group ∨
              ∃ first event others, group = first ++ event :: others ∧
                trial.stage = .single event ∧ subscription.Served (.batch group) before ∧
                ∀ previous ∈ first, subscription.Served (.single previous) before) := by
  intro consumer groups
  have same : consumer.subscription = subscription := run_subscription _ acts
  have unfed : Stands { subscription := subscription, backoff := backoff } [] .starting :=
    ⟨[], rfl, .nil⟩
  have stands : consumer.Stands (groups.flatMap subscription.stages) consumer.phase :=
    unfed.run acts
  obtain ⟨word, whole, first⟩ := stands.exists_word
  rw [same] at whole
  refine ⟨⟨word, whole, List.prefix_append _ _, first⟩, ?_, ?_⟩
  · intro idle empty
    obtain ⟨done, all, word⟩ := stands.at_phase idle
    rw [same] at word
    rw [all, ahead, empty, List.flatMap_nil, List.append_nil, made, idle, List.append_nil]
    exact word
  · intro before trial after split
    obtain ⟨rest, extended⟩ := first
    rw [split, List.append_assoc, List.cons_append] at extended
    obtain ⟨done, last, stages, inside, served⟩ := whole.exists_stage extended.symm
    obtain ⟨earlier, group, others, opening, closing, found, position, rfl⟩ :=
      Subscription.exists_group_of_stage stages
    have past (stage : Stage) {group : List StoredEvent} (member : group ∈ earlier)
        (part : stage ∈ subscription.stages group) :
        stage ∈ earlier.flatMap subscription.stages ++ opening :=
      List.mem_append_left _ (List.mem_flatMap.mpr ⟨group, member, part⟩)
    refine ⟨inside, earlier, group, others, found, ?_, ?_, ?_⟩
    · intro group member event part
      exact served _ (past _ member (subscription.single_mem_stages part))
    · intro group member
      exact Subscription.served_batch
        (fun batch => past _ member (Subscription.batch_mem_stages batch group)) served
    · rcases Subscription.stages_eq_append position with
        whole | ⟨first, event, others, split, single, batch, previous⟩
      · exact .inl whole
      · refine .inr ⟨first, event, others, split, single, ?_, ?_⟩
        · exact Subscription.served_batch
            (fun some => List.mem_append_right _ (batch some)) served
        · intro other member
          exact served _ (List.mem_append_right _ (previous other member))

end Consumer

end EventSourcing
