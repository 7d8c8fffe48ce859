import EventSourcing.Proofs.Desk
import EventSourcing.Proofs.Holders.Course
import EventSourcing.Proofs.Replay

/-!
What stays true at a desk: an aggregate in hand is what its version says, the replay of the events
up to there with its pending events applied, as long as its saves were in step with its stream.
-/

namespace EventSourcing

namespace Store.Wrote

variable {settings : StoreSettings} {listed : List StoreSettings} {store : Store} {write : Write}
  {written : Written Store}

/-- A write takes no event away. -/
theorem grows (wrote : store.Wrote settings write written) (key : StreamKey) :
    (store.stream key).events <+: (written.state.stream key).events := by
  cases wrote with
  | commits => exact store.prefix_submit _ key
  | _ => exact List.prefix_refl _

/-- A write leaves all streams alone but its own. -/
theorem spares (wrote : store.Wrote settings write written) {key : StreamKey}
    (other : write.stream ≠ key) : written.state.stream key = store.stream key := by
  cases wrote with
  | commits filled proper planned =>
    rw [stream_submit, if_neg]
    rintro ⟨same, -⟩
    exact other (planned.stream.symm.trans same.symm)
  | _ => rfl

theorem follows (wrote : store.Wrote settings write written) (member : settings ∈ listed)
    {commits : List Commit} (follows : store.Follows listed commits) :
    ∃ more, written.state.Follows listed more := by
  cases wrote with
  | commits filled proper planned accepted =>
    exact ⟨_, follows.submit member planned proper filled accepted 0⟩
  | _ => exact ⟨commits, follows⟩

end Store.Wrote

variable {κ : Type} [EventFamily κ]

/-- Nothing is loaded by `get` that `tryGet` does not find. -/
theorem Repository.get_eq_ok_iff {σ : Type} (repository : Repository κ σ)
    (id : repository.type.Id) (state : σ) (snapshot : Snapshot repository.type) :
    (repository.get id state).1 = .ok snapshot ↔
      (repository.tryGet id state).1 = .ok (some snapshot) := by
  unfold get
  cases answer : (repository.tryGet id state).1 with
  | error error => simp [answer]
  | ok found => cases found <;> simp [answer]

theorem AggregateType.replays_of_rehydrate {type : AggregateType κ}
    (stateOnly : type.registry.StateOnly) {id : type.Id} {events : List StoredEvent}
    {snapshot : Snapshot type} (found : type.rehydrate id events = .ok (some snapshot)) :
    snapshot.aggregate.pending = [] ∧
      type.Replays (type.blank id) events { state := snapshot.aggregate.state } := by
  cases events with
  | nil => simp [rehydrate] at found
  | cons event rest =>
    simp only [rehydrate] at found
    cases replayed : type.replay false (type.blank id) (event :: rest) with
    | mk target outcome =>
      cases outcome with
      | error fault => simp [replayed, Except.map] at found
      | ok count =>
        simp only [replayed, Except.map, Except.ok.injEq, Option.some.injEq] at found
        subst found
        have replays : type.Replays (type.blank id) (event :: rest) target := ⟨count, replayed⟩
        have nothing : target.pending = [] := pending_of_replays stateOnly replays
        have same : target = { state := target.state } := by rw [← nothing]
        exact ⟨nothing, same ▸ replays⟩

theorem AggregateType.pending_of_saveRequest {type : AggregateType κ} {stream : StreamKey}
    {id : type.Id} {snapshot : Snapshot type} {expected : ExpectedVersion} {origin : Origin}
    (made : type.saveRequest stream id snapshot expected origin = .ok none) :
    snapshot.aggregate.pending = [] := by
  have requested := type.requested_saveRequest stream id snapshot expected origin
  rw [made] at requested
  cases requested with
  | nothing rests => exact rests

variable {ι : Type} {types : ι → AggregateType κ}

namespace Desk

section

variable [DecidableEq ι]

/-- All that a save to `stream` can do. -/
inductive Saved (desk : Desk types) (h : ι) (held : Held (types h)) (stream : StreamKey)
    (expected : ExpectedVersion) (origin : Origin) : Except Error Unit → Desk types → Prop where
  | fails {error : Error} {planner : Planner}
      (same : planner.settings = desk.planner.settings) :
      Saved desk h held stream expected origin (.error error)
        ({ desk with planner := planner }.place h held)
  | rests (nothing : held.snapshot.aggregate.pending = []) :
      Saved desk h held stream expected origin (.ok ()) (desk.place h held)
  | repeats {planner : Planner} (same : planner.settings = desk.planner.settings)
      (waiting : held.snapshot.aggregate.pending ≠ []) (known : origin.initiator ≠ Uuid.nil)
      (found : desk.store.containsInitiator stream origin.initiator = true) :
      Saved desk h held stream expected origin (.ok ())
        ({ desk with planner := planner }.place h
          { held with
            snapshot := held.snapshot.saved ((desk.store.header stream).getD Version.absent)
            landings := held.landings ++ [Landing.mk stream held.snapshot.version none] })
  | commits {planner : Planner} {request : Write} {transaction : Transaction}
      (same : planner.settings = desk.planner.settings) (onto : request.stream = stream)
      (asks : held.snapshot.Asks request) (proper : transaction.baseline.Proper)
      (planned : Planned desk.planner.settings request transaction.baseline transaction)
      (accepted : (desk.store.stream transaction.stream).accepts transaction = true)
      (once : expected ≠ .any ∨ desk.planner.settings.retryLimit = 0 →
        transaction.baseline = held.snapshot.version) :
      Saved desk h held stream expected origin (.ok ())
        ({ desk with planner := planner, store := (desk.store.submit transaction).1 }.place h
          { held with
            snapshot := held.snapshot.saved transaction.newVersion
            landings := held.landings ++
              [Landing.mk stream held.snapshot.version (some transaction.baseline)] })

theorem saved_save {desk : Desk types} {commits : List Commit}
    (follows : desk.store.Follows [desk.planner.settings] commits) (h : ι)
    (held : Held (types h)) (proper : held.snapshot.version.Proper) (naming : StreamNaming)
    (id : (types h).Id) (expected : ExpectedVersion) (origin : Origin) :
    let (answer, after) := desk.save h held naming id expected origin
    Saved desk h held (((types h).over naming).stream id) expected origin answer after := by
  let stream := ((types h).over naming).stream id
  cases made : (types h).saveRequest stream id held.snapshot expected origin with
  | error error =>
    have refused : ((types h).over naming).type.saveRequest stream id held.snapshot expected
      origin = .error error := made
    simp only [save, Repository.save, landing?, stream, made, refused, List.append_nil,
      Option.toList_none]
    exact .fails rfl
  | ok asked =>
    have granted : ((types h).over naming).type.saveRequest stream id held.snapshot expected
      origin = .ok asked := made
    cases asked with
    | none =>
      simp only [save, Repository.save, landing?, stream, made, granted, List.append_nil,
        Option.toList_none]
      exact .rests (AggregateType.pending_of_saveRequest made)
    | some request =>
      have asks := AggregateType.asks_of_saveRequest made
      obtain ⟨onto, same, signed⟩ := AggregateType.fields_of_saveRequest made
      obtain ⟨wrote, kept⟩ := follows.wrote desk.planner (asks.retrieved ▸ proper)
      have storage : ((types h).over naming).storage = Store.storage := rfl
      simp only [save, Repository.save, landing?, stream, made, granted, storage, Store.storage]
      generalize Store.backend.write desk.planner request desk.store = written at wrote kept
      cases wrote with
      | rests empty => exact absurd empty asks.filled
      | fails =>
        simp only [Option.toList_none, List.append_nil]
        exact .fails kept
      | repeats known found =>
        have initiator : request.origin.initiator = origin.initiator := by
          rw [signed]
          rfl
        rw [initiator] at known found
        rw [onto] at found ⊢
        have waiting : held.snapshot.aggregate.pending ≠ [] := by
          intro nothing
          have none := asks.encoded
          rw [nothing] at none
          exact asks.filled (Except.ok.inj none).symm
        exact .repeats kept waiting known found
      | commits filled proper planned accepted once =>
        refine .commits kept onto asks proper planned accepted fun fixed => ?_
        exact (once (same ▸ fixed)).trans asks.retrieved

/-- After a save that ends well nothing is pending. -/
theorem Saved.rested {desk after : Desk types} {h : ι} {held : Held (types h)} {stream : StreamKey}
    {expected : ExpectedVersion} {origin : Origin}
    (saved : Saved desk h held stream expected origin (.ok ()) after) :
    ∃ now, after.held h = some now ∧ now.snapshot.aggregate.pending = [] := by
  cases saved with
  | rests nothing => exact ⟨held, place_self desk h held, nothing⟩
  | repeats => exact ⟨_, place_self _ h _, rfl⟩
  | commits => exact ⟨_, place_self _ h _, rfl⟩

end

end Desk

/-- Whether a save went on in the stream from where the aggregate stood. -/
def Landing.InStep (stream : StreamKey) (landing : Landing) : Prop :=
  landing.stream = stream ∧ landing.base = some landing.held

instance (stream : StreamKey) (landing : Landing) : Decidable (landing.InStep stream) :=
  inferInstanceAs (Decidable (_ ∧ _))

namespace Held

variable {type : AggregateType κ} [DecidableEq κ]

/-- Whether an aggregate is what its version says: the events of its stream up to there are replayed
to a state, and from this state its pending events lead to the one that it has. -/
def Stands (held : Held type) (store : Store) : Prop :=
  ∃ seen state, seen <+: (store.stream held.stream).events ∧
    held.snapshot.version = Version.ofCount seen.length ∧
    type.Replays (type.blank held.id) seen { state := state } ∧
    type.applyAll { state := state } held.snapshot.aggregate.pending = .ok held.snapshot.aggregate

structure Sound (held : Held type) (store : Store) : Prop where
  proper : held.snapshot.version.Proper
  stands : (∀ landing ∈ held.landings, landing.InStep held.stream) → held.Stands store

variable {held : Held type} {store store' : Store}

theorem Stands.grow (stands : held.Stands store)
    (grows : (store.stream held.stream).events <+: (store'.stream held.stream).events) :
    held.Stands store' := by
  obtain ⟨seen, state, before, counted, replays, applied⟩ := stands
  exact ⟨seen, state, before.trans grows, counted, replays, applied⟩

theorem Sound.grow (sound : held.Sound store)
    (grows : (store.stream held.stream).events <+: (store'.stream held.stream).events) :
    held.Sound store' where
  proper := sound.proper
  stands inStep := (sound.stands inStep).grow grows

/-- An aggregate without a history stands before all events. -/
theorem sound_blank (stream : StreamKey) (id : type.Id) (store : Store) :
    ({ stream := stream, id := id, snapshot := { aggregate := type.blank id } } : Held type).Sound
      store where
  proper := Int.le_refl _
  stands _ := ⟨[], type.initial id, List.nil_prefix, rfl, .nil, rfl⟩

/-- A loaded aggregate stands behind all events. -/
theorem sound_loaded (stateOnly : type.registry.StateOnly) {stream : StreamKey} {id : type.Id}
    {snapshot : Snapshot type}
    (found : type.rehydrate id (store.stream stream).events = .ok (some snapshot)) :
    ({ stream := stream, id := id, snapshot := snapshot } : Held type).Sound store := by
  have version := AggregateType.version_of_rehydrate found
  obtain ⟨nothing, replays⟩ := AggregateType.replays_of_rehydrate stateOnly found
  obtain ⟨⟨state, pending⟩, reached⟩ := snapshot
  obtain rfl : pending = [] := nothing
  exact ⟨version ▸ Version.proper_ofCount _,
    fun _ => ⟨_, state, List.prefix_refl _, version, replays, rfl⟩⟩

theorem Sound.applied (sound : held.Sound store) (faithful : type.Faithful) {event : Event κ}
    {changed : Aggregate κ type.State}
    (applied : type.apply held.snapshot.aggregate event = .ok changed) :
    { held with snapshot := { held.snapshot with aggregate := changed } }.Sound store := by
  refine ⟨sound.proper, fun inStep => ?_⟩
  obtain ⟨seen, state, before, counted, replays, first⟩ := sound.stands inStep
  refine ⟨seen, state, before, counted, replays, ?_⟩
  change type.applyAll { state := state } changed.pending = .ok changed
  rw [(faithful.apply applied).1]
  exact AggregateType.applyAll_snoc first applied

/-- A commit from where an aggregate stands takes it to the end of its stream. -/
theorem Stands.committed (stands : held.Stands store) (faithful : type.Faithful)
    (sound : (store.stream held.stream).Sound held.stream) {settings : StoreSettings}
    {request : Write} {transaction : Transaction} (onto : request.stream = held.stream)
    (asks : held.snapshot.Asks request) (proper : transaction.baseline.Proper)
    (planned : Planned settings request transaction.baseline transaction)
    (accepted : (store.stream transaction.stream).accepts transaction = true)
    (start : transaction.baseline = held.snapshot.version) (landings : List Landing) :
    { held with
      snapshot := held.snapshot.saved transaction.newVersion
      landings := landings }.Stands (store.submit transaction).1 := by
  obtain ⟨seen, state, before, counted, replays, applied⟩ := stands
  have here : transaction.stream = held.stream := planned.stream.trans onto
  rw [here] at accepted
  have reached := sound.start_eq planned proper accepted
  -- The version of the aggregate is that of the stream, so it has seen all events.
  have whole : seen = (store.stream held.stream).events := by
    apply before.eq_of_length
    have same := reached.symm.trans (start.trans counted)
    simp only [Version.ofCount, Version.mk.injEq] at same
    omega
  have stored : (store.submit transaction).1.stream held.stream =
      (store.stream held.stream).apply transaction := by
    rw [Store.stream_submit, if_pos ⟨here.symm, accepted⟩]
  have landed : ((store.submit transaction).1.stream held.stream).events =
      seen ++ transaction.events := by
    rw [stored, Stream.events_apply, whole]
  refine ⟨seen ++ transaction.events, held.snapshot.aggregate.state, ?_, ?_, ?_, rfl⟩
  · exact landed ▸ List.prefix_refl _
  · rw [← landed, stored]
    exact planned.newVersion_eq reached
  · exact replays.append (faithful.applyAll applied asks.encoded planned.content)

end Held

namespace Desk

variable [DecidableEq κ]

/-- What stays true at a desk, whatever is done. -/
structure Inv (desk : Desk types) : Prop where
  follows : ∃ commits, desk.store.Follows [desk.planner.settings] commits
  held : ∀ h held, desk.held h = some held → held.Sound desk.store

theorem inv_opened (types : ι → AggregateType κ) (planner : Planner) :
    (opened types planner).Inv where
  follows := ⟨[], Store.follows_empty _⟩
  held _ _ none := nomatch none

namespace Inv

variable {desk : Desk types}

/-- The store goes on, and the hands keep what they have. -/
theorem grow (inv : desk.Inv) {planner : Planner} {store : Store}
    (same : planner.settings = desk.planner.settings)
    (follows : ∃ commits, store.Follows [desk.planner.settings] commits)
    (grows : ∀ key, (desk.store.stream key).events <+: (store.stream key).events) :
    { desk with planner := planner, store := store }.Inv where
  follows := same ▸ follows
  held h taken again := (inv.held h taken again).grow (grows taken.stream)

variable [DecidableEq ι]

theorem place (inv : desk.Inv) {h : ι} {held : Held (types h)} (sound : held.Sound desk.store) :
    (desk.place h held).Inv where
  follows := inv.follows
  held other taken again := by
    by_cases here : other = h
    · subst here
      rw [place_self] at again
      exact Option.some.inj again ▸ sound
    · rw [place_of_ne _ here] at again
      exact inv.held other taken again

theorem load (inv : desk.Inv) (h : ι) (naming : StreamNaming) (id : (types h).Id)
    {answer : Except Error (Option (Snapshot (types h)))}
    (sound : ∀ snapshot, answer = .ok (some snapshot) →
      ({ stream := ((types h).over naming).stream id, id := id, snapshot := snapshot } :
        Held (types h)).Sound desk.store) :
    (desk.load h naming id answer).Inv := by
  unfold Desk.load
  split
  · exact inv.place (sound _ rfl)
  · exact inv

/-- The step for a save. -/
theorem saved (inv : desk.Inv) {h : ι} (faithful : (types h).Faithful) {held : Held (types h)}
    (sound : held.Sound desk.store) {stream : StreamKey} {expected : ExpectedVersion}
    {origin : Origin} {answer : Except Error Unit} {after : Desk types}
    (saved : Saved desk h held stream expected origin answer after) : after.Inv := by
  obtain ⟨commits, follows⟩ := inv.follows
  cases saved with
  | fails same => exact (inv.grow same inv.follows fun _ => List.prefix_refl _).place sound
  | rests nothing => exact inv.place sound
  | repeats same waiting known found =>
    refine (inv.grow same inv.follows fun _ => List.prefix_refl _).place ⟨?_, ?_⟩
    · change Version.Proper (Option.getD _ _)
      rw [follows.header_getD]
      exact Version.proper_ofCount _
    · intro inStep
      have last := inStep ⟨stream, held.snapshot.version, none⟩ (by simp)
      cases last.2
  | @commits planner request transaction same onto asks proper planned accepted once =>
    have grown := follows.submit (List.mem_singleton.mpr rfl) planned proper asks.filled accepted 0
    have grows := desk.store.prefix_submit transaction
    refine (inv.grow same ⟨_, grown⟩ grows).place ⟨?_, ?_⟩
    · change transaction.newVersion.Proper
      rw [planned.newVersion]
      simp only [Version.Proper, Version.advance] at proper ⊢
      omega
    · intro inStep
      obtain ⟨here, from_⟩ := inStep ⟨stream, held.snapshot.version, _⟩
        (List.mem_append_right _ (List.mem_singleton.mpr rfl))
      have stands := sound.stands fun landing member =>
        inStep landing (List.mem_append_left _ member)
      exact stands.committed faithful (follows.streams _) (onto.trans here) asks proper planned
        accepted (Option.some.inj from_) _

theorem act (inv : desk.Inv) (faithful : ∀ h, (types h).Faithful) (operation : Operation types) :
    (desk.act operation).Inv := by
  cases operation with
  | create h naming id =>
    change (desk.load h naming id (.ok (some { aggregate := (types h).blank id }))).Inv
    refine inv.load h naming id ?_
    intro snapshot found
    obtain rfl := Option.some.inj (Except.ok.inj found)
    exact Held.sound_blank _ id _
  | get h naming id =>
    refine inv.load h naming id ?_
    intro snapshot found
    cases got : (((types h).over naming).get id (desk.planner, desk.store)).1 with
    | error error => simp [got, Except.map] at found
    | ok loaded =>
      rw [got] at found
      obtain rfl := Option.some.inj (Except.ok.inj found)
      have tried := (((types h).over naming).get_eq_ok_iff id (desk.planner, desk.store) loaded).mp
        got
      exact Held.sound_loaded (faithful h).stateOnly tried
  | tryGet h naming id =>
    refine inv.load h naming id ?_
    intro snapshot found
    exact Held.sound_loaded (faithful h).stateOnly found
  | apply h event =>
    simp only [Desk.act]
    split
    · exact inv
    · rename_i held found
      split
      · rename_i changed applied
        exact inv.place ((inv.held h held found).applied (faithful h) applied)
      · exact inv
  | save h naming id expected origin =>
    simp only [Desk.act]
    split
    · exact inv
    · rename_i held found
      obtain ⟨commits, follows⟩ := inv.follows
      have sound := inv.held h held found
      exact inv.saved (faithful h) sound
        (saved_save follows h held sound.proper naming id expected origin)
  | write request proper =>
    obtain ⟨commits, follows⟩ := inv.follows
    obtain ⟨wrote, same⟩ := follows.wrote desk.planner proper
    exact inv.grow same (wrote.follows (List.mem_singleton.mpr rfl) follows) wrote.grows

theorem run (inv : desk.Inv) (faithful : ∀ h, (types h).Faithful)
    (operations : List (Operation types)) : (desk.run operations).Inv := by
  induction operations generalizing desk with
  | nil => exact inv
  | cons operation rest ih => exact ih (inv.act faithful operation)

end Inv

end Desk

end EventSourcing
