import EventSourcing.Proofs.Desk.Course
import EventSourcing.Proofs.Sample

/-!
Whether an aggregate that was saved is what its version says. The version is that of the stream, as
the write has left it; so it covers events that the aggregate has not seen if the write was planned
again behind them, or was taken for a repetition.
-/

namespace EventSourcing

/-- The events of a stream up to a version. -/
def Store.upTo (store : Store) (key : StreamKey) (version : Version) : List StoredEvent :=
  (store.stream key).events.filter fun event => event.position ≤ version.value

/-- The events up to a version are the first ones. -/
theorem Store.upTo_ofCount {store : Store} {key : StreamKey} (sound : (store.stream key).Sound key)
    {seen : List StoredEvent} (before : seen <+: (store.stream key).events) :
    store.upTo key (Version.ofCount seen.length) = seen := by
  obtain ⟨rest, whole⟩ := before
  have positions := sound.places
  rw [← whole, List.map_append, List.length_append, ← places_append] at positions
  obtain ⟨early, late⟩ := List.append_inj positions (by simp)
  have kept : seen.filter (fun event => event.position ≤ (Version.ofCount seen.length).value) =
      seen := by
    apply List.filter_eq_self.mpr
    intro event member
    have place := early ▸ List.mem_map_of_mem (f := StoredEvent.position) member
    have bounds := mem_places.mp place
    apply decide_eq_true
    simp only [Version.ofCount]
    omega
  have dropped : rest.filter (fun event => event.position ≤ (Version.ofCount seen.length).value) =
      [] := by
    apply List.filter_eq_nil_iff.mpr
    intro event member inside
    have place := late ▸ List.mem_map_of_mem (f := StoredEvent.position) member
    have bounds := mem_places.mp place
    have reached := of_decide_eq_true inside
    simp only [Version.ofCount] at reached
    omega
  rw [upTo, ← whole, List.filter_append, kept, dropped, List.append_nil]

variable {κ : Type} [EventFamily κ]

/-- Whether the state of an aggregate is the replay of just the events that its version covers. -/
def AggregateType.Coherent (type : AggregateType κ) (id : type.Id) (stream : StreamKey)
    (snapshot : Snapshot type) (store : Store) : Prop :=
  type.Replays (type.blank id) (store.upTo stream snapshot.version)
    { state := snapshot.aggregate.state }

theorem AggregateType.not_coherent {type : AggregateType κ} {id : type.Id} {stream : StreamKey}
    {snapshot : Snapshot type} {store : Store} {α : Type} (view : type.State → α)
    {replayed held : α}
    (leads : view (type.replay false (type.blank id)
      (store.upTo stream snapshot.version)).target.state = replayed)
    (shows : view snapshot.aggregate.state = held) (differ : replayed ≠ held) :
    ¬type.Coherent id stream snapshot store := by
  rintro ⟨count, same⟩
  rw [same] at leads
  exact differ (leads.symm.trans shows)

theorem Held.Stands.coherent [DecidableEq κ] {type : AggregateType κ} {held : Held type}
    {store : Store} (stands : held.Stands store)
    (sound : (store.stream held.stream).Sound held.stream)
    (nothing : held.snapshot.aggregate.pending = []) :
    type.Coherent held.id held.stream held.snapshot store := by
  obtain ⟨seen, state, before, counted, replays, applied⟩ := stands
  rw [nothing] at applied
  have same : { state := state } = held.snapshot.aggregate := Except.ok.inj applied
  rw [AggregateType.Coherent, counted, Store.upTo_ofCount sound before, ← same]
  exact replays

namespace Desk

variable {ι : Type} [DecidableEq ι] [DecidableEq κ]

/-- A save that ends well leaves an aggregate that is what its version says, if this save and those
before it were in step: committed in the stream of the aggregate from the version that it had. A
save can fall out of step only in a stream that is not that of the aggregate, as a repetition of
what its initiator has written there, or as one at any version that is planned again. -/
theorem coherent_of_inStep (types : ι → AggregateType κ) (faithful : ∀ h, (types h).Faithful)
    (planner : Planner) (operations : List (Operation types)) (h : ι) (naming : StreamNaming)
    (id : (types h).Id) (expected : ExpectedVersion) (origin : Origin) :
    let desk := (opened types planner).run operations
    let stream := ((types h).over naming).stream id
    ∀ held after, desk.held h = some held →
      desk.save h held naming id expected origin = (.ok (), after) →
        ∃ now, after.held h = some now ∧ now.snapshot.aggregate.pending = [] ∧
          ((∀ landing ∈ now.landings, landing.InStep now.stream) →
            (types h).Coherent now.id now.stream now.snapshot after.store) ∧
          (held.snapshot.aggregate.pending = [] ∧ now = held ∨
            ∃ base, now.landings = held.landings ++ [⟨stream, held.snapshot.version, base⟩] ∧
              (base = none → origin.initiator ≠ Uuid.nil ∧
                desk.store.containsInitiator stream origin.initiator = true) ∧
              (base ≠ none → expected ≠ .any ∨ desk.planner.settings.retryLimit = 0 →
                base = some held.snapshot.version)) := by
  intro desk stream held after found saved
  have inv : desk.Inv := (inv_opened types planner).run faithful operations
  have sound := inv.held h held found
  obtain ⟨commits, follows⟩ := inv.follows
  have ended := saved_save follows h held sound.proper naming id expected origin
  rw [saved] at ended
  have later := inv.saved (faithful h) sound ended
  obtain ⟨more, followed⟩ := later.follows
  have coherent : ∀ now, after.held h = some now → now.snapshot.aggregate.pending = [] →
      (∀ landing ∈ now.landings, landing.InStep now.stream) →
        (types h).Coherent now.id now.stream now.snapshot after.store := by
    intro now taken nothing inStep
    exact ((later.held h now taken).stands inStep).coherent (followed.streams _) nothing
  cases ended with
  | rests nothing =>
    have taken : (desk.place h held).held h = some held := desk.place_self h held
    exact ⟨held, taken, nothing, coherent held taken nothing, .inl ⟨nothing, rfl⟩⟩
  | repeats same waiting known found =>
    refine ⟨_, place_self _ h _, rfl, coherent _ (place_self _ h _) rfl, .inr ?_⟩
    exact ⟨none, rfl, fun _ => ⟨known, found⟩, fun based => absurd rfl based⟩
  | commits same onto asks proper planned accepted once =>
    refine ⟨_, place_self _ h _, rfl, coherent _ (place_self _ h _) rfl, .inr ?_⟩
    exact ⟨some _, rfl, nofun, fun _ fixed => congrArg some (once fixed)⟩

/-- A counter that is saved twice, each time by a cause of its own. -/
def counted : Desk fun _ : Unit => Sample.counter :=
  (opened _ .plain).run
    [.create () .byType "t", .apply () ⟨.incremented, (1 : Int32)⟩, .save () .byType "t" .none {},
      .apply () ⟨.incremented, (2 : Int32)⟩]

theorem coherent_counted :
    ∃ held now after, counted.held () = some held ∧
      counted.save () held .byType "t" .any {} = (.ok (), after) ∧ after.held () = some now ∧
      (∀ landing ∈ now.landings, landing.InStep now.stream) ∧
      Sample.counter.Coherent now.id now.stream now.snapshot after.store := by
  obtain ⟨now, taken, -, coherent, -⟩ :=
    coherent_of_inStep (fun _ : Unit => Sample.counter) (fun _ => Sample.faithful_counter) .plain
      [.create () .byType "t", .apply () ⟨.incremented, (1 : Int32)⟩, .save () .byType "t" .none {},
        .apply () ⟨.incremented, (2 : Int32)⟩] () .byType "t" .any {} _ _ rfl rfl
  have inStep : ∀ landing ∈ now.landings, landing.InStep now.stream := by
    obtain rfl := Option.some.inj taken
    decide
  exact ⟨_, now, _, rfl, rfl, taken, inStep, coherent inStep⟩

variable {types : ι → AggregateType κ}

/-- Whether a save that ends well leaves an aggregate that is not what its version says, in the
stream where it was taken up as in the one that it was saved to. -/
def Misleads (desk : Desk types) (h : ι) (naming : StreamNaming) (id : (types h).Id)
    (expected : ExpectedVersion) (origin : Origin) : Prop :=
  ∃ held now after, desk.held h = some held ∧
    desk.save h held naming id expected origin = (.ok (), after) ∧ after.held h = some now ∧
    ¬(types h).Coherent now.id now.stream now.snapshot after.store ∧
    ¬(types h).Coherent id (((types h).over naming).stream id) now.snapshot after.store

/-- The second save has the cause of the first. -/
def repeated : Desk fun _ : Unit => Sample.counter :=
  (opened _ .plain).run
    [.create () .byType "t", .apply () ⟨.incremented, (1 : Int32)⟩,
      .save () .byType "t" .none { initiator := Uuid.ofNat 7 },
      .apply () ⟨.incremented, (2 : Int32)⟩]

/-- Two have the counter in hand, and the first has saved it. -/
def contended : Desk fun _ : Bool => Sample.counter :=
  (opened _ { Planner.plain with settings := { retryLimit := 1 } }).run
    [.create false .byType "t", .create true .byType "t",
      .apply false ⟨.incremented, (1 : Int32)⟩, .apply true ⟨.incremented, (2 : Int32)⟩,
      .save false .byType "t" .none {}]

def unsaved : Desk fun _ : Unit => Sample.counter :=
  (opened _ .plain).run [.create () .byType "t", .apply () ⟨.incremented, (1 : Int32)⟩]

/-- A counter whose handler takes away what is pending. -/
def forgetful : AggregateType Sample.Kind :=
  { Sample.counter with
    registry := ({} : Registry Sample.Kind Sample.Counter).on .incremented fun target step =>
      { state := target.state.increment step } }

def forgotten : Desk fun _ : Unit => forgetful :=
  (opened _ .plain).run
    [.create () .byType "t", .apply () ⟨.incremented, (1 : Int32)⟩,
      .apply () ⟨.incremented, (2 : Int32)⟩]

inductive Note where
  | taken
  deriving DecidableEq

/-- Notes of which only the name is stored. -/
instance : EventFamily Note where
  Payload _ := Nat
  name _ := "Taken"
  encode _ _ := .ok .null
  decode _ _ := .ok (0 : Nat)

def notebook : AggregateType Note where
  name := "Notebook"
  Id := String
  State := Nat
  idText := id
  initial _ := 0
  registry := ({} : Registry Note Nat).onState .taken fun sum (pages : Nat) => sum + pages

def noted : Desk fun _ : Unit => notebook :=
  (opened _ .plain).run [.create () .byType "t", .apply () ⟨.taken, (1 : Nat)⟩]

/-- No condition can be left out: that the save is no repetition, that it is not planned again, that
it goes to the stream of the aggregate, that handlers leave alone what is pending, and that events
read back as they were written. -/
theorem misleads_of_ok :
    repeated.Misleads () .byType "t" .any { initiator := Uuid.ofNat 7 } ∧
      contended.Misleads true .byType "t" .any {} ∧ unsaved.Misleads () .byType "u" .any {} ∧
      forgotten.Misleads () .byType "t" .any {} ∧ noted.Misleads () .byType "t" .any {} := by
  refine ⟨⟨_, _, _, rfl, rfl, rfl, ?_⟩, ⟨_, _, _, rfl, rfl, rfl, ?_⟩, ⟨_, _, _, rfl, rfl, rfl, ?_⟩,
    ⟨_, _, _, rfl, rfl, rfl, ?_⟩, ⟨_, _, _, rfl, rfl, rfl, ?_⟩⟩
  · have apart : (1 : Int) ≠ 3 := by decide
    exact ⟨AggregateType.not_coherent (·.value) rfl rfl apart,
      AggregateType.not_coherent (·.value) rfl rfl apart⟩
  · have apart : (3 : Int) ≠ 2 := by decide
    exact ⟨AggregateType.not_coherent (·.value) rfl rfl apart,
      AggregateType.not_coherent (·.value) rfl rfl apart⟩
  · have empty : (0 : Int) ≠ 1 := by decide
    have other : "u" ≠ "t" := by decide
    exact ⟨AggregateType.not_coherent (·.value) rfl rfl empty,
      AggregateType.not_coherent (·.id) rfl rfl other⟩
  · have apart : (2 : Int) ≠ 3 := by decide
    exact ⟨AggregateType.not_coherent (·.value) rfl rfl apart,
      AggregateType.not_coherent (·.value) rfl rfl apart⟩
  · have apart : (0 : Nat) ≠ 1 := by decide
    exact ⟨AggregateType.not_coherent (fun sum : Nat => sum) rfl rfl apart,
      AggregateType.not_coherent (fun sum : Nat => sum) rfl rfl apart⟩

end Desk

end EventSourcing
