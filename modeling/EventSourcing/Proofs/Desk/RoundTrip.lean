import EventSourcing.Proofs.Desk.Coherence

/-!
What a save puts away, a load brings back. The hand that alone writes to a stream is always at its
end; so an aggregate whose saves were all committed is what its whole stream is replayed to.
-/

namespace EventSourcing

theorem Stream.Sound.position_getLast? {key : StreamKey} {stream : Stream}
    (sound : stream.Sound key) (filled : stream.events ≠ []) :
    stream.events.getLast?.map (·.position) =
      some (Version.ofCount stream.events.length).value := by
  obtain ⟨count, counted⟩ := Nat.exists_eq_succ_of_ne_zero (mt List.length_eq_zero_iff.mp filled)
  rw [← List.getLast?_map, sound.places, counted, getLast?_places]
  simp [Version.ofCount]

variable {κ : Type} [EventFamily κ]

namespace Held

variable {type : AggregateType κ} {held : Held type} {store : Store} {id : type.Id}
  {stream : StreamKey}

/-- What stays true of an aggregate in the hand that alone writes to its stream. -/
structure Sole (held : Held type) (id : type.Id) (stream : StreamKey) (store : Store) : Prop where
  named : held.id = id
  own : held.stream = stream
  ends : held.snapshot.version = Version.ofCount (store.stream stream).events.length
  inStep : ∀ landing ∈ held.landings, landing.base ≠ none → landing.InStep stream
  written : (store.stream stream).events = [] ↔ ∀ landing ∈ held.landings, landing.base = none

/-- At the end of its stream, an aggregate is what a load finds. -/
theorem Sole.rehydrate [DecidableEq κ] (sole : held.Sole id stream store)
    (stands : held.Stands store) (nothing : held.snapshot.aggregate.pending = [])
    (filled : (store.stream stream).events ≠ []) :
    type.rehydrate id (store.stream stream).events =
      .ok (some
        { aggregate := { state := held.snapshot.aggregate.state }
          version := held.snapshot.version }) := by
  obtain ⟨seen, state, before, counted, ⟨count, replays⟩, applied⟩ := stands
  rw [sole.named] at replays
  rw [sole.own] at before
  have whole : seen = (store.stream stream).events := by
    apply before.eq_of_length
    have same := counted.symm.trans sole.ends
    simp only [Version.ofCount, Version.mk.injEq] at same
    omega
  rw [nothing] at applied
  have same : { state := state } = held.snapshot.aggregate := Except.ok.inj applied
  rw [whole] at replays
  rw [sole.ends, ← same]
  cases events : (store.stream stream).events with
  | nil => exact absurd events filled
  | cons event rest =>
    rw [events] at replays
    simp [AggregateType.rehydrate, replays, Except.map]

end Held

/-- Loading goes by the events of the stream. -/
theorem AggregateType.tryGet_over (type : AggregateType κ) (naming : StreamNaming) (id : type.Id)
    (planner : Planner) (store : Store) :
    ((type.over naming).tryGet id (planner, store)).1 =
      type.rehydrate id (store.stream ((type.over naming).stream id)).events := rfl

theorem Repository.get_of_tryGet_none {σ : Type} {repository : Repository κ σ}
    {id : repository.type.Id} {state : σ} (none : (repository.tryGet id state).1 = .ok none) :
    (repository.get id state).1 =
      .error (.aggregateNotFound repository.type.name (repository.type.idText id)) := by
  unfold get
  simp [none]

namespace Held.Sole

variable {type : AggregateType κ} {held : Held type} {store : Store} {id : type.Id}
  {naming : StreamNaming} (sole : held.Sole id ((type.over naming).stream id) store)
  (committed : ∀ landing ∈ held.landings, landing.base ≠ none) (planner : Planner)

include sole

/-- Nothing is found where nothing was saved. -/
theorem tryGet_eq_none (unsaved : held.landings = []) :
    ((type.over naming).tryGet id (planner, store)).1 = .ok none := by
  have empty : (store.stream ((type.over naming).stream id)).events = [] := by
    rw [sole.written, unsaved]
    exact fun landing member => nomatch member
  rw [AggregateType.tryGet_over, empty]
  rfl

include committed

theorem events_ne_nil (saved : held.landings ≠ []) :
    (store.stream ((type.over naming).stream id)).events ≠ [] := by
  obtain ⟨landing, member⟩ := List.exists_mem_of_ne_nil _ saved
  exact fun empty => committed landing member (sole.written.mp empty landing member)

theorem get_eq_ok [DecidableEq κ] (stands : held.Stands store)
    (nothing : held.snapshot.aggregate.pending = []) (saved : held.landings ≠ []) :
    ((type.over naming).get id (planner, store)).1 =
      .ok
        { aggregate := { state := held.snapshot.aggregate.state, pending := [] }
          version := held.snapshot.version } := by
  apply ((type.over naming).get_eq_ok_iff id (planner, store) _).mpr
  rw [AggregateType.tryGet_over]
  exact sole.rehydrate stands nothing (sole.events_ne_nil committed saved)

end Held.Sole

variable {ι : Type} {types : ι → AggregateType κ}

namespace Desk

/-- Whether an operation leaves it to one hand to write to a stream, and this hand to write to that
stream alone. -/
def Operation.Leaves (h : ι) (stream : StreamKey) : Operation types → Prop
  | .create other _ _ | .get other _ _ | .tryGet other _ _ => other ≠ h
  | .apply _ _ => True
  | .save other naming id _ _ => other = h ↔ ((types other).over naming).stream id = stream
  | .write request _ => request.stream ≠ stream

def Sole (desk : Desk types) (h : ι) (id : (types h).Id) (stream : StreamKey) : Prop :=
  ∃ held, desk.held h = some held ∧ held.Sole id stream desk.store

variable {desk after : Desk types} {h : ι} {id : (types h).Id} {stream : StreamKey}

/-- Nothing else counts than the hand and its stream. -/
theorem Sole.frame (sole : desk.Sole h id stream) (same : after.held h = desk.held h)
    (kept : after.store.stream stream = desk.store.stream stream) : after.Sole h id stream := by
  obtain ⟨held, taken, sole⟩ := sole
  exact ⟨held, same.trans taken,
    { sole with ends := kept ▸ sole.ends, written := kept ▸ sole.written }⟩

variable [DecidableEq ι]

theorem Sole.load (sole : desk.Sole h id stream) {other : ι} (different : other ≠ h)
    (naming : StreamNaming) (own : (types other).Id)
    (answer : Except Error (Option (Snapshot (types other)))) :
    (desk.load other naming own answer).Sole h id stream := by
  unfold Desk.load
  split
  · exact sole.frame (place_of_ne desk different.symm _) rfl
  · exact sole

/-- A save to another stream by another hand. -/
theorem Sole.spared (sole : desk.Sole h id stream) {other : ι} (different : other ≠ h)
    {held : Held (types other)} {onto : StreamKey} (apart : onto ≠ stream)
    {expected : ExpectedVersion} {origin : Origin} {answer : Except Error Unit}
    (saved : Saved desk other held onto expected origin answer after) : after.Sole h id stream := by
  cases saved with
  | commits same here asks proper planned accepted once =>
    refine sole.frame (place_of_ne _ different.symm _) ?_
    rw [place_store, Store.stream_submit, if_neg]
    rintro ⟨there, -⟩
    exact apart (here.symm.trans (planned.stream.symm.trans there.symm))
  | _ => exact sole.frame (place_of_ne _ different.symm _) rfl

/-- A save by the hand itself. -/
theorem Sole.saved {commits : List Commit}
    (follows : desk.store.Follows [desk.planner.settings] commits) {held : Held (types h)}
    (sole : held.Sole id stream desk.store) {expected : ExpectedVersion} {origin : Origin}
    {answer : Except Error Unit}
    (saved : Saved desk h held stream expected origin answer after) : after.Sole h id stream := by
  cases saved with
  | fails same => exact ⟨held, place_self _ h held, sole⟩
  | rests nothing => exact ⟨held, place_self _ h held, sole⟩
  | repeats same waiting known found =>
    refine ⟨_, place_self _ h _, ?_⟩
    refine { sole with ends := follows.header_getD stream, inStep := ?_, written := ?_ }
    · intro landing member based
      rcases List.mem_append.mp member with old | new
      · exact sole.inStep landing old based
      · obtain rfl := List.mem_singleton.mp new
        exact absurd rfl based
    · simpa [or_imp, forall_and] using sole.written
  | @commits planner request transaction same here asks proper planned accepted once =>
    have onto : transaction.stream = stream := planned.stream.trans here
    rw [onto] at accepted
    have reached := (follows.streams stream).start_eq planned proper accepted
    have stored : (desk.store.submit transaction).1.stream stream =
        (desk.store.stream stream).apply transaction := by
      rw [Store.stream_submit, if_pos ⟨onto.symm, accepted⟩]
    refine ⟨_, place_self _ h _, ?_⟩
    rw [place_store]
    refine { sole with ends := ?_, inStep := ?_, written := ?_ }
    · rw [stored]
      exact planned.newVersion_eq reached
    · intro landing member based
      rcases List.mem_append.mp member with old | new
      · exact sole.inStep landing old based
      · obtain rfl := List.mem_singleton.mp new
        exact ⟨rfl, congrArg some (reached.trans sole.ends.symm)⟩
    · have filled : transaction.events ≠ [] := by
        intro nothing
        have counted := planned.length_events
        rw [nothing] at counted
        exact asks.filled (List.length_eq_zero_iff.mp counted.symm)
      rw [stored, Stream.events_apply]
      simp [filled]

variable [DecidableEq κ]

/-- The step for all operations that leave the stream to the hand. -/
theorem Sole.act (sole : desk.Sole h id stream) (inv : desk.Inv) {operation : Operation types}
    (leaves : operation.Leaves h stream) : (desk.act operation).Sole h id stream := by
  obtain ⟨commits, follows⟩ := inv.follows
  cases operation with
  | create other naming own =>
    exact sole.load leaves naming own (.ok (some { aggregate := (types other).blank own }))
  | get other naming own => exact sole.load leaves naming own _
  | tryGet other naming own => exact sole.load leaves naming own _
  | apply other event =>
    simp only [Desk.act]
    split
    · exact sole
    · rename_i held found
      split
      · rename_i changed applied
        by_cases here : other = h
        · subst here
          obtain ⟨held', taken, sole⟩ := sole
          obtain rfl : held' = held := Option.some.inj (taken.symm.trans found)
          exact ⟨_, place_self desk other _, { sole with }⟩
        · exact sole.frame (place_of_ne desk (Ne.symm here) _) rfl
      · exact sole
  | save other naming own expected origin =>
    simp only [Desk.act]
    split
    · exact sole
    · rename_i held found
      have saved := saved_save follows other held (inv.held other held found).proper naming own
        expected origin
      by_cases here : other = h
      · subst here
        rw [leaves.mp rfl] at saved
        obtain ⟨held', taken, sole⟩ := sole
        obtain rfl : held' = held := Option.some.inj (taken.symm.trans found)
        exact Sole.saved follows sole saved
      · exact sole.spared here (mt leaves.mpr here) saved
  | write request proper =>
    obtain ⟨wrote, -⟩ := follows.wrote desk.planner proper
    exact sole.frame rfl (wrote.spares leaves)

theorem Sole.run (sole : desk.Sole h id stream) (inv : desk.Inv)
    (faithful : ∀ h, (types h).Faithful) {operations : List (Operation types)}
    (leave : ∀ operation ∈ operations, operation.Leaves h stream) :
    (desk.run operations).Sole h id stream := by
  induction operations generalizing desk with
  | nil => exact sole
  | cons operation rest ih =>
    obtain ⟨first, others⟩ := List.forall_mem_cons.mp leave
    exact ih (sole.act inv first) (inv.act faithful operation) others

/-- A save that ends well can be loaded again by the one who alone writes to the stream, if all that
was saved has been committed. -/
theorem get_of_save (types : ι → AggregateType Sample.Kind)
    (sample : ∀ h, types h ∈ [Sample.inventory, Sample.counter, Sample.inert]) (planner : Planner)
    (h : ι) (naming : StreamNaming) (id : (types h).Id) (operations : List (Operation types))
    (leave : ∀ operation ∈ operations, operation.Leaves h (((types h).over naming).stream id))
    (expected : ExpectedVersion) (origin : Origin) :
    let repository := (types h).over naming
    let stream := repository.stream id
    let desk := (opened types planner).run (.create h naming id :: operations)
    ∃ held, desk.held h = some held ∧
      ∀ done, desk.save h held naming id expected origin = (.ok (), done) →
        ∃ now, done.held h = some now ∧
          ((∀ landing ∈ now.landings, landing.base ≠ none) →
            let found := (repository.get id (done.planner, done.store)).1
            (now.landings ≠ [] →
              found = .ok
                  { aggregate := { state := now.snapshot.aggregate.state, pending := [] }
                    version := now.snapshot.version } ∧
                done.store.header stream = some now.snapshot.version ∧
                (done.store.stream stream).events.getLast?.map (·.position) =
                  some now.snapshot.version.value) ∧
            (now.landings = [] →
              (repository.tryGet id (done.planner, done.store)).1 = .ok none ∧
                found = .error (.aggregateNotFound (types h).name ((types h).idText id)))) := by
  intro repository stream desk
  have faithful : ∀ h, (types h).Faithful := fun h => Sample.faithful_of_mem (sample h)
  have begun := (inv_opened types planner).act faithful (.create h naming id)
  have blank : ((opened types planner).act (.create h naming id)).Sole h id stream := by
    refine ⟨_, place_self _ h _, rfl, rfl, rfl, (fun _ member => nomatch member), ?_⟩
    exact iff_of_true rfl fun _ member => nomatch member
  have inv : desk.Inv := begun.run faithful operations
  obtain ⟨held, taken, sole⟩ : desk.Sole h id stream := blank.run begun faithful leave
  refine ⟨held, taken, ?_⟩
  intro done saved
  have sound := inv.held h held taken
  obtain ⟨commits, follows⟩ := inv.follows
  have ended := saved_save follows h held sound.proper naming id expected origin
  rw [saved] at ended
  obtain ⟨now, holds, nothing⟩ := ended.rested
  obtain ⟨now', again, own⟩ := Sole.saved follows sole ended
  obtain rfl : now' = now := Option.some.inj (again.symm.trans holds)
  have later := inv.saved (faithful h) sound ended
  obtain ⟨more, followed⟩ := later.follows
  refine ⟨now', holds, ?_⟩
  intro committed found
  constructor
  · intro landed
    have filled := own.events_ne_nil committed landed
    have stands := (later.held h now' holds).stands fun landing member =>
      own.own.symm ▸ own.inStep landing member (committed landing member)
    have present : now'.snapshot.version.IsPresent := by
      rw [own.ends, Version.isPresent_ofCount]
      exact List.length_pos_iff.mpr filled
    refine ⟨own.get_eq_ok committed done.planner stands nothing landed, ?_, ?_⟩
    · rw [Store.header, (followed.streams stream).version, ← own.ends]
      exact (Version.header_eq_some_iff _ _).mpr ⟨present, rfl⟩
    · rw [(followed.streams stream).position_getLast? filled, own.ends]
  · intro unsaved
    have none := own.tryGet_eq_none done.planner unsaved
    exact ⟨none, Repository.get_of_tryGet_none none⟩

/-- A counter that is saved while somebody writes elsewhere. It refuses what it does not handle. -/
def counting : List (Operation fun _ : Unit => Sample.counter) :=
  [.apply () ⟨.incremented, (5 : Int32)⟩, .apply () ⟨.unhandled, "no"⟩,
    .apply () ⟨.renamed, "ours"⟩, .save () .byType "t" .none {},
    .write ⟨⟨"other"⟩, [⟨"Opened", .null⟩], Version.absent, .none, {}⟩ (by decide),
    .apply () ⟨.incremented, (2 : Int32)⟩]

/-- Two events are already too many for a transaction with single records. -/
def packing : Desk fun _ : Unit => Sample.counter :=
  (opened _ { Planner.plain with settings := { maxOperations := 2 } }).run
    (.create () .byType "t" :: counting)

def packingHeld : Held Sample.counter :=
  (packing.held ()).get (by rfl)

theorem get_packed :
    let (answer, done) := packing.save () packingHeld .byType "t" (.exact ⟨1⟩) {}
    packing.held () = some packingHeld ∧ answer = .ok () ∧
      ((Sample.counter.over .byType).get "t" (done.planner, done.store)).1 = .ok
        { aggregate := { state := { id := "t", value := 7, label := "second:ours" }, pending := [] }
          version := ⟨2⟩ } := by
  let done := (packing.save () packingHeld .byType "t" (.exact ⟨1⟩) {}).2
  have leave : ∀ operation ∈ counting,
      operation.Leaves () ((Sample.counter.over .byType).stream "t") := by
    have other : (⟨"other"⟩ : StreamKey) ≠ (Sample.counter.over .byType).stream "t" := by decide
    simpa [counting, Operation.Leaves] using other
  obtain ⟨held, taken, loads⟩ := get_of_save (fun _ : Unit => Sample.counter)
    (fun _ => by simp) { Planner.plain with settings := { maxOperations := 2 } } () .byType "t"
    counting leave (.exact ⟨1⟩) {}
  have inHand : packing.held () = some packingHeld := (Option.some_get _).symm
  obtain rfl : held = packingHeld := Option.some.inj (taken.symm.trans inHand)
  have answered : (packing.save () packingHeld .byType "t" (.exact ⟨1⟩) {}).1 = .ok () := by rfl
  obtain ⟨now, holds, found⟩ := loads done (Prod.ext answered rfl)
  have shown : (done.held ()).map (fun now => (now.landings, now.snapshot)) =
      some (([⟨⟨"Counter-t"⟩, ⟨-1⟩, some ⟨-1⟩⟩, ⟨⟨"Counter-t"⟩, ⟨1⟩, some ⟨1⟩⟩],
        { aggregate := { state := { id := "t", value := 7, label := "second:ours" }, pending := [] }
          version := ⟨2⟩ }) : List Landing × Snapshot Sample.counter) := by rfl
  rw [holds] at shown
  obtain ⟨landings, snapshot⟩ := Prod.mk.inj (Option.some.inj shown)
  rw [landings, snapshot] at found
  exact ⟨inHand, answered, ((found (by decide)).1 (by decide)).1⟩

end Desk

end EventSourcing
