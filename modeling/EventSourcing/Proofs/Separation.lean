import EventSourcing.Proofs.Fleet
import EventSourcing.Proofs.Holders.Alone
import Mathlib.Data.List.Perm.Basic

/-!
Streams beside each other. All streams share one table, and a planner shares its clock and its
identities among the writes of all of them; but a write asks for its own stream only, and what is
planned for it depends on nothing else as long as its identities are derived and the clock shows the
same. A refused transaction may leave an entry for its stream in the table, and nobody can tell.
-/

namespace EventSourcing

namespace Keyed

variable {κ α : Type} [DecidableEq κ]

theorem keys_set (table : Keyed κ α) (key : κ) (value : α) :
    (table.set key value).keys =
      if key ∈ table.keys then table.keys else table.keys ++ [key] := by
  obtain ⟨entries⟩ := table
  induction entries with
  | nil => rfl
  | cons entry rest ih =>
    obtain ⟨first, old⟩ := entry
    by_cases here : first = key
    · simp [keys, set, put, here]
    · simp only [keys, set, put, if_neg here, List.map_cons, List.mem_cons] at ih ⊢
      rw [ih]
      by_cases later : key ∈ rest.map (·.1)
      · simp [later]
      · simp [later, Ne.symm here]

theorem nodup_keys_set {table : Keyed κ α} (distinct : table.keys.Nodup) (key : κ) (value : α) :
    (table.set key value).keys.Nodup := by
  rw [keys_set]
  split
  · exact distinct
  · rename_i fresh
    refine List.nodup_append.mpr ⟨distinct, by simp, ?_⟩
    intro other member last here same
    exact fresh (List.mem_singleton.mp here ▸ same ▸ member)

/-- A key with one entry is found at that entry. -/
theorem find?_eq_some_iff {table : Keyed κ α} (distinct : table.keys.Nodup) (key : κ) (value : α) :
    table.find? key = some value ↔ (key, value) ∈ table.entries := by
  obtain ⟨entries⟩ := table
  induction entries with
  | nil => simp [find?, lookup]
  | cons entry rest ih =>
    obtain ⟨first, old⟩ := entry
    have apart := List.nodup_cons.mp distinct
    by_cases here : first = key
    · subst here
      have unlisted : ∀ other, (first, other) ∉ rest :=
        fun other member => apart.1 (List.mem_map.mpr ⟨_, member, rfl⟩)
      simp [find?, lookup, unlisted, eq_comm]
    · simpa [find?, lookup, here, Ne.symm here] using ih apart.2

end Keyed

namespace Store

/-- Whether no stream has two entries. -/
def Distinct (store : Store) : Prop := store.streams.keys.Nodup

/-- The streams with a header. -/
def shown (store : Store) : List StreamKey :=
  (store.streams.entries.filter fun entry => entry.2.version.isSome).map (·.1)

theorem mem_shown_iff {store : Store} (distinct : store.Distinct) (key : StreamKey) :
    key ∈ store.shown ↔ (store.header key).isSome := by
  simp only [shown, List.mem_map, List.mem_filter, Prod.exists, exists_and_right, exists_eq_right]
  constructor
  · rintro ⟨stream, member, some⟩
    have found := (Keyed.find?_eq_some_iff distinct key stream).mpr member
    rwa [header, Store.stream, found]
  · intro some
    cases found : store.streams.find? key with
    | none => simp [header, Store.stream, found] at some
    | some stream =>
      refine ⟨stream, (Keyed.find?_eq_some_iff distinct key stream).mp found, ?_⟩
      simpa [header, Store.stream, found] using some

/-- Empty entries do not count. -/
theorem streamCount_congr {first second : Store} (distinct : first.Distinct)
    (too : second.Distinct) (same : ∀ key, first.stream key = second.stream key) :
    first.streamCount = second.streamCount := by
  have counted (store : Store) : store.streamCount = store.shown.length :=
    (List.length_map _).symm
  have once {store : Store} (distinct : store.Distinct) : store.shown.Nodup :=
    distinct.sublist (List.filter_sublist.map _)
  rw [counted, counted]
  refine ((List.perm_ext_iff_of_nodup (once distinct) (once too)).mpr fun key => ?_).length_eq
  rw [mem_shown_iff distinct, mem_shown_iff too, header, header, same]

theorem Distinct.submit {store : Store} (distinct : store.Distinct) (transaction : Transaction) :
    (store.submit transaction).1.Distinct := by
  cases answered : (store.stream transaction.stream).accepts transaction with
  | true =>
    rw [submit_of_accepts answered]
    exact Keyed.nodup_keys_set distinct _ _
  | false =>
    rw [submit_of_refuses answered]
    exact distinct

/-- Makes an entry for a stream that has none. -/
def reserve (store : Store) (key : StreamKey) : Store :=
  ⟨store.streams.set key (store.stream key)⟩

theorem stream_reserve (store : Store) (key other : StreamKey) :
    (store.reserve key).stream other = store.stream other := by
  simp only [Store.stream, reserve, Keyed.find?_set]
  split
  · rename_i same
    rw [same]
    rfl
  · rfl

/-- A store that makes an entry for the stream of a transaction before it looks at the
transaction. -/
def reserving : Backend Store :=
  { backend with
    submit transaction store :=
      let roomy := store.reserve transaction.stream
      (.ok (roomy.submit transaction).2, (roomy.submit transaction).1) }

end Store

/-- Whether a backend answers as its store does and makes the same of every stream. -/
structure Backend.Keeps (backend : Backend Store) : Prop where
  answer : ∀ transaction store,
    (backend.submit transaction store).1 = .ok (store.submit transaction).2
  stream : ∀ transaction store key,
    (backend.submit transaction store).2.stream key = (store.submit transaction).1.stream key
  distinct : ∀ transaction (store : Store), store.Distinct →
    (backend.submit transaction store).2.Distinct
  header : ∀ key store, backend.readHeader key store = (.ok (store.header key), store)
  initiators : ∀ key initiator store, backend.containsInitiator key initiator store =
    (.ok (store.containsInitiator key initiator), store)

namespace Store

theorem keeps_backend : backend.Keeps where
  answer _ _ := rfl
  stream _ _ _ := rfl
  distinct transaction _ distinct := distinct.submit transaction
  header _ _ := rfl
  initiators _ _ _ := rfl

theorem keeps_reserving : reserving.Keeps where
  answer transaction store := by
    change Except.ok ((store.reserve transaction.stream).submit transaction).2 = _
    rw [outcome_submit, outcome_submit, stream_reserve]
  stream transaction store key := by
    change ((store.reserve transaction.stream).submit transaction).1.stream key = _
    rw [stream_submit, stream_submit, stream_reserve]
  distinct transaction store distinct := by
    have roomy : (store.reserve transaction.stream).Distinct :=
      Keyed.nodup_keys_set distinct _ _
    exact roomy.submit transaction
  header _ _ := rfl
  initiators _ _ _ := rfl

end Store

/-- Whether a transaction can have been planned for a write. -/
def Write.Makes (write : Write) (transaction : Transaction) : Prop :=
  ∃ settings baseline, Planned settings write baseline transaction

namespace Write.Makes

variable {write : Write} {transaction : Transaction}

theorem stream (makes : write.Makes transaction) : transaction.stream = write.stream := by
  obtain ⟨settings, baseline, planned⟩ := makes
  exact planned.stream

theorem own (makes : write.Makes transaction) {event : StoredEvent}
    (member : event ∈ transaction.events) : event.stream = write.stream := by
  obtain ⟨settings, baseline, planned⟩ := makes
  exact (planned.origin member).1

end Write.Makes

/-- What a write has made of a store by the time that its writer comes to a phase. -/
def Phase.Effect (write : Write) (before after : Store) : Phase → Prop
  | .submitting transaction =>
    write.Makes transaction ∧ ∀ key, after.stream key = before.stream key
  | .finished result (some transaction) =>
    result = .ok transaction.newVersion ∧ write.Makes transaction ∧
      ∀ key, after.stream key =
        if key = write.stream then (before.stream key).apply transaction else before.stream key
  | _ => ∀ key, after.stream key = before.stream key

namespace Writer

/-- A writer on its way, with the store as it was before and as it is now. -/
structure Since (write : Write) (before : Store) (state : Writer × Planner × Store) : Prop where
  asked : state.1.write = write
  effect : state.1.phase.Effect write before state.2.2
  distinct : before.Distinct → state.2.2.Distinct

variable {backend : Backend Store}

theorem since_start (write : Write) (limit : Nat) (planner : Planner) (store : Store) :
    Since write store (start write limit, planner, store) where
  asked := rfl
  effect := by
    cases filled : write.events <;> simp only [start, filled] <;> exact fun _ => rfl
  distinct := id

theorem Since.step (keeps : backend.Keeps) {write : Write} {before : Store}
    {state : Writer × Planner × Store} (since : Since write before state) :
    Since write before (state.1.step backend state.2.1 state.2.2) := by
  obtain ⟨⟨write, limit, phase, retries⟩, planner, store⟩ := state
  obtain ⟨rfl, effect, distinct⟩ := since
  dsimp only at effect distinct ⊢
  cases phase with
  | planning baseline =>
    cases made : planner.plan write baseline with
    | error error =>
      simp only [Writer.step, made]
      exact ⟨rfl, effect, distinct⟩
    | ok both =>
      obtain ⟨planned, -⟩ := Planner.planned_of_plan made
      simp only [Writer.step, made]
      exact ⟨rfl, ⟨⟨_, _, planned⟩, effect⟩, distinct⟩
  | submitting transaction =>
    obtain ⟨makes, kept⟩ := effect
    have moved := keeps.stream transaction store
    have apart := fun whole => keeps.distinct transaction store (distinct whole)
    simp only [Writer.step, keeps.answer, Store.outcome_submit]
    cases accepted : (store.stream transaction.stream).accepts transaction with
    | true =>
      refine ⟨rfl, ⟨rfl, makes, fun key => ?_⟩, apart⟩
      rw [moved, Store.stream_submit, kept, ← makes.stream]
      by_cases here : key = transaction.stream
      · subst here
        rw [if_pos ⟨rfl, kept _ ▸ accepted⟩, if_pos rfl]
      · rw [if_neg fun both => here both.1, if_neg here]
    | false =>
      have still (key : StreamKey) :
          (backend.submit transaction store).2.stream key = before.stream key := by
        rw [moved, Store.submit_of_refuses accepted, kept]
      simp only [Bool.false_eq_true, if_false, submitted]
      split <;> exact ⟨rfl, still, apart⟩
  | searching =>
    simp only [Writer.step, keeps.initiators, searched]
    cases store.containsInitiator write.stream write.origin.initiator <;>
      exact ⟨rfl, effect, distinct⟩
  | confirming =>
    simp only [Writer.step, keeps.header, confirmed]
    exact ⟨rfl, effect, distinct⟩
  | measuring =>
    simp only [Writer.step, keeps.header, measured]
    split
    · split <;> exact ⟨rfl, effect, distinct⟩
    · exact ⟨rfl, effect, distinct⟩
  | finished result committed => exact ⟨rfl, effect, distinct⟩

theorem Since.run (keeps : backend.Keeps) {write : Write} {before : Store}
    {state : Writer × Planner × Store} (since : Since write before state) (fuel : Nat) :
    Since write before (state.1.run backend fuel state.2.1 state.2.2) := by
  induction fuel generalizing state with
  | zero => exact since
  | succ fuel ih =>
    rw [run_succ]
    exact ih (since.step keeps)

end Writer

/-- All that a write makes of a store: nothing, or one more transaction in its own stream. -/
theorem Backend.Keeps.write {backend : Backend Store} (keeps : backend.Keeps) (planner : Planner)
    (write : Write) (store : Store) :
    let written := backend.write planner write store
    (Phase.finished written.result written.committed).Effect write store written.state ∧
      (store.Distinct → written.state.Distinct) := by
  intro written
  obtain ⟨done, -, left⟩ := backend.write_eq planner write store
  have since := (Writer.since_start write planner.settings.retryLimit planner store).run keeps
    (Writer.start write planner.settings.retryLimit).stepsLeft
  have effect := since.effect
  rw [done, left] at effect
  exact ⟨effect, left ▸ since.distinct⟩

/-- Whether planners plan the same for every write with a known initiator, however often they have
planned before. -/
structure Planner.Twin (first second : Planner) : Prop where
  settings : first.settings = second.settings
  idempotent : first.settings.idempotency = true
  clock : ∀ early late, first.clock.reading early = second.clock.reading late

namespace Planner.Twin

variable {first second third : Planner}

theorem symm (twin : first.Twin second) : second.Twin first where
  settings := twin.settings.symm
  idempotent := twin.settings ▸ twin.idempotent
  clock early late := (twin.clock late early).symm

theorem trans (twin : first.Twin second) (other : second.Twin third) : first.Twin third where
  settings := twin.settings.trans other.settings
  idempotent := twin.idempotent
  clock early late := (twin.clock early 0).trans (other.clock 0 late)

/-- Writes planned before do not show. -/
theorem plan (twin : first.Twin second) {write : Write}
    (known : write.origin.initiator ≠ Uuid.nil) (baseline : Version) :
    (∃ error, first.plan write baseline = .error error ∧
        second.plan write baseline = .error error) ∨
      ∃ transaction later further, first.plan write baseline = .ok (transaction, later) ∧
        second.plan write baseline = .ok (transaction, further) ∧ later.Twin further := by
  have derives : first.Derives write.origin.initiator := ⟨twin.idempotent, known⟩
  have too : second.Derives write.origin.initiator := ⟨twin.symm.idempotent, known⟩
  cases fitting : first.settings.layoutFor write.events.length with
  | error error =>
    have misfit := twin.settings ▸ fitting
    refine .inl ⟨error, ?_, ?_⟩
    · simp only [Planner.plan, fitting, Except.map]
    · simp only [Planner.plan, misfit, Except.map]
  | ok layout =>
    have fits := twin.settings ▸ fitting
    have same : second.transaction write baseline layout =
        first.transaction write baseline layout := by
      simp only [Planner.transaction, Planner.eventIds, if_pos derives, if_pos too, Clock.now,
        twin.clock first.clock.taken second.clock.taken]
    let count := write.events.length
    refine .inr ⟨first.transaction write baseline layout, first.used write.origin.initiator count,
      second.used write.origin.initiator count, ?_, ?_,
      ⟨twin.settings, twin.idempotent, twin.clock⟩⟩
    · simp only [Planner.plan, fitting, Except.map]
      rfl
    · simp only [Planner.plan, fits, Except.map, same]
      rfl

variable {σ : Type}

theorem step (twin : first.Twin second) (backend : Backend σ) (writer : Writer) (state : σ) :
    (writer.step backend first state).2.1.Twin second := by
  obtain ⟨write, limit, phase, retries⟩ := writer
  cases phase with
  | planning baseline =>
    cases fitting : first.settings.layoutFor write.events.length with
    | error error =>
      simp only [Writer.step, Planner.plan, fitting, Except.map]
      exact twin
    | ok layout =>
      simp only [Writer.step, Planner.plan, fitting, Except.map]
      exact ⟨twin.settings, twin.idempotent, twin.clock⟩
  | _ => exact twin

theorem run (twin : first.Twin second) (backend : Backend σ) (fuel : Nat) (writer : Writer)
    (state : σ) : (writer.run backend fuel first state).2.1.Twin second := by
  induction fuel generalizing first writer state with
  | zero => exact twin
  | succ fuel ih =>
    rw [Writer.run_succ]
    exact ih (twin.step backend writer state) _ _

/-- A planner is a twin still when it has been used. -/
theorem used (twin : first.Twin second) (backend : Backend σ) (write : Write) (state : σ) :
    (backend.write first write state).planner.Twin second := by
  obtain ⟨-, planner, -⟩ := backend.write_eq first write state
  exact planner ▸ twin.run backend _ _ state

end Planner.Twin

/-- One writer at work for two databases that agree about its stream. -/
structure Writer.Level (first second : Writer × Planner × Store) : Prop where
  writer : first.1 = second.1
  known : first.1.write.origin.initiator ≠ Uuid.nil
  onto : ∀ transaction, first.1.phase = .submitting transaction →
    transaction.stream = first.1.write.stream
  planner : first.2.1.Twin second.2.1
  stream : first.2.2.stream first.1.write.stream = second.2.2.stream first.1.write.stream

namespace Writer.Level

variable {backend other : Backend Store} {first second : Writer × Planner × Store}

theorem step (keeps : backend.Keeps) (too : other.Keeps) (level : Level first second) :
    Level (first.1.step backend first.2.1 first.2.2)
      (second.1.step other second.2.1 second.2.2) := by
  obtain ⟨⟨write, limit, phase, retries⟩, planner, store⟩ := first
  obtain ⟨writer, further, image⟩ := second
  obtain ⟨rfl, known, onto, twin, same⟩ := level
  have header : store.header write.stream = image.header write.stream := congrArg _ same
  have initiators : store.containsInitiator write.stream write.origin.initiator =
      image.containsInitiator write.stream write.origin.initiator := by
    rw [Store.containsInitiator, Store.containsInitiator, Store.records, Store.records, same]
  dsimp only at known onto twin same ⊢
  cases phase with
  | planning baseline =>
    rcases twin.plan known baseline with
      ⟨error, made, likewise⟩ | ⟨transaction, later, after, made, likewise, twin⟩
    · simp only [Writer.step, made, likewise]
      exact ⟨rfl, known, (fun _ submits => by cases submits), twin, same⟩
    · have planned := (Planner.planned_of_plan made).1
      simp only [Writer.step, made, likewise]
      refine ⟨rfl, known, ?_, twin, same⟩
      intro chosen phase
      obtain rfl := Phase.submitting.inj phase
      exact planned.stream
  | submitting transaction =>
    have here := onto transaction rfl
    have alike : store.stream transaction.stream = image.stream transaction.stream := by
      rw [here]
      exact same
    have moved : (backend.submit transaction store).2.stream write.stream =
        (other.submit transaction image).2.stream write.stream := by
      rw [keeps.stream, too.stream, Store.stream_submit, Store.stream_submit, same]
    simp only [Writer.step, keeps.answer, too.answer, Store.outcome_submit, alike]
    cases (image.stream transaction.stream).accepts transaction with
    | true => exact ⟨rfl, known, (fun _ submits => by cases submits), twin, moved⟩
    | false =>
      simp only [Bool.false_eq_true, if_false, Writer.submitted]
      split <;> exact ⟨rfl, known, (fun _ submits => by cases submits), twin, moved⟩
  | searching =>
    simp only [Writer.step, keeps.initiators, too.initiators, initiators, Writer.searched]
    cases image.containsInitiator write.stream write.origin.initiator <;>
      exact ⟨rfl, known, (fun _ submits => by cases submits), twin, same⟩
  | confirming =>
    simp only [Writer.step, keeps.header, too.header, header, Writer.confirmed]
    exact ⟨rfl, known, (fun _ submits => by cases submits), twin, same⟩
  | measuring =>
    simp only [Writer.step, keeps.header, too.header, header, Writer.measured]
    split
    · split <;> exact ⟨rfl, known, (fun _ submits => by cases submits), twin, same⟩
    · exact ⟨rfl, known, (fun _ submits => by cases submits), twin, same⟩
  | finished result committed => exact ⟨rfl, known, (fun _ submits => by cases submits), twin, same⟩

theorem run (keeps : backend.Keeps) (too : other.Keeps) (level : Level first second) (fuel : Nat) :
    Level (first.1.run backend fuel first.2.1 first.2.2)
      (second.1.run other fuel second.2.1 second.2.2) := by
  induction fuel generalizing first second with
  | zero => exact level
  | succ fuel ih =>
    rw [Writer.run_succ, Writer.run_succ]
    exact ih (level.step keeps too)

end Writer.Level

/-- A write ends the same over any two stores that agree about its stream, and they agree about it
still. -/
theorem Planner.Twin.write {first second : Planner} (twin : first.Twin second)
    {backend other : Backend Store} (keeps : backend.Keeps) (too : other.Keeps) {write : Write}
    (known : write.origin.initiator ≠ Uuid.nil) {store image : Store}
    (same : store.stream write.stream = image.stream write.stream) :
    let written := backend.write first write store
    let likewise := other.write second write image
    written.result = likewise.result ∧ written.committed = likewise.committed ∧
      written.planner.Twin likewise.planner ∧
      written.state.stream write.stream = likewise.state.stream write.stream := by
  intro written likewise
  obtain ⟨done, planner, left⟩ := backend.write_eq first write store
  obtain ⟨finished, further, rest⟩ := other.write_eq second write image
  rw [← twin.settings] at finished further rest
  let start := Writer.start write first.settings.retryLimit
  have level : Writer.Level (start, first, store) (start, second, image) := by
    refine ⟨rfl, known, ?_, twin, same⟩
    intro transaction phase
    cases filled : write.events <;> simp [start, Writer.start, filled] at phase
  have ran := level.run keeps too start.stepsLeft
  have ended := congrArg Writer.phase ran.writer
  rw [done, finished] at ended
  obtain ⟨result, committed⟩ := Phase.finished.inj ended
  have asked := ((Writer.since_start write first.settings.retryLimit first store).run keeps
    start.stepsLeft).asked
  have stream := ran.stream
  rw [asked] at stream
  exact ⟨result, committed, planner ▸ further ▸ ran.planner, left ▸ rest ▸ stream⟩

end EventSourcing
