import EventSourcing.Proofs.Holders.Alone
import EventSourcing.Proofs.Planned

/-!
Databases that differ in the layout of their records only. Whatever is asked of them but the records
themselves, they answer alike, and a write takes the same course over both.
-/

namespace EventSourcing

/-- Whether records hold the same events in the same order, and name the same initiators. -/
structure Record.Alike (first second : List Record) : Prop where
  events : first.flatMap Record.events = second.flatMap Record.events
  initiators : ∀ initiator, (first.any fun record => record.initiator = initiator) =
    second.any fun record => record.initiator = initiator

namespace Record.Alike

variable {first second more others : List Record}

theorem append (alike : Record.Alike first second) (next : Record.Alike more others) :
    Record.Alike (first ++ more) (second ++ others) where
  events := by rw [List.flatMap_append, List.flatMap_append, alike.events, next.events]
  initiators initiator := by
    rw [List.any_append, List.any_append, alike.initiators, next.initiators]

end Record.Alike

namespace Layout

/-- Records of events with one initiator name that initiator, and no other. -/
theorem any_initiator_records {events : List StoredEvent} {author : Uuid}
    (uniform : ∀ event ∈ events, event.initiator = author) (layout : Layout) (initiator : Uuid) :
    ((layout.records events).any fun record => record.initiator = initiator) = true ↔
      events ≠ [] ∧ author = initiator := by
  have whole := flatMap_records events layout
  have named {record : Record} (member : record ∈ layout.records events) :
      record.first ∈ events ∧ record.initiator = author := by
    have first : record.first ∈ record.events :=
      List.mem_of_mem_head? (by rw [record.head?_events]; rfl)
    have inside : record.first ∈ events := whole ▸ List.mem_flatMap.mpr ⟨record, member, first⟩
    exact ⟨inside, uniform _ inside⟩
  simp only [List.any_eq_true, decide_eq_true_eq]
  constructor
  · rintro ⟨record, member, same⟩
    obtain ⟨inside, own⟩ := named member
    exact ⟨List.ne_nil_of_mem inside, own.symm.trans same⟩
  · rintro ⟨filled, rfl⟩
    obtain ⟨event, inside⟩ := List.exists_mem_of_ne_nil _ filled
    rw [← whole] at inside
    obtain ⟨record, member, -⟩ := List.mem_flatMap.mp inside
    exact ⟨record, member, (named member).2⟩

theorem records_alike {events : List StoredEvent} {author : Uuid}
    (uniform : ∀ event ∈ events, event.initiator = author) (layout other : Layout) :
    Record.Alike (layout.records events) (other.records events) where
  events := by rw [flatMap_records, flatMap_records]
  initiators initiator := by
    rw [Bool.eq_iff_iff, any_initiator_records uniform, any_initiator_records uniform]

end Layout

structure Transaction.Alike (first second : Transaction) : Prop where
  stream : first.stream = second.stream
  header : first.header = second.header
  records : Record.Alike first.records second.records

namespace Transaction.Alike

variable {first second : Transaction}

theorem events (alike : first.Alike second) : first.events = second.events := alike.records.events

theorem newVersion (alike : first.Alike second) : first.newVersion = second.newVersion :=
  congrArg HeaderChange.newVersion alike.header

end Transaction.Alike

structure Stream.Alike (first second : Stream) : Prop where
  version : first.version = second.version
  positions : first.positions = second.positions
  ids : first.ids = second.ids
  records : Record.Alike first.records second.records

namespace Stream.Alike

variable {first second : Stream} {transaction other : Transaction}

theorem accepts (alike : first.Alike second) (same : transaction.Alike other) :
    first.accepts transaction = second.accepts other := by
  have meets : first.meets transaction.header = second.meets other.header := by
    unfold meets
    rw [same.header, alike.version]
  rw [Stream.accepts, Stream.accepts, meets, alike.positions, alike.ids, same.events]

theorem apply (alike : first.Alike second) (same : transaction.Alike other) :
    (first.apply transaction).Alike (second.apply other) where
  version := congrArg some same.newVersion
  positions := by rw [Stream.apply, Stream.apply, alike.positions, same.events]
  ids := by rw [Stream.apply, Stream.apply, alike.ids, same.events]
  records := alike.records.append same.records

end Stream.Alike

/-- Whether stores have the same streams but for the layout of their records. -/
def Store.Alike (first second : Store) : Prop :=
  ∀ key, (first.stream key).Alike (second.stream key)

namespace Store.Alike

variable {first second : Store} {transaction other : Transaction}

theorem refl (store : Store) : store.Alike store :=
  fun _ => ⟨rfl, rfl, rfl, rfl, fun _ => rfl⟩

theorem header (alike : first.Alike second) (key : StreamKey) :
    first.header key = second.header key := (alike key).version

theorem containsInitiator (alike : first.Alike second) (key : StreamKey) (initiator : Uuid) :
    first.containsInitiator key initiator = second.containsInitiator key initiator :=
  (alike key).records.initiators initiator

theorem read (alike : first.Alike second) (key : StreamKey) :
    (backend.read key first).1 = (backend.read key second).1 :=
  congrArg Except.ok (alike key).records.events

theorem submit (alike : first.Alike second) (same : transaction.Alike other) :
    (first.submit transaction).2 = (second.submit other).2 ∧
      (first.submit transaction).1.Alike (second.submit other).1 := by
  constructor
  · rw [outcome_submit, outcome_submit, same.stream, (alike other.stream).accepts same]
  · intro key
    rw [stream_submit, stream_submit, same.stream, (alike key).accepts same]
    split
    · exact (alike key).apply same
    · exact alike key

end Store.Alike

/-- Whether so many events fit into a transaction. -/
def StoreSettings.Fits (settings : StoreSettings) (count : Nat) : Prop :=
  ∃ layout, settings.layoutFor count = .ok layout

/-- A write that does not fit is turned away for its size. -/
theorem StoreSettings.fits_or (settings : StoreSettings) (count : Nat) :
    settings.Fits count ∨
      ∃ limit, settings.layoutFor count = .error (.packingLimitExceeded count limit) := by
  simp only [Fits, layoutFor]
  split
  · exact .inl ⟨_, rfl⟩
  · split
    · split
      · exact .inl ⟨_, rfl⟩
      · exact .inr ⟨_, rfl⟩
    · exact .inr ⟨_, rfl⟩

/-- Whether settings differ in the layout of records at most. -/
structure StoreSettings.Alike (first second : StoreSettings) : Prop where
  idempotency : first.idempotency = second.idempotency
  retryLimit : first.retryLimit = second.retryLimit

structure Planner.Alike (first second : Planner) : Prop where
  settings : first.settings.Alike second.settings
  clock : first.clock = second.clock
  ids : first.ids = second.ids

namespace Planner.Alike

variable {first second : Planner}

theorem derives (alike : first.Alike second) (initiator : Uuid) :
    first.Derives initiator ↔ second.Derives initiator := by
  rw [Derives, Derives, alike.settings.idempotency]

theorem eventIds (alike : first.Alike second) (initiator : Uuid) (count : Nat) :
    first.eventIds initiator count = second.eventIds initiator count := by
  simp only [Planner.eventIds, alike.derives initiator, alike.ids]

theorem used (alike : first.Alike second) (initiator : Uuid) (count : Nat) :
    (first.used initiator count).Alike (second.used initiator count) where
  settings := alike.settings
  clock := congrArg Clock.tick alike.clock
  ids := by simp only [Planner.used, alike.derives initiator, alike.ids]

theorem transaction (alike : first.Alike second) (write : Write) (baseline : Version)
    (layout other : Layout) :
    (first.transaction write baseline layout).Alike (second.transaction write baseline other) where
  stream := rfl
  header := rfl
  records := by
    simp only [Planner.transaction, alike.eventIds, alike.clock]
    exact Layout.records_alike (fun _ member => (write.mem_placed _ _ member).2) layout other

/-- Planners that find room for a write plan the same for it. -/
theorem plan (alike : first.Alike second) {write : Write}
    (fits : first.settings.Fits write.events.length)
    (too : second.settings.Fits write.events.length) (baseline : Version) :
    ∃ transaction other later further, first.plan write baseline = .ok (transaction, later) ∧
      second.plan write baseline = .ok (other, further) ∧ transaction.Alike other ∧
      later.Alike further ∧ later.settings = first.settings ∧
      further.settings = second.settings := by
  obtain ⟨layout, fits⟩ := fits
  obtain ⟨other, too⟩ := too
  refine ⟨_, _, _, _, ?_, ?_, alike.transaction write baseline layout other,
    alike.used write.origin.initiator write.events.length, rfl, rfl⟩
  · rw [Planner.plan, fits]
    rfl
  · rw [Planner.plan, too]
    rfl

end Planner.Alike

/-- Whether writers are at the same point of their ways. -/
inductive Phase.Alike : Phase → Phase → Prop where
  | planning (baseline : Version) : Alike (.planning baseline) (.planning baseline)
  | submitting {transaction other : Transaction} (same : transaction.Alike other) :
      Alike (.submitting transaction) (.submitting other)
  | searching : Alike .searching .searching
  | confirming : Alike .confirming .confirming
  | measuring : Alike .measuring .measuring
  | ends (result : Except Error Version) : Alike (.finished result none) (.finished result none)
  | commits (result : Except Error Version) {transaction other : Transaction}
      (same : transaction.Alike other) :
      Alike (.finished result (some transaction)) (.finished result (some other))

structure Writer.Alike (first second : Writer) : Prop where
  write : first.write = second.write
  limit : first.retryLimit = second.retryLimit
  retries : first.retries = second.retries
  phase : first.phase.Alike second.phase

/-- Two writers at the same point of their ways, with what they plan and submit with. Both settings
have room for the write. -/
structure Writer.Abreast (first second : Writer × Planner × Store) : Prop where
  writer : first.1.Alike second.1
  planner : first.2.1.Alike second.2.1
  store : first.2.2.Alike second.2.2
  fits : first.2.1.settings.Fits first.1.write.events.length
  too : second.2.1.settings.Fits first.1.write.events.length

namespace Writer.Abreast

variable {first second : Writer × Planner × Store}

/-- Writers that have been told the same go on alike. -/
theorem told {write : Write} {limit retries turns : Nat} {planner further : Planner}
    {store image : Store} {before past : Phase} {phase other : Phase}
    (abreast : Abreast (⟨write, limit, before, retries⟩, planner, store)
      (⟨write, limit, past, retries⟩, further, image))
    (same : phase.Alike other) :
    Abreast (⟨write, limit, phase, turns⟩, planner, store)
      (⟨write, limit, other, turns⟩, further, image) where
  writer := ⟨rfl, rfl, rfl, same⟩
  planner := abreast.planner
  store := abreast.store
  fits := abreast.fits
  too := abreast.too

theorem step (abreast : Abreast first second) :
    Abreast (first.1.step Store.backend first.2.1 first.2.2)
      (second.1.step Store.backend second.2.1 second.2.2) := by
  obtain ⟨⟨write, limit, phase, retries⟩, planner, store⟩ := first
  obtain ⟨⟨_, _, other, _⟩, further, image⟩ := second
  obtain ⟨rfl, rfl, rfl, same⟩ := abreast.writer
  have header := abreast.store.header write.stream
  have known := abreast.store.containsInitiator write.stream write.origin.initiator
  dsimp only at same header known
  cases same with
  | planning baseline =>
    obtain ⟨transaction, counterpart, later, after, planned, too, same, alike, kept, still⟩ :=
      abreast.planner.plan abreast.fits abreast.too baseline
    simp only [Writer.step, planned, too, Writer.planned]
    exact ⟨⟨rfl, rfl, rfl, .submitting same⟩, alike, abreast.store, kept ▸ abreast.fits,
      still ▸ abreast.too⟩
  | @submitting transaction counterpart same =>
    obtain ⟨answer, alike⟩ := abreast.store.submit same
    have applied : Abreast
        (⟨write, limit, .submitting transaction, retries⟩, planner, (store.submit transaction).1)
        (⟨write, limit, .submitting counterpart, retries⟩, further,
          (image.submit counterpart).1) :=
      ⟨abreast.writer, abreast.planner, alike, abreast.fits, abreast.too⟩
    simp only [Writer.step, Store.backend, answer]
    cases (image.submit counterpart).2 with
    | committed =>
      simp only [Writer.submitted, same.newVersion]
      exact applied.told (.commits _ same)
    | conflict =>
      simp only [Writer.submitted]
      split
      · exact applied.told .measuring
      · exact applied.told .searching
  | searching =>
    simp only [Writer.step, Store.backend, known]
    cases image.containsInitiator write.stream write.origin.initiator
    · exact abreast.told .measuring
    · exact abreast.told .confirming
  | confirming =>
    simp only [Writer.step, Store.backend, header, Writer.confirmed]
    exact abreast.told (.ends _)
  | measuring =>
    simp only [Writer.step, Store.backend, header, Writer.measured]
    split
    · split
      · exact abreast.told (.planning _)
      · exact abreast.told (.ends _)
    · exact abreast.told (.ends _)
  | ends result => exact abreast
  | commits result same => exact abreast

theorem run (abreast : Abreast first second) (fuel : Nat) :
    Abreast (first.1.run Store.backend fuel first.2.1 first.2.2)
      (second.1.run Store.backend fuel second.2.1 second.2.2) := by
  induction fuel generalizing first second with
  | zero => exact abreast
  | succ fuel ih =>
    rw [Writer.run_succ, Writer.run_succ]
    exact ih abreast.step

end Writer.Abreast

/-- Whether writes ended alike. -/
structure Written.Alike (first second : Written Store) : Prop where
  result : first.result = second.result
  events : first.committed.map Transaction.events = second.committed.map Transaction.events
  planner : first.planner.Alike second.planner
  store : first.state.Alike second.state

theorem Phase.Alike.finished {result answer : Except Error Version}
    {committed counterpart : Option Transaction}
    (alike : (Phase.finished result committed).Alike (.finished answer counterpart)) :
    result = answer ∧
      committed.map Transaction.events = counterpart.map Transaction.events := by
  cases alike with
  | ends => exact ⟨rfl, rfl⟩
  | commits _ same => exact ⟨rfl, congrArg some same.events⟩

/-- A write with events that is not turned away for its size fits. -/
theorem Backend.fits_of_write {σ : Type} (backend : Backend σ) {planner : Planner} {write : Write}
    (state : σ) (accepted : ∀ count limit,
      (backend.write planner write state).result ≠ .error (.packingLimitExceeded count limit))
    (filled : write.events ≠ []) : planner.settings.Fits write.events.length := by
  rcases planner.settings.fits_or write.events.length with fits | ⟨limit, misfit⟩
  · exact fits
  · let start := Writer.start write planner.settings.retryLimit
    let turned := start.fail (.packingLimitExceeded write.events.length limit)
    have begun : start.phase = .planning write.retrieved := Writer.phase_start_of_ne_nil filled _
    have refused : start.step backend planner state = (turned, planner, state) := by
      have same : start.write = write := rfl
      simp only [Writer.step, begun, Planner.plan, same, misfit]
      rfl
    obtain ⟨done, -, -⟩ := backend.write_eq planner write state
    have left : start.stepsLeft = start.retryLimit * 4 + 3 + 1 := by
      simp only [Writer.stepsLeft, begun]
      rfl
    rw [show Writer.start write planner.settings.retryLimit = start from rfl, left,
      Writer.run_succ, refused, Writer.run_of_isFinished ⟨_, _, rfl⟩] at done
    exact absurd (Phase.finished.inj done).1.symm (accepted _ _)

/-- A write for which both planners find room ends alike over alike stores. -/
theorem Store.Alike.write {store image : Store} (alike : store.Alike image)
    {planner further : Planner} (same : planner.Alike further) {write : Write}
    (fits : write.events ≠ [] → planner.settings.Fits write.events.length ∧
      further.settings.Fits write.events.length) :
    (backend.write planner write store).Alike (backend.write further write image) := by
  let start := Writer.start write planner.settings.retryLimit
  let left := start.run backend start.stepsLeft planner store
  let right := start.run backend start.stepsLeft further image
  obtain ⟨ended, later, after⟩ := backend.write_eq planner write store
  obtain ⟨finished, next, behind⟩ := backend.write_eq further write image
  rw [← same.settings.retryLimit] at finished next behind
  suffices both : left.1.phase.Alike right.1.phase ∧ left.2.1.Alike right.2.1 ∧
      left.2.2.Alike right.2.2 by
    obtain ⟨phases, planners, stores⟩ := both
    obtain ⟨result, events⟩ := Phase.Alike.finished (ended ▸ finished ▸ phases)
    exact ⟨result, events, later ▸ next ▸ planners, after ▸ behind ▸ stores⟩
  by_cases empty : write.events = []
  · have done : start.phase = .finished (.ok write.retrieved) none :=
      Writer.phase_start_of_nil empty _
    simp only [left, right, Writer.run_of_isFinished ⟨_, _, done⟩]
    exact ⟨done ▸ .ends _, same, alike⟩
  · have begun : start.phase.Alike start.phase := by
      rw [Writer.phase_start_of_ne_nil empty]
      exact .planning _
    have abreast : Writer.Abreast (start, planner, store) (start, further, image) :=
      ⟨⟨rfl, rfl, rfl, begun⟩, same, alike, (fits empty).1, (fits empty).2⟩
    have ran := abreast.run start.stepsLeft
    exact ⟨ran.writer.phase, ran.planner, ran.store⟩

end EventSourcing
