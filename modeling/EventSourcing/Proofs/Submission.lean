import EventSourcing.Proofs.Separation

/-!
Transactions of any kind. Nobody plans them, so positions may leave gaps or come twice and headers
may say anything; all that a store makes sure of is that no position and no identity is taken twice
in a stream, and that the header was as the transaction says.
-/

namespace EventSourcing

/-- Whether what is set down beside the records is what they hold, each position and each identity
once. -/
structure Stream.Indexed (stream : Stream) : Prop where
  positions : stream.positions = stream.events.map (·.position)
  ids : stream.ids = stream.events.map (·.id)
  once : (stream.events.map (·.position)).Nodup
  distinct : (stream.events.map (·.id)).Nodup

/-- Whether a header is as a header change says. -/
def HeaderChange.Holds (header : Option Version) : HeaderChange → Prop
  | .create _ => header = none
  | .advance expected _ => header = some expected

instance (header : Option Version) (change : HeaderChange) : Decidable (change.Holds header) :=
  match change with
  | .create _ => inferInstanceAs (Decidable (_ = _))
  | .advance _ _ => inferInstanceAs (Decidable (_ = _))

/-- Whether the events can be put beside others: their keys differ from one another and from those
of the others. -/
def Untaken {κ : Type} (key : StoredEvent → κ) (others events : List StoredEvent) : Prop :=
  (events.map key).Nodup ∧ ∀ event ∈ events, ∀ other ∈ others, key event ≠ key other

instance {κ : Type} [DecidableEq κ] (key : StoredEvent → κ) (others events : List StoredEvent) :
    Decidable (Untaken key others events) :=
  inferInstanceAs (Decidable (_ ∧ _))

theorem untaken_iff {κ : Type} (key : StoredEvent → κ) (others events : List StoredEvent) :
    Untaken key others events ↔
      (events.map key).Nodup ∧ ∀ taken ∈ events.map key, taken ∉ others.map key := by
  refine and_congr_right fun _ => ⟨fun apart taken member another => ?_, fun apart => ?_⟩
  · obtain ⟨event, inside, rfl⟩ := List.mem_map.mp member
    obtain ⟨other, beside, same⟩ := List.mem_map.mp another
    exact apart event inside other beside same.symm
  · intro event inside other beside same
    exact apart _ (List.mem_map_of_mem inside) (same ▸ List.mem_map_of_mem beside)

theorem Untaken.nodup_append {κ : Type} {key : StoredEvent → κ} {others events : List StoredEvent}
    (untaken : Untaken key others events) (distinct : (others.map key).Nodup) :
    ((others ++ events).map key).Nodup := by
  obtain ⟨once, apart⟩ := (untaken_iff key others events).mp untaken
  rw [List.map_append]
  refine List.nodup_append.mpr ⟨distinct, once, ?_⟩
  rintro taken old _ new rfl
  exact apart taken new old

namespace Stream

theorem meets_iff (stream : Stream) (header : HeaderChange) :
    stream.meets header = true ↔ header.Holds stream.version := by
  cases header with
  | create version => exact Option.isNone_iff_eq_none
  | advance expected new => exact decide_eq_true_iff

namespace Indexed

variable {stream : Stream} {transaction : Transaction}

theorem empty : Indexed {} where
  positions := rfl
  ids := rfl
  once := List.nodup_nil
  distinct := List.nodup_nil

/-- What is set down beside the records may be asked in their place. -/
theorem accepts_iff (indexed : stream.Indexed) (transaction : Transaction) :
    stream.accepts transaction = true ↔
      transaction.header.Holds stream.version ∧
        Untaken (·.position) stream.events transaction.events ∧
        Untaken (·.id) stream.events transaction.events := by
  rw [Stream.accepts_iff, meets_iff, untaken_iff, untaken_iff, indexed.positions, indexed.ids]

/-- The step that keeps streams indexed. -/
theorem apply (indexed : stream.Indexed) (accepted : stream.accepts transaction = true) :
    (stream.apply transaction).Indexed := by
  obtain ⟨-, positions, ids⟩ := (indexed.accepts_iff transaction).mp accepted
  have events := stream.events_apply transaction
  refine { positions := ?_, ids := ?_, once := ?_, distinct := ?_ }
  · rw [events, List.map_append, ← indexed.positions]
    rfl
  · rw [events, List.map_append, ← indexed.ids]
    rfl
  · exact events ▸ positions.nodup_append indexed.once
  · exact events ▸ ids.nodup_append indexed.distinct

end Indexed

end Stream

namespace Store

/-- Whether two stores answer alike whatever they are asked. -/
structure AnswersAs (store other : Store) : Prop where
  records : ∀ key, store.records key = other.records key
  header : ∀ key, store.header key = other.header key
  initiators : ∀ key initiator,
    store.containsInitiator key initiator = other.containsInitiator key initiator
  count : store.streamCount = other.streamCount

theorem AnswersAs.refl (store : Store) : store.AnswersAs store where
  records _ := rfl
  header _ := rfl
  initiators _ _ := rfl
  count := rfl

/-- Stores with the same streams answer alike, whichever of the empty ones have entries. -/
theorem AnswersAs.of_stream {store other : Store} (distinct : store.Distinct)
    (too : other.Distinct) (same : ∀ key, store.stream key = other.stream key) :
    store.AnswersAs other where
  records key := congrArg Stream.records (same key)
  header key := congrArg Stream.version (same key)
  initiators key initiator := by
    rw [containsInitiator, containsInitiator, Store.records, Store.records, same]
  count := streamCount_congr distinct too same

/-- The stores that come of transactions. An entry for a stream may be made at any time: those who
submit to it look for the stream first, and others may come before they go on. -/
inductive Reached : Store → Prop where
  | empty : Reached {}
  | submitted {store : Store} (before : Reached store) (transaction : Transaction) :
      Reached (store.submit transaction).1
  | reserved {store : Store} (before : Reached store) (key : StreamKey) :
      Reached (store.reserve key)

namespace Reached

variable {store : Store}

theorem distinct (reached : store.Reached) : store.Distinct := by
  induction reached with
  | empty => exact List.nodup_nil
  | submitted before transaction ih => exact ih.submit transaction
  | reserved before key ih => exact Keyed.nodup_keys_set ih _ _

theorem indexed (reached : store.Reached) (key : StreamKey) : (store.stream key).Indexed := by
  induction reached with
  | empty => exact .empty
  | submitted before transaction ih =>
    rw [stream_submit]
    split
    · rename_i taken
      exact ih.apply taken.2
    · exact ih
  | reserved before other ih =>
    rw [stream_reserve]
    exact ih

/-- Either way of submitting leads to a store that comes of transactions. -/
theorem submit {backend : Backend Store}
    (memory : backend = Store.backend ∨ backend = Store.reserving) (reached : store.Reached)
    (transaction : Transaction) : (backend.submit transaction store).2.Reached := by
  rcases memory with rfl | rfl
  · exact reached.submitted transaction
  · exact (reached.reserved transaction.stream).submitted transaction

end Reached

theorem keeps_of_memory {backend : Backend Store}
    (memory : backend = Store.backend ∨ backend = Store.reserving) : backend.Keeps := by
  rcases memory with rfl | rfl
  · exact keeps_backend
  · exact keeps_reserving

/-- Whatever was submitted before, a transaction is committed exactly if the header of its stream is
as it says and no position and no identity of its events is taken or comes twice. Then it is
appended as a whole, and else nobody can tell that it was submitted. -/
theorem Reached.commits_iff_untaken {backend : Backend Store}
    (memory : backend = Store.backend ∨ backend = Store.reserving) {store : Store}
    (reached : store.Reached) (transaction : Transaction) :
    let events := (store.records transaction.stream).flatMap Record.events
    let (answer, after) := backend.submit transaction store
    (answer = .ok .committed ↔
      transaction.header.Holds (store.header transaction.stream) ∧
        Untaken (·.position) events transaction.events ∧
        Untaken (·.id) events transaction.events) ∧
      (answer = .ok .committed →
        after.records transaction.stream =
            store.records transaction.stream ++ transaction.records ∧
          after.header transaction.stream = some transaction.newVersion ∧
          ∀ key, key ≠ transaction.stream → after.stream key = store.stream key) ∧
      (answer ≠ .ok .committed → answer = .ok .conflict ∧ after.AnswersAs store) ∧
      after.Reached ∧ ∀ key, (store.stream key).Indexed := by
  intro events
  have keeps := keeps_of_memory memory
  have answered := keeps.answer transaction store
  have streams := keeps.stream transaction store
  have later := reached.submit memory transaction
  have decided := (reached.indexed transaction.stream).accepts_iff transaction
  generalize backend.submit transaction store = both at answered streams later ⊢
  obtain ⟨answer, after⟩ := both
  dsimp only at answered streams later ⊢
  rw [outcome_submit] at answered
  cases accepted : (store.stream transaction.stream).accepts transaction with
  | true =>
    rw [accepted, if_pos rfl] at answered
    have own : after.stream transaction.stream =
        (store.stream transaction.stream).apply transaction := by
      rw [streams, stream_submit, if_pos ⟨rfl, accepted⟩]
    refine ⟨⟨fun _ => decided.mp accepted, fun _ => answered⟩, fun _ => ⟨?_, ?_, ?_⟩,
      fun failed => absurd answered failed, later, reached.indexed⟩
    · exact congrArg Stream.records own
    · exact congrArg Stream.version own
    · intro key other
      rw [streams, stream_submit, if_neg fun both => other both.1]
  | false =>
    rw [accepted, if_neg Bool.false_ne_true] at answered
    have refused : answer ≠ .ok .committed := by
      rw [answered]
      simp
    have same (key : StreamKey) : after.stream key = store.stream key := by
      rw [streams, submit_of_refuses accepted]
    refine ⟨⟨fun done => absurd done refused, fun holds => ?_⟩, fun done => absurd done refused,
      fun _ => ⟨answered, .of_stream later.distinct reached.distinct same⟩, later,
      reached.indexed⟩
    cases accepted.symm.trans (decided.mpr holds)

/-- An event that nobody has planned. -/
def stray (position : Int) (id : Nat) : StoredEvent :=
  { (default : StoredEvent) with
    id := Uuid.ofNat id, stream := ⟨"account"⟩, position := position }

/-- Events out of order, under a header that does not fit them. -/
def strays : Transaction :=
  ⟨⟨"account"⟩, .create ⟨4⟩, [.single (stray 7 1), .packed ⟨stray 3 2, [stray 5 3]⟩]⟩

/-- A gap is filled and the header goes back; a packet that has one identity twice is refused. -/
theorem commits_iff_untaken_strays :
    let store := (({} : Store).submit strays).1
    let filling : Transaction := ⟨⟨"account"⟩, .advance ⟨4⟩ ⟨2⟩, [.single (stray 6 4)]⟩
    let repeating : Transaction :=
      ⟨⟨"account"⟩, .advance ⟨4⟩ ⟨9⟩, [.packed ⟨stray 6 4, [stray 8 4]⟩]⟩
    (reserving.submit filling store).1 = .ok .committed ∧
      (reserving.submit filling store).2.header ⟨"account"⟩ = some ⟨2⟩ ∧
      (reserving.submit repeating store).1 = .ok .conflict ∧
      (reserving.submit repeating store).2.AnswersAs store := by
  intro store filling repeating
  have reached : store.Reached := Reached.empty.submitted strays
  obtain ⟨fills, filled, -⟩ := reached.commits_iff_untaken (.inr rfl) filling
  obtain ⟨repeats, -, refused, -⟩ := reached.commits_iff_untaken (.inr rfl) repeating
  have done := fills.mpr (by decide)
  exact ⟨done, (filled done).2.1, refused fun taken => absurd (repeats.mp taken) (by decide)⟩

end Store

end EventSourcing
