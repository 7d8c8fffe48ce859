import EventSourcing.Store.Planner

/-!
What a planned transaction holds. Its events are those of the write, in their order and with the
origin of the write, at the positions that follow the baseline.
-/

namespace EventSourcing

/-- So many positions in a row. -/
def places (start : Int) : Nat → List Int
  | 0 => []
  | count + 1 => start :: places (start + 1) count

@[simp] theorem length_places (start : Int) (count : Nat) :
    (places start count).length = count := by
  induction count generalizing start with
  | zero => rfl
  | succ count ih => simp [places, ih]

theorem places_append (start : Int) (first second : Nat) :
    places start first ++ places (start + first) second = places start (first + second) := by
  induction first generalizing start with
  | zero => simp [places]
  | succ first ih =>
    rw [Nat.succ_add, places, places, List.cons_append, ← ih (start + 1)]
    have next : start + ((first + 1 : Nat) : Int) = start + 1 + first := by omega
    rw [next]

theorem places_eq_map_range' (start : Int) (index count : Nat) :
    places (start + index) count =
      (List.range' index count).map fun (place : Nat) => start + place := by
  induction count generalizing index with
  | zero => rfl
  | succ count ih =>
    have next : start + index + 1 = start + (index + 1 : Nat) := by omega
    rw [places, next, ih, List.range'_succ, List.map_cons]

theorem mem_places {start position : Int} {count : Nat} :
    position ∈ places start count ↔ start ≤ position ∧ position < start + count := by
  induction count generalizing start with
  | zero =>
    simp only [places, List.not_mem_nil, false_iff]
    omega
  | succ count ih =>
    simp only [places, List.mem_cons, ih]
    omega

theorem increasing_places (start : Int) (count : Nat) :
    (places start count).Pairwise (· < ·) := by
  induction count generalizing start with
  | zero => exact List.Pairwise.nil
  | succ count ih =>
    refine List.Pairwise.cons ?_ (ih (start + 1))
    intro position member
    have inside := mem_places.mp member
    omega

theorem getLast?_places (start : Int) (count : Nat) :
    (places start (count + 1)).getLast? = some (start + count) := by
  rw [← places_append]
  exact List.getLast?_concat

/-- Two lists that make up a row of positions are such rows themselves. -/
theorem eq_places_of_append {start : Int} {count : Nat} {first second : List Int}
    (whole : first ++ second = places start count) :
    first = places start first.length ∧ second = places (start + first.length) second.length := by
  have lengths := congrArg List.length whole
  rw [List.length_append, length_places] at lengths
  rw [← lengths, ← places_append] at whole
  exact List.append_inj whole (length_places start first.length).symm

/-- Whatever stands together in a row of positions is itself such a row. -/
theorem eq_places_of_infix {start first : Int} {count : Nat} {others : List Int}
    (inside : first :: others <:+: places start count) :
    first :: others = places first (others.length + 1) := by
  obtain ⟨before, after, whole⟩ := inside
  rw [List.append_assoc] at whole
  obtain ⟨-, rest⟩ := eq_places_of_append whole
  obtain ⟨row, -⟩ := eq_places_of_append rest
  rw [List.length_cons] at row
  have same : first = start + before.length := (List.cons.inj row).1
  rw [same] at row ⊢
  exact row

namespace Version

/-- Below the version of a stream without events there is none. -/
def Proper (version : Version) : Prop := -1 ≤ version.value

instance (version : Version) : Decidable version.Proper :=
  inferInstanceAs (Decidable (-1 ≤ version.value))

/-- What the header of a stream at this version shows. -/
def header (version : Version) : Option Version :=
  if version.IsPresent then some version else none

theorem header_eq_none_iff (version : Version) : version.header = none ↔ ¬version.IsPresent := by
  by_cases present : version.IsPresent <;> simp [header, present]

theorem header_eq_some_iff (version other : Version) :
    version.header = some other ↔ version.IsPresent ∧ version = other := by
  by_cases present : version.IsPresent <;> simp [header, present]

theorem isPresent_ofCount (count : Nat) : (ofCount count).IsPresent ↔ 0 < count := by
  simp only [IsPresent, ofCount]
  omega

theorem proper_absent : absent.Proper := by decide

theorem proper_ofCount (count : Nat) : (ofCount count).Proper := by
  simp only [Proper, ofCount]
  omega

theorem advance_ofCount (first second : Nat) :
    (ofCount first).advance second = ofCount (first + second) := by
  rw [← advance_absent, advance_add, advance_absent]

theorem eq_absent {version : Version} (proper : version.Proper) (missing : ¬version.IsPresent) :
    version = absent := by
  obtain ⟨value⟩ := version
  simp only [Proper, IsPresent] at proper missing
  simp only [absent, mk.injEq]
  omega

theorem header_getD {version : Version} (proper : version.Proper) :
    version.header.getD absent = version := by
  by_cases present : version.IsPresent
  · simp [header, present]
  · rw [header, if_neg present, Option.getD_none, eq_absent proper present]

end Version

namespace HeaderChange

/-- The version from which a header change goes on. -/
def baseline : HeaderChange → Version
  | .create _ => Version.absent
  | .advance expected _ => expected

theorem baseline_moving {version : Version} (proper : version.Proper) (new : Version) :
    (moving version new).baseline = version := by
  by_cases present : version.IsPresent
  · simp [moving, present, baseline]
  · rw [moving, if_neg present, baseline, Version.eq_absent proper present]

end HeaderChange

/-- What an event says, without its place. -/
def StoredEvent.content (event : StoredEvent) : NewEvent := ⟨event.eventType, event.payload⟩

namespace Write

variable (write : Write) (baseline : Version) (now : Instant)

/-- What is seen of the events in their places, if the place itself does not matter. -/
theorem map_placed {α : Type} (view : StoredEvent → α) (part : Uuid × NewEvent → α)
    (same : ∀ place id event, view (write.stored baseline now place id event) = part (id, event))
    (index : Nat) (ids : List Uuid) (events : List NewEvent) :
    (write.placed baseline now index ids events).map view = (ids.zip events).map part := by
  calc (write.placed baseline now index ids events).map view
    _ = (((ids.zip events).zipIdx index).map Prod.fst).map part := by
      rw [placed_eq_map_zipIdx, List.map_map, List.map_map]
      exact List.map_congr_left fun entry _ => same entry.2 entry.1.1 entry.1.2
    _ = (ids.zip events).map part := by rw [List.zipIdx_map_fst]

theorem content_placed (index : Nat) (ids : List Uuid) (events : List NewEvent)
    (enough : ids.length = events.length) :
    (write.placed baseline now index ids events).map StoredEvent.content = events := by
  rw [write.map_placed baseline now StoredEvent.content Prod.snd fun _ _ _ => rfl]
  exact List.map_snd_zip (Nat.le_of_eq enough.symm)

theorem ids_placed (index : Nat) (ids : List Uuid) (events : List NewEvent)
    (enough : ids.length = events.length) :
    (write.placed baseline now index ids events).map (·.id) = ids := by
  rw [write.map_placed baseline now (·.id) Prod.fst fun _ _ _ => rfl]
  exact List.map_fst_zip (Nat.le_of_eq enough)

theorem positions_placed (index : Nat) (ids : List Uuid) (events : List NewEvent)
    (enough : ids.length = events.length) :
    (write.placed baseline now index ids events).map (·.position) =
      places (baseline.value + index + 1) events.length := by
  have length : (ids.zip events).length = events.length := by
    rw [List.length_zip, enough, Nat.min_self]
  calc (write.placed baseline now index ids events).map (·.position)
    _ = (((ids.zip events).zipIdx index).map Prod.snd).map fun place =>
          (baseline.advance (place + 1)).value := by
      rw [placed_eq_map_zipIdx, List.map_map, List.map_map]
      rfl
    _ = (List.range' index events.length).map fun place =>
          (baseline.advance (place + 1)).value := by rw [List.zipIdx_map_snd, length]
    _ = places (baseline.value + 1 + index) events.length := by
      rw [places_eq_map_range']
      refine List.map_congr_left fun place _ => ?_
      change baseline.value + (place + 1 : Nat) = baseline.value + 1 + place
      omega
    _ = places (baseline.value + index + 1) events.length := by rw [Int.add_right_comm]

/-- Every event in its place is one of the write as it is stored. -/
theorem exists_of_mem_placed {index : Nat} {ids : List Uuid} {events : List NewEvent}
    {event : StoredEvent} (member : event ∈ write.placed baseline now index ids events) :
    ∃ place id new, event = write.stored baseline now place id new := by
  obtain ⟨place, found⟩ := List.mem_iff_getElem?.mp member
  obtain ⟨id, new, -, -, same⟩ := write.getElem?_placed baseline now found
  exact ⟨_, id, new, same⟩

/-- Every event gets the stream and the origin of its write. -/
theorem mem_placed {index : Nat} {ids : List Uuid} {events : List NewEvent} {event : StoredEvent}
    (member : event ∈ write.placed baseline now index ids events) :
    event.stream = write.stream ∧ event.initiator = write.origin.initiator := by
  obtain ⟨place, id, new, rfl⟩ := write.exists_of_mem_placed baseline now member
  exact ⟨rfl, rfl⟩

end Write

/-- Whether all events of a transaction have this timestamp. -/
def Transaction.StampedAt (transaction : Transaction) (instant : Instant) : Prop :=
  ∀ event ∈ transaction.events, event.occurredAt = instant

theorem Write.occurredAt_placed (write : Write) (baseline : Version) (now : Instant) {index : Nat}
    {ids : List Uuid} {events : List NewEvent} {event : StoredEvent}
    (member : event ∈ write.placed baseline now index ids events) : event.occurredAt = now := by
  obtain ⟨place, id, new, rfl⟩ := write.exists_of_mem_placed baseline now member
  rfl

/-- One reading of the clock serves a whole transaction. -/
theorem Planner.stampedAt_transaction (planner : Planner) (write : Write) (baseline : Version)
    (layout : Layout) :
    (planner.transaction write baseline layout).StampedAt planner.clock.now := by
  intro event member
  rw [events_transaction] at member
  exact write.occurredAt_placed _ _ member

/-- A transaction that a database with these settings may plan for a write from a baseline. -/
def Planned (settings : StoreSettings) (write : Write) (baseline : Version)
    (transaction : Transaction) : Prop :=
  ∃ (planner : Planner) (layout : Layout), planner.settings = settings ∧
    settings.layoutFor write.events.length = .ok layout ∧
    transaction = planner.transaction write baseline layout

theorem Planner.planned_of_plan {planner later : Planner} {write : Write} {baseline : Version}
    {transaction : Transaction} (made : planner.plan write baseline = .ok (transaction, later)) :
    Planned planner.settings write baseline transaction ∧ later.settings = planner.settings := by
  unfold plan at made
  cases fitting : planner.settings.layoutFor write.events.length with
  | error error => simp [fitting, Except.map] at made
  | ok layout =>
    simp only [fitting, Except.map, Except.ok.injEq, Prod.mk.injEq] at made
    obtain ⟨rfl, rfl⟩ := made
    exact ⟨⟨planner, layout, rfl, fitting, rfl⟩, rfl⟩

/-- Planning fails for the size of a write only. -/
theorem Planner.misfit_of_plan {planner : Planner} {write : Write} {baseline : Version}
    {error : Error} (made : planner.plan write baseline = .error error) :
    planner.settings.layoutFor write.events.length = .error error := by
  unfold plan at made
  cases fitting : planner.settings.layoutFor write.events.length with
  | ok layout => simp [fitting, Except.map] at made
  | error reason => simpa [fitting, Except.map] using made

namespace Planned

variable {settings : StoreSettings} {write : Write} {baseline : Version} {transaction : Transaction}

theorem stream (planned : Planned settings write baseline transaction) :
    transaction.stream = write.stream := by
  obtain ⟨planner, layout, -, -, rfl⟩ := planned
  rfl

theorem header (planned : Planned settings write baseline transaction) :
    transaction.header = .moving baseline (baseline.advance write.events.length) := by
  obtain ⟨planner, layout, -, -, rfl⟩ := planned
  rfl

theorem newVersion (planned : Planned settings write baseline transaction) :
    transaction.newVersion = baseline.advance write.events.length := by
  rw [Transaction.newVersion, planned.header, HeaderChange.newVersion_moving]

theorem content (planned : Planned settings write baseline transaction) :
    transaction.events.map StoredEvent.content = write.events := by
  obtain ⟨planner, layout, -, -, rfl⟩ := planned
  rw [Planner.events_transaction]
  exact write.content_placed _ _ _ _ _ (planner.length_eventIds _ _)

theorem length_events (planned : Planned settings write baseline transaction) :
    transaction.events.length = write.events.length := by
  rw [← planned.content, List.length_map]

theorem positions (planned : Planned settings write baseline transaction) :
    transaction.events.map (·.position) = places (baseline.value + 1) write.events.length := by
  obtain ⟨planner, layout, -, -, rfl⟩ := planned
  rw [Planner.events_transaction, write.positions_placed _ _ _ _ _ (planner.length_eventIds _ _)]
  simp

theorem origin (planned : Planned settings write baseline transaction) {event : StoredEvent}
    (member : event ∈ transaction.events) :
    event.stream = write.stream ∧ event.initiator = write.origin.initiator := by
  obtain ⟨planner, layout, -, -, rfl⟩ := planned
  rw [Planner.events_transaction] at member
  exact write.mem_placed _ _ member

/-- With idempotent identities, those of a known initiator are the same from any baseline and in
any layout. -/
theorem ids (planned : Planned settings write baseline transaction)
    (idempotent : settings.idempotency = true) (known : write.origin.initiator ≠ Uuid.nil) :
    transaction.events.map (·.id) =
      (List.range write.events.length).map write.origin.initiator.derived := by
  obtain ⟨planner, layout, rfl, -, rfl⟩ := planned
  rw [Planner.events_transaction, write.ids_placed _ _ _ _ _ (planner.length_eventIds _ _)]
  simp [Planner.eventIds, Planner.Derives, idempotent, known]

end Planned

end EventSourcing
