import EventSourcing.Proofs.Holders

/-!
What stays true for those who hold aggregates: their writers stay on course, and an aggregate that
is being saved is still what its save was made from.
-/

namespace EventSourcing

variable {κ : Type} [EventFamily κ]

/-- What a save says of the write that it asks for. -/
structure Snapshot.Asks {type : AggregateType κ} (snapshot : Snapshot type) (request : Write) :
    Prop where
  admitted : request.expected.Admits snapshot.version
  retrieved : request.retrieved = snapshot.version
  encoded : Event.encodeAll snapshot.aggregate.pending = .ok request.events
  filled : request.events ≠ []

/-- All that a save can ask for. -/
inductive AggregateType.Requested (type : AggregateType κ) (stream : StreamKey) (id : type.Id)
    (snapshot : Snapshot type) (expected : ExpectedVersion) (origin : Origin) :
    Except Error (Option Write) → Prop where
  | refused {error : Error} : Requested type stream id snapshot expected origin (.error error)
  | nothing (rests : snapshot.aggregate.pending = []) :
      Requested type stream id snapshot expected origin (.ok none)
  | asked {events : List NewEvent} (admitted : expected.Admits snapshot.version)
      (encoded : Event.encodeAll snapshot.aggregate.pending = .ok events) (filled : events ≠ []) :
      Requested type stream id snapshot expected origin
        (.ok (some
          { stream := stream
            events := events
            retrieved := snapshot.version
            expected := expected
            origin := type.signed id origin }))

theorem AggregateType.requested_saveRequest (type : AggregateType κ) (stream : StreamKey)
    (id : type.Id) (snapshot : Snapshot type) (expected : ExpectedVersion) (origin : Origin) :
    type.Requested stream id snapshot expected origin
      (type.saveRequest stream id snapshot expected origin) := by
  unfold saveRequest
  split
  · rename_i admitted
    cases waiting : snapshot.aggregate.pending with
    | nil => exact .nothing waiting
    | cons event rest =>
      cases encoded : Event.encodeAll (event :: rest) with
      | error reason =>
        simp only [encoded, Except.map]
        exact .refused
      | ok events =>
        have counted := Event.length_of_encodeAll encoded
        simp only [encoded, Except.map]
        exact .asked admitted (waiting ▸ encoded) (List.ne_nil_of_length_eq_add_one counted)
  · exact .refused

theorem AggregateType.asks_of_saveRequest {type : AggregateType κ} {stream : StreamKey}
    {id : type.Id} {snapshot : Snapshot type} {expected : ExpectedVersion} {origin : Origin}
    {request : Write}
    (made : type.saveRequest stream id snapshot expected origin = .ok (some request)) :
    snapshot.Asks request := by
  have requested := type.requested_saveRequest stream id snapshot expected origin
  rw [made] at requested
  cases requested with
  | asked admitted encoded filled => exact ⟨admitted, rfl, encoded, filled⟩

theorem AggregateType.fields_of_saveRequest {type : AggregateType κ} {stream : StreamKey}
    {id : type.Id} {snapshot : Snapshot type} {expected : ExpectedVersion} {origin : Origin}
    {request : Write}
    (made : type.saveRequest stream id snapshot expected origin = .ok (some request)) :
    request.stream = stream ∧ request.expected = expected ∧
      request.origin = type.signed id origin := by
  have requested := type.requested_saveRequest stream id snapshot expected origin
  rw [made] at requested
  cases requested with
  | asked => exact ⟨rfl, rfl, rfl⟩

theorem AggregateType.version_of_rehydrate {type : AggregateType κ} {id : type.Id}
    {events : List StoredEvent} {snapshot : Snapshot type}
    (made : type.rehydrate id events = .ok (some snapshot)) :
    snapshot.version = Version.ofCount events.length := by
  cases events with
  | nil => simp [rehydrate] at made
  | cons event rest =>
    simp only [rehydrate] at made
    cases replayed : (type.replay false (type.blank id) (event :: rest)).outcome with
    | error reason => simp [replayed, Except.map] at made
    | ok count =>
      simp only [replayed, Except.map, Except.ok.injEq, Option.some.injEq] at made
      rw [← made]

/-- The version that a writer has ended at is one that a stream can have. -/
theorem Fleet.Inv.proper_of_ok {fleet : Fleet} (inv : fleet.Inv) {number : Nat} {job : Job}
    (busy : fleet.jobs[number]? = some job) {version : Version} {committed : Option Transaction}
    (done : job.writer.phase = .finished (.ok version) committed) : version.Proper := by
  obtain ⟨settings, -, onCourse⟩ := inv.jobs number job busy
  have stands := onCourse.at_phase done
  cases committed with
  | none => exact stands.1
  | some transaction =>
    obtain ⟨rfl, member⟩ := stands
    have sound := inv.follows.commits _ member
    have growing := sound.growing
    have proper := sound.proper
    simp only [Version.Proper] at proper growing ⊢
    omega

namespace Handle

variable {type : AggregateType κ}

/-- A save ends only with its job, and changes the aggregate only if the job ended well. -/
theorem concluded_cases (handle : Handle type) (fleet : Fleet) :
    handle.concluded fleet = handle ∨
      handle.concluded fleet = { handle with saving := none } ∨
      ∃ saving job version committed, handle.saving = some saving ∧
        fleet.jobs[saving.job]? = some job ∧
        job.writer.phase = .finished (.ok version) committed ∧
        handle.concluded fleet = { snapshot := handle.snapshot.map (·.saved version) } := by
  unfold concluded
  split
  · rename_i database write retryLimit result committed retries done
    obtain ⟨saving, waiting, busy⟩ := Option.bind_eq_some_iff.mp done
    cases result with
    | error reason => exact .inr (.inl rfl)
    | ok version => exact .inr (.inr ⟨saving, _, version, committed, waiting, busy, rfl, rfl⟩)
  · exact .inl rfl

structure Sound (handle : Handle type) (fleet : Fleet) : Prop where
  proper : ∀ snapshot, handle.snapshot = some snapshot → snapshot.version.Proper
  waits : ∀ saving, handle.saving = some saving →
    ∃ snapshot writer, handle.snapshot = some snapshot ∧ snapshot.Asks saving.request ∧
      fleet.jobs[saving.job]? = some ⟨saving.database, writer⟩ ∧ writer.write = saving.request

theorem sound_empty (fleet : Fleet) : ({} : Handle type).Sound fleet where
  proper _ held := nomatch held
  waits _ waiting := nomatch waiting

/-- A handle that waits for nothing depends on no job. -/
theorem sound_idle (snapshot : Snapshot type) (proper : snapshot.version.Proper) (fleet : Fleet) :
    ({ snapshot := some snapshot } : Handle type).Sound fleet where
  proper _ held := Option.some.inj held ▸ proper
  waits _ waiting := nomatch waiting

namespace Sound

variable {handle : Handle type} {fleet : Fleet}

theorem step (sound : handle.Sound fleet) {after : Fleet} (step : fleet.Step after) :
    handle.Sound after where
  proper := sound.proper
  waits saving waiting := by
    obtain ⟨snapshot, writer, held, asks, busy, same⟩ := sound.waits saving waiting
    obtain ⟨later, still, kept⟩ := step.job busy
    exact ⟨snapshot, later, held, asks, still, kept.trans same⟩

theorem abandoned (sound : handle.Sound fleet) : { handle with saving := none }.Sound fleet where
  proper := sound.proper
  waits _ waiting := nomatch waiting

theorem concluded (sound : handle.Sound fleet) (inv : fleet.Inv) :
    (handle.concluded fleet).Sound fleet := by
  rcases handle.concluded_cases fleet with
    same | same | ⟨saving, job, version, committed, -, busy, done, same⟩
  · rw [same]
    exact sound
  · rw [same]
    exact sound.abandoned
  · rw [same]
    refine ⟨?_, fun _ waiting => nomatch waiting⟩
    intro snapshot held
    obtain ⟨before, -, rfl⟩ := Option.map_eq_some_iff.mp held
    exact inv.proper_of_ok busy done

theorem loaded (sound : handle.Sound fleet) {id : type.Id}
    (answer : Except Error (List StoredEvent)) :
    (handle.loaded (answer.bind (type.rehydrate id))).Sound fleet := by
  unfold Handle.loaded
  split
  · rename_i snapshot found
    refine sound_idle snapshot ?_ fleet
    cases answer with
    | error reason => cases found
    | ok events =>
      rw [AggregateType.version_of_rehydrate found]
      exact Version.proper_ofCount _
  · exact sound

end Sound

end Handle

namespace Holders

variable {ι : Type} {types : ι → AggregateType κ}

structure Inv (holders : Holders types) : Prop where
  fleet : holders.fleet.Inv
  handles : ∀ h, (holders.handles h).Sound holders.fleet

theorem inv_opened (types : ι → AggregateType κ) (planners : List Planner) :
    (opened types planners).Inv where
  fleet := Fleet.inv_opened planners
  handles _ := Handle.sound_empty _

/-- Handles do not mind what the writers do. -/
theorem Inv.step {holders : Holders types} (inv : holders.Inv) {after : Fleet}
    (step : holders.fleet.Step after) : { holders with fleet := after }.Inv where
  fleet := inv.fleet.step step
  handles h := (inv.handles h).step step

variable [DecidableEq ι]

/-- A save becomes a job that carries its request, or nothing. -/
theorem save_eq (holders : Holders types) (h : ι) (database : Nat) (stream : StreamKey)
    (id : (types h).Id) (expected : ExpectedVersion) (origin : Origin) :
    holders.save h database stream id expected origin = holders ∨
      ∃ snapshot request, (holders.handles h).snapshot = some snapshot ∧
        (types h).saveRequest stream id snapshot expected origin = .ok (some request) ∧
        holders.save h database stream id expected origin =
          { holders with fleet := holders.fleet.launch database request }.place h
            { snapshot := some snapshot
              saving := some ⟨holders.fleet.jobs.length, database, request⟩ } := by
  unfold save
  cases held : (holders.handles h).snapshot with
  | none => exact .inl rfl
  | some snapshot =>
    cases made : (types h).saveRequest stream id snapshot expected origin with
    | error reason => exact .inl (by simp [made])
    | ok asked =>
      cases asked with
      | none => exact .inl (by simp [made])
      | some request => exact .inr ⟨snapshot, request, rfl, made, by simp only [made]⟩

namespace Inv

variable {holders : Holders types}

theorem place (inv : holders.Inv) {h : ι} {handle : Handle (types h)}
    (sound : handle.Sound holders.fleet) : (holders.place h handle).Inv where
  fleet := inv.fleet
  handles other := by
    by_cases here : other = h
    · subst here
      rw [place_self]
      exact sound
    · rw [place_of_ne _ here]
      exact inv.handles other

/-- What is known of the request of a save that becomes a job. -/
theorem save_cases (inv : holders.Inv) (h : ι) {database : Nat} (stream : StreamKey)
    (id : (types h).Id) (expected : ExpectedVersion) (origin : Origin) :
    holders.save h database stream id expected origin = holders ∨
      ∃ snapshot request, (holders.handles h).snapshot = some snapshot ∧
        snapshot.Asks request ∧ request.stream = stream ∧ request.retrieved.Proper ∧
        holders.save h database stream id expected origin =
          { holders with fleet := holders.fleet.launch database request }.place h
            { snapshot := some snapshot
              saving := some ⟨holders.fleet.jobs.length, database, request⟩ } := by
  rcases holders.save_eq h database stream id expected origin with
    same | ⟨snapshot, request, held, made, same⟩
  · exact .inl same
  · have asks := AggregateType.asks_of_saveRequest made
    have onto := (AggregateType.fields_of_saveRequest made).1
    have proper := (inv.handles h).proper snapshot held
    exact .inr ⟨snapshot, request, held, asks, onto, asks.retrieved ▸ proper, same⟩

theorem save (inv : holders.Inv) (h : ι) {database : Nat}
    (listed : database < holders.fleet.planners.length) (stream : StreamKey) (id : (types h).Id)
    (expected : ExpectedVersion) (origin : Origin) :
    (holders.save h database stream id expected origin).Inv := by
  rcases inv.save_cases h stream id expected origin with
    same | ⟨snapshot, request, held, asks, -, proper, same⟩
  · rw [same]
    exact inv
  · have launched := inv.step (holders.fleet.launch_step database proper)
    rw [same]
    refine launched.place ⟨?_, ?_⟩
    · intro other again
      obtain rfl := Option.some.inj again
      exact (inv.handles h).proper _ held
    · intro saving waiting
      obtain rfl := Option.some.inj waiting
      refine ⟨snapshot, Writer.start request holders.fleet.planners[database].settings.retryLimit,
        rfl, asks, ?_, rfl⟩
      simp [Fleet.launch, listed]

theorem act (inv : holders.Inv) (deed : Deed types) : (holders.act deed).Inv := by
  cases deed with
  | create h aggregate =>
    simp only [Holders.act]
    split
    · exact inv.place (Handle.sound_idle _ (Int.le_refl _) _)
    · exact inv
  | load h naming id =>
    simp only [Holders.act]
    split
    · exact inv.place ((inv.handles h).loaded _)
    · exact inv
  | change h aggregate =>
    simp only [Holders.act]
    split
    · refine inv.place ⟨?_, fun _ waiting => nomatch waiting⟩
      intro snapshot held
      obtain ⟨before, kept, rfl⟩ := Option.map_eq_some_iff.mp held
      exact (inv.handles h).proper before kept
    · exact inv
  | save h database naming id expected origin =>
    simp only [Holders.act]
    split
    · exact inv.save h ‹_ ∧ _›.2 _ id expected origin
    · exact inv
  | conclude h => exact inv.place ((inv.handles h).concluded inv.fleet)
  | abandon h => exact inv.place (inv.handles h).abandoned
  | work action => exact inv.step (holders.fleet.act_step action)

theorem run (inv : holders.Inv) (deeds : List (Deed types)) : (holders.run deeds).Inv := by
  induction deeds generalizing holders with
  | nil => exact inv
  | cons deed rest ih => exact ih (inv.act deed)

/-- Whatever holders do, the writers do one thing at most. -/
theorem fleet_step (inv : holders.Inv) (deed : Deed types) :
    holders.fleet.Step (holders.act deed).fleet := by
  cases deed with
  | save h database naming id expected origin =>
    simp only [Holders.act]
    split
    · rcases inv.save_cases h _ id expected origin with
        same | ⟨snapshot, request, -, -, -, proper, same⟩
      · rw [same]
        exact .rests
      · rw [same]
        exact holders.fleet.launch_step database proper
    · exact .rests
  | work action => exact holders.fleet.act_step action
  | conclude h => exact .rests
  | abandon h => exact .rests
  | _ =>
    simp only [Holders.act]
    split <;> exact .rests

end Inv

end Holders

end EventSourcing
