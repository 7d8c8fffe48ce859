import EventSourcing.Proofs.Desk
import EventSourcing.Proofs.Drafts
import EventSourcing.Proofs.Holders.Timestamps

/-!
What a save stores. Each pending event becomes one stored event, in its order: what it says is the
event's own, where and for whom it is stored is the save's, and when and under which identity is
settled by the database at the moment at which the committed transaction was drafted.
-/

namespace EventSourcing

variable {κ : Type} [EventFamily κ]

namespace Stream

/-- The events at so many positions after a version. -/
def after (stream : Stream) (version : Version) (count : Nat) : List StoredEvent :=
  stream.events.filter fun event =>
    version.value < event.position ∧ event.position ≤ version.value + count

/-- Nothing but what was planned comes to the positions that it was planned for. -/
theorem Indexed.after_apply {stream : Stream} (indexed : stream.Indexed)
    {settings : StoreSettings} {write : Write} {baseline : Version} {transaction : Transaction}
    (planned : Planned settings write baseline transaction)
    (accepted : stream.accepts transaction = true) :
    (stream.apply transaction).after baseline write.events.length = transaction.events := by
  have taken (place : Int) : place ∈ transaction.events.map (·.position) ↔
      baseline.value < place ∧ place ≤ baseline.value + write.events.length := by
    rw [planned.positions, mem_places]
    omega
  obtain ⟨-, untaken, -⟩ := (indexed.accepts_iff transaction).mp accepted
  have others : stream.after baseline write.events.length = [] := by
    rw [after, List.filter_eq_nil_iff]
    intro other beside inside
    obtain ⟨event, member, same⟩ :=
      List.mem_map.mp ((taken other.position).mpr (of_decide_eq_true inside))
    exact untaken.2 event member other beside same
  rw [after] at others ⊢
  rw [events_apply, List.filter_append, others, List.nil_append, List.filter_eq_self]
  intro event member
  exact decide_eq_true ((taken event.position).mp (List.mem_map_of_mem member))

end Stream

/-- Where a list of events could be encoded, so could each of them. -/
theorem Event.encode_of_encodeAll {events : List (Event κ)} {encoded : List NewEvent}
    (done : encodeAll events = .ok encoded) {place : Nat} {event : Event κ} {new : NewEvent}
    (found : events[place]? = some event) (made : encoded[place]? = some new) :
    event.encode = .ok new := by
  induction events generalizing encoded place with
  | nil => simp at found
  | cons head rest ih =>
    cases first : head.encode with
    | error error => simp [encodeAll, first, bind, Except.bind] at done
    | ok one =>
      cases others : encodeAll rest with
      | error error => simp [encodeAll, first, others, bind, Except.bind] at done
      | ok more =>
        simp only [encodeAll, first, others, bind, Except.bind, pure, Except.pure] at done
        obtain rfl := Except.ok.inj done
        cases place with
        | zero =>
          obtain rfl := Option.some.inj found
          obtain rfl := Option.some.inj made
          exact first
        | succ place => exact ih others found made

namespace AggregateType

/-- What is stored of an event that was pending at a place, in a save that goes on from `baseline`
and draws identities from number `first` on. -/
structure Entry (type : AggregateType κ) (stream : StreamKey) (id : type.Id) (origin : Origin)
    (database : Planner) (instant : Instant) (first : Nat) (baseline : Version) (place : Nat)
    (event : Event κ) (stored : StoredEvent) : Prop where
  content : event.encode = .ok stored.content
  stream : stored.stream = stream
  position : stored.position = baseline.value + 1 + place
  conversation : stored.conversation = origin.conversation
  initiator : stored.initiator = origin.initiator
  occurredAt : stored.occurredAt = instant
  properties : ∀ key, stored.properties.find? key =
    (origin.properties.find? key).or
      (if key = "aggregate-type" then some type.name
        else if key = "aggregate-id" then some (type.idText id) else none)
  identity : stored.id =
    if database.Derives origin.initiator then origin.initiator.derived place
    else database.ids.draw (first + place)

/-- What a save of pending events has made of a store by committing a transaction, while its
database went on from `since` to `now`. -/
structure Entered (type : AggregateType κ) (stream : StreamKey) (id : type.Id) (origin : Origin)
    (pending : List (Event κ)) (since now : Planner) (baseline : Version)
    (transaction : Transaction) (store : Store) : Prop where
  moves : transaction.header = .moving baseline (baseline.advance pending.length)
  header : store.header stream = some (baseline.advance pending.length)
  operations : transaction.operationCount ≤ since.settings.maxOperations
  count : transaction.events.length = pending.length
  /-- Nothing else stands at these positions. -/
  alone : (store.stream stream).after baseline pending.length = transaction.events
  /-- All events have one reading of the clock in common, and those that are drawn are drawn in a
  row. -/
  entries : ∃ number first, (since.clock.taken ≤ number ∧ number < now.clock.taken) ∧
    since.ids.issued ≤ first ∧
    (¬since.Derives origin.initiator → first + pending.length ≤ now.ids.issued) ∧
    ∀ place event stored, pending[place]? = some event →
      transaction.events[place]? = some stored →
      type.Entry stream id origin since (since.clock.reading number) first baseline place event
        stored

/-- The properties of a save are those of its caller, and beside them two about the aggregate. -/
theorem find?_properties_signed (type : AggregateType κ) (id : type.Id) (origin : Origin)
    (key : String) :
    (type.signed id origin).properties.find? key =
      (origin.properties.find? key).or
        (if key = "aggregate-type" then some type.name
          else if key = "aggregate-id" then some (type.idText id) else none) := by
  simp only [signed, Properties.find?_setNew]
  by_cases named : key = "aggregate-type"
  · subst named
    cases held : origin.properties.find? "aggregate-type" <;> simp
  · by_cases identified : key = "aggregate-id"
    · subst identified
      cases held : origin.properties.find? "aggregate-id" <;> simp
    · simp [named, identified]

variable {type : AggregateType κ} {stream : StreamKey} {id : type.Id} {snapshot : Snapshot type}
  {expected : ExpectedVersion} {origin : Origin} {request : Write} {since now : Planner}
  {baseline : Version} {transaction : Transaction} {store : Store}

/-- A save moves its stream on by as many versions as events are pending. -/
theorem newVersion_of_drafted
    (made : type.saveRequest stream id snapshot expected origin = .ok (some request))
    (drafted : transaction.Drafted since now request baseline) :
    transaction.newVersion = baseline.advance snapshot.aggregate.pending.length := by
  have counted := Event.length_of_encodeAll (asks_of_saveRequest made).encoded
  rw [drafted.planned.newVersion, counted]

/-- The transaction of a save, once it is accepted. -/
theorem entered_of_drafted
    (made : type.saveRequest stream id snapshot expected origin = .ok (some request))
    (drafted : transaction.Drafted since now request baseline)
    (indexed : (store.stream stream).Indexed)
    (accepted : (store.stream transaction.stream).accepts transaction = true) :
    type.Entered stream id origin snapshot.aggregate.pending since now baseline transaction
      (store.submit transaction).1 := by
  have asks := asks_of_saveRequest made
  obtain ⟨onto, -, signed⟩ := fields_of_saveRequest made
  have planned := drafted.planned
  have counted := Event.length_of_encodeAll asks.encoded
  have own : transaction.stream = stream := planned.stream.trans onto
  rw [own] at accepted
  have landed : (store.submit transaction).1.stream stream =
      (store.stream stream).apply transaction := by
    rw [Store.stream_submit, if_pos ⟨own.symm, accepted⟩]
  refine { moves := counted ▸ planned.header, header := ?header,
           operations := drafted.operationCount_le asks.filled,
           count := planned.length_events.trans counted, alone := ?alone, entries := ?entries }
  case header =>
    rw [Store.header, landed, ← newVersion_of_drafted made drafted]
    rfl
  case alone =>
    rw [landed, ← counted]
    exact indexed.after_apply planned accepted
  case entries =>
    obtain ⟨number, first, read, issued, drawn, moment⟩ := drafted.exists_moment
    rw [signed] at drawn moment
    refine ⟨number, first, read, issued, fun draws => counted ▸ drawn draws, ?_⟩
    intro place event stored found held
    obtain ⟨new, listed, rfl⟩ := moment place stored held
    exact
      { content := Event.encode_of_encodeAll asks.encoded found listed
        stream := onto
        position := by simp only [Write.stored, Version.advance]; omega
        conversation := by rw [Write.stored, signed]; rfl
        initiator := by rw [Write.stored, signed]; rfl
        occurredAt := rfl
        properties := fun key => by
          rw [Write.stored, signed]
          exact find?_properties_signed type id origin key
        identity := rfl }

/-- A save whose write has gone through. -/
theorem save_over (naming : StreamNaming) {planner : Planner}
    (made : type.saveRequest (naming type.name (type.idText id)) id snapshot expected origin =
      .ok (some request))
    {version : Version}
    (answered : (Store.backend.write planner request store).result = .ok version) :
    (type.over naming).save id snapshot expected origin (planner, store) =
      (.ok (), snapshot.saved version, (Store.backend.write planner request store).planner,
        (Store.backend.write planner request store).state) := by
  have asked : (type.over naming).type.saveRequest ((type.over naming).stream id) id snapshot
      expected origin = .ok (some request) := made
  have storage : (type.over naming).storage = Store.storage := rfl
  simp only [Repository.save, asked, storage, Store.storage, answered]
  rfl

end AggregateType

/-- Whether a handle waits for no job but one. -/
def Handle.AwaitsOnly {type : AggregateType κ} (handle : Handle type) (job : Nat) : Prop :=
  ∀ saving, handle.saving = some saving → saving.job = job

theorem Handle.awaitsOnly_of_free {type : AggregateType κ} {handle : Handle type}
    (free : handle.saving = none) (job : Nat) : handle.AwaitsOnly job := by
  intro saving waiting
  simp [free] at waiting

namespace Holders

variable {ι : Type} [DecidableEq ι] {types : ι → AggregateType κ} {holders : Holders types}

/-- What no step of a fleet can undo is there whatever holders do. -/
theorem Inv.run_fleet (inv : holders.Inv) {holds : Fleet → Prop}
    (kept : ∀ fleet after : Fleet, fleet.Step after → holds fleet → holds after)
    (here : holds holders.fleet) (deeds : List (Deed types)) :
    holds (holders.run deeds).fleet := by
  induction deeds generalizing holders with
  | nil => exact here
  | cons deed rest ih => exact ih (inv.act deed) (kept _ _ (inv.fleet_step deed) here)

/-- A deed leaves the fleet alone, or is one thing that happens there. -/
theorem fleet_act (holders : Holders types) (deed : Deed types) :
    (holders.act deed).fleet = holders.fleet ∨
      (∃ database write, (holders.act deed).fleet = holders.fleet.launch database write) ∨
      ∃ number, (holders.act deed).fleet = holders.fleet.advance number := by
  cases deed with
  | work action =>
    cases action with
    | launch database write proper => exact .inr (.inl ⟨database, write, rfl⟩)
    | advance number => exact .inr (.inr ⟨number, rfl⟩)
  | save h database naming id expected origin =>
    simp only [act]
    split
    · rcases holders.save_eq h database _ id expected origin with same | ⟨_, request, -, -, same⟩
      · exact .inl (congrArg fleet same)
      · exact .inr (.inl ⟨database, request, congrArg fleet same⟩)
    · exact .inl rfl
  | conclude h => exact .inl rfl
  | abandon h => exact .inl rfl
  | _ =>
    simp only [act]
    split <;> exact .inl rfl

/-- A handle waits for no job that was taken on before, unless it did so already. -/
theorem handles_act (holders : Holders types) (deed : Deed types) (h : ι) :
    (holders.act deed).handles h = holders.handles h ∨
      ((holders.act deed).handles h).AwaitsOnly holders.fleet.jobs.length := by
  have placed {base : Holders types} (same : base.handles = holders.handles) (chosen : ι)
      {handle : Handle (types chosen)} (new : handle = holders.handles chosen ∨
        handle.AwaitsOnly holders.fleet.jobs.length) :
      (base.place chosen handle).handles h = holders.handles h ∨
        ((base.place chosen handle).handles h).AwaitsOnly holders.fleet.jobs.length := by
    by_cases here : h = chosen
    · subst here
      rwa [place_self]
    · rw [place_of_ne _ here, same]
      exact .inl rfl
  have freed (chosen : ι) {handle : Handle (types chosen)} (free : handle.saving = none) :=
    placed rfl chosen (.inr (Handle.awaitsOnly_of_free free holders.fleet.jobs.length))
  cases deed with
  | work action => exact .inl rfl
  | conclude chosen =>
    simp only [act]
    rcases (holders.handles chosen).concluded_cases holders.fleet with
      same | same | ⟨_, _, _, _, -, -, -, same⟩
    · exact placed rfl chosen (.inl same)
    · exact freed chosen (congrArg Handle.saving same)
    · exact freed chosen (congrArg Handle.saving same)
  | abandon chosen => exact freed chosen rfl
  | create chosen aggregate =>
    simp only [act]
    split
    · exact freed chosen rfl
    · exact .inl rfl
  | load chosen naming id =>
    simp only [act]
    split
    · unfold Handle.loaded
      split
      · exact freed chosen rfl
      · exact placed rfl chosen (.inl rfl)
    · exact .inl rfl
  | change chosen aggregate =>
    simp only [act]
    split
    · exact freed chosen rfl
    · exact .inl rfl
  | save chosen database naming id expected origin =>
    simp only [act]
    split
    · rcases holders.save_eq chosen database _ id expected origin with
        same | ⟨_, request, -, -, same⟩
      · rw [same]
        exact .inl rfl
      · rw [same]
        refine placed rfl chosen (.inr fun saving waiting => ?_)
        rw [← Option.some.inj waiting]
    · exact .inl rfl

/-- Whether a job is on its way, and whoever waits for it holds what it was made from. -/
structure Pursues (holders : Holders types) (h : ι) (snapshot : Snapshot (types h))
    (since : Planner) (write : Write) (database number : Nat) (now : Planner) : Prop where
  fleet : holders.fleet.Pursues since write database number now
  kept : ∀ saving, (holders.handles h).saving = some saving → saving.job = number →
    (holders.handles h).snapshot = some snapshot

namespace Pursues

variable {h : ι} {snapshot : Snapshot (types h)} {since now : Planner} {write : Write}
  {database number : Nat}

theorem act (pursues : holders.Pursues h snapshot since write database number now)
    (deed : Deed types) :
    ∃ later, (holders.act deed).Pursues h snapshot since write database number later := by
  have kept : ∀ saving, ((holders.act deed).handles h).saving = some saving →
      saving.job = number → ((holders.act deed).handles h).snapshot = some snapshot := by
    rcases holders.handles_act deed h with same | new
    · rw [same]
      exact pursues.kept
    · rintro saving waiting rfl
      obtain ⟨writer, busy, -⟩ := pursues.fleet.course
      have inside := (List.getElem?_eq_some_iff.mp busy).1
      rw [new saving waiting] at inside
      exact absurd inside (Nat.lt_irrefl _)
  rcases holders.fleet_act deed with same | ⟨chosen, other, same⟩ | ⟨other, same⟩
  · exact ⟨now, same ▸ pursues.fleet, kept⟩
  · exact ⟨now, same ▸ pursues.fleet.launch chosen other, kept⟩
  · obtain ⟨later, fleet⟩ := pursues.fleet.advance other
    exact ⟨later, same ▸ fleet, kept⟩

theorem run (pursues : holders.Pursues h snapshot since write database number now)
    (deeds : List (Deed types)) :
    ∃ later, (holders.run deeds).Pursues h snapshot since write database number later := by
  induction deeds generalizing holders now with
  | nil => exact ⟨now, pursues⟩
  | cons deed rest ih =>
    obtain ⟨later, next⟩ := pursues.act deed
    exact ih next

end Pursues

theorem reached_run (types : ι → AggregateType κ) (planners : List Planner)
    (deeds : List (Deed types)) : ((opened types planners).run deeds).fleet.store.Reached :=
  (inv_opened types planners).run_fleet (fun _ _ step reached => step.reached reached) .empty deeds

theorem settled_run (types : ι → AggregateType κ) (planners : List Planner)
    (deeds : List (Deed types)) : ((opened types planners).run deeds).fleet.Settled :=
  (inv_opened types planners).run_fleet (fun _ _ step settled => settled.step step)
    (Fleet.settled_opened planners) deeds

/-- Whoever comes to wait for a save has asked for a write, and a job is on its way with it. -/
theorem pursues_save {h : ι} {snapshot : Snapshot (types h)}
    (idle : holders.handles h = { snapshot := some snapshot }) {database : Nat} {since : Planner}
    (found : holders.fleet.planners[database]? = some since) {naming : StreamNaming}
    {id : (types h).Id} {expected : ExpectedVersion} {origin : Origin} {saving : Saving}
    (waiting : ((holders.act (.save h database naming id expected origin)).handles h).saving =
      some saving) :
    ∃ request, (types h).saveRequest (naming (types h).name ((types h).idText id)) id snapshot
        expected origin = .ok (some request) ∧
      (holders.act (.save h database naming id expected origin)).Pursues h snapshot since request
        database saving.job since := by
  have free : (holders.handles h).saving = none := congrArg Handle.saving idle
  have allowed : (holders.handles h).saving.isNone ∧ database < holders.fleet.planners.length :=
    ⟨Option.isNone_iff_eq_none.mpr free, (List.getElem?_eq_some_iff.mp found).1⟩
  simp only [act, if_pos allowed] at waiting ⊢
  rcases holders.save_eq h database _ id expected origin with
    same | ⟨other, request, held, made, same⟩
  · rw [same] at waiting
    simp [free] at waiting
  · obtain rfl : other = snapshot :=
      Option.some.inj (held.symm.trans (congrArg Handle.snapshot idle))
    rw [same] at waiting ⊢
    rw [place_self] at waiting
    obtain rfl := Option.some.inj waiting
    refine ⟨request, made, Fleet.pursues_launch found request, fun _ _ _ => ?_⟩
    rw [place_self]

/-- The answer to a save that has committed. -/
theorem conclude_of_commit (inv : holders.Inv) (settled : holders.fleet.Settled) {commit : Commit}
    (member : commit ∈ holders.fleet.commits) {h : ι} {snapshot : Snapshot (types h)}
    (held : (holders.handles h).snapshot = some snapshot) {saving : Saving}
    (waiting : (holders.handles h).saving = some saving) (own : commit.job = saving.job) :
    (holders.act (.conclude h)).handles h =
      { snapshot := some (snapshot.saved commit.transaction.newVersion) } := by
  obtain ⟨database, writer, busy, done⟩ := settled.job_of_commit inv.fleet member
  rw [own] at busy
  have ended := Handle.concluded_eq waiting busy done
  simp only [act, place_self, ended, Handle.answered, held, Option.map_some]

/-- What a save stores if it commits, from whatever version its transaction goes on: alone with its
database, over any store that comes of transactions, or as a job beside others that share the store.
Each pending event stands at the place that follows the baseline, as its save and the moment of its
draft have it; the header and the aggregate move on by as many versions, and the transaction keeps
within the limit. -/
theorem save_stores (types : ι → AggregateType κ) (h : ι) (naming : StreamNaming)
    (id : (types h).Id) (snapshot : Snapshot (types h)) (expected : ExpectedVersion)
    (origin : Origin) :
    let type := types h
    let stream := naming type.name (type.idText id)
    let pending := snapshot.aggregate.pending
    (∀ (planner : Planner) (store : Store), store.Reached → ∀ request transaction,
      type.saveRequest stream id snapshot expected origin = .ok (some request) →
      (Store.backend.write planner request store).committed = some transaction →
      let (answer, saved, now, after) :=
        (type.over naming).save id snapshot expected origin (planner, store)
      ∃ baseline, answer = .ok () ∧
        saved = snapshot.saved (baseline.advance pending.length) ∧
        type.Entered stream id origin pending planner now baseline transaction after) ∧
    ∀ (planners : List Planner) (before : List (Deed types)) (database : Nat) (since : Planner),
      let holders := (opened types planners).run before
      holders.handles h = { snapshot := some snapshot } →
      holders.fleet.planners[database]? = some since →
      let asked := holders.act (.save h database naming id expected origin)
      ∀ saving, (asked.handles h).saving = some saving →
      ∀ (during : List (Deed types)) (next : Deed types) (commit : Commit),
        let meanwhile := asked.run during
        let after := meanwhile.act next
        after.fleet.commits = meanwhile.fleet.commits ++ [commit] → commit.job = saving.job →
        ∃ baseline now, after.fleet.planners[database]? = some now ∧
          type.Entered stream id origin pending since now baseline commit.transaction
            after.fleet.store ∧
          ∀ rest, ((after.run rest).handles h).saving = some saving →
            ((after.run rest).act (.conclude h)).handles h =
              { snapshot := some (snapshot.saved (baseline.advance pending.length)) } := by
  intro type stream pending
  refine ⟨?alone, ?beside⟩
  case alone =>
    intro planner store reached request transaction made committed
    obtain ⟨⟨baseline, drafted⟩, accepted, answered, left⟩ := Store.drafted_of_write committed
    have entered := AggregateType.entered_of_drafted made drafted (reached.indexed stream) accepted
    have version := AggregateType.newVersion_of_drafted made drafted
    rw [AggregateType.save_over naming made (version ▸ answered), left]
    exact ⟨baseline, rfl, rfl, entered⟩
  case beside =>
    intro planners before database since holders idle found asked saving waiting during next commit
      meanwhile after made own
    obtain ⟨request, requested, begun⟩ := pursues_save idle found waiting
    have inv : meanwhile.Inv := (((inv_opened types planners).run before).act _).run during
    have ran : meanwhile = (opened types planners).run
        (before ++ .save h database naming id expected origin :: during) := by
      simp only [meanwhile, asked, holders, run, List.foldl_append, List.foldl_cons]
    have reached : meanwhile.fleet.store.Reached := ran ▸ reached_run types planners _
    have step : meanwhile.fleet.Step after.fleet := inv.fleet_step next
    have settled : after.fleet.Settled := (ran ▸ settled_run types planners _ :
      meanwhile.fleet.Settled).step step
    have member : commit ∈ after.fleet.commits := made ▸ List.mem_concat_self
    -- The job of the save has committed, and this is all that has happened to the store.
    obtain ⟨_, pursued⟩ := begun.run during
    obtain ⟨now, pursues⟩ := pursued.act next
    obtain ⟨-, -, -, -, accepted⟩ := step.exists_job_of_commit made
    obtain ⟨chosen, writer, busy, done⟩ := settled.job_of_commit (inv.act next).fleet member
    obtain ⟨worker, working, course⟩ := pursues.fleet.course
    obtain rfl : writer = worker :=
      (Job.mk.inj (Option.some.inj ((own ▸ busy).symm.trans working))).2
    obtain ⟨baseline, drafted⟩ := course.drafted (by rw [done]; rfl)
    have entered := AggregateType.entered_of_drafted requested drafted (reached.indexed stream)
      accepted
    have version := AggregateType.newVersion_of_drafted requested drafted
    refine ⟨baseline, now, pursues.fleet.found, step.store_of_commit made ▸ entered, ?_⟩
    intro rest still
    obtain ⟨_, last⟩ := pursues.run rest
    rw [← version]
    refine conclude_of_commit ((inv.act next).run rest) ?_ ?_ (last.kept saving still rfl) still own
    · exact (inv.act next).run_fleet (fun _ _ step settled => settled.step step) settled rest
    · exact (inv.act next).run_fleet (fun _ _ step before => step.commits_grow.subset before) member
        rest

/-- A counter that was never saved, with two steps to be saved. -/
def twice : Snapshot Sample.counter :=
  ⟨⟨{ id := "t" }, [⟨.incremented, (1 : Int32)⟩, ⟨.incremented, (2 : Int32)⟩]⟩, Version.absent⟩

/-- A caller who names the aggregate. -/
def named : Origin where
  properties := ({} : Properties).set "aggregate-id" "mine"

/-- The counter is saved at any version. -/
def askedTwice : Holders fun _ : Bool => Sample.counter :=
  ((opened _ [ticking]).run [.create false twice.aggregate]).act
    (.save false 0 StreamNaming.byType "t" .any named)

/-- Between the draft for it and its submission, another counter is saved to the same stream. -/
def overtakenDraft : List (Deed fun _ : Bool => Sample.counter) :=
  [.work (.advance 0), .create true { state := { id := "t" }, pending := [⟨.reset, ()⟩] },
    .save true 0 StreamNaming.byType "t" .any {}, .work (.advance 1), .work (.advance 1),
    .work (.advance 0), .work (.advance 0), .work (.advance 0)]

def overtakenSave : Holders fun _ : Bool => Sample.counter :=
  (askedTwice.run overtakenDraft).act (.work (.advance 0))

/-- So there is a second draft, after the other counter's event, with a new reading and new
identities. Alone, the counter is stored from the start of its stream. -/
theorem save_stores_overtaken :
    (∃ baseline transaction,
      let (answer, saved, now, store) := (Sample.counter.over StreamNaming.byType).save "t" twice
        .any named (ticking, {})
      (answer = .ok () ∧ saved = twice.saved ⟨1⟩) ∧
        Sample.counter.Entered ⟨"Counter-t"⟩ "t" named twice.aggregate.pending ticking now baseline
          transaction store) ∧
    ((overtakenSave.fleet.store.stream ⟨"Counter-t"⟩).after ⟨0⟩ 2).map
        (fun event => (event.position, event.id, event.occurredAt)) =
      [(1, Uuid.ofNat 4, Instant.ofSeconds 2), (2, Uuid.ofNat 5, Instant.ofSeconds 2)] ∧
    overtakenSave.fleet.store.header ⟨"Counter-t"⟩ = some ⟨2⟩ ∧
    (overtakenSave.act (.conclude false)).handles false = { snapshot := some (twice.saved ⟨2⟩) } ∧
    ∃ now commit, overtakenSave.fleet.commits =
        (askedTwice.run overtakenDraft).fleet.commits ++ [commit] ∧
      Sample.counter.Entered ⟨"Counter-t"⟩ "t" named twice.aggregate.pending ticking now ⟨0⟩
        commit.transaction overtakenSave.fleet.store := by
  obtain ⟨saving, waiting, job⟩ : ∃ saving, (askedTwice.handles false).saving = some saving ∧
    saving.job = 0 := ⟨_, rfl, rfl⟩
  obtain ⟨commit, made, own⟩ : ∃ commit, overtakenSave.fleet.commits =
    (askedTwice.run overtakenDraft).fleet.commits ++ [commit] ∧ commit.job = 0 := ⟨_, rfl, rfl⟩
  obtain ⟨request, transaction, asks, committed⟩ : ∃ request transaction,
    Sample.counter.saveRequest ⟨"Counter-t"⟩ "t" twice .any named = .ok (some request) ∧
      (Store.backend.write ticking request {}).committed = some transaction := ⟨_, _, rfl, rfl⟩
  obtain ⟨alone, beside⟩ := save_stores (fun _ : Bool => Sample.counter) false StreamNaming.byType
    "t" twice .any named
  obtain ⟨start, -, -, single⟩ := alone ticking {} .empty request transaction asks committed
  obtain ⟨baseline, now, -, entered, concluded⟩ :=
    beside [ticking] [.create false twice.aggregate] 0 ticking rfl rfl saving waiting
      overtakenDraft (.work (.advance 0)) commit made (own.trans job.symm)
  have header : overtakenSave.fleet.store.header ⟨"Counter-t"⟩ = some ⟨2⟩ := rfl
  have moved : baseline.advance 2 = ⟨2⟩ := Option.some.inj (entered.header.symm.trans header)
  obtain rfl : baseline = ⟨0⟩ := by
    obtain ⟨value⟩ := baseline
    simp only [Version.advance, Version.mk.injEq] at moved ⊢
    omega
  have still : (overtakenSave.handles false).saving = (askedTwice.handles false).saving := rfl
  exact ⟨⟨start, transaction, ⟨rfl, rfl⟩, single⟩, rfl, header,
    concluded [] (still.trans waiting), now, commit, made, entered⟩

end Holders

end EventSourcing
