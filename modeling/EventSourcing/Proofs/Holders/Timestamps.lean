import EventSourcing.Proofs.Fleet.Timestamps
import EventSourcing.Proofs.Holders.Course
import EventSourcing.Sample.Counter

/-!
Timestamps of what holders save. An aggregate has the version of a stream that was once there, so
the stream of its handle has come to that version; and a save of the aggregate to another stream
could be stamped too early there, but nobody does this.
-/

namespace EventSourcing

variable {κ : Type} [EventFamily κ]

/-- Whether an aggregate and its save belong to a stream. -/
structure Handle.KeptAt {type : AggregateType κ} (handle : Handle type) (store : Store)
    (key : StreamKey) : Prop where
  reaches : ∀ snapshot, handle.snapshot = some snapshot → store.Reaches key snapshot.version
  onto : ∀ saving, handle.saving = some saving → saving.request.stream = key

namespace Handle.KeptAt

variable {type : AggregateType κ} {handle : Handle type} {store later : Store} {key : StreamKey}

theorem mono (kept : handle.KeptAt store key) (within : store.Within later) :
    handle.KeptAt later key where
  reaches snapshot held := (kept.reaches snapshot held).mono within
  onto := kept.onto

theorem loaded (kept : handle.KeptAt store key) (id : type.Id) :
    (handle.loaded ((Store.backend.read key store).1.bind (type.rehydrate id))).KeptAt store
      key := by
  unfold Handle.loaded
  split
  · rename_i snapshot found
    refine ⟨?_, fun _ waiting => nomatch waiting⟩
    intro same held
    obtain rfl := Option.some.inj held
    rw [AggregateType.version_of_rehydrate found]
    exact Store.reaches_ofCount (Nat.le_refl _)
  · exact kept

/-- Whatever a save has for an answer, the stream has come to it. -/
theorem concluded {fleet : Fleet} {planner : Planner} (kept : handle.KeptAt fleet.store key)
    (sound : handle.Sound fleet) (inTime : fleet.InTime planner) :
    (handle.concluded fleet).KeptAt fleet.store key := by
  rcases handle.concluded_cases fleet with
    same | same | ⟨saving, job, version, committed, waiting, busy, done, same⟩
  · rw [same]
    exact kept
  · rw [same]
    exact ⟨kept.reaches, fun _ waiting => nomatch waiting⟩
  · rw [same]
    refine ⟨?_, fun _ waiting => nomatch waiting⟩
    intro snapshot held
    obtain ⟨before, -, rfl⟩ := Option.map_eq_some_iff.mp held
    obtain ⟨-, writer, -, -, working, written⟩ := sound.waits saving waiting
    obtain rfl : job = ⟨saving.database, writer⟩ := Option.some.inj (busy.symm.trans working)
    have reached := inTime.jobs saving.job _ busy
    rw [done, written] at reached
    exact kept.onto saving waiting ▸ reached

end Handle.KeptAt

variable {ι : Type} {types : ι → AggregateType κ}

/-- Whether a handle is loaded from its own stream and saved to it, and nobody writes without a
handle. -/
def Deed.KeepsTo (home : ι → StreamKey) : Deed types → Prop
  | .load h naming id => naming (types h).name ((types h).idText id) = home h
  | .save h _ naming id _ _ => naming (types h).name ((types h).idText id) = home h
  | .work (.launch _ _ _) => False
  | _ => True

namespace Holders

/-- What stays true for holders of one database while each of them keeps to one stream. -/
structure InTime (holders : Holders types) (home : ι → StreamKey) (planner : Planner) : Prop where
  inv : holders.Inv
  fleet : holders.fleet.InTime planner
  settled : holders.fleet.Settled
  kept : ∀ h, (holders.handles h).KeptAt holders.fleet.store (home h)

theorem inTime_opened (types : ι → AggregateType κ) (planner : Planner) (home : ι → StreamKey) :
    (opened types [planner]).InTime home planner where
  inv := inv_opened types [planner]
  fleet := Fleet.inTime_opened planner
  settled := Fleet.settled_opened [planner]
  kept _ :=
    { reaches := fun _ held => nomatch held
      onto := fun _ waiting => nomatch waiting }

variable [DecidableEq ι] {holders : Holders types} {home : ι → StreamKey} {planner : Planner}

theorem kept_place {store : Store} (kept : ∀ h, (holders.handles h).KeptAt store (home h)) {h : ι}
    {handle : Handle (types h)} (own : handle.KeptAt store (home h)) (other : ι) :
    ((holders.place h handle).handles other).KeptAt store (home other) := by
  by_cases here : other = h
  · subst here
    rw [place_self]
    exact own
  · rw [place_of_ne _ here]
    exact kept other

namespace InTime

theorem place (inTime : holders.InTime home planner) {h : ι} {handle : Handle (types h)}
    (inv : (holders.place h handle).Inv)
    (own : handle.KeptAt holders.fleet.store (home h)) :
    (holders.place h handle).InTime home planner where
  inv := inv
  fleet := inTime.fleet
  settled := inTime.settled
  kept := kept_place inTime.kept own

theorem save (inTime : holders.InTime home planner) (h : ι) {database : Nat}
    (listed : database < holders.fleet.planners.length) {stream : StreamKey}
    (own : stream = home h) (id : (types h).Id) (expected : ExpectedVersion) (origin : Origin) :
    (holders.save h database stream id expected origin).InTime home planner := by
  have inv := inTime.inv.save h listed stream id expected origin
  rcases inTime.inv.save_cases h stream id expected origin with
    same | ⟨snapshot, request, held, asks, onto, proper, same⟩
  · rw [same]
    exact inTime
  · have reaches := (inTime.kept h).reaches snapshot held
    have step := holders.fleet.launch_step database proper
    rw [same] at inv ⊢
    refine ⟨inv, ?_, inTime.settled.step step, ?_⟩
    · refine inTime.fleet.launch database ?_
      rw [onto, own, asks.retrieved]
      exact reaches
    · refine kept_place (fun other => (inTime.kept other).mono step.within) ⟨?_, ?_⟩
      · intro again found
        obtain rfl := Option.some.inj found
        exact reaches.mono step.within
      · intro saving waiting
        obtain rfl := Option.some.inj waiting
        exact onto.trans own

/-- Whatever handles do without a clock. -/
theorem act (inTime : holders.InTime home planner) {deed : Deed types}
    (keeps : deed.KeepsTo home) (idle : ∀ action, deed ≠ .work action) :
    (holders.act deed).InTime home planner := by
  have inv := inTime.inv.act deed
  cases deed with
  | create h aggregate =>
    by_cases free : (holders.handles h).saving.isNone
    · simp only [Holders.act, if_pos free] at inv ⊢
      refine inTime.place inv ⟨?_, fun _ waiting => by cases waiting⟩
      intro snapshot held
      obtain rfl := Option.some.inj held
      exact Store.reaches_absent _ _
    · simp only [Holders.act, if_neg free]
      exact inTime
  | load h naming id =>
    by_cases free : (holders.handles h).saving.isNone
    · simp only [Holders.act, if_pos free] at inv ⊢
      refine inTime.place inv ?_
      rw [show naming (types h).name ((types h).idText id) = home h from keeps]
      exact (inTime.kept h).loaded id
    · simp only [Holders.act, if_neg free]
      exact inTime
  | change h aggregate =>
    by_cases free : (holders.handles h).saving.isNone
    · simp only [Holders.act, if_pos free] at inv ⊢
      refine inTime.place inv ⟨?_, fun _ waiting => by cases waiting⟩
      intro snapshot held
      obtain ⟨before, kept, rfl⟩ := Option.map_eq_some_iff.mp held
      exact (inTime.kept h).reaches before kept
    · simp only [Holders.act, if_neg free]
      exact inTime
  | save h database naming id expected origin =>
    simp only [Holders.act]
    split
    · exact inTime.save h ‹_ ∧ _›.2 keeps id expected origin
    · exact inTime
  | conclude h =>
    exact inTime.place inv ((inTime.kept h).concluded (inTime.inv.handles h) inTime.fleet)
  | abandon h =>
    exact inTime.place inv ⟨(inTime.kept h).reaches, fun _ waiting => by cases waiting⟩
  | work action => exact absurd rfl (idle action)

theorem advance (inTime : holders.InTime home planner) (steady : planner.clock.Steady)
    (number : Nat) :
    ∃ later, planner.clock.GoesOn later.clock ∧
      (holders.act (.work (.advance number))).InTime home later := by
  obtain ⟨later, goes, fleet⟩ := inTime.fleet.advance inTime.inv.fleet steady number
  have step := holders.fleet.advance_step number
  exact ⟨later, goes, inTime.inv.step step, fleet, inTime.settled.step step,
    fun h => (inTime.kept h).mono step.within⟩

/-- However holders take turns, all stays in time with the clock as it has been read by then. -/
theorem run (inTime : holders.InTime home planner) (steady : planner.clock.Steady)
    {deeds : List (Deed types)} (keep : ∀ deed ∈ deeds, deed.KeepsTo home) :
    ∃ later, (holders.run deeds).InTime home later := by
  induction deeds generalizing holders planner with
  | nil => exact ⟨planner, inTime⟩
  | cons deed rest ih =>
    have keeps := keep deed List.mem_cons_self
    have others := fun other member => keep other (List.mem_cons_of_mem _ member)
    cases deed with
    | work action =>
      cases action with
      | launch => exact keeps.elim
      | advance number =>
        obtain ⟨later, goes, next⟩ := inTime.advance steady number
        exact ih next (steady.goesOn goes) others
    | _ => exact ih (inTime.act keeps fun _ same => nomatch same) steady others

end InTime

/-- The events of a stream stand in the order of their timestamps, whoever was planned first, and a
save gives all its events one timestamp. -/
theorem timestamps_never_go_back (types : ι → AggregateType κ) {planner : Planner}
    (steady : planner.clock.Steady) (home : ι → StreamKey) {deeds : List (Deed types)}
    (keep : ∀ deed ∈ deeds, deed.KeepsTo home) (key : StreamKey) :
    let fleet := ((opened types [planner]).run deeds).fleet
    fleet.events key = (commitsTo key fleet.commits).flatMap (·.transaction.events) ∧
      (fleet.events key).Pairwise (fun first second =>
        first.position < second.position ∧ first.occurredAt.NotAfter second.occurredAt) ∧
      ∀ number, ∃ instant, ∀ commit ∈ fleet.commits, commit.job = number →
        commit.transaction.StampedAt instant := by
  intro fleet
  obtain ⟨later, inTime⟩ := (inTime_opened types planner home).run steady keep
  have follows := inTime.inv.fleet.follows
  refine ⟨follows.events_eq key, ?_, ?_⟩
  · have increasing := increasing_places 0 (fleet.events key).length
    rw [Fleet.events, ← (follows.streams key).places, List.pairwise_map] at increasing
    exact increasing.and (inTime.fleet.store.ordered key)
  · intro number
    by_cases made : ∃ commit ∈ fleet.commits, commit.job = number
    · obtain ⟨commit, member, rfl⟩ := made
      obtain ⟨instant, stamped⟩ := (follows.commits commit member).exists_stampedAt
      refine ⟨instant, fun other otherIn same => ?_⟩
      rw [inTime.settled.unique otherIn member same]
      exact stamped
    · exact ⟨default, fun commit member same => absurd ⟨commit, member, same⟩ made⟩

/-- A database whose clock shows how often it was read. -/
def ticking : Planner :=
  { Planner.plain with
    clock := { reading := fun number => Instant.ofSeconds number }
    settings := { retryLimit := 1 } }

/-- Two counters for one stream; the one that is planned first is committed last. -/
def overtaking : List (Deed fun _ : Bool => Sample.counter) :=
  let counted : Aggregate Sample.Kind _ :=
    { state := { id := "t" }, pending := [⟨.incremented, (1 : Int32)⟩] }
  let save (h : Bool) : Deed fun _ : Bool => Sample.counter :=
    .save h 0 StreamNaming.byType "t" .any {}
  [.create false counted, .create true counted, save false, save true, .work (.advance 0),
    .work (.advance 1), .work (.advance 1), .work (.advance 0), .work (.advance 0),
    .work (.advance 0), .work (.advance 0)]

def overtaken : List StoredEvent :=
  ((opened (fun _ : Bool => Sample.counter) [ticking]).run overtaking).fleet.events ⟨"Counter-t"⟩

theorem timestamps_overtaken :
    overtaken.map (·.occurredAt) = [Instant.ofSeconds 1, Instant.ofSeconds 2] ∧
      overtaken.Pairwise fun first second =>
        first.position < second.position ∧ first.occurredAt.NotAfter second.occurredAt := by
  have steady : ticking.clock.Steady := by
    intro early late order
    rcases Nat.lt_or_eq_of_le order with less | same
    · exact .inl (Int.ofNat_lt.mpr less)
    · exact same ▸ .refl _
  have keep : ∀ deed ∈ overtaking, deed.KeepsTo fun _ => ⟨"Counter-t"⟩ := by
    have home : StreamNaming.byType Sample.counter.name "t" = ⟨"Counter-t"⟩ := rfl
    simp only [overtaking, List.forall_mem_cons, Deed.KeepsTo]
    exact ⟨trivial, trivial, home, home, trivial, trivial, trivial, trivial, trivial, trivial,
      trivial, fun _ none => by cases none⟩
  obtain ⟨-, ordered, -⟩ := timestamps_never_go_back _ steady _ keep ⟨"Counter-t"⟩
  exact ⟨rfl, ordered⟩

end Holders

end EventSourcing
