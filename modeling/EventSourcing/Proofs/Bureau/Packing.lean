import EventSourcing.Proofs.Bureau
import EventSourcing.Proofs.Fleet
import EventSourcing.Proofs.Layouts

/-!
Requests over databases that lay their records out differently. Unless a write is turned away for
its size, nobody who writes, reads or is published to can tell one database from the other.
-/

namespace EventSourcing.Bureau

/-- Whether a write was turned away for its size. -/
def Entry.isRejection : Entry → Bool
  | .written _ (.error (.packingLimitExceeded _ _)) => true
  | _ => false

/-- Whether no write was turned away for its size so far. -/
def Roomy {σ : Type} (bureau : Bureau σ) : Prop :=
  ∀ entry ∈ bureau.journal, entry.isRejection = false

instance {σ : Type} (bureau : Bureau σ) : Decidable bureau.Roomy :=
  inferInstanceAs (Decidable (∀ entry ∈ bureau.journal, entry.isRejection = false))

namespace Roomy

variable {σ : Type} {backend : Backend σ} {bureau later : Bureau σ}

theorem before (roomy : later.Roomy) (grows : bureau.journal <+: later.journal) : bureau.Roomy :=
  fun entry inside => roomy entry (grows.subset inside)

theorem fits {write : Write} (roomy : (bureau.write backend write).Roomy)
    (filled : write.events ≠ []) : bureau.planner.settings.Fits write.events.length := by
  refine backend.fits_of_write bureau.storage (fun count limit same => ?_) filled
  refine Bool.noConfusion (roomy (.written write (.error (.packingLimitExceeded count limit))) ?_)
  rw [journal_write, ← same]
  exact List.mem_append_right _ List.mem_cons_self

end Roomy

/-- Whether databases have given the same answers, published the same, and differ in the layout of
their records only. -/
structure Alike (first second : Bureau Store) : Prop where
  planner : first.planner.Alike second.planner
  storage : first.storage.Alike second.storage
  dispatcher : first.dispatcher = second.dispatcher
  journal : first.journal = second.journal
  published : first.published = second.published

namespace Alike

variable {first second : Bureau Store}

theorem publish (alike : first.Alike second) (committed : Option (List StoredEvent)) :
    (first.publish committed).Alike (second.publish committed) := by
  unfold Bureau.publish
  rw [alike.dispatcher, alike.published]
  split
  · exact ⟨alike.planner, alike.storage, rfl, alike.journal, rfl⟩
  · exact alike

theorem write (alike : first.Alike second) {write : Write}
    (roomy : (first.write Store.backend write).Roomy)
    (too : (second.write Store.backend write).Roomy) :
    (first.write Store.backend write).Alike (second.write Store.backend write) := by
  have ended := alike.storage.write alike.planner fun filled => ⟨roomy.fits filled, too.fits filled⟩
  simp only [Bureau.write, ended.events, ended.result, alike.journal]
  refine publish ?_ _
  exact ⟨ended.planner, ended.store, alike.dispatcher, rfl, alike.published⟩

theorem act (alike : first.Alike second) (request : Request)
    (roomy : (first.act Store.backend request).Roomy)
    (too : (second.act Store.backend request).Roomy) :
    (first.act Store.backend request).Alike (second.act Store.backend request) := by
  obtain ⟨planner, storage, dispatcher, journal, published⟩ := alike
  cases request with
  | write write => exact Alike.write ⟨planner, storage, dispatcher, journal, published⟩ roomy too
  | read key =>
    refine ⟨planner, storage, dispatcher, ?_, published⟩
    simp only [Bureau.act, Bureau.read, journal, storage.read key]
  | attend place act =>
    refine ⟨planner, storage, ?_, journal, published⟩
    simp only [Bureau.act, dispatcher]
  | shutdown =>
    refine ⟨planner, storage, ?_, journal, published⟩
    simp only [Bureau.act, dispatcher]

theorem run (alike : first.Alike second) (requests : List Request)
    (roomy : (first.run Store.backend requests).Roomy)
    (too : (second.run Store.backend requests).Roomy) :
    (first.run Store.backend requests).Alike (second.run Store.backend requests) := by
  induction requests generalizing first second with
  | nil => exact alike
  | cons request rest ih =>
    have next := alike.act request (roomy.before (journal_run _ _ rest))
      (too.before (journal_run _ _ rest))
    exact ih next roomy too

end Alike

/-- Two databases with the same clock and identities, whose settings differ in the layout of records
at most, give the same answers to the same requests, publish the same groups, and show the same
streams, if neither turns a write away for its size. -/
theorem packing_invisible {settings other : StoreSettings} (alike : settings.Alike other)
    (clock : Clock) (ids : IdSource) (dispatcher : Option Dispatcher) (requests : List Request)
    (roomy : ((opened ⟨settings, clock, ids⟩ {} dispatcher).run Store.backend requests).Roomy)
    (too : ((opened ⟨other, clock, ids⟩ {} dispatcher).run Store.backend requests).Roomy) :
    let first := (opened ⟨settings, clock, ids⟩ {} dispatcher).run Store.backend requests
    let second := (opened ⟨other, clock, ids⟩ {} dispatcher).run Store.backend requests
    first.journal = second.journal ∧ first.published = second.published ∧
      first.dispatcher = second.dispatcher ∧ ∀ key,
        first.storage.header key = second.storage.header key ∧
          (Store.backend.read key first.storage).1 = (Store.backend.read key second.storage).1 := by
  intro first second
  have begun : (opened ⟨settings, clock, ids⟩ ({} : Store) dispatcher).Alike
      (opened ⟨other, clock, ids⟩ {} dispatcher) :=
    ⟨⟨alike, rfl, rfl⟩, .refl _, rfl, rfl, rfl⟩
  have ended := begun.run requests roomy too
  exact ⟨ended.journal, ended.published, ended.dispatcher,
    fun key => ⟨ended.storage.header key, ended.storage.read key⟩⟩

def paying (events : List NewEvent) (retrieved : Version) (expected : ExpectedVersion)
    (initiator : Nat) : Request :=
  .write ⟨⟨"account"⟩, events, retrieved, expected, { initiator := Uuid.ofNat initiator }⟩

/-- Three events, the same again, a stale write that is planned again, and one that is not. -/
def payments : List Request :=
  let paid : NewEvent := ⟨"Paid", .null⟩
  [paying [paid, paid, paid] Version.absent .none 7,
    paying [paid, paid, paid] Version.absent .none 7, .attend 0 .step,
    paying [paid] Version.absent .any 9, .attend 0 .step, paying [paid] Version.absent .none 11,
    .read ⟨"account"⟩]

/-- One of two databases packs three events into two records. -/
theorem packing_invisible_paid :
    let single : StoreSettings := { retryLimit := 1 }
    let packed : StoreSettings := { maxOperations := 3, maxPerPacket := 2, retryLimit := 1 }
    let clock := Planner.plain.clock
    let first := (opened ⟨single, clock, .sequential⟩ {} (some desk)).run Store.backend payments
    let second := (opened ⟨packed, clock, .sequential⟩ {} (some desk)).run Store.backend payments
    first.journal = second.journal ∧ first.published = second.published ∧
      first.published.map (·.map (·.position)) = [[0, 1, 2], [3]] ∧
      (first.storage.records ⟨"account"⟩).map (·.events.length) = [1, 1, 1, 1] ∧
      (second.storage.records ⟨"account"⟩).map (·.events.length) = [2, 1, 1] := by
  intro single packed clock first second
  have alike : single.Alike packed := ⟨rfl, rfl⟩
  obtain ⟨journal, published, -, -⟩ :=
    packing_invisible alike clock .sequential (some desk) payments (by decide) (by decide)
  exact ⟨journal, published, by decide, by decide, by decide⟩

end EventSourcing.Bureau
