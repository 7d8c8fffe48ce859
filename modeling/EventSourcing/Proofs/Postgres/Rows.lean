import EventSourcing.Proofs.Layouts
import EventSourcing.Proofs.Postgres.Acceptance
import Mathlib.Data.List.Nodup

/-!
Rows hold the stream. Writes that follow one another, each from the version that the one before it
reached, leave rows whose positions tile what lies between the first version and the last. Whoever
is shown those rows in the order of their first positions reads the events that were written.
-/

namespace EventSourcing.Postgres

/-- Whether these are the statements of a transaction that takes a stream from one version to
another: it changes the header, from the first version if there is a stream, and its rows tile the
positions between. -/
def Takes (stream : StreamKey) (baseline new : Version) (heard : List Statement) : Prop :=
  ∃ header inserts,
    heard = Postgres.begin :: header :: inserts ++ [Postgres.commit] ∧
    header.parameters = some (.text stream.text ::
      (if baseline.IsPresent then [.integer baseline.value] else []) ++ [.integer new.value]) ∧
    (∀ insert ∈ inserts, ∃ row, insert.row? = some row ∧ row.stream = stream.text) ∧
    Tiles (baseline.value + 1) ((rows inserts).map Row.span) new.value

/-- Whether transactions with these statements take a stream from one version to another. -/
inductive Leads (stream : StreamKey) : Version → List (List Statement) → Version → Prop
  | rests (version : Version) : Leads stream version [] version
  | takes {baseline new finish : Version} {first : List Statement} {rest : List (List Statement)}
      (takes : Takes stream baseline new first) (later : Leads stream new rest finish) :
      Leads stream baseline (first :: rest) finish

theorem Leads.append {stream : StreamKey} {start middle finish : Version}
    {early late : List (List Statement)} (leads : Leads stream start early middle)
    (later : Leads stream middle late finish) : Leads stream start (early ++ late) finish := by
  induction leads with
  | rests => exact later
  | takes takes _ ih => exact .takes takes (ih later)

theorem takes_of_planned {settings : StoreSettings} {write : Write} {baseline : Version}
    {transaction : Transaction} (planned : Planned settings write baseline transaction) :
    Takes write.stream baseline (baseline.advance write.events.length)
      (statements transaction) := by
  have row : (transaction.records.flatMap Record.events).map (·.position) =
      places (baseline.value + 1) write.events.length := planned.positions
  refine ⟨_, _, rfl, ?_, ?_, ?_⟩
  · rw [planned.stream, planned.header, HeaderChange.moving]
    by_cases present : baseline.IsPresent
    · rw [if_pos present, if_pos present]
      rfl
    · rw [if_neg present, if_neg present]
      rfl
  · intro insert member
    obtain ⟨record, -, rfl⟩ := List.mem_map.mp member
    exact ⟨_, rfl, congrArg StreamKey.text planned.stream⟩
  · have finish : baseline.value + 1 + write.events.length - 1 =
        (baseline.advance write.events.length).value := by
      simp only [Version.advance]
      omega
    rw [rows_insertRecord, List.map_map, ← finish]
    exact Record.tiles row

/-- Whether transactions put events into a stream, from a version on. -/
structure Files (stream : StreamKey) (start : Version) (events : List NewEvent)
    (transactions : List Transaction) : Prop where
  leads : Leads stream start (transactions.map statements) (start.advance events.length)
  own : ∀ transaction ∈ transactions, transaction.stream = stream
  content : (transactions.flatMap Transaction.events).map StoredEvent.content = events
  positions : (transactions.flatMap Transaction.events).map (·.position) =
    places (start.value + 1) events.length

namespace Files

variable {stream : StreamKey} {start : Version} {events more : List NewEvent}
  {transactions others : List Transaction}

theorem nil (stream : StreamKey) (start : Version) : Files stream start [] [] where
  leads := start.advance_zero.symm ▸ .rests start
  own _ member := nomatch member
  content := rfl
  positions := rfl

theorem of_planned {settings : StoreSettings} {write : Write} {baseline : Version}
    {transaction : Transaction} (planned : Planned settings write baseline transaction) :
    Files write.stream baseline write.events [transaction] where
  leads := .takes (takes_of_planned planned) (.rests _)
  own _ member := List.mem_singleton.mp member ▸ planned.stream
  content := by rw [List.flatMap_singleton, planned.content]
  positions := by rw [List.flatMap_singleton, planned.positions]

theorem append (files : Files stream start events transactions)
    (later : Files stream (start.advance events.length) more others) :
    Files stream start (events ++ more) (transactions ++ others) where
  leads := by
    rw [List.map_append, List.length_append, ← Version.advance_add]
    exact files.leads.append later.leads
  own := List.forall_mem_append.mpr ⟨files.own, later.own⟩
  content := by rw [List.flatMap_append, List.map_append, files.content, later.content]
  positions := by
    have next : (start.advance events.length).value + 1 = start.value + 1 + events.length := by
      simp only [Version.advance]
      omega
    rw [List.flatMap_append, List.map_append, files.positions, later.positions, List.length_append,
      next, places_append]

/-- All rows of the transactions, in the order in which they are issued. -/
theorem rows_eq (files : Files stream start events transactions) :
    rows (transactions.map statements).flatten =
      (transactions.flatMap Transaction.records).map (Row.ofRecord stream) := by
  have own := files.own
  clear files
  induction transactions with
  | nil => rfl
  | cons transaction rest ih =>
    obtain ⟨here, later⟩ := List.forall_mem_cons.mp own
    rw [List.map_cons, List.flatten_cons, rows_append, rows_statements, here, ih later,
      List.flatMap_cons, List.map_append]

/-- Rows in the order of their first positions are in the order in which they were issued. -/
theorem eq_rows (files : Files stream start events transactions) {ordered : List Row}
    (same : ordered.Perm (rows (transactions.map statements).flatten))
    (sorted : ordered.Pairwise (fun one other => one.first ≤ other.first)) :
    ordered = rows (transactions.map statements).flatten := by
  let issued := rows (transactions.map statements).flatten
  have increasing : (issued.map Row.first).Pairwise (· < ·) := by
    have whole : ((transactions.flatMap Transaction.records).flatMap Record.events).map
        (·.position) = places (start.value + 1) events.length := by
      rw [List.flatMap_assoc]
      exact files.positions
    have firsts := (Record.tiles whole).increasing.1
    rw [List.map_map] at firsts
    simp only [issued, files.rows_eq, List.map_map]
    exact firsts
  have distinct : (issued.map Row.first).Nodup := increasing.imp Int.ne_of_lt
  have issuedSorted : issued.Pairwise (fun one other => one.first ≤ other.first) :=
    (List.pairwise_map.mp increasing).imp Int.le_of_lt
  refine List.Perm.eq_of_pairwise ?_ sorted issuedSorted same
  intro one other member inside before after
  exact List.inj_on_of_nodup_map distinct (same.mem_iff.mp member) inside
    (Int.le_antisymm before after)

/-- Events at positions up to a 64-bit version, with timestamps that have a text, can be stored. -/
theorem storable (files : Files stream start events transactions) (proper : start.Proper)
    (small : (Text.Bounds.signed 64).Holds (start.advance events.length).value)
    (plain : ∀ transaction ∈ transactions, ∀ event ∈ transaction.events, event.occurredAt.Plain) :
    ∀ event ∈ transactions.flatMap Transaction.events, event.Storable := by
  intro event member
  have place : event.position ∈ places (start.value + 1) events.length :=
    files.positions ▸ List.mem_map_of_mem member
  obtain ⟨least, greatest⟩ := mem_places.mp place
  obtain ⟨transaction, listed, inside⟩ := List.mem_flatMap.mp member
  refine ⟨⟨?_, ?_⟩, plain transaction listed event inside⟩
  · have below : (Text.Bounds.signed 64).least ≤ 0 := by decide
    have above : -1 ≤ start.value := proper
    omega
  · have reached : start.value + events.length ≤ (Text.Bounds.signed 64).greatest := small.2
    omega

/-- Whoever is shown the rows in the order of their first positions reads the events. -/
theorem read (files : Files stream start events transactions)
    (storable : ∀ event ∈ transactions.flatMap Transaction.events, event.Storable)
    {ordered : List Row} (same : ordered.Perm (rows (transactions.map statements).flatten))
    (sorted : ordered.Pairwise (fun one other => one.first ≤ other.first)) {reader : Peer}
    (opened : reader.closed = false) {affected : Nat}
    (shown : reader.replies.head? = some (.done affected (ordered.map Row.cells))) :
    (backend.read stream reader).1 = .ok (transactions.flatMap Transaction.events) ∧
      (backend.read stream reader).2.heard = reader.heard ++ [selectRecords stream] := by
  obtain ⟨later, replies⟩ := List.head?_eq_some_iff.mp shown
  have answered : reader.query (selectRecords stream) =
      (.ok (ordered.map Row.cells),
        { reader with replies := later }.hear (selectRecords stream)) := by
    rw [Peer.query, if_neg (by simp [opened]), Peer.ask, replies]
  have decoded : readRecords (ordered.map Row.cells) =
      .ok (transactions.flatMap Transaction.records) := by
    rw [files.eq_rows same sorted, files.rows_eq, List.map_map]
    refine readRecords_cells fun record member event inside => storable event ?_
    obtain ⟨transaction, listed, found⟩ := List.mem_flatMap.mp member
    exact List.mem_flatMap.mpr ⟨transaction, listed, List.mem_flatMap.mpr ⟨record, found, inside⟩⟩
  have records : backend.readRecords stream reader =
      (.ok (transactions.flatMap Transaction.records),
        { reader with replies := later }.hear (selectRecords stream)) := by
    simp only [backend, Peer.records, answered, Except.bind, decoded]
  rw [Backend.read, records]
  refine ⟨?_, rfl⟩
  simp only [Except.map, List.flatMap_assoc]
  rfl

end Files

/-- A write that is still to come, and what it is made with. -/
structure Posting where
  planner : Planner
  events : List NewEvent
  expected : ExpectedVersion
  origin : Origin

def Posting.write (posting : Posting) (stream : StreamKey) (retrieved : Version) : Write :=
  ⟨stream, posting.events, retrieved, posting.expected, posting.origin⟩

/-- What comes of writes that follow one another: the version they reach, or the first error, and
the transactions that were committed. -/
structure Session where
  reached : Except Error Version
  transactions : List Transaction
  peer : Peer

/-- Writes to one stream, each from the version that the one before it reached. -/
def Peer.post (stream : StreamKey) : Version → List Posting → Peer → Session
  | version, [], peer => ⟨.ok version, [], peer⟩
  | version, posting :: rest, peer =>
    let written := backend.write posting.planner (posting.write stream version) peer
    match written.result with
    | .ok reached =>
      let later := post stream reached rest written.state
      { later with transactions := written.committed.toList ++ later.transactions }
    | .error error => ⟨.error error, written.committed.toList, written.state⟩

namespace Peer.Accepts

variable {peer : Peer}

/-- A write that fits is committed, and the session goes on from there. -/
theorem post_cons (accepts : peer.Accepts) {posting : Posting}
    (fits : posting.planner.settings.Fits posting.events.length) (stream : StreamKey)
    (start : Version) (rest : List Posting) :
    ∃ made asked, Files stream start posting.events made ∧
      (∀ transaction ∈ made,
        posting.events ≠ [] ∧ transaction.StampedAt posting.planner.clock.now) ∧
      peer.post stream start (posting :: rest) =
        let later := (peer.told asked (made.map statements).flatten).post stream
          (start.advance posting.events.length) rest
        { later with transactions := made ++ later.transactions } := by
  let write := posting.write stream start
  by_cases empty : posting.events = []
  · have written : backend.write posting.planner write peer = ⟨.ok start, none, _, peer⟩ :=
      backend.write_of_nil posting.planner empty peer
    have reached : start.advance posting.events.length = start := by
      rw [empty]
      exact start.advance_zero
    refine ⟨[], 0, empty ▸ .nil stream start, nofun, ?_⟩
    rw [Peer.post, show posting.write stream start = write from rfl, written, reached]
    simp [Peer.told]
  · obtain ⟨layout, fitting⟩ := fits
    let transaction := posting.planner.transaction write start layout
    have prepared : posting.planner.plan write write.retrieved = .ok (transaction,
        posting.planner.used write.origin.initiator write.events.length) := by
      rw [Planner.plan, show write.events = posting.events from rfl, fitting]
      rfl
    have planned : Planned posting.planner.settings write start transaction :=
      ⟨posting.planner, layout, rfl, fitting, rfl⟩
    have written := accepts.write empty prepared
    refine ⟨[transaction], transaction.operationCount, .of_planned planned, ?_, ?_⟩
    · intro made member
      rw [List.mem_singleton.mp member]
      exact ⟨empty, posting.planner.stampedAt_transaction write start layout⟩
    · have reached : transaction.newVersion = start.advance posting.events.length :=
        planned.newVersion
      rw [Peer.post, show posting.write stream start = write from rfl, written, reached]
      simp

/-- Writes that fit are all committed, each from where the one before it ended. -/
theorem post (accepts : peer.Accepts) {postings : List Posting}
    (fits : ∀ posting ∈ postings, posting.planner.settings.Fits posting.events.length)
    (stream : StreamKey) (start : Version) :
    let events := postings.flatMap Posting.events
    ∃ made asked, Files stream start events made ∧
      (∀ transaction ∈ made, ∃ posting ∈ postings,
        posting.events ≠ [] ∧ transaction.StampedAt posting.planner.clock.now) ∧
      peer.post stream start postings =
        ⟨.ok (start.advance events.length), made,
          peer.told asked (made.map statements).flatten⟩ := by
  intro events
  induction postings generalizing peer start with
  | nil =>
    refine ⟨[], 0, .nil stream start, nofun, ?_⟩
    have reached : start.advance events.length = start := start.advance_zero
    rw [Peer.post, reached]
    simp [Peer.told]
  | cons posting rest ih =>
    obtain ⟨here, later⟩ := List.forall_mem_cons.mp fits
    obtain ⟨made, asked, files, stamped, first⟩ := accepts.post_cons here stream start rest
    obtain ⟨others, more, filed, dated, second⟩ :=
      ih (accepts.told asked (made.map statements).flatten) later
        (start.advance posting.events.length)
    refine ⟨made ++ others, asked + more, files.append filed, ?_, ?_⟩
    · intro transaction member
      rcases List.mem_append.mp member with early | late
      · exact ⟨posting, List.mem_cons_self, stamped transaction early⟩
      · obtain ⟨other, listed, stamp⟩ := dated transaction late
        exact ⟨other, List.mem_cons_of_mem _ listed, stamp⟩
    · rw [first, second]
      simp [events, told_told, Version.advance_add]

end Peer.Accepts

/-- Writes that a store finds room for, each from the version that the one before it reached, are
committed by a database that accepts every statement. Their transactions lead from version to
version, and whoever is shown all their rows in the order of the first positions reads their
events. -/
theorem rows_hold_the_stream {peer : Peer} (accepts : peer.Accepts) {start : Version}
    (proper : start.Proper) {postings : List Posting}
    (fits : ∀ posting ∈ postings, posting.planner.settings.Fits posting.events.length)
    (plain : ∀ posting ∈ postings, posting.events ≠ [] → posting.planner.clock.now.Plain)
    (small : (Text.Bounds.signed 64).Holds
      (start.advance (postings.flatMap Posting.events).length).value) (stream : StreamKey) :
    let session := peer.post stream start postings
    let heard := (session.transactions.map statements).flatten
    session.reached = .ok (start.advance (postings.flatMap Posting.events).length) ∧
      session.peer.heard = peer.heard ++ heard ∧
      Files stream start (postings.flatMap Posting.events) session.transactions ∧
      ∀ ordered : List Row, ordered.Perm (rows heard) →
        ordered.Pairwise (fun one other => one.first ≤ other.first) →
        ∀ (reader : Peer) (affected : Nat), reader.closed = false →
          reader.replies.head? = some (.done affected (ordered.map Row.cells)) →
            (backend.read stream reader).1 =
                .ok (session.transactions.flatMap Transaction.events) ∧
              (backend.read stream reader).2.heard = reader.heard ++ [selectRecords stream] := by
  intro session heard
  obtain ⟨made, asked, files, stamped, ended⟩ := accepts.post fits stream start
  have same : session = _ := ended
  have storable := files.storable proper small fun transaction member event inside => by
    obtain ⟨posting, listed, filled, stamp⟩ := stamped transaction member
    exact stamp event inside ▸ plain posting listed filled
  subst heard
  rw [same]
  exact ⟨rfl, rfl, files, fun ordered shuffled sorted reader affected opened shown =>
    files.read storable shuffled sorted opened shown⟩

/-- Two events as records of their own, then three as one packet, and then three more as two. -/
def repacked : List Posting :=
  let posting (settings : StoreSettings) (count : Nat) : Posting :=
    ⟨{ Planner.plain with settings := settings }, List.replicate count ⟨"Moved", .null⟩, .any, {}⟩
  [posting {} 2, posting { maxOperations := 2 } 3,
    posting { maxOperations := 3, maxPerPacket := 2 } 3]

def repackedRows : List Row :=
  rows ((({} : Peer).post ⟨"account"⟩ .absent repacked).transactions.map statements).flatten

theorem rows_hold_the_stream_repacked :
    let session := ({} : Peer).post ⟨"account"⟩ .absent repacked
    session.reached = .ok ⟨7⟩ ∧
      repackedRows.map Row.span = [(0, 0), (1, 1), (2, 4), (5, 6), (7, 7)] ∧
      (backend.read ⟨"account"⟩ { replies := [.done 5 (repackedRows.map Row.cells)] }).1 =
        .ok (session.transactions.flatMap Transaction.events) := by
  have accepts : ({} : Peer).Accepts := ⟨rfl, rfl, rfl, nofun⟩
  have fits : ∀ posting ∈ repacked, posting.planner.settings.Fits posting.events.length := by
    simp only [repacked, List.forall_mem_cons]
    exact ⟨⟨_, rfl⟩, ⟨_, rfl⟩, ⟨_, rfl⟩, fun _ none => by cases none⟩
  have plain : ∀ posting ∈ repacked, posting.events ≠ [] → posting.planner.clock.now.Plain := by
    simp only [repacked, List.forall_mem_cons]
    have now : Planner.plain.clock.now.Plain := ⟨by decide, by decide, by decide⟩
    exact ⟨fun _ => now, fun _ => now, fun _ => now, fun _ none => by cases none⟩
  have sorted : repackedRows.Pairwise (fun one other => one.first ≤ other.first) := by decide
  obtain ⟨reached, -, -, reading⟩ := rows_hold_the_stream accepts
    (show Version.absent.Proper by decide) fits plain (by decide) ⟨"account"⟩
  exact ⟨reached, by decide, (reading repackedRows (.refl _) sorted _ 5 rfl rfl).1⟩

end EventSourcing.Postgres
