import EventSourcing.Postgres.Backend
import EventSourcing.Proofs.Codec
import EventSourcing.Proofs.Planned

/-!
Records as rows of a database. A row reads back as the record that it was made from, and records of
events at positions that follow each other cover them one after the other.
-/

namespace EventSourcing

/-- Whether closed intervals, one after the other, cover each number from `next` to `last` once. -/
def Tiles : Int → List (Int × Int) → Int → Prop
  | next, [], last => next = last + 1
  | next, (low, high) :: rest, last => low = next ∧ low ≤ high ∧ Tiles (high + 1) rest last

namespace Tiles

theorem increasing {next last : Int} {intervals : List (Int × Int)}
    (tiles : Tiles next intervals last) :
    (intervals.map (·.1)).Pairwise (· < ·) ∧ ∀ low ∈ intervals.map (·.1), next ≤ low := by
  induction intervals generalizing next with
  | nil => simp
  | cons interval rest ih =>
    obtain ⟨low, high⟩ := interval
    obtain ⟨rfl, filled, later⟩ := tiles
    obtain ⟨ordered, above⟩ := ih later
    refine ⟨List.pairwise_cons.mpr ⟨fun other member => ?_, ordered⟩, fun other member => ?_⟩
    · have beyond := above other member
      show low < other
      omega
    · rcases List.mem_cons.mp member with rfl | inside
      · exact Int.le_refl _
      · have beyond := above other inside
        omega

end Tiles

theorem Record.lastPosition_eq (record : Record) :
    (record.events.map (·.position)).getLast? = some record.lastPosition := by
  rw [List.getLast?_map, lastPosition]
  cases found : record.events.getLast? with
  | none => exact absurd (List.getLast?_eq_none_iff.mp found) record.events_ne_nil
  | some last => rfl

/-- Records of events in a row tile their positions. -/
theorem Record.tiles {records : List Record} {start : Int} {count : Nat}
    (row : (records.flatMap Record.events).map (·.position) = places start count) :
    Tiles start (records.map fun record => (record.firstPosition, record.lastPosition))
      (start + count - 1) := by
  induction records generalizing start count with
  | nil =>
    have none : count = 0 := by simpa using (congrArg List.length row).symm
    simp only [List.map_nil, Tiles]
    omega
  | cons record rest ih =>
    rw [List.flatMap_cons, List.map_append] at row
    obtain ⟨here, later⟩ := eq_places_of_append row
    have lengths := congrArg List.length row
    simp only [List.length_append, List.length_map, length_places] at here later lengths
    obtain ⟨first, others, filled⟩ := List.exists_cons_of_ne_nil record.events_ne_nil
    have starts : record.firstPosition = start := by
      have head := record.head?_events
      rw [filled, List.head?_cons, Option.some.injEq] at head
      rw [filled, List.map_cons, List.length_cons, places] at here
      rw [firstPosition, ← head, (List.cons.inj here).1]
    have ends : record.lastPosition = start + others.length := by
      have last := record.lastPosition_eq
      rw [here, filled, List.length_cons, getLast?_places] at last
      exact (Option.some.inj last).symm
    have size : record.events.length = others.length + 1 := by rw [filled, List.length_cons]
    have beyond : start + record.events.length = record.lastPosition + 1 := by omega
    have finish : record.lastPosition + 1 + (rest.flatMap Record.events).length - 1 =
        start + count - 1 := by omega
    exact ⟨starts, by omega, finish ▸ ih (beyond ▸ later)⟩

namespace Postgres

/-- What a record is written as reads back as the record. -/
theorem recordOf_encodeBody {record : Record} (storable : ∀ event ∈ record.events, event.Storable) :
    recordOf record.kind (encodeBody record) = .ok record := by
  have events : (encodeBody record).readList StoredEvent.ofJson = .ok record.events :=
    Json.readEach_map fun event member => StoredEvent.ofJson_toJson (storable event member)
  rw [recordOf, events]
  cases record <;> rfl

/-- What a row of the table of records holds, without what no reader of records asks for. -/
structure Row where
  stream : String
  first : Int
  last : Int
  kind : String
  body : Json

namespace Row

def span (row : Row) : Int × Int := (row.first, row.last)

/-- A row as it answers a query for records. -/
def cells (row : Row) : List Json := [.string row.kind, row.body]

def ofRecord (stream : StreamKey) (record : Record) : Row :=
  ⟨stream.text, record.firstPosition, record.lastPosition, record.kind, encodeBody record⟩

end Row

/-- The row that a statement adds to the table of records, if it adds one. -/
def Statement.row? (statement : Statement) : Option Row :=
  match statement.parameters with
  | some [.uuid _, .text stream, .integer first, .integer last, .text kind, .uuid _,
      .document body] => some ⟨stream, first, last, kind, body⟩
  | _ => none

/-- The rows that statements add, in the order in which they are issued. -/
def rows (statements : List Statement) : List Row := statements.filterMap Statement.row?

theorem rows_append (first second : List Statement) :
    rows (first ++ second) = rows first ++ rows second :=
  List.filterMap_append

theorem rows_insertRecord (stream : StreamKey) (records : List Record) :
    rows (records.map (insertRecord stream)) = records.map (Row.ofRecord stream) := by
  rw [rows, List.filterMap_map]
  exact congrFun List.filterMap_eq_map records

theorem readRecords_cells {stream : StreamKey} {records : List Record}
    (storable : ∀ record ∈ records, ∀ event ∈ record.events, event.Storable) :
    readRecords (records.map fun record => (Row.ofRecord stream record).cells) = .ok records := by
  induction records with
  | nil => rfl
  | cons record rest ih =>
    obtain ⟨here, later⟩ := List.forall_mem_cons.mp storable
    have read : readRecord (Row.ofRecord stream record).cells = .ok record :=
      recordOf_encodeBody here
    simp only [List.map_cons, readRecords, read, ih later, bind, Except.bind]
    rfl

end Postgres

end EventSourcing
