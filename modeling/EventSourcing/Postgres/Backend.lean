import EventSourcing.Postgres.Peer
import EventSourcing.Store.Backend

/-!
A store in a database. A transaction begins, changes the header, inserts the records and commits. If
the header was not as the transaction says, or the key of a record was taken, it is rolled back and
counts as a conflict; any other failure abandons it.
-/

namespace EventSourcing.Postgres

def poolClosed : Error :=
  .infrastructure "attempted to acquire a connection on a closed pool"

namespace Peer

/-- Ends a transaction in a conflict. -/
def conflict (peer : Peer) : Except Error Outcome × Peer :=
  let (ended, peer) := peer.rollback
  match ended with
  | .ok () => (.ok .conflict, peer)
  | .error fault => (.error fault.error, peer.abandon)

/-- Ends a transaction all of whose statements went through. -/
def complete (peer : Peer) : Except Error Outcome × Peer :=
  let (ended, peer) := peer.commit
  match ended with
  | .ok () => (.ok .committed, peer)
  | .error fault => (.error fault.error, peer.abandon)

/-- Inserts the records in order and ends the transaction. -/
def insertRecords (peer : Peer) (stream : StreamKey) :
    List Record → Except Error Outcome × Peer
  | [] => peer.complete
  | record :: rest =>
    let (reply, peer) := peer.ask (insertRecord stream record)
    match reply with
    | .done _ _ => peer.insertRecords stream rest
    | .failed fault =>
      if fault.isUniqueViolation then peer.conflict else (.error fault.error, peer.abandon)

/-- The statements of a transaction that has begun. -/
def applyTransaction (peer : Peer) (transaction : Transaction) : Except Error Outcome × Peer :=
  let (reply, peer) := peer.ask (changeHeader transaction.stream transaction.header)
  match reply with
  | .failed fault => (.error fault.error, peer.abandon)
  | .done affected _ =>
    if affected = 1 then peer.insertRecords transaction.stream transaction.records
    else peer.conflict

def submit (peer : Peer) (transaction : Transaction) : Except Error Outcome × Peer :=
  if peer.closed then (.error poolClosed, peer)
  else
    let (begun, peer) := peer.begin
    match begun with
    | .error fault => (.error fault.error, peer)
    | .ok () => peer.applyTransaction transaction

/-- The rows that answer a query outside a transaction. -/
def query (peer : Peer) (statement : Statement) : Except Error (List (List Json)) × Peer :=
  if peer.closed then (.error poolClosed, peer)
  else
    let (reply, peer) := peer.ask statement
    match reply with
    | .failed fault => (.error fault.error, peer)
    | .done _ rows => (.ok rows, peer)

end Peer

/-- A cell that must not be null; `column` says which one it is. -/
def present (column : String) (row : List Json) (index : Nat) : Except Error Json :=
  match row[index]? with
  | some .null | none =>
    .error (.infrastructure ("error occurred while decoding column " ++ column ++
      ": unexpected null; try decoding as an `Option`"))
  | some cell => .ok cell

def malformed (column : String) : Error :=
  .infrastructure ("error occurred while decoding column " ++ column ++ ": mismatched types")

/-- A record from a row that holds its kind and its body. -/
def readRecord (row : List Json) : Except Error Record := do
  let kind ← present "\"kind\"" row 0
  let body ← present "\"body\"" row 1
  match kind with
  | .string kind => recordOf kind body
  | _ => throw (malformed "\"kind\"")

/-- The first row that cannot be read fails all. -/
def readRecords : List (List Json) → Except Error (List Record)
  | [] => .ok []
  | row :: rest => do
    let record ← readRecord row
    let records ← readRecords rest
    pure (record :: records)

/-- Only the first row counts. -/
def readVersion : List (List Json) → Except Error (Option Version)
  | [] => .ok none
  | row :: _ => do
    match ← present "0" row 0 with
    | .integer value =>
      match Version.ofInt value with
      | .ok version => pure (some version)
      | .error value => throw (.invalidVersion value)
    | _ => throw (malformed "0")

/-- Only the first row counts, and there has to be one. -/
def readExists : List (List Json) → Except Error Bool
  | [] =>
    .error (.infrastructure "no rows returned by a query that expected to return at least one row")
  | row :: _ => do
    match ← present "0" row 0 with
    | .boolean found => pure found
    | _ => throw (malformed "0")

namespace Peer

def header (peer : Peer) (stream : StreamKey) : Except Error (Option Version) × Peer :=
  let (rows, peer) := peer.query (selectVersion stream)
  (rows.bind readVersion, peer)

def containsInitiator (peer : Peer) (stream : StreamKey) (initiator : Uuid) :
    Except Error Bool × Peer :=
  let (rows, peer) := peer.query (selectInitiator stream initiator)
  (rows.bind readExists, peer)

def records (peer : Peer) (stream : StreamKey) : Except Error (List Record) × Peer :=
  let (rows, peer) := peer.query (selectRecords stream)
  (rows.bind readRecords, peer)

/-- Sends the statements in order; the first failure ends them. -/
def execute (peer : Peer) : List Statement → Except Error Unit × Peer
  | [] => (.ok (), peer)
  | statement :: rest =>
    let (rows, peer) := peer.query statement
    match rows with
    | .ok _ => peer.execute rest
    | .error error => (.error error, peer)

/-- Makes the tables if they are not there. -/
def ensureSchema (peer : Peer) : Except Error Unit × Peer :=
  peer.execute schema

end Peer

def backend : Backend Peer where
  submit transaction peer := peer.submit transaction
  readHeader stream peer := peer.header stream
  containsInitiator stream initiator peer := peer.containsInitiator stream initiator
  readRecords stream peer := peer.records stream

end EventSourcing.Postgres
