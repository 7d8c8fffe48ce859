import EventSourcing.Postgres.Statement

/-!
A database as its client sees it: it is told one statement after the other and answers from a list
of replies. Statements that begin and end a transaction have answers of their own.
-/

namespace EventSourcing.Postgres

/-- An error as the database reports it: a state code and a text. -/
structure Fault where
  state : String
  message : String
  deriving DecidableEq, Repr

namespace Fault

/-- The state code of a key that is taken. -/
def isUniqueViolation (fault : Fault) : Bool := fault.state = "23505"

def error (fault : Fault) : Error :=
  .infrastructure ("error returned from database: " ++ fault.message)

end Fault

/-- The answer to a statement. A cell without a value is null. -/
inductive Reply where
  | done (affected : Nat) (rows : List (List Json))
  | failed (fault : Fault)

namespace Reply

/-- The answer where none is given: one row is affected and none returned. -/
def plain : Reply := .done 1 []

end Reply

structure Peer where
  replies : List Reply := []
  onBegin : Option Fault := none
  onCommit : Option Fault := none
  onRollback : Option Fault := none
  /-- Whether connections are refused. -/
  closed : Bool := false
  /-- What the database was told, in order. -/
  heard : List Statement := []

namespace Peer

def hear (peer : Peer) (statement : Statement) : Peer :=
  { peer with heard := peer.heard ++ [statement] }

/-- Puts a statement to the database, which takes the next reply. -/
def ask (peer : Peer) (statement : Statement) : Reply × Peer :=
  match peer.replies with
  | [] => (.plain, peer.hear statement)
  | reply :: rest => (reply, { peer with replies := rest }.hear statement)

def begin (peer : Peer) : Except Fault Unit × Peer :=
  match peer.onBegin with
  | none => (.ok (), peer.hear Postgres.begin)
  | some fault => (.error fault, peer.hear Postgres.begin)

def commit (peer : Peer) : Except Fault Unit × Peer :=
  match peer.onCommit with
  | none => (.ok (), peer.hear Postgres.commit)
  | some fault => (.error fault, peer.hear Postgres.commit)

def rollback (peer : Peer) : Except Fault Unit × Peer :=
  match peer.onRollback with
  | none => (.ok (), peer.hear Postgres.rollback)
  | some fault => (.error fault, peer.hear Postgres.rollback)

/-- A transaction that is let go without an end is rolled back, whatever comes of it. -/
def abandon (peer : Peer) : Peer :=
  peer.hear Postgres.rollback

end Peer

end EventSourcing.Postgres
