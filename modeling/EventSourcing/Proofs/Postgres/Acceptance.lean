import EventSourcing.Proofs.Holders.Alone
import EventSourcing.Proofs.Postgres

/-!
Databases that accept every statement. They hear a transaction from its beginning to its commit, and
a write over them is done with its first transaction.
-/

namespace EventSourcing.Postgres

namespace Peer

/-- Whether the database is open and accepts every statement, with one row affected. -/
structure Accepts (peer : Peer) : Prop where
  opened : peer.closed = false
  begins : peer.onBegin = none
  commits : peer.onCommit = none
  affects : ∀ reply ∈ peer.replies, ∃ rows, reply = .done 1 rows

/-- The database after it was told some statements, so many of which took a reply. -/
def told (peer : Peer) (asked : Nat) (statements : List Statement) : Peer :=
  { peer with replies := peer.replies.drop asked, heard := peer.heard ++ statements }

theorem told_told (peer : Peer) (first second : Nat) (early late : List Statement) :
    (peer.told first early).told second late = peer.told (first + second) (early ++ late) := by
  simp [told, List.append_assoc]

namespace Accepts

variable {peer : Peer}

theorem told (accepts : peer.Accepts) (asked : Nat) (statements : List Statement) :
    (peer.told asked statements).Accepts where
  opened := accepts.opened
  begins := accepts.begins
  commits := accepts.commits
  affects reply member := accepts.affects reply (List.mem_of_mem_drop member)

theorem begin (accepts : peer.Accepts) : peer.begin = (.ok (), peer.told 0 [Postgres.begin]) := by
  rw [Peer.begin, accepts.begins]
  rfl

theorem complete (accepts : peer.Accepts) :
    peer.complete = (.ok .committed, peer.told 0 [Postgres.commit]) := by
  rw [Peer.complete, Peer.commit, accepts.commits]
  rfl

theorem ask (accepts : peer.Accepts) (statement : Statement) :
    ∃ rows, peer.ask statement = (.done 1 rows, peer.told 1 [statement]) := by
  cases replies : peer.replies with
  | nil =>
    refine ⟨[], ?_⟩
    simp [Peer.ask, replies, Reply.plain, Peer.told, hear]
  | cons reply rest =>
    obtain ⟨rows, rfl⟩ := accepts.affects reply (replies ▸ List.mem_cons_self)
    refine ⟨rows, ?_⟩
    simp [Peer.ask, replies, Peer.told, hear]

theorem insertRecords (accepts : peer.Accepts) (stream : StreamKey) (records : List Record) :
    peer.insertRecords stream records =
      (.ok .committed,
        peer.told records.length (records.map (insertRecord stream) ++ [Postgres.commit])) := by
  induction records generalizing peer with
  | nil => exact accepts.complete
  | cons record rest ih =>
    obtain ⟨rows, answered⟩ := accepts.ask (insertRecord stream record)
    rw [Peer.insertRecords, answered]
    dsimp only
    rw [ih (accepts.told 1 _), told_told, Nat.add_comm]
    rfl

end Accepts

end Peer

/-- The statements that submit a transaction. -/
def statements (transaction : Transaction) : List Statement :=
  Postgres.begin :: changeHeader transaction.stream transaction.header ::
    transaction.records.map (insertRecord transaction.stream) ++ [Postgres.commit]

theorem rows_statements (transaction : Transaction) :
    rows (statements transaction) =
      transaction.records.map (Row.ofRecord transaction.stream) := by
  have begun : rows [Postgres.begin] = [] := rfl
  have changed : rows [changeHeader transaction.stream transaction.header] = [] := by
    cases transaction.header <;> rfl
  have done : rows [Postgres.commit] = [] := rfl
  have split : statements transaction =
      [Postgres.begin] ++ [changeHeader transaction.stream transaction.header] ++
        transaction.records.map (insertRecord transaction.stream) ++ [Postgres.commit] := rfl
  rw [split, rows_append, rows_append, rows_append, begun, changed, done, rows_insertRecord]
  simp

namespace Peer.Accepts

variable {peer : Peer}

/-- The database after a transaction was submitted to it. -/
theorem submit (accepts : peer.Accepts) (transaction : Transaction) :
    peer.submit transaction =
      (.ok .committed, peer.told transaction.operationCount (statements transaction)) := by
  obtain ⟨rows, answered⟩ := (accepts.told 0 [Postgres.begin]).ask
    (changeHeader transaction.stream transaction.header)
  rw [Peer.submit, if_neg (by simp [accepts.opened]), accepts.begin]
  dsimp only
  rw [Peer.applyTransaction, answered]
  dsimp only
  rw [if_pos rfl, ((accepts.told 0 _).told 1 _).insertRecords, told_told, told_told]
  rw [Nat.zero_add, Nat.add_comm]
  rfl

/-- A write with events submits one transaction and is done. -/
theorem write (accepts : peer.Accepts) {planner later : Planner} {write : Write}
    {transaction : Transaction} (filled : write.events ≠ [])
    (prepared : planner.plan write write.retrieved = .ok (transaction, later)) :
    backend.write planner write peer =
      ⟨.ok transaction.newVersion, some transaction, later,
        peer.told transaction.operationCount (statements transaction)⟩ := by
  let start := Writer.start write planner.settings.retryLimit
  have same : start.write = write := rfl
  have begun : start.phase = .planning write.retrieved := Writer.phase_start_of_ne_nil filled _
  have left : start.stepsLeft = start.retryLimit * 4 + 2 + 1 + 1 := by
    simp only [Writer.stepsLeft, begun]
    rfl
  let submitting : Writer := { start with phase := .submitting transaction }
  let finished : Writer :=
    { start with phase := .finished (.ok transaction.newVersion) (some transaction) }
  have plans : start.step backend planner peer = (submitting, later, peer) := by
    simp only [Writer.step, begun, same, prepared]
    rfl
  have submits : submitting.step backend later peer =
      (finished, later, peer.told transaction.operationCount (statements transaction)) := by
    have answered : backend.submit transaction peer = _ := accepts.submit transaction
    simp only [Writer.step, submitting, answered]
    rfl
  have ran : start.run backend start.stepsLeft planner peer =
      (finished, later, peer.told transaction.operationCount (statements transaction)) := by
    rw [left, Writer.run_succ, plans, Writer.run_succ, submits]
    exact Writer.run_of_isFinished ⟨_, _, rfl⟩ backend _ later _
  exact backend.write_of_run rfl ran rfl

end Peer.Accepts

end EventSourcing.Postgres
