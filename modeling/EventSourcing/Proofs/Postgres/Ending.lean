import EventSourcing.Proofs.Postgres.Acceptance

/-!
Transactions in a database that may answer anything. Each reply lets the transaction go on, refuses
it or breaks it, and the first that does not let it go on decides its end; only a transaction with
nothing but passing replies is committed.
-/

namespace EventSourcing.Postgres

/-- What a reply means for the transaction under way. -/
inductive Verdict where
  | passes
  | refuses
  | breaks (fault : Fault)
  deriving DecidableEq, Repr

/-- How a transaction is ended. -/
inductive Ending where
  | commit
  | rollback
  deriving DecidableEq, Repr

namespace Ending

def statement : Ending → Statement
  | .commit => Postgres.commit
  | .rollback => Postgres.rollback

end Ending

namespace Verdict

/-- A broken transaction is not ended, it is let go. -/
def ending? : Verdict → Option Ending
  | .passes => some .commit
  | .refuses => some .rollback
  | .breaks _ => none

end Verdict

namespace Reply

def fault? : Reply → Option Fault
  | .done _ _ => none
  | .failed fault => some fault

/-- A header change has to change one row. -/
def onHeader : Reply → Verdict
  | .done affected _ => if affected = 1 then .passes else .refuses
  | .failed fault => .breaks fault

/-- A record is refused only if its key is taken. -/
def onRecord : Reply → Verdict
  | .done _ _ => .passes
  | .failed fault => if fault.isUniqueViolation then .refuses else .breaks fault

/-- What a reply means to the statement with this number. The first one changes the header, the
others insert records. -/
def verdict : Nat → Reply → Verdict
  | 0 => onHeader
  | _ + 1 => onRecord

theorem eq_failed_of_breaks {reply : Reply} {number : Nat} {fault : Fault}
    (broken : reply.verdict number = .breaks fault) : reply = .failed fault := by
  cases number <;> cases reply <;> simp only [verdict, onHeader, onRecord] at broken
  · split at broken <;> cases broken
  · cases broken
    rfl
  · cases broken
  · split at broken
    · cases broken
    · cases broken
      rfl

end Reply

/-- The statements of a transaction between its beginning and its end. -/
def steps (transaction : Transaction) : List Statement :=
  changeHeader transaction.stream transaction.header ::
    transaction.records.map (insertRecord transaction.stream)

theorem length_steps (transaction : Transaction) :
    (steps transaction).length = transaction.operationCount := by
  simp [steps, Transaction.operationCount]

/-- How many of so many statements are asked until one does not pass, and what the last reply
means. -/
inductive Stops (verdicts : Nat → Verdict) (count : Nat) : Nat → Verdict → Prop where
  | through (all : ∀ number < count, verdicts number = .passes) :
      Stops verdicts count count .passes
  | halts {number : Nat} (inside : number < count)
      (before : ∀ earlier < number, verdicts earlier = .passes)
      (here : verdicts number ≠ .passes) : Stops verdicts count (number + 1) (verdicts number)

namespace Stops

variable {verdicts : Nat → Verdict} {count asked : Nat} {last : Verdict}

theorem at_first (some : 0 < count) (here : verdicts 0 ≠ .passes) :
    Stops verdicts count 1 (verdicts 0) :=
  .halts some (fun _ never => absurd never (Nat.not_lt_zero _)) here

/-- A statement that passes may be put before the others. -/
theorem cons (passed : verdicts 0 = .passes)
    (stops : Stops (fun number => verdicts (number + 1)) count asked last) :
    Stops verdicts (count + 1) (asked + 1) last := by
  have extended {limit : Nat} (all : ∀ number < limit, verdicts (number + 1) = .passes) :
      ∀ number < limit + 1, verdicts number = .passes := by
    intro number inside
    cases number with
    | zero => exact passed
    | succ number => exact all number (Nat.lt_of_succ_lt_succ inside)
  cases stops with
  | through all => exact .through (extended all)
  | halts inside before here => exact .halts (Nat.succ_lt_succ inside) (extended before) here

theorem asked_le (stops : Stops verdicts count asked last) : asked ≤ count := by
  cases stops with
  | through all => exact Nat.le_refl _
  | halts inside before here => exact inside

/-- A statement is asked if all before it pass. -/
theorem lt_asked_iff (stops : Stops verdicts count asked last) {number : Nat}
    (inside : number < count) :
    number < asked ↔ ∀ earlier < number, verdicts earlier = .passes := by
  cases stops with
  | through all =>
    exact ⟨fun _ earlier less => all earlier (Nat.lt_trans less inside), fun _ => inside⟩
  | @halts place _ before here =>
    constructor
    · intro asked earlier less
      exact before earlier (Nat.lt_of_lt_of_le less (Nat.le_of_lt_succ asked))
    · intro all
      refine Nat.lt_succ_of_le (Nat.not_lt.mp fun beyond => ?_)
      exact here (all place beyond)

theorem passes_iff (stops : Stops verdicts count asked last) :
    last = .passes ↔ ∀ number < count, verdicts number = .passes := by
  cases stops with
  | through all => exact ⟨fun _ => all, fun _ => rfl⟩
  | halts inside before here =>
    exact ⟨fun passed => absurd passed here, fun all => absurd (all _ inside) here⟩

theorem refuses_iff (stops : Stops verdicts count asked last) :
    last = .refuses ↔ ∃ number < count,
      (∀ earlier < number, verdicts earlier = .passes) ∧ verdicts number = .refuses := by
  cases stops with
  | through all =>
    refine ⟨nofun, ?_⟩
    rintro ⟨number, inside, -, refused⟩
    cases (all number inside).symm.trans refused
  | @halts place inside before here =>
    refine ⟨fun refused => ⟨place, inside, before, refused⟩, ?_⟩
    rintro ⟨number, -, passed, refused⟩
    rcases Nat.lt_trichotomy number place with less | rfl | greater
    · cases (before number less).symm.trans refused
    · exact refused
    · exact absurd (passed place greater) here

/-- A broken transaction ends with the reply that broke it. -/
theorem eq_succ_of_breaks (stops : Stops verdicts count asked last) {fault : Fault}
    (broken : last = .breaks fault) :
    ∃ number, asked = number + 1 ∧ verdicts number = .breaks fault := by
  cases stops with
  | through all => cases broken
  | halts inside before here => exact ⟨_, rfl, broken⟩

end Stops

namespace Peer

/-- The reply to the statement with this number among those to come. -/
def reply (peer : Peer) (number : Nat) : Reply := peer.replies.getD number .plain

def verdict (peer : Peer) (number : Nat) : Verdict := (peer.reply number).verdict number

/-- The answer to the end of a transaction. -/
def onEnding (peer : Peer) : Ending → Option Fault
  | .commit => peer.onCommit
  | .rollback => peer.onRollback

/-- The errors among the replies to a transaction, the earliest first. -/
def faults (peer : Peer) (asked : Nat) (ending : Option Ending) : List Fault :=
  peer.onBegin.toList ++ (List.range asked).filterMap (fun number => (peer.reply number).fault?) ++
    (ending.bind peer.onEnding).toList

/-- The reply that broke a transaction is its last error. -/
theorem getLast?_faults {peer : Peer} {number : Nat} {fault : Fault}
    (replied : peer.reply number = .failed fault) :
    (peer.faults (number + 1) none).getLast? = some fault := by
  have last : (peer.reply number).fault? = some fault := congrArg Reply.fault? replied
  rw [faults, List.range_succ, List.filterMap_append]
  simp [last]

theorem told_nil (peer : Peer) : peer.told 0 [] = peer := by
  simp [told]

theorem reply_told (peer : Peer) (asked number : Nat) (statements : List Statement) :
    (peer.told asked statements).reply number = peer.reply (asked + number) := by
  simp [reply, told]

theorem ask_eq (peer : Peer) (statement : Statement) :
    peer.ask statement = (peer.reply 0, peer.told 1 [statement]) := by
  obtain ⟨replies⟩ := peer
  cases replies <;> rfl

/-- Ends a transaction as the last reply says. -/
def conclude (peer : Peer) : Verdict → Except Error Outcome × Peer
  | .passes => peer.complete
  | .refuses => peer.conflict
  | .breaks fault => (.error fault.error, peer.abandon)

theorem insertRecords_eq (peer : Peer) (stream : StreamKey) (records : List Record) :
    ∃ asked last, Stops (fun number => (peer.reply number).onRecord) records.length asked last ∧
      peer.insertRecords stream records =
        (peer.told asked ((records.map (insertRecord stream)).take asked)).conclude last := by
  induction records generalizing peer with
  | nil =>
    refine ⟨0, .passes, .through fun _ never => absurd never (Nat.not_lt_zero _), ?_⟩
    rw [List.take_zero, told_nil]
    rfl
  | cons record rest ih =>
    obtain ⟨asked, last, stops, course⟩ := ih (peer.told 1 [insertRecord stream record])
    simp only [reply_told, told_told, Nat.add_comm 1] at stops course
    rw [insertRecords, ask_eq]
    cases replied : peer.reply 0 with
    | done affected rows =>
      refine ⟨asked + 1, last, stops.cons ?_, course⟩
      rw [replied]
      rfl
    | failed fault =>
      have verdict : (peer.reply 0).onRecord ≠ .passes := by
        rw [replied, Reply.onRecord]
        split <;> simp
      refine ⟨1, _, .at_first (Nat.succ_pos _) verdict, ?_⟩
      simp only [replied, Reply.onRecord]
      split <;> rfl

theorem applyTransaction_eq (peer : Peer) (transaction : Transaction) :
    ∃ asked last, Stops peer.verdict transaction.operationCount asked last ∧
      peer.applyTransaction transaction =
        (peer.told asked ((steps transaction).take asked)).conclude last := by
  rw [applyTransaction, ask_eq]
  have here : peer.verdict 0 = (peer.reply 0).onHeader := rfl
  cases replied : peer.reply 0 with
  | failed fault =>
    have broken : peer.verdict 0 = .breaks fault := by rw [here, replied, Reply.onHeader]
    refine ⟨1, _, .at_first (Nat.succ_pos _) (by simp [broken]), ?_⟩
    rw [broken]
    rfl
  | done affected rows =>
    dsimp only
    by_cases one : affected = 1
    · have passed : peer.verdict 0 = .passes := by rw [here, replied, Reply.onHeader, if_pos one]
      obtain ⟨asked, last, stops, course⟩ :=
        (peer.told 1 [changeHeader transaction.stream transaction.header]).insertRecords_eq
          transaction.stream transaction.records
      simp only [reply_told, told_told, Nat.add_comm 1] at stops course
      rw [if_pos one]
      exact ⟨asked + 1, last, stops.cons passed, course⟩
    · have refused : peer.verdict 0 = .refuses := by rw [here, replied, Reply.onHeader, if_neg one]
      refine ⟨1, _, .at_first (Nat.succ_pos _) (by simp [refused]), ?_⟩
      rw [if_neg one, refused]
      rfl

/-- What is let go without an end is rolled back. -/
theorem conclude_told (peer : Peer) (last : Verdict) :
    (peer.conclude last).2 = peer.told 0 ((last.ending?.map Ending.statement).toList ++
      if (peer.conclude last).1.isOk then [] else [Postgres.rollback]) := by
  obtain ⟨replies, onBegin, onCommit, onRollback, closed, heard⟩ := peer
  cases last with
  | passes => cases onCommit <;> simp [conclude, complete, Peer.commit, abandon, hear, told,
      Verdict.ending?, Ending.statement, Except.isOk, Except.toBool]
  | refuses => cases onRollback <;> simp [conclude, conflict, Peer.rollback, abandon, hear, told,
      Verdict.ending?, Ending.statement, Except.isOk, Except.toBool]
  | breaks fault => rfl

theorem conclude_eq_committed_iff (peer : Peer) (last : Verdict) :
    (peer.conclude last).1 = .ok .committed ↔
      last.ending? = some .commit ∧ peer.onCommit = none := by
  cases last with
  | passes =>
    cases answer : peer.onCommit <;>
      simp [conclude, complete, Peer.commit, answer, Verdict.ending?]
  | refuses =>
    cases answer : peer.onRollback <;>
      simp [conclude, conflict, Peer.rollback, answer, Verdict.ending?]
  | breaks fault => simp [conclude, Verdict.ending?]

theorem conclude_eq_conflict_iff (peer : Peer) (last : Verdict) :
    (peer.conclude last).1 = .ok .conflict ↔
      last.ending? = some .rollback ∧ peer.onRollback = none := by
  cases last with
  | passes =>
    cases answer : peer.onCommit <;>
      simp [conclude, complete, Peer.commit, answer, Verdict.ending?]
  | refuses =>
    cases answer : peer.onRollback <;>
      simp [conclude, conflict, Peer.rollback, answer, Verdict.ending?]
  | breaks fault => simp [conclude, Verdict.ending?]

/-- A transaction fails with the error of its end, or else with the one that broke it. -/
theorem exists_fault_of_conclude {peer : Peer} {last : Verdict} {error : Error}
    (failed : (peer.conclude last).1 = .error error) :
    ∃ fault, error = fault.error ∧
      (last = .breaks fault ∨ last.ending?.bind peer.onEnding = some fault) := by
  cases last with
  | passes =>
    cases answer : peer.onCommit with
    | none => simp [conclude, complete, Peer.commit, answer] at failed
    | some fault =>
      simp only [conclude, complete, Peer.commit, answer, Except.error.injEq] at failed
      exact ⟨fault, failed.symm, .inr answer⟩
  | refuses =>
    cases answer : peer.onRollback with
    | none => simp [conclude, conflict, Peer.rollback, answer] at failed
    | some fault =>
      simp only [conclude, conflict, Peer.rollback, answer, Except.error.injEq] at failed
      exact ⟨fault, failed.symm, .inr answer⟩
  | breaks fault => exact ⟨fault, (Except.error.inj failed).symm, .inl rfl⟩

/-- What a database is told of a transaction, and what comes of it. -/
structure Course (peer : Peer) (transaction : Transaction) (asked : Nat) (ending : Option Ending)
    (result : Except Error Outcome) (after : Peer) : Prop where
  /-- A transaction that has begun and has not ended well is let go. -/
  heard : after.heard = peer.heard ++ Postgres.begin :: (steps transaction).take asked ++
    (ending.map Ending.statement).toList ++
    if peer.onBegin.isSome || result.isOk then [] else [Postgres.rollback]
  replies : after.replies = peer.replies.drop asked
  bounded : asked ≤ (steps transaction).length
  goesOn : ∀ number < (steps transaction).length, number < asked ↔
    peer.onBegin = none ∧ ∀ earlier < number, peer.verdict earlier = .passes
  commits : ending = some .commit ↔
    peer.onBegin = none ∧ ∀ number < (steps transaction).length, peer.verdict number = .passes
  rollsBack : ending = some .rollback ↔
    peer.onBegin = none ∧ ∃ number < (steps transaction).length,
      (∀ earlier < number, peer.verdict earlier = .passes) ∧ peer.verdict number = .refuses
  committed : result = .ok .committed ↔ ending = some .commit ∧ peer.onCommit = none
  conflict : result = .ok .conflict ↔ ending = some .rollback ∧ peer.onRollback = none
  /-- The last error is reported. -/
  fails : ∀ error, result = .error error → ∃ fault,
    (peer.faults asked ending).getLast? = some fault ∧
      error = .infrastructure ("error returned from database: " ++ fault.message)

/-- A transaction that could not begin. -/
theorem course_of_refused {peer : Peer} {fault : Fault} (refused : peer.onBegin = some fault)
    (transaction : Transaction) :
    peer.Course transaction 0 none (.error fault.error) (peer.hear Postgres.begin) where
  heard := by simp [refused, hear]
  replies := rfl
  bounded := Nat.zero_le _
  goesOn number _ := by simp [refused]
  commits := by simp [refused]
  rollsBack := by simp [refused]
  committed := by simp
  conflict := by simp
  fails error failed := by
    obtain rfl := Except.error.inj failed
    exact ⟨fault, by simp [faults, refused], rfl⟩

/-- A transaction that has begun. -/
theorem course_of_begun {peer : Peer} (begun : peer.onBegin = none) (transaction : Transaction) :
    ∃ asked ending,
      let left := (peer.told 0 [Postgres.begin]).applyTransaction transaction
      peer.Course transaction asked ending left.1 left.2 := by
  obtain ⟨asked, last, stops, course⟩ :=
    (peer.told 0 [Postgres.begin]).applyTransaction_eq transaction
  have verdicts : (peer.told 0 [Postgres.begin]).verdict = peer.verdict := by
    funext number
    rw [verdict, reply_told, Nat.zero_add]
    rfl
  rw [verdicts, ← length_steps] at stops
  rw [told_told, Nat.zero_add] at course
  generalize said : peer.told asked ([Postgres.begin] ++ (steps transaction).take asked) = reached
    at course
  refine ⟨asked, last.ending?, ?_⟩
  rw [course]
  have commits : last.ending? = some .commit ↔ last = .passes := by
    cases last <;> simp [Verdict.ending?]
  have rollsBack : last.ending? = some .rollback ↔ last = .refuses := by
    cases last <;> simp [Verdict.ending?]
  refine { heard := ?heard, replies := ?replies, bounded := stops.asked_le, goesOn := ?goesOn,
           commits := ?commits, rollsBack := ?rollsBack, committed := ?committed,
           conflict := ?conflict, fails := ?fails }
  case heard =>
    rw [conclude_told, ← said]
    simp [told, begun]
  case replies =>
    rw [conclude_told, ← said]
    rfl
  case goesOn =>
    intro number inside
    simpa [begun] using stops.lt_asked_iff inside
  case commits => simpa [begun, commits] using stops.passes_iff
  case rollsBack => simpa [begun, rollsBack] using stops.refuses_iff
  case committed =>
    rw [conclude_eq_committed_iff, ← said]
    rfl
  case conflict =>
    rw [conclude_eq_conflict_iff, ← said]
    rfl
  case fails =>
    intro error failed
    obtain ⟨fault, rfl, cause⟩ := exists_fault_of_conclude failed
    refine ⟨fault, ?_, rfl⟩
    rcases cause with broken | ended
    · obtain ⟨number, rfl, here⟩ := stops.eq_succ_of_breaks broken
      rw [broken]
      exact getLast?_faults (Reply.eq_failed_of_breaks here)
    · have answer : last.ending?.bind peer.onEnding = some fault := by rw [← ended, ← said]; rfl
      simp [faults, answer]

/-- Whatever a database answers, it is told a transaction statement by statement for as long as
all goes through, and commits it only if all of it has; a taken key or a header that is not as
expected rolls it back, and whatever else goes wrong is reported as it was answered last. -/
theorem submits_all_or_nothing (peer : Peer) (transaction : Transaction) :
    let (result, after) := peer.submit transaction
    if peer.closed then result = .error poolClosed ∧ after = peer
    else ∃ asked ending, peer.Course transaction asked ending result after := by
  by_cases closed : peer.closed
  · simp only [submit, if_pos closed, and_self]
  · simp only [submit, if_neg closed]
    cases begun : peer.onBegin with
    | none =>
      simp only [Peer.begin, begun]
      exact course_of_begun begun transaction
    | some fault =>
      simp only [Peer.begin, begun]
      exact ⟨0, none, course_of_refused begun transaction⟩

/-- The second key is taken, and the connection breaks before that is undone. -/
example (stream : StreamKey) (first second : Record) :
    let peer : Peer :=
      { replies := [.plain, .plain, .failed ⟨"23505", "duplicate key"⟩]
        onRollback := some ⟨"08006", "connection lost"⟩ }
    let (answer, after) := peer.submit ⟨stream, .create ⟨1⟩, [first, second]⟩
    answer = .error (.infrastructure "error returned from database: connection lost") ∧
      after.heard = [Postgres.begin, changeHeader stream (.create ⟨1⟩), insertRecord stream first,
        insertRecord stream second, Postgres.rollback, Postgres.rollback] :=
  ⟨rfl, rfl⟩

end Peer

end EventSourcing.Postgres
