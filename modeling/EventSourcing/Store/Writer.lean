import EventSourcing.Store.Planner

/-!
The course of a write. A writer plans a transaction and submits it. After a conflict it asks
whether its initiator is in the stream already, in which case the write is done, and else where
the stream is; a write at any version may then be planned again from there.
-/

namespace EventSourcing

/-- What a writer does next. -/
inductive Phase where
  | planning (baseline : Version)
  | submitting (transaction : Transaction)
  | searching
  | confirming
  | measuring
  | finished (result : Except Error Version) (committed : Option Transaction)
  deriving Inhabited

structure Writer where
  write : Write
  retryLimit : Nat
  phase : Phase
  retries : Nat := 0

namespace Writer

/-- A write without events is done before it starts. -/
def start (write : Write) (retryLimit : Nat) : Writer where
  write := write
  retryLimit := retryLimit
  phase :=
    match write.events with
    | [] => .finished (.ok write.retrieved) none
    | _ :: _ => .planning write.retrieved

def fail (writer : Writer) (error : Error) : Writer :=
  { writer with phase := .finished (.error error) none }

/-- Goes on with a planned transaction. -/
def planned (writer : Writer) : Except Error Transaction → Writer
  | .ok transaction => { writer with phase := .submitting transaction }
  | .error error => writer.fail error

/-- Goes on with what became of `transaction`. A nil initiator is not searched for. -/
def submitted (writer : Writer) (transaction : Transaction) : Except Error Outcome → Writer
  | .ok .committed =>
    { writer with phase := .finished (.ok transaction.newVersion) (some transaction) }
  | .ok .conflict =>
    if writer.write.origin.initiator = Uuid.nil then { writer with phase := .measuring }
    else { writer with phase := .searching }
  | .error error => writer.fail error

/-- Goes on knowing whether the stream holds the initiator. -/
def searched (writer : Writer) : Except Error Bool → Writer
  | .ok true => { writer with phase := .confirming }
  | .ok false => { writer with phase := .measuring }
  | .error error => writer.fail error

/-- A write that was done before ends at the version that the stream has now. -/
def confirmed (writer : Writer) : Except Error (Option Version) → Writer
  | .ok version =>
    { writer with phase := .finished (.ok (version.getD Version.absent)) none }
  | .error error => writer.fail error

/-- The conflict as it is reported to the caller. -/
def unexpected (writer : Writer) (actual : Option Version) : Error :=
  .unexpectedVersion writer.write.stream writer.write.expected writer.write.retrieved actual

/-- Only a write at any version is planned again, as often as the limit allows. -/
def measured (writer : Writer) : Except Error (Option Version) → Writer
  | .ok actual =>
    match writer.write.expected, actual with
    | .any, some version =>
      if writer.retries < writer.retryLimit then
        { writer with phase := .planning version, retries := writer.retries + 1 }
      else writer.fail (writer.unexpected actual)
    | _, _ => writer.fail (writer.unexpected actual)
  | .error error => writer.fail error

def IsFinished (writer : Writer) : Prop :=
  ∃ result committed, writer.phase = .finished result committed

/-- Steps that the writer can still take. -/
def stepsLeft (writer : Writer) : Nat :=
  (writer.retryLimit - writer.retries) * 4 +
    match writer.phase with
    | .planning _ => 4
    | .submitting _ => 3
    | .searching => 2
    | .confirming => 1
    | .measuring => 1
    | .finished _ _ => 0

end Writer

end EventSourcing
