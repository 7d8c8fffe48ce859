import EventSourcing.Store.Backend

/-!
Scripted storage. The next calls of each kind may be answered from a script in place of the store;
a submit may also be delayed, be preceded by another transaction, or be reported as something else
than what became of it.
-/

namespace EventSourcing.Simulation

/-- What happens to a submit, in the order of the fields. -/
structure SubmitPlan where
  /-- A transaction of somebody else that is submitted first, or the fault that keeps it from being
  one, which is then the answer. -/
  before : Option (Except Error Transaction) := none
  delay : Nat := 0
  /-- The answer given without applying anything. -/
  refusal : Option (Except Error Outcome) := none
  ackDelay : Nat := 0
  /-- The answer given in place of what became of the transaction. -/
  report : Option (Except Error Outcome) := none

/-- Plans for the next calls of each kind. A call without a plan is answered by the store. -/
structure Script where
  submits : List SubmitPlan := []
  headers : List (Option (Except Error (Option Version))) := []
  initiators : List (Option (Except Error Bool)) := []
  records : List (Option (Except Error (List Record))) := []

/-- A store with a script, and the transactions that were submitted. -/
structure ScriptedStore where
  store : Store := {}
  script : Script := {}
  submitted : List Transaction := []

namespace ScriptedStore

def header (stored : ScriptedStore) (key : StreamKey) :
    Except Error (Option Version) × ScriptedStore :=
  match stored.script.headers with
  | [] => (.ok (stored.store.header key), stored)
  | planned :: rest =>
    (planned.getD (.ok (stored.store.header key)),
      { stored with script := { stored.script with headers := rest } })

def containsInitiator (stored : ScriptedStore) (key : StreamKey) (initiator : Uuid) :
    Except Error Bool × ScriptedStore :=
  match stored.script.initiators with
  | [] => (.ok (stored.store.containsInitiator key initiator), stored)
  | planned :: rest =>
    (planned.getD (.ok (stored.store.containsInitiator key initiator)),
      { stored with script := { stored.script with initiators := rest } })

def records (stored : ScriptedStore) (key : StreamKey) :
    Except Error (List Record) × ScriptedStore :=
  match stored.script.records with
  | [] => (.ok (stored.store.records key), stored)
  | planned :: rest =>
    (planned.getD (.ok (stored.store.records key)),
      { stored with script := { stored.script with records := rest } })

/-- Applies a transaction to the store. -/
def apply (stored : ScriptedStore) (transaction : Transaction) : Outcome × ScriptedStore :=
  ((stored.store.submit transaction).2,
    { stored with store := (stored.store.submit transaction).1 })

/-- Takes the plan of a submit and notes the transaction; a transaction of somebody else comes
first. -/
def receive (stored : ScriptedStore) (transaction : Transaction) :
    Except Error SubmitPlan × ScriptedStore :=
  let (plan, rest) := match stored.script.submits with
    | [] => (({} : SubmitPlan), [])
    | plan :: rest => (plan, rest)
  let noted := { stored with
    script := { stored.script with submits := rest }
    submitted := stored.submitted ++ [transaction] }
  match plan.before with
  | none => (.ok plan, noted)
  | some (.ok other) => (.ok plan, (noted.apply other).2)
  | some (.error error) => (.error error, noted)

/-- The answer to a transaction whose delay is over. -/
def decide (stored : ScriptedStore) (plan : SubmitPlan) (transaction : Transaction) :
    Except Error Outcome × ScriptedStore :=
  match plan.refusal with
  | some answer => (answer, stored)
  | none =>
    let (outcome, stored) := stored.apply transaction
    (plan.report.getD (.ok outcome), stored)

/-- The storage as it answers when no time passes. -/
def backend : Backend ScriptedStore where
  submit transaction stored :=
    let (received, stored) := stored.receive transaction
    match received with
    | .ok plan => stored.decide plan transaction
    | .error error => (.error error, stored)
  readHeader key stored := stored.header key
  containsInitiator key initiator stored := stored.containsInitiator key initiator
  readRecords key stored := stored.records key

end ScriptedStore

end EventSourcing.Simulation
