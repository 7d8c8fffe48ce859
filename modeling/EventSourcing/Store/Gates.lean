import EventSourcing.Keyed
import EventSourcing.StreamKey

/-!
Gates that let one writer at a time to each stream. A table holds the gate of every stream that is
visited. A visitor takes a reference to the gate of its stream, waits in line, goes inside, and on
its way out forgets the gate and takes it from the table if nobody else refers to it. A visitor
that gives up on its way in leaves the table alone.
-/

namespace EventSourcing

namespace Gates

/-- How far a visitor has come. -/
inductive Stage where
  /-- Has a reference to the gate and has not asked to go in. -/
  | arrived
  | waiting
  /-- The gate was handed to the visitor, which has not noticed yet. -/
  | called
  | inside
  /-- Has let the gate go and still refers to it. -/
  | released
  /-- Has given up and still refers to the gate. -/
  | quitting
  /-- Refers to the gate no more and has still to look after the table. -/
  | leaving
  deriving DecidableEq, Repr

def Stage.RefersToGate (stage : Stage) : Prop := stage ≠ .leaving

/-- Whether the gate is shut because of a visitor at this stage. -/
def Stage.ShutsGate (stage : Stage) : Prop := stage = .called ∨ stage = .inside

instance (stage : Stage) : Decidable stage.RefersToGate := inferInstanceAs (Decidable (_ ≠ _))

instance (stage : Stage) : Decidable stage.ShutsGate := inferInstanceAs (Decidable (_ ∨ _))

structure Visit where
  stream : StreamKey
  gate : Nat
  stage : Stage
  deriving DecidableEq, Repr

/-- What a visitor does next. -/
inductive Move where
  | arrive (stream : StreamKey)
  | ask
  | enter
  | release
  | forget
  | tidy
  | giveUp
  deriving DecidableEq, Repr

end Gates

/-- The table of gates, the visitors by their numbers, and those waiting in the order in which they
asked. -/
structure Gates where
  table : Keyed StreamKey Nat := {}
  nextGate : Nat := 0
  visits : Keyed Nat Gates.Visit := {}
  line : List Nat := []
  deriving DecidableEq, Repr

namespace Gates

/-- The table's entries for a gate and the visitors that refer to it. -/
def references (gates : Gates) (gate : Nat) : Nat :=
  (gates.table.entries.filter fun entry => entry.2 = gate).length +
    (gates.visits.entries.filter fun entry =>
      entry.2.gate = gate ∧ entry.2.stage.RefersToGate).length

def isShut (gates : Gates) (gate : Nat) : Bool :=
  gates.visits.entries.any fun entry => entry.2.gate = gate ∧ entry.2.stage.ShutsGate

def atStage (gates : Gates) (visitor : Nat) (visit : Visit) (stage : Stage) : Gates :=
  { gates with visits := gates.visits.set visitor { visit with stage := stage } }

def dismiss (gates : Gates) (visitor : Nat) : Gates :=
  { gates with visits := gates.visits.erase visitor }

def waitsAt (gates : Gates) (gate visitor : Nat) : Bool :=
  match gates.visits.find? visitor with
  | some visit => visit.gate = gate
  | none => false

/-- The gate goes to the first in line for it, if there is one. -/
def handOver (gates : Gates) (gate : Nat) : Gates :=
  match gates.line.find? (gates.waitsAt gate) with
  | none => gates
  | some visitor =>
    match gates.visits.find? visitor with
    | none => gates
    | some visit =>
      { gates.atStage visitor visit .called with line := gates.line.erase visitor }

/-- The gate of a stream; one is made if the table has none. -/
def lookUp (gates : Gates) (stream : StreamKey) : Nat × Gates :=
  match gates.table.find? stream with
  | some gate => (gate, gates)
  | none =>
    (gates.nextGate,
      { gates with
        table := gates.table.set stream gates.nextGate
        nextGate := gates.nextGate + 1 })

/-- Takes the gate of a stream from the table if only the table refers to it. -/
def tidyUp (gates : Gates) (stream : StreamKey) : Gates :=
  match gates.table.find? stream with
  | some gate =>
    if gates.references gate = 1 then { gates with table := gates.table.erase stream } else gates
  | none => gates

/-- What a move makes of the gates; nothing if the visitor cannot make it now. -/
def move (gates : Gates) (visitor : Nat) (move : Move) : Option Gates :=
  match gates.visits.find? visitor, move with
  | none, .arrive stream =>
    let (gate, gates) := gates.lookUp stream
    some { gates with visits := gates.visits.set visitor ⟨stream, gate, .arrived⟩ }
  | some visit, .ask =>
    if visit.stage = .arrived then
      if gates.isShut visit.gate then
        some { gates.atStage visitor visit .waiting with line := gates.line ++ [visitor] }
      else some (gates.atStage visitor visit .inside)
    else none
  | some visit, .enter =>
    if visit.stage = .called then some (gates.atStage visitor visit .inside) else none
  | some visit, .release =>
    if visit.stage = .inside then
      some ((gates.atStage visitor visit .released).handOver visit.gate)
    else none
  | some visit, .forget =>
    match visit.stage with
    | .released => some (gates.atStage visitor visit .leaving)
    | .quitting => some (gates.dismiss visitor)
    | _ => none
  | some visit, .tidy =>
    if visit.stage = .leaving then some ((gates.tidyUp visit.stream).dismiss visitor) else none
  | some visit, .giveUp =>
    match visit.stage with
    | .arrived => some (gates.atStage visitor visit .quitting)
    | .waiting =>
      some { gates.atStage visitor visit .quitting with line := gates.line.erase visitor }
    | .called => some ((gates.atStage visitor visit .quitting).handOver visit.gate)
    | _ => none
  | _, _ => none

/-- Moves of one visitor in a row; moves that it cannot make are left out. -/
def moves (gates : Gates) (visitor : Nat) (steps : List Move) : Gates :=
  steps.foldl (fun gates step => (gates.move visitor step).getD gates) gates

/-- Arrives at the gate of a stream and asks to go in. -/
def visit (gates : Gates) (visitor : Nat) (stream : StreamKey) : Gates :=
  gates.moves visitor [.arrive stream, .ask]

/-- Comes out again and leaves the gates as they should be. -/
def leave (gates : Gates) (visitor : Nat) : Gates :=
  gates.moves visitor [.release, .forget, .tidy]

/-- How far a visitor has come; nothing if it is not there. -/
def stage? (gates : Gates) (visitor : Nat) : Option Stage :=
  (gates.visits.find? visitor).map (·.stage)

end Gates

end EventSourcing
