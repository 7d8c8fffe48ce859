import EventSourcing.Sample.Events

/-!
A labelled counter, and an aggregate that handles no event at all.
-/

namespace EventSourcing.Sample

structure Counter where
  id : String
  value : Int := 0
  label : String := ""
  deriving DecidableEq, Repr

namespace Counter

def increment (counter : Counter) (step : Int32) : Counter :=
  { counter with value := counter.value + step.toInt }

def reset (counter : Counter) (_ : Unit) : Counter :=
  { counter with value := 0 }

/-- The new label starts with `mark`. -/
def rename (mark : String) (counter : Counter) (name : String) : Counter :=
  { counter with label := mark ++ name }

/-- Each cell counts as one. -/
def addCells (counter : Counter) (cells : Cells) : Counter :=
  { counter with value := counter.value + cells.length }

end Counter

/-- The second handler of a rename takes the place of the first. -/
def counterRegistry : Registry Kind Counter :=
  ((((({} : Registry Kind Counter).onState .incremented Counter.increment).onState .reset
    Counter.reset).onState .renamed (Counter.rename "first:")).onState .renamed
    (Counter.rename "second:")).onState .grid Counter.addCells

def counter : AggregateType Kind where
  name := "Counter"
  Id := String
  State := Counter
  idText := id
  initial id := { id := id }
  registry := counterRegistry

def inert : AggregateType Kind where
  name := "Inert"
  Id := String
  State := Unit
  idText := id
  initial _ := ()
  registry := {}

end EventSourcing.Sample
