import EventSourcing.Repository.Doubles
import EventSourcing.Simulation.World

/-!
The databases that a session can run over. Each stands in a world with a clock and consumers, but
only the storage in memory takes time there and publishes what was written; the other kinds of
storage answer at once.
-/

namespace EventSourcing.Simulation

/-- What answers reads and writes. -/
inductive Storage where
  | memory
  | recording (history : List StoredEvent) (writes : List Write)
  | empty
  | failing

structure Database where
  world : World
  storage : Storage := .memory

namespace Database

def inWorld (database : Database) (world : World) : Database :=
  { database with world := world }

def read (key : StreamKey) (database : Database) :
    Except Error (List StoredEvent) × Database :=
  match database.storage with
  | .memory =>
    let (answer, world) := database.world.read key
    (answer, database.inWorld world)
  | .recording history writes =>
    let (answer, writes) := (StreamStorage.recording history).read key writes
    (answer, { database with storage := .recording history writes })
  | .empty => ((StreamStorage.empty.read key ()).1, database)
  | .failing => ((StreamStorage.failing.read key ()).1, database)

def write (request : Write) (database : Database) : Except Error Version × Database :=
  match database.storage with
  | .memory =>
    let (answer, world) := database.world.write request
    (answer, database.inWorld world)
  | .recording history writes =>
    let (answer, writes) := (StreamStorage.recording history).write request writes
    (answer, { database with storage := .recording history writes })
  | .empty => ((StreamStorage.empty.write request ()).1, database)
  | .failing => ((StreamStorage.failing.write request ()).1, database)

def access : StreamStorage Database where
  read := read
  write := write

/-- A write with its place among others and the time at which it is due. -/
structure Appointment where
  place : Nat
  due : Nat
  request : Write

/-- Appointments at the given time, earliest first; of those due together the first in the list
comes first. -/
def appointments (now : Nat) (requests : List (Nat × Write)) : List Appointment :=
  let unsorted := (requests.zipIdx).map fun ((delay, request), place) =>
    { place := place, due := deadline now delay, request := request : Appointment }
  unsorted.mergeSort fun first second => first.due ≤ second.due

/-- Writes in the order of the appointments. The answers come with their places and times. -/
def keep : List Appointment → Database → List (Nat × Except Error Version × Nat) × Database
  | [], database => ([], database)
  | appointment :: later, database =>
    let database := database.inWorld (database.world.reach appointment.due)
    let (answer, database) := database.write appointment.request
    let (answers, database) := keep later database
    ((appointment.place, answer, appointment.due) :: answers, database)

/-- Performs writes side by side, each of them after a delay of its own. The answers come with the
times at which they were ready. -/
def writeAll (requests : List (Nat × Write)) (database : Database) :
    List (Except Error Version × Nat) × Database :=
  match database.storage with
  | .memory =>
    let (answers, world) := database.world.writeAll requests
    (answers, database.inWorld world)
  | _ =>
    let (answers, database) := keep (appointments database.world.now requests) database
    ((answers.mergeSort fun first second => first.1 ≤ second.1).map (·.2), database)

/-- The requests without a fault. -/
def sound (requests : List (Nat × Except Error Write)) : List (Nat × Write) :=
  requests.filterMap fun (delay, request) => request.toOption.map fun write => (delay, write)

/-- The answers to all requests, given those to the requests without a fault; a fault is answered as
soon as its request is due. -/
def withFaults (now : Nat) : List (Nat × Except Error Write) →
    List (Except Error Version × Nat) → List (Except Error Version × Nat)
  | [], _ => []
  | (delay, .error fault) :: requests, answers =>
    (.error fault, deadline now delay) :: withFaults now requests answers
  | (_, .ok _) :: requests, answer :: answers => answer :: withFaults now requests answers
  | (_, .ok _) :: _, [] => []

/-- Performs all requests that have no fault side by side, and waits until all requests are
answered. Meanwhile the consumers do what they can; without requests there is nothing to wait
for. -/
def performAll (requests : List (Nat × Except Error Write)) (database : Database) :
    List (Except Error Version × Nat) × Database :=
  let (answers, after) := database.writeAll (sound requests)
  let answers := withFaults database.world.now requests answers
  match (answers.map (·.2)).max? with
  | none => (answers, database)
  | some last => (answers, after.inWorld (after.world.reach last).settle)

end Database

end EventSourcing.Simulation
