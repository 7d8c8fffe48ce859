import EventSourcing.Proofs.Fleet.Course
import EventSourcing.Repository
import Mathlib.Logic.Function.Basic

/-!
Those who hold loaded aggregates. A holder loads an aggregate, changes it, and saves it through one
of the databases that share a store; the save is a job like any other, and the aggregate is out of
reach until the save has an answer or is given up.
-/

namespace EventSourcing

/-- A save that has no answer yet: the job that it has become, in which database, and what was asked
for. -/
structure Saving where
  job : Nat
  database : Nat
  request : Write

variable {κ : Type} [EventFamily κ]

/-- A place for an aggregate. -/
@[ext] structure Handle (type : AggregateType κ) where
  snapshot : Option (Snapshot type) := none
  saving : Option Saving := none

variable {ι : Type}

/-- The handles, each for aggregates of its own type, and the writers at work for them and for
others. -/
structure Holders (types : ι → AggregateType κ) where
  fleet : Fleet
  handles : (h : ι) → Handle (types h) := fun _ => {}

/-- What can happen next. -/
inductive Deed (types : ι → AggregateType κ) where
  /-- Wraps an aggregate that was never saved. -/
  | create (h : ι) (aggregate : Aggregate κ (types h).State)
  /-- Loads an aggregate, if its stream has events. -/
  | load (h : ι) (naming : StreamNaming) (id : (types h).Id)
  /-- Applies events to the aggregate or changes it otherwise. -/
  | change (h : ι) (aggregate : Aggregate κ (types h).State)
  | save (h : ι) (database : Nat) (naming : StreamNaming) (id : (types h).Id)
      (expected : ExpectedVersion) (origin : Origin)
  /-- Takes the answer of a save that has finished. -/
  | conclude (h : ι)
  /-- Waits no longer for the answer of a save. -/
  | abandon (h : ι)
  /-- A writer goes on, or somebody writes without a handle. -/
  | work (action : Fleet.Action)

namespace Handle

variable {type : AggregateType κ}

/-- The handle once its save has this answer. -/
def answered (handle : Handle type) : Except Error Version → Handle type
  | .ok version => { snapshot := handle.snapshot.map (·.saved version) }
  | .error _ => { handle with saving := none }

/-- The handle once its save has the answer of its job. -/
def concluded (handle : Handle type) (fleet : Fleet) : Handle type :=
  match handle.saving.bind fun saving => fleet.jobs[saving.job]? with
  | some { writer := { phase := .finished result _, .. }, .. } => handle.answered result
  | _ => handle

theorem concluded_eq {handle : Handle type} {fleet : Fleet} {saving : Saving} {job : Job}
    {result : Except Error Version} {committed : Option Transaction}
    (waiting : handle.saving = some saving) (busy : fleet.jobs[saving.job]? = some job)
    (done : job.writer.phase = .finished result committed) :
    handle.concluded fleet = handle.answered result := by
  obtain ⟨database, write, retryLimit, phase, retries⟩ := job
  obtain rfl : phase = .finished result committed := done
  simp only [concluded, waiting, Option.bind_some, busy]

/-- The handle with what was found, if anything was. -/
def loaded (handle : Handle type) : Except Error (Option (Snapshot type)) → Handle type
  | .ok (some snapshot) => { snapshot := some snapshot }
  | _ => handle

end Handle

namespace Holders

variable {types : ι → AggregateType κ}

/-- Databases over a store that nothing was written to, and empty hands. -/
def opened (types : ι → AggregateType κ) (planners : List Planner) : Holders types :=
  { fleet := Fleet.opened planners }

variable [DecidableEq ι]

def place (holders : Holders types) (h : ι) (handle : Handle (types h)) : Holders types :=
  { holders with handles := Function.update holders.handles h handle }

@[simp] theorem place_fleet (holders : Holders types) (h : ι) (handle : Handle (types h)) :
    (holders.place h handle).fleet = holders.fleet := rfl

@[simp] theorem place_self (holders : Holders types) (h : ι) (handle : Handle (types h)) :
    (holders.place h handle).handles h = handle := by
  simp [place]

@[simp] theorem place_of_ne (holders : Holders types) {h other : ι} (different : other ≠ h)
    (handle : Handle (types h)) :
    (holders.place h handle).handles other = holders.handles other := by
  simp [place, different]

/-- A save is refused before any storage is asked, has nothing to do, or becomes a job. -/
def save (holders : Holders types) (h : ι) (database : Nat) (stream : StreamKey)
    (id : (types h).Id) (expected : ExpectedVersion) (origin : Origin) : Holders types :=
  match (holders.handles h).snapshot with
  | none => holders
  | some snapshot =>
    match (types h).saveRequest stream id snapshot expected origin with
    | .ok (some request) =>
      { holders with fleet := holders.fleet.launch database request }.place h
        { snapshot := some snapshot
          saving := some ⟨holders.fleet.jobs.length, database, request⟩ }
    | _ => holders

def act (holders : Holders types) : Deed types → Holders types
  | .create h aggregate =>
    if (holders.handles h).saving.isNone then
      holders.place h { snapshot := some { aggregate := aggregate } }
    else holders
  | .load h naming id =>
    if (holders.handles h).saving.isNone then
      let stream := naming (types h).name ((types h).idText id)
      let (answer, _) := Store.backend.read stream holders.fleet.store
      holders.place h ((holders.handles h).loaded (answer.bind ((types h).rehydrate id)))
    else holders
  | .change h aggregate =>
    if (holders.handles h).saving.isNone then
      holders.place h
        { snapshot := (holders.handles h).snapshot.map ({ · with aggregate := aggregate }) }
    else holders
  | .save h database naming id expected origin =>
    if (holders.handles h).saving.isNone ∧ database < holders.fleet.planners.length then
      holders.save h database (naming (types h).name ((types h).idText id)) id expected origin
    else holders
  | .conclude h => holders.place h ((holders.handles h).concluded holders.fleet)
  | .abandon h => holders.place h { holders.handles h with saving := none }
  | .work action => { holders with fleet := holders.fleet.act action }

def run (holders : Holders types) (deeds : List (Deed types)) : Holders types :=
  deeds.foldl act holders

end Holders

end EventSourcing
