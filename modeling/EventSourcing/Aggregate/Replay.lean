import EventSourcing.Aggregate

/-!
Replaying stored events. Each event goes to the handler bound to its name. An event without a
handler is passed over, unless the replay is strict. The first failure ends a replay and leaves
the effect of the events before it.
-/

namespace EventSourcing

namespace AggregateType

variable {κ : Type} [EventFamily κ]

/-- What a replay leaves, and the number of handled events or the failure that ended it. -/
structure Replayed (type : AggregateType κ) where
  target : Aggregate κ type.State
  outcome : Except Error Nat

/-- One more handled event in front of a replay. -/
def Replayed.counted {type : AggregateType κ} (replayed : Replayed type) : Replayed type :=
  { replayed with outcome := replayed.outcome.map (· + 1) }

def replay (type : AggregateType κ) (strict : Bool) (target : Aggregate κ type.State) :
    List StoredEvent → Replayed type
  | [] => ⟨target, .ok 0⟩
  | event :: rest =>
    match type.registry.find? event.eventType with
    | some binding =>
      match binding.replay target event with
      | .ok changed => (type.replay strict changed rest).counted
      | .error fault => ⟨target, .error fault⟩
    | none =>
      if strict then ⟨target, .error (.missingEventHandler type.name event.eventType)⟩
      else type.replay strict target rest

@[simp] theorem replay_nil (type : AggregateType κ) (strict : Bool)
    (target : Aggregate κ type.State) : type.replay strict target [] = ⟨target, .ok 0⟩ := rfl

end AggregateType

end EventSourcing
