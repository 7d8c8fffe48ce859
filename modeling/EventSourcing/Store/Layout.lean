import EventSourcing.Error
import EventSourcing.Store.Settings

/-!
Fitting a write into one transaction. The header change takes one operation and each record another.
A write with too many events for single records is split evenly into packets, one record each.
-/

namespace EventSourcing

/-- How the events of a write are laid out as records. -/
inductive Layout where
  | individual
  | packets (count : Nat)
  deriving DecidableEq, Repr

/-- Limits are reported as 64-bit words; a greater one is reported as the greatest word. -/
def wordCapped (n : Nat) : Nat := min n (UInt64.size - 1)

namespace StoreSettings

/-- Records that fit beside the header change. -/
def recordBudget (settings : StoreSettings) : Nat := settings.maxOperations - 1

/-- A packet always has room for one event. -/
def packetRoom (settings : StoreSettings) : Nat := max settings.maxPerPacket 1

/-- Packets needed for so many events. -/
def packetsFor (settings : StoreSettings) (count : Nat) : Nat :=
  (count + settings.packetRoom - 1) / settings.packetRoom

def layoutFor (settings : StoreSettings) (count : Nat) : Except Error Layout :=
  if count ≤ settings.recordBudget then .ok .individual
  else if settings.packing then
    let needed := settings.packetsFor count
    if needed ≤ settings.recordBudget then .ok (.packets needed)
    else
      let limit := settings.recordBudget * settings.packetRoom
      .error (.packingLimitExceeded count (wordCapped limit))
  else .error (.packingLimitExceeded count settings.recordBudget)

theorem packetRoom_pos (settings : StoreSettings) : 0 < settings.packetRoom := by
  unfold packetRoom
  omega

end StoreSettings

section

variable {α : Type}

/-- Cuts a list into `groups` runs of `base` items, of which the first `larger` have one more. -/
def cutRuns (base : Nat) : Nat → Nat → List α → List (List α)
  | 0, _, _ => []
  | groups + 1, 0, items => items.take base :: cutRuns base groups 0 (items.drop base)
  | groups + 1, larger + 1, items =>
    items.take (base + 1) :: cutRuns base groups larger (items.drop (base + 1))

/-- Splits a list into runs whose sizes differ by at most one, larger ones first. Zero groups
count as one. -/
def evenRuns (items : List α) (groups : Nat) : List (List α) :=
  let groups := max groups 1
  cutRuns (items.length / groups) groups (items.length % groups) items

theorem length_cutRuns (base groups larger : Nat) (items : List α) :
    (cutRuns base groups larger items).length = groups := by
  induction groups generalizing larger items with
  | zero => rfl
  | succ groups ih => cases larger <;> simp [cutRuns, ih]

theorem flatten_cutRuns (base groups larger : Nat) (items : List α) (few : larger ≤ groups)
    (size : items.length = base * groups + larger) :
    (cutRuns base groups larger items).flatten = items := by
  induction groups generalizing larger items with
  | zero =>
    have none : items.length = 0 := by omega
    simp [cutRuns, List.length_eq_zero_iff.mp none]
  | succ groups ih =>
    cases larger with
    | zero =>
      have rest := ih 0 (items.drop base) (Nat.zero_le _)
        (by rw [List.length_drop, size, Nat.mul_succ]; omega)
      simp [cutRuns, rest]
    | succ larger =>
      have rest := ih larger (items.drop (base + 1)) (by omega)
        (by rw [List.length_drop, size, Nat.mul_succ]; omega)
      simp [cutRuns, rest]

theorem length_evenRuns (items : List α) (groups : Nat) :
    (evenRuns items groups).length = max groups 1 :=
  length_cutRuns _ _ _ items

theorem flatten_evenRuns (items : List α) (groups : Nat) :
    (evenRuns items groups).flatten = items := by
  have positive : 0 < max groups 1 := by omega
  refine flatten_cutRuns _ _ _ items (Nat.le_of_lt (Nat.mod_lt _ positive)) ?_
  rw [Nat.mul_comm]
  exact (Nat.div_add_mod items.length (max groups 1)).symm

end

end EventSourcing
