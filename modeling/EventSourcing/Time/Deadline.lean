/-!
Deadlines on a clock that shows milliseconds since its start. No pause is longer than thirty years.
-/

namespace EventSourcing

/-- Thirty years of 365 days, in milliseconds. -/
def longestPause : Nat := 30 * 365 * 86400000

/-- The time at which a pause that starts now is over. -/
def deadline (now pause : Nat) : Nat :=
  now + min pause longestPause

theorem deadline_of_le (now : Nat) {pause : Nat} (short : pause ≤ longestPause) :
    deadline now pause = now + pause := by
  simp [deadline, Nat.min_eq_left short]

theorem le_deadline (now pause : Nat) : now ≤ deadline now pause :=
  Nat.le_add_right _ _

end EventSourcing
