import EventSourcing.Time.Instant

/-!
Clocks. A clock is read one reading after the other; what reading number `n` shows is a function of
`n`.
-/

namespace EventSourcing

structure Clock where
  reading : Nat → Instant
  taken : Nat := 0

namespace Clock

def now (clock : Clock) : Instant := clock.reading clock.taken

/-- The clock after its next reading was taken. -/
def tick (clock : Clock) : Clock := { clock with taken := clock.taken + 1 }

/-- Always the same instant. -/
def fixed (instant : Instant) : Clock := { reading := fun _ => instant }

/-- Each reading is `step` milliseconds after the one before. -/
def stepping (start : Instant) (step : Int) : Clock :=
  { reading := fun n => start.addMillis (n * step) }

/-- Never shows an earlier instant than before. -/
def Steady (clock : Clock) : Prop :=
  ∀ early late, early ≤ late → (clock.reading early).NotAfter (clock.reading late)

theorem fixed_steady (instant : Instant) : (fixed instant).Steady :=
  fun _ _ _ => Instant.NotAfter.refl instant

end Clock

end EventSourcing
