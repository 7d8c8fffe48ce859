import EventSourcing.Time.Calendar

/-!
Instants on the time line of coordinated universal time, to the nanosecond. A leap second is the
second before it with more than 10⁹ nanoseconds.
-/

namespace EventSourcing

/-- Seconds since 1970-01-01T00:00:00Z and nanoseconds after that. -/
structure Instant where
  seconds : Int
  nanos : Nat
  deriving DecidableEq, Repr

namespace Instant

def nanosPerSecond : Nat := 1000000000

instance : Inhabited Instant := ⟨⟨0, 0⟩⟩

def ofSeconds (seconds : Int) : Instant := ⟨seconds, 0⟩

/-- 2024-01-01T00:00:00Z. -/
def year2024 : Instant := ⟨1704067200, 0⟩

/-- The leap second in which the instant lies, in nanoseconds; 0 outside of one. -/
def leapNanos (instant : Instant) : Nat :=
  if nanosPerSecond ≤ instant.nanos then nanosPerSecond else 0

/-- Time passes through the leap second in which the instant lies, and through no other. -/
def addMillis (instant : Instant) (millis : Int) : Instant :=
  let nanos := instant.nanos + millis * 1000000
  if 0 ≤ nanos ∧ nanos < nanosPerSecond + instant.leapNanos then ⟨instant.seconds, nanos.toNat⟩
  else
    let counted := if nanos < 0 then nanos else nanos - instant.leapNanos
    ⟨instant.seconds + counted / nanosPerSecond, (counted % nanosPerSecond).toNat⟩

/-- Outside of leap seconds time passes evenly. -/
theorem addMillis_plain {instant : Instant} (plain : instant.nanos < nanosPerSecond)
    (millis : Int) :
    (instant.addMillis millis).seconds * nanosPerSecond + (instant.addMillis millis).nanos =
      instant.seconds * nanosPerSecond + instant.nanos + millis * 1000000 := by
  have outside : instant.leapNanos = 0 := if_neg (by omega)
  unfold addMillis
  simp only [outside, nanosPerSecond]
  split
  · simp only
    omega
  · split <;> simp only <;> omega

/-- Earlier instants come first; within a second the nanoseconds decide. -/
def NotAfter (first second : Instant) : Prop :=
  first.seconds < second.seconds ∨
    first.seconds = second.seconds ∧ first.nanos ≤ second.nanos

instance (first second : Instant) : Decidable (first.NotAfter second) :=
  inferInstanceAs (Decidable (_ ∨ _))

theorem NotAfter.refl (instant : Instant) : instant.NotAfter instant :=
  .inr ⟨rfl, Nat.le_refl _⟩

theorem NotAfter.trans {first second third : Instant} (early : first.NotAfter second)
    (late : second.NotAfter third) : first.NotAfter third := by
  unfold NotAfter at *
  omega

end Instant

end EventSourcing
