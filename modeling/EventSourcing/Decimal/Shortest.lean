import EventSourcing.Decimal

/-!
The shortest decimal that reads back as a given binary number. The numbers that round to
`mantissa · 2 ^ power` form an interval around it. For one digit, two digits and so on, the two
decimals next to the number are tried; the first length with a hit in the interval wins, and of two
hits the nearer one.
-/

namespace EventSourcing.Decimal

/-- A positive rational number. -/
structure Ratio where
  num : Nat
  den : Nat

namespace Ratio

def scale (base : Nat) (power : Int) (r : Ratio) : Ratio :=
  if 0 ≤ power then ⟨r.num * base.pow power.toNat, r.den⟩
  else ⟨r.num, r.den * base.pow (-power).toNat⟩

def floor (r : Ratio) : Nat := r.num / r.den

/-- The largest `e` with `10 ^ e ≤ r`. -/
def magnitude (r : Ratio) : Int :=
  if r.den ≤ r.num then (Nat.toDigits 10 r.floor).length - 1
  else -(Nat.toDigits 10 ((r.den - 1) / r.num)).length

end Ratio

/-- A binary number with the ends of the interval that rounds to it, all as multiples of
`2 ^ power`; the ends themselves round to it iff `closed`. -/
structure Rounding where
  low : Nat
  middle : Nat
  high : Nat
  power : Int
  closed : Bool

namespace Rounding

/-- Below a power of two the neighbours are half as far as above it. -/
def ofBinary (mantissa : Nat) (power : Int) : Rounding :=
  if mantissa = Nat.pow 2 52 ∧ -1074 < power then
    ⟨4 * mantissa - 1, 4 * mantissa, 4 * mantissa + 2, power - 2, true⟩
  else
    ⟨4 * mantissa - 2, 4 * mantissa, 4 * mantissa + 2, power - 2, mantissa % 2 = 0⟩

/-- Whether `digits · 10 ^ exponent` rounds to the number. -/
def Accepts (rounding : Rounding) (digits : Nat) (exponent : Int) : Prop :=
  let decimal := (Ratio.mk digits 1).scale 10 exponent
  let low := (Ratio.mk rounding.low 1).scale 2 rounding.power
  let high := (Ratio.mk rounding.high 1).scale 2 rounding.power
  if rounding.closed then
    low.num * decimal.den ≤ decimal.num * low.den ∧ decimal.num * high.den ≤ high.num * decimal.den
  else
    low.num * decimal.den < decimal.num * low.den ∧ decimal.num * high.den < high.num * decimal.den

instance (rounding : Rounding) (digits : Nat) (exponent : Int) :
    Decidable (rounding.Accepts digits exponent) := by
  unfold Accepts
  infer_instance

def value (rounding : Rounding) : Ratio :=
  (Ratio.mk rounding.middle 1).scale 2 rounding.power

/-- The better of the two decimals next to the number on the grid of `10 ^ exponent`. A tie goes to
the even neighbour. -/
def nearestOnGrid (rounding : Rounding) (exponent : Int) : Option Nat :=
  let onGrid := rounding.value.scale 10 (-exponent)
  let below := onGrid.floor
  let twiceRest := 2 * (onGrid.num % onGrid.den)
  let preferAbove := onGrid.den < twiceRest || (twiceRest == onGrid.den && below % 2 == 1)
  let first := if preferAbove then below + 1 else below
  let second := if preferAbove then below else below + 1
  if rounding.Accepts first exponent then some first
  else if rounding.Accepts second exponent then some second
  else none

/-- Tries grids from coarse to fine; `lengths` counts how many are left. -/
def search (rounding : Rounding) : Nat → Int → Option (Nat × Int)
  | 0, _ => none
  | lengths + 1, exponent =>
    match rounding.nearestOnGrid exponent with
    | some digits => some (digits, exponent)
    | none => search rounding lengths (exponent - 1)

end Rounding

/-- Moves trailing zeros of the digits into the exponent. -/
def dropTrailingZeros : Nat → Nat → Int → Nat × Int
  | 0, digits, exponent => (digits, exponent)
  | fuel + 1, digits, exponent =>
    if digits ≠ 0 ∧ digits % 10 = 0 then dropTrailingZeros fuel (digits / 10) (exponent + 1)
    else (digits, exponent)

/-- The shortest decimal for `± mantissa · 2 ^ power`; seventeen digits always suffice. -/
def ofBinary (negative : Bool) (mantissa : Nat) (power : Int) : Decimal :=
  if mantissa = 0 then ⟨negative, 0, 0⟩
  else
    let rounding := Rounding.ofBinary mantissa power
    match rounding.search 18 rounding.value.magnitude with
    | none => ⟨negative, mantissa, 0⟩
    | some (digits, exponent) =>
      let (digits, exponent) := dropTrailingZeros 20 digits exponent
      ⟨negative, digits, exponent⟩

/-- The shortest decimal for a finite 64-bit binary number given by its bits. -/
def ofBits (bits : UInt64) : Decimal :=
  let word := bits.toNat
  let negative := decide (Nat.pow 2 63 ≤ word)
  let biased : Nat := word / Nat.pow 2 52 % Nat.pow 2 11
  let fraction : Nat := word % Nat.pow 2 52
  if biased = 0 then ofBinary negative fraction (-1074)
  else ofBinary negative (Nat.pow 2 52 + fraction) (Int.ofNat biased - 1075)

def ofFloat (number : Float) : Decimal :=
  ofBits number.toBits

end EventSourcing.Decimal
