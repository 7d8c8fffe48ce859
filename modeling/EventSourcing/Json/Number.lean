import EventSourcing.Decimal.Shortest
import EventSourcing.Json

/-!
Numbers in JSON text. A number without point and exponent that fits a 64-bit word, signed if there
is a minus sign, is a whole number. Every other one is taken as a 64-bit binary number: its
leading digits as a whole 64-bit word, scaled by a power of ten.
-/

namespace EventSourcing.Json

def wordLimit : Nat := UInt64.size

/-- Appends digits to `significand` while the result is a 64-bit word; counts the ones left out. -/
def gather (significand : Nat) : List Nat → Nat × Nat
  | [] => (significand, 0)
  | digit :: rest =>
    if significand * 10 + digit < wordLimit then gather (significand * 10 + digit) rest
    else (significand, rest.length + 1)

/-- Scales by a power of ten, at most 308 at a time. No number is too small, but one beyond the
largest binary number has no value. Four steps exhaust every 64-bit significand. -/
def scaled : Nat → Float → Int → Option Float
  | 0, number, _ => some number
  | steps + 1, number, power =>
    if power.natAbs ≤ 308 then
      let factor := Float.ofScientific 1 false power.natAbs
      if 0 ≤ power then
        let product := number * factor
        if product.isInf then none else some product
      else some (number / factor)
    else if number == 0.0 then some number
    else if 0 ≤ power then none
    else scaled steps (number / Float.ofScientific 1 false 308) (power + 308)

/-- The digits of a number as they stand in the text. -/
structure NumberText where
  negative : Bool
  whole : List Nat
  fraction : Option (List Nat)
  power : Option Int

namespace NumberText

def decimal? (text : NumberText) : Option Json :=
  let (start, dropped) := gather 0 text.whole
  let fraction := text.fraction.getD []
  let (significand, ignored) := gather start fraction
  let power : Int := dropped - (fraction.length - ignored : Nat) + text.power.getD 0
  (scaled 4 (UInt64.ofNat significand).toFloat power).map fun number =>
    .decimal { Decimal.ofFloat number with negative := text.negative }

def value? (text : NumberText) : Option Json :=
  let (significand, dropped) := gather 0 text.whole
  if text.fraction.isNone && text.power.isNone && dropped = 0 then
    if !text.negative then some (.integer significand)
    else if 0 < significand ∧ significand ≤ Nat.pow 2 63 then some (.integer (-(significand : Int)))
    else text.decimal?
  else text.decimal?

end NumberText

end EventSourcing.Json
