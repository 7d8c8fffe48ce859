/-!
Decimal numbers with a sign, whole digits and a power of ten. The sign is kept for zero too. They
are written with a point, or with a signed power of ten where that would take many zeros.
-/

namespace EventSourcing

/-- The number `± digits · 10 ^ exponent`. -/
structure Decimal where
  negative : Bool
  digits : Nat
  exponent : Int
  deriving DecidableEq, Repr

namespace Decimal

def zeros (count : Nat) : List Char :=
  List.replicate count '0'

def digitText (decimal : Decimal) : List Char :=
  Nat.toDigits 10 decimal.digits

/-- How many digits stand before the point. -/
def pointAt (decimal : Decimal) : Int :=
  decimal.digitText.length + decimal.exponent

def withSign (decimal : Decimal) (text : List Char) : String :=
  String.ofList (if decimal.negative then '-' :: text else text)

/-- Positional notation, with at least one digit after the point. -/
def positionalDigits (decimal : Decimal) : List Char :=
  let digits := decimal.digitText
  let point := decimal.pointAt
  if 0 ≤ decimal.exponent then digits ++ zeros decimal.exponent.toNat ++ ".0".toList
  else if 0 < point then digits.take point.toNat ++ '.' :: digits.drop point.toNat
  else "0.".toList ++ zeros (-point).toNat ++ digits

/-- A power of ten, with its sign. -/
def powerText (power : Int) : List Char :=
  (if power < 0 then '-' else '+') :: Nat.toDigits 10 power.natAbs

/-- Scientific notation: one digit before the point. -/
def scientificDigits (decimal : Decimal) : List Char :=
  let power := powerText (decimal.pointAt - 1)
  match decimal.digitText with
  | [] => []
  | [digit] => digit :: 'e' :: power
  | first :: rest => first :: '.' :: rest ++ 'e' :: power

/-- Positional from 10⁻⁵ to below 10¹⁶, scientific beyond. -/
def text (decimal : Decimal) : String :=
  decimal.withSign <|
    if -5 < decimal.pointAt ∧ decimal.pointAt ≤ 16 then decimal.positionalDigits
    else decimal.scientificDigits

end Decimal

end EventSourcing
