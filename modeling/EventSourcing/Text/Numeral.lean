/-!
Reading whole numbers, switches and single characters from text. A number is an optional sign and
decimal digits; reading goes from left to right and reports the first fault it meets.
-/

namespace EventSourcing.Text

/-- Why a text does not denote a value of the wanted kind. -/
inductive NumeralFault where
  | empty
  | badDigit
  | tooLarge
  | tooSmall
  | notASwitch
  | noCharacter
  | manyCharacters
  deriving DecidableEq, Repr

namespace NumeralFault

def message : NumeralFault → String
  | .empty => "cannot parse integer from empty string"
  | .badDigit => "invalid digit found in string"
  | .tooLarge => "number too large to fit in target type"
  | .tooSmall => "number too small to fit in target type"
  | .notASwitch => "provided string was not `true` or `false`"
  | .noCharacter => "cannot parse char from empty string"
  | .manyCharacters => "too many characters in string"

end NumeralFault

/-- The numbers that a reader accepts. -/
structure Bounds where
  least : Int
  greatest : Int
  deriving DecidableEq, Repr

namespace Bounds

def unsigned (bits : Nat) : Bounds := ⟨0, Int.pow 2 bits - 1⟩

def signed (bits : Nat) : Bounds := ⟨-Int.pow 2 (bits - 1), Int.pow 2 (bits - 1) - 1⟩

/-- Whether the bounds leave room for a minus sign. -/
def signAllowed (bounds : Bounds) : Bool := decide (bounds.least < 0)

def Holds (bounds : Bounds) (value : Int) : Prop :=
  bounds.least ≤ value ∧ value ≤ bounds.greatest

instance (bounds : Bounds) (value : Int) : Decidable (bounds.Holds value) :=
  inferInstanceAs (Decidable (_ ∧ _))

end Bounds

def digit? (c : Char) : Option Nat :=
  if '0' ≤ c ∧ c ≤ '9' then some (c.toNat - '0'.toNat) else none

/-- Appends digits to `value`, away from zero on the side of the sign. A digit that would leave the
bounds is reported before any later character is looked at. -/
def readDigits (bounds : Bounds) (negative : Bool) (value : Int) :
    List Char → Except NumeralFault Int
  | [] => .ok value
  | c :: rest =>
    match digit? c with
    | none => .error .badDigit
    | some digit =>
      let next := if negative then value * 10 - digit else value * 10 + digit
      if bounds.greatest < next then .error .tooLarge
      else if next < bounds.least then .error .tooSmall
      else readDigits bounds negative next rest

/-- A sign with nothing after it counts as a bad digit. -/
def readInteger (bounds : Bounds) : List Char → Except NumeralFault Int
  | [] => .error .empty
  | '+' :: [] => .error .badDigit
  | '-' :: [] => .error .badDigit
  | '+' :: digits => readDigits bounds false 0 digits
  | '-' :: digits =>
    if bounds.signAllowed then readDigits bounds true 0 digits else .error .badDigit
  | digits => readDigits bounds false 0 digits

def readSwitch (text : List Char) : Except NumeralFault Bool :=
  if text = "true".toList then .ok true
  else if text = "false".toList then .ok false
  else .error .notASwitch

def readCharacter : List Char → Except NumeralFault Char
  | [] => .error .noCharacter
  | [c] => .ok c
  | _ => .error .manyCharacters

end EventSourcing.Text
