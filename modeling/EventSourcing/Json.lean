import EventSourcing.Decimal
import EventSourcing.Sorted

/-!
JSON values. Whole numbers and decimals stay apart, since a reader that wants a whole number refuses
`2.0`. The members of an object are in increasing order of their keys.
-/

namespace EventSourcing

inductive Json where
  | null
  | boolean (value : Bool)
  | integer (value : Int)
  | decimal (value : Decimal)
  | string (text : String)
  | array (items : List Json)
  | object (members : List (String × Json))
  deriving Inhabited

namespace Json

/-- An object from members in any order. -/
def ofMembers (members : List (String × Json)) : Json :=
  .object (Sorted.ofList members)

def ofStrings (texts : List String) : Json :=
  .array (texts.map .string)

def ofNat (n : Nat) : Json :=
  .integer n

/-- A value, or null. -/
def ofOption {α : Type} (encode : α → Json) : Option α → Json
  | none => .null
  | some value => encode value

/-- The member under `key`, if the value is an object that has one. -/
def member? (key : String) : Json → Option Json
  | .object members => Sorted.find? key members
  | _ => none

end Json

end EventSourcing
