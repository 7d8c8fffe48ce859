import EventSourcing.Json
import EventSourcing.Text.Numeral
import EventSourcing.Text.Quoted

/-!
Reading typed values from JSON. A reader names what it expected; the mismatch it reports says what
it found instead.
-/

namespace EventSourcing

/-- The kind of value that stood where another kind was expected. -/
inductive Json.Found where
  | null
  | boolean (value : Bool)
  | integer (value : Int)
  | decimal (value : Decimal)
  | string (text : String)
  | sequence
  | map
  deriving DecidableEq, Repr

namespace Json

def found : Json → Found
  | .null => .null
  | .boolean value => .boolean value
  | .integer value => .integer value
  | .decimal value => .decimal value
  | .string text => .string text
  | .array _ => .sequence
  | .object _ => .map

end Json

def Json.Found.describe : Json.Found → String
  | .null => "null"
  | .boolean value => "boolean `" ++ (if value then "true" else "false") ++ "`"
  | .integer value => "integer `" ++ toString value ++ "`"
  | .decimal value => "floating point `" ++ value.text ++ "`"
  | .string text => "string " ++ Text.quoted text
  | .sequence => "sequence"
  | .map => "map"

/-- Why a JSON value does not denote a value of the wanted type. -/
inductive Mismatch where
  | wrongType (found : Json.Found) (expected : String)
  | outOfRange (value : Int) (expected : String)
  | wrongLength (length : Nat) (expected : String)
  | missingField (name : String)
  | refused (reason : String)
  deriving DecidableEq, Repr

namespace Mismatch

def message : Mismatch → String
  | .wrongType found expected => "invalid type: " ++ found.describe ++ ", expected " ++ expected
  | .outOfRange value expected =>
    "invalid value: integer `" ++ toString value ++ "`, expected " ++ expected
  | .wrongLength length expected =>
    "invalid length " ++ toString length ++ ", expected " ++ expected
  | .missingField name => "missing field `" ++ name ++ "`"
  | .refused reason => reason

end Mismatch

namespace Json

def mismatch {α : Type} (json : Json) (expected : String) : Except Mismatch α :=
  .error (.wrongType json.found expected)

/-- A text, described as `expected` in a mismatch. -/
def readText (expected : String) : Json → Except Mismatch String
  | .string text => .ok text
  | other => other.mismatch expected

def readName : Json → Except Mismatch String :=
  readText "a string"

def readInteger (bounds : Text.Bounds) (expected : String) : Json → Except Mismatch Int
  | .integer value =>
    if bounds.Holds value then .ok value else .error (.outOfRange value expected)
  | other => other.mismatch expected

def readUnsigned32 (json : Json) : Except Mismatch Nat :=
  (readInteger (.unsigned 32) "u32" json).map Int.toNat

def readSigned32 : Json → Except Mismatch Int :=
  readInteger (.signed 32) "i32"

def readSigned64 : Json → Except Mismatch Int :=
  readInteger (.signed 64) "i64"

/-- Reads every item in order. -/
def readEach {α : Type} (read : Json → Except Mismatch α) : List Json → Except Mismatch (List α)
  | [] => .ok []
  | item :: rest => do
    let value ← read item
    let values ← readEach read rest
    pure (value :: values)

def readList {α : Type} (read : Json → Except Mismatch α) : Json → Except Mismatch (List α)
  | .array items => readEach read items
  | other => other.mismatch "a sequence"

def readMemberTexts : List (String × Json) → Except Mismatch (List (String × String))
  | [] => .ok []
  | (key, value) :: rest => do
    let text ← readName value
    let pairs ← readMemberTexts rest
    pure ((key, text) :: pairs)

/-- A map from text to text. -/
def readTextMap : Json → Except Mismatch (List (String × String))
  | .object members => readMemberTexts members
  | other => other.mismatch "a map"

/-- A type with named fields: how to take one of them into an unfinished value. -/
structure Fields (δ : Type) where
  typeName : String
  names : List String
  take : String → Json → δ → Except Mismatch δ

namespace Fields

variable {δ : Type}

/-- Members in the order of their keys; unknown ones are passed over. -/
def takeMembers (fields : Fields δ) : List (String × Json) → δ → Except Mismatch δ
  | [], draft => .ok draft
  | (key, value) :: rest, draft =>
    if key ∈ fields.names then do
      let draft ← fields.take key value draft
      takeMembers fields rest draft
    else takeMembers fields rest draft

def expectedElements (fields : Fields δ) : String :=
  "struct " ++ fields.typeName ++ " with " ++ toString fields.names.length ++
    (if fields.names.length = 1 then " element" else " elements")

/-- Items in the order of the fields; `count` of them are already taken. -/
def takeItems (fields : Fields δ) :
    Nat → List String → List Json → δ → Except Mismatch δ
  | _, [], [], draft => .ok draft
  | count, [], extra, _ => .error (.wrongLength (count + extra.length) "fewer elements in array")
  | count, _ :: _, [], _ => .error (.wrongLength count fields.expectedElements)
  | count, name :: names, item :: items, draft => do
    let draft ← fields.take name item draft
    takeItems fields (count + 1) names items draft

/-- A value with named fields is an object, or an array of its fields in order. -/
def read (fields : Fields δ) (blank : δ) : Json → Except Mismatch δ
  | .object members => fields.takeMembers members blank
  | .array items => fields.takeItems 0 fields.names items blank
  | other => other.mismatch ("struct " ++ fields.typeName)

end Fields

def required {α : Type} (name : String) : Option α → Except Mismatch α
  | some value => .ok value
  | none => .error (.missingField name)

end Json

end EventSourcing
