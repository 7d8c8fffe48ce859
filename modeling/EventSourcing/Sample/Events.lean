import EventSourcing.Aggregate
import EventSourcing.Uuid.Derived

/-!
Events of a small warehouse: its stock, and counters with a label. Two kinds of increments share one
name.
-/

namespace EventSourcing.Sample

inductive Kind where
  | itemAdded
  | itemRemoved
  | stockAudited
  | incremented
  | aliased
  | reset
  | renamed
  | grid
  | unhandled
  deriving DecidableEq, Repr

/-- Units of an item that came in or went out. -/
structure StockChange where
  sku : String
  quantity : UInt32
  deriving DecidableEq, Repr

/-- Bytes under lists of bytes. -/
abbrev Cells := List (List UInt8 × UInt8)

namespace Kind

def Payload : Kind → Type
  | itemAdded => StockChange
  | itemRemoved => StockChange
  | stockAudited => String
  | incremented => Int32
  | aliased => Int32
  | reset => Unit
  | renamed => String
  | grid => Cells
  | unhandled => String

/-- Every kind has a type name of its own. -/
def typeName : Kind → String
  | itemAdded => "ItemAdded"
  | itemRemoved => "ItemRemoved"
  | stockAudited => "StockAudited"
  | incremented => "Incremented"
  | aliased => "Aliased"
  | reset => "Reset"
  | renamed => "Renamed"
  | grid => "Grid"
  | unhandled => "Unhandled"

/-- The name that events of the kind are stored under. -/
def storedName : Kind → String
  | aliased => "Incremented"
  | kind => kind.typeName

def all : List Kind :=
  [itemAdded, itemRemoved, stockAudited, incremented, aliased, reset, renamed, grid, unhandled]

def ofTypeName? (name : String) : Option Kind :=
  all.find? fun kind => kind.typeName = name

end Kind

/-- A type with a single field. -/
def soleField {α : Type} (typeName field : String) (read : Json → Except Mismatch α) :
    Json.Fields (Option α) where
  typeName := typeName
  names := [field]
  take _ json _ := (read json).map some

def readSole {α : Type} (typeName field : String) (read : Json → Except Mismatch α)
    (json : Json) : Except Mismatch α := do
  let value ← (soleField typeName field read).read none json
  Json.required field value

namespace StockChange

structure Draft where
  sku : Option String := none
  quantity : Option UInt32 := none

def take (name : String) (json : Json) (draft : Draft) : Except Mismatch Draft :=
  match name with
  | "sku" => json.readName.map fun sku => { draft with sku := some sku }
  | "quantity" =>
    json.readUnsigned32.map fun quantity => { draft with quantity := some (UInt32.ofNat quantity) }
  | _ => .ok draft

def ofJson (typeName : String) (json : Json) : Except Mismatch StockChange := do
  let fields : Json.Fields Draft := ⟨typeName, ["sku", "quantity"], take⟩
  let draft ← fields.read {} json
  let sku ← Json.required "sku" draft.sku
  let quantity ← Json.required "quantity" draft.quantity
  pure ⟨sku, quantity⟩

def toJson (change : StockChange) : Json :=
  Json.ofMembers [("sku", .string change.sku), ("quantity", Json.ofNat change.quantity.toNat)]

end StockChange

/-- A member's key is text and never a list of bytes, so only a map without members can be read. -/
def readCells : Json → Except Mismatch Cells
  | .object [] => .ok []
  | .object ((key, _) :: _) => .error (.wrongType (.string key) "a sequence")
  | other => other.mismatch "a map"

/-- As a member's key has to be text, only a map without cells can be written. -/
def encodeCells : Cells → Except String Json
  | [] => .ok (.object [("cells", .object [])])
  | _ => .error "key must be a string"

def readUnit : Json → Except Mismatch Unit
  | .null => .ok ()
  | other => other.mismatch "unit struct Reset"

def oneText (field text : String) : Json :=
  .object [(field, .string text)]

def oneNumber (field : String) (number : Int32) : Json :=
  .object [(field, .integer number.toInt)]

namespace Kind

def encode : (kind : Kind) → kind.Payload → Except String Json
  | itemAdded, change => .ok (StockChange.toJson change)
  | itemRemoved, change => .ok (StockChange.toJson change)
  | stockAudited, auditor => .ok (oneText "auditor" auditor)
  | incremented, step => .ok (oneNumber "by" step)
  | aliased, step => .ok (oneNumber "by" step)
  | reset, () => .ok .null
  | renamed, name => .ok (oneText "name" name)
  | grid, cells => encodeCells cells
  | unhandled, note => .ok (oneText "note" note)

def readStep (json : Json) : Except Mismatch Int32 :=
  json.readSigned32.map Int32.ofInt

def decode : (kind : Kind) → Json → Except Mismatch kind.Payload
  | itemAdded, json => StockChange.ofJson "ItemAdded" json
  | itemRemoved, json => StockChange.ofJson "ItemRemoved" json
  | stockAudited, json => readSole "StockAudited" "auditor" Json.readName json
  | incremented, json => readSole "Incremented" "by" readStep json
  | aliased, json => readSole "Aliased" "by" readStep json
  | reset, json => readUnit json
  | renamed, json => readSole "Renamed" "name" Json.readName json
  | grid, json => readSole "Grid" "cells" readCells json
  | unhandled, json => readSole "Unhandled" "note" Json.readName json

end Kind

instance : EventFamily Kind where
  Payload := Kind.Payload
  name := Kind.storedName
  encode := Kind.encode
  decode := Kind.decode

/-- An event in a place of its own choice, with identities from a source. -/
def stored (ids : IdSource) (now : Instant) (stream : StreamKey) (position : Int)
    (event : Event Kind) : Except Error StoredEvent := do
  let encoded ← event.encode
  pure
    { id := ids.draw ids.issued
      stream := stream
      position := position
      eventType := encoded.eventType
      payload := encoded.payload
      conversation := ids.draw (ids.issued + 1)
      initiator := ids.draw (ids.issued + 2)
      properties := {}
      occurredAt := now }

end EventSourcing.Sample
