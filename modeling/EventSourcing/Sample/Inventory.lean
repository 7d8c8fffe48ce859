import EventSourcing.Sample.Events

/-!
An inventory: units on hand per item. Items that go out never bring their number below zero.
-/

namespace EventSourcing.Sample

structure Inventory where
  id : Uuid
  stock : List (String × Nat) := []
  deriving DecidableEq, Repr

namespace Inventory

def onHand (inventory : Inventory) (sku : String) : Nat :=
  (Sorted.find? sku inventory.stock).getD 0

def add (inventory : Inventory) (change : StockChange) : Inventory :=
  { inventory with
    stock := Sorted.insert change.sku (inventory.onHand change.sku + change.quantity.toNat)
      inventory.stock }

def remove (inventory : Inventory) (change : StockChange) : Inventory :=
  { inventory with
    stock := Sorted.insert change.sku (inventory.onHand change.sku - change.quantity.toNat)
      inventory.stock }

theorem onHand_add (inventory : Inventory) (change : StockChange) (sku : String) :
    (inventory.add change).onHand sku =
      inventory.onHand sku + if sku = change.sku then change.quantity.toNat else 0 := by
  by_cases same : sku = change.sku
  · subst same
    simp [onHand, add]
  · simp [onHand, add, same]

theorem onHand_remove (inventory : Inventory) (change : StockChange) (sku : String) :
    (inventory.remove change).onHand sku =
      inventory.onHand sku - if sku = change.sku then change.quantity.toNat else 0 := by
  by_cases same : sku = change.sku
  · subst same
    simp [onHand, remove]
  · simp [onHand, remove, same]

end Inventory

def inventoryRegistry : Registry Kind Inventory :=
  (({} : Registry Kind Inventory).onState .itemAdded Inventory.add).onState .itemRemoved
    Inventory.remove

/-- Audits leave the stock alone and have no handler. -/
def inventory : AggregateType Kind where
  name := "Inventory"
  Id := Uuid
  State := Inventory
  idText := Uuid.text
  initial id := { id := id }
  registry := inventoryRegistry

end EventSourcing.Sample
