import EventSourcing.Proofs.Replay
import EventSourcing.Sample.Counter
import EventSourcing.Sample.Inventory

/-!
The events of the warehouse read back as they were written, so that its aggregates can be replayed.
-/

namespace EventSourcing.Sample

theorem readUnsigned32_ofNat (quantity : UInt32) :
    (Json.ofNat quantity.toNat).readUnsigned32 = .ok quantity.toNat := by
  have small := quantity.toNat_lt
  have inside : (Text.Bounds.unsigned 32).Holds quantity.toNat := by
    have least : (0 : Int) ≤ quantity.toNat := by omega
    have greatest : (quantity.toNat : Int) ≤ 4294967295 := by omega
    exact ⟨least, greatest⟩
  simp [Json.readUnsigned32, Json.ofNat, Json.readInteger, inside, Except.map]

theorem readStep_toInt (step : Int32) : Kind.readStep (.integer step.toInt) = .ok step := by
  have inside : (Text.Bounds.signed 32).Holds step.toInt :=
    ⟨step.le_toInt, Int.le_sub_one_of_lt step.toInt_lt⟩
  simp [Kind.readStep, Json.readSigned32, Json.readInteger, inside, Except.map]

theorem readSole_object {α : Type} (typeName field : String) (read : Json → Except Mismatch α)
    {json : Json} {value : α} (readable : read json = .ok value) :
    readSole typeName field read (.object [(field, json)]) = .ok value := by
  simp [readSole, soleField, Json.Fields.read, Json.Fields.takeMembers, readable, Except.map,
    Json.required, bind, Except.bind]

theorem ofJson_toJson (typeName : String) (change : StockChange) :
    StockChange.ofJson typeName change.toJson = .ok change := by
  have members : change.toJson =
      .object [("quantity", Json.ofNat change.quantity.toNat), ("sku", .string change.sku)] := by
    have order : "quantity" < "sku" := by decide
    simp [StockChange.toJson, Json.ofMembers, Sorted.ofList, Sorted.insert, order]
  simp [StockChange.ofJson, members, Json.Fields.read, Json.Fields.takeMembers, StockChange.take,
    readUnsigned32_ofNat, Json.readName, Json.readText, Except.map, Json.required, bind,
    Except.bind, pure, Except.pure]

/-- Whatever can be written can be read, as the same kind. -/
theorem decode_of_encode (kind : Kind) {payload : kind.Payload} {json : Json}
    (written : kind.encode payload = .ok json) : kind.decode json = .ok payload := by
  cases kind with
  | itemAdded =>
    cases written
    exact ofJson_toJson _ payload
  | itemRemoved =>
    cases written
    exact ofJson_toJson _ payload
  | incremented =>
    cases written
    exact readSole_object _ _ _ (readStep_toInt payload)
  | aliased =>
    cases written
    exact readSole_object _ _ _ (readStep_toInt payload)
  | reset =>
    cases written
    rfl
  | grid =>
    cases payload with
    | nil =>
      cases written
      exact readSole_object _ _ _ rfl
    | cons cell rest => cases written
  | stockAudited =>
    cases written
    exact readSole_object _ _ _ rfl
  | renamed =>
    cases written
    exact readSole_object _ _ _ rfl
  | unhandled =>
    cases written
    exact readSole_object _ _ _ rfl

/-- A type is faithful if its handlers change the state alone. -/
theorem faithful_of_stateOnly {type : AggregateType Kind} (stateOnly : type.registry.StateOnly) :
    type.Faithful where
  stateOnly := stateOnly
  readable _ binding _ _ _ written := decode_of_encode binding.kind written

theorem faithful_inventory : inventory.Faithful :=
  faithful_of_stateOnly ((Registry.stateOnly_empty.onState _ _).onState _ _)

theorem faithful_counter : counter.Faithful :=
  faithful_of_stateOnly
    (((((Registry.stateOnly_empty.onState _ _).onState _ _).onState _ _).onState _ _).onState _ _)

theorem faithful_inert : inert.Faithful :=
  faithful_of_stateOnly Registry.stateOnly_empty

theorem faithful_of_mem {type : AggregateType Kind} (sample : type ∈ [inventory, counter, inert]) :
    type.Faithful := by
  simp only [List.mem_cons, List.not_mem_nil, or_false] at sample
  rcases sample with rfl | rfl | rfl
  · exact faithful_inventory
  · exact faithful_counter
  · exact faithful_inert

end EventSourcing.Sample
