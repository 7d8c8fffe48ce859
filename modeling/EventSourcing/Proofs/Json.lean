import EventSourcing.Json.Reader

/-!
The order of keys in JSON values. A reader puts each member in its place, so in every value that it
returns the keys of every object are in increasing order, whatever the order in the text.
-/

namespace EventSourcing.Json

/-- Whether the keys of every object in a value are in increasing order. -/
inductive Ordered : Json → Prop where
  | null : Ordered .null
  | boolean (value : Bool) : Ordered (.boolean value)
  | integer (value : Int) : Ordered (.integer value)
  | decimal (value : Decimal) : Ordered (.decimal value)
  | string (text : String) : Ordered (.string text)
  | array {items : List Json} (each : ∀ item ∈ items, Ordered item) : Ordered (.array items)
  | object {members : List (String × Json)} (keys : Sorted.Ordered members)
      (each : ∀ member ∈ members, Ordered member.2) : Ordered (.object members)

variable {text rest : List Char} {json : Json}

theorem ordered_of_decimal? {number : NumberText} (made : number.decimal? = some json) :
    json.Ordered := by
  obtain ⟨value, -, rfl⟩ := Option.map_eq_some_iff.mp made
  exact .decimal _

theorem ordered_of_value? {number : NumberText} (made : number.value? = some json) :
    json.Ordered := by
  unfold NumberText.value? at made
  dsimp only at made
  split at made
  · split at made
    · cases made
      exact .integer _
    · split at made
      · cases made
        exact .integer _
      · exact ordered_of_decimal? made
  · exact ordered_of_decimal? made

theorem ordered_of_readNumber (read : readNumber text = some (json, rest)) : json.Ordered := by
  simp only [readNumber, Option.bind_eq_bind, Option.bind_eq_some_iff] at read
  obtain ⟨_, -, _, -, _, -, value, made, same⟩ := read
  cases same
  exact ordered_of_value? made

theorem ordered_of_readWord {word : String} {value : Json} (ordered : value.Ordered)
    (read : readWord word value text = some (json, rest)) : json.Ordered := by
  unfold readWord at read
  split at read
  · cases read
    exact ordered
  · cases read

/-- What is read in so many steps is ordered. -/
structure ReadsOrdered (fuel : Nat) : Prop where
  value : ∀ {text rest json}, readValue fuel text = some (json, rest) → json.Ordered
  items : ∀ {text rest items}, readItems fuel text = some (items, rest) →
    ∀ item ∈ items, item.Ordered
  members : ∀ {text rest members all}, Sorted.Ordered members →
    (∀ member ∈ members, member.2.Ordered) →
      readMembers fuel text members = some (all, rest) → (Json.object all).Ordered

namespace ReadsOrdered

variable {fuel : Nat}

theorem zero : ReadsOrdered 0 where
  value read := by simp [readValue] at read
  items read := by simp [readItems] at read
  members _ _ read := by simp [readMembers] at read

theorem next_value (reads : ReadsOrdered fuel)
    (read : readValue (fuel + 1) text = some (json, rest)) : json.Ordered := by
  unfold readValue at read
  split at read
  · split at read
    · cases read
      exact .object .nil nofun
    · obtain ⟨⟨members, after⟩, inner, same⟩ := Option.bind_eq_some_iff.mp read
      cases same
      exact reads.members .nil nofun inner
  · split at read
    · cases read
      exact .array nofun
    · obtain ⟨⟨items, after⟩, inner, same⟩ := Option.bind_eq_some_iff.mp read
      cases same
      exact .array (reads.items inner)
  · obtain ⟨⟨chars, after⟩, -, same⟩ := Option.bind_eq_some_iff.mp read
    cases same
    exact .string _
  · exact ordered_of_readWord .null read
  · exact ordered_of_readWord (.boolean _) read
  · exact ordered_of_readWord (.boolean _) read
  · exact ordered_of_readNumber read

theorem next_items (reads : ReadsOrdered fuel) {items : List Json}
    (read : readItems (fuel + 1) text = some (items, rest)) : ∀ item ∈ items, item.Ordered := by
  unfold readItems at read
  obtain ⟨⟨item, after⟩, first, later⟩ := Option.bind_eq_some_iff.mp read
  have here := reads.value first
  dsimp only at later
  split at later
  · obtain ⟨⟨others, last⟩, inner, same⟩ := Option.bind_eq_some_iff.mp later
    cases same
    exact List.forall_mem_cons.mpr ⟨here, reads.items inner⟩
  · cases later
    exact List.forall_mem_cons.mpr ⟨here, nofun⟩
  · cases later

theorem next_members (reads : ReadsOrdered fuel) {members all : List (String × Json)}
    (keys : Sorted.Ordered members) (each : ∀ member ∈ members, member.2.Ordered)
    (read : readMembers (fuel + 1) text members = some (all, rest)) :
    (Json.object all).Ordered := by
  unfold readMembers at read
  split at read
  · obtain ⟨⟨key, afterKey⟩, -, later⟩ := Option.bind_eq_some_iff.mp read
    dsimp only at later
    split at later
    · obtain ⟨⟨value, after⟩, first, later⟩ := Option.bind_eq_some_iff.mp later
      have grown := keys.insert (String.ofList key) value
      have values : ∀ member ∈ Sorted.insert (String.ofList key) value members,
          member.2.Ordered := by
        intro member inside
        rcases Sorted.mem_of_mem_insert inside with rfl | before
        · exact reads.value first
        · exact each member before
      dsimp only at later
      split at later
      · exact reads.members grown values later
      · cases later
        exact .object grown values
      · cases later
    · cases later
  · cases read

end ReadsOrdered

theorem readsOrdered (fuel : Nat) : ReadsOrdered fuel := by
  induction fuel with
  | zero => exact .zero
  | succ fuel ih => exact ⟨ih.next_value, ih.next_items, ih.next_members⟩

/-- Every value that is read keeps its keys in order. -/
theorem ordered_of_read? {text : String} (read : read? text = some json) : json.Ordered := by
  unfold read? at read
  dsimp only at read
  split at read
  · rename_i found
    split at read
    · cases read
      exact (readsOrdered _).value found
    · cases read
  · cases read

end EventSourcing.Json
