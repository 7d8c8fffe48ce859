/-!
Lists of pairs in increasing order of a text key, one pair per key. Order is by code point.
-/

namespace EventSourcing.Sorted

variable {α : Type}

/-- Puts a value under `key`, in place of one that is there. -/
def insert (key : String) (value : α) : List (String × α) → List (String × α)
  | [] => [(key, value)]
  | (k, old) :: rest =>
    if key = k then (key, value) :: rest
    else if key < k then (key, value) :: (k, old) :: rest
    else (k, old) :: insert key value rest

def find? (key : String) : List (String × α) → Option α
  | [] => none
  | (k, value) :: rest => if k = key then some value else find? key rest

/-- Puts a value under `key` unless one is there. -/
def insertNew (key : String) (value : α) (pairs : List (String × α)) : List (String × α) :=
  match find? key pairs with
  | some _ => pairs
  | none => insert key value pairs

/-- The last value given for a key counts. -/
def ofList (pairs : List (String × α)) : List (String × α) :=
  pairs.foldl (fun sorted pair => insert pair.1 pair.2 sorted) []

def Ordered (pairs : List (String × α)) : Prop :=
  pairs.Pairwise fun first second => first.1 < second.1

theorem ordered_nil : Ordered ([] : List (String × α)) := .nil

theorem mem_of_mem_insert {key : String} {value : α} {pairs : List (String × α)}
    {pair : String × α} (member : pair ∈ insert key value pairs) :
    pair = (key, value) ∨ pair ∈ pairs := by
  induction pairs with
  | nil => exact .inl (List.mem_singleton.mp member)
  | cons first rest ih =>
    obtain ⟨k, old⟩ := first
    unfold insert at member
    split at member
    · rcases List.mem_cons.mp member with same | later
      · exact .inl same
      · exact .inr (List.mem_cons_of_mem _ later)
    · split at member
      · exact List.mem_cons.mp member
      · rcases List.mem_cons.mp member with same | later
        · exact .inr (same ▸ List.mem_cons_self)
        · exact (ih later).imp_right (List.mem_cons_of_mem _)

theorem Ordered.insert {pairs : List (String × α)} (ordered : Ordered pairs) (key : String)
    (value : α) : Ordered (insert key value pairs) := by
  induction pairs with
  | nil => exact List.pairwise_singleton _ _
  | cons first rest ih =>
    obtain ⟨k, old⟩ := first
    obtain ⟨above, later⟩ := List.pairwise_cons.mp ordered
    unfold Sorted.insert
    split
    · rename_i same
      subst same
      exact List.pairwise_cons.mpr ⟨above, later⟩
    · rename_i different
      split
      · rename_i less
        refine List.pairwise_cons.mpr ⟨?_, ordered⟩
        intro pair member
        rcases List.mem_cons.mp member with same | inside
        · exact same ▸ less
        · exact String.lt_trans less (above pair inside)
      · rename_i reached
        have less : k < key := Std.lt_of_le_of_ne (String.not_lt.mp reached) (Ne.symm different)
        refine List.pairwise_cons.mpr ⟨?_, ih later⟩
        intro pair member
        rcases mem_of_mem_insert member with same | inside
        · exact same ▸ less
        · exact above pair inside

theorem Ordered.insertNew {pairs : List (String × α)} (ordered : Ordered pairs) (key : String)
    (value : α) : Ordered (insertNew key value pairs) := by
  unfold Sorted.insertNew
  split
  · exact ordered
  · exact ordered.insert key value

theorem ordered_ofList (pairs : List (String × α)) : Ordered (ofList pairs) := by
  have all (sorted : List (String × α)) (ordered : Ordered sorted) :
      Ordered (pairs.foldl (fun sorted pair => insert pair.1 pair.2 sorted) sorted) := by
    induction pairs generalizing sorted with
    | nil => exact ordered
    | cons pair rest ih => exact ih _ (ordered.insert pair.1 pair.2)
  exact all [] ordered_nil

theorem insert_of_above {key : String} {pairs : List (String × α)}
    (above : ∀ pair ∈ pairs, pair.1 < key) (value : α) :
    insert key value pairs = pairs ++ [(key, value)] := by
  induction pairs with
  | nil => rfl
  | cons first rest ih =>
    obtain ⟨less, later⟩ := List.forall_mem_cons.mp above
    have different : key ≠ first.1 := fun same => String.lt_irrefl _ (same ▸ less)
    simp only [insert, if_neg different, if_neg (String.lt_asymm less), ih later, List.cons_append]

/-- What is in order already stays as it is. -/
theorem ofList_of_ordered {pairs : List (String × α)} (ordered : Ordered pairs) :
    ofList pairs = pairs := by
  have all (sorted : List (String × α)) (whole : Ordered (sorted ++ pairs)) :
      pairs.foldl (fun sorted pair => insert pair.1 pair.2 sorted) sorted = sorted ++ pairs := by
    clear ordered
    induction pairs generalizing sorted with
    | nil => simp
    | cons pair rest ih =>
      have above : ∀ other ∈ sorted, other.1 < pair.1 := fun other member =>
        (List.pairwise_append.mp whole).2.2 other member pair List.mem_cons_self
      have split : sorted ++ pair :: rest = sorted ++ [(pair.1, pair.2)] ++ rest := by simp
      rw [List.foldl_cons, insert_of_above above, ih _ (split ▸ whole), split]
  exact all [] ordered

@[simp] theorem find?_insert_self (key : String) (value : α) (pairs : List (String × α)) :
    find? key (insert key value pairs) = some value := by
  induction pairs with
  | nil => simp [insert, find?]
  | cons pair rest ih =>
    obtain ⟨k, old⟩ := pair
    by_cases same : key = k
    · simp [insert, find?, same]
    · by_cases earlier : key < k
      · simp [insert, find?, same, earlier]
      · simp [insert, find?, same, Ne.symm same, earlier, ih]

@[simp] theorem find?_insert_of_ne {key other : String} (different : other ≠ key) (value : α)
    (pairs : List (String × α)) : find? other (insert key value pairs) = find? other pairs := by
  induction pairs with
  | nil => simp [insert, find?, Ne.symm different]
  | cons pair rest ih =>
    obtain ⟨k, old⟩ := pair
    by_cases same : key = k
    · subst same
      simp [insert, find?, Ne.symm different]
    · by_cases earlier : key < k
      · simp [insert, find?, same, earlier, Ne.symm different]
      · by_cases here : k = other
        · subst here
          simp [insert, find?, same, earlier]
        · simp [insert, find?, same, earlier, here, ih]

end EventSourcing.Sorted
