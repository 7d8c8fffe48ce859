import EventSourcing.Uuid

/-!
Identifiers read back as they were written. The digits of an identifier are those of its bits as one
number, the most significant first.
-/

namespace EventSourcing.Uuid

theorem digit?_digitChar {n : Nat} (small : n < 16) : digit? n.digitChar = some n := by
  have all : ∀ n : Fin 16, digit? n.val.digitChar = some n.val := by decide
  exact all ⟨n, small⟩

/-- Digits are read as one number. -/
theorem readDigits_map {digits : List Nat} (small : ∀ digit ∈ digits, digit < 16) (value : Nat) :
    readDigits value (digits.map Nat.digitChar) =
      some (digits.foldl (fun value digit => value * 16 + digit) value) := by
  induction digits generalizing value with
  | nil => rfl
  | cons digit rest ih =>
    obtain ⟨here, later⟩ := List.forall_mem_cons.mp small
    simp only [List.map_cons, readDigits, digit?_digitChar here, ih later, List.foldl_cons]

/-- The lowest digits of a number make up what it leaves when divided by their power. -/
theorem foldl_digits (number count : Nat) :
    ((List.range count).map fun i => number / Nat.pow 16 (count - 1 - i) % 16).foldl
        (fun value digit => value * 16 + digit) 0 = number % Nat.pow 16 count := by
  induction count generalizing number with
  | zero => exact (Nat.mod_one number).symm
  | succ count ih =>
    have earlier : (List.range count).map (fun i => number / Nat.pow 16 (count + 1 - 1 - i) % 16) =
        (List.range count).map fun i => number / 16 / Nat.pow 16 (count - 1 - i) % 16 := by
      apply List.map_congr_left
      intro i member
      have inside := List.mem_range.mp member
      have next : count + 1 - 1 - i = count - 1 - i + 1 := by omega
      rw [next, Nat.div_div_eq_div_mul, Nat.mul_comm]
      rfl
    have last : count + 1 - 1 - count = 0 := by omega
    rw [List.range_succ, List.map_append, List.foldl_append, earlier, ih]
    simp only [List.map_cons, List.map_nil, List.foldl_cons, List.foldl_nil, last]
    change number / 16 % 16 ^ count * 16 + number / 1 % 16 = number % (16 ^ count * 16)
    rw [Nat.div_one, Nat.mul_comm (16 ^ count), Nat.mod_mul]
    omega

/-- Groups of digits that hyphens are to stand between. -/
structure Groups (a b c d e : List Char) : Prop where
  first : a.length = 8
  second : b.length = 4
  third : c.length = 4
  fourth : d.length = 4
  last : e.length = 12

def joined (a b c d e : List Char) : List Char :=
  a ++ ('-' :: (b ++ ('-' :: (c ++ ('-' :: (d ++ ('-' :: e)))))))

theorem exists_groups {digits : List Char} (counted : digits.length = 32) :
    ∃ a b c d e, Groups a b c d e ∧ digits = a ++ (b ++ (c ++ (d ++ e))) := by
  refine ⟨digits.take 8, (digits.drop 8).take 4, (digits.drop 12).take 4, (digits.drop 16).take 4,
    digits.drop 20, ⟨?_, ?_, ?_, ?_, ?_⟩, ?_⟩
  · simp [counted]
  · simp [counted]
  · simp [counted]
  · simp [counted]
  · simp [counted]
  · have split (count more : Nat) : (digits.drop count).take more ++ digits.drop (count + more) =
        digits.drop count := by
      rw [← List.drop_drop, List.take_append_drop]
    rw [split 16 4, split 12 4, split 8 4, List.take_append_drop]

namespace Groups

variable {a b c d e : List Char}

theorem hyphenated (groups : Groups a b c d e) :
    hyphenated (a ++ (b ++ (c ++ (d ++ e)))) = joined a b c d e := by
  obtain ⟨first, second, third, fourth, -⟩ := groups
  simp (disch := omega) [Uuid.hyphenated, joined, List.drop_append, List.drop_of_length_le, first,
    second, third]

theorem length_joined (groups : Groups a b c d e) : (joined a b c d e).length = 36 := by
  obtain ⟨first, second, third, fourth, last⟩ := groups
  simp only [joined, List.length_append, List.length_cons]
  omega

/-- The digits are left when the hyphens are taken out. -/
theorem ofHyphenated?_joined (groups : Groups a b c d e) :
    ofHyphenated? (joined a b c d e) = ofDigits? (a ++ (b ++ (c ++ (d ++ e)))) := by
  have long := groups.length_joined
  obtain ⟨first, second, third, fourth, -⟩ := groups
  unfold joined at long ⊢
  unfold ofHyphenated?
  rw [if_pos]
  · congr 1
    simp (disch := omega) [List.drop_append, List.drop_of_length_le, first, second, third, fourth]
  · refine ⟨long, ?_⟩
    simp [List.getElem?_append, first, second, third, fourth]

end Groups

theorem ofHyphenated?_hyphenated {digits : List Char} (counted : digits.length = 32) :
    (hyphenated digits).length = 36 ∧ ofHyphenated? (hyphenated digits) = ofDigits? digits := by
  obtain ⟨a, b, c, d, e, groups, rfl⟩ := exists_groups counted
  rw [groups.hyphenated]
  exact ⟨groups.length_joined, groups.ofHyphenated?_joined⟩

/-- An identifier is what its digits make up as one number. -/
theorem foldl_nibbles (id : Uuid) :
    id.nibbles.foldl (fun value digit => value * 16 + digit) 0 = id.bits.toNat :=
  (foldl_digits id.bits.toNat 32).trans (Nat.mod_eq_of_lt id.bits.isLt)

theorem lt_of_mem_nibbles {id : Uuid} {digit : Nat} (member : digit ∈ id.nibbles) : digit < 16 := by
  obtain ⟨i, -, rfl⟩ := List.mem_map.mp member
  exact Nat.mod_lt _ (by decide)

theorem length_nibbles (id : Uuid) : id.nibbles.length = 32 := by
  rw [nibbles, List.length_map, List.length_range]

theorem ofText?_text (id : Uuid) : ofText? id.text = some id := by
  have counted : (id.nibbles.map Nat.digitChar).length = 32 := by
    rw [List.length_map, length_nibbles]
  obtain ⟨long, read⟩ := ofHyphenated?_hyphenated counted
  have small : ∀ digit ∈ id.nibbles, digit < 16 := fun _ member => lt_of_mem_nibbles member
  have same : ofNat id.bits.toNat = id := by
    simp [ofNat]
  simp only [ofText?, text, String.toList_ofList, ofChars?, long, read, ofDigits?, counted,
    readDigits_map small, foldl_nibbles, Option.map_some, same]
  rfl

end EventSourcing.Uuid
