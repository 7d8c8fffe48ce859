import EventSourcing.Proofs.Identifiers

/-!
All spellings of an identifier. In any case of its letters an identifier may be written with hyphens
or without, in braces, or as a URN, and a text is read as the identifier of which it is a spelling.
-/

namespace EventSourcing.Uuid

/-- Whether a text is a spelling of an identifier, as it stands or apart from capital letters. -/
def Spells (text : List Char) (id : Uuid) : Prop :=
  let lower := text.map Char.toLower
  let plain := id.text.toList
  lower = plain ∨ lower = plain.filter (· ≠ '-') ∨ lower = '\x7b' :: (plain ++ ['\x7d']) ∨
    lower = urnStart ++ plain

theorem toLower_cases (c : Char) :
    c.toLower = c ∨ c.toNat ≤ 90 ∧ 65 ≤ c.toNat ∧ c.toLower.toNat = c.toNat + 32 := by
  unfold Char.toLower
  split
  · rename_i capital
    have bounds : 65 ≤ c.toNat ∧ c.toNat ≤ 90 := by
      simpa [UInt32.le_iff_toNat_le] using capital
    have value : c.val.toNat ≤ 90 := bounds.2
    refine .inr ⟨bounds.2, bounds.1, ?_⟩
    change (c.val + ('a'.val - 'A'.val)).toNat = c.val.toNat + 32
    rw [UInt32.toNat_add]
    change (c.val.toNat + 32) % 4294967296 = c.val.toNat + 32
    omega
  · exact .inl rfl

/-- What is no letter stands for itself only. -/
theorem eq_of_toLower_eq {c mark : Char} (lower : c.toLower = mark)
    (other : mark.toNat < 97 ∨ 122 < mark.toNat) : c = mark := by
  rcases toLower_cases c with same | ⟨above, below, shifted⟩
  · exact same.symm.trans lower
  · rw [lower] at shifted
    omega

theorem digit?_of_ascii : ∀ n : Fin 128, ∀ d : Fin 16,
    digit? (Char.ofNat n) = some d.val ↔ (Char.ofNat n).toLower = d.val.digitChar := by
  decide +kernel

theorem bounds_of_digit? {c : Char} {d : Nat} (read : digit? c = some d) :
    d < 16 ∧ c.toNat < 128 := by
  simp only [digit?, Char.le_def, UInt32.le_iff_toNat_le] at read
  change (if 48 ≤ c.toNat ∧ c.toNat ≤ 57 then some (c.toNat - 48)
    else if 97 ≤ c.toNat ∧ c.toNat ≤ 102 then some (c.toNat - 97 + 10)
    else if 65 ≤ c.toNat ∧ c.toNat ≤ 70 then some (c.toNat - 65 + 10) else none) = some d at read
  split at read
  · have value := Option.some.inj read
    omega
  · split at read
    · have value := Option.some.inj read
      omega
    · split at read
      · have value := Option.some.inj read
        omega
      · cases read

theorem digitChar_toNat : ∀ d : Fin 16, d.val.digitChar.toNat < 128 ∧ d.val.digitChar ≠ '-' := by
  decide

/-- A digit is read in either case. -/
theorem digit?_eq_some_iff {c : Char} {d : Nat} :
    digit? c = some d ↔ d < 16 ∧ c.toLower = d.digitChar := by
  have same (ascii : c.toNat < 128) (small : d < 16) :
      digit? c = some d ↔ c.toLower = d.digitChar := by
    have all := digit?_of_ascii ⟨c.toNat, ascii⟩ ⟨d, small⟩
    rwa [Char.ofNat_toNat] at all
  constructor
  · intro read
    obtain ⟨small, ascii⟩ := bounds_of_digit? read
    exact ⟨small, (same ascii small).mp read⟩
  · rintro ⟨small, lower⟩
    refine (same ?_ small).mpr lower
    have low := (digitChar_toNat ⟨d, small⟩).1
    rcases toLower_cases c with unchanged | ⟨above, -, -⟩
    · rw [← unchanged, lower]
      exact low
    · omega

/-- Digits are read in either case, as one number. -/
theorem readDigits_eq_some_iff {text : List Char} {value number : Nat} :
    readDigits value text = some number ↔
      ∃ digits : List Nat, (∀ digit ∈ digits, digit < 16) ∧
        text.map Char.toLower = digits.map Nat.digitChar ∧
        digits.foldl (fun value digit => value * 16 + digit) value = number := by
  induction text generalizing value with
  | nil =>
    rw [readDigits, Option.some.injEq]
    constructor
    · exact fun same => ⟨[], by simp, rfl, same⟩
    · rintro ⟨digits, -, none, folded⟩
      obtain rfl := List.map_eq_nil_iff.mp none.symm
      exact folded
  | cons c rest ih =>
    rw [readDigits]
    constructor
    · intro read
      split at read
      · cases read
      · rename_i digit found
        obtain ⟨small, lower⟩ := digit?_eq_some_iff.mp found
        obtain ⟨digits, others, lowers, folded⟩ := ih.mp read
        refine ⟨digit :: digits, List.forall_mem_cons.mpr ⟨small, others⟩, ?_, folded⟩
        rw [List.map_cons, List.map_cons, lower, lowers]
    · rintro ⟨digits, small, lowers, folded⟩
      obtain ⟨digit, others, rfl, first, later⟩ := List.map_eq_cons_iff.mp lowers.symm
      obtain ⟨here, there⟩ := List.forall_mem_cons.mp small
      rw [digit?_eq_some_iff.mpr ⟨here, first.symm⟩]
      exact ih.mpr ⟨others, there, later.symm, folded⟩

theorem foldl_lt {digits : List Nat} (small : ∀ digit ∈ digits, digit < 16) (value : Nat) :
    digits.foldl (fun value digit => value * 16 + digit) value <
      (value + 1) * Nat.pow 16 digits.length := by
  induction digits generalizing value with
  | nil => exact Nat.lt_of_lt_of_eq (Nat.lt_succ_self value) (Nat.mul_one _).symm
  | cons digit rest ih =>
    obtain ⟨here, later⟩ := List.forall_mem_cons.mp small
    have bound : value * 16 + digit + 1 ≤ (value + 1) * 16 := by omega
    calc rest.foldl (fun value digit => value * 16 + digit) (value * 16 + digit)
        < (value * 16 + digit + 1) * Nat.pow 16 rest.length := ih later _
      _ ≤ (value + 1) * 16 * Nat.pow 16 rest.length := Nat.mul_le_mul_right _ bound
      _ = (value + 1) * Nat.pow 16 (digit :: rest).length := by
        rw [Nat.mul_assoc, Nat.mul_comm 16]
        rfl

/-- As many digits that make up the same number are the same. -/
theorem eq_of_foldl_eq {first second : List Nat} (small : ∀ digit ∈ first, digit < 16)
    (too : ∀ digit ∈ second, digit < 16) (long : first.length = second.length) {one other : Nat}
    (same : first.foldl (fun value digit => value * 16 + digit) one =
      second.foldl (fun value digit => value * 16 + digit) other) :
    one = other ∧ first = second := by
  induction first generalizing second one other with
  | nil =>
    obtain rfl := List.length_eq_zero_iff.mp long.symm
    exact ⟨same, rfl⟩
  | cons digit rest ih =>
    obtain ⟨last, others, rfl⟩ := List.exists_cons_of_length_eq_add_one long.symm
    obtain ⟨here, later⟩ := List.forall_mem_cons.mp small
    obtain ⟨there, after⟩ := List.forall_mem_cons.mp too
    obtain ⟨values, rfl⟩ := ih later after (Nat.succ.inj long) same
    have heads : one * 16 + digit = other * 16 + last := values
    have equal : one = other ∧ digit = last := by omega
    exact ⟨equal.1, by rw [equal.2]⟩

def digits (id : Uuid) : List Char := id.nibbles.map Nat.digitChar

theorem length_digits (id : Uuid) : id.digits.length = 32 := by
  rw [digits, List.length_map, length_nibbles]

theorem ofDigits?_eq_some_iff {text : List Char} {id : Uuid} :
    ofDigits? text = some id ↔ text.map Char.toLower = id.digits := by
  constructor
  · intro read
    unfold ofDigits? at read
    split at read
    · rename_i long
      obtain ⟨number, found, rfl⟩ := Option.map_eq_some_iff.mp read
      obtain ⟨digits, small, lower, folded⟩ := readDigits_eq_some_iff.mp found
      have counted : digits.length = 32 := by
        rw [← List.length_map Nat.digitChar, ← lower, List.length_map, long]
      have bound := foldl_lt small 0
      rw [folded, counted] at bound
      have whole : (ofNat number).bits.toNat = number :=
        Nat.mod_eq_of_lt (Nat.lt_of_lt_of_eq bound (by decide))
      have same : (ofNat number).nibbles.foldl (fun value digit => value * 16 + digit) 0 =
          digits.foldl (fun value digit => value * 16 + digit) 0 := by
        rw [foldl_nibbles, whole, folded]
      have long := (length_nibbles (ofNat number)).trans counted.symm
      rw [lower, Uuid.digits,
        (eq_of_foldl_eq (fun _ member => lt_of_mem_nibbles member) small long same).2]
    · cases read
  · intro lower
    have long : text.length = 32 := by
      rw [← List.length_map Char.toLower, lower, length_digits]
    have read : readDigits 0 text = some id.bits.toNat :=
      readDigits_eq_some_iff.mpr
        ⟨id.nibbles, fun _ member => lt_of_mem_nibbles member, lower, id.foldl_nibbles⟩
    simp [ofDigits?, long, read, ofNat]

theorem map_hyphenated {digits : List Char} :
    (hyphenated digits).map Char.toLower = hyphenated (digits.map Char.toLower) := by
  have hyphen : '-'.toLower = '-' := rfl
  simp only [hyphenated, List.map_append, List.map_cons, List.map_take, List.map_drop, hyphen]

/-- Where the letters of a text are groups with hyphens between them, so is the text. -/
theorem exists_joined_of_lower {text a b c d e : List Char} (groups : Groups a b c d e)
    (lower : text.map Char.toLower = joined a b c d e) :
    ∃ a' b' c' d' e', Groups a' b' c' d' e' ∧ text = joined a' b' c' d' e' ∧
      (a' ++ (b' ++ (c' ++ (d' ++ e')))).map Char.toLower = a ++ (b ++ (c ++ (d ++ e))) := by
  have split {text group rest : List Char}
      (lower : text.map Char.toLower = group ++ ('-' :: rest)) :
      ∃ own later, text = own ++ ('-' :: later) ∧ own.map Char.toLower = group ∧
        later.map Char.toLower = rest := by
    obtain ⟨own, others, rfl, same, lower⟩ := List.map_eq_append_iff.mp lower
    obtain ⟨mark, later, rfl, hyphen, rest⟩ := List.map_eq_cons_iff.mp lower
    obtain rfl := eq_of_toLower_eq hyphen (.inl (by decide))
    exact ⟨own, later, rfl, same, rest⟩
  obtain ⟨a', afterFirst, rfl, rfl, lowerFirst⟩ := split lower
  obtain ⟨b', afterSecond, rfl, rfl, lowerSecond⟩ := split lowerFirst
  obtain ⟨c', afterThird, rfl, rfl, lowerThird⟩ := split lowerSecond
  obtain ⟨d', e', rfl, rfl, rfl⟩ := split lowerThird
  obtain ⟨first, second, third, fourth, last⟩ := groups
  rw [List.length_map] at first second third fourth last
  exact ⟨a', b', c', d', e', ⟨first, second, third, fourth, last⟩, rfl, by simp⟩

/-- A text that is read with hyphens is made of groups. -/
theorem exists_joined_of_ofHyphenated? {text : List Char} {id : Uuid}
    (read : ofHyphenated? text = some id) :
    ∃ a b c d e, Groups a b c d e ∧ text = joined a b c d e := by
  unfold ofHyphenated? at read
  split at read
  · rename_i marks
    obtain ⟨long, first, second, third, fourth⟩ := marks
    have mark {i : Nat} (here : text[i]? = some '-') :
        text.drop i = '-' :: text.drop (i + 1) := by
      obtain ⟨inside, same⟩ := List.getElem?_eq_some_iff.mp here
      rw [List.drop_eq_getElem_cons inside, same]
    have group (i : Nat) : text.drop i = (text.drop i).take 4 ++ text.drop (i + 4) := by
      rw [← List.drop_drop, List.take_append_drop]
    refine ⟨text.take 8, (text.drop 9).take 4, (text.drop 14).take 4, (text.drop 19).take 4,
      text.drop 24, ⟨?_, ?_, ?_, ?_, ?_⟩, ?_⟩
    · simp [long]
    · simp [long]
    · simp [long]
    · simp [long]
    · simp [long]
    · calc text = text.take 8 ++ text.drop 8 := (List.take_append_drop 8 text).symm
        _ = _ := by
          conv =>
            lhs
            rw [mark first, group 9, mark second, group 14, mark third, group 19, mark fourth]
          rfl
  · cases read

theorem toList_text (id : Uuid) : id.text.toList = hyphenated id.digits := by
  rw [Uuid.text, String.toList_ofList, digits]

theorem length_text (id : Uuid) : id.text.toList.length = 36 := by
  rw [toList_text]
  exact (ofHyphenated?_hyphenated id.length_digits).1

theorem ofHyphenated?_eq_some_iff {text : List Char} {id : Uuid} :
    ofHyphenated? text = some id ↔ text.map Char.toLower = id.text.toList := by
  rw [toList_text]
  constructor
  · intro read
    obtain ⟨a, b, c, d, e, groups, rfl⟩ := exists_joined_of_ofHyphenated? read
    rw [groups.ofHyphenated?_joined, ofDigits?_eq_some_iff] at read
    rw [← groups.hyphenated, map_hyphenated, read]
  · intro lower
    obtain ⟨a, b, c, d, e, groups, parts⟩ := exists_groups id.length_digits
    rw [parts, groups.hyphenated] at lower
    obtain ⟨a', b', c', d', e', own, rfl, same⟩ := exists_joined_of_lower groups lower
    rw [own.ofHyphenated?_joined, ofDigits?_eq_some_iff, same, parts]

/-- The digits are what is left of a text without its hyphens. -/
theorem filter_text (id : Uuid) : id.text.toList.filter (· ≠ '-') = id.digits := by
  have none : ∀ c ∈ id.digits, c ≠ '-' := by
    intro c member
    obtain ⟨digit, inside, rfl⟩ := List.mem_map.mp member
    exact (digitChar_toNat ⟨digit, lt_of_mem_nibbles inside⟩).2
  obtain ⟨a, b, c, d, e, groups, parts⟩ := exists_groups id.length_digits
  have kept : id.digits.filter (· ≠ '-') = id.digits :=
    List.filter_eq_self.mpr fun c member => decide_eq_true (none c member)
  rw [parts] at kept
  rw [toList_text, parts, groups.hyphenated]
  simpa [joined] using kept

theorem braced_iff {text : List Char} {id : Uuid} :
    ((text.length = 38 ∧ text.head? = some '\x7b' ∧ text.getLast? = some '\x7d') ∧
        ofHyphenated? (text.drop 1).dropLast = some id) ↔
      text.map Char.toLower = '\x7b' :: (id.text.toList ++ ['\x7d']) := by
  rw [ofHyphenated?_eq_some_iff]
  constructor
  · rintro ⟨⟨long, opened, closed⟩, lower⟩
    obtain ⟨rest, rfl⟩ := List.head?_eq_some_iff.mp opened
    obtain ⟨front, whole⟩ := List.getLast?_eq_some_iff.mp closed
    rcases List.cons_eq_append_iff.mp whole with ⟨-, short⟩ | ⟨inner, -, rfl⟩
    · obtain rfl : rest = [] := by simpa using short.symm
      cases long
    · rw [List.drop_succ_cons, List.drop_zero, List.dropLast_concat] at lower
      rw [List.map_cons, List.map_append, lower]
      rfl
  · intro lower
    obtain ⟨first, rest, rfl, opened, lower⟩ := List.map_eq_cons_iff.mp lower
    obtain ⟨inner, ending, rfl, plain, lower⟩ := List.map_eq_append_iff.mp lower
    obtain ⟨last, others, rfl, closed, none⟩ := List.map_eq_cons_iff.mp lower
    obtain rfl := List.map_eq_nil_iff.mp none
    obtain rfl := eq_of_toLower_eq opened (.inr (by decide))
    obtain rfl := eq_of_toLower_eq closed (.inr (by decide))
    have long : inner.length = 36 := by
      rw [← id.length_text, ← plain, List.length_map]
    refine ⟨⟨?_, rfl, ?_⟩, ?_⟩
    · simp [long]
    · simp [List.getLast?_cons]
    · simpa using plain

theorem urn_iff {text : List Char} {id : Uuid} :
    ((text.length = 45 ∧ (text.take 9).map Char.toLower = urnStart) ∧
        ofHyphenated? (text.drop 9) = some id) ↔
      text.map Char.toLower = urnStart ++ id.text.toList := by
  rw [ofHyphenated?_eq_some_iff]
  constructor
  · rintro ⟨⟨-, start⟩, lower⟩
    rw [← start, ← lower, ← List.map_append, List.take_append_drop]
  · intro lower
    obtain ⟨start, rest, rfl, same, plain⟩ := List.map_eq_append_iff.mp lower
    have nine : start.length = 9 := by
      rw [← List.length_map Char.toLower, same]
      rfl
    have long : rest.length = 36 := by
      rw [← id.length_text, ← plain, List.length_map]
    refine ⟨⟨?_, ?_⟩, ?_⟩
    · simp [nine, long]
    · simpa [nine] using same
    · simpa [nine] using plain

/-- A text is read as an identifier exactly if it is one of its spellings. -/
theorem ofText?_eq_some_iff {text : String} {id : Uuid} :
    ofText? text = some id ↔ Spells text.toList id := by
  rw [ofText?, Spells, filter_text]
  -- The length tells the forms apart.
  have length {form : List Char} (lower : text.toList.map Char.toLower = form) :
      text.toList.length = form.length := by
    rw [← lower, List.length_map]
  constructor
  · intro read
    unfold ofChars? at read
    split at read
    · exact .inr (.inl (ofDigits?_eq_some_iff.mp read))
    · split at read
      · exact .inr (.inr (.inl (braced_iff.mp ⟨‹_›, read⟩)))
      · split at read
        · exact .inr (.inr (.inr (urn_iff.mp ⟨‹_›, read⟩)))
        · exact .inl (ofHyphenated?_eq_some_iff.mp read)
  · rintro (lower | lower | lower | lower)
    · have long := (length lower).trans id.length_text
      simp only [ofChars?, long, Nat.reduceEqDiff, false_and, if_false,
        ofHyphenated?_eq_some_iff.mpr lower]
    · have long := (length lower).trans id.length_digits
      simp only [ofChars?, long, if_true, ofDigits?_eq_some_iff.mpr lower]
    · obtain ⟨form, read⟩ := braced_iff.mpr lower
      have other : ¬text.toList.length = 32 := by
        rw [form.1]
        decide
      rw [ofChars?, if_neg other, if_pos form, read]
    · obtain ⟨form, read⟩ := urn_iff.mpr lower
      have other : ¬text.toList.length = 32 ∧ ¬text.toList.length = 38 := by
        rw [form.1]
        decide
      rw [ofChars?, if_neg other.1, if_neg fun braced => other.2 braced.1, if_pos form, read]

end EventSourcing.Uuid
