import EventSourcing.Text.Blank
import EventSourcing.Text.Numeral

/-!
What is read from text: counts, switches, and what is left of a text without the blanks around it.
A reader of counts accepts digits with or without a plus sign, as long as the number is small
enough; it stops at the first digit too many, which is no loss, since a number only grows with its
digits.
-/

namespace EventSourcing.Text

theorem isDigit_iff (c : Char) : c.isDigit = true ↔ 48 ≤ c.toNat ∧ c.toNat ≤ 57 := by
  simp [Char.isDigit, UInt32.le_iff_toNat_le]

theorem isDigit_bounds {c : Char} (digit : c.isDigit = true) : 48 ≤ c.toNat ∧ c.toNat ≤ 57 :=
  (isDigit_iff c).mp digit

theorem digit?_of_isDigit {c : Char} (digit : c.isDigit = true) :
    digit? c = some (c.toNat - '0'.toNat) :=
  if_pos (isDigit_bounds digit)

theorem digit?_eq_some_iff {c : Char} {digit : Nat} :
    digit? c = some digit ↔ c.isDigit = true ∧ digit = c.toNat - '0'.toNat := by
  constructor
  · intro read
    by_cases digits : c.isDigit = true
    · rw [digit?_of_isDigit digits] at read
      exact ⟨digits, (Option.some.inj read).symm⟩
    · have outside : ¬('0' ≤ c ∧ c ≤ '9') := fun inside => digits ((isDigit_iff c).mpr inside)
      rw [digit?, if_neg outside] at read
      cases read
  · rintro ⟨digits, rfl⟩
    exact digit?_of_isDigit digits

section Blanks

theorem isBlank_of_isDigit {c : Char} (digit : c.isDigit = true) : isBlank c = false := by
  obtain ⟨least, greatest⟩ := isDigit_bounds digit
  simp [isBlank, blankRanges]
  omega

theorem trimStart_cons {c : Char} (solid : isBlank c = false) (rest : List Char) :
    trimStart (c :: rest) = c :: rest := by
  simp [trimStart, solid]

/-- Whether a text is another one between blanks, and that one neither starts nor ends with a
blank. -/
structure Trims (text core : List Char) : Prop where
  between : ∃ before after, text = before ++ core ++ after ∧
    (∀ c ∈ before, isBlank c = true) ∧ ∀ c ∈ after, isBlank c = true
  first : ∀ c ∈ core.head?, isBlank c = false
  last : ∀ c ∈ core.getLast?, isBlank c = false

theorem head?_trimStart (text : List Char) : ∀ c ∈ (trimStart text).head?, isBlank c = false := by
  intro c first
  obtain ⟨rest, left⟩ := List.head?_eq_some_iff.mp (Option.mem_def.mp first)
  exact trimStart_head text c rest left

theorem exists_trimStart (text : List Char) :
    ∃ before, text = before ++ trimStart text ∧ ∀ c ∈ before, isBlank c = true :=
  ⟨text.takeWhile isBlank, List.takeWhile_append_dropWhile.symm,
    List.all_eq_true.mp List.all_takeWhile⟩

/-- Blanks at the start are removed, and nothing of what comes after them. -/
theorem trimStart_append {before core : List Char} (blank : ∀ c ∈ before, isBlank c = true)
    (first : ∀ c ∈ core.head?, isBlank c = false) : trimStart (before ++ core) = core := by
  rw [trimStart, List.dropWhile_append_of_pos blank]
  cases core with
  | nil => rfl
  | cons c rest => exact trimStart_cons (first c rfl) rest

theorem trimEnd_append {core after : List Char} (blank : ∀ c ∈ after, isBlank c = true)
    (last : ∀ c ∈ core.getLast?, isBlank c = false) : trimEnd (core ++ after) = core := by
  have reversed : trimStart (after.reverse ++ core.reverse) = core.reverse := by
    refine trimStart_append (fun c member => blank c (List.mem_reverse.mp member)) ?_
    rwa [List.head?_reverse]
  rw [trimEnd, List.reverse_append, reversed, List.reverse_reverse]

theorem trims_trim (text : List Char) : Trims text (trim text) := by
  obtain ⟨before, start, blank⟩ := exists_trimStart text
  obtain ⟨after, finish, blankToo⟩ := exists_trimStart (trimStart text).reverse
  have whole : trimStart text = trim text ++ after.reverse := by
    rw [trim, trimEnd, ← List.reverse_append, ← finish, List.reverse_reverse]
  refine ⟨⟨before, after.reverse, ?_, blank, ?_⟩, ?_, ?_⟩
  · rw [List.append_assoc, ← whole]
    exact start
  · exact fun c member => blankToo c (List.mem_reverse.mp member)
  · intro c first
    refine head?_trimStart text c ?_
    rw [whole, List.head?_append, Option.mem_def.mp first]
    rfl
  · rw [trim, trimEnd, List.getLast?_reverse]
    exact head?_trimStart _

/-- There is one way only to remove the blanks from both ends. -/
theorem trim_eq_iff {text core : List Char} : trim text = core ↔ Trims text core := by
  constructor
  · rintro rfl
    exact trims_trim text
  · rintro ⟨⟨before, after, rfl, blank, blankToo⟩, first, last⟩
    cases core with
    | nil =>
      have none : trimStart (before ++ [] ++ after) = [] := by
        rw [List.append_nil, ← List.append_nil (before ++ after)]
        refine trimStart_append (fun c member => ?_) (fun c => nofun)
        exact (List.mem_append.mp member).elim (blank c) (blankToo c)
      rw [trim, none]
      rfl
    | cons c rest =>
      rw [trim, List.append_assoc, trimStart_append blank, trimEnd_append blankToo last]
      exact fun other same => first other same

end Blanks

/-- Whether a text consists of decimal digits, one at least, that may have a plus sign before them,
and denotes a number below a limit. -/
def IsCount (limit : Nat) (text : List Char) (n : Nat) : Prop :=
  ∃ digits, (text = digits ∨ text = '+' :: digits) ∧ digits ≠ [] ∧
    (∀ c ∈ digits, c.isDigit = true) ∧ Nat.ofDigitChars 10 digits 0 = n ∧ n < limit

def IsSwitch (text : List Char) (on : Bool) : Prop :=
  text = (if on then "true" else "false").toList

theorem le_ofDigitChars (digits : List Char) (value : Nat) :
    value ≤ Nat.ofDigitChars 10 digits value := by
  induction digits generalizing value with
  | nil => exact Nat.le_refl _
  | cons c rest ih =>
    rw [Nat.ofDigitChars_cons]
    refine Nat.le_trans ?_ (ih _)
    omega

/-- Digits are read to their end, if the number that they denote is small enough. -/
theorem readDigits_eq_ok_iff {bounds : Bounds} (least : bounds.least = 0) {digits : List Char}
    {value : Nat} (small : (value : Int) ≤ bounds.greatest) {result : Int} :
    readDigits bounds false value digits = .ok result ↔
      (∀ c ∈ digits, c.isDigit = true) ∧ (Nat.ofDigitChars 10 digits value : Int) = result ∧
        result ≤ bounds.greatest := by
  induction digits generalizing value with
  | nil =>
    simp only [readDigits, Except.ok.injEq, List.not_mem_nil, false_implies, implies_true,
      true_and, Nat.ofDigitChars_nil]
    exact ⟨fun same => ⟨same, same ▸ small⟩, fun same => same.1⟩
  | cons c rest ih =>
    rw [readDigits, List.forall_mem_cons, Nat.ofDigitChars_cons]
    cases read : digit? c with
    | none =>
      have other : ¬c.isDigit = true := fun digit => by
        cases read.symm.trans (digit?_of_isDigit digit)
      simp only [other, false_and, reduceCtorEq]
    | some digit =>
      obtain ⟨digits, rfl⟩ := digit?_eq_some_iff.mp read
      have next : (value : Int) * 10 + (c.toNat - '0'.toNat : Nat) =
          (10 * value + (c.toNat - '0'.toNat) : Nat) := by
        omega
      simp only [Bool.false_eq_true, ↓reduceIte, next, digits, true_and]
      by_cases large : bounds.greatest < (10 * value + (c.toNat - '0'.toNat) : Nat)
      · -- What is too large already only grows.
        rw [if_pos large]
        have grows := le_ofDigitChars rest (10 * value + (c.toNat - '0'.toNat))
        refine iff_of_false nofun fun ⟨_, same, fits⟩ => ?_
        omega
      · rw [if_neg large, if_neg (by omega)]
        exact ih (by omega)

/-- A plus sign may be left out, and a minus sign is a digit like any other: none. -/
theorem readInteger_eq_ok_iff {bounds : Bounds} (least : bounds.least = 0) {text : List Char}
    {value : Int} :
    readInteger bounds text = .ok value ↔
      ∃ digits, (text = digits ∨ text = '+' :: digits) ∧ digits ≠ [] ∧
        readDigits bounds false 0 digits = .ok value := by
  have unsigned : bounds.signAllowed = false := decide_eq_false (by omega)
  have sign {c : Char} (other : digit? c = none) (rest : List Char) :
      readDigits bounds false 0 (c :: rest) = .error .badDigit := by
    rw [readDigits, other]
  constructor
  · intro read
    unfold readInteger at read
    split at read
    · cases read
    · cases read
    · cases read
    · exact ⟨_, .inr rfl, by simpa using ‹_ = [] → False›, read⟩
    · rw [unsigned] at read
      cases read
    · exact ⟨_, .inl rfl, by simpa using ‹_ = [] → False›, read⟩
  · rintro ⟨digits, rfl | rfl, filled, read⟩
    · unfold readInteger
      split
      · exact absurd rfl filled
      · cases (sign rfl _).symm.trans read
      · cases (sign rfl _).symm.trans read
      · cases (sign rfl _).symm.trans read
      · cases (sign rfl _).symm.trans read
      · exact read
    · obtain ⟨c, rest, rfl⟩ := List.exists_cons_of_ne_nil filled
      exact read

/-- Exactly the counts below a power of two are read. -/
theorem readInteger_unsigned_iff (bits : Nat) {text : List Char} {n : Nat} :
    (readInteger (.unsigned bits) text).map Int.toNat = .ok n ↔
      IsCount (Nat.pow 2 bits) text n := by
  have limit : (Bounds.unsigned bits).greatest = (Nat.pow 2 bits : Nat) - 1 :=
    congrArg (· - 1) (Int.natCast_pow 2 bits).symm
  have room : ((0 : Nat) : Int) ≤ (Bounds.unsigned bits).greatest := by
    have positive : 0 < Nat.pow 2 bits := Nat.two_pow_pos bits
    omega
  have digitsRead (digits : List Char) (value : Int) :
      readDigits (.unsigned bits) false 0 digits = .ok value ↔ _ :=
    readDigits_eq_ok_iff rfl room
  constructor
  · intro read
    cases found : readInteger (.unsigned bits) text with
    | error fault =>
      rw [found] at read
      cases read
    | ok value =>
      rw [found] at read
      obtain ⟨digits, shape, filled, parsed⟩ := (readInteger_eq_ok_iff rfl).mp found
      obtain ⟨all, rfl, fits⟩ := (digitsRead digits value).mp parsed
      have same : Nat.ofDigitChars 10 digits 0 = n := Except.ok.inj read
      exact ⟨digits, shape, filled, all, same, by omega⟩
  · rintro ⟨digits, shape, filled, all, rfl, small⟩
    have parsed := (digitsRead digits _).mpr ⟨all, rfl, by omega⟩
    rw [(readInteger_eq_ok_iff rfl).mpr ⟨digits, shape, filled, parsed⟩]
    rfl

theorem readSwitch_eq_ok_iff {text : List Char} {on : Bool} :
    readSwitch text = .ok on ↔ IsSwitch text on := by
  unfold readSwitch IsSwitch
  split
  · rename_i yes
    cases on with
    | true => exact iff_of_true rfl yes
    | false => exact iff_of_false nofun (yes ▸ by decide)
  · rename_i other
    split
    · rename_i no
      cases on with
      | true => exact iff_of_false nofun other
      | false => exact iff_of_true rfl no
    · rename_i neither
      cases on with
      | true => exact iff_of_false nofun other
      | false => exact iff_of_false nofun neither

end EventSourcing.Text
