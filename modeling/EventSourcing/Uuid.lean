/-!
Identifiers of 128 bits. They are written in lower case with hyphens and read in any case: bare,
hyphenated, in braces, or as a URN.
-/

namespace EventSourcing

structure Uuid where
  bits : BitVec 128
  deriving DecidableEq, Repr

namespace Uuid

def nil : Uuid := ⟨0⟩

instance : Inhabited Uuid := ⟨nil⟩

def ofNat (n : Nat) : Uuid := ⟨BitVec.ofNat 128 n⟩

/-- The version digit: the high half of byte 6. -/
def version (id : Uuid) : Nat :=
  (id.bits.extractLsb' 76 4).toNat

/-- Whether the top bits of byte 8 are those of the standard variant. -/
def standardVariant (id : Uuid) : Bool :=
  id.bits.extractLsb' 62 2 = 2#2

/-- Turns 128 bits into a version 4 identifier, which leaves 122 of them free. -/
def stampedRandom (bits : BitVec 128) : Uuid :=
  let free := bits &&& ~~~((0xf#128 <<< 76) ||| (3#128 <<< 62))
  ⟨free ||| (4#128 <<< 76) ||| (2#128 <<< 62)⟩

theorem version_stampedRandom (bits : BitVec 128) : (stampedRandom bits).version = 4 := by
  have digit : (stampedRandom bits).bits.extractLsb' 76 4 = 4#4 := by
    apply BitVec.eq_of_getElem_eq
    intro i inside
    have cases : i = 0 ∨ i = 1 ∨ i = 2 ∨ i = 3 := by omega
    rcases cases with rfl | rfl | rfl | rfl <;> simp [stampedRandom]
  simp [version, digit]

/-- The digits from the most significant one on. -/
def nibbles (id : Uuid) : List Nat :=
  (List.range 32).map fun i => id.bits.toNat / Nat.pow 16 (31 - i) % 16

def hyphenated (digits : List Char) : List Char :=
  digits.take 8 ++ '-' :: (digits.drop 8).take 4 ++ '-' :: (digits.drop 12).take 4 ++
    '-' :: (digits.drop 16).take 4 ++ '-' :: digits.drop 20

def text (id : Uuid) : String :=
  String.ofList (hyphenated (id.nibbles.map Nat.digitChar))

instance : ToString Uuid := ⟨text⟩

def digit? (c : Char) : Option Nat :=
  if '0' ≤ c ∧ c ≤ '9' then some (c.toNat - '0'.toNat)
  else if 'a' ≤ c ∧ c ≤ 'f' then some (c.toNat - 'a'.toNat + 10)
  else if 'A' ≤ c ∧ c ≤ 'F' then some (c.toNat - 'A'.toNat + 10)
  else none

def readDigits (value : Nat) : List Char → Option Nat
  | [] => some value
  | c :: rest =>
    match digit? c with
    | none => none
    | some digit => readDigits (value * 16 + digit) rest

def ofDigits? (digits : List Char) : Option Uuid :=
  if digits.length = 32 then (readDigits 0 digits).map ofNat else none

/-- Groups of 8, 4, 4, 4 and 12 digits with hyphens between them. -/
def ofHyphenated? (text : List Char) : Option Uuid :=
  if text.length = 36 ∧ text[8]? = some '-' ∧ text[13]? = some '-' ∧ text[18]? = some '-' ∧
      text[23]? = some '-' then
    ofDigits? (text.take 8 ++ (text.drop 9).take 4 ++ (text.drop 14).take 4 ++
      (text.drop 19).take 4 ++ text.drop 24)
  else none

/-- What a URN of an identifier starts with, in any case. -/
def urnStart : List Char := "urn:uuid:".toList

/-- The length of a text decides which form it has to have. -/
def ofChars? (text : List Char) : Option Uuid :=
  if text.length = 32 then ofDigits? text
  else if text.length = 38 ∧ text.head? = some '\x7b' ∧ text.getLast? = some '\x7d' then
    ofHyphenated? (text.drop 1).dropLast
  else if text.length = 45 ∧ (text.take 9).map Char.toLower = urnStart then
    ofHyphenated? (text.drop 9)
  else ofHyphenated? text

def ofText? (text : String) : Option Uuid :=
  ofChars? text.toList

end Uuid

end EventSourcing
