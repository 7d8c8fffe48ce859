import EventSourcing.Text.Numeral

/-!
Versions of event streams. A version is the position of the last event, or -1 for a stream without
events. An expectation says at which version a caller takes a stream to be; expectations are
compared by their codes, and a code is the version itself, -1 for "none" or -2 for "any".
-/

namespace EventSourcing

/-- The position of the last event of a stream. -/
structure Version where
  value : Int
  deriving DecidableEq, Repr

namespace Version

/-- The version of a stream without events. -/
def absent : Version := ⟨-1⟩

instance : Inhabited Version := ⟨absent⟩

/-- Below -1 there are no versions; the refused value is the error. -/
def ofInt (value : Int) : Except Int Version :=
  if value < -1 then .error value else .ok ⟨value⟩

/-- A stream has this version after its first `count` events. -/
def ofCount (count : Nat) : Version := ⟨(count : Int) - 1⟩

def IsPresent (version : Version) : Prop := 0 ≤ version.value

instance (version : Version) : Decidable version.IsPresent :=
  inferInstanceAs (Decidable (0 ≤ version.value))

def nextPosition (version : Version) : Int := version.value + 1

/-- The version after `count` more events. -/
def advance (version : Version) (count : Nat) : Version := ⟨version.value + count⟩

/-- A count held in a 64-bit word, read as a signed number. -/
def signedCount (count : UInt64) : Int := count.toInt64.toInt

/-- As `ofCount`, for a count in a machine word. -/
def ofWord (count : UInt64) : Version := ⟨signedCount count - 1⟩

/-- As `advance`, for a count in a machine word. -/
def advanceWord (version : Version) (count : UInt64) : Version :=
  ⟨version.value + signedCount count⟩

def text (version : Version) : String :=
  if version.IsPresent then toString version.value else "does-not-exist"

/-- Read as a signed number, a count below 2 ^ 63 is still itself. -/
theorem signedCount_of_lt {count : UInt64} (small : count < 0x8000000000000000) :
    signedCount count = count.toNat := by
  change count.toBitVec.toInt = _
  rw [BitVec.toInt_eq_toNat_of_lt]
  · rfl
  · have below : count.toNat < 9223372036854775808 := UInt64.lt_iff_toNat_lt.mp small
    change 2 * count.toNat < 18446744073709551616
    omega

theorem ofWord_eq_ofCount {count : UInt64} (small : count < 0x8000000000000000) :
    ofWord count = ofCount count.toNat := by
  rw [ofWord, signedCount_of_lt small, ofCount]

theorem advanceWord_eq_advance (version : Version) {count : UInt64}
    (small : count < 0x8000000000000000) :
    version.advanceWord count = version.advance count.toNat := by
  rw [advanceWord, signedCount_of_lt small, advance]

theorem advance_zero (version : Version) : version.advance 0 = version := by
  cases version
  simp [advance]

theorem advance_add (version : Version) (first second : Nat) :
    (version.advance first).advance second = version.advance (first + second) := by
  simp only [advance, mk.injEq]
  omega

theorem advance_absent (count : Nat) : absent.advance count = ofCount count := by
  simp only [advance, absent, ofCount, mk.injEq]
  omega

theorem advance_injective (version : Version) {first second : Nat}
    (same : version.advance first = version.advance second) : first = second := by
  simp only [advance, mk.injEq] at same
  omega

end Version

/-- What a caller asserts about a stream before writing to it. -/
inductive ExpectedVersion where
  | none
  | any
  | exact (version : Version)
  deriving Repr

namespace ExpectedVersion

/-- Negative versions cannot be expected exactly; the refused value is the error. -/
def ofExact (value : Int) : Except Int ExpectedVersion :=
  if value < 0 then .error value else .ok (.exact ⟨value⟩)

def ofCode (code : Int) : Except Int ExpectedVersion :=
  if code = -1 then .ok .none
  else if code = -2 then .ok .any
  else ofExact code

def code : ExpectedVersion → Int
  | .none => -1
  | .any => -2
  | .exact version => version.value

/-- Two expectations count as equal when their codes are. -/
instance : BEq ExpectedVersion := ⟨fun first second => first.code == second.code⟩

/-- The order of the codes. -/
def compare (first second : ExpectedVersion) : Ordering :=
  Ord.compare first.code second.code

def text : ExpectedVersion → String
  | .none => "none"
  | .any => "any"
  | .exact version => version.text

theorem ofCode_code (expected : ExpectedVersion) (valid : ∀ v, expected = .exact v → v.IsPresent) :
    ofCode expected.code = .ok expected := by
  cases expected with
  | none => rfl
  | any => rfl
  | exact version =>
    have present : 0 ≤ version.value := valid version rfl
    have known : ¬version.value = -1 ∧ ¬version.value = -2 ∧ ¬version.value < 0 := by omega
    simp [code, ofCode, ofExact, known]

end ExpectedVersion

end EventSourcing
