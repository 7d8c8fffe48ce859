import EventSourcing.Uuid.Derived

/-!
When derived identities meet. All that an index adds to an identity are its last four bytes, so one
cause gives different identities to as many events as there are 32-bit words, and the identities of
two causes can meet only if these agree in all bytes but the last four.
-/

namespace EventSourcing

/-- Words of the same widths are put together in one way only. -/
theorem append_eq_append_iff {high low : Nat} {first other : BitVec high} {last final : BitVec low} :
    first ++ last = other ++ final ↔ first = other ∧ last = final := by
  constructor
  · intro same
    have left := congrArg (BitVec.extractLsb' low high) same
    have right := congrArg (BitVec.extractLsb' 0 low) same
    rw [BitVec.extractLsb'_append_eq_left, BitVec.extractLsb'_append_eq_left] at left
    rw [BitVec.extractLsb'_append_eq_right, BitVec.extractLsb'_append_eq_right] at right
    exact ⟨left, right⟩
  · rintro ⟨rfl, rfl⟩
    rfl

theorem byte_eq_byte_iff (first second : Nat) :
    BitVec.ofNat 8 first = BitVec.ofNat 8 second ↔ first % 256 = second % 256 :=
  ⟨fun same => congrArg BitVec.toNat same, fun same => BitVec.eq_of_toNat_eq same⟩

/-- The tail of an index shows its low four bytes and nothing else. -/
theorem indexTail_eq_iff (first second : Nat) :
    indexTail first = indexTail second ↔ first % UInt32.size = second % UInt32.size := by
  have bytes : indexTail first = indexTail second ↔
      ((first % 256 = second % 256 ∧ first / 256 % 256 = second / 256 % 256) ∧
        first / 65536 % 256 = second / 65536 % 256) ∧
          first / 16777216 % 256 = second / 16777216 % 256 := by
    rw [indexTail, indexTail, append_eq_append_iff, append_eq_append_iff, append_eq_append_iff,
      byte_eq_byte_iff, byte_eq_byte_iff, byte_eq_byte_iff, byte_eq_byte_iff]
  rw [bytes, UInt32.size]
  omega

/-- What is the same on both sides may be left away, and what is different may change sides. -/
theorem xor_eq_xor_iff {width : Nat} (first second mask tail other : BitVec width) :
    first ^^^ mask ^^^ tail = second ^^^ mask ^^^ other ↔ first ^^^ second = tail ^^^ other := by
  have apart : first ^^^ mask ^^^ tail ^^^ (second ^^^ mask ^^^ other) =
      first ^^^ second ^^^ (tail ^^^ other) := by
    calc
      _ = first ^^^ second ^^^ (tail ^^^ other) ^^^ (mask ^^^ mask) := by ac_rfl
      _ = _ := by rw [BitVec.xor_self, BitVec.xor_zero]
  rw [← BitVec.xor_eq_zero_iff, apart, BitVec.xor_eq_zero_iff]

namespace Uuid

/-- Two causes meet where their difference is that of the tails. -/
theorem derived_eq_iff (first second : Uuid) (index other : Nat) :
    first.derived index = second.derived other ↔
      first.bits ^^^ second.bits = (indexTail index ^^^ indexTail other).setWidth 128 := by
  rw [derived, derived, mk.injEq, xor_eq_xor_iff, BitVec.setWidth_xor]

/-- For one cause the indices alone decide. -/
theorem derived_eq_self_iff (causation : Uuid) (index other : Nat) :
    causation.derived index = causation.derived other ↔
      index % UInt32.size = other % UInt32.size := by
  rw [derived_eq_iff, ← indexTail_eq_iff, BitVec.xor_self]
  constructor
  · intro met
    have low := congrArg (BitVec.setWidth 32) met
    rw [BitVec.setWidth_setWidth_of_le _ (by decide), BitVec.setWidth_eq] at low
    exact BitVec.xor_eq_zero_iff.mp low.symm
  · intro same
    rw [same, BitVec.xor_self]
    rfl

/-- Only causes that agree in their first twelve bytes can meet. -/
theorem high_eq_of_derived_eq {first second : Uuid} {index other : Nat}
    (met : first.derived index = second.derived other) :
    first.bits.extractLsb' 32 96 = second.bits.extractLsb' 32 96 := by
  have high := congrArg (BitVec.extractLsb' 32 96) ((derived_eq_iff _ _ _ _).mp met)
  rw [BitVec.extractLsb'_xor] at high
  apply BitVec.xor_eq_zero_iff.mp
  rw [high]
  ext bit inside
  simp

/-- The events of a batch have identities of their own, unless there are too many of them. -/
theorem nodup_derived_iff (causation : Uuid) (count : Nat) :
    ((List.range count).map causation.derived).Nodup ↔ count ≤ UInt32.size := by
  simp only [List.Nodup, List.pairwise_iff_getElem, List.length_map, List.length_range,
    List.getElem_map, List.getElem_range, ne_eq, derived_eq_self_iff]
  constructor
  · intro distinct
    refine Nat.le_of_not_lt fun many => distinct 0 UInt32.size ?_ many (by decide) (by decide)
    exact Nat.zero_lt_of_lt many
  · intro few first second before inside earlier
    rw [Nat.mod_eq_of_lt (by omega), Nat.mod_eq_of_lt (by omega)]
    omega

end Uuid

end EventSourcing
