import EventSourcing.Proofs.Derived
import Mathlib.Data.List.Nodup

/-!
Derived identities byte by byte. The bytes of an identity are those of its cause with a mask mixed
in; the last four have the low bytes of the index mixed in as well, the lowest one first. So two
causes meet at two indices exactly if they agree in their first twelve bytes and differ in the last
four as the indices do.
-/

namespace EventSourcing

/-- The byte at a place, counted from the most significant one. -/
def Uuid.byte (id : Uuid) (place : Nat) : BitVec 8 :=
  id.bits.extractLsb' (8 * (15 - place)) 8

/-- The byte at a place, counted from the least significant one. -/
def indexByte (index place : Nat) : BitVec 8 :=
  BitVec.ofNat 8 (index / Nat.pow 256 place)

/-- What an index adds to the byte at a place. -/
def tailByte (index place : Nat) : BitVec 8 :=
  if place < 12 then 0 else indexByte index (place - 12)

theorem byte_indexTail (index : Nat) {place : Nat} (inside : place < 4) :
    (indexTail index).extractLsb' (8 * (3 - place)) 8 = indexByte index place := by
  unfold indexTail indexByte
  match place, inside with
  | 0, _ =>
    rw [BitVec.extractLsb'_append_eq_of_le (by decide),
      BitVec.extractLsb'_append_eq_of_le (by decide),
      BitVec.extractLsb'_append_eq_of_le (by decide), Nat.pow_eq, Nat.pow_zero, Nat.div_one]
    exact BitVec.extractLsb'_eq_self
  | 1, _ =>
    rw [BitVec.extractLsb'_append_eq_of_le (by decide),
      BitVec.extractLsb'_append_eq_of_le (by decide)]
    exact BitVec.extractLsb'_append_eq_right
  | 2, _ =>
    rw [BitVec.extractLsb'_append_eq_of_le (by decide)]
    exact BitVec.extractLsb'_append_eq_right
  | 3, _ => exact BitVec.extractLsb'_append_eq_right

/-- A word that is made longer has its bytes at the end. -/
theorem byte_setWidth_indexTail (index : Nat) {place : Nat} (inside : place < 16) :
    ((indexTail index).setWidth 128).extractLsb' (8 * (15 - place)) 8 = tailByte index place := by
  unfold tailByte
  split
  · ext bit small
    simp only [BitVec.getElem_extractLsb', BitVec.getLsbD_setWidth, BitVec.ofNat_eq_ofNat,
      BitVec.getElem_zero]
    rw [BitVec.getLsbD_of_ge _ _ (by omega), Bool.and_false]
  · rw [← byte_indexTail index (show place - 12 < 4 by omega)]
    ext bit small
    have shifted : 3 - (place - 12) = 15 - place := by omega
    simp only [shifted, BitVec.getElem_extractLsb', BitVec.getLsbD_setWidth]
    rw [decide_eq_true (by omega), Bool.true_and]

namespace Uuid

/-- An identifier is its sixteen bytes. -/
theorem eq_iff_byte (first second : Uuid) :
    first = second ↔ ∀ place < 16, first.byte place = second.byte place := by
  constructor
  · rintro rfl place -
    rfl
  · intro same
    obtain ⟨bits⟩ := first
    obtain ⟨other⟩ := second
    refine congrArg mk (BitVec.eq_of_getLsbD_eq fun bit inside => ?_)
    have byte := congrArg (BitVec.getLsbD · (bit % 8)) (same (15 - bit / 8) (by omega))
    have start : 8 * (15 - (15 - bit / 8)) + bit % 8 = bit := by omega
    have small : bit % 8 < 8 := Nat.mod_lt _ (by decide)
    simpa only [Uuid.byte, BitVec.getLsbD_extractLsb', start, small, decide_true, Bool.true_and]
      using byte

/-- Each byte of an identity is made from one byte of its cause. -/
theorem byte_derived (causation : Uuid) (index : Nat) {place : Nat} (inside : place < 16) :
    (causation.derived index).byte place =
      causation.byte place ^^^ byte ⟨identityMask⟩ place ^^^ tailByte index place := by
  simp only [byte, derived, BitVec.extractLsb'_xor, byte_setWidth_indexTail index inside]

/-- Two causes meet where they differ byte for byte as the indices do. -/
theorem derived_eq_iff_byte (causation other : Uuid) (index second : Nat) :
    causation.derived index = other.derived second ↔
      (∀ place < 12, causation.byte place = other.byte place) ∧
        ∀ place < 4, causation.byte (12 + place) ^^^ other.byte (12 + place) =
          indexByte index place ^^^ indexByte second place := by
  have bytes : causation.derived index = other.derived second ↔
      ∀ place < 16, causation.byte place ^^^ other.byte place =
        tailByte index place ^^^ tailByte second place := by
    rw [eq_iff_byte]
    refine forall₂_congr fun place inside => ?_
    rw [byte_derived _ _ inside, byte_derived _ _ inside, xor_eq_xor_iff]
  rw [bytes]
  constructor
  · intro differ
    refine ⟨fun place early => ?_, fun place late => ?_⟩
    · have none := differ place (by omega)
      rw [tailByte, tailByte, if_pos early, if_pos early, BitVec.xor_self] at none
      exact BitVec.xor_eq_zero_iff.mp none
    · have some := differ (12 + place) (by omega)
      rwa [tailByte, tailByte, if_neg (by omega), if_neg (by omega),
        Nat.add_sub_cancel_left] at some
  · rintro ⟨agree, differ⟩ place inside
    unfold tailByte
    split
    · rw [agree place ‹_›, BitVec.xor_self, BitVec.xor_self]
    · have late := differ (place - 12) (by omega)
      rwa [Nat.add_sub_cancel' (by omega)] at late

end Uuid

theorem deriveId_of_known {causation : Uuid} (known : causation ≠ Uuid.nil) (index : Nat) :
    deriveId causation index = .ok (causation.derived index) :=
  if_neg known

/-- Identities derived from two known causes are the same exactly if the causes agree in their first
twelve bytes and the last four differ as the low bytes of the indices do. One cause gives as many
events as there are 32-bit words identities of their own, and after so many the same ones again; at
one index no two causes give the same. -/
theorem identities_meet_iff {causation other : Uuid} (known : causation ≠ Uuid.nil)
    (knownToo : other ≠ Uuid.nil) :
    (∀ index second, ∃ id met, deriveId causation index = .ok id ∧
        deriveId other second = .ok met ∧
          (id = met ↔ (∀ place < 12, causation.byte place = other.byte place) ∧
            ∀ place < 4, causation.byte (12 + place) ^^^ other.byte (12 + place) =
              indexByte index place ^^^ indexByte second place)) ∧
      (∀ count, ((List.range count).map (deriveId causation)).Nodup ↔ count ≤ UInt32.size) ∧
      (∀ index, deriveId causation (index + UInt32.size) = deriveId causation index) ∧
      ∀ index, deriveId causation index = deriveId other index ↔ causation = other := by
  have derives := deriveId_of_known known
  have derivesToo := deriveId_of_known knownToo
  refine ⟨fun index second => ?_, fun count => ?_, fun index => ?_, fun index => ?_⟩
  · exact ⟨_, _, derives index, derivesToo second, Uuid.derived_eq_iff_byte _ _ _ _⟩
  · have distinct := Uuid.nodup_derived_iff causation count
    rw [← List.nodup_map_iff (f := (Except.ok : Uuid → Except Error Uuid))
      fun _ _ same => Except.ok.inj same, List.map_map] at distinct
    rw [← distinct]
    exact iff_of_eq (congrArg List.Nodup (List.map_congr_left fun index _ => derives index))
  · rw [derives, derives, Except.ok.injEq, Uuid.derived_eq_self_iff, Nat.add_mod_right]
  · rw [derives, derivesToo, Except.ok.injEq, Uuid.derived_eq_iff, BitVec.xor_self]
    exact ⟨fun met => congrArg Uuid.mk (BitVec.xor_eq_zero_iff.mp met),
      fun same => same ▸ BitVec.xor_self⟩

/-- These causes differ in the thirteenth byte alone, as the first two indices do in their lowest:
one gives its first event the identity that the other gives its second. -/
theorem identities_meet_neighbours :
    let causation := Uuid.ofNat 7
    let other := Uuid.ofNat (7 + 16777216)
    (causation ≠ Uuid.nil ∧ other ≠ Uuid.nil) ∧
      (∃ id, deriveId causation 0 = .ok id ∧ deriveId other 1 = .ok id) ∧
      deriveId causation 0 ≠ deriveId other 0 := by
  intro causation other
  have known : causation ≠ Uuid.nil := by decide
  have knownToo : other ≠ Uuid.nil := by decide
  obtain ⟨meet, -, -, apart⟩ := identities_meet_iff known knownToo
  refine ⟨⟨known, knownToo⟩, ?_, ?_⟩
  · obtain ⟨id, met, here, there, same⟩ := meet 0 1
    obtain rfl := same.mpr (by decide)
    exact ⟨id, here, there⟩
  · intro same
    exact absurd ((apart 0).mp same) (by decide)

end EventSourcing
