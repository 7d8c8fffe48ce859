import EventSourcing.Error
import EventSourcing.Uuid

/-!
Identities of events. A write with a known cause gives its events identities derived from that cause
and their place in the batch, so a repeated write has the same ones. All others come from a source
that is asked once per event.
-/

namespace EventSourcing

/-- Mixed into every derived identity. -/
def identityMask : BitVec 128 := 0x9e3779b97f4a7c15f39cc0605cedc834

/-- The low four bytes of an index, least significant byte first. -/
def indexTail (index : Nat) : BitVec 32 :=
  BitVec.ofNat 8 index ++ BitVec.ofNat 8 (index / Nat.pow 2 8) ++ BitVec.ofNat 8 (index / Nat.pow 2 16) ++
    BitVec.ofNat 8 (index / Nat.pow 2 24)

/-- The identity of the event at `index` of a batch caused by `causation`. -/
def Uuid.derived (causation : Uuid) (index : Nat) : Uuid :=
  ⟨causation.bits ^^^ identityMask ^^^ (indexTail index).setWidth 128⟩

/-- A nil cause is no cause. -/
def deriveId (causation : Uuid) (index : Nat) : Except Error Uuid :=
  if causation = Uuid.nil then .error .nilCausation else .ok (causation.derived index)

/-- Hands out identities: draw `n` is `draw n`, counted from 0. -/
structure IdSource where
  draw : Nat → Uuid
  issued : Nat := 0

namespace IdSource

/-- 1, 2, 3 and so on. -/
def sequential : IdSource := { draw := fun n => Uuid.ofNat (n + 1) }

/-- One round of a 64-bit mixing function that maps different words to different words. -/
def mixed (word : UInt64) : UInt64 :=
  let word := (word ^^^ (word >>> 30)) * 0xbf58476d1ce4e5b9
  let word := (word ^^^ (word >>> 27)) * 0x94d049bb133111eb
  word ^^^ (word >>> 31)

/-- The word with number `n` of a pseudorandom sequence. -/
def randomWord (seed n : Nat) : UInt64 :=
  mixed (UInt64.ofNat seed + UInt64.ofNat (n + 1) * 0x9e3779b97f4a7c15)

/-- Version 4 identifiers. -/
def random (seed : Nat) : IdSource where
  draw n := Uuid.stampedRandom
    ((randomWord seed (2 * n)).toBitVec ++ (randomWord seed (2 * n + 1)).toBitVec)

/-- The next `count` identities. -/
def upcoming (source : IdSource) (count : Nat) : List Uuid :=
  (List.range count).map fun i => source.draw (source.issued + i)

def skip (source : IdSource) (count : Nat) : IdSource :=
  { source with issued := source.issued + count }

@[simp] theorem length_upcoming (source : IdSource) (count : Nat) :
    (source.upcoming count).length = count := by
  simp [upcoming]

end IdSource

end EventSourcing
