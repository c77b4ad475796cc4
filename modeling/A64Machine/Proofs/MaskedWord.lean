import A64Machine.Proofs.LogicalImmediate

/-!
# The masked immediate of a word

A word with a masked immediate carries its packed form in the bits from 10 to 22. Many rotations
denote one mask, and an assembler picks the least of them.
-/

namespace A64Machine.LogicalImmediate

/-- The bit `N` of a word. -/
def wordN (word : Nat) : Nat := (word >>> 22) % 2 ^ 1

/-- The rotation of a word. -/
def wordRotation (word : Nat) : Nat := (word >>> 16) % 2 ^ 6

/-- The field of a word that tells the element and the length of the run. -/
def wordRun (word : Nat) : Nat := (word >>> 10) % 2 ^ 6

/-- The word with another rotation. -/
def withRotation (word rotation : Nat) : Nat :=
  (word >>> 22) <<< 22 ||| rotation <<< 16 ||| word % 2 ^ 16

/-- The word whose rotation is reduced to the size of the element. -/
def reduceRotation (word : Nat) : Nat :=
  withRotation word (wordRotation word % ringSize (wordN word) (wordRun word))

/-- The masks that the packed immediate of a word stands for. -/
def wordMasks (word size : Nat) : Option (Nat × Nat) :=
  decode (wordN word) (wordRun word) (wordRotation word) size true

/-- Another rotation changes no other bits. -/
theorem testBit_withRotation {word rotation : Nat} (small : rotation < 2 ^ 6) (bit : Nat) :
    (withRotation word rotation).testBit bit =
      if 16 ≤ bit ∧ bit < 22 then rotation.testBit (bit - 16) else word.testBit bit := by
  rw [withRotation, Nat.testBit_or, Nat.testBit_or, Nat.testBit_shiftLeft, Nat.testBit_shiftRight,
    Nat.testBit_shiftLeft, Nat.testBit_mod_two_pow]
  by_cases below : bit < 16
  · simp [below, show ¬(16 ≤ bit) by omega, show ¬(22 ≤ bit) by omega]
  · by_cases inside : bit < 22
    · have start : 16 ≤ bit := by omega
      have notBeyond : ¬22 ≤ bit := by omega
      simp [below, inside, start, notBeyond]
    · have beyond : rotation.testBit (bit - 16) = false :=
        Nat.testBit_lt_two_pow (Nat.lt_of_lt_of_le small (Nat.pow_le_pow_right (by decide) (by omega)))
      have whole : 22 + (bit - 22) = bit := by omega
      have start : 22 ≤ bit := by omega
      simp [below, inside, beyond, whole, start]

/-- Runs of bits are equal when their bits are. -/
theorem run_congr {word other start width : Nat}
    (same : ∀ bit, start ≤ bit → bit < start + width → word.testBit bit = other.testBit bit) :
    (word >>> start) % 2 ^ width = (other >>> start) % 2 ^ width := by
  apply Nat.eq_of_testBit_eq
  intro bit
  rw [Nat.testBit_mod_two_pow, Nat.testBit_mod_two_pow, Nat.testBit_shiftRight,
    Nat.testBit_shiftRight]
  by_cases inside : bit < width
  · rw [same (start + bit) (by omega) (by omega)]
  · simp [inside]

section Rotation

variable {word rotation : Nat}

/-- The rotation is the one that was put in. -/
theorem wordRotation_withRotation (small : rotation < 2 ^ 6) :
    wordRotation (withRotation word rotation) = rotation := by
  apply Nat.eq_of_testBit_eq
  intro bit
  rw [wordRotation, Nat.testBit_mod_two_pow, Nat.testBit_shiftRight, testBit_withRotation small]
  by_cases inside : bit < 6
  · rw [if_pos (by omega), Nat.add_sub_cancel_left]
    simp [inside]
  · have beyond : rotation.testBit bit = false :=
      Nat.testBit_lt_two_pow (Nat.lt_of_lt_of_le small (Nat.pow_le_pow_right (by decide) (by omega)))
    simp [inside, beyond]

/-- Another rotation leaves the element and the length of the run. -/
theorem wordRun_withRotation (small : rotation < 2 ^ 6) :
    wordRun (withRotation word rotation) = wordRun word := by
  refine run_congr fun bit _ below => ?_
  rw [testBit_withRotation small, if_neg (by omega)]

/-- Another rotation leaves the bit `N`. -/
theorem wordN_withRotation (small : rotation < 2 ^ 6) :
    wordN (withRotation word rotation) = wordN word := by
  refine run_congr fun bit above _ => ?_
  rw [testBit_withRotation small, if_neg (by omega)]

/-- A reduced rotation still has six bits. -/
theorem rotation_lt (word : Nat) : wordRotation word % ringSize (wordN word) (wordRun word) < 2 ^ 6 :=
  Nat.lt_of_le_of_lt (Nat.mod_le _ _) (Nat.mod_lt _ (by decide))

/-- A word with another rotation has no more bits. -/
theorem reduceRotation_lt (small : word < 2 ^ 32) : reduceRotation word < 2 ^ 32 := by
  apply Nat.lt_pow_two_of_testBit
  intro bit beyond
  rw [reduceRotation, testBit_withRotation (rotation_lt word), if_neg (by omega)]
  exact Nat.testBit_lt_two_pow (Nat.lt_of_lt_of_le small (Nat.pow_le_pow_right (by decide) beyond))

/-- A rotation below the size of the element is reduced. -/
theorem reduceRotation_eq_self
    (reduced : wordRotation word < ringSize (wordN word) (wordRun word)) :
    reduceRotation word = word := by
  apply Nat.eq_of_testBit_eq
  intro bit
  rw [reduceRotation, testBit_withRotation (rotation_lt word), Nat.mod_eq_of_lt reduced, wordRotation,
    Nat.testBit_mod_two_pow, Nat.testBit_shiftRight]
  split
  · rename_i inside
    rw [show 16 + (bit - 16) = bit by omega]
    simp [show bit - 16 < 6 by omega]
  · rfl

/-- A reduced rotation denotes the same masks. -/
theorem wordMasks_reduceRotation (word size : Nat) :
    wordMasks (reduceRotation word) size = wordMasks word size := by
  have small := rotation_lt word
  rw [wordMasks, reduceRotation, wordN_withRotation small, wordRun_withRotation small,
    wordRotation_withRotation small, decode_mod_ringSize, wordMasks]

end Rotation

end A64Machine.LogicalImmediate
