import A64Machine.LogicalImmediate
import A64Machine.Proofs.Bits

/-!
# Wide immediates

A half-word at a position is found there again: the value determines both, unless it is zero.
-/

namespace A64Machine

namespace Bits

/-- The two's complement reading of a number has the number as its representative. -/
theorem wrap_signExtend {width value : Nat} (small : value < 2 ^ width) :
    wrap width (signExtend value width) = value := by
  rw [wrap, signExtend, Int.bmod_emod]
  exact wrap_of_lt small

/-- A two's complement reading lies between the bounds of its width. -/
theorem signExtend_bounds (width : Nat) (value : Int) :
    -(2 ^ width : Nat) ≤ signExtend value (width + 1) ∧
      signExtend value (width + 1) < (2 ^ width : Nat) := by
  have doubled : 2 ^ (width + 1) = 2 * 2 ^ width := by rw [Nat.pow_succ, Nat.mul_comm]
  have positive := Nat.two_pow_pos width
  have least := Int.le_bmod (x := value) (m := 2 ^ (width + 1)) (by omega)
  have most := Int.bmod_lt (x := value) (m := 2 ^ (width + 1)) (by omega)
  rw [signExtend]
  omega

/-- The two's complement reading of a number takes the upper half of the numbers below zero. -/
theorem signExtend_eq {width value : Nat} (positive : 0 < width) (small : value < 2 ^ width) :
    signExtend value width =
      if value < 2 ^ (width - 1) then (value : Int) else value - (2 ^ width : Nat) := by
  obtain ⟨below, rfl⟩ : ∃ below, width = below + 1 := ⟨width - 1, by omega⟩
  have doubled : 2 ^ (below + 1) = 2 * 2 ^ below := by rw [Nat.pow_succ, Nat.mul_comm]
  rw [signExtend, Nat.add_sub_cancel]
  split
  · exact Int.bmod_eq_of_le (by omega) (by omega)
  · rw [← Int.sub_bmod_right]
    exact Int.bmod_eq_of_le (by omega) (by omega)

/-- A number within the bounds of a width is the two's complement reading of its representative. -/
theorem signExtend_wrap {width : Nat} {value : Int} (positive : 0 < width)
    (least : -(2 ^ (width - 1) : Nat) ≤ value) (most : value < (2 ^ (width - 1) : Nat)) :
    signExtend (wrap width value) width = value := by
  obtain ⟨below, rfl⟩ : ∃ below, width = below + 1 := ⟨width - 1, by omega⟩
  have doubled : 2 ^ (below + 1) = 2 * 2 ^ below := by rw [Nat.pow_succ, Nat.mul_comm]
  have wrapped : (wrap (below + 1) value : Int) = value % (2 ^ (below + 1) : Nat) :=
    Int.toNat_of_nonneg (Int.emod_nonneg _ (by have := Nat.two_pow_pos below; omega))
  rw [Nat.add_sub_cancel] at least most
  rw [signExtend, wrapped, Int.emod_bmod]
  exact Int.bmod_eq_of_le (by omega) (by omega)

/-- A two's complement reading that is not negative is the number itself. -/
theorem signExtend_of_nonneg {width value : Nat} (positive : 0 < width) (small : value < 2 ^ width)
    (nonneg : 0 ≤ signExtend value width) : signExtend value width = value := by
  obtain ⟨number, same⟩ := Int.eq_ofNat_of_zero_le nonneg
  obtain ⟨below, rfl⟩ : ∃ below, width = below + 1 := ⟨width - 1, by omega⟩
  have bound := (signExtend_bounds below value).2
  rw [same] at bound
  have fits : number < 2 ^ (below + 1) :=
    Nat.lt_trans (Int.ofNat_lt.mp bound) (Nat.pow_lt_pow_right (by decide) (by omega))
  have back := wrap_signExtend small
  rw [same] at back ⊢
  have kept : wrap (below + 1) (number : Int) = number := wrap_of_lt fits
  rw [← back, kept]

/-- A two's complement reading is nearer to zero than the power of two of its width. -/
theorem signExtend_range {width : Nat} (positive : 0 < width) (value : Int) :
    -(2 ^ width : Nat) < signExtend value width ∧ signExtend value width < (2 ^ width : Nat) := by
  obtain ⟨below, rfl⟩ : ∃ below, width = below + 1 := ⟨width - 1, by omega⟩
  have smaller : 2 ^ below < 2 ^ (below + 1) := Nat.pow_lt_pow_right (by decide) (by omega)
  have bounds := signExtend_bounds below value
  omega

/-- A number and its complement add up to a mask. -/
theorem add_wrap_complement {width value : Nat} (small : value < 2 ^ width) :
    value + wrap width (-1 - value) = 2 ^ width - 1 := by
  have complement : ((-1 - value : Int) % (2 ^ width : Nat)) = (2 ^ width : Nat) - 1 - value := by
    rw [← Int.add_emod_right, Int.emod_eq_of_lt (by omega) (by omega)]
    omega
  rw [wrap, complement]
  omega

/-- Reading a complement and complementing it again gives the representative back. -/
theorem wrap_complement {width value : Nat} (small : value < 2 ^ width) :
    wrap width (-1 - signExtend (wrap width (-1 - value)) width) = value := by
  have sum := add_wrap_complement small
  generalize wrap width (-1 - value) = complement at sum
  have read : ((-1 - signExtend complement width) % (2 ^ width : Nat)) =
      ((-1 - complement : Int) % (2 ^ width : Nat)) := by
    rw [signExtend, Int.sub_emod, Int.bmod_emod, ← Int.sub_emod]
  have back := add_wrap_complement (show complement < 2 ^ width by omega)
  rw [wrap] at back ⊢
  rw [read]
  omega

end Bits

namespace WideImmediate

/-- The positions of a wide immediate are found below the size. -/
theorem position?_eq_some {value size position : Nat}
    (found : position? value size = some position) :
    position < size / 16 ∧ fitsAt value position = true ∧
      ∀ other < position, fitsAt value other = false := by
  rw [position?, positions, List.find?_range_eq_some] at found
  exact ⟨List.mem_range.mp found.2.1, found.1, fun other below => by simpa using found.2.2 other below⟩

/-- A half-word at a position is taken out of its value again. -/
theorem shiftRight_shiftLeft (half position : Nat) :
    (half <<< (16 * position)) >>> (16 * position) = half := by
  rw [Nat.shiftLeft_shiftRight]

/-- A half-word is found at its position, and nothing is found only at the lowest one. -/
theorem position?_shiftLeft {half position size : Nat} (small : half < 2 ^ 16)
    (lowest : half = 0 → position = 0) (inside : position < size / 16) :
    position? (half <<< (16 * position)) size = some position := by
  rw [position?, positions, List.find?_range_eq_some]
  refine ⟨?_, List.mem_range.mpr inside, fun other below => ?_⟩
  · rw [fitsAt, shiftRight_shiftLeft, Nat.mod_eq_of_lt small, beq_self_eq_true]
  · have some : half ≠ 0 := fun none => by omega
    have apart : (half <<< (16 * position)) >>> (16 * other) % 2 ^ 16 = 0 := by
      have moved : 16 * position = 16 * (position - other - 1) + 16 + 16 * other := by omega
      rw [moved, Nat.shiftLeft_add, Nat.shiftLeft_shiftRight, Nat.shiftLeft_add,
        Nat.shiftLeft_eq _ 16, Nat.mul_mod_left]
    have nonzero : half <<< (16 * position) ≠ 0 := by
      rw [Nat.shiftLeft_eq]
      exact Nat.mul_ne_zero some (Nat.ne_of_gt (Nat.two_pow_pos _))
    rw [fitsAt, apart, Nat.zero_shiftLeft, beq_false_of_ne nonzero]
    rfl

/-- A half-word at a position below the size is below the power of two of the size. -/
theorem shiftLeft_lt {half position whole : Nat} (small : half < 2 ^ 16)
    (inside : position < 2 ^ whole / 16) : half <<< (16 * position) < 2 ^ 2 ^ whole := by
  have room : 16 * position + 16 ≤ 2 ^ whole := by omega
  calc half <<< (16 * position) = half * 2 ^ (16 * position) := Nat.shiftLeft_eq ..
    _ < 2 ^ 16 * 2 ^ (16 * position) := Nat.mul_lt_mul_of_pos_right small (Nat.two_pow_pos _)
    _ = 2 ^ (16 * position + 16) := by rw [← Nat.pow_add, Nat.add_comm]
    _ ≤ 2 ^ 2 ^ whole := Nat.pow_le_pow_right (by decide) room

/-- The complement of a half-word at a position is no half-word at a position, unless the register
has just two of them and the half-word is full. -/
theorem position?_complement {half position value whole : Nat} (sizes : whole = 5 ∨ whole = 6)
    (small : half < 2 ^ 16) (inside : position < 2 ^ whole / 16)
    (proper : whole = 5 → half ≠ 0xffff)
    (complement : half <<< (16 * position) + value = 2 ^ 2 ^ whole - 1) :
    position? value (2 ^ whole) = none := by
  cases found : position? value (2 ^ whole) with
  | none => rfl
  | some other =>
    exfalso
    obtain ⟨below, fits, _⟩ := position?_eq_some found
    have same : value = ((value >>> (16 * other)) % 2 ^ 16) <<< (16 * other) := eq_of_beq fits
    have small' : (value >>> (16 * other)) % 2 ^ 16 < 2 ^ 16 := Nat.mod_lt _ (by decide)
    generalize (value >>> (16 * other)) % 2 ^ 16 = half' at same small'
    subst same
    rw [Nat.shiftLeft_eq, Nat.shiftLeft_eq] at complement
    rcases sizes with rfl | rfl
    · have notFull := proper rfl
      have two {place : Nat} (within : place < 2) : place = 0 ∨ place = 1 := by omega
      rcases two inside with rfl | rfl <;> rcases two below with rfl | rfl <;> omega
    · have four {place : Nat} (within : place < 4) :
          place = 0 ∨ place = 1 ∨ place = 2 ∨ place = 3 := by omega
      rcases four inside with rfl | rfl | rfl | rfl <;>
        rcases four below with rfl | rfl | rfl | rfl <;> omega

end WideImmediate

end A64Machine
