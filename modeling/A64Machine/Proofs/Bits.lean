import A64Machine.Bits

/-!
# Readings of a number, bit by bit

A number is its bits. Each operation on fixed-width numbers is described here by the bits of its
result, so that facts about rotated and repeated values become facts about positions.
-/

namespace A64Machine.Bits

/-- A mask has the bits below its width. -/
theorem testBit_mask (width bit : Nat) : (mask width).testBit bit = decide (bit < width) :=
  Nat.testBit_two_pow_sub_one width bit

/-- A mask of some width is one less than a power of two. -/
theorem mask_add_one (width : Nat) : mask width + 1 = 2 ^ width := by
  have := Nat.two_pow_pos width
  unfold mask
  omega

/-- A reduced integer fits the width. -/
theorem wrap_lt (width : Nat) (value : Int) : wrap width value < 2 ^ width := by
  have positive : (0 : Int) < (2 ^ width : Nat) := Int.natCast_pos.mpr (Nat.two_pow_pos width)
  have below := Int.emod_lt_of_pos value positive
  have nonnegative := Int.emod_nonneg value (Int.ne_of_gt positive)
  unfold wrap
  omega

/-- Reducing a natural number is taking its remainder. -/
theorem wrap_natCast (width value : Nat) : wrap width (value : Int) = value % 2 ^ width := by
  rw [wrap, ← Int.natCast_emod, Int.toNat_natCast]

/-- A number that fits the width is not changed by the reduction. -/
theorem wrap_of_lt {width value : Nat} (fits : value < 2 ^ width) :
    wrap width (value : Int) = value := by
  rw [wrap_natCast, Nat.mod_eq_of_lt fits]

/-- The representative of an integer is its remainder. -/
theorem natCast_wrap (width : Nat) (value : Int) :
    (wrap width value : Int) = value % (2 ^ width : Nat) :=
  Int.toNat_of_nonneg (Int.emod_nonneg _ (Int.natCast_ne_zero.mpr (Nat.ne_of_gt (Nat.two_pow_pos width))))

/-- A sum may be reduced in its second part first. -/
theorem wrap_add_wrap (width : Nat) (x y : Int) :
    wrap width (x + wrap width y) = wrap width (x + y) := by
  rw [natCast_wrap, wrap, wrap, Int.add_emod_emod]

/-- Numbers of a width are equal when their bits below the width are. -/
theorem eq_of_testBit_lt {width x y : Nat} (smallX : x < 2 ^ width) (smallY : y < 2 ^ width)
    (same : ∀ bit < width, x.testBit bit = y.testBit bit) : x = y := by
  apply Nat.eq_of_testBit_eq
  intro bit
  by_cases below : bit < width
  · exact same bit below
  · have beyond : 2 ^ width ≤ 2 ^ bit := Nat.pow_le_pow_right (by decide) (Nat.le_of_not_lt below)
    rw [Nat.testBit_lt_two_pow (Nat.lt_of_lt_of_le smallX beyond),
      Nat.testBit_lt_two_pow (Nat.lt_of_lt_of_le smallY beyond)]

/-- A turned value fits the width. -/
theorem rotateRight_lt (value amount width : Nat) : rotateRight value amount width < 2 ^ width :=
  Nat.mod_lt _ (Nat.two_pow_pos width)

/-- Turning right moves the bit at a distance above down to each place, around the end. -/
theorem testBit_rotateRight (value amount : Nat) {width bit : Nat} (below : bit < width) :
    (rotateRight value amount width).testBit bit = value.testBit ((bit + amount) % width) := by
  have positive : 0 < width := Nat.lt_of_le_of_lt (Nat.zero_le _) below
  have small := Nat.mod_lt amount positive
  have reduced : (bit + amount) % width = (bit + amount % width) % width := by
    rw [Nat.add_mod, Nat.add_mod bit (amount % width), Nat.mod_mod]
  simp only [rotateRight, Nat.testBit_mod_two_pow, Nat.testBit_or, Nat.testBit_shiftRight,
    Nat.testBit_shiftLeft, below, decide_true, Bool.true_and]
  rw [reduced]
  by_cases around : bit + amount % width < width
  · have first : ¬ width - amount % width ≤ bit := by omega
    simp [Nat.mod_eq_of_lt around, first, around, Nat.add_comm (amount % width)]
  · have first : ¬ amount % width + bit < width := by omega
    have second : width - amount % width ≤ bit := by omega
    have wrapped : (bit + amount % width) % width = bit - (width - amount % width) := by
      rw [Nat.mod_eq_sub_mod (Nat.le_of_not_lt around), Nat.mod_eq_of_lt (by omega)]
      omega
    have third : bit - (width - amount % width) < width := by omega
    simp [wrapped, first, second, third]

/-- The bits of values that are laid over each other. -/
theorem testBit_foldl_or (pieces : Nat → Nat) (indices : List Nat) (start bit : Nat) :
    (indices.foldl (fun laid index => laid ||| pieces index) start).testBit bit =
      (start.testBit bit || indices.any fun index => (pieces index).testBit bit) := by
  induction indices generalizing start with
  | nil => simp
  | cons index rest ih => rw [List.foldl_cons, ih]; simp [Bool.or_assoc]

/-- The bits of pieces of one size that are laid side by side. -/
theorem testBit_foldl_shiftLeft {size count group bit : Nat} (pieces : Nat → Nat)
    (small : ∀ index, pieces index < 2 ^ size) (inside : group < count) (near : bit < size) :
    ((List.range count).foldl (fun laid index => laid ||| pieces index <<< (index * size)) 0).testBit
        (size * group + bit) = (pieces group).testBit bit := by
  rw [testBit_foldl_or, Nat.zero_testBit, Bool.false_or, Bool.eq_iff_iff]
  simp only [List.any_eq_true, List.mem_range, Nat.testBit_shiftLeft, Bool.and_eq_true,
    decide_eq_true_eq]
  constructor
  · rintro ⟨index, -, starts, set⟩
    have within : size * group + bit - index * size < size :=
      Decidable.byContradiction fun far => by
        rw [Nat.testBit_lt_two_pow (Nat.lt_of_lt_of_le (small index)
          (Nat.pow_le_pow_right (by decide) (Nat.le_of_not_lt far)))] at set
        contradiction
    have here : index = group := by
      have quotient : (size * group + bit) / size = index :=
        (Nat.div_eq_iff (by omega)).mpr ⟨starts, by omega⟩
      rw [← quotient, Nat.mul_add_div (by omega), Nat.div_eq_of_lt near, Nat.add_zero]
    rw [here, Nat.mul_comm group, Nat.add_sub_cancel_left] at set
    exact set
  · intro set
    refine ⟨group, inside, by rw [Nat.mul_comm]; exact Nat.le_add_right _ _, ?_⟩
    rwa [Nat.mul_comm group, Nat.add_sub_cancel_left]

/-- Pieces of one size that are laid side by side have the bits of all. -/
theorem foldl_shiftLeft_lt {size : Nat} (pieces : Nat → Nat)
    (small : ∀ index, pieces index < 2 ^ size) (count : Nat) :
    (List.range count).foldl (fun laid index => laid ||| pieces index <<< (index * size)) 0 <
      2 ^ (size * count) := by
  induction count with
  | zero => exact Nat.two_pow_pos _
  | succ count ih =>
    rw [List.range_succ, List.foldl_append]
    refine Nat.or_lt_two_pow (Nat.lt_of_lt_of_le ih
      (Nat.pow_le_pow_right (by decide) (Nat.mul_le_mul_left _ (Nat.le_succ count)))) ?_
    rw [Nat.shiftLeft_eq, Nat.mul_succ, Nat.add_comm, Nat.pow_add, Nat.mul_comm count]
    exact Nat.mul_lt_mul_of_pos_right (small count) (Nat.two_pow_pos _)

/-- Repeating an element lays its copies side by side. -/
theorem replicate_eq (element : Nat) {size : Nat} (positive : 0 < size) (count : Nat) :
    replicate element size (size * count) =
      (List.range count).foldl (fun copies index => copies ||| element <<< (index * size)) 0 := by
  rw [replicate, Nat.add_sub_assoc positive, Nat.mul_add_div positive, Nat.div_eq_of_lt (by omega),
    Nat.add_zero]

/-- A repeated element fits the width. -/
theorem replicate_lt {element size : Nat} (small : element < 2 ^ size) (positive : 0 < size)
    (count : Nat) : replicate element size (size * count) < 2 ^ (size * count) := by
  rw [replicate_eq element positive]
  exact foldl_shiftLeft_lt _ (fun _ => small) count

/-- Repeating an element puts its bits at every multiple of its size. -/
theorem testBit_replicate {element size : Nat} (small : element < 2 ^ size) (positive : 0 < size)
    {count bit : Nat} :
    (replicate element size (size * count)).testBit bit =
      (decide (bit < size * count) && element.testBit (bit % size)) := by
  by_cases below : bit < size * count
  · have among : bit / size < count := (Nat.div_lt_iff_lt_mul positive).mpr (by rwa [Nat.mul_comm])
    have laid := testBit_foldl_shiftLeft (fun _ => element) (fun _ => small) among
      (Nat.mod_lt bit positive)
    rwa [Nat.div_add_mod, ← replicate_eq element positive,
      ← Bool.true_and (element.testBit _), ← decide_eq_true below] at laid
  · rw [decide_eq_false below, Bool.false_and]
    exact Nat.testBit_lt_two_pow (Nat.lt_of_lt_of_le (replicate_lt small positive count)
      (Nat.pow_le_pow_right (by decide) (Nat.le_of_not_lt below)))

end A64Machine.Bits
