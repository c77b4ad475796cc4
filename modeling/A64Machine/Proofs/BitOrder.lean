import A64Machine.Proofs.Bits

/-!
# The order of bits and bytes

A reversal moves places: every bit, or every byte of a group, comes from the place that is as far from
the other end. Done twice it therefore changes nothing. The number of leading zeros is told by the
powers of two around a number, and the number of leading sign bits by the first bit below the top that
differs from it.
-/

namespace A64Machine.Bits

/-! ### Reversed units -/

/-- The lowest `count` units of some number of bits in the opposite order. The units are single bits
in a reversal of bits and bytes in one of bytes. -/
def reverseUnits (unit value : Nat) : (count : Nat) → Nat
  | 0 => 0
  | count + 1 => (value % 2 ^ unit) <<< (unit * count) ||| reverseUnits unit (value >>> unit) count

theorem reverseBits_eq (value width : Nat) : reverseBits value width = reverseUnits 1 value width := by
  induction width generalizing value with
  | zero => rfl
  | succ width ih => rw [reverseBits, ih, reverseUnits, Nat.pow_one, Nat.one_mul]

theorem swapBytes_eq (value count : Nat) : swapBytes value count = reverseUnits 8 value count := by
  induction count generalizing value with
  | zero => rfl
  | succ count ih => rw [swapBytes, ih, reverseUnits, show (256 : Nat) = 2 ^ 8 from rfl]

theorem reverseUnits_lt (unit value count : Nat) :
    reverseUnits unit value count < 2 ^ (unit * count) := by
  induction count generalizing value with
  | zero => exact Nat.two_pow_pos _
  | succ count ih =>
    rw [reverseUnits, Nat.mul_succ]
    apply Nat.or_lt_two_pow
    · rw [Nat.add_comm, Nat.pow_add, Nat.shiftLeft_eq]
      exact Nat.mul_lt_mul_of_pos_right (Nat.mod_lt _ (Nat.two_pow_pos unit)) (Nat.two_pow_pos _)
    · exact Nat.lt_of_lt_of_le (ih _) (Nat.pow_le_pow_right (by decide) (Nat.le_add_right _ _))

/-- A unit comes from the place as far from the other end. -/
theorem testBit_reverseUnits {unit index count bit : Nat} (value : Nat) (inside : index < count)
    (near : bit < unit) :
    (reverseUnits unit value count).testBit (unit * index + bit) =
      value.testBit (unit * (count - 1 - index) + bit) := by
  induction count generalizing value with
  | zero => contradiction
  | succ count ih =>
    rw [reverseUnits, Nat.testBit_or, Nat.testBit_shiftLeft, Nat.testBit_mod_two_pow]
    rcases Nat.lt_succ_iff_lt_or_eq.mp inside with earlier | rfl
    · have below : unit * index + bit < unit * count := by
        have := Nat.mul_le_mul_left unit (Nat.succ_le_of_lt earlier)
        rw [Nat.mul_succ] at this
        omega
      have next : count + 1 - 1 - index = count - 1 - index + 1 := by omega
      rw [decide_eq_false (by omega : ¬unit * count ≤ unit * index + bit), Bool.false_and,
        Bool.false_or, ih _ earlier, Nat.testBit_shiftRight, next, Nat.mul_succ, Nat.add_comm unit,
        Nat.add_right_comm]
    · have beyond : reverseUnits unit (value >>> unit) index < 2 ^ (unit * index + bit) :=
        Nat.lt_of_lt_of_le (reverseUnits_lt _ _ _)
          (Nat.pow_le_pow_right (by decide) (Nat.le_add_right _ _))
      simp [Nat.testBit_lt_two_pow beyond, near]

/-- The bits of a number from the other end. -/
theorem testBit_reverseBits {width bit : Nat} (value : Nat) (below : bit < width) :
    (reverseBits value width).testBit bit = value.testBit (width - 1 - bit) := by
  simpa [reverseBits_eq] using testBit_reverseUnits value below Nat.one_pos

theorem reverseBits_lt (value width : Nat) : reverseBits value width < 2 ^ width := by
  simpa [reverseBits_eq] using reverseUnits_lt 1 value width

theorem reverseBits_reverseBits {value width : Nat} (small : value < 2 ^ width) :
    reverseBits (reverseBits value width) width = value := by
  refine eq_of_testBit_lt (reverseBits_lt _ _) small fun bit below => ?_
  rw [testBit_reverseBits _ below, testBit_reverseBits _ (by omega)]
  congr 1
  omega

/-! ### Reversed bytes -/

/-- The byte of a number at a place, counted from the lowest. -/
def byteAt (value place : Nat) : Nat := value >>> (8 * place) % 256

theorem testBit_byteAt (value place bit : Nat) :
    (byteAt value place).testBit bit = (decide (bit < 8) && value.testBit (8 * place + bit)) := by
  rw [byteAt, show (256 : Nat) = 2 ^ 8 from rfl, Nat.testBit_mod_two_pow, Nat.testBit_shiftRight]

/-- Numbers are equal when their bytes are. -/
theorem eq_of_byteAt {count x y : Nat} (smallX : x < 2 ^ (8 * count)) (smallY : y < 2 ^ (8 * count))
    (same : ∀ place < count, byteAt x place = byteAt y place) : x = y := by
  refine eq_of_testBit_lt smallX smallY fun bit below => ?_
  have bits := congrArg (Nat.testBit · (bit % 8)) (same (bit / 8) (by omega))
  simpa only [testBit_byteAt, Nat.div_add_mod, Nat.mod_lt bit (show 8 > 0 by decide), decide_true,
    Bool.true_and] using bits

section Bytes

variable {count : Nat} (positive : 0 < count) (value groups : Nat)

include positive

/-- A reversal in groups of bytes lays the reversed groups side by side. -/
theorem reverseBytes_eq : reverseBytes value (8 * count * groups) (8 * count) =
    (List.range groups).foldl (fun laid index =>
      laid ||| reverseUnits 8 (value >>> (index * (8 * count))) count <<< (index * (8 * count))) 0 := by
  have copies : (8 * count * groups + 8 * count - 1) / (8 * count) = groups := by
    rw [Nat.add_sub_assoc (by omega), Nat.mul_add_div (by omega), Nat.div_eq_of_lt (by omega),
      Nat.add_zero]
  simp only [reverseBytes, copies, swapBytes_eq, Nat.mul_div_cancel_left count (show 0 < 8 by decide)]

theorem reverseBytes_lt :
    reverseBytes value (8 * count * groups) (8 * count) < 2 ^ (8 * count * groups) := by
  rw [reverseBytes_eq positive]
  exact foldl_shiftLeft_lt _ (fun _ => reverseUnits_lt 8 _ count) groups

/-- Every byte of a group comes from the place as far from the other end of the group. -/
theorem byteAt_reverseBytes {group index : Nat} (among : group < groups) (inside : index < count) :
    byteAt (reverseBytes value (8 * count * groups) (8 * count)) (count * group + index) =
      byteAt value (count * group + (count - 1 - index)) := by
  apply Nat.eq_of_testBit_eq
  intro bit
  rw [testBit_byteAt, testBit_byteAt]
  by_cases near : bit < 8
  · have place (index : Nat) :
        8 * (count * group + index) + bit = 8 * count * group + (8 * index + bit) := by
      rw [Nat.mul_add, Nat.mul_assoc, Nat.add_assoc]
    rw [place, place, reverseBytes_eq positive, testBit_foldl_shiftLeft _
      (fun _ => reverseUnits_lt 8 _ count) among (by omega), testBit_reverseUnits _ inside near,
      Nat.testBit_shiftRight, Nat.mul_comm group]
  · simp [near]

theorem reverseBytes_reverseBytes {value : Nat} (small : value < 2 ^ (8 * count * groups)) :
    reverseBytes (reverseBytes value (8 * count * groups) (8 * count)) (8 * count * groups)
      (8 * count) = value := by
  have first := reverseBytes_lt positive value groups
  have second := reverseBytes_lt positive
    (reverseBytes value (8 * count * groups) (8 * count)) groups
  generalize again : reverseBytes (reverseBytes _ _ _) _ _ = twice at second ⊢
  rw [Nat.mul_assoc] at second small
  refine eq_of_byteAt second small fun place below => ?_
  have among : place / count < groups := (Nat.div_lt_iff_lt_mul positive).mpr (by rwa [Nat.mul_comm])
  have inside := Nat.mod_lt place positive
  rw [← Nat.div_add_mod place count, ← again, byteAt_reverseBytes positive _ _ among inside,
    byteAt_reverseBytes positive _ _ among (by omega)]
  congr 2
  omega

end Bytes

/-! ### Leading bits -/

/-- The leading zeros of a number are all its bits, or they end below a power of two. -/
theorem leadingZeros_spec {value width : Nat} (small : value < 2 ^ width) :
    if value = 0 then leadingZeros value width = width
    else leadingZeros value width < width ∧
      2 ^ (width - 1 - leadingZeros value width) ≤ value ∧
      value < 2 ^ (width - leadingZeros value width) := by
  rw [leadingZeros, Nat.mod_eq_of_lt small, bitLength]
  split
  · rfl
  · rename_i nonzero
    have lower := Nat.log2_self_le nonzero
    have upper := @Nat.lt_log2_self value
    have inside : value.log2 < width := (Nat.log2_lt nonzero).mpr small
    rw [show width - 1 - (width - (value.log2 + 1)) = value.log2 by omega,
      show width - (width - (value.log2 + 1)) = value.log2 + 1 by omega]
    exact ⟨by omega, lower, upper⟩

/-- The leading zeros of a number are clear bits behind which a set one stands. -/
theorem testBit_leadingZeros {value width : Nat} (small : value < 2 ^ width) :
    leadingZeros value width ≤ width ∧
      (∀ index < leadingZeros value width, value.testBit (width - 1 - index) = false) ∧
      (leadingZeros value width < width →
        value.testBit (width - 1 - leadingZeros value width) = true) := by
  have told := leadingZeros_spec small
  split at told
  · rename_i zero
    rw [told, zero]
    exact ⟨Nat.le_refl _, fun _ _ => Nat.zero_testBit _, fun less => absurd less (Nat.lt_irrefl _)⟩
  · obtain ⟨below, lower, upper⟩ := told
    refine ⟨Nat.le_of_lt below, fun index before => ?_, fun _ => ?_⟩
    · exact Nat.testBit_lt_two_pow (Nat.lt_of_lt_of_le upper
        (Nat.pow_le_pow_right (by decide) (by omega)))
    · refine Nat.testBit_of_two_pow_le_and_two_pow_add_one_gt lower ?_
      rwa [show width - 1 - leadingZeros value width + 1 = width - leadingZeros value width by omega]

/-- The leading sign bits of a number of some width: so many bits directly below the top one are equal
to it, and the next one is not. -/
structure IsLeadingSign (width value count : Nat) : Prop where
  below : count < width
  equal : ∀ index < count, value.testBit (width - 2 - index) = value.testBit (width - 1)
  differs : count + 1 < width → value.testBit (width - 2 - count) ≠ value.testBit (width - 1)

/-- The bits that differ from their upper neighbour. -/
theorem testBit_changes {value width bit : Nat} (below : bit < width) :
    ((value >>> 1 ^^^ value) % 2 ^ width).testBit bit =
      (value.testBit (bit + 1) ^^ value.testBit bit) := by
  rw [Nat.testBit_mod_two_pow, Nat.testBit_xor, Nat.testBit_shiftRight, decide_eq_true below,
    Bool.true_and, Nat.add_comm]

theorem isLeadingSign_leadingSignBits {width : Nat} (positive : 0 < width) (value : Nat) :
    IsLeadingSign width value (leadingSignBits value width) := by
  obtain ⟨rest, rfl⟩ : ∃ rest, width = rest + 1 := ⟨width - 1, by omega⟩
  have counted : leadingSignBits value (rest + 1) =
      leadingZeros ((value >>> 1 ^^^ value) % 2 ^ rest) rest := by
    rw [leadingSignBits, leadingZeros, leadingZeros, Nat.mod_mod, Nat.add_sub_cancel]
  obtain ⟨bounded, clear, set⟩ := testBit_leadingZeros
    (Nat.mod_lt (value >>> 1 ^^^ value) (Nat.two_pow_pos rest))
  rw [← counted] at bounded clear set
  generalize leadingSignBits value (rest + 1) = count at bounded clear set
  -- the bits are equal one after the other, from the top down
  have equal : ∀ index ≤ count, value.testBit (rest - index) = value.testBit rest := by
    intro index
    induction index with
    | zero => exact fun _ => rfl
    | succ index ih =>
      intro within
      have unchanged := clear index within
      rw [testBit_changes (by omega), show rest - 1 - index + 1 = rest - index by omega,
        ih (by omega), show rest - 1 - index = rest - (index + 1) by omega] at unchanged
      have same : value.testBit rest = value.testBit (rest - (index + 1)) := by simpa using unchanged
      exact same.symm
  refine ⟨by omega, fun index before => ?_, fun less => ?_⟩
  · rw [show rest + 1 - 2 - index = rest - (index + 1) by omega]
    exact equal (index + 1) before
  · have changed := set (by omega)
    rw [testBit_changes (by omega), show rest - 1 - count + 1 = rest - count by omega,
      equal count (Nat.le_refl _)] at changed
    rw [show rest + 1 - 2 - count = rest - 1 - count by omega]
    intro same
    simp [same] at changed

namespace IsLeadingSign

variable {width value count : Nat}

/-- Only one count is that of the leading sign bits. -/
theorem unique (is : IsLeadingSign width value count) {other : Nat}
    (is' : IsLeadingSign width value other) : count = other := by
  rcases Nat.lt_trichotomy count other with less | same | more
  · exact absurd (is'.equal count less) (is.differs (by have := is'.below; omega))
  · exact same
  · exact absurd (is.equal other more) (is'.differs (by have := is.below; omega))

/-- The complement has the same leading sign bits. -/
theorem complement (is : IsLeadingSign width value count) (small : value < 2 ^ width) :
    IsLeadingSign width (2 ^ width - 1 - value) count := by
  have bits (bit : Nat) (below : bit < width) :
      (2 ^ width - 1 - value).testBit bit = !value.testBit bit := by
    rw [Nat.sub_sub, Nat.add_comm, Nat.testBit_two_pow_sub_succ small, decide_eq_true below,
      Bool.true_and]
  have inside := is.below
  refine ⟨is.below, fun index before => ?_, fun less => ?_⟩
  · rw [bits _ (by omega), bits _ (by omega), is.equal index before]
  · rw [bits _ (by omega), bits _ (by omega)]
    exact fun same => is.differs less (Bool.not_inj same)

/-- When all bits are equal, all bits below the top one count. -/
theorem eq_of_all (is : IsLeadingSign width value count) {bit : Bool}
    (all : ∀ place < width, value.testBit place = bit) : count = width - 1 := by
  have below := is.below
  refine Decidable.byContradiction fun fewer => is.differs (by omega) ?_
  rw [all _ (by omega), all _ (by omega)]

end IsLeadingSign

end A64Machine.Bits
