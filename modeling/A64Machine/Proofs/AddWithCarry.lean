import A64Machine.Proofs.AssembledStep

/-!
# Sums and their flags

A sum of two numbers and a carry at some size is described by its result and by the flags that it
leaves: the carry flag counts what does not fit, the negative flag is the top bit of the result, and
the overflow flag says that the signed sum is no number of the size. The carry flag of a lower part
goes into the sum of the upper part, and both together are the sum of the whole with the flags of the
upper part. A difference is a sum with the complement.
-/

namespace A64Machine

namespace Bits

/-- Whether an integer is a two's complement number of some size. -/
def IsSigned (size : Nat) (value : Int) : Prop :=
  -(2 ^ (size - 1) : Nat) ≤ value ∧ value < (2 ^ (size - 1) : Nat)

instance (size : Nat) (value : Int) : Decidable (IsSigned size value) :=
  inferInstanceAs (Decidable (_ ∧ _))

variable {size value : Nat}

/-- A power of two above the first is twice the one before it. -/
theorem two_pow_eq_double (positive : 0 < size) : 2 ^ size = 2 * 2 ^ (size - 1) := by
  obtain ⟨below, rfl⟩ : ∃ below, size = below + 1 := ⟨size - 1, by omega⟩
  rw [Nat.add_sub_cancel, Nat.pow_succ, Nat.mul_comm]

/-- The top bit of a number of some size tells whether it is in the upper half. -/
theorem testBit_top (positive : 0 < size) (small : value < 2 ^ size) :
    value.testBit (size - 1) = true ↔ 2 ^ (size - 1) ≤ value := by
  have whole := two_pow_eq_double positive
  rw [Nat.testBit_eq_decide_div_mod_eq, decide_eq_true_eq]
  by_cases upper : 2 ^ (size - 1) ≤ value
  · have once : value / 2 ^ (size - 1) = 1 := Nat.div_eq_of_lt_le (by omega) (by omega)
    exact iff_of_true (by rw [once]) upper
  · rw [Nat.div_eq_of_lt (by omega)]
    exact iff_of_false (by decide) upper

/-- A two's complement reading is a number of the size. -/
theorem isSigned_signExtend (positive : 0 < size) (value : Int) :
    IsSigned size (signExtend value size) := by
  obtain ⟨below, rfl⟩ : ∃ below, size = below + 1 := ⟨size - 1, by omega⟩
  exact signExtend_bounds below value

/-- An integer is read back from its representative exactly when it is a number of the size. -/
theorem signExtend_wrap_iff (positive : 0 < size) (value : Int) :
    signExtend (wrap size value) size = value ↔ IsSigned size value := by
  constructor
  · intro same
    rw [← same]
    exact isSigned_signExtend positive _
  · rintro ⟨least, most⟩
    exact signExtend_wrap positive least most

/-- All bits of a number of some size turned over. -/
def complement (size value : Nat) : Nat := 2 ^ size - 1 - value

theorem complement_lt (size value : Nat) : complement size value < 2 ^ size := by
  have := Nat.two_pow_pos size
  rw [complement]
  omega

/-- The complement stands for the number below the negated one. -/
theorem wrap_neg_one_sub (small : value < 2 ^ size) :
    wrap size (-1 - value) = complement size value := by
  have sum := add_wrap_complement small
  rw [complement]
  omega

/-- The complement of a signed number is the one below the negated one. -/
theorem signExtend_complement (positive : 0 < size) (small : value < 2 ^ size) :
    signExtend (complement size value) size = -1 - signExtend value size := by
  have whole := two_pow_eq_double positive
  rw [signExtend_eq positive (complement_lt size value), signExtend_eq positive small, complement]
  split <;> split <;> omega

end Bits

open Bits

/-! ### Sums -/

/-- A sum of two numbers and a carry has a result of some size and leaves flags: carry for what does
not fit, negative for the top bit, and overflow when the signed sum is no number of the size. -/
structure Sums (size x y carry result : Nat) (flags : Flags) : Prop where
  left : x < 2 ^ size
  right : y < 2 ^ size
  small : result < 2 ^ size
  total : x + y + carry = flags.c.toNat * 2 ^ size + result
  negative : flags.n = true ↔ 2 ^ (size - 1) ≤ result
  overflow : flags.v = true ↔ ¬IsSigned size (signExtend x size + signExtend y size + carry)

section Sums

variable {size x y carry result : Nat} {flags : Flags}

/-- The result of a sum is its remainder. -/
theorem addWithCarry_result (left : x < 2 ^ size) (right : y < 2 ^ size) :
    (addWithCarry x y carry size).1 = (x + y + carry) % 2 ^ size := by
  simp only [addWithCarry, Nat.mod_eq_of_lt left, Nat.mod_eq_of_lt right, ← Int.natCast_add,
    wrap_natCast]

/-- The signed sum has the representative of the sum. -/
theorem wrap_signed_sum (size x y carry : Nat) :
    wrap size (signExtend x size + signExtend y size + carry) = (x + y + carry) % 2 ^ size := by
  rw [← wrap_natCast, wrap, wrap, signExtend, signExtend, Int.natCast_add, Int.natCast_add,
    ← Int.emod_add_emod, Int.add_emod (Int.bmod _ _), Int.bmod_emod, Int.bmod_emod, ← Int.add_emod,
    Int.emod_add_emod]

/-- The sum with a carry has the flags that describe it. -/
theorem sums_addWithCarry (positive : 0 < size) (left : x < 2 ^ size) (right : y < 2 ^ size)
    (single : carry ≤ 1) :
    Sums size x y carry (addWithCarry x y carry size).1 (addWithCarry x y carry size).2 := by
  have result : (addWithCarry x y carry size).1 = _ := addWithCarry_result left right
  have unsigned : ((x % 2 ^ size + y % 2 ^ size : Nat) : Int) + carry = (x + y + carry : Nat) := by
    rw [Nat.mod_eq_of_lt left, Nat.mod_eq_of_lt right]
    omega
  refine ⟨left, right, result ▸ Nat.mod_lt _ (Nat.two_pow_pos size), ?_, decide_eq_true_iff, ?_⟩
  · rw [result]
    simp only [addWithCarry, unsigned, wrap_natCast]
    by_cases fits : x + y + carry < 2 ^ size
    · simp [Nat.mod_eq_of_lt fits]
    · have rest : (x + y + carry) % 2 ^ size = x + y + carry - 2 ^ size := by
        rw [Nat.mod_eq_sub_mod (Nat.le_of_not_lt fits), Nat.mod_eq_of_lt (by omega)]
      have carries : ((x + y + carry : Nat) : Int) ≠ (x + y + carry - 2 ^ size : Nat) := by omega
      rw [rest, decide_eq_true carries, Bool.toNat_true, Nat.one_mul,
        Nat.add_sub_cancel' (Nat.le_of_not_lt fits)]
  · simp only [addWithCarry, unsigned, wrap_natCast, ← wrap_signed_sum, decide_eq_true_eq]
    exact not_congr (signExtend_wrap_iff positive _)

/-! ### Parts -/

variable {m n low high : Nat}

/-- The upper part of a number tells whether it is below a power of two of the lower part. -/
theorem join_lt_iff (small : low < 2 ^ m) (n : Nat) :
    low + 2 ^ m * high < 2 ^ (m + n) ↔ high < 2 ^ n := by
  rw [Nat.pow_add, Nat.mul_comm (2 ^ m) (2 ^ n), ← Nat.div_lt_iff_lt_mul (Nat.two_pow_pos m),
    Nat.add_mul_div_left _ _ (Nat.two_pow_pos m), Nat.div_eq_of_lt small, Nat.zero_add]

/-- A number of two parts is signed as its upper part is. -/
theorem signExtend_join (positive : 0 < n) (small : low < 2 ^ m) (small' : high < 2 ^ n) :
    signExtend (low + 2 ^ m * high : Nat) (m + n) = low + (2 ^ m : Nat) * signExtend high n := by
  rw [signExtend_eq (by omega) ((join_lt_iff small n).mpr small'), Nat.add_sub_assoc positive,
    signExtend_eq positive small']
  simp only [join_lt_iff small]
  split
  · rw [Int.natCast_add, Int.natCast_mul]
  · rw [Nat.pow_add, Int.mul_sub, Int.natCast_add, Int.natCast_mul, Int.natCast_mul]
    omega

/-- The upper part tells whether an integer is a number of both sizes together. -/
theorem isSigned_join_iff (positive : 0 < n) (small : low < 2 ^ m) (high : Int) :
    IsSigned (m + n) (low + (2 ^ m : Nat) * high) ↔ IsSigned n high := by
  have unit : (0 : Int) < (2 ^ m : Nat) := by have := Nat.two_pow_pos m; omega
  have upper : ((low : Int) + (2 ^ m : Nat) * high) / (2 ^ m : Nat) = high := by
    rw [Int.add_mul_ediv_left _ _ (Int.ne_of_gt unit), Int.ediv_eq_zero_of_lt (by omega) (by omega),
      Int.zero_add]
  rw [IsSigned, IsSigned, Nat.add_sub_assoc positive, Nat.pow_add, Int.natCast_mul, Int.mul_comm
    (2 ^ m : Nat) (2 ^ (n - 1) : Nat), ← Int.neg_mul, ← Int.le_ediv_iff_mul_le unit,
    ← Int.ediv_lt_iff_lt_mul unit, upper]

/-- The sums of the parts are the sum of the whole when the carry of the lower part goes into the
upper one. -/
theorem Sums.join {x' y' result' : Nat} {flags' : Flags} (positive : 0 < n)
    (lower : Sums m x y carry result flags)
    (upper : Sums n x' y' flags.c.toNat result' flags') :
    Sums (m + n) (x + 2 ^ m * x') (y + 2 ^ m * y') carry (result + 2 ^ m * result') flags' where
  left := (join_lt_iff lower.left n).mpr upper.left
  right := (join_lt_iff lower.right n).mpr upper.right
  small := (join_lt_iff lower.small n).mpr upper.small
  total := by
    have total := congrArg (2 ^ m * ·) upper.total
    simp only [Nat.mul_add] at total
    have moved : flags'.c.toNat * 2 ^ (m + n) = 2 ^ m * (flags'.c.toNat * 2 ^ n) := by
      rw [Nat.pow_add, Nat.mul_left_comm]
    have carried := Nat.mul_comm (2 ^ m) flags.c.toNat
    have := lower.total
    omega
  negative := by
    rw [upper.negative, Nat.add_sub_assoc positive, ← Nat.not_lt, ← Nat.not_lt,
      join_lt_iff lower.small]
  overflow := by
    have signed : signExtend (x + 2 ^ m * x' : Nat) (m + n) +
        signExtend (y + 2 ^ m * y' : Nat) (m + n) + carry =
          result + (2 ^ m : Nat) * (signExtend x' n + signExtend y' n + flags.c.toNat) := by
      rw [signExtend_join positive lower.left upper.left,
        signExtend_join positive lower.right upper.right, Int.mul_add, Int.mul_add,
        ← Int.natCast_mul (2 ^ m) flags.c.toNat, Nat.mul_comm (2 ^ m) flags.c.toNat]
      have := lower.total
      omega
    rw [upper.overflow, signed, isSigned_join_iff positive lower.small]

/-! ### Meanings -/

/-- The carry flag of a sum says that it does not fit. -/
theorem Sums.carry_iff (sums : Sums size x y 0 result flags) :
    flags.c = true ↔ 2 ^ size ≤ x + y := by
  have total := sums.total
  have small := sums.small
  cases carries : flags.c <;>
    simp only [carries, Bool.toNat_false, Bool.toNat_true, Bool.false_eq_true, false_iff,
      true_iff] at total ⊢ <;>
    omega

/-- The result of a sum is its remainder. -/
theorem Sums.result_eq (sums : Sums size x y 0 result flags) : result = (x + y) % 2 ^ size := by
  rw [← Nat.add_zero (x + y), sums.total, Nat.mul_comm, Nat.mul_add_mod, Nat.mod_eq_of_lt sums.small]

/-- The overflow flag of a sum says that the signed sum does not fit. -/
theorem Sums.overflow_iff (sums : Sums size x y 0 result flags) :
    flags.v = true ↔ ¬IsSigned size (signExtend x size + signExtend y size) := by
  rw [sums.overflow, Int.natCast_zero, Int.add_zero]

/-- A difference is exact up to the borrow, which is there when the carry flag is not. -/
theorem Sums.total_sub (sums : Sums size x (complement size y) 1 result flags) (small : y < 2 ^ size) :
    (x : Int) - y = result - ((!flags.c).toNat * 2 ^ size : Nat) := by
  have total := sums.total
  rw [complement] at total
  cases carries : flags.c <;>
    simp only [carries, Bool.toNat_false, Bool.toNat_true, Bool.not_false, Bool.not_true] at total ⊢ <;>
    omega

/-- The carry flag of a difference says that it is not negative. -/
theorem Sums.carry_iff_sub (sums : Sums size x (complement size y) 1 result flags)
    (small : y < 2 ^ size) : flags.c = true ↔ y ≤ x := by
  have total := sums.total_sub small
  have fits := sums.small
  cases carries : flags.c <;>
    simp only [carries, Bool.toNat_false, Bool.toNat_true, Bool.not_false, Bool.not_true,
      Bool.false_eq_true, false_iff, true_iff] at total ⊢ <;>
    omega

/-- The result of a difference represents it. -/
theorem Sums.result_eq_sub (sums : Sums size x (complement size y) 1 result flags)
    (small : y < 2 ^ size) : result = wrap size ((x : Int) - y) := by
  rw [sums.total_sub small, wrap, Int.natCast_mul, Int.sub_mul_emod_self_right, ← wrap,
    wrap_of_lt sums.small]

/-- The overflow flag of a difference says that the signed difference does not fit. -/
theorem Sums.overflow_iff_sub (sums : Sums size x (complement size y) 1 result flags)
    (positive : 0 < size) (small : y < 2 ^ size) :
    flags.v = true ↔ ¬IsSigned size (signExtend x size - signExtend y size) := by
  rw [sums.overflow, signExtend_complement positive small, show
    signExtend x size + (-1 - signExtend y size) + ((1 : Nat) : Int) =
      signExtend x size - signExtend y size by omega]

/-- Negative and overflow agree when the signed difference is not negative. -/
theorem Sums.negative_eq_overflow_iff (sums : Sums size x (complement size y) 1 result flags)
    (positive : 0 < size) (small : y < 2 ^ size) :
    flags.n = flags.v ↔ signExtend y size ≤ signExtend x size := by
  have whole := two_pow_eq_double positive
  have fits := sums.small
  have total := sums.total_sub small
  have negative := sums.negative
  have overflow := sums.overflow_iff_sub positive small
  have first := signExtend_eq positive sums.left
  have second := signExtend_eq positive small
  rw [IsSigned] at overflow
  rw [Bool.eq_iff_iff, negative, overflow]
  -- a difference that overflows has the sign of the other outcome
  cases carries : flags.c <;>
    simp only [carries, Bool.toNat_false, Bool.toNat_true, Bool.not_false, Bool.not_true] at total <;>
    split at first <;> split at second <;> omega

end Sums

/-! ### Execution -/

/-- The number that is added for a second operand: itself, or its complement for a subtraction. -/
def addend (subtracts : Bool) (size value : Nat) : Nat :=
  if subtracts then complement size value else value

theorem addend_lt (subtracts : Bool) {size value : Nat} (small : value < 2 ^ size) :
    addend subtracts size value < 2 ^ size := by
  unfold addend
  split
  · exact complement_lt size value
  · exact small

/-- A step leaves a sum in a register, and its flags. -/
def CoreState.ReceivesSum (before after : CoreState) (register : Register) (x y carry : Nat) :
    Prop :=
  ∃ result flags, Sums (InstructionForm.dataSize register.wide) x y carry result flags ∧
    flags.z = decide (result = 0) ∧ before.Receives after register result (.ofFlags flags)

namespace Execution

variable {instruction : Instruction} {allowed : ExecutionFault → Prop} {before : CoreState}
  {wide : Bool}

open DataProcessing

/-- An instruction leaves the sum of its first register and a second operand, or of the complement of
that, in its destination. -/
def LeavesSum (instruction : Instruction) (wide subtracts : Bool) (before : CoreState)
    (second carry : Nat) (branched : Option Nat) (after : CoreState) : Prop :=
  branched = none ∧ before.ReceivesSum after ⟨instruction.value 'd', wide⟩
    (before.contents ⟨instruction.value 'n', wide⟩)
    (addend subtracts (InstructionForm.dataSize wide) second) carry

/-- An addition or a subtraction that sets the flags leaves the sum behind steps that only read. -/
theorem ensures_addSub (subtracts : Bool) (offers : instruction.Offers ['p', 'd', 'f'])
    (code : instruction.value 'p' = subtracts.toNat) (sets : instruction.value 'f' = 1)
    {second carry : Nat} (small : second < 2 ^ InstructionForm.dataSize wide) (single : carry ≤ 1)
    {registers : RegisterFile}
    (same : ∀ slot : Nat, registers.value slot = before.registers.value slot) :
    Ensures allowed
      (addSub instruction (before.contents ⟨instruction.value 'n', wide⟩) second carry
        (InstructionForm.dataSize wide))
      (fun _ after => LeavesSum instruction wide subtracts before second carry none after)
      ⟨registers, before.status, before.memory⟩ := by
  have sums := sums_addWithCarry (InstructionSet.dataSize_range wide).1
    (before.contents_lt ⟨instruction.value 'n', wide⟩) (addend_lt subtracts small) single
  have write := CoreState.receives_of_write wide same (offers.registers 'd' (by decide))
  cases subtracts
  all_goals
    simp only [addSub, ensures_bind, ensures_field (offers.present 'p' (by decide)), code,
      ensures_writeField (offers.present 'd' (by decide)) (offers.registers 'd' (by decide)),
      ensures_field (offers.present 'f' (by decide)), sets, ensures_ite, ensures_setFlags,
      wrap_neg_one_sub small]
    exact ⟨rfl, _, _, sums, rfl, write _ _⟩

/-- A sum with the carry flag. -/
theorem ensures_addSubCarry (subtracts : Bool) (offers : instruction.Offers ['n', 'm', 'p', 'd', 'f'])
    (op : instruction.form.op = .addSubCarry)
    (code : instruction.value 'p' = subtracts.toNat) (sets : instruction.value 'f' = 1)
    (size : dataSize instruction = InstructionForm.dataSize wide) :
    Ensures allowed (perform instruction)
      (LeavesSum instruction wide subtracts before
        (before.contents ⟨instruction.value 'm', wide⟩) before.status.flags.c.toNat) before := by
  simpa [perform, op, addSubCarry, offers.present, offers.registers, size, CoreState.contents] using
    ensures_addSub subtracts (offers.mono (by decide)) code sets
      (before.contents_lt ⟨instruction.value 'm', wide⟩) (Bool.toNat_le before.status.flags.c)
      (by simp)

end Execution

end A64Machine
