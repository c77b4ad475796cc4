import A64Machine.Proofs.AddWithCarry
import Mathlib.Data.Int.ModEq

/-!
# Multiplication and division

Products and quotients of registers are told by the numbers that the registers are read as, unsigned
or in two's complement. The halves of a product of full registers make the whole product, and a
product with an addend is exact up to the power of two of the destination. A quotient is cut toward
zero, and what its multiple of the divisor leaves of the dividend is the remainder. Only the quotient
of the least number by minus one does not fit.
-/

namespace A64Machine

open Bits

/-! ### Readings -/

namespace Bits

variable {signed : Bool} {size value : Nat}

/-- A number of some size, read as an unsigned or as a two's complement number. -/
def reading (signed : Bool) (size value : Nat) : Int :=
  if signed then signExtend value size else value

@[simp] theorem reading_false (size value : Nat) : reading false size value = value :=
  if_neg Bool.false_ne_true

@[simp] theorem reading_true (size value : Nat) : reading true size value = signExtend value size :=
  if_pos rfl

/-- Whether an integer is the reading of a number of some size. -/
def IsReading (signed : Bool) (size : Nat) (value : Int) : Prop :=
  if signed then IsSigned size value else 0 ≤ value ∧ value < (2 ^ size : Nat)

theorem isReading_reading (positive : 0 < size) (small : value < 2 ^ size) :
    IsReading signed size (reading signed size value) := by
  cases signed with
  | false => exact ⟨Int.natCast_nonneg value, Int.ofNat_lt.mpr small⟩
  | true => exact isSigned_signExtend positive value

/-- A reading is read back from its representative. -/
theorem reading_wrap (positive : 0 < size) {number : Int} (fits : IsReading signed size number) :
    reading signed size (wrap size number) = number := by
  cases signed with
  | false =>
    show (wrap size number : Int) = number
    rw [natCast_wrap, Int.emod_eq_of_lt fits.1 fits.2]
  | true => exact (signExtend_wrap_iff positive number).mpr fits

/-- Both readings of a number have the same remainders. -/
theorem reading_modEq (signed : Bool) (size value : Nat) :
    reading signed size value ≡ value [ZMOD (2 ^ size : Nat)] := by
  cases signed with
  | false => rfl
  | true => exact Int.bmod_emod

theorem wrap_modEq (size : Nat) (number : Int) :
    (wrap size number : Int) ≡ number [ZMOD (2 ^ size : Nat)] := by
  rw [natCast_wrap]
  exact Int.mod_modEq number _

/-- Integers with the same remainder have the same representative. -/
theorem wrap_congr {number other : Int} (same : number ≡ other [ZMOD (2 ^ size : Nat)]) :
    wrap size number = wrap size other :=
  congrArg Int.toNat same

/-- A number is the representative of its readings. -/
theorem wrap_reading (signed : Bool) (small : value < 2 ^ size) :
    wrap size (reading signed size value) = value :=
  (wrap_congr (reading_modEq signed size value)).trans (wrap_of_lt small)

/-- How far from zero a signed number of some size is. -/
theorem natAbs_le_of_isSigned {number : Int} (fits : IsSigned size number) :
    number.natAbs ≤ 2 ^ (size - 1) := by
  obtain ⟨least, most⟩ := fits
  omega

end Bits

/-! ### Products -/

/-- Two numbers of some size are the halves of an integer: the upper one is read as a signed or an
unsigned number, and the bits of both represent the integer at twice the size. -/
structure Halves (signed : Bool) (size : Nat) (whole : Int) (high low : Nat) : Prop where
  high_lt : high < 2 ^ size
  low_lt : low < 2 ^ size
  exact : whole = reading signed size high * (2 ^ size : Nat) + low
  represents : high * 2 ^ size + low = wrap (size + size) whole

section Product

variable {signed : Bool} {size x y : Nat}

/-- The upper half of a product is a reading again. -/
theorem isReading_product_div (positive : 0 < size) {number other : Int}
    (left : IsReading signed size number) (right : IsReading signed size other) :
    IsReading signed size (number * other / (2 ^ size : Nat)) := by
  have unit : (0 : Int) < (2 ^ size : Nat) := Int.ofNat_lt.mpr (Nat.two_pow_pos size)
  cases signed with
  | false =>
    obtain ⟨nonneg, below⟩ := left
    obtain ⟨nonneg', below'⟩ := right
    refine ⟨Int.ediv_nonneg (Int.mul_nonneg nonneg nonneg') (Int.le_of_lt unit), ?_⟩
    rw [Int.ediv_lt_iff_lt_mul unit]
    exact Int.lt_of_le_of_lt (Int.mul_le_mul_of_nonneg_left (Int.le_of_lt below') nonneg)
      (Int.mul_lt_mul_of_pos_right below unit)
  | true =>
    have whole := two_pow_eq_double positive
    have short : (number * other).natAbs ≤ 2 ^ (size - 1) * 2 ^ (size - 1) := by
      rw [Int.natAbs_mul]
      exact Nat.mul_le_mul (natAbs_le_of_isSigned left) (natAbs_le_of_isSigned right)
    have longer : 2 ^ (size - 1) * 2 ^ (size - 1) < 2 ^ (size - 1) * 2 ^ size :=
      Nat.mul_lt_mul_of_pos_left (by have := Nat.two_pow_pos (size - 1); omega) (Nat.two_pow_pos _)
    constructor
    · rw [Int.le_ediv_iff_mul_le unit, Int.neg_mul, ← Int.natCast_mul]
      omega
    · rw [Int.ediv_lt_iff_lt_mul unit, ← Int.natCast_mul]
      omega

/-- An integer has the halves that represent it and its quotient by the power of two. -/
theorem halves (positive : 0 < size) {whole : Int}
    (fits : IsReading signed size (whole / (2 ^ size : Nat))) :
    Halves signed size whole (wrap size (whole / (2 ^ size : Nat))) (wrap size whole) := by
  have high_lt := wrap_lt size (whole / (2 ^ size : Nat))
  have low_lt := wrap_lt size whole
  have exact : whole = reading signed size (wrap size (whole / (2 ^ size : Nat))) *
      (2 ^ size : Nat) + wrap size whole := by
    rw [reading_wrap positive fits, natCast_wrap, Int.mul_comm, Int.mul_ediv_add_emod]
  refine ⟨high_lt, low_lt, exact, ?_⟩
  generalize wrap size (whole / (2 ^ size : Nat)) = high at *
  -- both readings of the upper half agree up to the power of two of the whole
  have same : whole ≡ (high * 2 ^ size + wrap size whole : Nat)
      [ZMOD (2 ^ (size + size) : Nat)] := by
    rw [Nat.pow_add, Int.natCast_mul (2 ^ size), Int.natCast_add, Int.natCast_mul high]
    nth_rewrite 1 [exact]
    exact ((reading_modEq signed size high).mul_right').add_right _
  have below : high * 2 ^ size + wrap size whole < 2 ^ (size + size) := by
    rw [Nat.add_comm, Nat.mul_comm]
    exact (join_lt_iff low_lt size).mpr high_lt
  rw [wrap_congr same, wrap_of_lt below]

/-- The product of two numbers has the lower half of the product of their readings. -/
theorem wrap_product (signed : Bool) (size x y : Nat) :
    wrap size (x * y : Nat) = wrap size (reading signed size x * reading signed size y) := by
  rw [Int.natCast_mul]
  exact wrap_congr ((reading_modEq signed size x).mul (reading_modEq signed size y)).symm

end Product

/-! ### Divisions -/

/-- A division of integers whose quotient is cut toward zero: the remainder is smaller than the
divisor and is zero or has the sign of the dividend. -/
structure CutsTowardZero (x y quotient remainder : Int) : Prop where
  cut : quotient = x.tdiv y
  total : x = quotient * y + remainder
  small : remainder.natAbs < y.natAbs
  sign : remainder = 0 ∨ remainder.sign = x.sign

/-- The least number of some size is divided by minus one. -/
def Overflows (size x y : Nat) : Prop :=
  signExtend x size = -(2 ^ (size - 1) : Nat) ∧ signExtend y size = -1

instance (size x y : Nat) : Decidable (Overflows size x y) :=
  inferInstanceAs (Decidable (_ ∧ _))

/-- The quotient and the remainder of a division of numbers of some size. A division by zero leaves
the dividend, and the only quotient that does not fit comes back as the least number. -/
structure IsDivision (signed : Bool) (size x y quotient remainder : Nat) : Prop where
  zero : y = 0 → quotient = 0 ∧ remainder = x
  unsigned : signed = false → y ≠ 0 → x = quotient * y + remainder ∧ remainder < y
  cut : signed = true → y ≠ 0 → ¬Overflows size x y →
    CutsTowardZero (signExtend x size) (signExtend y size) (signExtend quotient size)
      (signExtend remainder size)
  overflow : signed = true → Overflows size x y →
    signExtend quotient size = -(2 ^ (size - 1) : Nat) ∧ remainder = 0

section Division

variable {signed : Bool} {size x y : Nat}

/-- Quotient and remainder of integers make such a division. -/
theorem cutsTowardZero {x y : Int} (divisor : y ≠ 0) :
    CutsTowardZero x y (x.tdiv y) (x.tmod y) where
  cut := rfl
  total := (Int.tdiv_mul_add_tmod x y).symm
  small := by
    rw [Int.natAbs_tmod]
    exact Nat.mod_lt _ (Int.natAbs_pos.mpr divisor)
  sign := by
    by_cases divides : y ∣ x
    · exact .inl (Int.tmod_eq_zero_of_dvd divides)
    · exact .inr ((Int.sign_tmod x y).trans (if_neg divides))

/-- A quotient of signed numbers of some size is one, except for the least number by minus one. -/
theorem isSigned_tdiv {number divisor : Int} (left : IsSigned size number) (zero : divisor ≠ 0)
    (fits : ¬(number = -(2 ^ (size - 1) : Nat) ∧ divisor = -1)) :
    IsSigned size (number.tdiv divisor) := by
  obtain ⟨least, most⟩ := left
  by_cases unit : divisor.natAbs = 1
  · rcases Int.natAbs_eq divisor with same | same
    · rw [same, unit, Int.natCast_one, Int.tdiv_one]
      exact ⟨least, most⟩
    · rw [unit, Int.natCast_one] at same
      rw [same, Int.tdiv_neg, Int.tdiv_one]
      constructor <;> omega
  · have half : number.natAbs / divisor.natAbs ≤ number.natAbs / 2 :=
      Nat.div_le_div_left (by omega) Nat.two_pos
    have size_eq : (number.tdiv divisor).natAbs = number.natAbs / divisor.natAbs :=
      Int.natAbs_tdiv number divisor
    have := Nat.two_pow_pos (size - 1)
    constructor <;> omega

/-- A remainder of a signed number of some size is one. -/
theorem isSigned_tmod {number : Int} (left : IsSigned size number) (divisor : Int) :
    IsSigned size (number.tmod divisor) := by
  obtain ⟨least, most⟩ := left
  have smaller := Nat.mod_le number.natAbs divisor.natAbs
  rw [← Int.natAbs_tmod] at smaller
  rcases Int.le_total 0 number with nonneg | nonpos
  · have := Int.tmod_nonneg divisor nonneg
    constructor <;> omega
  · have opposite := Int.tmod_nonneg divisor (Int.neg_nonneg_of_nonpos nonpos)
    rw [Int.neg_tmod] at opposite
    constructor <;> omega

/-- What is left of the dividend represents the remainder, also when the quotient does not fit. -/
theorem wrap_remainder (signed : Bool) (size x y : Nat) :
    wrap size (x - (wrap size ((reading signed size x).tdiv (reading signed size y)) * y : Nat)) =
      wrap size ((reading signed size x).tmod (reading signed size y)) := by
  refine wrap_congr ?_
  rw [Int.natCast_mul, Int.tmod_def, Int.mul_comm (reading signed size y)]
  exact (reading_modEq signed size x).symm.sub
    ((wrap_modEq size _).mul (reading_modEq signed size y).symm)

/-- The quotient and what is left of the dividend make a division. -/
theorem isDivision (signed : Bool) (positive : 0 < size) (left : x < 2 ^ size)
    (right : y < 2 ^ size) :
    IsDivision signed size x y
      (wrap size ((reading signed size x).tdiv (reading signed size y)))
      (wrap size ((reading signed size x).tmod (reading signed size y))) where
  zero divisor := by
    have none : reading signed size y = 0 := by
      subst divisor
      cases signed with
      | false => rfl
      | true => exact Int.zero_bmod
    rw [none, Int.tdiv_zero, Int.tmod_zero]
    exact ⟨rfl, wrap_reading signed left⟩
  unsigned isUnsigned divisor := by
    subst isUnsigned
    have quotient : wrap size ((x : Int).tdiv y) = x / y :=
      wrap_of_lt (Nat.lt_of_le_of_lt (Nat.div_le_self x y) left)
    have remainder : wrap size ((x : Int).tmod y) = x % y :=
      wrap_of_lt (Nat.lt_of_le_of_lt (Nat.mod_le x y) left)
    simp only [reading_false, quotient, remainder]
    exact ⟨(Nat.div_add_mod' x y).symm, Nat.mod_lt x (Nat.pos_of_ne_zero divisor)⟩
  cut isSigned divisor fits := by
    subst isSigned
    have dividend := isSigned_signExtend positive x
    have divisor' : signExtend y size ≠ 0 := by
      intro none
      rw [← wrap_signExtend right, none] at divisor
      exact divisor rfl
    have quotient := (signExtend_wrap_iff positive _).mpr (isSigned_tdiv dividend divisor' fits)
    have remainder := (signExtend_wrap_iff positive _).mpr
      (isSigned_tmod dividend (signExtend y size))
    simp only [reading_true, quotient, remainder]
    exact cutsTowardZero divisor'
  overflow isSigned overflows := by
    subst isSigned
    obtain ⟨least, minusOne⟩ := overflows
    have whole := two_pow_eq_double positive
    have unit := Nat.two_pow_pos (size - 1)
    have opposite : ((2 ^ (size - 1) : Nat) : Int) ≡ -(2 ^ (size - 1) : Nat)
        [ZMOD (2 ^ size : Nat)] :=
      Int.modEq_of_dvd ⟨-1, by omega⟩
    simp only [reading_true, least, minusOne, Int.tdiv_neg, Int.tdiv_one, Int.tmod_neg,
      Int.tmod_one, Int.neg_neg, wrap_congr opposite]
    exact ⟨(signExtend_wrap_iff positive _).mpr ⟨Int.le_refl _, by omega⟩, rfl⟩

end Division

/-! ### Instructions -/

/-- The instructions that multiply or divide. -/
inductive Multiplicative where
  /-- A product is added to an addend or subtracted from it. -/
  | accumulate (subtracts : Bool)
  /-- A product of half registers is added to a full addend or subtracted from it. -/
  | accumulateLong (signed subtracts : Bool)
  /-- The upper half of a product of full registers. -/
  | high (signed : Bool)
  | quotient (signed : Bool)
  deriving DecidableEq, Repr

namespace Multiplicative

def all : List Multiplicative :=
  [false, true].flatMap fun flag =>
    [accumulate flag, accumulateLong flag false, accumulateLong flag true, high flag, quotient flag]

theorem mem_all (kind : Multiplicative) : kind ∈ all := by
  rcases kind with (_ | _) | ⟨_ | _, _ | _⟩ | (_ | _) | (_ | _) <;> decide

/-- Products without an addend have names of their own. -/
def name : Multiplicative → (addend : Bool) → String
  | .accumulate false, false => "mul"
  | .accumulate false, true => "madd"
  | .accumulate true, false => "mneg"
  | .accumulate true, true => "msub"
  | .accumulateLong true false, false => "smull"
  | .accumulateLong true false, true => "smaddl"
  | .accumulateLong true true, false => "smnegl"
  | .accumulateLong true true, true => "smsubl"
  | .accumulateLong false false, false => "umull"
  | .accumulateLong false false, true => "umaddl"
  | .accumulateLong false true, false => "umnegl"
  | .accumulateLong false true, true => "umsubl"
  | .high true, _ => "smulh"
  | .high false, _ => "umulh"
  | .quotient true, _ => "sdiv"
  | .quotient false, _ => "udiv"

/-- Whether there may be an addend. -/
def accumulates : Multiplicative → Bool
  | .accumulate _ | .accumulateLong .. => true
  | .high _ | .quotient _ => false

/-- Whether the registers may be half ones; otherwise the destination is a full register. -/
def resizes : Multiplicative → Bool
  | .accumulate _ | .quotient _ => true
  | .accumulateLong .. | .high _ => false

/-- The width of the factors, or of the dividend and the divisor. -/
def factorWide : Multiplicative → Bool → Bool
  | .accumulateLong .., _ => false
  | .accumulate _, wide | .high _, wide | .quotient _, wide => wide

/-- What is left in the destination, from the numbers in the registers at its size. -/
def result (instruction : Multiplicative) (size x y addend : Nat) : Int :=
  match instruction with
  | .accumulate subtracts =>
    if subtracts then addend - (x * y : Nat) else addend + (x * y : Nat)
  | .accumulateLong signed subtracts =>
    let product := reading signed 32 (x % 2 ^ 32) * reading signed 32 (y % 2 ^ 32)
    if subtracts then addend - product else addend + product
  | .high signed => reading signed size x * reading signed size y / (2 ^ size : Nat)
  | .quotient signed => (reading signed size x).tdiv (reading signed size y)

/-- An addend only counts where there may be one. -/
theorem result_congr {instruction : Multiplicative} {addend addend' : Nat}
    (same : instruction.accumulates = true → addend = addend') (size x y : Nat) :
    instruction.result size x y addend = instruction.result size x y addend' := by
  cases instruction with
  | accumulate | accumulateLong => rw [same rfl]
  | high | quotient => rfl

def operation : Multiplicative → Operation
  | .quotient _ => .twoSource
  | .accumulate _ | .accumulateLong .. | .high _ => .threeSource

/-- The fields that the execution reads. -/
def letters : Multiplicative → List Char
  | .quotient _ => ['n', 'm', 'c', 'd']
  | .accumulate _ | .accumulateLong .. | .high _ => ['n', 'm', 'a', 'c', 'p', 'd']

def code : Multiplicative → Nat
  | .accumulate _ => 0
  | .accumulateLong signed _ => if signed then 1 else 5
  | .high signed => if signed then 2 else 6
  | .quotient signed => if signed then 3 else 2

/-- The codes of the fields that say whether a product is subtracted. -/
def signCodes : Multiplicative → List (Char × Nat)
  | .accumulate subtracts | .accumulateLong _ subtracts => [('p', subtracts.toNat)]
  | .high _ | .quotient _ => []

end Multiplicative

namespace Execution

open DataProcessing

variable {instruction : Instruction} {allowed : ExecutionFault → Prop} {before : CoreState}
  {wide : Bool}

/-- A product is added to the addend or subtracted from it behind steps that only read. -/
theorem ensures_accumulate (subtracts : Bool) (offers : instruction.Offers ['a', 'p', 'd'])
    (sign : instruction.value 'p' = subtracts.toNat) (product : Int) {registers : RegisterFile}
    (same : ∀ slot : Nat, registers.value slot = before.registers.value slot) :
    Ensures allowed (accumulate instruction product (InstructionForm.dataSize wide))
      (fun _ after => before.Receives after ⟨instruction.value 'd', wide⟩
        (if subtracts then before.contents ⟨instruction.value 'a', wide⟩ - product
          else before.contents ⟨instruction.value 'a', wide⟩ + product) before.status)
      ⟨registers, before.status, before.memory⟩ := by
  have write := @CoreState.receives_of_write before (registers.afterRead (instruction.value 'a')) _
    wide (fun slot => by simp [same]) (offers.registers 'd' (by decide)) before.status
  simp only [accumulate, ensures_bind, ensures_readField (offers.present 'a' (by decide))
    (offers.registers 'a' (by decide)), ensures_field (offers.present 'p' (by decide)), sign, same,
    ensures_writeField (offers.present 'd' (by decide)) (offers.registers 'd' (by decide))]
  cases subtracts <;> exact write _

/-- The execution leaves the result in the destination. -/
theorem ensures_multiplicative (kind : Multiplicative) (wide : Bool)
    (full : kind.resizes = false → wide = true) (offers : instruction.Offers kind.letters)
    (op : instruction.form.op = kind.operation)
    (size : dataSize instruction = InstructionForm.dataSize wide)
    (code : instruction.value 'c' = kind.code)
    (sign : ∀ field ∈ kind.signCodes, instruction.value field.1 = field.2) :
    Ensures allowed (perform instruction)
      (fun branched after => branched = none ∧ before.Receives after ⟨instruction.value 'd', wide⟩
        (kind.result (InstructionForm.dataSize wide)
          (before.contents ⟨instruction.value 'n', wide⟩)
          (before.contents ⟨instruction.value 'm', wide⟩)
          (before.contents ⟨instruction.value 'a', wide⟩)) before.status) before := by
  have write {registers : RegisterFile}
      (same : ∀ slot : Nat, registers.value slot = before.registers.value slot) :=
    CoreState.receives_of_write wide same (offers.registers 'd' List.mem_cons_self) before.status
  -- the long forms read and write full registers and take the halves of their factors
  have wideSize : InstructionForm.dataSize true = 64 := rfl
  have half (value : Nat) : value % 2 ^ 64 % 2 ^ 32 = value % 2 ^ 32 :=
    Nat.mod_mod_of_dvd value (Nat.pow_dvd_pow 2 (by decide))
  cases kind with
  | accumulate subtracts =>
    replace op : instruction.form.op = .threeSource := op
    replace offers : instruction.Offers ['n', 'm', 'a', 'c', 'p', 'd'] := offers
    replace code : instruction.value 'c' = 0 := code
    have accumulated (product : Int) {registers : RegisterFile}
        (same : ∀ slot : Nat, registers.value slot = before.registers.value slot) :=
      @ensures_accumulate instruction allowed before wide subtracts (offers.mono (by decide))
        (sign _ List.mem_cons_self) product registers same
    simpa only [perform, op, threeSource, ensures_sequential, ensures_bind, ensures_field_offered,
      ensures_readField_offered, offers.present, offers.registers, List.mem_cons, true_or, or_true,
      code, size, RegisterFile.value_afterRead, true_and, Multiplicative.result,
      CoreState.contents] using accumulated _ (by simp)
  | accumulateLong signed subtracts =>
    obtain rfl := full rfl
    replace op : instruction.form.op = .threeSource := op
    replace offers : instruction.Offers ['n', 'm', 'a', 'c', 'p', 'd'] := offers
    replace code : instruction.value 'c' = if signed then 1 else 5 := code
    have accumulated (product : Int) {registers : RegisterFile}
        (same : ∀ slot : Nat, registers.value slot = before.registers.value slot) :=
      @ensures_accumulate instruction allowed before true subtracts (offers.mono (by decide))
        (sign _ List.mem_cons_self) product registers same
    cases signed <;>
      simpa only [perform, op, threeSource, ensures_sequential, ensures_bind, ensures_field_offered,
        ensures_readField_offered, offers.present, offers.registers, List.mem_cons, true_or, or_true,
        code, RegisterFile.value_afterRead, true_and, Multiplicative.result, CoreState.contents,
        wideSize, half, reading_true, reading_false, if_true, if_false, Bool.false_eq_true,
        Int.natCast_mul] using accumulated _ (by simp)
  | high signed =>
    obtain rfl := full rfl
    replace op : instruction.form.op = .threeSource := op
    replace offers : instruction.Offers ['n', 'm', 'a', 'c', 'p', 'd'] := offers
    replace code : instruction.value 'c' = if signed then 2 else 6 := code
    cases signed <;>
      simpa only [perform, op, threeSource, multiplyHigh, ensures_sequential, ensures_bind,
        ensures_field_offered, ensures_readField_offered, ensures_writeField_offered, offers.present,
        offers.registers, List.mem_cons, true_or, or_true, code, RegisterFile.value_afterRead,
        true_and, Multiplicative.result, CoreState.contents, wideSize, reading_true, reading_false,
        if_true, if_false, Bool.false_eq_true, Int.natCast_mul] using write (by simp) _
  | quotient signed =>
    replace op : instruction.form.op = .twoSource := op
    replace offers : instruction.Offers ['n', 'm', 'c', 'd'] := offers
    replace code : instruction.value 'c' = if signed then 3 else 2 := code
    cases signed <;>
      simpa only [perform, op, twoSource, signedQuotient, ensures_sequential, ensures_bind,
        ensures_field_offered, ensures_readField_offered, ensures_writeField_offered, offers.present,
        offers.registers, List.mem_cons, true_or, or_true, code, size, RegisterFile.value_afterRead,
        true_and, Multiplicative.result, CoreState.contents, reading_true, reading_false, if_true,
        if_false, Bool.false_eq_true, Int.ofNat_tdiv, ensures_pure] using write (by simp) _

end Execution

/-! ### Forms -/

/-- The registers of an instruction that multiplies or divides: its destination, its factors or the
dividend and the divisor, and the addend if there is one. -/
structure Factors where
  d : RegisterOperand
  n : RegisterOperand
  m : RegisterOperand
  addend : Option RegisterOperand

namespace Factors

def operands (factors : Factors) : List Operand :=
  [.register factors.d, .register factors.n, .register factors.m] ++
    factors.addend.toList.map .register

/-- The registers are plain and have the widths that the instruction takes, and there is no addend
that it does not take. -/
structure Fits (factors : Factors) (kind : Multiplicative) (wide : Bool) : Prop where
  target : factors.d.Plain
  first : factors.n.Plain
  second : factors.m.Plain
  targetWidth : factors.d.register.wide = wide
  firstWidth : factors.n.register.wide = kind.factorWide wide
  secondWidth : factors.m.register.wide = kind.factorWide wide
  full : kind.resizes = false → wide = true
  addend : ∀ operand ∈ factors.addend, kind.accumulates = true ∧ operand.Plain ∧
    operand.register.wide = wide

end Factors

namespace Multiplicative

open InstructionSet InstructionForm

/-- The kind of the destination and of the addend. -/
def targetKind : Multiplicative → OperandKind
  | .accumulate _ | .quotient _ => .register
  | .accumulateLong .. | .high _ => .wideRegister

/-- The kind of the factors. -/
def factorKind : Multiplicative → OperandKind
  | .accumulate _ | .quotient _ => .register
  | .accumulateLong .. => .halfRegister
  | .high _ => .wideRegister

def formOperands (kind : Multiplicative) (addend : Bool) : List FormOperand :=
  [(kind.targetKind, ['d']), (kind.factorKind, ['n']), (kind.factorKind, ['m'])] ++
    if addend then [(kind.targetKind, ['a'])] else []

/-- The codes of a form. The zero register stands in for an addend. -/
def codes (kind : Multiplicative) (addend wide : Bool) : List (Char × Nat) :=
  [('z', (wide || !kind.resizes).toNat), ('c', kind.code)] ++ kind.signCodes ++
    if kind.accumulates && !addend then [('a', Register.zeroSlot)] else []

/-- The instruction set has the forms of all instructions that multiply or divide. -/
theorem hasForm : ∀ kind ∈ all, ∀ addend ∈ if kind.accumulates then [false, true] else [false],
    HasForm (kind.name addend) kind.operation (kind.formOperands addend) (kind.codes addend) := by
  decide +kernel

/-- The forms have the fields that the execution reads. -/
theorem offered : ∀ kind ∈ all, 'z' ∈ baseForm kind.operation ∧ ∀ letter ∈ kind.letters,
    letter ∈ baseForm kind.operation ∧ BitPattern.isLiteral letter = false := by
  decide

/-- The width flag behind the registers: some forms have no flag. -/
def flag (kind : Multiplicative) (wide : Bool) : Option Bool :=
  if kind.resizes then some wide else none

end Multiplicative

namespace Factors

open InstructionSet InstructionForm

variable {kind : Multiplicative} {wide : Bool} {factors : Factors} {evaluate : Evaluator}
  {before : CoreState}

/-- The fields that the registers set. -/
def fields (factors : Factors) : List (Char × Nat) :=
  [('d', factors.d.register.slot), ('n', factors.n.register.slot),
    ('m', factors.m.register.slot)] ++
    factors.addend.toList.map fun operand => ('a', operand.register.slot)

/-- The addend, which is zero if there is no register for it. -/
def addendIn (factors : Factors) (state : CoreState) : Nat :=
  factors.addend.elim 0 fun operand => state.contents operand.register

/-- A register in the place of the destination or the addend. -/
theorem sets_target (full : kind.resizes = false → wide = true) {given : RegisterOperand}
    (plain : given.Plain) (width : given.register.wide = wide) (letter : Char) :
    Sets evaluate (kind.flag wide) (kind.flag wide) (kind.targetKind, [letter]) (.register given)
      [(letter, given.register.slot)] := by
  cases kind with
  | accumulate | quotient => exact sets_register plain width
  | accumulateLong | high => exact sets_wideRegister plain (width.trans (full rfl))

/-- The destination is the first register, which tells the width flag if there is one. -/
theorem sets_destination (fits : factors.Fits kind wide) :
    Sets evaluate none (kind.flag wide) (kind.targetKind, ['d']) (.register factors.d)
      [('d', factors.d.register.slot)] := by
  cases kind with
  | accumulate | quotient => exact fits.targetWidth ▸ sets_first fits.target
  | accumulateLong | high => exact sets_wideRegister fits.target (fits.targetWidth.trans (fits.full rfl))

/-- A register in the place of a factor. -/
theorem sets_factor (full : kind.resizes = false → wide = true) {given : RegisterOperand}
    (plain : given.Plain) (width : given.register.wide = kind.factorWide wide) (letter : Char) :
    Sets evaluate (kind.flag wide) (kind.flag wide) (kind.factorKind, [letter]) (.register given)
      [(letter, given.register.slot)] := by
  cases kind with
  | accumulate | quotient => exact sets_register plain width
  | accumulateLong => exact sets_halfRegister plain width
  | high => exact sets_wideRegister plain (width.trans (full rfl))

theorem setsAll (fits : factors.Fits kind wide) :
    SetsAll evaluate none (kind.flag wide) (kind.formOperands factors.addend.isSome)
      factors.operands factors.fields := by
  have last : SetsAll evaluate (kind.flag wide) (kind.flag wide)
      (if factors.addend.isSome then [(kind.targetKind, ['a'])] else [])
      (factors.addend.toList.map .register)
      (factors.addend.toList.map fun operand => ('a', operand.register.slot)) := by
    cases given : factors.addend with
    | none => exact .nil
    | some operand =>
      obtain ⟨_, plain, width⟩ := fits.addend operand given
      exact .cons (sets_target fits.full plain width 'a') .nil
  have second := @sets_factor _ _ evaluate fits.full _ fits.second fits.secondWidth 'm'
  have first := @sets_factor _ _ evaluate fits.full _ fits.first fits.firstWidth 'n'
  have all := SetsAll.cons (sets_destination fits) (.cons first (.cons second last))
  exact all

theorem nodup_fields (factors : Factors) : (factors.fields.map Prod.fst).Nodup := by
  cases given : factors.addend <;> simp [fields, given]

/-- An instruction that multiplies or divides leaves its result in its destination. -/
theorem exists_step (fits : factors.Fits kind wide)
    (zero : before.registers.value Register.zeroSlot = 0) (here : Int) :
    ∃ after, AssembledStep here evaluate (kind.name factors.addend.isSome) factors.operands before
        after ∧
      before.Receives after factors.d.register
        (kind.result (dataSize wide) (before.contents ⟨factors.n.register.slot, wide⟩)
          (before.contents ⟨factors.m.register.slot, wide⟩) (factors.addendIn before))
        before.status := by
  have takes : factors.addend.isSome ∈ if kind.accumulates then [false, true] else [false] := by
    cases given : factors.addend with
    | none => split <;> simp
    | some operand => rw [if_pos (fits.addend operand given).1]; simp
  have has := Multiplicative.hasForm kind kind.mem_all _ takes
  have offered := Multiplicative.offered kind kind.mem_all
  refine has.exists_step_of_setsAll (setsAll fits) factors.nodup_fields fun instruction coded => ?_
  have flag : (kind.flag wide != some false) = wide := by
    cases resizes : kind.resizes with
    | false => simp [Multiplicative.flag, resizes, fits.full resizes]
    | true => simp [Multiplicative.flag, resizes]
  have full : (wide || !kind.resizes) = wide := by
    cases resizes : kind.resizes with
    | false => simp [fits.full resizes]
    | true => simp
  rw [flag] at coded
  have isTarget : instruction.value 'd' = factors.d.register.slot :=
    coded.codes ('d', factors.d.register.slot) (by simp [fields])
  have isFirst : instruction.value 'n' = factors.n.register.slot :=
    coded.codes ('n', factors.n.register.slot) (by simp [fields])
  have isSecond : instruction.value 'm' = factors.m.register.slot :=
    coded.codes ('m', factors.m.register.slot) (by simp [fields])
  have addend (accumulates : kind.accumulates = true) :
      before.contents ⟨instruction.value 'a', wide⟩ = factors.addendIn before := by
    cases given : factors.addend with
    | none =>
      have isZero : instruction.value 'a' = Register.zeroSlot :=
        coded.codes ('a', Register.zeroSlot) (by simp [given, Multiplicative.codes, accumulates])
      rw [isZero, CoreState.contents, zero, Nat.zero_mod, addendIn, given]
      rfl
    | some operand =>
      have isLast : instruction.value 'a' = operand.register.slot :=
        coded.codes ('a', operand.register.slot) (by simp [given, fields])
      rw [isLast, Register.eta (fits.addend operand given).2.2, addendIn, given]
      rfl
  have done := @Execution.ensures_multiplicative instruction (fun _ => False) before kind wide
    fits.full (coded.offers _ offered.2) coded.op
    (coded.dataSize (by simp [Multiplicative.codes, full]) offered.1)
    (coded.codes ('c', kind.code) (by simp [Multiplicative.codes])) fun field inside =>
      coded.codes field (by simp [Multiplicative.codes, inside])
  rwa [Multiplicative.result_congr addend, isTarget, isFirst, isSecond, Register.eta fits.targetWidth]
    at done

end Factors

/-! ### Exactness -/

namespace InstructionSet

open InstructionForm (dataSize)

/-- A step of an instruction yields a number from the numbers that its registers hold at the width
of its destination. The zero register holds zero, as in every state in range. -/
inductive Yields (evaluate : Evaluator) (kind : Multiplicative) (wide : Bool) :
    (x y : Nat) → (addend : Option Nat) → (result : Nat) → Prop where
  | step {factors : Factors} {here : Int} {before after : CoreState}
      (fits : factors.Fits kind wide) (general : factors.d.register.slot ≠ Register.zeroSlot)
      (zero : before.registers.value Register.zeroSlot = 0)
      (step : AssembledStep here evaluate (kind.name factors.addend.isSome) factors.operands before
        after) :
      Yields evaluate kind wide (before.contents ⟨factors.n.register.slot, wide⟩)
        (before.contents ⟨factors.m.register.slot, wide⟩)
        (factors.addend.map fun operand => before.contents operand.register)
        (after.contents factors.d.register)

section Yields

variable {evaluate : Evaluator} {kind : Multiplicative} {signed wide : Bool}
  {x y result : Nat} {addend : Option Nat}

theorem Yields.factors_lt (yields : Yields evaluate kind wide x y addend result) :
    x < 2 ^ dataSize wide ∧ y < 2 ^ dataSize wide := by
  cases yields
  exact ⟨CoreState.contents_lt _ _, CoreState.contents_lt _ _⟩

/-- What is yielded represents the result. -/
theorem Yields.eq_wrap (yields : Yields evaluate kind wide x y addend result) :
    result = wrap (dataSize wide) (kind.result (dataSize wide) x y (addend.getD 0)) := by
  cases yields with
  | @step factors here before after fits general zero step =>
    obtain ⟨other, step', receives⟩ :=
      @Factors.exists_step kind wide factors evaluate before fits zero here
    obtain rfl := step.unique step'
    have read : (factors.addend.map fun operand => before.contents operand.register).getD 0 =
        factors.addendIn before := by
      rw [Factors.addendIn]
      cases factors.addend <;> rfl
    rw [receives.contents general, fits.targetWidth, read]

/-- The upper half and the lower half of a product make the product. -/
theorem Yields.halves {high low : Nat} (upper : Yields evaluate (.high signed) true x y none high)
    (lower : Yields evaluate (.accumulate false) true x y none low) :
    Halves signed 64 (reading signed 64 x * reading signed 64 y) high low := by
  obtain ⟨left, right⟩ := upper.factors_lt
  have isLow : low = wrap 64 (x * y : Nat) := by
    rw [lower.eq_wrap, Multiplicative.result, if_neg Bool.false_ne_true, Option.getD_none,
      Int.natCast_zero, Int.zero_add]
    rfl
  rw [upper.eq_wrap, isLow, wrap_product signed]
  exact A64Machine.halves (by decide) (isReading_product_div (by decide)
    (isReading_reading (by decide) left) (isReading_reading (by decide) right))

/-- The quotient and what the multiple of the divisor leaves of the dividend make a division. -/
theorem Yields.isDivision {q r : Nat} (divides : Yields evaluate (.quotient signed) wide x y none q)
    (leaves : Yields evaluate (.accumulate true) wide q y (some x) r) :
    IsDivision signed (dataSize wide) x y q r := by
  obtain ⟨left, right⟩ := divides.factors_lt
  have isQuotient := divides.eq_wrap
  have isRemainder : r = wrap (dataSize wide) (x - (q * y : Nat)) := leaves.eq_wrap
  rw [isRemainder, isQuotient, Multiplicative.result, wrap_remainder]
  exact A64Machine.isDivision signed (dataSize_range wide).1 left right

end Yields

/-- The result of an instruction is written over none of its numbers, and it is still there behind a
second one. -/
structure Outlives (first second : Factors) : Prop where
  firstGeneral : first.d.register.slot ≠ Register.zeroSlot
  secondGeneral : second.d.register.slot ≠ Register.zeroSlot
  left : first.n.register.slot ≠ first.d.register.slot
  right : first.m.register.slot ≠ first.d.register.slot
  apart : first.d.register.slot ≠ second.d.register.slot

section Runs

variable {evaluate : Evaluator} {kind kind' : Multiplicative} {signed wide : Bool}
  {first second : Factors} {before : CoreState}

/-- Two instructions yield their results one behind the other. The second one still finds the
numbers of the first one, and its result too. -/
theorem exists_run (outlives : Outlives first second) (fits : first.Fits kind wide)
    (fits' : second.Fits kind' wide) (zero : before.registers.value Register.zeroSlot = 0)
    (here : Int) :
    ∃ middle after : CoreState,
      AssembledRun evaluate here
        [(kind.name first.addend.isSome, first.operands),
          (kind'.name second.addend.isSome, second.operands)] before after ∧
      Yields evaluate kind wide (before.contents ⟨first.n.register.slot, wide⟩)
        (before.contents ⟨first.m.register.slot, wide⟩)
        (first.addend.map fun operand => before.contents operand.register)
        (after.contents first.d.register) ∧
      Yields evaluate kind' wide (middle.contents ⟨second.n.register.slot, wide⟩)
        (middle.contents ⟨second.m.register.slot, wide⟩)
        (second.addend.map fun operand => middle.contents operand.register)
        (after.contents second.d.register) ∧
      middle.contents first.d.register = after.contents first.d.register ∧
      middle.contents ⟨first.n.register.slot, wide⟩ =
        before.contents ⟨first.n.register.slot, wide⟩ ∧
      middle.contents ⟨first.m.register.slot, wide⟩ =
        before.contents ⟨first.m.register.slot, wide⟩ := by
  obtain ⟨middle, step, receives⟩ := @Factors.exists_step _ _ _ evaluate _ fits zero here
  obtain ⟨after, step', receives'⟩ :=
    @Factors.exists_step _ _ _ evaluate _ fits' receives.zero (here + Instruction.byteLength)
  have yields := Yields.step fits outlives.firstGeneral zero step
  have kept : after.contents first.d.register = middle.contents first.d.register :=
    receives'.contents_of_apart receives.zero fits.target.slot_lt outlives.apart
  rw [← kept] at yields
  exact ⟨middle, after, .cons step (.cons step' .nil), yields,
    .step fits' outlives.secondGeneral receives.zero step', kept.symm,
    receives.contents_of_apart zero fits.first.slot_lt outlives.left,
    receives.contents_of_apart zero fits.second.slot_lt outlives.right⟩

/-- Only products have an addend. -/
theorem addend_eq_none (fits : first.Fits kind wide) (none : kind.accumulates = false) :
    first.addend = Option.none :=
  Option.eq_none_iff_forall_not_mem.mpr fun operand given =>
    Bool.false_ne_true (none.symm.trans (fits.addend operand given).1)

/-- The whole product of two full registers is computed by two instructions. -/
theorem exists_product (outlives : Outlives first second) (fits : first.Fits (.high signed) true)
    (fits' : second.Fits (.accumulate false) true) (plain : second.addend = none)
    (left : second.n.register = first.n.register) (right : second.m.register = first.m.register)
    (zero : before.registers.value Register.zeroSlot = 0) (here : Int) :
    ∃ after, AssembledRun evaluate here
        [((Multiplicative.high signed).name false, first.operands), ("mul", second.operands)] before
        after ∧
      Halves signed 64 (reading signed 64 (before.contents first.n.register) *
          reading signed 64 (before.contents first.m.register))
        (after.contents first.d.register) (after.contents second.d.register) := by
  obtain ⟨middle, after, run, upper, lower, -, keptLeft, keptRight⟩ :=
    @exists_run evaluate _ _ _ _ _ _ outlives fits fits' zero here
  rw [left, right, plain, keptLeft, keptRight] at lower
  rw [addend_eq_none fits rfl] at run upper
  rw [plain] at run
  have product := upper.halves lower
  have width : first.n.register.wide = true := fits.firstWidth
  have width' : first.m.register.wide = true := fits.secondWidth
  rw [Register.eta width, Register.eta width'] at product
  exact ⟨after, run, product⟩

/-- Quotient and remainder of two registers are computed by two instructions. -/
theorem exists_division (outlives : Outlives first second)
    (fits : first.Fits (.quotient signed) wide) (fits' : second.Fits (.accumulate true) wide)
    (left : second.n.register = first.d.register) (right : second.m.register = first.m.register)
    (dividend : second.addend.map RegisterOperand.register = some first.n.register)
    (zero : before.registers.value Register.zeroSlot = 0) (here : Int) :
    ∃ after, AssembledRun evaluate here
        [((Multiplicative.quotient signed).name false, first.operands), ("msub", second.operands)]
        before after ∧
      IsDivision signed (dataSize wide) (before.contents first.n.register)
        (before.contents first.m.register) (after.contents first.d.register)
        (after.contents second.d.register) := by
  obtain ⟨middle, after, run, divides, leaves, quotient, keptLeft, keptRight⟩ :=
    @exists_run evaluate _ _ _ _ _ _ outlives fits fits' zero here
  obtain ⟨addend, given, same⟩ := Option.map_eq_some_iff.mp dividend
  have width : first.n.register.wide = wide := fits.firstWidth
  have width' : first.m.register.wide = wide := fits.secondWidth
  rw [left, Register.eta fits.targetWidth, quotient, right, keptRight, given, Option.map_some, same,
    ← Register.eta width, keptLeft] at leaves
  rw [addend_eq_none fits rfl] at run divides
  rw [given] at run
  have division := divides.isDivision leaves
  rw [Register.eta width, Register.eta width'] at division
  exact ⟨after, run, division⟩

end Runs

/-- Products and quotients are exact. Each instruction completes and leaves its result and nothing
else. The halves of a product make the product when they are computed from the same numbers, a long
product is exact up to the size of the addend, and a quotient and what its multiple leaves of the
dividend make a division. Both pairs of instructions can stand one behind the other. -/
theorem products_and_quotients_exact (evaluate : Evaluator) :
    (∀ (kind : Multiplicative) (wide : Bool) (factors : Factors), factors.Fits kind wide →
      ∀ (here : Int) (before : CoreState), before.registers.value Register.zeroSlot = 0 →
        ∃ after, AssembledStep here evaluate (kind.name factors.addend.isSome) factors.operands
            before after ∧
          before.Receives after factors.d.register
            (kind.result (dataSize wide) (before.contents ⟨factors.n.register.slot, wide⟩)
              (before.contents ⟨factors.m.register.slot, wide⟩) (factors.addendIn before))
            before.status) ∧
    (∀ (signed : Bool) (x y high low : Nat), Yields evaluate (.high signed) true x y none high →
      Yields evaluate (.accumulate false) true x y none low →
        Halves signed 64 (reading signed 64 x * reading signed 64 y) high low) ∧
    (∀ (signed subtracts : Bool) (x y a result : Nat),
      Yields evaluate (.accumulateLong signed subtracts) true x y (some a) result →
        result = wrap 64
          (if subtracts then a - reading signed 32 (x % 2 ^ 32) * reading signed 32 (y % 2 ^ 32)
            else a + reading signed 32 (x % 2 ^ 32) * reading signed 32 (y % 2 ^ 32))) ∧
    (∀ (signed wide : Bool) (x y q r : Nat), Yields evaluate (.quotient signed) wide x y none q →
      Yields evaluate (.accumulate true) wide q y (some x) r →
        IsDivision signed (dataSize wide) x y q r) ∧
    (∀ (signed : Bool) (upper lower : Factors), Outlives upper lower →
      upper.Fits (.high signed) true → lower.Fits (.accumulate false) true → lower.addend = none →
      lower.n.register = upper.n.register → lower.m.register = upper.m.register →
      ∀ (here : Int) (before : CoreState), before.registers.value Register.zeroSlot = 0 →
        ∃ after, AssembledRun evaluate here
            [((Multiplicative.high signed).name false, upper.operands), ("mul", lower.operands)]
            before after ∧
          Halves signed 64 (reading signed 64 (before.contents upper.n.register) *
              reading signed 64 (before.contents upper.m.register))
            (after.contents upper.d.register) (after.contents lower.d.register)) ∧
    (∀ (signed wide : Bool) (divide leave : Factors), Outlives divide leave →
      divide.Fits (.quotient signed) wide → leave.Fits (.accumulate true) wide →
      leave.n.register = divide.d.register → leave.m.register = divide.m.register →
      leave.addend.map RegisterOperand.register = some divide.n.register →
      ∀ (here : Int) (before : CoreState), before.registers.value Register.zeroSlot = 0 →
        ∃ after, AssembledRun evaluate here
            [((Multiplicative.quotient signed).name false, divide.operands),
              ("msub", leave.operands)] before after ∧
          IsDivision signed (dataSize wide) (before.contents divide.n.register)
            (before.contents divide.m.register) (after.contents divide.d.register)
            (after.contents leave.d.register)) :=
  ⟨fun _ _ _ fits here _ zero => Factors.exists_step fits zero here,
    fun _ _ _ _ _ upper lower => upper.halves lower,
    fun _ _ _ _ _ _ yields => yields.eq_wrap,
    fun _ _ _ _ _ _ divides leaves => divides.isDivision leaves,
    fun _ _ _ outlives fits fits' plain left right here _ zero =>
      exists_product outlives fits fits' plain left right zero here,
    fun _ _ _ _ outlives fits fits' left right dividend here _ zero =>
      exists_division outlives fits fits' left right dividend zero here⟩

/-- The least word by minus one comes back and leaves nothing, the product of the least number and
minus one has a lower half only, and one is subtracted from the least number as the long product of
minus one by itself. -/
theorem products_and_quotients_exact_minus_one :
    ∃ (divide leave high low long : List Operand) (words numbers : CoreState),
      Operand.parse "w3, w1, w2" 0 = .ok divide ∧ Operand.parse "w4, w3, w2, w1" 0 = .ok leave ∧
      Operand.parse "x3, x1, x2" 0 = .ok high ∧ Operand.parse "x4, x1, x2" 0 = .ok low ∧
      Operand.parse "x5, w2, w2, x1" 0 = .ok long ∧
      [words.registers.value 1, words.registers.value 2] = [2 ^ 31, 2 ^ 32 - 1] ∧
      [numbers.registers.value 1, numbers.registers.value 2] = [2 ^ 63, 2 ^ 64 - 1] ∧
      (∃ after, AssembledRun (Codec.addressOnly 0) 0 [("sdiv", divide), ("msub", leave)] words
          after ∧
        signExtend (after.contents ⟨3, false⟩) 32 = -(2 ^ 31 : Nat) ∧
        after.contents ⟨4, false⟩ = 0) ∧
      (∃ after, AssembledRun (Codec.addressOnly 0) 0 [("smulh", high), ("mul", low)] numbers after ∧
        signExtend (after.contents ⟨3, true⟩) 64 * (2 ^ 64 : Nat) + after.contents ⟨4, true⟩ =
          (2 ^ 63 : Nat)) ∧
      ∃ after, AssembledStep 0 (Codec.addressOnly 0) "smsubl" long numbers after ∧
        after.contents ⟨5, true⟩ = 2 ^ 63 - 1 := by
  let operand (name : String) (register : Register) (start : Int) : RegisterOperand :=
    ⟨name, register, none, none, ⟨start, start + 2⟩⟩
  let state (x y : Nat) : CoreState :=
    ⟨⟨((Vector.replicate 32 0).set 1 x).set 2 y, false, []⟩, .clear, .ofBytes .little #[]⟩
  have zero (x y : Nat) : (state x y).registers.value Register.zeroSlot = 0 := rfl
  have plain {name : String} {register : Register} (named : Register.ofName? name = some register)
      (start : Int) : (operand name register start).Plain :=
    RegisterOperand.plain_of_ofName? named _
  have w1 := @plain "w1" ⟨1, false⟩ (by decide)
  have w2 := @plain "w2" ⟨2, false⟩ (by decide)
  have w3 := @plain "w3" ⟨3, false⟩ (by decide)
  have w4 := @plain "w4" ⟨4, false⟩ (by decide)
  have x1 := @plain "x1" ⟨1, true⟩ (by decide)
  have x2 := @plain "x2" ⟨2, true⟩ (by decide)
  have x3 := @plain "x3" ⟨3, true⟩ (by decide)
  have x4 := @plain "x4" ⟨4, true⟩ (by decide)
  have x5 := @plain "x5" ⟨5, true⟩ (by decide)
  have resizes {wide : Bool} (never : true = false) : wide = true := Bool.noConfusion never
  let divide : Factors :=
    ⟨operand "w3" ⟨3, false⟩ 0, operand "w1" ⟨1, false⟩ 4, operand "w2" ⟨2, false⟩ 8, none⟩
  let leave : Factors := ⟨operand "w4" ⟨4, false⟩ 0, operand "w3" ⟨3, false⟩ 4,
    operand "w2" ⟨2, false⟩ 8, some (operand "w1" ⟨1, false⟩ 12)⟩
  let upper : Factors :=
    ⟨operand "x3" ⟨3, true⟩ 0, operand "x1" ⟨1, true⟩ 4, operand "x2" ⟨2, true⟩ 8, none⟩
  let lower : Factors :=
    ⟨operand "x4" ⟨4, true⟩ 0, operand "x1" ⟨1, true⟩ 4, operand "x2" ⟨2, true⟩ 8, none⟩
  let long : Factors := ⟨operand "x5" ⟨5, true⟩ 0, operand "w2" ⟨2, false⟩ 4,
    operand "w2" ⟨2, false⟩ 8, some (operand "x1" ⟨1, true⟩ 12)⟩
  have fits : long.Fits (.accumulateLong true true) true :=
    ⟨x5 0, w2 4, w2 8, rfl, rfl, rfl, fun _ => rfl,
      fun _ given => by cases given; exact ⟨rfl, x1 12, rfl⟩⟩
  have exact := products_and_quotients_exact (Codec.addressOnly 0)
  obtain ⟨divided, division, isDivision⟩ := exact.2.2.2.2.2 true false divide leave
    ⟨by decide, by decide, by decide, by decide, by decide⟩
    ⟨w3 0, w1 4, w2 8, rfl, rfl, rfl, resizes, fun _ given => (Option.not_mem_none _ given).elim⟩
    ⟨w4 0, w3 4, w2 8, rfl, rfl, rfl, resizes, fun _ given => by cases given; exact ⟨rfl, w1 12, rfl⟩⟩
    rfl rfl rfl 0 (state (2 ^ 31) (2 ^ 32 - 1)) (zero _ _)
  obtain ⟨multiplied, product, halves⟩ := exact.2.2.2.2.1 true upper lower
    ⟨by decide, by decide, by decide, by decide, by decide⟩
    ⟨x3 0, x1 4, x2 8, rfl, rfl, rfl, fun _ => rfl,
      fun _ given => (Option.not_mem_none _ given).elim⟩
    ⟨x4 0, x1 4, x2 8, rfl, rfl, rfl, resizes, fun _ given => (Option.not_mem_none _ given).elim⟩
    rfl rfl rfl 0 (state (2 ^ 63) (2 ^ 64 - 1)) (zero _ _)
  obtain ⟨accumulated, step, _⟩ := exact.1 (.accumulateLong true true) true long fits 0
    (state (2 ^ 63) (2 ^ 64 - 1)) (zero _ _)
  have yielded := exact.2.2.1 true true _ _ _ _ (.step fits (by decide) (zero _ _) step)
  have overflow := isDivision.overflow rfl (by decide +kernel)
  have whole := halves.exact.symm
  rw [show reading true 64 _ * reading true 64 _ = ((2 ^ 63 : Nat) : Int) by decide +kernel,
    reading_true] at whole
  exact ⟨divide.operands, leave.operands, upper.operands, lower.operands, long.operands,
    state (2 ^ 31) (2 ^ 32 - 1), state (2 ^ 63) (2 ^ 64 - 1),
    toOption_eq_some.mp (by decide +kernel), toOption_eq_some.mp (by decide +kernel),
    toOption_eq_some.mp (by decide +kernel), toOption_eq_some.mp (by decide +kernel),
    toOption_eq_some.mp (by decide +kernel), by decide +kernel, by decide +kernel,
    ⟨divided, division, overflow⟩,
    ⟨multiplied, product, whole⟩,
    ⟨accumulated, step, yielded.trans (by decide +kernel)⟩⟩

end InstructionSet

end A64Machine
