import A64Machine.Proofs.AddWithCarry
import A64Machine.Proofs.ShiftsAndBitfields

/-!
# Second operands

The last operand of an addition, a comparison or a logical operation is a register with a shift or an
extension, or an immediate of one of two kinds. What it stands for is told here without its fields;
the operand sets the fields, and the execution computes the value from them.
-/

namespace A64Machine

/-- The modifier that a shift is written with. -/
def Shift.modifier : Shift → Modifier
  | .lsl => .lsl
  | .lsr => .lsr
  | .asr => .asr
  | .ror => .ror

theorem Shift.shiftCode?_modifier (shift : Shift) : shift.modifier.shiftCode? = some shift.code := by
  cases shift <;> rfl

/-- The logical instructions that take a mask. -/
inductive LogicInstruction where
  | and
  | ands
  | orr
  | eor
  | tst
  deriving DecidableEq, Repr

namespace LogicInstruction

def all : List LogicInstruction := [.and, .ands, .orr, .eor, .tst]

theorem mem_all (logic : LogicInstruction) : logic ∈ all := by cases logic <;> decide

def name : LogicInstruction → String
  | .and => "and"
  | .ands => "ands"
  | .orr => "orr"
  | .eor => "eor"
  | .tst => "tst"

/-- A test leaves no result. -/
def discards : LogicInstruction → Bool
  | .tst => true
  | _ => false

/-- The code of the operation. -/
def code : LogicInstruction → Nat
  | .and => 0
  | .orr => 1
  | .eor => 2
  | .ands | .tst => 3

def result (logic : LogicInstruction) (x y : Nat) : Nat :=
  match logic with
  | .and | .ands | .tst => x &&& y
  | .orr => x ||| y
  | .eor => x ^^^ y

/-- The status behind a result: two of the instructions set the flags. -/
def status (logic : LogicInstruction) (size result : Nat) (before : Status) : Status :=
  match logic with
  | .ands | .tst => .ofFlags (.ofLogical result size)
  | _ => before

end LogicInstruction

/-- The extensions of a register, each with the number of bits that it keeps and whether it keeps
their sign. -/
def registerExtensions : List (Modifier × Nat × Bool) :=
  [(.uxtb, 8, false), (.uxth, 16, false), (.uxtw, 32, false), (.uxtx, 64, false),
    (.sxtb, 8, true), (.sxth, 16, true), (.sxtw, 32, true), (.sxtx, 64, true)]

namespace InstructionSet

open InstructionForm (dataSize)

/-- An operand of a kind behind registers of some width, and the number that it stands for. -/
inductive SecondOperand (evaluate : Evaluator) (wide : Bool) :
    OperandKind → Operand → (CoreState → Int) → Prop where
  /-- A register is shifted by an amount below the data size, and without a shift it is shifted to
  the left by zero. Sums take no rotation. -/
  | shifted (shift : Shift) {kind : OperandKind}
      (takes : kind = .shifted ∨ kind = .arithmeticShifted ∧ shift ≠ .ror)
      {given : RegisterOperand} (regular : given.Regular)
      (written : given.modifier.getD .lsl = shift.modifier) (same : given.register.wide = wide)
      {k : Nat} (amount : Encode.amount evaluate given.amount = .ok (k : Int))
      (within : k < dataSize wide) :
      SecondOperand evaluate wide kind (.register given)
        fun state => shift.result (state.contents given.register) k (dataSize wide)
  /-- A register is extended and shifted to the left by up to four bits. Only the extensions of all
  bits take a full register. -/
  | extended {modifier : Modifier} {width : Nat} {signed : Bool}
      (listed : (modifier, width, signed) ∈ registerExtensions) {given : RegisterOperand}
      (regular : given.Regular) (written : given.modifier = some modifier)
      (fits : given.register.wide = (width == 64)) {k : Nat}
      (amount : Encode.amount evaluate given.amount = .ok (k : Int)) (within : k ≤ 4) :
      SecondOperand evaluate wide .extended (.register given)
        fun state =>
          (if signed then Bits.signExtend (state.contents given.register) width
            else (state.contents given.register % 2 ^ width : Nat)) * (2 ^ k : Nat)
  /-- An immediate of twelve bits is taken as it is or shifted to the left by twelve. Without a shift
  by twelve it may also be a multiple of 4096 that is shifted itself. -/
  | immediate {given : ImmediateOperand} {number k : Nat}
      (known : evaluate given.value = .ok (number : Int))
      (amount : Encode.amount evaluate given.amount = .ok (k : Int)) (takes : k = 0 ∨ k = 12)
      (small : number < 4096 ∨ k = 0 ∧ number % 4096 = 0 ∧ number < 2 ^ 24) :
      SecondOperand evaluate wide .arithmeticImmediate (.immediate given)
        fun _ => (number * 2 ^ k : Nat)
  /-- A mask is an immediate that can be packed. -/
  | mask {given : ImmediateOperand} {number : Int} (isNumber : given.Denotes evaluate number)
      (range : -(2 ^ (dataSize wide - 1) : Nat) ≤ number ∧ number < (2 ^ dataSize wide : Nat))
      (packs : (LogicalImmediate.encode number (dataSize wide)).isSome) :
      SecondOperand evaluate wide .bitmask (.immediate given) fun _ => number

end InstructionSet

/-! ### Values -/

/-- The value of a shift has the data size. -/
theorem shiftValue_lt (value code amount size : Nat) : shiftValue value code amount size < 2 ^ size := by
  have below := Nat.mod_lt value (Nat.two_pow_pos size)
  unfold shiftValue
  split
  · unfold Bits.shiftLeft
    split
    · exact Nat.two_pow_pos size
    · exact Nat.mod_lt _ (Nat.two_pow_pos size)
  · exact Nat.lt_of_le_of_lt (Nat.shiftRight_le _ _) below
  · exact Bits.wrap_lt _ _
  · exact Bits.rotateRight_lt _ _ _

/-- What the code of an extension tells. -/
theorem registerExtensions_codes : ∀ extension ∈ registerExtensions,
    extension.1.extendCode?.isSome = true ∧
      let code := extension.1.extendCode?.getD 0
      Modifier.extendWidth code = extension.2.1 ∧ decide (4 ≤ code) = extension.2.2 ∧
        (code % 4 == 3) = (extension.2.1 == 64) ∧
        extension.2.1 ≤ InstructionForm.dataSize (extension.2.1 == 64) := by
  decide

/-- The extension of a register is the one of its lowest bits, shifted to the left. -/
theorem extendValue_of_listed {modifier : Modifier} {width : Nat} {signed : Bool}
    (listed : (modifier, width, signed) ∈ registerExtensions) {register : Register}
    (fits : register.wide = (width == 64)) {k size : Nat} (within : k < size) (state : CoreState) :
    extendValue (state.registers.value register.slot % 2 ^ 64) (modifier.extendCode?.getD 0) k size =
      Bits.wrap size ((if signed then Bits.signExtend (state.contents register) width
        else (state.contents register % 2 ^ width : Nat)) * (2 ^ k : Nat)) := by
  obtain ⟨-, keeps, sign, -, narrow⟩ := registerExtensions_codes _ listed
  have narrow' := Nat.le_trans narrow (InstructionSet.dataSize_range _).2
  have same : state.registers.value register.slot % 2 ^ 64 % 2 ^ width =
      state.contents register % 2 ^ width := by
    rw [CoreState.contents, fits, Nat.mod_mod_of_dvd _ (Nat.pow_dvd_pow 2 narrow'),
      Nat.mod_mod_of_dvd _ (Nat.pow_dvd_pow 2 narrow)]
  rw [extendValue, if_neg (Nat.not_le.mpr within), keeps, same, ← Bits.signExtend_mod _ width, same,
    Bits.signExtend_mod]
  cases signed with
  | true => rw [if_pos (of_decide_eq_true sign), if_pos rfl]
  | false => rw [if_neg (of_decide_eq_false sign), if_neg (by decide)]

/-! ### Execution -/

namespace Execution

variable {instruction : Instruction} {allowed : ExecutionFault → Prop} {before : CoreState}
  {wide : Bool} {y : Int}

open DataProcessing

section Sums

variable (subtracts : Bool) (code : instruction.value 'p' = subtracts.toNat)
  (sets : instruction.value 'f' = 1) (size : dataSize instruction = InstructionForm.dataSize wide)

include code sets size

/-- A sum with an extended register. -/
theorem ensures_addSubExtended (offers : instruction.Offers ['n', 'm', 'o', 'i', 'p', 'd', 'f'])
    (op : instruction.form.op = .addSubExtended)
    (second : extendValue (before.registers.value (instruction.value 'm') % 2 ^ 64)
      (instruction.value 'o') (instruction.value 'i') (InstructionForm.dataSize wide) =
        Bits.wrap (InstructionForm.dataSize wide) y) :
    Ensures allowed (perform instruction)
      (LeavesSum instruction wide subtracts before (Bits.wrap (InstructionForm.dataSize wide) y)
        subtracts.toNat) before := by
  simpa [-Nat.reducePow, perform, op, addSubExtended, offers.present, offers.registers, size, second,
    code, CoreState.contents] using ensures_addSub subtracts (offers.mono (by decide)) code sets
      (Bits.wrap_lt _ y) (Bool.toNat_le subtracts) (by simp)

/-- A sum with a shifted register. -/
theorem ensures_addSubShifted (offers : instruction.Offers ['n', 'm', 's', 'i', 'p', 'd', 'f'])
    (op : instruction.form.op = .addSubShifted)
    (second : shiftValue (before.contents ⟨instruction.value 'm', wide⟩) (instruction.value 's')
      (instruction.value 'i') (InstructionForm.dataSize wide) =
        Bits.wrap (InstructionForm.dataSize wide) y) :
    Ensures allowed (perform instruction)
      (LeavesSum instruction wide subtracts before (Bits.wrap (InstructionForm.dataSize wide) y)
        subtracts.toNat) before := by
  rw [CoreState.contents] at second
  simpa [perform, op, addSubShifted, offers.present, offers.registers, size, second, code,
    CoreState.contents] using ensures_addSub subtracts (offers.mono (by decide)) code sets
      (Bits.wrap_lt _ y) (Bool.toNat_le subtracts) (by simp)

/-- A sum with an immediate. -/
theorem ensures_addSubImmediate (offers : instruction.Offers ['n', 'i', 's', 'p', 'd', 'f'])
    (op : instruction.form.op = .addSubImmediate)
    (second : Bits.shiftLeft (instruction.value 'i') (12 * instruction.value 's')
      (InstructionForm.dataSize wide) = Bits.wrap (InstructionForm.dataSize wide) y) :
    Ensures allowed (perform instruction)
      (LeavesSum instruction wide subtracts before (Bits.wrap (InstructionForm.dataSize wide) y)
        subtracts.toNat) before := by
  simpa [perform, op, addSubImmediate, offers.present, offers.registers, size, second, code,
    CoreState.contents] using ensures_addSub subtracts (offers.mono (by decide)) code sets
      (Bits.wrap_lt _ y) (Bool.toNat_le subtracts) (by simp)

end Sums

/-- An instruction leaves the common bits of its first register and a second operand in its
destination, with the flags of a logical result. -/
def LeavesCommon (instruction : Instruction) (wide : Bool) (before : CoreState) (second : Nat)
    (branched : Option Nat) (after : CoreState) : Prop :=
  branched = none ∧ before.Receives after ⟨instruction.value 'd', wide⟩
    (before.contents ⟨instruction.value 'n', wide⟩ &&& second : Nat)
    (.ofFlags (.ofLogical (before.contents ⟨instruction.value 'n', wide⟩ &&& second : Nat)
      (InstructionForm.dataSize wide)))

/-- Common bits with a shifted register. -/
theorem ensures_logicShifted (code : instruction.value 'c' = 3)
    (size : dataSize instruction = InstructionForm.dataSize wide)
    (offers : instruction.Offers ['m', 's', 'i', 'N', 'n', 'c', 'd'])
    (op : instruction.form.op = .logicShifted) (upright : instruction.value 'N' = 0)
    (second : shiftValue (before.contents ⟨instruction.value 'm', wide⟩) (instruction.value 's')
      (instruction.value 'i') (InstructionForm.dataSize wide) =
        Bits.wrap (InstructionForm.dataSize wide) y) :
    Ensures allowed (perform instruction)
      (LeavesCommon instruction wide before (Bits.wrap (InstructionForm.dataSize wide) y))
      before := by
  rw [CoreState.contents] at second
  simpa [perform, op, logicShifted, logic, offers.present, offers.registers, size, second, code,
    upright, LeavesCommon, CoreState.contents] using
    CoreState.receives_of_write wide (by simp) (offers.registers 'd' (by decide)) _ _

/-- A logical instruction with a mask. -/
theorem ensures_mask (logic : LogicInstruction)
    (size : dataSize instruction = InstructionForm.dataSize wide)
    (offers : instruction.Offers ['N', 's', 'r', 'n', 'c', 'd'])
    (op : instruction.form.op = .logicImmediate) (code : instruction.value 'c' = logic.code)
    {mask other : Nat}
    (unpacked : LogicalImmediate.decode (instruction.value 'N') (instruction.value 's')
      (instruction.value 'r') (InstructionForm.dataSize wide) true = some (mask, other)) :
    Ensures allowed (perform instruction)
      (fun branched after => branched = none ∧
        before.Receives after ⟨instruction.value 'd', wide⟩
          (logic.result (before.contents ⟨instruction.value 'n', wide⟩) mask : Nat)
          (logic.status (InstructionForm.dataSize wide)
            (logic.result (before.contents ⟨instruction.value 'n', wide⟩) mask) before.status))
      before := by
  cases logic
  all_goals
    simpa [perform, op, logicImmediate, masks, logic, offers.present, offers.registers, size,
      unpacked, code, LogicInstruction.code, LogicInstruction.result, LogicInstruction.status,
      CoreState.contents] using
      CoreState.receives_of_write wide (by simp) (offers.registers 'd' (by decide)) _ _

end Execution

/-! ### Fields -/

/-- The code of the shift that is written behind a register. -/
theorem Shift.code_of_written {shift : Shift} {modifier : Option Modifier}
    (written : modifier.getD .lsl = shift.modifier) :
    (modifier.bind Modifier.shiftCode?).getD 0 = shift.code := by
  cases modifier with
  | none => cases shift <;> first | rfl | contradiction
  | some modifier =>
    obtain rfl : modifier = shift.modifier := written
    rw [Option.bind_some, shift.shiftCode?_modifier, Option.getD_some]

namespace InstructionSet

open InstructionForm (dataSize)

section Fields

variable {evaluate : Evaluator} {wide : Bool} {kind : OperandKind} {given : RegisterOperand} {k : Nat}

/-- A shifted register sets its slot, the code of the shift and the amount. -/
theorem sets_shifted {shift : Shift}
    (takes : kind = .shifted ∨ kind = .arithmeticShifted ∧ shift ≠ .ror) (regular : given.Regular)
    (written : given.modifier.getD .lsl = shift.modifier) (same : given.register.wide = wide)
    (amount : Encode.amount evaluate given.amount = .ok (k : Int)) (within : k < dataSize wide) :
    Sets evaluate (some wide) (some wide) (kind, own) (.register given)
      [('m', given.register.slot), ('s', shift.code), ('i', k)] where
  regular := regular
  fits := by
    cases modifier : given.modifier with
    | none =>
      rcases takes with rfl | ⟨rfl, _⟩ <;>
        simp [OperandKind.fits, OperandKind.ofChar?_code, OperandKind.fitsRegister, modifier]
    | some modifier' =>
      rw [modifier, Option.getD_some] at written
      rcases takes with rfl | ⟨rfl, upright⟩
      · simp [OperandKind.fits, OperandKind.ofChar?_code, OperandKind.fitsRegister, modifier, written,
          shift.shiftCode?_modifier]
      · have below : shift.code < 3 := by cases shift <;> first | decide | contradiction
        simp [OperandKind.fits, OperandKind.ofChar?_code, OperandKind.fitsRegister, modifier, written,
          shift.shiftCode?_modifier, below]
  letters := by
    rcases takes with rfl | ⟨rfl, _⟩ <;> simp [OperandKind.letters, OperandKind.fieldLetters]
  gathered form here draft flag := by
    have inside : (k : Int) < draft.size := by rw [size_of_wide flag]; omega
    have shifts : kind ∈ [.shifted, .arithmeticShifted] := by
      rcases takes with rfl | ⟨rfl, _⟩ <;> simp
    rw [Draft.withWide_setEach flag]
    exact (Encode.operand_modified_eq_ok shifts (Shift.code_of_written written)).mpr
      ⟨by rw [flag]; exact same, k, amount, ⟨by omega, inside⟩, rfl⟩

/-- An extended register sets its slot, the code of the extension and the amount. -/
theorem sets_extended {modifier : Modifier} {width : Nat} {signed : Bool}
    (listed : (modifier, width, signed) ∈ registerExtensions) (regular : given.Regular)
    (written : given.modifier = some modifier) (fits : given.register.wide = (width == 64))
    (amount : Encode.amount evaluate given.amount = .ok (k : Int)) (within : k ≤ 4) :
    Sets evaluate (some wide) (some wide) (.extended, own) (.register given)
      [('m', given.register.slot), ('o', modifier.extendCode?.getD 0), ('i', k)] where
  regular := regular
  fits := by
    obtain ⟨coded, -⟩ := registerExtensions_codes _ listed
    simpa [OperandKind.fits, OperandKind.ofChar?_code, OperandKind.fitsRegister, written] using coded
  letters := by simp [OperandKind.letters, OperandKind.fieldLetters]
  gathered form here draft flag := by
    obtain ⟨-, -, -, full, -⟩ := registerExtensions_codes _ listed
    rw [Draft.withWide_setEach flag]
    exact (Encode.operand_extended_eq_ok (by rw [written]; rfl)).mpr
      ⟨fits.trans full.symm, k, amount, ⟨by omega, by omega⟩, rfl⟩

/-- An immediate of an addition sets the fields that its encoding gives. -/
theorem sets_immediate {given : ImmediateOperand} {number : Int} {fields : List (Char × Nat)}
    (known : evaluate given.value = .ok number)
    (letters : ∀ field ∈ fields, field.1 ∈ OperandKind.arithmeticImmediate.letters own)
    (encoded : ∀ draft : Draft, Encode.arithmeticImmediate given number evaluate draft =
      .ok (draft.setEach fields)) :
    Sets evaluate (some wide) (some wide) (.arithmeticImmediate, own) (.immediate given) fields where
  regular := trivial
  fits := by simp [OperandKind.fits, OperandKind.ofChar?_code, OperandKind.isImmediate]
  letters := letters
  gathered form here draft flag := by
    have read : Encode.value evaluate given.value = .ok number := by rw [Encode.value, known]; rfl
    rw [Draft.withWide_setEach flag, ← encoded draft]
    simp only [Encode.operand, OperandKind.ofChar?_code, ok_bind read, Encode.immediate]

/-- An immediate of an addition sets a field of twelve bits and whether that is shifted by twelve. -/
theorem exists_sets_immediate {given : ImmediateOperand} {number : Nat}
    (known : evaluate given.value = .ok (number : Int))
    (amount : Encode.amount evaluate given.amount = .ok (k : Int)) (takes : k = 0 ∨ k = 12)
    (small : number < 4096 ∨ k = 0 ∧ number % 4096 = 0 ∧ number < 2 ^ 24) :
    ∃ field shifted, field <<< (12 * shifted) = number * 2 ^ k ∧ shifted ≤ 1 ∧
      Sets evaluate (some wide) (some wide) (.arithmeticImmediate, own) (.immediate given)
        [('s', shifted), ('i', field)] := by
  have letters (field shifted : Nat) : ∀ set ∈ [('s', shifted), ('i', field)],
      set.1 ∈ OperandKind.arithmeticImmediate.letters own := by
    simp [OperandKind.letters, OperandKind.fieldLetters]
  have plain {field shifted : Nat} (below : field < 4096)
      (proper : shifted = 0 ∨ shifted = 1 ∧ 0 < field) (same : field <<< (12 * shifted) = number)
      (zero : Encode.amount evaluate given.amount = .ok 0) :
      Sets evaluate (some wide) (some wide) (.arithmeticImmediate, own) (.immediate given)
        [('s', shifted), ('i', field)] :=
    sets_immediate known (letters field shifted) fun draft =>
      same ▸ Encode.arithmeticImmediate_of_plain below proper zero draft
  rcases takes with rfl | rfl
  · by_cases below : number < 4096
    · exact ⟨number, 0, by simp, by decide, plain below (.inl rfl) rfl amount⟩
    · have same : (number / 4096) <<< (12 * 1) = number := by rw [Nat.shiftLeft_eq]; omega
      exact ⟨number / 4096, 1, by rw [same]; simp, by decide,
        plain (by omega) (.inr ⟨rfl, by omega⟩) same amount⟩
  · exact ⟨number, 1, Nat.shiftLeft_eq .., by decide, sets_immediate known (letters number 1) fun draft =>
      Encode.arithmeticImmediate_of_shifted (by omega) amount draft⟩

/-- A data size is a power of two. -/
theorem exists_dataSize (wide : Bool) :
    ∃ whole, 1 ≤ whole ∧ whole < 7 ∧ dataSize wide = 2 ^ whole := by
  cases wide
  · exact ⟨5, by decide, by decide, rfl⟩
  · exact ⟨6, by decide, by decide, rfl⟩

/-- A mask sets the numbers that it is packed in. -/
theorem exists_sets_mask {given : ImmediateOperand} {number : Int}
    (isNumber : given.Denotes evaluate number)
    (range : -(2 ^ (dataSize wide - 1) : Nat) ≤ number ∧ number < (2 ^ dataSize wide : Nat))
    (packs : (LogicalImmediate.encode number (dataSize wide)).isSome) :
    ∃ n immr imms other,
      LogicalImmediate.decode n imms immr (dataSize wide) true =
        some (Bits.wrap (dataSize wide) number, other) ∧
      Sets evaluate (some wide) (some wide) (.bitmask, own) (.immediate given)
        [('N', n), ('r', immr), ('s', imms)] := by
  obtain ⟨⟨n, immr, imms⟩, packed⟩ := Option.isSome_iff_exists.mp packs
  obtain ⟨whole, long, short, size⟩ := exists_dataSize wide
  obtain ⟨-, -, -, -, other, unpacked⟩ := LogicalImmediate.decode_encode long short (size ▸ packed)
  refine ⟨n, immr, imms, other, size ▸ unpacked, trivial, ?_, ?_, fun form here draft flag => ?_⟩
  · exact (fits_immediate_iff rfl (by decide)).mpr isNumber.plain
  · simp [OperandKind.letters, OperandKind.fieldLetters]
  · have read : Encode.value evaluate given.value = .ok number := by
      rw [Encode.value, isNumber.known]; rfl
    have within : Encode.require (decide (-(2 ^ (draft.size - 1) : Nat) ≤ number ∧
        number < (2 ^ draft.size : Nat))) .immediateRange given.span = .ok () := by
      rw [size_of_wide flag]
      exact Encode.require_eq_ok.mpr (decide_eq_true range)
    rw [← size_of_wide flag] at packed
    rw [Draft.withWide_setEach flag]
    simp only [Encode.operand, OperandKind.ofChar?_code, ok_bind read, Encode.immediate,
      Encode.bitmask, ok_bind within, packed]
    rfl

end Fields

/-! ### Instructions -/

/-- The kinds of second operands of sums. -/
def sumKinds : List OperandKind := [.extended, .arithmeticShifted, .arithmeticImmediate]

/-- The operation of a sum by the kind of its second operand. -/
def sumOperation : OperandKind → Operation
  | .extended => .addSubExtended
  | .arithmeticImmediate => .addSubImmediate
  | _ => .addSubShifted

/-- The codes of a sum that sets the flags. -/
def sumCodes (subtracts wide : Bool) : List (Char × Nat) :=
  [('p', subtracts.toNat), ('f', 1), ('z', wide.toNat)]

/-- The kinds of second operands of logical operations. -/
def logicKinds : List OperandKind := [.shifted, .bitmask]

/-- The logical operation by the kind of its second operand. -/
def logicOperation : OperandKind → Operation
  | .bitmask => .logicImmediate
  | _ => .logicShifted

/-- The codes of a logical operation that leaves the common bits and sets the flags. A register is
not complemented. -/
def commonCodes (kind : OperandKind) (wide : Bool) : List (Char × Nat) :=
  [('c', 3), ('z', wide.toNat)] ++ if kind = .shifted then [('N', 0)] else []

/-- The fields of a logical instruction with a mask. -/
def maskFields (logic : LogicInstruction) (wide : Bool) (n immr imms : Nat) : List (Char × Nat) :=
  [('N', n), ('r', immr), ('s', imms), ('c', logic.code), ('z', wide.toNat)]

/-- An instruction with the fields of a mask combines its register with the mask. -/
theorem Coded.ensures_mask {instruction : Instruction} {codes : List (Char × Nat)}
    (coded : Coded instruction .logicImmediate codes) (logic : LogicInstruction) {wide : Bool}
    {n immr imms mask other : Nat} (among : maskFields logic wide n immr imms ⊆ codes)
    (unpacked : LogicalImmediate.decode n imms immr (InstructionForm.dataSize wide) true =
      some (mask, other))
    (before : CoreState) :
    Execution.Ensures (fun _ => False) (Execution.perform instruction)
      (fun branched after => branched = none ∧
        before.Receives after ⟨instruction.value 'd', wide⟩
          (logic.result (before.contents ⟨instruction.value 'n', wide⟩) mask : Nat)
          (logic.status (InstructionForm.dataSize wide)
            (logic.result (before.contents ⟨instruction.value 'n', wide⟩) mask) before.status))
      before := by
  replace coded := coded.mono among
  have size : Execution.dataSize instruction = InstructionForm.dataSize wide :=
    coded.dataSize (by simp [maskFields]) (by decide)
  have known := coded.codes
  simp only [maskFields, List.forall_mem_cons] at known
  obtain ⟨rfl, rfl, rfl, code, -⟩ := known
  exact Execution.ensures_mask logic size (coded.offers _ (by decide)) coded.op code unpacked

section Instructions

variable {evaluate : Evaluator} {wide : Bool} {kind : OperandKind} {given : Operand}
  {value : CoreState → Int}

/-- The second operand of a sum sets fields from which the execution computes its value. -/
theorem SecondOperand.exists_sum (second : SecondOperand evaluate wide kind given value)
    (sums : kind ∈ sumKinds) :
    ∃ fields, Sets evaluate (some wide) (some wide) (kind, own) given fields ∧
      (['d', 'n'] ++ fields.map Prod.fst).Nodup ∧
      ∀ (before : CoreState) (subtracts : Bool) (instruction : Instruction),
        Coded instruction (sumOperation kind) (fields ++ sumCodes subtracts wide) →
        Execution.Ensures (fun _ => False) (Execution.perform instruction)
          (Execution.LeavesSum instruction wide subtracts before
            (Bits.wrap (dataSize wide) (value before)) subtracts.toNat) before := by
  cases second with
  | shifted shift takes regular written same amount within =>
    rename_i register k
    refine ⟨_, sets_shifted takes regular written same amount within, by simp,
      fun before subtracts instruction coded => ?_⟩
    obtain rfl : kind = .arithmeticShifted := by
      rcases takes with rfl | ⟨rfl, _⟩
      · exact absurd sums (by decide)
      · rfl
    have known := coded.codes
    simp only [sumCodes, List.cons_append, List.nil_append, List.forall_mem_cons] at known
    obtain ⟨isSource, isShift, isAmount, code, sets, _⟩ := known
    refine Execution.ensures_addSubShifted subtracts code sets
      (coded.dataSize (by simp [sumCodes]) (by decide)) (coded.offers _ (by decide)) coded.op ?_
    rw [isSource, isShift, isAmount, Register.eta same,
      ← Shift.wrap_shiftValue shift (same ▸ before.contents_lt register.register) within,
      Bits.wrap_of_lt (shiftValue_lt _ _ _ _)]
  | extended listed regular written fits amount within =>
    rename_i modifier width signed register k
    have inside : k < dataSize wide := Nat.lt_of_le_of_lt within (by cases wide <;> decide)
    refine ⟨_, sets_extended listed regular written fits amount within, by simp,
      fun before subtracts instruction coded => ?_⟩
    have known := coded.codes
    simp only [sumCodes, List.cons_append, List.nil_append, List.forall_mem_cons] at known
    obtain ⟨isSource, isExtension, isAmount, code, sets, _⟩ := known
    refine Execution.ensures_addSubExtended subtracts code sets
      (coded.dataSize (by simp [sumCodes]) (by decide)) (coded.offers _ (by decide)) coded.op ?_
    rw [isSource, isExtension, isAmount]
    exact extendValue_of_listed listed fits inside before
  | immediate known amount takes small =>
    obtain ⟨field, shifted, same, single, fits⟩ := exists_sets_immediate known amount takes small
    refine ⟨_, fits, by simp, fun before subtracts instruction coded => ?_⟩
    have known := coded.codes
    simp only [sumCodes, List.cons_append, List.nil_append, List.forall_mem_cons] at known
    obtain ⟨isShift, isField, code, sets, _⟩ := known
    refine Execution.ensures_addSubImmediate subtracts code sets
      (coded.dataSize (by simp [sumCodes]) (by decide)) (coded.offers _ (by decide)) coded.op ?_
    have least : 12 < dataSize wide := by cases wide <;> decide
    have inside : ¬dataSize wide ≤ 12 * shifted := by omega
    rw [isShift, isField, Bits.shiftLeft, if_neg inside, same,
      Bits.wrap_natCast]
  | mask => exact absurd sums (by decide)

/-- The second operand of a logical operation sets fields from which the execution computes its
value. -/
theorem SecondOperand.exists_common (second : SecondOperand evaluate wide kind given value)
    (logical : kind ∈ logicKinds) :
    ∃ fields, Sets evaluate (some wide) (some wide) (kind, own) given fields ∧
      (['d', 'n'] ++ fields.map Prod.fst).Nodup ∧
      ∀ (before : CoreState) (instruction : Instruction),
        Coded instruction (logicOperation kind) (fields ++ commonCodes kind wide) →
        Execution.Ensures (fun _ => False) (Execution.perform instruction)
          (Execution.LeavesCommon instruction wide before
            (Bits.wrap (dataSize wide) (value before))) before := by
  cases second with
  | shifted shift takes regular written same amount within =>
    rename_i register k
    refine ⟨_, sets_shifted takes regular written same amount within, by simp,
      fun before instruction coded => ?_⟩
    obtain rfl : kind = .shifted := by
      rcases takes with rfl | ⟨rfl, _⟩
      · rfl
      · exact absurd logical (by decide)
    have known := coded.codes
    simp only [commonCodes, if_true, List.cons_append, List.nil_append, List.forall_mem_cons] at known
    obtain ⟨isSource, isShift, isAmount, code, _, upright, _⟩ := known
    refine Execution.ensures_logicShifted code (coded.dataSize (by simp [commonCodes]) (by decide))
      (coded.offers _ (by decide)) coded.op upright ?_
    rw [isSource, isShift, isAmount, Register.eta same,
      ← Shift.wrap_shiftValue shift (same ▸ before.contents_lt register.register) within,
      Bits.wrap_of_lt (shiftValue_lt _ _ _ _)]
  | mask isNumber range packs =>
    obtain ⟨n, immr, imms, other, unpacked, fits⟩ := exists_sets_mask isNumber range packs
    refine ⟨_, fits, by simp, fun before instruction coded => ?_⟩
    exact Coded.ensures_mask coded .ands (by simp [maskFields, commonCodes, LogicInstruction.code])
      unpacked before
  | extended => exact absurd logical (by decide)
  | immediate => exact absurd logical (by decide)

end Instructions

end InstructionSet

end A64Machine
