import A64Machine.Proofs.ImmediateForms
import A64Machine.Proofs.WideMove

/-!
# Numbers written as immediates

An instruction whose last operand is an immediate computes with the number that was written, whatever
fields hold it. A move has three forms for that: one loads a half-word in its place, one loads the
complement of such a half-word, and one has a mask. A logical instruction takes masks, and a sum takes
twelve bits that may be shifted by twelve. Which numbers are encoded is told here without the forms,
and what the instructions do is told without the fields.
-/

namespace A64Machine

open Bits

/-- The sums and differences with an immediate. -/
inductive SumInstruction where
  | add
  | adds
  | sub
  | subs
  | cmp
  | cmn
  deriving DecidableEq, Repr

namespace SumInstruction

def all : List SumInstruction := [.add, .adds, .sub, .subs, .cmp, .cmn]

theorem mem_all (sum : SumInstruction) : sum ∈ all := by cases sum <;> decide

def name : SumInstruction → String
  | .add => "add"
  | .adds => "adds"
  | .sub => "sub"
  | .subs => "subs"
  | .cmp => "cmp"
  | .cmn => "cmn"

def subtracts : SumInstruction → Bool
  | .sub | .subs | .cmp => true
  | _ => false

def setsFlags : SumInstruction → Bool
  | .add | .sub => false
  | _ => true

/-- A comparison leaves no result. -/
def discards : SumInstruction → Bool
  | .cmp | .cmn => true
  | _ => false

def result (sum : SumInstruction) (x y : Int) : Int :=
  if sum.subtracts then x - y else x + y

/-- The status behind the sum or the difference of two numbers: the flags tell of it, or they are
kept. -/
def Reports (sum : SumInstruction) (size x y : Nat) (before after : Status) : Prop :=
  if sum.setsFlags then
    ∃ result flags, Sums size x (addend sum.subtracts size y) sum.subtracts.toNat result flags ∧
      flags.z = decide (result = 0) ∧ after = .ofFlags flags
  else after = before

end SumInstruction

/-- The result of a sum with an addend represents the sum or the difference. -/
theorem Sums.wrap_result {sum : SumInstruction} {size x y result : Nat} {flags : Flags}
    (sums : Sums size x (addend sum.subtracts size y) sum.subtracts.toNat result flags)
    (small : y < 2 ^ size) : wrap size result = wrap size (sum.result x y) := by
  rw [SumInstruction.result]
  generalize sum.subtracts = subtracts at sums
  cases subtracts with
  | true =>
    rw [sums.result_eq_sub small, wrap_of_lt (wrap_lt _ _)]
    rfl
  | false =>
    rw [if_neg (by decide), sums.result_eq, ← Int.natCast_add, ← wrap_natCast,
      wrap_of_lt (wrap_lt _ _)]
    rfl

/-- The complement of the representative of a complement stands for the number itself. -/
theorem Bits.wrap_neg_one_sub_wrap (size : Nat) (value : Int) :
    wrap size (-1 - (wrap size (-1 - value) : Nat)) = wrap size value := by
  rw [natCast_wrap, wrap, Int.sub_emod_emod, show -1 - (-1 - value) = value by omega]
  rfl

/-! ### Execution -/

namespace Execution

variable {instruction : Instruction} {allowed : ExecutionFault → Prop} {before : CoreState}
  {wide : Bool}

open DataProcessing

/-- A sum or a difference with an immediate. -/
theorem ensures_immediateSum (sum : SumInstruction)
    (size : dataSize instruction = InstructionForm.dataSize wide)
    (offers : instruction.Offers ['n', 'i', 's', 'p', 'd', 'f'])
    (op : instruction.form.op = .addSubImmediate)
    (code : instruction.value 'p' = sum.subtracts.toNat)
    (sets : instruction.value 'f' = sum.setsFlags.toNat) {y : Nat}
    (small : y < 2 ^ InstructionForm.dataSize wide)
    (second : shiftLeft (instruction.value 'i') (12 * instruction.value 's')
      (InstructionForm.dataSize wide) = y) :
    Ensures allowed (perform instruction)
      (fun branched after => branched = none ∧
        before.Receives after ⟨instruction.value 'd', wide⟩
          (sum.result (before.contents ⟨instruction.value 'n', wide⟩) y) after.status ∧
        sum.Reports (InstructionForm.dataSize wide)
          (before.contents ⟨instruction.value 'n', wide⟩) y before.status after.status)
      before := by
  have left := before.contents_lt ⟨instruction.value 'n', wide⟩
  cases flagged : sum.setsFlags with
  | true =>
    rw [flagged] at sets
    have leaves := @ensures_addSubImmediate instruction allowed before wide y sum.subtracts code
      sets size offers op (by rw [second, wrap_of_lt small])
    refine leaves.imp fun branched after done => ⟨done.1, ?_⟩
    obtain ⟨result, flags, sums, zero, receives⟩ := done.2
    rw [wrap_of_lt small] at sums
    have status := receives.status
    refine ⟨status ▸ receives.congr (sums.wrap_result small), ?_⟩
    rw [SumInstruction.Reports, if_pos flagged]
    exact ⟨result, flags, sums, zero, status⟩
  | false =>
    rw [flagged] at sets
    have sums := sums_addWithCarry (InstructionSet.dataSize_range wide).1 left
      (addend_lt sum.subtracts small) (Bool.toNat_le sum.subtracts)
    have added : (if sum.subtracts = false then y
        else wrap (InstructionForm.dataSize wide) (-1 - y)) =
        addend sum.subtracts (InstructionForm.dataSize wide) y := by
      rw [wrap_neg_one_sub small]
      cases sum.subtracts <;> rfl
    have kept : sum.Reports (InstructionForm.dataSize wide)
        (before.contents ⟨instruction.value 'n', wide⟩) y before.status before.status := by
      rw [SumInstruction.Reports, if_neg (by simp [flagged])]
    have write := CoreState.receives_of_write wide
      (RegisterFile.value_afterRead before.registers (instruction.value 'n') ·)
      (offers.registers 'd' (by decide)) before.status
    have receives := (write _).congr (sums.wrap_result small)
    simpa [-Nat.reducePow, perform, op, addSubImmediate, addSub, offers.present, offers.registers,
      size, second, code, sets, added, CoreState.contents] using And.intro receives kept

end Execution

namespace InstructionSet

open InstructionForm (dataSize)

/-! ### Forms -/

/-- The registers of a form in front of its immediate: a destination, unless there is none, and a
source. -/
def frontOf (discards : Bool) : List FormOperand :=
  if discards then [reg 'n'] else [reg 'd', reg 'n']

/-- The registers that are written in front of the immediate. -/
def registersOf (discards : Bool) (d n : RegisterOperand) : List Operand :=
  if discards then [.register n] else [.register d, .register n]

/-- The register that receives the result, which is the zero register if there is no destination. -/
def targetOf (discards : Bool) (register : Register) : Register :=
  if discards then ⟨Register.zeroSlot, register.wide⟩ else register

/-- The destination of a form that leaves no result. -/
def discardCodes (discards : Bool) : List (Char × Nat) :=
  if discards then [('d', Register.zeroSlot)] else []

/-- The forms that move a number. -/
def moveForms : List ImmediateForm :=
  [⟨.wide, .moveWide, fun wide => [('c', WideMove.movz.code), ('z', wide.toNat)]⟩,
    ⟨.invertedWide, .moveWide, fun wide => [('c', WideMove.movn.code), ('z', wide.toNat)]⟩,
    ⟨.bitmask, .logicImmediate, fun wide =>
      [('c', LogicInstruction.orr.code), ('z', wide.toNat), ('n', Register.zeroSlot)]⟩]

/-- The form of a logical instruction with a mask. -/
def maskForm (logic : LogicInstruction) : ImmediateForm :=
  ⟨.bitmask, .logicImmediate, fun wide =>
    [('c', logic.code), ('z', wide.toNat)] ++ discardCodes logic.discards⟩

/-- The form of a sum with an immediate. -/
def sumForm (sum : SumInstruction) : ImmediateForm :=
  ⟨.arithmeticImmediate, .addSubImmediate, fun wide =>
    [('p', sum.subtracts.toNat), ('f', sum.setsFlags.toNat), ('z', wide.toNat)] ++
      discardCodes sum.discards⟩

/-- The forms of a move with an immediate are these three. -/
theorem hasImmediates_mov : HasImmediates "mov" [reg 'd'] moveForms := by decide +kernel

/-- Each logical instruction has one form with an immediate. -/
theorem hasImmediates_logic : ∀ logic ∈ LogicInstruction.all,
    HasImmediates logic.name (frontOf logic.discards) [maskForm logic] := by
  decide +kernel

/-- Each sum has one form with an immediate. -/
theorem hasImmediates_sum : ∀ sum ∈ SumInstruction.all,
    HasImmediates sum.name (frontOf sum.discards) [sumForm sum] := by
  decide +kernel

/-! ### Instructions -/

/-- An instruction is encoded at an address. -/
def Encodes (here : Int) (evaluate : Evaluator) (mnemonic : String) (operands : List Operand) :
    Prop :=
  ∃ word, Codec.a64.encode mnemonic operands here evaluate = .ok word

section Instructions

variable {here value : Int} {evaluate : Evaluator} {d n : RegisterOperand} {size : Nat}
  {given : ImmediateOperand} (isNumber : given.Denotes evaluate value)
  (unshifted : given.amount = none) (plain : d.Plain)

include isNumber unshifted plain

/-- A move of a number is encoded exactly when one of its forms takes the number. -/
theorem encodes_mov_iff (sized : dataSize d.register.wide = size)
    (range : 0 ≤ value ∧ value < (2 ^ size : Nat)) :
    Encodes here evaluate "mov" [.register d, .immediate given] ↔
      WideImmediate.IsHalfWord size value.toNat ∨
        WideImmediate.IsHalfWord size (complement size value.toNat) ∨
        LogicalImmediate.IsMask size value.toNat := by
  subst sized
  have sets : SetsAll evaluate none (some d.register.wide) [reg 'd'] [.register d] _ :=
    .cons (sets_first plain) .nil
  refine (hasImmediates_mov.encodes_iff sets isNumber unshifted).trans ?_
  obtain ⟨number, rfl⟩ := Int.eq_ofNat_of_zero_le range.1
  have small : number < 2 ^ dataSize d.register.wide := Int.ofNat_lt.mp range.2
  have unit := Nat.two_pow_pos (dataSize d.register.wide - 1)
  have wide : 0 ≤ (number : Int) ∧ (number : Int) < (2 ^ dataSize d.register.wide : Nat) := range
  have inverted : -(2 ^ dataSize d.register.wide : Nat) < (number : Int) ∧
      (number : Int) < (2 ^ dataSize d.register.wide : Nat) := by omega
  have mask : -(2 ^ (dataSize d.register.wide - 1) : Nat) ≤ (number : Int) ∧
      (number : Int) < (2 ^ dataSize d.register.wide : Nat) := by omega
  simp only [moveForms, List.mem_cons, List.not_mem_nil, or_false, exists_eq_or_imp, exists_eq_left,
    OperandKind.TakesNumber, wrap_of_lt small, wrap_neg_one_sub small, Int.toNat_natCast,
    and_iff_right wide, and_iff_right inverted, and_iff_right mask]

/-- A move of a number that is encoded leaves the number in its register, whichever of its forms was
chosen. -/
theorem exists_step_mov (encodes : Encodes here evaluate "mov" [.register d, .immediate given])
    {before : CoreState} (zero : before.registers.value Register.zeroSlot = 0) :
    ∃ after, AssembledStep here evaluate "mov" [.register d, .immediate given] before after ∧
      before.Receives after d.register value before.status := by
  have sets : SetsAll evaluate none (some d.register.wide) [reg 'd'] [.register d] _ :=
    .cons (sets_first plain) .nil
  refine hasImmediates_mov.exists_step sets (by simp) isNumber unshifted encodes
    fun one among fields holds instruction coded => ?_
  simp only [moveForms, List.mem_cons, List.not_mem_nil, or_false] at among
  rcases among with rfl | rfl | rfl
  · cases holds with
    | half inside small written =>
      refine (coded.ensures_wideMove .movz (by simp [wideMoveFields]) inside small before).imp
        fun branched after done => ⟨done.1, done.2.congr ?_⟩
      rw [written]
      rfl
  · cases holds with
    | inverted inside small written =>
      refine (coded.ensures_wideMove .movn (by simp [wideMoveFields]) inside small before).imp
        fun branched after done => ⟨done.1, done.2.congr ?_⟩
      rw [WideMove.result, ← written, wrap_neg_one_sub_wrap]
  · cases holds with
    | mask unpacked =>
      have isZero : instruction.value 'n' = Register.zeroSlot :=
        coded.codes ('n', Register.zeroSlot) (by simp)
      have isTarget : instruction.value 'd' = d.register.slot :=
        coded.codes ('d', d.register.slot) (by simp)
      have empty : before.contents ⟨Register.zeroSlot, d.register.wide⟩ = 0 := by
        rw [CoreState.contents, zero, Nat.zero_mod]
      refine (coded.ensures_mask .orr (by simp [maskFields]) unpacked before).imp
        fun branched after done => ⟨done.1, ?_⟩
      have receives := done.2
      -- the mask is combined with the zero register, so it is what remains
      rw [isTarget, isZero, empty, LogicInstruction.result, Nat.zero_or] at receives
      exact receives.congr (wrap_of_lt (wrap_lt _ _))

variable (plain' : n.Plain) (same : n.register.wide = d.register.wide)

include plain' same

omit isNumber unshifted in
/-- The registers in front of an immediate tell the source and the destination. -/
theorem exists_front (discards : Bool) :
    ∃ fields, SetsAll evaluate none (some d.register.wide) (frontOf discards)
        (registersOf discards d n) fields ∧
      fields.map Prod.fst ∈ [['d'], ['n'], ['d', 'n']] ∧
      ∀ instruction : Instruction,
        (∀ code ∈ fields ++ discardCodes discards, instruction.value code.1 = code.2) →
          (⟨instruction.value 'd', d.register.wide⟩ : Register) = targetOf discards d.register ∧
          (⟨instruction.value 'n', d.register.wide⟩ : Register) = n.register := by
  cases discards with
  | false =>
    refine ⟨_, .cons (sets_first plain) (.cons (sets_register plain' same) .nil), by simp,
      fun instruction known => ?_⟩
    simp only [List.append_nil, List.cons_append, List.nil_append, List.forall_mem_cons] at known
    obtain ⟨isTarget, isSource, -⟩ := known
    exact ⟨by rw [isTarget]; rfl, by rw [isSource, ← same]⟩
  | true =>
    have sets : SetsAll evaluate none (some n.register.wide) [reg 'n'] [.register n] _ :=
      .cons (sets_first plain') .nil
    refine ⟨_, same ▸ sets, by simp, fun instruction known => ?_⟩
    simp only [discardCodes, if_true, List.append_nil, List.cons_append, List.nil_append,
      List.forall_mem_cons] at known
    obtain ⟨isSource, isTarget, -⟩ := known
    exact ⟨by rw [isTarget]; rfl, by rw [isSource, ← same]⟩

/-- A logical instruction is encoded with a number exactly when the number is in range and a mask. -/
theorem encodes_logic_iff (logic : LogicInstruction) (sized : dataSize d.register.wide = size) :
    Encodes here evaluate logic.name (registersOf logic.discards d n ++ [.immediate given]) ↔
      (-(2 ^ (size - 1) : Nat) ≤ value ∧ value < (2 ^ size : Nat)) ∧
        LogicalImmediate.IsMask size (wrap size value) := by
  subst sized
  obtain ⟨fields, sets, -⟩ := exists_front plain plain' same logic.discards
  have has := hasImmediates_logic logic logic.mem_all
  refine (has.encodes_iff sets isNumber unshifted).trans ?_
  simp only [List.mem_singleton, exists_eq_left]
  rfl

/-- A logical instruction with a number that is encoded combines its register with the representative
of the number. -/
theorem exists_step_logic (logic : LogicInstruction) (sized : dataSize d.register.wide = size)
    (encodes :
      Encodes here evaluate logic.name (registersOf logic.discards d n ++ [.immediate given]))
    (before : CoreState) :
    ∃ after, AssembledStep here evaluate logic.name
        (registersOf logic.discards d n ++ [.immediate given]) before after ∧
      before.Receives after (targetOf logic.discards d.register)
        (logic.result (before.contents n.register) (wrap size value) : Nat)
        (logic.status size (logic.result (before.contents n.register) (wrap size value))
          before.status) := by
  subst sized
  obtain ⟨fields, sets, ahead, tells⟩ := exists_front plain plain' same logic.discards
  have has := hasImmediates_logic logic logic.mem_all
  refine has.exists_step sets ahead isNumber unshifted encodes
    fun one among fields' holds instruction coded => ?_
  obtain rfl := List.mem_singleton.mp among
  cases holds with
  | mask unpacked =>
    obtain ⟨isTarget, isSource⟩ := tells instruction (coded.mono (by grind [maskForm])).codes
    have done := Coded.ensures_mask coded logic (by simp [maskForm, maskFields]) unpacked before
    rwa [isTarget, isSource] at done

/-- A sum is encoded with a number exactly when that has twelve bits, or is a multiple of 4096 of
twelve bits more. -/
theorem encodes_sum_iff (sum : SumInstruction) :
    Encodes here evaluate sum.name (registersOf sum.discards d n ++ [.immediate given]) ↔
      0 ≤ value ∧ (value < 4096 ∨ value % 4096 = 0 ∧ value < 2 ^ 24) := by
  obtain ⟨fields, sets, -⟩ := exists_front plain plain' same sum.discards
  have has := hasImmediates_sum sum sum.mem_all
  refine (has.encodes_iff sets isNumber unshifted).trans ?_
  simp only [List.mem_singleton, exists_eq_left]
  rfl

/-- A sum with a number that is encoded adds the number or subtracts it. -/
theorem exists_step_sum (sum : SumInstruction) (sized : dataSize d.register.wide = size)
    (encodes :
      Encodes here evaluate sum.name (registersOf sum.discards d n ++ [.immediate given]))
    (before : CoreState) :
    ∃ after, AssembledStep here evaluate sum.name
        (registersOf sum.discards d n ++ [.immediate given]) before after ∧
      before.Receives after (targetOf sum.discards d.register)
        (sum.result (before.contents n.register) value) after.status ∧
      sum.Reports size (before.contents n.register) value.toNat before.status after.status := by
  subst sized
  obtain ⟨nonneg, small⟩ :=
    (encodes_sum_iff isNumber unshifted plain plain' same sum).mp encodes
  obtain ⟨number, rfl⟩ := Int.eq_ofNat_of_zero_le nonneg
  obtain ⟨fields, sets, ahead, tells⟩ := exists_front plain plain' same sum.discards
  have has := hasImmediates_sum sum sum.mem_all
  refine has.exists_step sets ahead isNumber unshifted encodes
    fun one among fields' holds instruction coded => ?_
  obtain rfl := List.mem_singleton.mp among
  have least : 32 ≤ dataSize d.register.wide := by cases d.register.wide <;> decide
  have below : number < 2 ^ dataSize d.register.wide :=
    Nat.lt_of_lt_of_le (by omega) (Nat.pow_le_pow_right (by decide) least)
  cases holds with
  | @sum field shifted once written =>
    obtain ⟨isTarget, isSource⟩ := tells instruction (coded.mono (by grind [sumForm])).codes
    replace coded : Coded instruction .addSubImmediate _ := coded
    have code : instruction.value 'p' = sum.subtracts.toNat :=
      coded.codes ('p', sum.subtracts.toNat) (by simp [sumForm])
    have sets : instruction.value 'f' = sum.setsFlags.toNat :=
      coded.codes ('f', sum.setsFlags.toNat) (by simp [sumForm])
    have isShift : instruction.value 's' = shifted := coded.codes ('s', shifted) (by simp)
    have isField : instruction.value 'i' = field := coded.codes ('i', field) (by simp)
    have sized : Execution.dataSize instruction = dataSize d.register.wide :=
      coded.dataSize (by simp [sumForm]) (by decide)
    have second : shiftLeft (instruction.value 'i') (12 * instruction.value 's')
        (dataSize d.register.wide) = number := by
      rw [isField, isShift, shiftLeft, if_neg (by omega), ← Int.ofNat.inj written,
        Nat.mod_eq_of_lt below]
    have done := @Execution.ensures_immediateSum instruction (fun _ => False) before
      d.register.wide sum sized (coded.offers _ (by decide)) coded.op code sets number below second
    rwa [isTarget, isSource] at done

/-- Immediates mean the numbers that were written. A move is encoded for half-words in their places,
for the complements of those and for masks, and leaves the number. A logical instruction is encoded
for masks within range and combines its register with the representative of the number. A sum is
encoded for numbers of twelve bits, shifted by twelve or not, and adds or subtracts the number. -/
theorem immediates_mean_numbers (sized : dataSize d.register.wide = size) (here : Int) :
    ((Encodes here evaluate "mov" [.register d, .immediate given] →
        ∀ before : CoreState, before.registers.value Register.zeroSlot = 0 →
          ∃ after, AssembledStep here evaluate "mov" [.register d, .immediate given] before after ∧
            before.Receives after d.register value before.status) ∧
      (0 ≤ value ∧ value < (2 ^ size : Nat) →
        (Encodes here evaluate "mov" [.register d, .immediate given] ↔
          WideImmediate.IsHalfWord size value.toNat ∨
            WideImmediate.IsHalfWord size (complement size value.toNat) ∨
            LogicalImmediate.IsMask size value.toNat))) ∧
    (∀ logic : LogicInstruction,
      (Encodes here evaluate logic.name (registersOf logic.discards d n ++ [.immediate given]) ↔
        (-(2 ^ (size - 1) : Nat) ≤ value ∧ value < (2 ^ size : Nat)) ∧
          LogicalImmediate.IsMask size (wrap size value)) ∧
      (Encodes here evaluate logic.name (registersOf logic.discards d n ++ [.immediate given]) →
        ∀ before : CoreState,
          ∃ after, AssembledStep here evaluate logic.name
              (registersOf logic.discards d n ++ [.immediate given]) before after ∧
            before.Receives after (targetOf logic.discards d.register)
              (logic.result (before.contents n.register) (wrap size value) : Nat)
              (logic.status size (logic.result (before.contents n.register) (wrap size value))
                before.status))) ∧
    (∀ sum : SumInstruction,
      (Encodes here evaluate sum.name (registersOf sum.discards d n ++ [.immediate given]) ↔
        0 ≤ value ∧ (value < 4096 ∨ value % 4096 = 0 ∧ value < 2 ^ 24)) ∧
      (Encodes here evaluate sum.name (registersOf sum.discards d n ++ [.immediate given]) →
        ∀ before : CoreState,
          ∃ after, AssembledStep here evaluate sum.name
              (registersOf sum.discards d n ++ [.immediate given]) before after ∧
            before.Receives after (targetOf sum.discards d.register)
              (sum.result (before.contents n.register) value) after.status ∧
            sum.Reports size (before.contents n.register) value.toNat before.status
              after.status)) :=
  ⟨⟨fun encodes _ zero => exists_step_mov isNumber unshifted plain encodes zero,
      fun range => encodes_mov_iff isNumber unshifted plain sized range⟩,
    fun logic => ⟨encodes_logic_iff isNumber unshifted plain plain' same logic sized,
      fun encodes => exists_step_logic isNumber unshifted plain plain' same logic sized encodes⟩,
    fun sum => ⟨encodes_sum_iff isNumber unshifted plain plain' same sum,
      fun encodes => exists_step_sum isNumber unshifted plain plain' same sum sized encodes⟩⟩

end Instructions

/-- The complement of one is moved to a half register as such, it clears the lowest bit there, and it
is too large to be added. -/
theorem immediates_mean_numbers_complement :
    ∃ (d n : RegisterOperand) (given : ImmediateOperand) (before : CoreState),
      Operand.parse "w0, w1, #0xfffffffe" 0 = .ok [.register d, .register n, .immediate given] ∧
      before.contents n.register = 7 ∧
      (∃ after, AssembledStep 0 (Codec.addressOnly 0) "mov" [.register d, .immediate given] before
          after ∧ after.contents d.register = 0xfffffffe) ∧
      (∃ after, AssembledStep 0 (Codec.addressOnly 0) "and"
          [.register d, .register n, .immediate given] before after ∧
        after.contents d.register = 6) ∧
      ¬Encodes 0 (Codec.addressOnly 0) "add" [.register d, .register n, .immediate given] := by
  let d : RegisterOperand := ⟨"w0", ⟨0, false⟩, none, none, ⟨0, 2⟩⟩
  let n : RegisterOperand := ⟨"w1", ⟨1, false⟩, none, none, ⟨4, 6⟩⟩
  let given : ImmediateOperand :=
    ⟨⟨[⟨.number, "0xfffffffe", ⟨9, 19⟩⟩], ⟨9, 19⟩⟩, none, none, ⟨8, 19⟩⟩
  let before : CoreState :=
    ⟨⟨(Vector.replicate 32 0).set 1 7, false, []⟩, .clear, .ofBytes .little #[]⟩
  have plain : d.Plain := RegisterOperand.plain_of_ofName? (by decide) _
  have plain' : n.Plain := RegisterOperand.plain_of_ofName? (by decide) _
  have isNumber : given.Denotes (Codec.addressOnly 0) 0xfffffffe :=
    ⟨rfl, toOption_eq_some.mp (by decide +kernel)⟩
  obtain ⟨⟨moves, takes⟩, logic, sum⟩ := immediates_mean_numbers isNumber rfl plain plain' rfl
    (show dataSize d.register.wide = 32 from rfl) 0
  obtain ⟨combines, combined⟩ := logic .and
  have mask : LogicalImmediate.IsMask 32 0xfffffffe :=
    ⟨0, 31, 30, by decide, by decide, by decide, 0xffffffff, by decide⟩
  obtain ⟨moved, step, receives⟩ := moves ((takes (by decide)).mpr
    (.inr (.inl ⟨0, by decide, 1, by decide, by decide⟩))) before (by decide +kernel)
  obtain ⟨cleared, step', receives'⟩ := combined (combines.mpr ⟨by decide, mask⟩) before
  refine ⟨d, n, given, before, toOption_eq_some.mp (by decide +kernel), by decide +kernel,
    ⟨moved, step, ?_⟩, ⟨cleared, step', ?_⟩, fun encodes => ?_⟩
  · exact (receives.contents (by decide)).trans (by decide)
  · exact (receives'.contents (by decide)).trans (by decide +kernel)
  · exact absurd ((sum .add).1.mp encodes) (by decide)

end InstructionSet

end A64Machine
